import WebTransport.RecvStream.Model
import WebTransport.Support.Indexed

/-!
# Ordered and unordered reads

`read_to_end` leaves the QUIC stream in unordered mode, in which every ordered
read is refused.  The flag for the end of the stream hides this after a read to
the end that succeeds, but not after one that was cancelled or ran over its
limit: the next ordered read then raises an exception that is meant for a peer
that breaks the protocol.
-/

namespace WebTransport.RecvStream

open Support Wrapper

/-! ## What a read may give -/

def result : Task Op Loc Ret → Option Ret
  | .call _ (.built r) | .call _ (.done r) => some r
  | _ => none

/-- A read gives data, the end of the stream, or the exception for a limit or
for a stream that is too short. -/
def Expected : Ret → Prop
  | .ok (.bytes _) => True
  | .error .stopAsyncIteration => True
  | .error (.streamTooLongError _ _) => True
  | .error (.streamIncompleteReadError _ _ _) => True
  | _ => False

/-- Only the four reads are called; they may be cancelled. -/
def ReadsOnly (_ : World) : Action Op Event Empty → Prop
  | .call op => op ≠ .waitClosed
  | .task _ _ | .drop _ => True
  | _ => False

/-- Every read that has come to a result gives what it should. -/
def AllExpected (w : World) : Prop :=
  ∀ t ∈ w.tasks, ∀ r, result t = some r → Expected r

/-- Reads of a well-behaved peer always give what they should, in the runs whose
steps meet `K`. -/
def NeverRefused (errorFromHttp3 : ErrorFromHttp3) (Q : Answers Event)
    (K : World → Action Op Event Empty → Prop) : Prop :=
  ∀ {tr : List (World × Action Op Event Empty)} {w : World},
    Run ((half errorFromHttp3).Step Q) new tr w → Along ReadsOnly tr →
    Along K tr → AllExpected w

/-- The task is about to read from the QUIC stream in order. -/
def readsInOrder : Task Op Loc Ret → Bool
  | .call (.read n _) (.running (.call _)) => 0 ≤ n
  | .call (.readexactly n) (.running (.call buf)) => buf.length < n.toNat
  | .call .anext (.running (.call _)) => true
  | _ => false

/-- The task is about to allocate a buffer that nobody can have. -/
def overallocates (v : Flags) : Task Op Loc Ret → Bool
  | .call (.readexactly n) (.running .eofTest) => !v.eof && maxAlloc < n.toNat
  | _ => false

/-- No task goes on to an ordered read after the stream was read in unordered
mode, or to a buffer that cannot be allocated. -/
def KeepsMode (w : World) : Action Op Event Empty → Prop
  | .task i _ => ∀ t ∈ w.tasks[i]?,
      (readsInOrder t = true → ¬ Seen Event.unordered w.log) ∧
        overallocates w.vars t = false
  | _ => True

instance (w : World) (l : Action Op Event Empty) : Decidable (ReadsOnly w l) :=
  match l with
  | .call op => inferInstanceAs (Decidable (op ≠ .waitClosed))
  | .task _ _ | .drop _ => isTrue trivial
  | .exit _ | .close _ | .assign _ | .python _ => isFalse id

instance (w : World) (l : Action Op Event Empty) : Decidable (KeepsMode w l) :=
  match l with
  | .task i _ => inferInstanceAs (Decidable (∀ t ∈ w.tasks[i]?, _))
  | .call _ | .exit _ | .close _ | .assign _ | .python _ | .drop _ => isTrue trivial

/-! ## Reads that meet the condition -/

/-- A place in a body whose result, if it has one, is as it should be. -/
def SoundLoc : Loc → Prop
  | .eofStore r => Expected r
  | _ => True

/-- A task of a read that has not been interrupted by a local close. -/
def SoundPc : CallPc Loc Ret → Prop
  | .spawned | .checked | .waiting | .dropped => True
  | .running l | .suspended l => SoundLoc l
  | .built r | .done r => Expected r
  | _ => False

def Sound : Task Op Loc Ret → Prop
  | .call op pc => op ≠ .waitClosed ∧ SoundPc pc
  | .exit _ _ => False

theorem Sound.expected {t : Task Op Loc Ret} (h : Sound t) {r : Ret}
    (hr : result t = some r) : Expected r := by
  unfold result at hr
  split at hr
  · cases hr
    exact h.2
  · cases hr
    exact h.2
  · cases hr

section Moves

variable {errorFromHttp3 : ErrorFromHttp3} {Q : Answers Event} {i : ℕ}
  {sh sh' : Shared Event Flags} {t t' : Task Op Loc Ret} {ans : Option Event}
  {w w' : World} {l : Action Op Event Empty} {v v' : Flags} {op : Op}
  {loc : Loc} {beat : Beat Loc Ret} {log : List Event}

theorem expected_eofAnswer (hop : op ≠ .waitClosed) : Expected (eofAnswer op) := by
  cases op with
  | waitClosed => exact absurd rfl hop
  | _ => trivial

/-- A step of a read comes to no other result than it should, unless it reads in
order from a stream in unordered mode or asks for too large a buffer. -/
theorem sound_of_bodyMove (hQ : WellBehaved Q) (hans : ∀ e ∈ ans, Q log e)
    (h : BodyMove errorFromHttp3 v op loc ans v' beat) (hop : op ≠ .waitClosed)
    (hloc : SoundLoc loc)
    (hmode : readsInOrder (.call op (.running loc)) = true →
      ¬ Seen Event.unordered log)
    (halloc : overallocates v (.call op (.running loc)) = false) :
    SoundPc beat.pc := by
  cases h with
  | seesEof op ht hv => exact expected_eofAnswer hop
  | tests op ht =>
      rcases afterTest_cases op with hcall | ⟨limit, rfl, hready⟩ |
        ⟨n, rfl, hlarge, -⟩
      · rw [hcall]
        trivial
      · rw [hready]
        trivial
      · have hn : n ≠ 0 := by
          rintro rfl
          rw [UInt64.toNat_zero] at hlarge
          exact Nat.not_lt_zero _ hlarge
        have hv : v.eof = false := ht (testsEof_readexactly.mpr hn)
        simp [overallocates, hv, hlarge] at halloc
  | endFails n limit buf l e hn hl =>
      obtain rfl : e = .tooLong := hQ.toEnd (hans _ rfl)
      trivial
  | chunkEnds op buf max hkind => exact expected_eofAnswer hop
  | chunkFails op buf max e hkind =>
      have hseen : Seen Event.unordered log := (hQ.chunk (hans _ rfl)).2 e rfl
      refine absurd hseen (hmode ?_)
      rcases hkind with ⟨n, limit, rfl, hn, -⟩ | ⟨rfl, -⟩
      · simpa [readsInOrder] using Int64.not_lt.mp hn
      · rfl
  | exactFails n buf e hroom =>
      have hseen : Seen Event.unordered log := (hQ.exact (hans _ rfl)).2 e rfl
      exact absurd hseen (hmode (by simpa [readsInOrder] using hroom))
  | waits | waitEnds | waitFails => exact absurd rfl hop
  | storesEof op r => exact hloc
  | _ => trivial

theorem sound_of_taskMove (hQ : WellBehaved Q) (hans : ∀ e ∈ ans, Q sh.log e)
    (h : TaskMove (half errorFromHttp3) i sh t ans t' sh')
    (hc : sh.cancelled = false) (ht : Sound t)
    (hmode : readsInOrder t = true → ¬ Seen Event.unordered sh.log)
    (halloc : overallocates sh.vars t = false) :
    Sound t' ∧ sh'.cancelled = false := by
  cases h with
  | exit b h => exact ht.elim
  | call op h =>
      cases h with
      | spawnedSet hset | waitingSet hset | suspendedSet l hset =>
          rw [hc] at hset
          cases hset
      | works loc ans vars beat hb =>
          exact ⟨⟨ht.1, sound_of_bodyMove hQ hans (bodyMove_of_body hb) ht.1 ht.2
            hmode halloc⟩, hc⟩
      | enters ho =>
          refine ⟨⟨ht.1, ?_⟩, hc⟩
          cases op <;> trivial
      | letsGo | closeLocks | closeQueues | closeWakes | closeLoads
      | closeSends | closeReturns => exact ht.2.elim
      | _ => exact ⟨ht, hc⟩

theorem sound_of_dropMove (h : DropMove (half errorFromHttp3) i sh t t' sh')
    (ht : Sound t) : Sound t' ∧ sh'.cancelled = sh.cancelled := by
  cases h with
  | exitSpawned | exitWaiting => exact ht.elim
  | callCloseWaiting => exact ht.2.elim
  | _ => exact ⟨⟨ht.1, trivial⟩, rfl⟩

/-- Nothing but sound reads, and nobody has closed the stream. -/
structure AllSound (w : World) : Prop where
  tasks : ∀ (i : ℕ) (t : Task Op Loc Ret), w.tasks[i]? = some t → Sound t
  python : w.python = .idle
  cancelled : w.cancelled = false

theorem allSound_new : AllSound new where
  tasks i t hi := by simp [World.init] at hi
  python := rfl
  cancelled := rfl

theorem allSound_step (hQ : WellBehaved Q)
    (hK : ReadsOnly w l ∧ KeepsMode w l) (h : (half errorFromHttp3).Step Q w l w')
    (hw : AllSound w) : AllSound w' := by
  obtain ⟨hreads, hmode⟩ := hK
  cases h.move with
  | call op =>
      refine ⟨?_, hw.python, hw.cancelled⟩
      exact forall_getElem?_concat ⟨hreads, trivial⟩ hw.tasks
  | exit | closeRefused | closeBegins | assigns | python => exact hreads.elim
  | task i ans hi hm =>
      obtain ⟨hkeep, halloc⟩ := hmode _ hi
      obtain ⟨hsound, hc⟩ :=
        sound_of_taskMove hQ h.2 hm hw.cancelled (hw.tasks i _ hi) hkeep halloc
      exact ⟨forall_getElem?_set hsound fun j u _ => hw.tasks j u, hw.python, hc⟩
  | drop i hi hm =>
      obtain ⟨hsound, hc⟩ := sound_of_dropMove hm (hw.tasks i _ hi)
      exact ⟨forall_getElem?_set hsound fun j u _ => hw.tasks j u, hw.python,
        hc.trans hw.cancelled⟩

/-! ## Steps that break the condition -/

/-- Some read has come to a result that it should not give. -/
def Refused (w : World) : Prop :=
  ∃ (i : ℕ) (t : Task Op Loc Ret) (r : Ret),
    w.tasks[i]? = some t ∧ result t = some r ∧ ¬ Expected r

/-- An ordered read in unordered mode is refused. -/
theorem refused_of_unordered (hQ : WellBehaved Q) (hans : ∀ e ∈ ans, Q log e)
    (h : BodyMove errorFromHttp3 v op loc ans v' beat)
    (hseen : Seen Event.unordered log)
    (hreads : readsInOrder (.call op (.running loc)) = true) :
    ∃ r, beat = .ready r ∧ ¬ Expected r := by
  have hrefuse : ∀ {max r}, ans = some (.readChunk max r) →
      r = .ready (.error .illegalOrderedRead) := by
    rintro max r rfl
    exact (hQ.chunk (hans _ rfl)).1 hseen
  have hrefuse' : ∀ {want r}, ans = some (.readExact want r) →
      r = .ready (.error .illegalOrderedRead) := by
    rintro want r rfl
    exact (hQ.exact (hans _ rfl)).1 hseen
  cases h with
  | chunkPends => cases hrefuse rfl
  | chunkReads => cases hrefuse rfl
  | chunkEnds => cases hrefuse rfl
  | chunkFails op buf max e hkind =>
      cases hrefuse rfl
      exact ⟨_, rfl, id⟩
  | exactPends => cases hrefuse' rfl
  | exactReads => cases hrefuse' rfl
  | exactEnds => cases hrefuse' rfl
  | exactFails n buf e hroom =>
      cases hrefuse' rfl
      exact ⟨_, rfl, id⟩
  | exactFull n buf hfull =>
      have hroom : buf.length < n.toNat := by simpa [readsInOrder] using hreads
      omega
  | endPends n limit buf l hn hl | endReads n limit buf data l hn hl
  | endFails n limit buf l e hn hl =>
      have hle : 0 ≤ n := by simpa [readsInOrder] using hreads
      exact absurd hn (Int64.not_lt.mpr hle)
  | _ => simp [readsInOrder] at hreads

theorem refused_of_overallocates
    (h : BodyMove errorFromHttp3 v op loc ans v' beat)
    (halloc : overallocates v (.call op (.running loc)) = true) :
    ∃ r, beat = .ready r ∧ ¬ Expected r := by
  unfold overallocates at halloc
  split at halloc
  · rename_i n heq
    cases heq
    simp only [Bool.and_eq_true, Bool.not_eq_true', decide_eq_true_eq] at halloc
    cases h with
    | seesEof _ ht hv =>
        rw [halloc.1] at hv
        cases hv
    | tests _ ht => exact ⟨_, if_pos halloc.2, id⟩
  · cases halloc

theorem refused_of_step (hQ : WellBehaved Q)
    (h : (half errorFromHttp3).Step Q w l w') (hK : ¬ KeepsMode w l) :
    Refused w' := by
  have hbody : ∀ {i t} {t' : Task Op Loc Ret} {sh : Shared Event Flags} {ans},
      l = .task i ans →
      TaskMove (half errorFromHttp3) i w.toShared t ans t' sh →
      readsInOrder t = true ∧ Seen Event.unordered w.log ∨
        overallocates w.vars t = true →
      ∃ r, result t' = some r ∧ ¬ Expected r := by
    rintro i t t' sh ans rfl hm hbad
    cases hm with
    | exit => rcases hbad with ⟨hreads, -⟩ | halloc <;> contradiction
    | call op hm =>
        cases hm with
        | works loc ans vars beat hb =>
            have hmove := bodyMove_of_body hb
            obtain ⟨r, rfl, hr⟩ : ∃ r, beat = .ready r ∧ ¬ Expected r := by
              rcases hbad with ⟨hreads, hseen⟩ | halloc
              · exact refused_of_unordered hQ h.2 hmove hseen hreads
              · exact refused_of_overallocates hmove halloc
            exact ⟨r, rfl, hr⟩
        | _ =>
            simp [readsInOrder, overallocates] at hbad
  cases h.move with
  | task i ans hi hm =>
      simp only [KeepsMode, hi, Option.mem_def, Option.some.injEq, forall_eq',
        not_and_or, Classical.not_imp, not_not, Bool.not_eq_false] at hK
      obtain ⟨r, hr, hnot⟩ := hbody rfl hm hK
      exact ⟨i, _, r, getElem?_set_of_eq_some hi, hr, hnot⟩
  | _ => exact absurd trivial hK

theorem result_of_taskMove (h : TaskMove (half errorFromHttp3) i sh t ans t' sh')
    {r : Ret} (hr : result t = some r) : result t' = some r := by
  cases h with
  | exit => cases hr
  | call op h =>
      cases h with
      | returns => exact hr
      | _ => simp [result] at hr

theorem refused_mono (h : (half errorFromHttp3).Step Q w l w') (hw : Refused w) :
    Refused w' := by
  obtain ⟨i, t, r, hi, hr, hnot⟩ := hw
  cases h.move with
  | call | exit => exact ⟨i, t, r, getElem?_concat_of_eq_some hi, hr, hnot⟩
  | closeRefused | closeBegins | assigns | python => exact ⟨i, t, r, hi, hr, hnot⟩
  | task j ans hj hm =>
      by_cases hji : j = i
      · subst hji
        obtain rfl := Option.some.inj (hi.symm.trans hj)
        exact ⟨j, _, r, getElem?_set_of_eq_some hi, result_of_taskMove hm hr, hnot⟩
      · exact ⟨i, t, r, getElem?_set_of_ne hji hi, hr, hnot⟩
  | drop j hj hm =>
      by_cases hji : j = i
      · subst hji
        obtain rfl := Option.some.inj (hi.symm.trans hj)
        cases hm <;> simp [result] at hr
      · exact ⟨i, t, r, getElem?_set_of_ne hji hi, hr, hnot⟩

/-- Reads of a well-behaved peer all give what they should exactly in the runs
in which no ordered read goes to the stream after an unordered one, and no
`readexactly` asks for a buffer that cannot be allocated. -/
theorem allExpected_iff_keepsMode (hQ : WellBehaved Q)
    {tr : List (World × Action Op Event Empty)}
    (h : Run ((half errorFromHttp3).Step Q) new tr w) (hreads : Along ReadsOnly tr) :
    AllExpected w ↔ Along KeepsMode tr := by
  constructor
  · intro hall
    refine h.along_of_not (B := Refused) (fun _ _ _ => refused_of_step hQ)
      (fun _ _ _ => refused_mono) ?_
    rintro ⟨i, t, r, hi, hr, hnot⟩
    exact hnot (hall t (List.mem_of_getElem? hi) r hr)
  · intro hmode t ht r hr
    have hboth : Along (fun w l => ReadsOnly w l ∧ KeepsMode w l) tr :=
      fun p hp => ⟨hreads p hp, hmode p hp⟩
    have hw : AllSound w :=
      h.invariant (fun _ _ _ => allSound_step hQ) hboth allSound_new
    obtain ⟨i, hi⟩ := List.getElem?_of_mem ht
    exact (hw.tasks i t hi).expected hr

end Moves

def tooLong : List (Action Op Event Empty) :=
  startCall (.read (-1) (some 1)) 0 ++
    [.task 0 (some (.readToEnd 1 (.ready (.error .tooLong)))), .task 0 none]

/-- After a read to the end that ran over its limit, another one gives what is left. -/
theorem readToEnd_after_tooLong :
    AllExpected (after [1, 2, 3] new (tooLong ++ startCall (.read (-1) none) 1 ++
      [.task 1 (some (.readToEnd (.ofNat (2 ^ 64 - 1)) (.ready (.ok [3])))),
        .task 1 none, .task 1 none])) :=
  (allExpected_iff_keepsMode (finishedStream_wellBehaved [1, 2, 3])
    (run_after _ (by decide)) (by decide)).mpr (by decide)

/-- An ordered read is refused. -/
theorem read_after_tooLong_refused :
    ¬ NeverRefused noCodes (FinishedStream [1, 2, 3]) fun _ _ => True := by
  intro h
  have hall := h (run_after (tooLong ++ startCall (.read 5 none) 1 ++
    [.task 1 (some (.readChunk 5 (.ready (.error .illegalOrderedRead)))),
      .task 1 none]) (by decide)) (by decide) along_true
  exact hall (.call (.read 5 none) (.done (.error
    (.protocolError "illegal ordered read on unordered stream"))))
    (List.mem_of_getElem? (i := 1) rfl) _ rfl

end WebTransport.RecvStream
