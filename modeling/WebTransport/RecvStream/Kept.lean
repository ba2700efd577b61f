import WebTransport.RecvStream.Cursor

/-!
# Who can lose bytes

An operation that ends without its result, because it was cancelled or the stream was
closed or has failed, ends without the bytes that it has taken off the QUIC stream so
far.  Two operations gather bytes: `readexactly` fills its buffer in several calls,
and `read(-1)` leaves that to `read_to_end`, which takes chunks in every poll and
shows them only when it succeeds.  All the others take their bytes with their last
call, on any QUIC stream.
-/

namespace WebTransport.RecvStream

open Support Wrapper

/-! ## What a task takes and keeps -/

/-- The bytes that an operation has taken off the stream when it had `taken` before
and gets an answer.  What a `read_to_end` takes is not known until it succeeds; then
it hands over everything that it has taken. -/
def Event.taken (taken : Option (List UInt8)) : Event → Option (List UInt8)
  | .readChunk _ (.ready (.ok (some data))) => taken.map (· ++ data)
  | .readExact _ (.ready (.ok (some data))) => taken.map (· ++ data)
  | .readToEnd _ (.ready (.ok data)) => some data
  | .readToEnd _ _ => none
  | _ => taken

def takenAfter (taken : Option (List UInt8)) (ans : Option Event) :
    Option (List UInt8) :=
  ans.elim taken (Event.taken taken)

/-- What task `i` has taken after a step. -/
def takes (i : ℕ) (taken : Option (List UInt8)) :
    Action Op Event Empty → Option (List UInt8)
  | .task j ans => if j = i then takenAfter taken ans else taken
  | _ => taken

/-- What task `i` has taken in a run, as far as it is known. -/
def takenBy (i : ℕ) (tr : List (World × Action Op Event Empty)) :
    Option (List UInt8) :=
  tr.foldl (fun taken p => takes i taken p.2) (some [])

/-- The operation has no use for its bytes any more: it was dropped, is on its way
out, or has failed with another exception than that for the end of the stream. -/
def abandoned : CallPc Loc Ret → Bool
  | .dropped | .closing | .closeWaiting | .closeHeld | .closeLoaded _ | .closeSent => true
  | .built (.error e) | .done (.error e) => !marksEnd e
  | _ => false

def atCall : CallPc Loc Ret → Bool
  | .running (.call _) | .suspended _ | .interrupted (some _) => true
  | _ => false

/-- The operation takes its bytes in several calls or polls. -/
def Gathers (op : Op) : Prop :=
  (∃ n, op = .readexactly n) ∨ ∃ n limit, op = .read n limit ∧ n < 0

/-- Only `readexactly` has a buffer that is not empty. -/
def Unbuffered (op : Op) (l : Loc) : Prop :=
  (∀ n, op ≠ .readexactly n) → ∀ buf, l = .call buf → buf = []

/-- An operation is suspended at its call, and only `readexactly` with something in
its buffer. -/
def Tidy : Task Op Loc Ret → Prop
  | .call op pc =>
      match pc with
      | .running l => Unbuffered op l
      | .suspended l | .interrupted (some l) =>
          (∃ buf, l = .call buf) ∧ Unbuffered op l
      | _ => True
  | .exit _ _ => True

/-- A `readexactly` that has no use for its bytes any more, or a `read(-1)` of which
it is not known what it has taken. -/
inductive Forfeits : Task Op Loc Ret → Prop
  | readexactly (n : UInt64) {pc : CallPc Loc Ret} (hpc : abandoned pc = true) :
      Forfeits (.call (.readexactly n) pc)
  | readToEnd {n : Int64} (limit : Option UInt64) {pc : CallPc Loc Ret} (hn : n < 0)
      (hpc : atCall pc = true ∨ abandoned pc = true) :
      Forfeits (.call (.read n limit) pc)

/-- The task has what it has taken, unless it forfeits that. -/
structure Keeps (taken : Option (List UInt8)) (t : Task Op Loc Ret) : Prop where
  tidy : Tidy t
  bytes : taken = some (stage t).bytes ∨ Forfeits t

section Moves

variable {errorFromHttp3 : ErrorFromHttp3} {Q : Answers Event} {v v' : Flags}
  {op : Op} {loc : Loc} {beat : Beat Loc Ret} {ans : Option Event} {i : ℕ}
  {sh sh' : Shared Event Flags} {t t' : Task Op Loc Ret} {w w' : World}
  {l : Action Op Event Empty} {taken : Option (List UInt8)}
  {tr : List (World × Action Op Event Empty)}

theorem takenBy_concat :
    takenBy i (tr ++ [(w, l)]) = takes i (takenBy i tr) l := by
  simp [takenBy]

theorem unbuffered_nil (op : Op) : Unbuffered op (.call []) := by
  intro _ buf h
  cases h
  rfl

theorem unbuffered_eofStore (op : Op) (r : Ret) : Unbuffered op (.eofStore r) := by
  intro _ buf h
  cases h

theorem stage_bytes_of_abandoned {pc : CallPc Loc Ret} (h : abandoned pc = true) :
    (stage (.call op pc)).bytes = [] := by
  cases pc with
  | built r | done r =>
      cases r with
      | ok value => cases h
      | error e => exact deliveredBy_error (by simpa [abandoned] using h)
  | dropped | closing | closeWaiting | closeHeld | closeLoaded | closeSent => rfl
  | _ => cases h

theorem tidy_of_bodyMove (h : BodyMove errorFromHttp3 v op loc ans v' beat) :
    Tidy (.call op beat.pc) := by
  cases h with
  | tests op ht =>
      rcases afterTest_cases op with heq | ⟨limit, rfl, heq⟩ | ⟨n, rfl, -, heq⟩
      · rw [heq]
        exact unbuffered_nil op
      · rw [heq]
        trivial
      · rw [heq]
        trivial
  | endPends | chunkPends | waits => exact ⟨⟨[], rfl⟩, unbuffered_nil _⟩
  | endReads | chunkEnds | exactEnds => exact unbuffered_eofStore _ _
  | exactPends n buf hroom => exact ⟨⟨buf, rfl⟩, fun hop => absurd rfl (hop n)⟩
  | exactReads n buf data hroom => exact fun hop => absurd rfl (hop n)
  | _ => trivial

theorem marksEnd_mapReadToEndError (errorFromHttp3 : ErrorFromHttp3)
    (e : ReadToEndError) (limit : UInt64) :
    marksEnd (mapReadToEndError errorFromHttp3 e limit) = false := by
  cases e with
  | tooLong => rfl
  | readError e => exact marksEnd_mapReadError e

theorem abandoned_of_error {e : PyErr} (h : marksEnd e = false) :
    abandoned (.built (.error e)) = true := by
  rw [abandoned, h]
  rfl

/-- A `read_to_end` hands over all that it has taken, or it stays unknown what that
is. -/
theorem keeps_of_readToEnd {n : Int64} {limit : Option UInt64} {buf : List UInt8}
    (hn : n < 0)
    (h : BodyMove errorFromHttp3 v (.read n limit) (.call buf) ans v' beat) :
    takenAfter taken ans = some (stage (.call (.read n limit) beat.pc)).bytes ∨
      Forfeits (.call (.read n limit) beat.pc) := by
  have hchunk {max : Nat} : ¬ ((∃ m limit', Op.read n limit = .read m limit' ∧ ¬ m < 0 ∧
      max = m.toInt.toNat) ∨ (Op.read n limit = .anext ∧ max = 65536)) := by
    rintro (⟨_, _, ⟨⟩, hm, -⟩ | ⟨⟨⟩, -⟩)
    exact hm hn
  cases h with
  | endPends => exact Or.inr (.readToEnd limit hn (Or.inl rfl))
  | endReads => exact Or.inl rfl
  | endFails _ _ _ l e =>
      have hmarks := marksEnd_mapReadToEndError errorFromHttp3 e l
      exact Or.inr (.readToEnd limit hn (Or.inr (abandoned_of_error hmarks)))
  | chunkPends _ _ _ hop | chunkReads _ _ _ _ hop | chunkEnds _ _ _ hop
  | chunkFails _ _ _ _ hop => exact absurd hop hchunk

/-- A step of a body keeps what it had and gains what it takes, unless it forfeits
that. -/
theorem keeps_of_bodyMove (h : BodyMove errorFromHttp3 v op loc ans v' beat)
    (hempty : Unbuffered op loc) (htaken : taken = some (Stage.body loc).bytes) :
    takenAfter taken ans = some (stage (.call op beat.pc)).bytes ∨
      Forfeits (.call op beat.pc) := by
  subst htaken
  cases h with
  | seesEof op ht hv => exact Or.inl (congrArg some (deliveredBy_eofAnswer op).symm)
  | tests op ht =>
      left
      rcases afterTest_cases op with heq | ⟨limit, -, heq⟩ | ⟨n, -, -, heq⟩ <;>
        (rw [heq]; rfl)
  | endPends n limit buf l hn hl => exact Or.inr (.readToEnd limit hn (Or.inl rfl))
  | endReads n limit buf data l hn hl => exact Or.inl rfl
  | endFails n limit buf l e hn hl =>
      have hmarks := marksEnd_mapReadToEndError errorFromHttp3 e l
      exact Or.inr (.readToEnd limit hn (Or.inr (abandoned_of_error hmarks)))
  | chunkPends op buf max hop =>
      obtain rfl := hempty (not_readexactly_of_chunk hop) buf rfl
      exact Or.inl rfl
  | chunkReads op buf data max hop =>
      obtain rfl := hempty (not_readexactly_of_chunk hop) buf rfl
      exact Or.inl rfl
  | chunkEnds op buf max hop =>
      obtain rfl := hempty (not_readexactly_of_chunk hop) buf rfl
      exact Or.inl (congrArg some (deliveredBy_eofAnswer op).symm)
  | chunkFails op buf max e hop =>
      obtain rfl := hempty (not_readexactly_of_chunk hop) buf rfl
      exact Or.inl (congrArg some (deliveredBy_error (marksEnd_mapReadError e)).symm)
  | exactFull n buf hfull => exact Or.inl rfl
  | exactPends n buf hroom => exact Or.inl rfl
  | exactReads n buf data hroom => exact Or.inl rfl
  | exactEnds n buf hroom => exact Or.inl rfl
  | exactFails n buf e hroom =>
      exact Or.inr (.readexactly n (abandoned_of_error (marksEnd_mapReadError e)))
  | waits buf =>
      obtain rfl := hempty (by simp) buf rfl
      exact Or.inl rfl
  | waitEnds buf code =>
      obtain rfl := hempty (by simp) buf rfl
      exact Or.inl rfl
  | waitFails buf e =>
      obtain rfl := hempty (by simp) buf rfl
      exact Or.inl (congrArg some (deliveredBy_error (marksEnd_mapSessionError e)).symm)
  | storesEof op r => exact Or.inl rfl

theorem not_forfeits_exit {b : Bool} {pc : ExitPc} : ¬ Forfeits (.exit b pc) :=
  nofun

theorem not_forfeits {pc : CallPc Loc Ret} (hcall : atCall pc = false)
    (hpc : abandoned pc = false) : ¬ Forfeits (.call op pc) := by
  rintro (⟨n, hpc'⟩ | ⟨limit, hn, hpc' | hpc'⟩) <;> simp_all

theorem Forfeits.abandoned {pc pc' : CallPc Loc Ret} (h : Forfeits (.call op pc))
    (hpc' : RecvStream.abandoned pc' = true) : Forfeits (.call op pc') := by
  cases h with
  | readexactly n hpc => exact .readexactly n hpc'
  | readToEnd limit hn hpc => exact .readToEnd limit hn (Or.inr hpc')

theorem Forfeits.atCall {pc pc' : CallPc Loc Ret} (h : Forfeits (.call op pc))
    (hpc : RecvStream.abandoned pc = false) (hpc' : RecvStream.atCall pc' = true) :
    Forfeits (.call op pc') := by
  cases h with
  | readexactly n habandoned =>
      rw [hpc] at habandoned
      cases habandoned
  | readToEnd limit hn _ => exact .readToEnd limit hn (Or.inl hpc')

theorem Keeps.givesUp {pc pc' : CallPc Loc Ret} {l : Loc}
    (htaken : taken = some (Stage.body l).bytes ∨ Forfeits (.call op pc))
    (hl : ∃ buf, l = .call buf) (hempty : Unbuffered op l)
    (hpc' : abandoned pc' = true) (hstage : (stage (.call op pc')).bytes = [])
    (htidy : Tidy (.call op pc')) : Keeps taken (.call op pc') := by
  refine ⟨htidy, ?_⟩
  rcases htaken with htaken | hforfeits
  · by_cases hop : ∃ n, op = .readexactly n
    · obtain ⟨n, rfl⟩ := hop
      exact Or.inr (.readexactly n hpc')
    · left
      push Not at hop
      obtain ⟨buf, rfl⟩ := hl
      obtain rfl := hempty hop buf rfl
      rw [htaken, hstage]
      rfl
  · exact Or.inr (hforfeits.abandoned hpc')

theorem Forfeits.returns {r : Ret} (h : Forfeits (.call op (.built r))) :
    Forfeits (.call op (.done r)) := by
  have hdone : RecvStream.abandoned (.done r) = RecvStream.abandoned (.built r) := by
    cases r <;> rfl
  cases h with
  | readexactly n hpc => exact .readexactly n (hdone.trans hpc)
  | readToEnd limit hn hpc =>
      rcases hpc with hpc | hpc
      · cases hpc
      · exact .readToEnd limit hn (Or.inr (hdone.trans hpc))

theorem Keeps.works (h : Keeps taken (.call op (.running loc)))
    (hbody : BodyMove errorFromHttp3 v op loc ans v' beat) :
    Keeps (takenAfter taken ans) (.call op beat.pc) := by
  refine ⟨tidy_of_bodyMove hbody, ?_⟩
  rcases h.bytes with hbytes | hforfeits
  · exact keeps_of_bodyMove hbody h.tidy hbytes
  · cases hforfeits with
    | readexactly n hpc => cases hpc
    | readToEnd limit hn hpc =>
        cases loc with
        | call buf => exact keeps_of_readToEnd hn hbody
        | _ => rcases hpc with hpc | hpc <;> cases hpc

theorem Keeps.enters (h : Keeps taken (.call op .checked)) :
    Keeps taken (.call op (.running ((half errorFromHttp3).enter op))) := by
  have hnothing :
      (stage (.call op (.running ((half errorFromHttp3).enter op)))).bytes = [] :=
    (blank_of_enter op).bytes
  refine ⟨?_, Or.inl ?_⟩
  · cases op with
    | waitClosed => exact unbuffered_nil _
    | _ =>
        intro _ buf heq
        cases heq
  · exact (h.bytes.resolve_right (not_forfeits rfl rfl)).trans
      (congrArg some hnothing.symm)

theorem Keeps.taskMove (h : Keeps taken t)
    (hm : TaskMove (half errorFromHttp3) i sh t ans t' sh') :
    Keeps (takenAfter taken ans) t' := by
  cases hm with
  | exit b hm =>
      refine ⟨trivial, ?_⟩
      left
      rw [h.bytes.resolve_right not_forfeits_exit]
      cases hm with
      | sendsClose b e hb he =>
          cases e with
          | stop => rfl
          | _ => cases he
      | sendsFinish b e hb he => cases he
      | _ => rfl
  | call op hm =>
      cases hm with
      | works loc ans v' beat hb => exact h.works (bodyMove_of_body hb)
      | enters ho => exact h.enters
      | suspendedUnset loc hc =>
          obtain ⟨⟨buf, rfl⟩, hempty⟩ := h.tidy
          exact ⟨hempty, h.bytes.imp_right fun hf => hf.atCall rfl rfl⟩
      | suspendedSet loc hc =>
          exact ⟨h.tidy, h.bytes.imp_right fun hf => hf.atCall rfl rfl⟩
      | letsGo loc =>
          cases loc with
          | none =>
              exact ⟨trivial, Or.inl (h.bytes.resolve_right (not_forfeits rfl rfl))⟩
          | some loc => exact Keeps.givesUp h.bytes h.tidy.1 h.tidy.2 rfl rfl trivial
      | returns r => exact ⟨trivial, h.bytes.imp_right Forfeits.returns⟩
      | closeSends code e he =>
          cases e with
          | stop => exact ⟨trivial, h.bytes.imp_right fun hf => hf.abandoned rfl⟩
          | _ => cases he
      | closeLocks | closeQueues | closeWakes | closeLoads | closeReturns =>
          exact ⟨trivial, h.bytes.imp_right fun hf => hf.abandoned rfl⟩
      | spawnedSet | spawnedUnset | waitingSet | waitingUnset | queues =>
          exact ⟨trivial, Or.inl (h.bytes.resolve_right (not_forfeits rfl rfl))⟩

theorem Keeps.dropMove (h : Keeps taken t)
    (hm : DropMove (half errorFromHttp3) i sh t t' sh') : Keeps taken t' := by
  cases hm with
  | callSuspended op loc => exact Keeps.givesUp h.bytes h.tidy.1 h.tidy.2 rfl rfl trivial
  | callSpawned op | callWaiting op =>
      exact ⟨trivial, Or.inl (h.bytes.resolve_right (not_forfeits rfl rfl))⟩
  | callCloseWaiting op => exact ⟨trivial, h.bytes.imp_right fun hf => hf.abandoned rfl⟩
  | exitSpawned b | exitWaiting b =>
      exact ⟨trivial, Or.inl (h.bytes.resolve_right not_forfeits_exit)⟩

/-! ## The ledger of a run -/

/-- Every task keeps what it takes, and nobody else takes anything. -/
structure Ledger (tr : List (World × Action Op Event Empty)) (w : World) : Prop where
  inside : ∀ (i : ℕ) (t : Task Op Loc Ret), w.tasks[i]? = some t →
    Keeps (takenBy i tr) t
  outside : ∀ i, w.tasks[i]? = none → takenBy i tr = some []

theorem takes_eq_self (hl : ∀ ans, l ≠ .task i ans) : takes i taken l = taken := by
  cases l with
  | task j ans =>
      have hji : j ≠ i := by
        rintro rfl
        exact hl ans rfl
      rw [takes, if_neg hji]
  | _ => rfl

theorem Ledger.spawn (h : Ledger tr w) (hl : ∀ i ans, l ≠ .task i ans)
    (ht : Keeps (some []) t) (hw : w'.tasks = w.tasks ++ [t]) :
    Ledger (tr ++ [(w, l)]) w' where
  inside := by
    have hsame : ∀ i, takenBy i (tr ++ [(w, l)]) = takenBy i tr := by
      intro i
      rw [takenBy_concat, takes_eq_self (hl i)]
    rw [hw]
    apply forall_getElem?_concat
    · rw [hsame, h.outside _ (List.getElem?_eq_none (Nat.le_refl _))]
      exact ht
    · intro i u hi
      rw [hsame]
      exact h.inside i u hi
  outside i hi := by
    rw [takenBy_concat, takes_eq_self (hl i)]
    apply h.outside
    rw [List.getElem?_eq_none_iff] at hi ⊢
    rw [hw, List.length_append] at hi
    omega

theorem Ledger.tail (h : Ledger tr w) (hlength : w'.tasks.length = w.tasks.length)
    (hinside : ∀ (i : ℕ) (t : Task Op Loc Ret), w.tasks[i]? = some t →
      ∃ t', w'.tasks[i]? = some t' ∧ Keeps (takes i (takenBy i tr) l) t')
    (houtside : ∀ i, w.tasks[i]? = none → takes i (takenBy i tr) l = takenBy i tr) :
    Ledger (tr ++ [(w, l)]) w' where
  inside i t' hi' := by
    rw [takenBy_concat]
    have hlt : i < w.tasks.length := hlength ▸ lt_length_of_getElem? hi'
    obtain ⟨u, hu, hkeeps⟩ := hinside i _ (List.getElem?_eq_getElem hlt)
    obtain rfl := Option.some.inj (hi'.symm.trans hu)
    exact hkeeps
  outside i hi' := by
    have hi : w.tasks[i]? = none := by
      rw [List.getElem?_eq_none_iff] at hi' ⊢
      omega
    rw [takenBy_concat, houtside i hi, h.outside i hi]

theorem ledger_step (h : Ledger tr w) (hstep : (half errorFromHttp3).Step Q w l w') :
    Ledger (tr ++ [(w, l)]) w' := by
  have hrest : (∀ i ans, l ≠ .task i ans) → w'.tasks = w.tasks →
      Ledger (tr ++ [(w, l)]) w' := by
    intro hl hw
    apply h.tail (by rw [hw])
    · intro i t hi
      rw [takes_eq_self (hl i), hw]
      exact ⟨t, hi, h.inside i t hi⟩
    · exact fun i _ => takes_eq_self (hl i)
  cases hstep.move with
  | call op =>
      refine h.spawn (by simp) ?_ rfl
      exact ⟨trivial, Or.inl rfl⟩
  | exit b =>
      refine h.spawn (by simp) ?_ rfl
      exact ⟨trivial, Or.inl rfl⟩
  | closeRefused | closeBegins => exact hrest (by simp) rfl
  | assigns k => exact k.elim
  | python => exact hrest (by simp) rfl
  | @task j ans t t' sh hj hm =>
      apply h.tail (by simp)
      · intro i u hi
        by_cases hij : j = i
        · subst hij
          obtain rfl := Option.some.inj (hj.symm.trans hi)
          refine ⟨t', getElem?_set_of_eq_some hj, ?_⟩
          rw [takes, if_pos rfl]
          exact (h.inside j _ hj).taskMove hm
        · refine ⟨u, getElem?_set_of_ne hij hi, ?_⟩
          rw [takes, if_neg hij]
          exact h.inside i u hi
      · intro i hi
        have hij : j ≠ i := by
          rintro rfl
          rw [hi] at hj
          cases hj
        rw [takes, if_neg hij]
  | @drop j t t' sh hj hm =>
      apply h.tail (by simp)
      · intro i u hi
        rw [takes_eq_self (by simp)]
        by_cases hij : j = i
        · subst hij
          obtain rfl := Option.some.inj (hj.symm.trans hi)
          exact ⟨t', getElem?_set_of_eq_some hj, (h.inside j _ hj).dropMove hm⟩
        · exact ⟨u, getElem?_set_of_ne hij hi, h.inside i u hi⟩
      · exact fun i _ => takes_eq_self (by simp)

theorem ledger_of_run (h : Run ((half errorFromHttp3).Step Q) new tr w) :
    Ledger tr w := by
  induction h with
  | refl =>
      refine ⟨?_, fun i _ => rfl⟩
      intro i t hi
      simp [World.init] at hi
  | tail _ hstep ih => exact ledger_step ih hstep

/-- In every run, on any QUIC stream.  An operation that does not gather bytes has
what it has taken in its result, and if it ends without a result it has taken
nothing.  What a `readexactly` has taken is in its buffer or in its result, the bytes
of a `StreamIncompleteReadError` included, unless it was cancelled, interrupted by a
close, or has failed.  A `read(-1)` that returns hands over what it has taken; nothing
is said of one that is at its call or was given up. -/
theorem only_gathering_loses (h : Run ((half errorFromHttp3).Step Q) new tr w)
    {pc : CallPc Loc Ret} (hi : w.tasks[i]? = some (.call op pc)) :
    (¬ Gathers op → takenBy i tr = some (stage (.call op pc)).bytes ∧
      (abandoned pc = true → takenBy i tr = some [])) ∧
    (∀ n, op = .readexactly n → abandoned pc = false →
      takenBy i tr = some (stage (.call op pc)).bytes) ∧
    ∀ r, pc = .done r → abandoned pc = false → takenBy i tr = some (deliveredBy r) := by
  have hkeeps := (ledger_of_run h).inside i _ hi
  refine ⟨fun hop => ?_, ?_, ?_⟩
  · have hbytes : takenBy i tr = some (stage (.call op pc)).bytes := by
      refine hkeeps.bytes.resolve_right fun hforfeits => hop ?_
      cases hforfeits with
      | readexactly n => exact Or.inl ⟨n, rfl⟩
      | readToEnd limit hn => exact Or.inr ⟨_, limit, rfl, hn⟩
    exact ⟨hbytes, fun hpc => by rw [hbytes, stage_bytes_of_abandoned hpc]⟩
  · rintro n rfl hpc
    refine hkeeps.bytes.resolve_right ?_
    rintro (⟨_, hpc'⟩ | ⟨⟩)
    rw [hpc] at hpc'
    cases hpc'
  · rintro r rfl hpc
    exact hkeeps.bytes.resolve_right (not_forfeits rfl hpc)

end Moves

/-- A `readexactly` is cancelled when it has the first of two bytes, and a `read`
before it has any. -/
def cancelledReads : List (Action Op Event Empty) :=
  startCall (.readexactly 2) 0 ++
    [.task 0 (some (.readExact 2 (.ready (.ok (some [1]))))),
      .task 0 (some (.readExact 1 .pending)), .drop 0] ++
    startCall (.read 5 none) 1 ++
    [.task 1 (some (.readChunk 5 .pending)), .drop 1]

/-- The `read` has taken nothing. -/
theorem cancelledReads_keep :
    takenBy 1 (replayTrace ((half noCodes).tryNext (finishedStream [1, 2])) new
      cancelledReads) = some [] := by
  have hrun := run_after (S := [1, 2]) (w := new) cancelledReads (by decide)
  have hread : (after [1, 2] new cancelledReads).tasks[1]? =
      some (.call (.read 5 none) .dropped) := rfl
  have hbounded : ¬ Gathers (.read 5 none) := by
    rintro (⟨n, ⟨⟩⟩ | ⟨n, limit, ⟨⟩, hn⟩)
    exact absurd hn (by decide)
  exact ((only_gathering_loses hrun hread).1 hbounded).2 rfl

end WebTransport.RecvStream
