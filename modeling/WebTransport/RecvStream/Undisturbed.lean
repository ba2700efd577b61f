import WebTransport.RecvStream.EndOfStream
import WebTransport.Wrapper.Token

/-!
# Streams that are only read

As long as nobody closes the stream or leaves its context, the only calls on the
QUIC stream are those of the bodies.  If no `read(-1)` fails or is dropped on top
of that, unordered reading is over as soon as it has begun: it takes all that is
left, and the flag is set.
-/

namespace WebTransport.RecvStream

open Support Wrapper

def toEnd : Op → Bool
  | .read n _ => n < 0
  | _ => false

def atReadToEnd : Task Op Loc Ret → Bool
  | .call op (.suspended _) => toEnd op
  | _ => false

/-- A step of a run in which the stream is only read: nobody calls `stop` or
leaves the context, and no `read(-1)` fails or is dropped in its call. -/
def Undisturbed (w : World) : Action Op Event Empty → Prop
  | .close _ | .exit _ => False
  | .task _ (some (.readToEnd _ (.ready (.error _)))) => False
  | .drop i => (w.tasks[i]?.any atReadToEnd) = false
  | _ => True

instance (w : World) :
    (l : Action Op Event Empty) → Decidable (Undisturbed w l)
  | .close _ | .exit _ => inferInstanceAs (Decidable False)
  | .task _ (some (.readToEnd _ (.ready (.error _)))) =>
      inferInstanceAs (Decidable False)
  | .task _ (some (.readToEnd _ (.ready (.ok _))))
  | .task _ (some (.readToEnd _ .pending)) | .task _ (some (.readChunk _ _))
  | .task _ (some (.readExact _ _)) | .task _ (some (.receivedReset _))
  | .task _ (some (.stop _ _)) | .task _ (some .dropped) | .task _ none
  | .call _ | .assign _ | .python _ => inferInstanceAs (Decidable True)
  | .drop _ => inferInstanceAs (Decidable (_ = _))

/-- One `read_to_end` has been called at most, and nothing else since. -/
def Fresh (log : List Event) : Prop :=
  ∃ pre polls, log = pre ++ polls ∧ ¬ Seen Event.unordered pre ∧
    ∀ e ∈ polls, ∃ limit, e = .readToEnd limit .pending

/-- The answers of a stream on which the peer has sent the bytes `S` and `FIN`.
As long as the stream has not been read in unordered mode, `read_exact` yields
the next bytes and does not fail, and the end is reported once all bytes are
taken; the first `read_to_end` takes all that is left. -/
structure FinishedPeer (Q : Answers Event) (S : List UInt8) : Prop where
  exact : ∀ {log want data}, Q log (.readExact want (.ready (.ok (some data)))) →
    ¬ Seen Event.unordered log →
    data ≠ [] ∧ data.length ≤ want ∧ consumed log ++ data <+: S
  exactEnd : ∀ {log want}, Q log (.readExact want (.ready (.ok none))) →
    ¬ Seen Event.unordered log → consumed log = S
  exactFails : ∀ {log want e}, Q log (.readExact want (.ready (.error e))) →
    Seen Event.unordered log
  chunkEnd : ∀ {log max}, Q log (.readChunk max (.ready (.ok none))) →
    ¬ Seen Event.unordered log → consumed log = S
  toEnd : ∀ {log limit data}, Q log (.readToEnd limit (.ready (.ok data))) →
    Fresh log → consumed log ++ data = S

theorem fresh_of_not_unordered {log : List Event} (h : ¬ Seen Event.unordered log) :
    Fresh log :=
  ⟨log, [], (List.append_nil log).symm, h, by simp⟩

theorem Fresh.pending {log : List Event} (h : Fresh log) (limit : UInt64) :
    Fresh (log ++ [.readToEnd limit .pending]) := by
  obtain ⟨pre, polls, rfl, hpre, hpolls⟩ := h
  refine ⟨pre, polls ++ [.readToEnd limit .pending], by simp, hpre, ?_⟩
  intro e he
  rcases List.mem_append.mp he with hold | hnew
  · exact hpolls e hold
  · exact ⟨limit, List.mem_singleton.mp hnew⟩

/-! ## Nobody has closed the stream -/

/-- The task of an operation that is not in its cancel branch. -/
def plain : Task Op Loc Ret → Bool
  | .call op pc => !(Task.call op pc : Task Op Loc Ret).inCancelBranch
  | .exit _ _ => false

/-- Nobody has closed the stream or left its context. -/
structure Calm (w : World) : Prop where
  unset : w.cancelled = false
  idle : w.python = .idle
  plain : ∀ (i : ℕ) (t : Task Op Loc Ret), w.tasks[i]? = some t →
    RecvStream.plain t = true

section Calm

variable {errorFromHttp3 : ErrorFromHttp3} {Q : Answers Event} {i : ℕ}
  {sh sh' : Shared Event Flags} {t t' : Task Op Loc Ret} {ans : Option Event}
  {w w' : World} {l : Action Op Event Empty}

theorem plain_of_taskMove (h : TaskMove (half errorFromHttp3) i sh t ans t' sh')
    (hunset : sh.cancelled = false) (ht : plain t = true) :
    plain t' = true ∧ sh'.cancelled = false := by
  cases h with
  | exit b h => cases ht
  | call op h =>
      cases h with
      | spawnedSet hset | waitingSet hset | suspendedSet l hset =>
          rw [hset] at hunset
          cases hunset
      | works l ans v beat => cases beat <;> exact ⟨rfl, hunset⟩
      | spawnedUnset | waitingUnset | suspendedUnset | enters | queues | returns =>
          exact ⟨rfl, hunset⟩
      | _ => cases ht

theorem plain_of_dropMove (h : DropMove (half errorFromHttp3) i sh t t' sh')
    (ht : plain t = true) : plain t' = true ∧ sh'.cancelled = sh.cancelled := by
  cases h with
  | exitSpawned | exitWaiting | callCloseWaiting => cases ht
  | _ => exact ⟨rfl, rfl⟩

theorem calm_step (h : (half errorFromHttp3).Step Q w l w') (hK : Undisturbed w l)
    (hw : Calm w) : Calm w' := by
  cases h.move with
  | call op => exact ⟨hw.unset, hw.idle, forall_getElem?_concat rfl hw.plain⟩
  | exit | closeRefused | closeBegins => exact hK.elim
  | assigns k => exact k.elim
  | python ans hm =>
      rw [hw.idle] at hm
      cases hm
  | task i ans hi hm =>
      obtain ⟨hplain, hunset⟩ := plain_of_taskMove hm hw.unset (hw.plain i _ hi)
      exact ⟨hunset, hw.idle,
        forall_getElem?_set hplain fun j t _ hj => hw.plain j t hj⟩
  | drop i hi hm =>
      obtain ⟨hplain, hunset⟩ := plain_of_dropMove hm (hw.plain i _ hi)
      exact ⟨hunset.trans hw.unset, hw.idle,
        forall_getElem?_set hplain fun j t _ hj => hw.plain j t hj⟩

theorem calm_new : Calm new where
  unset := rfl
  idle := rfl
  plain i t hi := by simp [World.init] at hi

end Calm

/-! ## The steps of such a run -/

/-- The operation whose body has the guard, and where the body is. -/
def place : Task Op Loc Ret → Option (Op × Loc)
  | .call op (.running l) | .call op (.suspended l) => some (op, l)
  | _ => none

/-- The step leaves the list of calls, the flag and the bodies alone. -/
structure Rests (w w' : World) : Prop where
  log : w'.log = w.log
  vars : w'.vars = w.vars
  keeps : ∀ (i : ℕ) (t : Task Op Loc Ret), w.tasks[i]? = some t → place t ≠ none →
    ∃ t' : Task Op Loc Ret, w'.tasks[i]? = some t' ∧ place t' = place t
  places : ∀ (i : ℕ) (t' : Task Op Loc Ret) (op : Op) (l : Loc),
    w'.tasks[i]? = some t' → place t' = some (op, l) →
    (l.isCall = true → testsEof op = false) ∧ (∀ r, l ≠ .eofStore r) ∨
      ∃ t, w.tasks[i]? = some t ∧ place t = some (op, l)

section Cases

variable {errorFromHttp3 : ErrorFromHttp3} {Q : Answers Event} {i : ℕ}
  {sh sh' : Shared Event Flags} {t t' : Task Op Loc Ret} {ans : Option Event}
  {w w' : World} {l : Action Op Event Empty}

structure BodyStep (errorFromHttp3 : ErrorFromHttp3) (w w' : World) (i : ℕ)
    (ans : Option Event) (op : Op) (loc : Loc) (beat : Beat Loc Ret) : Prop where
  task : w.tasks[i]? = some (.call op (.running loc))
  move : BodyMove errorFromHttp3 w.vars op loc ans w'.vars beat
  tasks : w'.tasks = w.tasks.set i (.call op beat.pc)
  log : w'.log = w.log ++ ans.toList

structure Drops (w w' : World) (i : ℕ) (op : Op) (loc : Loc) : Prop where
  task : w.tasks[i]? = some (.call op (.suspended loc))
  ordered : toEnd op = false
  tasks : w'.tasks = w.tasks.set i (.call op .dropped)
  log : w'.log = w.log ++ [.dropped]
  vars : w'.vars = w.vars

theorem rests_of_set (hi : w.tasks[i]? = some t) (hlog : w'.log = w.log)
    (hvars : w'.vars = w.vars) (htasks : w'.tasks = w.tasks.set i t')
    (hkeeps : place t ≠ none → place t' = place t)
    (hplace : ∀ op l, place t' = some (op, l) →
      (l.isCall = true → testsEof op = false) ∧ (∀ r, l ≠ .eofStore r) ∨
        place t = some (op, l)) : Rests w w' where
  log := hlog
  vars := hvars
  keeps j u hj hu := by
    rw [htasks]
    by_cases hji : j = i
    · subst hji
      obtain rfl := Option.some.inj (hi.symm.trans hj)
      exact ⟨t', getElem?_set_of_eq_some hi, hkeeps hu⟩
    · exact ⟨u, getElem?_set_of_ne (Ne.symm hji) hj, rfl⟩
  places := by
    rw [htasks]
    intro j u op l hj hu
    by_cases hji : j = i
    · subst hji
      rw [getElem?_set_of_eq_some hi] at hj
      obtain rfl := Option.some.inj hj
      exact (hplace op l hu).imp_right fun ht => ⟨t, hi, ht⟩
    · rw [List.getElem?_set_ne (Ne.symm hji)] at hj
      exact Or.inr ⟨u, hj, hu⟩

theorem rests_of_eq (hlog : w'.log = w.log) (hvars : w'.vars = w.vars)
    (hkeeps : ∀ (i : ℕ) (t : Task Op Loc Ret), w.tasks[i]? = some t →
      w'.tasks[i]? = some t)
    (hplace : ∀ (i : ℕ) (t : Task Op Loc Ret), w'.tasks[i]? = some t →
      place t ≠ none → w.tasks[i]? = some t) :
    Rests w w' where
  log := hlog
  vars := hvars
  keeps i t hi _ := ⟨t, hkeeps i t hi, rfl⟩
  places i t op l hi ht := Or.inr ⟨t, hplace i t hi (by simp [ht]), ht⟩

theorem place_of_enters {op op' : Op} {loc : Loc}
    (h : place (.call op (.running ((half errorFromHttp3).enter op))) =
      some (op', loc)) :
    (loc.isCall = true → testsEof op' = false) ∧ ∀ r, loc ≠ .eofStore r := by
  obtain ⟨rfl, rfl⟩ : op = op' ∧ (half errorFromHttp3).enter op = loc := by
    simpa [place] using h
  cases op with
  | waitClosed => exact ⟨fun _ => rfl, fun r hr => by cases hr⟩
  | _ => exact ⟨fun hcall => absurd hcall Bool.false_ne_true, fun r hr => by cases hr⟩

theorem undisturbed_cases_of_taskMove (hi : w.tasks[i]? = some t)
    (hunset : w.cancelled = false) (ht : plain t = true)
    (h : TaskMove (half errorFromHttp3) i w.toShared t ans t' sh) :
    (∃ op loc beat, BodyStep errorFromHttp3 w
      { w with toShared := sh, tasks := w.tasks.set i t' } i ans op loc beat) ∨
    Rests w { w with toShared := sh, tasks := w.tasks.set i t' } := by
  cases h with
  | exit b h => cases ht
  | call op h =>
      cases h with
      | works loc ans v beat hb =>
          exact Or.inl ⟨op, loc, beat, hi, bodyMove_of_body hb, rfl, rfl⟩
      | spawnedSet hset | waitingSet hset | suspendedSet l hset =>
          rw [hset] at hunset
          cases hunset
      | spawnedUnset | waitingUnset | queues | returns =>
          exact Or.inr (rests_of_set hi rfl rfl rfl (fun hp => absurd rfl hp)
            fun op l hp => by cases hp)
      | suspendedUnset l =>
          exact Or.inr (rests_of_set hi rfl rfl rfl (fun _ => rfl) fun op l => Or.inr)
      | enters ho =>
          exact Or.inr (rests_of_set hi rfl rfl rfl (fun hp => absurd rfl hp)
            fun op l hp => Or.inl (place_of_enters hp))
      | _ => cases ht

theorem undisturbed_cases_of_dropMove (hi : w.tasks[i]? = some t)
    (ht : plain t = true) (hread : atReadToEnd t = false)
    (h : DropMove (half errorFromHttp3) i w.toShared t t' sh) :
    (∃ op loc, Drops w { w with toShared := sh, tasks := w.tasks.set i t' } i op loc) ∨
    Rests w { w with toShared := sh, tasks := w.tasks.set i t' } := by
  cases h with
  | exitSpawned | exitWaiting | callCloseWaiting => cases ht
  | callSuspended op loc => exact Or.inl ⟨op, loc, hi, hread, rfl, rfl, rfl⟩
  | callSpawned | callWaiting =>
      exact Or.inr (rests_of_set hi rfl rfl rfl (fun hp => absurd rfl hp)
        fun op l hp => by cases hp)

/-- What can happen while the stream is only read: a body makes a step, a
suspended body is dropped, or nothing happens to the stream. -/
theorem undisturbed_cases (h : (half errorFromHttp3).Step Q w l w')
    (hK : Undisturbed w l) (hw : Calm w) :
    (∃ i ans op loc beat, l = .task i ans ∧
      BodyStep errorFromHttp3 w w' i ans op loc beat) ∨
    (∃ i op loc, l = .drop i ∧ Drops w w' i op loc) ∨ Rests w w' := by
  cases h.move with
  | exit | closeRefused | closeBegins => exact hK.elim
  | assigns k => exact k.elim
  | python ans hm =>
      rw [hw.idle] at hm
      cases hm
  | call op =>
      refine Or.inr (Or.inr (rests_of_eq rfl rfl
        (fun i t => getElem?_concat_of_eq_some) ?_))
      exact forall_getElem?_concat (P := fun i t => place t ≠ none →
        w.tasks[i]? = some t) (fun ht => absurd rfl ht) fun i t hi _ => hi
  | drop i hi hm =>
      have hread : (w.tasks[i]?.any atReadToEnd) = false := hK
      rw [hi, Option.any_some] at hread
      rcases undisturbed_cases_of_dropMove hi (hw.plain i _ hi) hread hm with
        ⟨op, loc, hdrops⟩ | hrests
      · exact Or.inr (Or.inl ⟨i, op, loc, rfl, hdrops⟩)
      · exact Or.inr (Or.inr hrests)
  | task i ans hi hm =>
      rcases undisturbed_cases_of_taskMove hi hw.unset (hw.plain i _ hi) hm with
        ⟨op, loc, beat, hworks⟩ | hrests
      · exact Or.inl ⟨i, ans, op, loc, beat, rfl, hworks⟩
      · exact Or.inr (Or.inr hrests)

end Cases

/-! ## The calls agree with the flag -/

/-- What the list of calls has to be for a body to be at a place: a `read(-1)` at
its call is the only one so far, any other read is there before all of them, and
at the store everything has been taken. -/
def Placed (S : List UInt8) (log : List Event) (op : Op) : Loc → Prop
  | .eofTest => True
  | .call _ => testsEof op = true →
      (toEnd op = true → Fresh log) ∧ (toEnd op = false → ¬ Seen Event.unordered log)
  | .eofStore _ => consumed log = S

/-- Where the flag is set all bytes have been taken, the bodies are where the list
of calls lets them be, and the flag is set or about to be set once the stream has
been read in unordered mode. -/
structure Settled (S : List UInt8) (w : World) : Prop where
  eof : w.vars.eof = true → consumed w.log = S
  placed : ∀ (i : ℕ) (t : Task Op Loc Ret) (op : Op) (l : Loc),
    w.tasks[i]? = some t → place t = some (op, l) → Placed S w.log op l
  unordered : Seen Event.unordered w.log → w.vars.eof = true ∨
    ∃ (i : ℕ) (t : Task Op Loc Ret) (op : Op) (l : Loc), w.tasks[i]? = some t ∧
      place t = some (op, l) ∧ toEnd op = true ∧ l ≠ .eofTest

def next : Beat Loc Ret → Option Loc
  | .more l | .pend l => some l
  | .ready _ => none

section Settled

variable {errorFromHttp3 : ErrorFromHttp3} {Q : Answers Event} {S : List UInt8}
  {i j : ℕ} {t t' t₁ : Task Op Loc Ret} {ans : Option Event} {w w' : World}
  {l : Action Op Event Empty} {log : List Event} {v v' : Flags} {op op' : Op}
  {loc loc' : Loc} {beat : Beat Loc Ret}

theorem toEnd_eq_false_of_chunk {max : Nat}
    (hop : (∃ n limit, op = .read n limit ∧ ¬ n < 0 ∧ max = n.toInt.toNat) ∨
      (op = .anext ∧ max = 65536)) : toEnd op = false := by
  rcases hop with ⟨n, limit, rfl, hn, -⟩ | ⟨rfl, -⟩
  · exact decide_eq_false hn
  · rfl

theorem testsEof_of_chunk {max : Nat}
    (hop : (∃ n limit, op = .read n limit ∧ ¬ n < 0 ∧ max = n.toInt.toNat) ∨
      (op = .anext ∧ max = 65536)) : testsEof op = true := by
  rcases hop with ⟨n, limit, rfl, -⟩ | ⟨rfl, -⟩ <;> rfl

theorem place_beat : place (.call op beat.pc) = (next beat).map (op, ·) := by
  cases beat <;> rfl

/-- A step of a body leads to a place at which the calls let it be. -/
theorem placed_of_bodyMove (hQ : FinishedPeer Q S) (hans : ∀ e ∈ ans, Q log e)
    (hK : ∀ limit e, ans ≠ some (.readToEnd limit (.ready (.error e))))
    (hordered : loc = .eofTest → v.eof = false → ¬ Seen Event.unordered log)
    (h : BodyMove errorFromHttp3 v op loc ans v' beat) (hloc : Placed S log op loc)
    (hbeat : next beat = some loc') :
    Placed S (log ++ ans.toList) op loc' := by
  have hsilent : ∀ {e : Event}, e.unordered = false → toEnd op = false →
      testsEof op = true → (∃ buf, loc = .call buf) →
      ∀ buf, Placed S (log ++ [e]) op (.call buf) := by
    rintro e he hop htests ⟨buf', rfl⟩ buf -
    refine ⟨fun hend => absurd hend (by simp [hop]), fun _ hseen => ?_⟩
    rw [seen_append, seen_singleton, he] at hseen
    exact (hloc htests).2 hop (hseen.resolve_right Bool.false_ne_true)
  cases h with
  | seesEof | endFails | chunkReads | chunkFails | exactFull | exactFails
  | waitEnds | waitFails | storesEof => cases hbeat
  | tests op ht =>
      obtain rfl : loc' = .call [] := by
        rcases afterTest_cases op with hcall | ⟨limit, -, hready⟩ | ⟨n, -, -, hready⟩
        · rw [hcall] at hbeat
          exact (Option.some.inj hbeat).symm
        · rw [hready] at hbeat
          cases hbeat
        · rw [hready] at hbeat
          cases hbeat
      rw [Option.toList_none, List.append_nil]
      intro htests
      have hnone := hordered rfl (ht htests)
      exact ⟨fun _ => fresh_of_not_unordered hnone, fun _ => hnone⟩
  | endPends n limit buf l hn hl =>
      cases hbeat
      have hend : toEnd (.read n limit) = true := decide_eq_true hn
      exact fun _ => ⟨fun _ => ((hloc rfl).1 hend).pending l,
        fun hnot => absurd hnot (by simp [hend])⟩
  | endReads n limit buf data l hn hl =>
      cases hbeat
      have hfresh : Fresh log := (hloc rfl).1 (decide_eq_true hn)
      have hall : consumed log ++ data = S := hQ.toEnd (hans _ rfl) hfresh
      simpa [Placed, Event.bytes] using hall
  | chunkPends op buf max hop =>
      cases hbeat
      exact hsilent rfl (toEnd_eq_false_of_chunk hop) (testsEof_of_chunk hop)
        ⟨buf, rfl⟩ []
  | chunkEnds op buf max hop =>
      cases hbeat
      have hordered := (hloc (testsEof_of_chunk hop)).2 (toEnd_eq_false_of_chunk hop)
      have hall : consumed log = S := hQ.chunkEnd (hans _ rfl) hordered
      simpa [Placed, Event.bytes] using hall
  | exactPends n buf hroom =>
      cases hbeat
      exact hsilent rfl rfl (testsEof_of_room hroom) ⟨buf, rfl⟩ buf
  | exactReads n buf data hroom =>
      cases hbeat
      exact hsilent rfl rfl (testsEof_of_room hroom) ⟨buf, rfl⟩ _
  | exactEnds n buf hroom =>
      cases hbeat
      have hall : consumed log = S :=
        hQ.exactEnd (hans _ rfl) ((hloc (testsEof_of_room hroom)).2 rfl)
      simpa [Placed, Event.bytes] using hall
  | waits buf =>
      cases hbeat
      exact fun htests => by cases htests

/-- Only a `read(-1)` reads in unordered mode, and when it has done so the flag is
set or about to be set. -/
theorem unordered_of_bodyMove
    (hK : ∀ limit e, ans ≠ some (.readToEnd limit (.ready (.error e))))
    (h : BodyMove errorFromHttp3 v op loc ans v' beat)
    (hbefore : Seen Event.unordered log →
      v.eof = true ∨ (toEnd op = true ∧ loc ≠ .eofTest))
    (hseen : Seen Event.unordered (log ++ ans.toList)) :
    v'.eof = true ∨ ∃ loc', next beat = some loc' ∧ toEnd op = true ∧
      loc' ≠ .eofTest := by
  have hordered : v' = v → toEnd op = false →
      ¬ Seen Event.unordered ans.toList → v'.eof = true := by
    rintro rfl hop hnot
    rw [seen_append] at hseen
    refine (hbefore (hseen.resolve_right hnot)).resolve_right ?_
    rintro ⟨hend, -⟩
    rw [hop] at hend
    cases hend
  cases h with
  | seesEof op ht hv => exact Or.inl hv
  | storesEof => exact Or.inl rfl
  | tests op ht =>
      rw [Option.toList_none, List.append_nil] at hseen
      exact Or.inl ((hbefore hseen).resolve_right fun h => h.2 rfl)
  | endPends n limit buf l hn hl | endReads n limit buf data l hn hl =>
      exact Or.inr ⟨_, rfl, decide_eq_true hn, by simp⟩
  | endFails n limit buf l e hn hl => exact absurd rfl (hK l e)
  | chunkPends op buf max hop | chunkReads op buf _ max hop
  | chunkEnds op buf max hop | chunkFails op buf max _ hop =>
      exact Or.inl (hordered rfl (toEnd_eq_false_of_chunk hop) (by simp [Event.unordered]))
  | exactFull | exactPends | exactReads | exactEnds | exactFails | waits | waitEnds
  | waitFails => exact Or.inl (hordered rfl rfl (by simp [Event.unordered]))

/-- When a step of a body leaves the flag set, everything has been taken. -/
theorem consumed_of_bodyMove (h : BodyMove errorFromHttp3 v op loc ans v' beat)
    (hloc : Placed S log op loc)
    (hbefore : v.eof = true → consumed log = S ∧ ¬ Reading (.call op (.running loc)))
    (heof : v'.eof = true) : consumed (log ++ ans.toList) = S := by
  by_cases hv : v.eof = true
  · obtain ⟨hall, hnot⟩ := hbefore hv
    have hsilent := bytes_eq_nil_of_bodyMove h hnot
    have hnone : consumed ans.toList = [] := by
      cases ans with
      | none => rfl
      | some e => simpa using hsilent e rfl
    rw [consumed_append, hnone, List.append_nil, hall]
  · cases h with
    | storesEof => simpa [Placed] using hloc
    | _ => exact absurd heof hv

theorem holds_of_place (h : place t ≠ none) : t.holds = true := by
  cases t with
  | exit b pc => exact absurd rfl h
  | call op pc => cases pc <;> first | rfl | exact absurd rfl h

theorem Settled.rests (hw : Settled S w) (h : Rests w w') : Settled S w' where
  eof := by
    rw [h.log, h.vars]
    exact hw.eof
  placed i t' op l hi ht := by
    rw [h.log]
    rcases h.places i t' op l hi ht with ⟨hcall, hstore⟩ | ⟨t, hi, ht⟩
    · cases l with
      | eofTest => trivial
      | call buf =>
          intro htests
          rw [hcall rfl] at htests
          cases htests
      | eofStore r => exact absurd rfl (hstore r)
    · exact hw.placed i t op l hi ht
  unordered := by
    rw [h.log, h.vars]
    refine fun hseen => (hw.unordered hseen).imp_right ?_
    rintro ⟨i, t, op, l, hi, ht, hop, hl⟩
    obtain ⟨t', hi', ht'⟩ := h.keeps i t hi (by simp [ht])
    exact ⟨i, t', op, l, hi', ht'.trans ht, hop, hl⟩

theorem eq_of_place_set (hx : Exclusive w) (hi : w.tasks[i]? = some t)
    (ht : t.holds = true) (hj : (w.tasks.set i t')[j]? = some t₁)
    (hplace : place t₁ ≠ none) : j = i ∧ t₁ = t' := by
  by_cases hji : j = i
  · subst hji
    rw [getElem?_set_of_eq_some hi] at hj
    exact ⟨rfl, (Option.some.inj hj).symm⟩
  · rw [List.getElem?_set_ne (Ne.symm hji)] at hj
    exact absurd (hx.eq_of_holds hj hi (holds_of_place hplace) ht) hji

theorem Settled.unordered_at (hw : Settled S w) (hx : Exclusive w)
    (hi : w.tasks[i]? = some t) (ht : place t = some (op, loc))
    (hseen : Seen Event.unordered w.log) :
    w.vars.eof = true ∨ (toEnd op = true ∧ loc ≠ .eofTest) := by
  refine (hw.unordered hseen).imp_right ?_
  rintro ⟨j, u, op', l, hj, hu, hop, hl⟩
  obtain rfl : j = i := hx.eq_of_holds hj hi (holds_of_place (by simp [hu]))
    (holds_of_place (by simp [ht]))
  obtain rfl := Option.some.inj (hi.symm.trans hj)
  rw [ht] at hu
  cases hu
  exact ⟨hop, hl⟩

theorem Settled.drops (hw : Settled S w) (hx : Exclusive w)
    (h : Drops w w' i op loc) : Settled S w' where
  eof := by
    rw [h.log, h.vars, consumed_append]
    simpa [Event.bytes] using hw.eof
  placed j u op' l hj hu := by
    rw [h.tasks] at hj
    obtain ⟨-, rfl⟩ := eq_of_place_set hx h.task rfl hj (by simp [hu])
    cases hu
  unordered hseen := by
    rw [h.log, seen_append] at hseen
    have hbefore : Seen Event.unordered w.log := hseen.resolve_right (by simp [Event.unordered])
    rw [h.vars]
    rcases hw.unordered_at hx h.task rfl hbefore with heof | ⟨hop, -⟩
    · exact Or.inl heof
    · rw [h.ordered] at hop
      cases hop

theorem Settled.works (hQ : FinishedPeer Q S) (hw : Settled S w) (hx : Exclusive w)
    (hheeded : EofHeeded w) (hans : ∀ e ∈ ans, Q w.log e)
    (hK : ∀ limit e, ans ≠ some (.readToEnd limit (.ready (.error e))))
    (h : BodyStep errorFromHttp3 w w' i ans op loc beat) : Settled S w' where
  eof heof := by
    rw [h.log]
    exact consumed_of_bodyMove h.move (hw.placed i _ op loc h.task rfl)
      (fun hset => ⟨hw.eof hset, hheeded hset i _ h.task⟩) heof
  placed j u op' l hj hu := by
    rw [h.tasks] at hj
    obtain ⟨-, rfl⟩ := eq_of_place_set hx h.task rfl hj (by simp [hu])
    rw [place_beat, Option.map_eq_some_iff] at hu
    obtain ⟨l, hl, heq⟩ := hu
    cases heq
    rw [h.log]
    refine placed_of_bodyMove hQ hans hK ?_ h.move (hw.placed i _ op loc h.task rfl) hl
    rintro rfl hunset hseen
    rcases hw.unordered_at hx h.task rfl hseen with heof | ⟨-, hne⟩
    · rw [hunset] at heof
      cases heof
    · exact hne rfl
  unordered hseen := by
    rw [h.log] at hseen
    refine (unordered_of_bodyMove hK h.move (hw.unordered_at hx h.task rfl)
      hseen).imp_right ?_
    rintro ⟨l, hl, hop, hne⟩
    refine ⟨i, .call op beat.pc, op, l, ?_, ?_, hop, hne⟩
    · rw [h.tasks]
      exact getElem?_set_of_eq_some h.task
    · rw [place_beat, hl, Option.map_some]

/-- A step that leaves the reading undisturbed keeps the calls and the flag in
agreement. -/
theorem settled_step (hQ : FinishedPeer Q S) (hx : Exclusive w)
    (hheeded : EofHeeded w) (hcalm : Calm w)
    (h : (half errorFromHttp3).Step Q w l w') (hK : Undisturbed w l)
    (hw : Settled S w) : Settled S w' := by
  rcases undisturbed_cases h hK hcalm with
    ⟨i, ans, op, loc, beat, rfl, hworks⟩ | ⟨i, op, loc, rfl, hdrops⟩ | hrests
  · refine hw.works hQ hx hheeded h.2 ?_ hworks
    rintro limit e rfl
    exact hK
  · exact hw.drops hx hdrops
  · exact hw.rests hrests

theorem settled_new : Settled S new where
  eof heof := by cases heof
  placed i t op l hi := by simp [World.init] at hi
  unordered hseen := by simp [World.init] at hseen

theorem settled_of_undisturbed (hQ : FinishedPeer Q S)
    {tr : List (World × Action Op Event Empty)}
    (h : Run ((half errorFromHttp3).Step Q) new tr w) (hK : Along Undisturbed tr) :
    Calm w ∧ Settled S w := by
  have hall : Reachable ((half errorFromHttp3).Step Q) new w ∧ Calm w ∧
      Settled S w := by
    refine h.invariant (I := fun w => Reachable ((half errorFromHttp3).Step Q) new w ∧
      Calm w ∧ Settled S w) ?_ hK ⟨Reachable.refl, calm_new, settled_new⟩
    rintro w l w' hK hstep ⟨hreach, hcalm, hw⟩
    exact ⟨hreach.tail hstep, calm_step hstep hK hcalm,
      settled_step hQ (exclusive_of_reachable hreach) (eofHeeded_of_reachable hreach)
        hcalm hstep hK hw⟩
  exact hall.2

end Settled

end WebTransport.RecvStream
