import WebTransport.RecvStream.EndOfStream
import WebTransport.RecvStream.Progress
import WebTransport.Wrapper.WaitFor

/-!
# When a clean exit stops the stream

A clean exit looks at the flag first and asks for the mutex then, and it does not
set the token.  So an operation that waits for the peer keeps the guard from it,
and a read in front of it can set the flag that it has found unset.
-/

namespace WebTransport.RecvStream

open Support Wrapper

/-! ## What a clean exit promises -/

/-- A clean exit that has found the flag unset and has not called `stop` yet. -/
def exiting : Task Op Loc Ret → Bool
  | .exit false pc =>
      match pc with
      | .stored | .ready | .waiting | .held => true
      | _ => false
  | _ => false

/-- The step needs nothing from the peer or the session: a suspended body is
polled again only when the token is set. -/
def Local (w : World) : Action Op Event Empty → Prop
  | .python _ => True
  | .task i _ => ∀ op loc, w.tasks[i]? = some (.call op (.suspended loc)) →
      w.cancelled = true
  | _ => False

def MadeBy (o : Owner) : Action Op Event Empty → Prop
  | .python _ => o = .python
  | .task i _ => o = .task i
  | _ => False

section Statements

variable (errorFromHttp3 : ErrorFromHttp3) (Q : Answers Event)

/-- No clean exit waits for the peer: it can go on itself, or who has the guard
can, by a local step. -/
def Prompt (w : World) : Prop :=
  ∀ (i : ℕ) (t : Task Op Loc Ret), w.tasks[i]? = some t → exiting t = true →
    ∃ o l w', (half errorFromHttp3).Step Q w l w' ∧ Local w l ∧ MadeBy o l ∧
      (o = .task i ∨ w.Owns o)

end Statements

/-- The step is a clean exit's call of `stop` with the flag set. -/
def StopsAtEof (w : World) (l : Action Op Event Empty) : Prop :=
  ∃ i e, l = .task i (some e) ∧ w.tasks[i]? = some (.exit false .held) ∧
    w.vars.eof = true

def Event.pends : Event → Bool
  | .readChunk _ .pending | .readExact _ .pending | .readToEnd _ .pending
  | .receivedReset .pending => true
  | _ => false

/-- A clean exit depends on every operation that waits for the peer. -/
def anyAnswer (errorFromHttp3 : ErrorFromHttp3) : Completion (half errorFromHttp3) where
  waits _ := true
  serves call := call = .exit false
  pends := Event.pends
  starved _ := true
  waits_not_serves _ := rfl
  pends_of_pend {op l v ans v' l'} h _ := by
    have hb : body errorFromHttp3 op l v ans = some (v', .pend l') := h
    generalize hbeat : Beat.pend l' = beat at hb
    cases bodyMove_of_body hb with
    | endPends | chunkPends | exactPends | waits => exact ⟨_, rfl, rfl⟩
    | tests op ht =>
        rcases afterTest_cases op with h | ⟨limit, -, h⟩ | ⟨n, -, -, h⟩ <;>
          (rw [h] at hbeat; cases hbeat)
    | _ => cases hbeat
  pend_of_pends {op l v e v' beat} h he := by
    have hb : body errorFromHttp3 op l v (some e) = some (v', beat) := h
    cases bodyMove_of_body hb with
    | endPends | chunkPends | exactPends | waits => exact ⟨rfl, _, rfl⟩
    | _ => cases he
  closeCode_of_pends {e} he := by
    cases e with
    | stop => cases he
    | _ => rfl
  isFinish_of_pends _ := rfl
  starved_of_append _ := rfl
  starved_concat _ _ := rfl

/-- No read sets the flag while a clean exit is between its test of the flag and
its call of `stop`. -/
def StoresAlone (w : World) : Action Op Event Empty → Prop
  | .task i _ => (w.tasks[i]?.any atStore) = true → ∀ t ∈ w.tasks, exiting t = false
  | _ => True

instance (w : World) : (l : Action Op Event Empty) → Decidable (StoresAlone w l)
  | .task _ _ => inferInstanceAs (Decidable (_ → _))
  | .call _ | .exit _ | .close _ | .assign _ | .python _ | .drop _ =>
      inferInstanceAs (Decidable True)

/-! ## Who can go on -/

section Prompt

variable {errorFromHttp3 : ErrorFromHttp3} {Q : Answers Event} {i : ℕ}
  {sh sh' : Shared Event Flags} {t t' : Task Op Loc Ret} {ans : Option Event}
  {w w' : World} {l : Action Op Event Empty}
  {tr : List (World × Action Op Event Empty)}

theorem local_of_not_suspended (hi : w.tasks[i]? = some t)
    (ht : (anyAnswer errorFromHttp3).holdsOn t = true → w.cancelled = true) :
    Local w (.task i ans) := by
  intro op loc hsuspended
  obtain rfl := Option.some.inj (hi.symm.trans hsuspended)
  exact ht rfl

theorem pending_of_exiting (h : exiting t = true) : t.pending = true := by
  unfold exiting at h
  split at h
  · split at h <;> first | rfl | cases h
  · cases h

theorem canServe_of_exiting (h : exiting t = true) (hwaits : t.waits = true) :
    (anyAnswer errorFromHttp3).canServe t = true := by
  unfold exiting at h
  split at h
  · split at h <;> first | rfl | cases hwaits | cases h
  · cases h

/-- A clean exit that is not prompt stands in the line behind an operation that
waits for the peer. -/
theorem blocked_of_not_prompt (hQ : Answering Q) (hlined : Lined w)
    (hlt : ∀ i, .task i ∈ w.lock.line → i < w.tasks.length)
    (h : ¬ Prompt errorFromHttp3 Q w) :
    (anyAnswer errorFromHttp3).Stuck w ∧ (anyAnswer errorFromHttp3).ServerInLine w := by
  have hresponsive : (half errorFromHttp3).Responsive Q := responsive hQ
  simp only [Prompt, Classical.not_forall, not_exists, not_and] at h
  obtain ⟨i, t, hi, ht, hnone⟩ := h
  have hself : ¬ (t.waits = true → w.Owns (.task i)) := by
    intro howns
    obtain ⟨ans, w', hstep⟩ :=
      exists_step_of_task hresponsive hi (pending_of_exiting ht) howns
    have hlocal : (anyAnswer errorFromHttp3).holdsOn t = true → w.cancelled = true := by
      intro hholds
      cases t with
      | call op pc => cases ht
      | exit b pc => cases hholds
    exact hnone (.task i) _ w' hstep (local_of_not_suspended hi hlocal) rfl (Or.inl rfl)
  simp only [Classical.not_imp] at hself
  have hin : .task i ∈ w.lock.line := hlined.waits i t hi hself.1
  obtain ⟨o, rest, hline⟩ := List.exists_cons_of_ne_nil (List.ne_nil_of_mem hin)
  have howns : w.Owns o := by simp [Shared.Owns, FifoLock.holder, hline]
  have hfirst : o ∈ w.lock.line := FifoLock.mem_line_of_holder howns
  cases o with
  | python =>
      have hpy : w.python ≠ .idle := by
        intro hidle
        have hholds := hlined.python hfirst
        rw [hidle] at hholds
        cases hholds
      obtain ⟨ans, w', hstep⟩ := exists_step_of_python hresponsive hpy
      exact absurd (Or.inr howns) (hnone .python _ w' hstep trivial rfl)
  | task k =>
      obtain ⟨u, hk⟩ : ∃ u, w.tasks[k]? = some u :=
        ⟨_, List.getElem?_eq_getElem (hlt k hfirst)⟩
      obtain ⟨ans, w', hstep⟩ := exists_step_of_task hresponsive hk
        (pending_of_lined (hlined.task k u hk hfirst)) fun _ => howns
      have hwaiting : ¬ ((anyAnswer errorFromHttp3).holdsOn u = true →
          w.cancelled = true) := fun hlocal =>
        hnone (.task k) _ w' hstep (local_of_not_suspended hk hlocal) rfl (Or.inr howns)
      simp only [Classical.not_imp, Bool.not_eq_true] at hwaiting
      exact ⟨⟨⟨hwaiting.2, rfl⟩, u, List.mem_of_getElem? hk, hwaiting.1⟩,
        .task i, hin, i, rfl, t, hi, canServe_of_exiting ht hself.1⟩

theorem not_local_of_holdsOn (hunset : w.cancelled = false)
    (hi : w.tasks[i]? = some t) (ht : (anyAnswer errorFromHttp3).holdsOn t = true) :
    ¬ Local w (.task i ans) := by
  intro hlocal
  unfold Completion.holdsOn at ht
  split at ht
  · rw [hlocal _ _ hi] at hunset
    cases hunset
  · cases ht

theorem waiting_of_canServe (h : (anyAnswer errorFromHttp3).canServe t = true)
    (hlined : t.lined = true) : t = .exit false .waiting := by
  obtain ⟨hserves, hbefore⟩ := Bool.and_eq_true_iff.mp h
  have hcalled : t.called = .exit false := of_decide_eq_true hserves
  cases t with
  | call op pc => cases hcalled
  | exit b pc =>
      obtain rfl : b = false := by simpa [Task.called] using hcalled
      cases pc <;> first
        | rfl | exact absurd hlined (by decide) | exact absurd hbefore (by decide)

theorem not_prompt_of_blocked (hx : Exclusive w) (hlined : Lined w)
    (hstuck : (anyAnswer errorFromHttp3).Stuck w)
    (hline : (anyAnswer errorFromHttp3).ServerInLine w) :
    ¬ Prompt errorFromHttp3 Q w := by
  intro hprompt
  obtain ⟨⟨hunset, -⟩, u, hu, hwaiting⟩ := hstuck
  obtain ⟨k, hk⟩ := List.getElem?_of_mem hu
  have howner : w.Owns (.task k) := hx.task k u hk (Completion.holds_of_holdsOn hwaiting)
  obtain ⟨o, ho, i, hoi, t, hi, hserve⟩ := hline
  obtain rfl := Owner.task?_eq_some.mp hoi
  have hki : k ≠ i := Completion.ne_of_holdsOn_canServe hk hwaiting hi hserve
  obtain rfl := waiting_of_canServe hserve (hlined.task i t hi ho)
  obtain ⟨o, l, w', hstep, hlocal, hby, hwho⟩ := hprompt i _ hi rfl
  rcases hwho with rfl | howns
  · cases hstep.move with
    | task j ans hj hm =>
        obtain rfl : i = j := by simpa [MadeBy] using hby
        obtain rfl := Option.some.inj (hi.symm.trans hj)
        cases hm with
        | exit b hm =>
            cases hm with
            | wakes _ howns => exact hki (by simpa using howner.unique howns)
    | python => cases hby
    | _ => exact hlocal
  · obtain rfl := howner.unique howns
    cases l with
    | task j ans =>
        obtain rfl : k = j := by simpa [MadeBy] using hby
        exact not_local_of_holdsOn hunset hk hwaiting hlocal
    | python ans => cases hby
    | _ => exact hlocal

/-- A state is prompt unless an operation that waits for the peer has the guard
and a clean exit stands in the line. -/
theorem prompt_iff (hQ : Answering Q)
    (h : Reachable ((half errorFromHttp3).Step Q) new w) :
    Prompt errorFromHttp3 Q w ↔ (anyAnswer errorFromHttp3).NoCycle w := by
  have hx : Exclusive w := exclusive_of_reachable h
  have hlined : Lined w := lined_of_reachable h
  rw [Completion.noCycle_iff hx]
  constructor
  · rintro hprompt ⟨hstuck, hline⟩
    exact not_prompt_of_blocked hx hlined hstuck hline hprompt
  · intro hnot
    by_contra hlate
    exact hnot (blocked_of_not_prompt hQ hlined
      (fun i hin => lt_length_of_mem_line h hin) hlate)

/-! ## The flag while a clean exit waits -/

theorem exiting_of_taskMove (h : TaskMove (half errorFromHttp3) i sh t ans t' sh')
    (ht : exiting t' = true) : exiting t = true ∨ sh.vars.eof = false := by
  cases h with
  | call op h => cases ht
  | exit b h =>
      cases b with
      | true => cases ht
      | false =>
          cases h with
          | begins hunset => exact Or.inr hunset
          | cancels | enters | queues | wakes => exact Or.inl rfl
          | _ => cases ht

theorem not_exiting_of_dropMove (h : DropMove (half errorFromHttp3) i sh t t' sh') :
    exiting t' = false := by
  cases h with
  | exitSpawned b | exitWaiting b => cases b <;> rfl
  | _ => rfl

/-- As long as no read sets the flag in between, a clean exit that waits has the
flag unset. -/
def Needed (w : World) : Prop :=
  ∀ (i : ℕ) (t : Task Op Loc Ret), w.tasks[i]? = some t → exiting t = true →
    w.vars.eof = false

theorem needed_step (h : (half errorFromHttp3).Step Q w l w') (hK : StoresAlone w l)
    (hw : Needed w) : Needed w' := by
  rcases flag_of_step h with hsame | ⟨k, op, r, rfl, hk, -⟩
  · refine h.forall_tasks (P := fun _ t => exiting t = true → w.vars.eof = false)
      (fun op ht => by cases ht) (fun b ht => by cases b <;> cases ht) ?_ ?_ ?_ hw
    · intro i ans t t' _ _ hm ht ht'
      rw [hsame]
      exact (exiting_of_taskMove hm ht').elim ht id
    · intro i t t' _ _ hm _ ht'
      rw [not_exiting_of_dropMove hm] at ht'
      cases ht'
    · intro i t _ _ _ ht ht'
      rw [hsame]
      exact ht ht'
  · -- nobody is exiting when the flag is set
    have hnobody : ∀ t ∈ w.tasks, exiting t = false := hK (by rw [hk]; rfl)
    refine h.forall_tasks (P := fun _ t => exiting t = false)
      (R := fun _ t => exiting t = true → w'.vars.eof = false)
      (fun op ht => by cases ht) (fun b ht => by cases b <;> cases ht) ?_ ?_ ?_
      (fun i t hi => hnobody t (List.mem_of_getElem? hi))
    · rintro i ans t t' heq hi hm ht ht'
      cases heq
      obtain rfl := Option.some.inj (hk.symm.trans hi)
      cases hm with
      | call op hm => cases ht'
    · intro i t t' _ _ hm _ ht'
      rw [not_exiting_of_dropMove hm] at ht'
      cases ht'
    · intro i t _ _ _ ht ht'
      rw [ht] at ht'
      cases ht'

theorem needed_of_storesAlone (h : Run ((half errorFromHttp3).Step Q) new tr w)
    (hK : Along StoresAlone tr) :
    Needed w ∧ Along (fun u l => ¬ StopsAtEof u l) tr := by
  refine h.invariant_along ?_ hK (fun i t hi => by simp [World.init] at hi)
  intro w l w' hK hstep hw
  refine ⟨needed_step hstep hK hw, ?_⟩
  rintro ⟨i, e, rfl, hi, heof⟩
  rw [hw i _ hi rfl] at heof
  cases heof

end Prompt

/-- A clean exit waits for the peer in no state of a run exactly if no clean exit
asks for the mutex while an operation that waits for the peer has the guard, and
no operation is left pending in front of one; and it calls `stop` only with the
flag unset if no read sets the flag while it is between its test and its call. -/
theorem cleanExit_prompt_iff (errorFromHttp3 : ErrorFromHttp3) {Q : Answers Event}
    {tr : List (World × Action Op Event Empty)} {w : World} (hQ : Answering Q)
    (h : Run ((half errorFromHttp3).Step Q) new tr w) :
    ((Along (fun u _ => Prompt errorFromHttp3 Q u) tr ∧ Prompt errorFromHttp3 Q w) ↔
      Along (anyAnswer errorFromHttp3).Unblocked tr) ∧
    (Along StoresAlone tr → Along (fun u l => ¬ StopsAtEof u l) tr) := by
  refine ⟨?_, fun hK => (needed_of_storesAlone h hK).2⟩
  rw [← Completion.noCycle_iff_unblocked h, prompt_iff hQ h.reachable]
  refine and_congr_left fun _ => forall₂_congr fun p hp => ?_
  exact prompt_iff hQ (h.along_reachable p hp)

/-- A read that has its byte returns, and then a clean exit comes. -/
def exitAfterRead : List (Action Op Event Empty) :=
  startCall (.read 5 none) 0 ++
    [.task 0 (some (.readChunk 5 (.ready (.ok (some [1]))))), .exit false,
      .task 1 none, .task 0 none, .task 1 none, .task 1 (some (.stop 0 true))]

/-- Its `stop` is prompt and needed. -/
theorem exitAfterRead_prompt :
    Prompt noCodes (FinishedStream [1, 2]) (after [1, 2] new exitAfterRead) ∧
      Along (fun u l => ¬ StopsAtEof u l)
        (replayTrace ((half noCodes).tryNext (finishedStream [1, 2])) new
          exitAfterRead) := by
  have hboth := cleanExit_prompt_iff noCodes (finishedStream_answering [1, 2])
    (run_after (w := new) exitAfterRead (by decide))
  exact ⟨(hboth.1.mpr (by decide)).2, hboth.2 (by decide)⟩

/-- A clean exit that has found the flag unset is about to call `stop`, when the
read in front of it has seen the end. -/
def lateExit : World :=
  after [] new (startCall (.read 5 none) 0 ++
    [.exit false, .task 1 none, .task 1 none,
      .task 0 (some (.readChunk 5 (.ready (.ok none)))), .task 0 none, .task 0 none,
      .task 1 none])

/-- Without the conditions a clean exit waits for the peer behind a suspended
read, and stops a stream whose end another read has seen in the meantime. -/
theorem cleanExit_late :
    (¬ ∀ {tr w}, Run ((half noCodes).Step (FinishedStream [])) new tr w →
        Prompt noCodes (FinishedStream []) w) ∧
      ¬ ∀ {tr w}, Run ((half noCodes).Step (FinishedStream [])) new tr w →
        Along (fun u l => ¬ StopsAtEof u l) tr := by
  constructor
  · intro h
    have hrun := run_after (S := []) (w := new) (startCall (.read 5 none) 0 ++
      [.task 0 (some (.readChunk 5 .pending)), .exit false, .task 1 none,
        .task 1 none]) (by decide)
    have hnone := h hrun
    rw [prompt_iff (finishedStream_answering []) hrun.reachable,
      Completion.noCycle_iff (exclusive_of_reachable hrun.reachable)] at hnone
    exact hnone (by decide)
  · intro h
    obtain ⟨tr, hrun⟩ : Reachable ((half noCodes).Step (FinishedStream [])) new
      lateExit := (run_after _ (by decide)).reachable
    have hlast := h (hrun.tail (l := .task 1 (some (.stop 0 true)))
      (Half.step_of_tryNext rfl))
    rw [along_append, along_singleton] at hlast
    exact hlast.2 ⟨1, _, rfl, rfl, rfl⟩

end WebTransport.RecvStream
