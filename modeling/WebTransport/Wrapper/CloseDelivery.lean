import WebTransport.Support.Indexed
import WebTransport.Wrapper.Closes

/-!
# Is a close signal ever lost?

`reset` and `stop` close the QUIC stream themselves if nobody has the mutex, and
otherwise leave that to the operation that they interrupt.  This module says
which tasks can still do it, and proves that the close reaches the QUIC stream
in every run in which such a task is never used up: none of the steps that take
one away may take away the last one.
-/

namespace WebTransport.Wrapper

open Support

variable {Op Loc Ret Ev Vars Knob : Type}

/-- A task that can still come to the point where it closes the QUIC stream: an
operation whose call on the stream has not returned, one in its cancel branch,
or an exit that closes the stream. -/
def Half.canSend (H : Half Op Loc Ret Ev Vars Knob) : Task Op Loc Ret → Bool
  | .call _ pc =>
      match pc with
      | .built _ | .closeSent | .done _ | .dropped => false
      | _ => true
  | .exit b pc =>
      match pc with
      | .sent | .returned | .dropped => false
      | _ => b || H.exitCloses

def Half.senders (H : Half Op Loc Ret Ev Vars Knob)
    (w : World Op Loc Ret Ev Vars Knob) : List ℕ :=
  (List.range w.tasks.length).filter fun i => w.tasks[i]?.any H.canSend

/-- The step ends a task without closing the stream: its call on the stream
returns in a poll that has found the token unset, or it is a clean exit that has
nothing to do. -/
def Half.completes (H : Half Op Loc Ret Ev Vars Knob) (sh : Shared Ev Vars)
    (t : Task Op Loc Ret) (ans : Option Ev) : Bool :=
  match t with
  | .call op (.running l) =>
      match H.body op l sh.vars ans with
      | some (_, .ready _) => true
      | _ => false
  | .exit false .spawned => H.exitSkips sh.vars
  | _ => false

def Python.tries : Python Knob → Bool
  | .cancelled _ => true
  | _ => false

/-- The step does not use up the last task that can send the close: `try_lock`
fails, a task completes its call, and asyncio drops a task only if some (other)
task can still send it. -/
def Half.Spares (H : Half Op Loc Ret Ev Vars Knob)
    (w : World Op Loc Ret Ev Vars Knob) : Action Op Ev Knob → Prop
  | .python _ => w.python.tries = true → w.lock.line ≠ [] → H.senders w ≠ []
  | .task i ans =>
      (w.tasks[i]?.any fun t => H.completes w.toShared t ans) = true →
        ∃ j ∈ H.senders w, j ≠ i
  | .drop i => ∃ j ∈ H.senders w, j ≠ i
  | _ => True

/-- The condition on a step under which no close is lost. -/
def Half.Heeded (H : Half Op Loc Ret Ev Vars Knob)
    (w : World Op Loc Ret Ev Vars Knob) (l : Action Op Ev Knob) : Prop :=
  H.closes w.log = [] → H.Spares w l

instance (H : Half Op Loc Ret Ev Vars Knob) (w : World Op Loc Ret Ev Vars Knob) :
    (l : Action Op Ev Knob) → Decidable (H.Spares w l)
  | .python _ => inferInstanceAs (Decidable (_ → _ → _ ≠ []))
  | .task _ _ => inferInstanceAs (Decidable (_ → ∃ j ∈ _, j ≠ _))
  | .drop _ => inferInstanceAs (Decidable (∃ j ∈ _, j ≠ _))
  | .call _ | .exit _ | .close _ | .assign _ => inferInstanceAs (Decidable True)

instance (H : Half Op Loc Ret Ev Vars Knob) (w : World Op Loc Ret Ev Vars Knob)
    (l : Action Op Ev Knob) : Decidable (H.Heeded w l) :=
  inferInstanceAs (Decidable (_ = [] → _))

/-- The step by which a `reset(code)` or `stop(code)` returns `Ok`. -/
structure Half.CloseReturns (H : Half Op Loc Ret Ev Vars Knob) (Q : Answers Ev)
    (w : World Op Loc Ret Ev Vars Knob) (code : UInt32)
    (w' : World Op Loc Ret Ev Vars Knob) : Prop where
  step : H.Step Q w (.python none) w'
  calling : w.python = .cancelled code ∨ w.python = .sent code
  returned : w'.python = .idle

/-- No close signal is lost, in the runs whose steps meet `K` from the return of
the close call on: if the call returned `Ok` on a stream that was open, the QUIC
stream has been closed in every later state without a pending operation. -/
def Half.CloseDelivered (H : Half Op Loc Ret Ev Vars Knob) (Q : Answers Ev)
    (vars : Vars) (isOpen : Shared Ev Vars → Prop)
    (K : World Op Loc Ret Ev Vars Knob → Action Op Ev Knob → Prop) : Prop :=
  ∀ ⦃w w₁ w₂ : World Op Loc Ret Ev Vars Knob⦄ ⦃c tr⦄,
    Reachable (H.Step Q) (World.init vars) w → isOpen w.toShared →
    H.CloseReturns Q w c w₁ → K w (.python none) →
    Run (H.Step Q) w₁ tr w₂ → Along K tr → w₂.Quiet → H.closes w₂.log ≠ []

section Delivery

variable {H : Half Op Loc Ret Ev Vars Knob} {Q : Answers Ev} {i : ℕ}
  {sh sh' : Shared Ev Vars} {t t' : Task Op Loc Ret} {ans : Option Ev}
  {w w' : World Op Loc Ret Ev Vars Knob} {l : Action Op Ev Knob}
  {log log' : List Ev} {e : Ev} {code : UInt32}

theorem pending_of_canSend (h : H.canSend t = true) : t.pending = true := by
  cases t with
  | call op pc => cases pc <;> first | rfl | cases h
  | exit b pc => cases pc <;> first | rfl | cases h

theorem mem_senders :
    i ∈ H.senders w ↔ ∃ t, w.tasks[i]? = some t ∧ H.canSend t = true := by
  simp only [Half.senders, List.mem_filter, List.mem_range, Option.any_eq_true]
  constructor
  · rintro ⟨-, t, hi, ht⟩
    exact ⟨t, hi, ht⟩
  · rintro ⟨t, hi, ht⟩
    exact ⟨lt_length_of_getElem? hi, t, hi, ht⟩

theorem senders_ne_nil : H.senders w ≠ [] ↔ ∃ i, i ∈ H.senders w := by
  rw [ne_eq, List.eq_nil_iff_forall_not_mem]
  push Not
  rfl

theorem completes_of_ready {op : Op} {loc : Loc} {vars : Vars} {r : Ret}
    (hb : H.body op loc sh.vars ans = some (vars, .ready r)) :
    H.completes sh (.call op (.running loc)) ans = true := by
  simp [Half.completes, hb]

/-- A task that can send the close keeps this ability until it has sent it,
unless it completes. -/
theorem TaskMove.canSend (h : TaskMove H i sh t ans t' sh')
    (ht : H.canSend t = true) :
    H.canSend t' = true ∨ H.closes sh'.log ≠ [] ∨
      H.completes sh t ans = true := by
  cases h with
  | call op h =>
      cases h with
      | works l ans vars beat hb =>
          cases beat with
          | more l' => exact Or.inl rfl
          | pend l' => exact Or.inl rfl
          | ready r => exact Or.inr (Or.inr (completes_of_ready hb))
      | closeSends code e he => exact Or.inr (Or.inl (by simp [closes_record he]))
      | returns r => cases ht
      | closeReturns => cases ht
      | _ => exact Or.inl rfl
  | exit b h =>
      cases h with
      | sendsClose b e hb he => exact Or.inr (Or.inl (by simp [closes_record he]))
      | sendsFinish b e hb he => exact absurd ht (by simp [Half.canSend, hb])
      | skips hs => exact Or.inr (Or.inr hs)
      | returns => cases ht
      | _ => exact Or.inl ht

/-- The close has been sent, or some task can still send it. -/
def Half.Owed (H : Half Op Loc Ret Ev Vars Knob)
    (w : World Op Loc Ret Ev Vars Knob) : Prop :=
  H.closes w.log ≠ [] ∨ ∃ i, i ∈ H.senders w

theorem mem_senders_spawn {u : Task Op Loc Ret} (h : i ∈ H.senders w) :
    i ∈ H.senders { w with tasks := w.tasks ++ [u] } := by
  obtain ⟨t, hi, ht⟩ := mem_senders.mp h
  exact mem_senders.mpr ⟨t, getElem?_concat_of_eq_some hi, ht⟩

theorem mem_senders_set {j : ℕ} (h : j ∈ H.senders w) (hji : j ≠ i) :
    j ∈ H.senders { w with toShared := sh, tasks := w.tasks.set i t' } := by
  obtain ⟨t, hj, ht⟩ := mem_senders.mp h
  exact mem_senders.mpr ⟨t, getElem?_set_of_ne (Ne.symm hji) hj, ht⟩

/-- One step under the condition keeps the close owed. -/
theorem owed_step (h : H.Step Q w l w') (hK : H.Heeded w l) (hw : H.Owed w) :
    H.Owed w' := by
  by_cases hsent : H.closes w.log = []
  case neg => exact Or.inl (closes_ne_nil_mono h.log_isPrefix hsent)
  obtain ⟨i, hi⟩ := hw.resolve_left (not_not.mpr hsent)
  have hspares : H.Spares w l := hK hsent
  cases h.move with
  | call op => exact Or.inr ⟨i, mem_senders_spawn hi⟩
  | exit b => exact Or.inr ⟨i, mem_senders_spawn hi⟩
  | closeRefused => exact Or.inr ⟨i, hi⟩
  | closeBegins => exact Or.inr ⟨i, hi⟩
  | assigns => exact Or.inr ⟨i, hi⟩
  | python ans hm => exact Or.inr ⟨i, hi⟩
  | task j ans hj hm =>
      by_cases hij : i = j
      · subst hij
        obtain ⟨t, ht, hcan⟩ := mem_senders.mp hi
        obtain rfl : t = _ := Option.some.inj (ht.symm.trans hj)
        rcases hm.canSend hcan with hkeep | hsends | hends
        · exact Or.inr ⟨i, mem_senders.mpr ⟨_, getElem?_set_of_eq_some hj, hkeep⟩⟩
        · exact Or.inl hsends
        · obtain ⟨k, hk, hki⟩ := hspares (by simp [hj, hends])
          exact Or.inr ⟨k, mem_senders_set hk hki⟩
      · exact Or.inr ⟨i, mem_senders_set hi hij⟩
  | drop j hj hm =>
      obtain ⟨k, hk, hkj⟩ := hspares
      exact Or.inr ⟨k, mem_senders_set hk hkj⟩

theorem PythonMove.closes_ne_nil {py : Python Knob}
    (h : PythonMove H sh py ans (.sent code) sh') : H.closes sh'.log ≠ [] := by
  cases h with
  | sends code e he => simp [closes_record he]

theorem PythonMove.of_cancelled {py : Python Knob}
    (h : PythonMove H sh (.cancelled code) ans py sh') :
    py = .locked code ∨ (py = .idle ∧ sh.lock.line ≠ []) := by
  cases h with
  | locks code lock hl => exact Or.inl rfl
  | defers code hl => exact Or.inr ⟨rfl, FifoLock.tryLock_eq_none.mp hl⟩

theorem closes_ne_nil_of_sent {vars : Vars}
    (h : Reachable (H.Step Q) (World.init vars) w) (hpy : w.python = .sent code) :
    H.closes w.log ≠ [] := by
  refine h.invariant
    (I := fun w => ∀ code, w.python = .sent code → H.closes w.log ≠ [])
    ?_ (fun _ h => by cases h) code hpy
  intro w l w' hstep hw code hpy
  cases hstep.move with
  | call op => exact hw code hpy
  | exit b => exact hw code hpy
  | closeRefused => exact hw code hpy
  | closeBegins => cases hpy
  | assigns => cases hpy
  | python ans hm =>
      obtain rfl : _ = Python.sent code := hpy
      exact hm.closes_ne_nil
  | task i ans hi hm => exact closes_ne_nil_mono hm.log_isPrefix (hw code hpy)
  | drop i hi hm => exact closes_ne_nil_mono hm.log_isPrefix (hw code hpy)

/-- When the close call returns, the close has been sent or is owed. -/
theorem owed_of_closeReturns {vars : Vars}
    (hw : Reachable (H.Step Q) (World.init vars) w)
    (h : H.CloseReturns Q w code w') (hK : H.Heeded w (.python none)) :
    H.Owed w' := by
  have hret := h.returned
  rcases h.calling with hpy | hpy
  · by_cases hsent : H.closes w.log = []
    case neg => exact Or.inl (closes_ne_nil_mono h.step.log_isPrefix hsent)
    cases h.step.move with
    | python ans hm =>
        rw [hpy] at hm
        rcases hm.of_cancelled with rfl | ⟨rfl, hheld⟩
        · cases hret
        · have htries : w.python.tries = true := by rw [hpy]; rfl
          exact Or.inr (senders_ne_nil.mp (hK hsent htries hheld))
  · exact Or.inl (closes_ne_nil_mono h.step.log_isPrefix
      (closes_ne_nil_of_sent hw hpy))

theorem closes_ne_nil_of_owed (hw : H.Owed w) (hquiet : w.Quiet) :
    H.closes w.log ≠ [] := by
  rcases hw with hsent | ⟨i, hi⟩
  · exact hsent
  · obtain ⟨t, hi, hcan⟩ := mem_senders.mp hi
    have hpending := pending_of_canSend hcan
    rw [hquiet t (List.mem_of_getElem? hi)] at hpending
    cases hpending

theorem closeDelivered_of_heeded (vars : Vars) (isOpen : Shared Ev Vars → Prop) :
    H.CloseDelivered Q vars isOpen H.Heeded := by
  intro w w₁ w₂ code tr hreach _ hret hK hrun hall hquiet
  have howed : H.Owed w₁ := owed_of_closeReturns hreach hret hK
  have hlast : H.Owed w₂ :=
    hrun.invariant (fun _ _ _ hK hstep => owed_step hstep hK) hall howed
  exact closes_ne_nil_of_owed hlast hquiet

/-! ## The condition leaves out only lost closes -/

/-- The Python thread is in a close call that may still close the stream. -/
def Python.closing : Python Knob → Bool
  | .tested _ | .stored _ | .cancelled _ | .locked _ => true
  | _ => false

/-- Python makes no further call that could close the stream. -/
def Action.quiet : Action Op Ev Knob → Bool
  | .call _ | .exit _ | .close _ => false
  | _ => true

/-- The close has not been sent, and nobody is left to send it. -/
structure Half.Lost (H : Half Op Loc Ret Ev Vars Knob)
    (w : World Op Loc Ret Ev Vars Knob) : Prop where
  unsent : H.closes w.log = []
  nobody : ∀ (i : ℕ) (t : Task Op Loc Ret), w.tasks[i]? = some t →
    H.canSend t = false
  python : w.python.closing = false

theorem TaskMove.not_canSend (h : TaskMove H i sh t ans t' sh')
    (ht : H.canSend t = false) :
    H.canSend t' = false ∧ H.closes sh'.log = H.closes sh.log := by
  have hcan : H.canSend t' = false := by
    cases h with
    | call op h =>
        cases h with
        | returns r => rfl
        | closeReturns => rfl
        | _ => cases ht
    | exit b h =>
        cases h with
        | sendsClose | sendsFinish | skips | returns => rfl
        | _ => exact ht
  refine ⟨hcan, ?_⟩
  rcases h.closes_cases with heq | ⟨op, code, rfl, -⟩ | ⟨b, rfl, hb, -⟩
  · exact heq
  · cases ht
  · exact absurd ht (by simp [Half.canSend, hb])

theorem DropMove.not_canSend (h : DropMove H i sh t t' sh') :
    H.canSend t' = false := by
  cases h <;> rfl

theorem TaskMove.not_canSend_of_completes (h : TaskMove H i sh t ans t' sh')
    (hends : H.completes sh t ans = true) :
    H.canSend t' = false ∧ H.closes sh'.log = H.closes sh.log := by
  cases h with
  | call op h =>
      cases h with
      | works l ans vars beat hb =>
          cases beat with
          | ready r => exact ⟨rfl, closes_works hb⟩
          | _ => simp [Half.completes, hb] at hends
      | _ => cases hends
  | exit b h =>
      cases h with
      | skips => exact ⟨rfl, rfl⟩
      | begins hs => simp [Half.completes, hs] at hends
      | _ => simp [Half.completes] at hends

theorem canSend_eq_false_of_not_mem (hi : w.tasks[i]? = some t)
    (h : i ∉ H.senders w) : H.canSend t = false := by
  simpa using fun ht => h (mem_senders.mpr ⟨t, hi, ht⟩)

/-- A step that does not heed the close loses it. -/
theorem lost_of_not_heeded (h : H.Step Q w l w')
    (hpy : l ≠ .python none → w.python.closing = false)
    (hK : ¬ H.Heeded w l) : H.Lost w' := by
  obtain ⟨hunsent, hspares⟩ := Classical.not_imp.mp hK
  cases h.move with
  | call op => exact absurd trivial hspares
  | exit b => exact absurd trivial hspares
  | closeRefused => exact absurd trivial hspares
  | closeBegins => exact absurd trivial hspares
  | assigns => exact absurd trivial hspares
  | python ans hm =>
      simp only [Half.Spares] at hspares
      push Not at hspares
      obtain ⟨htries, hheld, hnone⟩ := hspares
      generalize w.python = py at hm htries
      cases hm with
      | locks code lock hl =>
          exact absurd (FifoLock.tryLock_eq_some hl).1 hheld
      | defers code hl =>
          refine ⟨hunsent, fun i t hi => ?_, rfl⟩
          exact canSend_eq_false_of_not_mem (w := w) hi (by simp [hnone])
      | _ => cases htries
  | task i ans hi hm =>
      simp only [Half.Spares] at hspares
      push Not at hspares
      obtain ⟨hends, hnone⟩ := hspares
      rw [hi, Option.any_some] at hends
      obtain ⟨hcan, hcloses⟩ := hm.not_canSend_of_completes hends
      refine ⟨hcloses.trans hunsent, ?_, hpy (by simp)⟩
      refine forall_getElem?_set hcan fun j u hji hj => ?_
      exact canSend_eq_false_of_not_mem hj fun hmem => hji (hnone j hmem)
  | drop i hi hm =>
      simp only [Half.Spares] at hspares
      push Not at hspares
      refine ⟨hm.closes_eq.trans hunsent, ?_, hpy (by simp)⟩
      refine forall_getElem?_set hm.not_canSend fun j u hji hj => ?_
      exact canSend_eq_false_of_not_mem hj fun hmem => hji (hspares j hmem)

theorem PythonMove.closing {py py' : Python Knob}
    (h : PythonMove H sh py ans py' sh') (hpy : py.closing = false) :
    py'.closing = false := by
  cases h <;> first | rfl | cases hpy

theorem lost_step (h : H.Step Q w l w') (hl : l.quiet = true)
    (hw : H.Lost w) : H.Lost w' := by
  cases h.move with
  | call op => cases hl
  | exit b => cases hl
  | closeRefused => cases hl
  | closeBegins => cases hl
  | assigns => exact ⟨hw.unsent, hw.nobody, rfl⟩
  | python ans hm =>
      refine ⟨?_, hw.nobody, hm.closing hw.python⟩
      rcases hm.closes_cases with heq | ⟨code, hpy, -, -⟩
      · exact heq.trans hw.unsent
      · have hclosing := hw.python
        rw [hpy] at hclosing
        cases hclosing
  | task i ans hi hm =>
      obtain ⟨hcan, hcloses⟩ := hm.not_canSend (hw.nobody i _ hi)
      exact ⟨hcloses.trans hw.unsent,
        forall_getElem?_set hcan fun j u _ => hw.nobody j u, hw.python⟩
  | drop i hi hm =>
      exact ⟨hm.closes_eq.trans hw.unsent,
        forall_getElem?_set hm.not_canSend fun j u _ => hw.nobody j u, hw.python⟩

/-- A lost close stays lost until Python makes another call on the wrapper. -/
theorem Half.Lost.run {tr : List (World Op Loc Ret Ev Vars Knob × Action Op Ev Knob)}
    (hw : H.Lost w) (h : Run (H.Step Q) w tr w')
    (hquiet : Along (fun _ l => l.quiet = true) tr) : H.closes w'.log = [] :=
  (h.invariant (fun _ _ _ hl hstep => lost_step hstep hl) hquiet hw).unsent

end Delivery

end WebTransport.Wrapper
