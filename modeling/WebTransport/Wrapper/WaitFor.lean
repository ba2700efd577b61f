import WebTransport.Support.WaitFor
import WebTransport.Wrapper.Line

/-!
# Waiting for the end of a stream with the guard in hand

`wait_closed` waits for an event with the guard of the mutex in hand.  Where the
event needs a call on the QUIC stream that another operation has to make, that
operation cannot be in the line for the mutex: it would wait for `wait_closed`,
and `wait_closed` for it.
-/

namespace WebTransport.Wrapper

open Support

variable {Op Loc Ret Ev Vars Knob : Type}

/-! ## The event and who brings it about -/

/-- What `wait_closed` waits for on a half. -/
structure Completion (H : Half Op Loc Ret Ev Vars Knob) where
  /-- The operation waits for the event. -/
  waits : Op → Bool
  /-- The calls whose own work on the stream can bring the event about. -/
  serves : Call Op → Bool
  /-- The call that looks for the event, when the event has not come. -/
  pends : Ev → Bool
  /-- After these calls on the stream the event cannot come before a serving
  call has done its work, unless the stream is closed abruptly on either side or
  the session is lost. -/
  starved : List Ev → Bool
  waits_not_serves : ∀ {op}, waits op = true → serves (.op op) = false
  pends_of_pend : ∀ {op l v ans v' l'}, H.body op l v ans = some (v', .pend l') →
    waits op = true → ∃ e, ans = some e ∧ pends e = true
  pend_of_pends : ∀ {op l v e v' beat},
    H.body op l v (some e) = some (v', beat) → pends e = true →
    waits op = true ∧ ∃ l', beat = .pend l'
  closeCode_of_pends : ∀ {e}, pends e = true → H.closeCode e = none
  isFinish_of_pends : ∀ {e}, pends e = true → H.isFinish e = false
  starved_of_append : ∀ {log evs}, starved (log ++ evs) = true →
    starved log = true
  starved_concat : ∀ {log e}, pends e = true → starved log = true →
    starved (log ++ [e]) = true

namespace Completion

variable {H : Half Op Loc Ret Ev Vars Knob} (D : Completion H)

/-- The task is a pending `wait_closed`, which has the guard. -/
def holdsOn : Task Op Loc Ret → Bool
  | .call op (.suspended _) => D.waits op
  | _ => false

/-- The task will bring the event about when it gets the guard. -/
def canServe (t : Task Op Loc Ret) : Bool :=
  D.serves t.called && t.beforeBody

/-- Nothing but a serving call can bring the event about. -/
def Starved (w : World Op Loc Ret Ev Vars Knob) : Prop :=
  w.cancelled = false ∧ D.starved w.log = true

/-- A pending `wait_closed` waits for a task that has to bring its event
about. -/
def Needs (w : World Op Loc Ret Ev Vars Knob) (a b : Owner) : Prop :=
  D.Starved w ∧ ∃ (i j : ℕ) (t u : Task Op Loc Ret),
    a = .task i ∧ w.tasks[i]? = some t ∧ D.holdsOn t = true ∧
    b = .task j ∧ w.tasks[j]? = some u ∧ D.canServe u = true

/-- The wait-for relation between the mutex and the completion event has no
cycle. -/
def NoCycle (w : World Op Loc Ret Ev Vars Knob) : Prop :=
  Acyclic (WaitsFor w.lock (D.Needs w))

def Stuck (w : World Op Loc Ret Ev Vars Knob) : Prop :=
  D.Starved w ∧ ∃ t ∈ w.tasks, D.holdsOn t = true

def ServerInLine (w : World Op Loc Ret Ev Vars Knob) : Prop :=
  ∃ o ∈ w.lock.line, ∃ j ∈ o.task?, ∃ u ∈ w.tasks[j]?, D.canServe u = true

/-- No serving call asks for the mutex while a pending `wait_closed` needs one,
and no `wait_closed` that needs one is left pending while a serving call stands
in the line. -/
def Unblocked (w : World Op Loc Ret Ev Vars Knob) : Action Op Ev Knob → Prop
  | .task i none => ∀ u ∈ w.tasks[i]?,
      D.canServe u = true → u.asks = true → ¬ D.Stuck w
  | .task _ (some e) => D.pends e = true → D.Starved w → ¬ D.ServerInLine w
  | _ => True

/-- In the runs whose steps meet `K` the wait-for relation never has a cycle. -/
def NeverBlocks (Q : Answers Ev) (vars : Vars)
    (K : World Op Loc Ret Ev Vars Knob → Action Op Ev Knob → Prop) : Prop :=
  ∀ {tr : List (World Op Loc Ret Ev Vars Knob × Action Op Ev Knob)}
    {w : World Op Loc Ret Ev Vars Knob},
    Run (H.Step Q) (World.init vars) tr w → Along K tr →
    Along (fun u _ => D.NoCycle u) tr ∧ D.NoCycle w

instance (w : World Op Loc Ret Ev Vars Knob) : Decidable (D.Starved w) :=
  inferInstanceAs (Decidable (_ ∧ _))

instance (w : World Op Loc Ret Ev Vars Knob) : Decidable (D.Stuck w) :=
  inferInstanceAs (Decidable (_ ∧ ∃ t ∈ w.tasks, _))

instance (w : World Op Loc Ret Ev Vars Knob) : Decidable (D.ServerInLine w) :=
  inferInstanceAs
    (Decidable (∃ o ∈ w.lock.line, ∃ j ∈ o.task?, ∃ u ∈ w.tasks[j]?, _))

instance (w : World Op Loc Ret Ev Vars Knob) (l : Action Op Ev Knob) :
    Decidable (D.Unblocked w l) :=
  match l with
  | .task i none => inferInstanceAs (Decidable (∀ u ∈ w.tasks[i]?, _))
  | .task _ (some e) => inferInstanceAs (Decidable (D.pends e = true → _))
  | .call _ | .exit _ | .close _ | .assign _ | .python _ | .drop _ => isTrue trivial

end Completion

/-! ## Cycles of two -/

namespace Completion

section Cycles

variable {H : Half Op Loc Ret Ev Vars Knob} {D : Completion H} {Q : Answers Ev}
  {i j : ℕ} {t t' u u' : Task Op Loc Ret} {ans : Option Ev} {sh : Shared Ev Vars}
  {w w' : World Op Loc Ret Ev Vars Knob} {l : Action Op Ev Knob}

theorem holds_of_holdsOn (h : D.holdsOn t = true) : t.holds = true := by
  unfold holdsOn at h
  split at h
  · rfl
  · cases h

theorem canServe_eq_false (h : D.holdsOn t = true) : D.canServe t = false := by
  unfold holdsOn at h
  split at h
  · simp [canServe, Task.beforeBody, CallPc.beforeBody]
  · cases h

theorem ne_of_holdsOn_canServe (hi : w.tasks[i]? = some t)
    (ht : D.holdsOn t = true) (hj : w.tasks[j]? = some u)
    (hu : D.canServe u = true) : i ≠ j := by
  rintro rfl
  obtain rfl := Option.some.inj (hi.symm.trans hj)
  rw [canServe_eq_false ht] at hu
  cases hu

/-- Where the mutex is respected, a cycle is a pending `wait_closed` that needs
a serving call, with a serving call in the line. -/
theorem noCycle_iff (hx : Exclusive w) :
    D.NoCycle w ↔ ¬ (D.Stuck w ∧ D.ServerInLine w) := by
  have howner : ∀ a b, D.Needs w a b → w.lock.holder = some a := by
    rintro a b ⟨-, i, j, t, u, rfl, hi, ht, -⟩
    exact hx.task i t hi (holds_of_holdsOn ht)
  have hne : ∀ a b, D.Needs w a b → a ≠ b := by
    rintro a b ⟨-, i, j, t, u, rfl, hi, ht, rfl, hj, hu⟩
    simpa using ne_of_holdsOn_canServe hi ht hj hu
  rw [NoCycle, acyclic_waitsFor_iff howner hne]
  constructor
  · rintro hout ⟨⟨hstarved, t, ht, hwait⟩, o, ho, j, hj, u, hu, hserve⟩
    obtain ⟨i, hi⟩ := List.getElem?_of_mem ht
    obtain rfl := Owner.task?_eq_some.mp hj
    exact hout (.task i) (.task j)
      ⟨hstarved, i, j, t, u, rfl, hi, hwait, rfl, hu, hserve⟩ ho
  · rintro hnot a b ⟨hstarved, i, j, t, u, rfl, hi, ht, rfl, hj, hu⟩ hline
    exact hnot ⟨⟨hstarved, t, List.mem_of_getElem? hi, ht⟩,
      .task j, hline, j, rfl, u, hj, hu⟩

/-! ## How a cycle comes about -/

theorem Starved.of_step (h : H.Step Q w l w') (hw' : D.Starved w') :
    D.Starved w := by
  obtain ⟨hunset, hstarved⟩ := hw'
  obtain ⟨evs, hlog⟩ := h.log_isPrefix
  refine ⟨?_, D.starved_of_append (hlog ▸ hstarved)⟩
  by_contra hset
  rw [h.cancelled (by simpa using hset)] at hunset
  cases hunset

theorem pends_of_holdsOn (h : TaskMove H i w.toShared t ans t' sh)
    (ht : D.holdsOn t' = true) : ∃ e, ans = some e ∧ D.pends e = true := by
  cases h with
  | exit b h => cases ht
  | call op h =>
      cases h with
      | works l ans vars beat hb =>
          cases beat with
          | pend l' => exact D.pends_of_pend hb ht
          | _ => cases ht
      | _ => cases ht

theorem holdsOn_cases (h : H.Step Q w l w') (hi : w'.tasks[i]? = some t')
    (ht : D.holdsOn t' = true) :
    (∃ t, w.tasks[i]? = some t ∧ D.holdsOn t = true) ∨
      ∃ e, l = .task i (some e) ∧ D.pends e = true := by
  refine h.forall_tasks
    (P := fun i t => D.holdsOn t = true →
      ∃ t, w.tasks[i]? = some t ∧ D.holdsOn t = true)
    (R := fun i t => D.holdsOn t = true →
      (∃ t, w.tasks[i]? = some t ∧ D.holdsOn t = true) ∨
        ∃ e, l = .task i (some e) ∧ D.pends e = true)
    (fun op ht => by cases ht) (fun b ht => by cases ht) ?_ ?_
    (fun i t _ _ _ hbefore ht => Or.inl (hbefore ht))
    (fun i t hi ht => ⟨t, hi, ht⟩) i t' hi ht
  · rintro i ans t t' rfl _ hm _ ht'
    obtain ⟨e, rfl, he⟩ := pends_of_holdsOn hm ht'
    exact Or.inr ⟨e, rfl, he⟩
  · intro i t t' _ _ hm _ ht'
    have hholds := holds_of_holdsOn ht'
    rw [hm.holds_eq_false] at hholds
    cases hholds

/-- A serving call that stands in the line after a step stood there before it,
or has just asked for the mutex. -/
theorem canServe_cases (h : H.Step Q w l w')
    (hline : ∀ i, .task i ∈ w.lock.line → i < w.tasks.length)
    (hj : w'.tasks[j]? = some u') (hu : D.canServe u' = true)
    (hin : .task j ∈ w'.lock.line) :
    ∃ u, w.tasks[j]? = some u ∧ D.canServe u = true ∧
      (.task j ∈ w.lock.line ∨ (l = .task j none ∧ u.asks = true)) := by
  have hspawn : ∀ {t : Task Op Loc Ret}, (w.tasks ++ [t])[j]? = some u' →
      .task j ∈ w.lock.line → w.tasks[j]? = some u' := by
    intro t hj hin
    rwa [List.getElem?_append_left (hline j hin)] at hj
  cases h.move with
  | call op => exact ⟨u', hspawn hj hin, hu, Or.inl hin⟩
  | exit b => exact ⟨u', hspawn hj hin, hu, Or.inl hin⟩
  | closeRefused | closeBegins | assigns => exact ⟨u', hj, hu, Or.inl hin⟩
  | python ans hm => exact ⟨u', hj, hu, Or.inl (hm.mem_line hin)⟩
  | task i ans hi hm =>
      by_cases hij : i = j
      · subst hij
        rw [getElem?_set_of_eq_some hi] at hj
        cases hj
        simp only [canServe, hm.called, Bool.and_eq_true] at hu
        have hbefore := hm.beforeBody hu.2
        refine ⟨_, hi, by simp [canServe, hu.1, hbefore], ?_⟩
        rcases hm.mem_line hin with hstood | ⟨-, hasks | hpast⟩
        · exact Or.inl hstood
        · exact Or.inr ⟨by rw [hm.answer_of_asks hasks], hasks⟩
        · rw [hu.2] at hpast
          cases hpast
      · rw [List.getElem?_set_ne hij] at hj
        refine ⟨u', hj, hu, Or.inl ?_⟩
        rcases hm.mem_line hin with hstood | ⟨heq, -⟩
        · exact hstood
        · cases heq
          exact absurd rfl hij
  | drop i hi hm =>
      by_cases hij : i = j
      · subst hij
        rw [getElem?_set_of_eq_some hi] at hj
        cases hj
        obtain ⟨-, -, hpast⟩ := hm.entered_eq
        simp [canServe, hpast] at hu
      · rw [List.getElem?_set_ne hij] at hj
        exact ⟨u', hj, hu, Or.inl (hm.mem_line hin)⟩

/-- A step that meets the condition makes no cycle. -/
theorem cycle_of_step (h : H.Step Q w l w')
    (hline : ∀ i, .task i ∈ w.lock.line → i < w.tasks.length)
    (hK : D.Unblocked w l) (hw' : D.Stuck w' ∧ D.ServerInLine w') :
    D.Stuck w ∧ D.ServerInLine w := by
  obtain ⟨⟨hstarved, t, ht, hwait⟩, o, ho, j, hj, u, hu, hserve⟩ := hw'
  obtain ⟨i, hi⟩ := List.getElem?_of_mem ht
  obtain rfl := Owner.task?_eq_some.mp hj
  have hstarved := hstarved.of_step h
  obtain ⟨u, hu, hserve, hstood⟩ := canServe_cases h hline hu hserve ho
  rcases holdsOn_cases h hi hwait with ⟨t, hi, hwait⟩ | ⟨e, rfl, he⟩
  · have hstuck : D.Stuck w := ⟨hstarved, t, List.mem_of_getElem? hi, hwait⟩
    rcases hstood with hstood | ⟨rfl, hasks⟩
    · exact ⟨hstuck, _, hstood, j, rfl, u, hu, hserve⟩
    · exact absurd hstuck (hK u hu hserve hasks)
  · rcases hstood with hstood | ⟨heq, -⟩
    · exact absurd ⟨_, hstood, j, rfl, u, hu, hserve⟩ (hK he hstarved)
    · cases heq

/-- A serving call that asks for the mutex while a pending `wait_closed` needs
one gets into the line behind it. -/
theorem cycle_of_asks (hx : Exclusive w) (h : H.Step Q w (.task j none) w')
    (hj : w.tasks[j]? = some u) (hu : D.canServe u = true)
    (hasks : u.asks = true) (hstuck : D.Stuck w) :
    D.Stuck w' ∧ D.ServerInLine w' := by
  obtain ⟨hstarved, t, ht, hwait⟩ := hstuck
  obtain ⟨i, hi⟩ := List.getElem?_of_mem ht
  have hne : i ≠ j := ne_of_holdsOn_canServe hi hwait hj hu
  have hnot : ¬ (w.request (.task j)).Owns (.task j) := by
    intro howns
    have hholder : w.Owns (.task i) := hx.task i t hi (holds_of_holdsOn hwait)
    exact hne (by simpa using hholder.request.unique howns)
  cases h.move with
  | task _ _ hj' hm =>
      obtain rfl := Option.some.inj (hj.symm.trans hj')
      have hrest : ∀ {u' : Task Op Loc Ret}, D.canServe u' = true →
          D.Stuck { w with
            toShared := w.request (.task j), tasks := w.tasks.set j u' } ∧
          D.ServerInLine { w with
            toShared := w.request (.task j), tasks := w.tasks.set j u' } := by
        intro u' hu'
        refine ⟨⟨hstarved, t, ?_, hwait⟩, .task j, FifoLock.mem_request_self, j,
          rfl, u', getElem?_set_of_eq_some hj, hu'⟩
        exact List.mem_of_getElem? (getElem?_set_of_ne hne.symm hi)
      cases hm with
      | call op hm =>
          cases hm with
          | enters ho => exact absurd ho hnot
          | queues ho => exact hrest hu
          | _ => cases hasks
      | exit b hm =>
          cases hm with
          | enters _ ho => exact absurd ho hnot
          | queues _ ho => exact hrest hu
          | _ => cases hasks

/-- A `wait_closed` that needs a serving call and is left pending has the ones
in the line behind it. -/
theorem cycle_of_pends {e : Ev} (h : H.Step Q w (.task i (some e)) w')
    (he : D.pends e = true) (hstarved : D.Starved w) (hline : D.ServerInLine w) :
    D.Stuck w' ∧ D.ServerInLine w' := by
  obtain ⟨o, ho, j, hj, u, hu, hserve⟩ := hline
  have hclose : H.closeCode e = none := D.closeCode_of_pends he
  cases h.move with
  | task _ _ hi hm =>
      cases hm with
      | exit b hm =>
          cases hm with
          | sendsClose _ _ hb hcode =>
              rw [hclose] at hcode
              cases hcode
          | sendsFinish _ _ hb hfinish =>
              rw [D.isFinish_of_pends he] at hfinish
              cases hfinish
      | call op hm =>
          cases hm with
          | closeSends code _ hcode =>
              rw [hclose] at hcode
              cases hcode
          | works l _ vars beat hb =>
              obtain ⟨hwaits, l', rfl⟩ := D.pend_of_pends hb he
              have hne : i ≠ j := by
                rintro rfl
                obtain rfl := Option.some.inj (hi.symm.trans hu)
                simp [canServe, Task.beforeBody, CallPc.beforeBody] at hserve
              refine ⟨⟨⟨hstarved.1, D.starved_concat he hstarved.2⟩, _,
                List.mem_of_getElem? (getElem?_set_of_eq_some hi), hwaits⟩, ?_⟩
              exact ⟨o, ho, j, hj, u, getElem?_set_of_ne hne hu, hserve⟩

theorem cycle_of_not_unblocked (hx : Exclusive w) (h : H.Step Q w l w')
    (hK : ¬ D.Unblocked w l) : D.Stuck w' ∧ D.ServerInLine w' := by
  cases l with
  | task i ans =>
      cases ans with
      | none =>
          simp only [Unblocked, Classical.not_forall, not_not] at hK
          obtain ⟨u, hu, hserve, hasks, hstuck⟩ := hK
          exact cycle_of_asks hx h hu hserve hasks hstuck
      | some e =>
          simp only [Unblocked, Classical.not_imp, not_not] at hK
          obtain ⟨he, hstarved, hline⟩ := hK
          exact cycle_of_pends h he hstarved hline
  | _ => exact absurd trivial hK

/-- No state of a run has a cycle exactly if all steps of the run meet the
condition. -/
theorem noCycle_iff_unblocked {vars : Vars}
    {tr : List (World Op Loc Ret Ev Vars Knob × Action Op Ev Knob)}
    (h : Run (H.Step Q) (World.init vars) tr w) :
    (Along (fun u _ => D.NoCycle u) tr ∧ D.NoCycle w) ↔ Along D.Unblocked tr := by
  induction h with
  | refl =>
      have hinit : D.NoCycle (World.init vars) := by
        rw [noCycle_iff (exclusive_init vars)]
        rintro ⟨⟨-, t, ht, -⟩, -⟩
        cases ht
      simpa using hinit
  | tail hrun hstep ih =>
      have hx := exclusive_of_reachable hrun.reachable
      have hlast := noCycle_iff (D := D) (exclusive_step hstep hx)
      have hline := fun i => lt_length_of_mem_line (i := i) hrun.reachable
      rw [along_append, along_append, along_singleton, along_singleton, ih]
      refine and_congr_right fun hK => ?_
      rw [hlast]
      constructor
      · intro hnone
        by_contra hbad
        exact hnone (cycle_of_not_unblocked hx hstep hbad)
      · intro hgood hcycle
        have hbefore := (ih.mpr hK).2
        rw [noCycle_iff hx] at hbefore
        exact hbefore (cycle_of_step hstep hline hgood hcycle)

end Cycles

end Completion

end WebTransport.Wrapper
