import WebTransport.Support.Indexed
import WebTransport.Wrapper.Machine

/-!
# What a step can do

The step functions of a half are inverted once.  Each way in which a task, an
exit or the Python thread can move is one constructor below, with the guard
under which it happens and its effect on the shared state; every invariant of
the wrappers is proved by cases on these moves.
-/

namespace WebTransport.Wrapper

open Support

variable {Op Loc Ret Ev Vars Knob : Type}

/-- The moves of the task of an operation. -/
inductive CallMove (H : Half Op Loc Ret Ev Vars Knob) (i : Nat) (op : Op)
    (sh : Shared Ev Vars) :
    CallPc Loc Ret → Option Ev → CallPc Loc Ret → Shared Ev Vars → Prop
  | spawnedSet (hc : sh.cancelled = true) :
      CallMove H i op sh .spawned none (.interrupted none) sh
  | spawnedUnset (hc : sh.cancelled = false) :
      CallMove H i op sh .spawned none .checked sh
  | waitingSet (hc : sh.cancelled = true) :
      CallMove H i op sh .waiting none (.interrupted none) sh
  | waitingUnset (hc : sh.cancelled = false) :
      CallMove H i op sh .waiting none .checked sh
  | suspendedSet (l : Loc) (hc : sh.cancelled = true) :
      CallMove H i op sh (.suspended l) none (.interrupted (some l)) sh
  | suspendedUnset (l : Loc) (hc : sh.cancelled = false) :
      CallMove H i op sh (.suspended l) none (.running l) sh
  | enters (ho : (sh.request (.task i)).Owns (.task i)) :
      CallMove H i op sh .checked none (.running (H.enter op))
        ((sh.request (.task i)).enter i)
  | queues (ho : ¬ (sh.request (.task i)).Owns (.task i)) :
      CallMove H i op sh .checked none .waiting (sh.request (.task i))
  | works (l : Loc) (ans : Option Ev) (vars : Vars) (beat : Beat Loc Ret)
      (hb : H.body op l sh.vars ans = some (vars, beat)) :
      CallMove H i op sh (.running l) ans beat.pc
        { sh.record ans.toList with vars := vars }
  | returns (r : Ret) :
      CallMove H i op sh (.built r) none (.done r) (sh.leave (.task i))
  | letsGo (l : Option Loc) :
      CallMove H i op sh (.interrupted l) none .closing
        ((sh.record (l.elim [] (H.dropped op))).leave (.task i))
  | closeLocks (ho : (sh.request (.task i)).Owns (.task i)) :
      CallMove H i op sh .closing none .closeHeld (sh.request (.task i))
  | closeQueues (ho : ¬ (sh.request (.task i)).Owns (.task i)) :
      CallMove H i op sh .closing none .closeWaiting (sh.request (.task i))
  | closeWakes (ho : sh.Owns (.task i)) :
      CallMove H i op sh .closeWaiting none .closeHeld sh
  | closeLoads :
      CallMove H i op sh .closeHeld none (.closeLoaded sh.code) sh
  | closeSends (code : UInt32) (e : Ev) (he : H.closeCode e = some code) :
      CallMove H i op sh (.closeLoaded code) (some e) .closeSent (sh.record [e])
  | closeReturns :
      CallMove H i op sh .closeSent none (.done H.closedLocally)
        (sh.leave (.task i))

/-- The moves of an `__aexit__`. -/
inductive ExitMove (H : Half Op Loc Ret Ev Vars Knob) (i : Nat)
    (sh : Shared Ev Vars) :
    Bool → ExitPc → Option Ev → ExitPc → Shared Ev Vars → Prop
  | stores :
      ExitMove H i sh true .spawned none .stored { sh with code := 0 }
  | skips (hs : H.exitSkips sh.vars = true) :
      ExitMove H i sh false .spawned none .returned sh
  | begins (hs : H.exitSkips sh.vars = false) :
      ExitMove H i sh false .spawned none .ready sh
  | cancels (b : Bool) :
      ExitMove H i sh b .stored none .ready { sh with cancelled := true }
  | enters (b : Bool) (ho : (sh.request (.task i)).Owns (.task i)) :
      ExitMove H i sh b .ready none .held ((sh.request (.task i)).enter i)
  | queues (b : Bool) (ho : ¬ (sh.request (.task i)).Owns (.task i)) :
      ExitMove H i sh b .ready none .waiting (sh.request (.task i))
  | wakes (b : Bool) (ho : sh.Owns (.task i)) :
      ExitMove H i sh b .waiting none .held (sh.enter i)
  | sendsClose (b : Bool) (e : Ev) (hb : (b || H.exitCloses) = true)
      (he : H.closeCode e = some 0) :
      ExitMove H i sh b .held (some e) .sent (sh.record [e])
  | sendsFinish (b : Bool) (e : Ev) (hb : (b || H.exitCloses) = false)
      (he : H.isFinish e = true) :
      ExitMove H i sh b .held (some e) .sent (sh.record [e])
  | returns (b : Bool) :
      ExitMove H i sh b .sent none .returned (sh.leave (.task i))

/-- The moves of a task. -/
inductive TaskMove (H : Half Op Loc Ret Ev Vars Knob) (i : Nat)
    (sh : Shared Ev Vars) :
    Task Op Loc Ret → Option Ev → Task Op Loc Ret → Shared Ev Vars → Prop
  | call (op : Op) {pc pc' : CallPc Loc Ret} {ans : Option Ev}
      {sh' : Shared Ev Vars} (h : CallMove H i op sh pc ans pc' sh') :
      TaskMove H i sh (.call op pc) ans (.call op pc') sh'
  | exit (b : Bool) {pc pc' : ExitPc} {ans : Option Ev}
      {sh' : Shared Ev Vars} (h : ExitMove H i sh b pc ans pc' sh') :
      TaskMove H i sh (.exit b pc) ans (.exit b pc') sh'

/-- The ways in which asyncio cancellation drops a task. -/
inductive DropMove (H : Half Op Loc Ret Ev Vars Knob) (i : Nat)
    (sh : Shared Ev Vars) :
    Task Op Loc Ret → Task Op Loc Ret → Shared Ev Vars → Prop
  | callSpawned (op : Op) :
      DropMove H i sh (.call op .spawned) (.call op .dropped) sh
  | callWaiting (op : Op) :
      DropMove H i sh (.call op .waiting) (.call op .dropped)
        (sh.leave (.task i))
  | callSuspended (op : Op) (l : Loc) :
      DropMove H i sh (.call op (.suspended l)) (.call op .dropped)
        ((sh.record (H.dropped op l)).leave (.task i))
  | callCloseWaiting (op : Op) :
      DropMove H i sh (.call op .closeWaiting) (.call op .dropped)
        (sh.leave (.task i))
  | exitSpawned (b : Bool) :
      DropMove H i sh (.exit b .spawned) (.exit b .dropped) sh
  | exitWaiting (b : Bool) :
      DropMove H i sh (.exit b .waiting) (.exit b .dropped)
        (sh.leave (.task i))

/-- The moves of the Python thread within a synchronous call. -/
inductive PythonMove (H : Half Op Loc Ret Ev Vars Knob) (sh : Shared Ev Vars) :
    Python Knob → Option Ev → Python Knob → Shared Ev Vars → Prop
  | stores (code : UInt32) :
      PythonMove H sh (.tested code) none (.stored code) { sh with code := code }
  | cancels (code : UInt32) :
      PythonMove H sh (.stored code) none (.cancelled code)
        { sh with cancelled := true }
  | locks (code : UInt32) (lock : FifoLock Owner)
      (hl : sh.lock.tryLock .python = some lock) :
      PythonMove H sh (.cancelled code) none (.locked code)
        { sh with lock := lock }
  | defers (code : UInt32) (hl : sh.lock.tryLock .python = none) :
      PythonMove H sh (.cancelled code) none .idle sh
  | sends (code : UInt32) (e : Ev) (he : H.closeCode e = some code) :
      PythonMove H sh (.locked code) (some e) (.sent code) (sh.record [e])
  | returns (code : UInt32) :
      PythonMove H sh (.sent code) none .idle (sh.leave .python)
  | assignLocks (k : Knob) (lock : FifoLock Owner)
      (hl : sh.lock.tryLock .python = some lock) :
      PythonMove H sh (.assigned k) none (.applying k) { sh with lock := lock }
  | assignDefers (k : Knob) (hl : sh.lock.tryLock .python = none) :
      PythonMove H sh (.assigned k) none .idle sh
  | applies (k : Knob) (e : Ev) (he : H.isApply k e = true) :
      PythonMove H sh (.applying k) (some e) (.applied k) (sh.record [e])
  | records (k : Knob) :
      PythonMove H sh (.applied k) none .recorded
        { sh with vars := H.recordApplied k sh.vars }
  | assignReturns :
      PythonMove H sh .recorded none .idle (sh.leave .python)

/-- The moves of a wrapper. -/
inductive Move (H : Half Op Loc Ret Ev Vars Knob)
    (w : World Op Loc Ret Ev Vars Knob) :
    Action Op Ev Knob → World Op Loc Ret Ev Vars Knob → Prop
  | call (op : Op) (hpy : w.python = .idle) :
      Move H w (.call op) { w with tasks := w.tasks ++ [.call op .spawned] }
  | exit (b : Bool) (hpy : w.python = .idle) :
      Move H w (.exit b) { w with tasks := w.tasks ++ [.exit b .spawned] }
  | closeRefused (code : UInt32) (hpy : w.python = .idle)
      (hc : w.cancelled = true) : Move H w (.close code) w
  | closeBegins (code : UInt32) (hpy : w.python = .idle)
      (hc : w.cancelled = false) :
      Move H w (.close code) { w with python := .tested code }
  | assigns (k : Knob) (hpy : w.python = .idle) :
      Move H w (.assign k)
        { w with vars := H.assign k w.vars, python := .assigned k }
  | python (ans : Option Ev) {py : Python Knob} {sh : Shared Ev Vars}
      (h : PythonMove H w.toShared w.python ans py sh) :
      Move H w (.python ans) { w with toShared := sh, python := py }
  | task (i : Nat) (ans : Option Ev) {t t' : Task Op Loc Ret}
      {sh : Shared Ev Vars} (hi : w.tasks[i]? = some t)
      (h : TaskMove H i w.toShared t ans t' sh) :
      Move H w (.task i ans) { w with toShared := sh, tasks := w.tasks.set i t' }
  | drop (i : Nat) {t t' : Task Op Loc Ret} {sh : Shared Ev Vars}
      (hi : w.tasks[i]? = some t) (h : DropMove H i w.toShared t t' sh) :
      Move H w (.drop i) { w with toShared := sh, tasks := w.tasks.set i t' }

section Inversion

variable {H : Half Op Loc Ret Ev Vars Knob} {i : Nat} {op : Op} {b : Bool}
  {sh sh' : Shared Ev Vars} {ans : Option Ev}

theorem callMove_of_callStep {pc pc' : CallPc Loc Ret}
    (h : H.callStep i op pc ans sh = some (pc', sh')) :
    CallMove H i op sh pc ans pc' sh' := by
  unfold Half.callStep at h
  split at h
  case h_1 | h_2 | h_3 =>
    cases hc : sh.cancelled <;>
      (simp only [hc, Bool.false_eq_true, if_false, if_true, Option.some.injEq,
        Prod.mk.injEq] at h; obtain ⟨rfl, rfl⟩ := h; constructor; exact hc)
  case h_4 | h_8 =>
    by_cases ho : (sh.request (.task i)).Owns (.task i) <;>
      (simp only [ho, if_false, if_true, Option.some.injEq,
        Prod.mk.injEq] at h; obtain ⟨rfl, rfl⟩ := h; constructor; exact ho)
  case h_5 =>
    obtain ⟨⟨vars, beat⟩, hb, heq⟩ := Option.map_eq_some_iff.mp h
    cases heq
    exact .works _ _ vars beat hb
  case h_6 | h_7 | h_10 | h_12 =>
    cases h
    constructor
  case h_9 =>
    split at h
    · cases h
      constructor
      assumption
    · cases h
  case h_11 =>
    split at h
    · cases h
      constructor
      assumption
    · cases h
  case h_13 => cases h

theorem exitMove_of_exitStep {pc pc' : ExitPc}
    (h : H.exitStep i b pc ans sh = some (pc', sh')) :
    ExitMove H i sh b pc ans pc' sh' := by
  unfold Half.exitStep at h
  split at h
  case h_1 =>
    cases b with
    | true => cases h; constructor
    | false =>
        cases hs : H.exitSkips sh.vars <;>
          (simp only [hs, Bool.false_eq_true, if_false, if_true] at h; cases h;
            constructor; exact hs)
  case h_2 | h_6 => cases h; constructor
  case h_3 =>
    by_cases ho : (sh.request (.task i)).Owns (.task i) <;>
      (simp only [ho, if_false, if_true] at h; cases h; constructor; exact ho)
  case h_4 =>
    split at h
    · cases h
      constructor
      assumption
    · cases h
  case h_5 =>
    cases hb : (b || H.exitCloses) <;>
      simp only [hb, Bool.false_eq_true, if_false, if_true] at h
    · split at h
      · cases h
        exact .sendsFinish b _ hb (by assumption)
      · cases h
    · split at h
      · cases h
        exact .sendsClose b _ hb (by assumption)
      · cases h
  case h_7 => cases h

theorem taskMove_of_taskStep {t t' : Task Op Loc Ret}
    (h : H.taskStep i t ans sh = some (t', sh')) :
    TaskMove H i sh t ans t' sh' := by
  cases t with
  | call op pc =>
      obtain ⟨⟨pc', sh''⟩, hstep, heq⟩ := Option.map_eq_some_iff.mp h
      cases heq
      exact .call op (callMove_of_callStep hstep)
  | exit b pc =>
      obtain ⟨⟨pc', sh''⟩, hstep, heq⟩ := Option.map_eq_some_iff.mp h
      cases heq
      exact .exit b (exitMove_of_exitStep hstep)

theorem dropMove_of_taskDrop {t t' : Task Op Loc Ret}
    (h : H.taskDrop i t sh = some (t', sh')) : DropMove H i sh t t' sh' := by
  unfold Half.taskDrop at h
  split at h
  case h_7 => cases h
  all_goals
    cases h
    constructor

theorem pythonMove_of_pythonStep {py py' : Python Knob}
    (h : H.pythonStep py ans sh = some (py', sh')) :
    PythonMove H sh py ans py' sh' := by
  unfold Half.pythonStep at h
  split at h
  case h_1 | h_2 | h_5 | h_8 | h_9 => cases h; constructor
  case h_3 | h_6 =>
    split at h
    · cases h
      constructor
      assumption
    · cases h
      constructor
      assumption
  case h_4 | h_7 =>
    split at h
    · cases h
      constructor
      assumption
    · cases h
  case h_10 => cases h

theorem move_of_next {w w' : World Op Loc Ret Ev Vars Knob}
    {l : Action Op Ev Knob} (h : H.next w l = some w') : Move H w l w' := by
  cases l with
  | call op =>
      simp only [Half.next] at h
      split at h
      · cases h
        exact .call op (by assumption)
      · cases h
  | exit b =>
      simp only [Half.next] at h
      split at h
      · cases h
        exact .exit b (by assumption)
      · cases h
  | close code =>
      simp only [Half.next] at h
      split at h
      · rename_i hpy
        cases hc : w.cancelled with
        | true =>
            simp only [hc, if_true, Option.some.injEq] at h
            subst h
            exact .closeRefused code hpy hc
        | false =>
            simp only [hc, Bool.false_eq_true, if_false, Option.some.injEq] at h
            subst h
            exact .closeBegins code hpy hc
      · cases h
  | assign k =>
      simp only [Half.next] at h
      split at h
      · cases h
        exact .assigns k (by assumption)
      · cases h
  | python ans =>
      obtain ⟨⟨py, sh⟩, hstep, heq⟩ := Option.map_eq_some_iff.mp h
      cases heq
      exact .python ans (pythonMove_of_pythonStep hstep)
  | task i ans =>
      obtain ⟨t, hi, hrest⟩ := Option.bind_eq_some_iff.mp h
      obtain ⟨⟨t', sh⟩, hstep, heq⟩ := Option.map_eq_some_iff.mp hrest
      cases heq
      exact .task i ans hi (taskMove_of_taskStep hstep)
  | drop i =>
      obtain ⟨t, hi, hrest⟩ := Option.bind_eq_some_iff.mp h
      obtain ⟨⟨t', sh⟩, hstep, heq⟩ := Option.map_eq_some_iff.mp hrest
      cases heq
      exact .drop i hi (dropMove_of_taskDrop hstep)

theorem Half.Step.move {Q : Answers Ev} {w w' : World Op Loc Ret Ev Vars Knob}
    {l : Action Op Ev Knob} (h : H.Step Q w l w') : Move H w l w' :=
  move_of_next h.1

end Inversion

/-! ## What only grows -/

section Calls

variable {H : Half Op Loc Ret Ev Vars Knob} {i : ℕ} {sh sh' : Shared Ev Vars}
  {t t' : Task Op Loc Ret} {ans : Option Ev}

theorem TaskMove.called (h : TaskMove H i sh t ans t' sh') :
    t'.called = t.called := by
  cases h <;> rfl

theorem DropMove.called (h : DropMove H i sh t t' sh') : t'.called = t.called := by
  cases h <;> rfl

theorem calls_set {w : World Op Loc Ret Ev Vars Knob} (hi : w.tasks[i]? = some t)
    (ht : t'.called = t.called) :
    (w.tasks.set i t').map Task.called = w.calls :=
  map_set_of_eq hi ht

end Calls

section Growth

variable {H : Half Op Loc Ret Ev Vars Knob} {i : Nat} {sh sh' : Shared Ev Vars}
  {t t' : Task Op Loc Ret} {py py' : Python Knob} {ans : Option Ev}

theorem TaskMove.log_isPrefix (h : TaskMove H i sh t ans t' sh') :
    sh.log <+: sh'.log := by
  cases h with
  | call op h => cases h <;> simp [Shared.request, Shared.leave, Shared.enter,
      Shared.record]
  | exit b h => cases h <;> simp [Shared.request, Shared.leave, Shared.enter,
      Shared.record]

theorem DropMove.log_isPrefix (h : DropMove H i sh t t' sh') :
    sh.log <+: sh'.log := by
  cases h <;> simp [Shared.leave, Shared.record]

theorem PythonMove.log_isPrefix (h : PythonMove H sh py ans py' sh') :
    sh.log <+: sh'.log := by
  cases h <;> simp [Shared.leave, Shared.record]

theorem TaskMove.cancelled (h : TaskMove H i sh t ans t' sh')
    (hc : sh.cancelled = true) : sh'.cancelled = true := by
  cases h with
  | call op h => cases h <;> exact hc
  | exit b h => cases h <;> first | exact hc | rfl

theorem DropMove.cancelled (h : DropMove H i sh t t' sh')
    (hc : sh.cancelled = true) : sh'.cancelled = true := by
  cases h <;> exact hc

theorem PythonMove.cancelled (h : PythonMove H sh py ans py' sh')
    (hc : sh.cancelled = true) : sh'.cancelled = true := by
  cases h <;> first | exact hc | rfl

variable {Q : Answers Ev} {w w' : World Op Loc Ret Ev Vars Knob}
  {l : Action Op Ev Knob}

theorem Half.Step.log_isPrefix (h : H.Step Q w l w') : w.log <+: w'.log := by
  cases h.move with
  | python ans hm => exact hm.log_isPrefix
  | task i ans hi hm => exact hm.log_isPrefix
  | drop i hi hm => exact hm.log_isPrefix
  | _ => exact List.prefix_rfl

theorem Half.Step.cancelled (h : H.Step Q w l w') (hc : w.cancelled = true) :
    w'.cancelled = true := by
  cases h.move with
  | python ans hm => exact hm.cancelled hc
  | task i ans hi hm => exact hm.cancelled hc
  | drop i hi hm => exact hm.cancelled hc
  | _ => exact hc

theorem log_isPrefix_of_reachable (h : Reachable (H.Step Q) w w') :
    w.log <+: w'.log :=
  h.invariant (I := fun u => w.log <+: u.log)
    (fun _ _ _ hstep hpre => hpre.trans hstep.log_isPrefix) List.prefix_rfl

theorem cancelled_of_reachable (h : Reachable (H.Step Q) w w')
    (hc : w.cancelled = true) : w'.cancelled = true :=
  h.invariant (I := fun u => u.cancelled = true)
    (fun _ _ _ hstep hc => hstep.cancelled hc) hc

end Growth

theorem Half.step_task_none {H : Half Op Loc Ret Ev Vars Knob} {Q : Answers Ev}
    {w : World Op Loc Ret Ev Vars Knob} {i : ℕ} {t t' : Task Op Loc Ret}
    {sh : Shared Ev Vars} (hi : w.tasks[i]? = some t)
    (h : H.taskStep i t none w.toShared = some (t', sh)) :
    H.Step Q w (.task i none)
      { w with toShared := sh, tasks := w.tasks.set i t' } := by
  refine ⟨?_, fun e he => by cases he⟩
  simp only [Half.next, hi, Option.bind_some, h, Option.map_some]

/-! ## Facts about every task -/

/-- A fact about every task is kept by a step: the task that moves has to be
shown to have it afterwards, and so has a new one, and it has to be carried over
for the others. -/
theorem Half.Step.forall_tasks {H : Half Op Loc Ret Ev Vars Knob} {Q : Answers Ev}
    {w w' : World Op Loc Ret Ev Vars Knob} {l : Action Op Ev Knob}
    {P R : ℕ → Task Op Loc Ret → Prop} (h : H.Step Q w l w')
    (hcall : ∀ op, R w.tasks.length (.call op .spawned))
    (hexit : ∀ b, R w.tasks.length (.exit b .spawned))
    (htask : ∀ i ans t t', l = .task i ans → w.tasks[i]? = some t →
      TaskMove H i w.toShared t ans t' w'.toShared → P i t → R i t')
    (hdrop : ∀ i t t', l = .drop i → w.tasks[i]? = some t →
      DropMove H i w.toShared t t' w'.toShared → P i t → R i t')
    (hkeep : ∀ i t, w.tasks[i]? = some t → (∀ ans, l ≠ .task i ans) →
      l ≠ .drop i → P i t → R i t)
    (hw : ∀ i t, w.tasks[i]? = some t → P i t) :
    ∀ i t, w'.tasks[i]? = some t → R i t := by
  cases h.move with
  | call op =>
      refine forall_getElem?_concat (hcall op) fun i t hi => ?_
      exact hkeep i t hi (by simp) (by simp) (hw i t hi)
  | exit b =>
      refine forall_getElem?_concat (hexit b) fun i t hi => ?_
      exact hkeep i t hi (by simp) (by simp) (hw i t hi)
  | closeRefused | closeBegins | assigns | python =>
      exact fun i t hi => hkeep i t hi (by simp) (by simp) (hw i t hi)
  | task i ans hi hm =>
      refine forall_getElem?_set (htask i ans _ _ rfl hi hm (hw i _ hi)) ?_
      intro j t hji hj
      exact hkeep j t hj (by simpa using Ne.symm hji) (by simp) (hw j t hj)
  | drop i hi hm =>
      refine forall_getElem?_set (hdrop i _ _ rfl hi hm (hw i _ hi)) ?_
      intro j t hji hj
      exact hkeep j t hj (by simp) (by simpa using Ne.symm hji) (hw j t hj)

/-- What a step brings about when it takes a task to a point of its program, and
no step undoes, holds whenever a task is at such a point. -/
theorem holds_at_point {H : Half Op Loc Ret Ev Vars Knob} {Q : Answers Ev}
    {vars : Vars} {w : World Op Loc Ret Ev Vars Knob} {i : ℕ} {t : Task Op Loc Ret}
    {p : Task Op Loc Ret → Bool} {P : World Op Loc Ret Ev Vars Knob → Prop}
    (hcall : ∀ op, p (.call op .spawned) = false)
    (hexit : ∀ b, p (.exit b .spawned) = false)
    (htask : ∀ {u u' i ans t t'}, H.Step Q u (.task i ans) u' →
      TaskMove H i u.toShared t ans t' u'.toShared → p t' = true →
        p t = true ∨ P u')
    (hdrop : ∀ {i sh sh' t t'}, DropMove H i sh t t' sh' → p t' = false)
    (hmono : ∀ {u l u'}, H.Step Q u l u' → P u → P u')
    (h : Reachable (H.Step Q) (World.init vars) w) (hi : w.tasks[i]? = some t)
    (ht : p t = true) : P w := by
  refine h.invariant (I := fun u => ∀ (i : ℕ) (t : Task Op Loc Ret),
    u.tasks[i]? = some t → p t = true → P u)
    ?_ (fun i t hi => by simp [World.init] at hi) i t hi ht
  intro u l u' hstep hu
  refine hstep.forall_tasks ?_ ?_ ?_ ?_ ?_ hu
  · intro op hp
    rw [hcall] at hp
    cases hp
  · intro b hp
    rw [hexit] at hp
    cases hp
  · rintro i ans t t' rfl _ hm hbefore hp
    rcases htask hstep hm hp with hp | hP
    · exact hmono hstep (hbefore hp)
    · exact hP
  · intro i t t' _ _ hm _ hp
    rw [hdrop hm] at hp
    cases hp
  · exact fun i t _ _ _ hbefore hp => hmono hstep (hbefore hp)

/-- What a step does to one task: it moves, it is dropped, or the step is not
its own. -/
theorem Half.Step.task_cases {H : Half Op Loc Ret Ev Vars Knob} {Q : Answers Ev}
    {w w' : World Op Loc Ret Ev Vars Knob} {l : Action Op Ev Knob} {i : ℕ}
    {t : Task Op Loc Ret} (h : H.Step Q w l w') (hi : w.tasks[i]? = some t) :
    (∃ ans t', l = .task i ans ∧ w'.tasks[i]? = some t' ∧
      TaskMove H i w.toShared t ans t' w'.toShared) ∨
    (∃ t', l = .drop i ∧ w'.tasks[i]? = some t' ∧
      DropMove H i w.toShared t t' w'.toShared) ∨
    ((∀ ans, l ≠ .task i ans) ∧ l ≠ .drop i ∧ w'.tasks[i]? = some t) := by
  cases h.move with
  | call | exit =>
      exact Or.inr (Or.inr ⟨by simp, by simp, getElem?_concat_of_eq_some hi⟩)
  | closeRefused | closeBegins | assigns | python =>
      exact Or.inr (Or.inr ⟨by simp, by simp, hi⟩)
  | task j ans hj hm =>
      by_cases hji : j = i
      · subst hji
        obtain rfl := Option.some.inj (hi.symm.trans hj)
        exact Or.inl ⟨ans, _, rfl, getElem?_set_of_eq_some hi, hm⟩
      · exact Or.inr (Or.inr ⟨by simpa using hji, by simp, getElem?_set_of_ne hji hi⟩)
  | drop j hj hm =>
      by_cases hji : j = i
      · subst hji
        obtain rfl := Option.some.inj (hi.symm.trans hj)
        exact Or.inr (Or.inl ⟨_, rfl, getElem?_set_of_eq_some hi, hm⟩)
      · exact Or.inr (Or.inr ⟨by simp, by simpa using hji, getElem?_set_of_ne hji hi⟩)

end WebTransport.Wrapper
