import WebTransport.Wrapper.Queue

/-!
# Who stands in the line

A task stands in the line for the mutex from its request until it drops the
guard, or the future that waits for it, and nobody else does.  So whoever is
first in the line is at a point from which it can go on.
-/

namespace WebTransport.Wrapper

open Support

variable {Op Loc Ret Ev Vars Knob : Type}

/-! ## Who joins the line -/

section Line

variable {H : Half Op Loc Ret Ev Vars Knob} {Q : Answers Ev} {i : ℕ}
  {sh sh' : Shared Ev Vars} {t t' : Task Op Loc Ret} {ans : Option Ev}
  {py py' : Python Knob} {o : Owner} {w w' : World Op Loc Ret Ev Vars Knob}
  {l : Action Op Ev Knob}

theorem TaskMove.mem_line (h : TaskMove H i sh t ans t' sh')
    (ho : o ∈ sh'.lock.line) :
    o ∈ sh.lock.line ∨ (o = .task i ∧ (t.asks = true ∨ t'.beforeBody = false)) := by
  cases h with
  | call op h =>
      cases h with
      | enters | queues =>
          exact (FifoLock.mem_request.mp ho).imp_right fun h => ⟨h, Or.inl rfl⟩
      | closeLocks | closeQueues =>
          exact (FifoLock.mem_request.mp ho).imp_right fun h => ⟨h, Or.inr rfl⟩
      | returns | letsGo | closeReturns => exact Or.inl (List.mem_of_mem_erase ho)
      | _ => exact Or.inl ho
  | exit b h =>
      cases h with
      | enters | queues =>
          exact (FifoLock.mem_request.mp ho).imp_right fun h => ⟨h, Or.inl rfl⟩
      | returns => exact Or.inl (List.mem_of_mem_erase ho)
      | _ => exact Or.inl ho

theorem DropMove.mem_line (h : DropMove H i sh t t' sh')
    (ho : o ∈ sh'.lock.line) : o ∈ sh.lock.line := by
  cases h with
  | callSpawned | exitSpawned => exact ho
  | _ => exact List.mem_of_mem_erase ho

theorem PythonMove.mem_line (h : PythonMove H sh py ans py' sh')
    (ho : .task i ∈ sh'.lock.line) : .task i ∈ sh.lock.line := by
  cases h with
  | locks c lock hl | assignLocks k lock hl =>
      have hline : .task i ∈ lock.line := ho
      rw [(FifoLock.tryLock_eq_some hl).2] at hline
      simp at hline
  | returns | assignReturns => exact List.mem_of_mem_erase ho
  | _ => exact ho

theorem TaskMove.beforeBody (h : TaskMove H i sh t ans t' sh')
    (ht : t'.beforeBody = true) : t.beforeBody = true := by
  rcases h.entered_cases with ⟨-, -, hbefore⟩ | ⟨-, -, hpast, -⟩
  · exact hbefore ht
  · rw [ht] at hpast
    cases hpast

theorem TaskMove.answer_of_asks (h : TaskMove H i sh t ans t' sh')
    (ht : t.asks = true) : ans = none := by
  cases h with
  | call op h => cases h <;> first | rfl | cases ht
  | exit b h => cases h <;> first | rfl | cases ht

/-- Everybody in the line is the Python thread or a task. -/
theorem lt_length_of_mem_line {vars : Vars}
    (h : Reachable (H.Step Q) (World.init vars) w)
    (hi : .task i ∈ w.lock.line) : i < w.tasks.length := by
  refine h.invariant
    (I := fun w => ∀ i, .task i ∈ w.lock.line → i < w.tasks.length)
    ?_ (fun i hi => by cases hi) i hi
  intro w l w' hstep hw j hj
  cases hstep.move with
  | call op =>
      have hlt := hw j hj
      simp only [List.length_append, List.length_singleton]
      omega
  | exit b =>
      have hlt := hw j hj
      simp only [List.length_append, List.length_singleton]
      omega
  | closeRefused | closeBegins | assigns => exact hw j hj
  | python ans hm => exact hw j (hm.mem_line hj)
  | task i ans hi hm =>
      rw [List.length_set]
      rcases hm.mem_line hj with hline | ⟨heq, -⟩
      · exact hw j hline
      · cases heq
        exact lt_length_of_getElem? hi
  | drop i hi hm =>
      rw [List.length_set]
      exact hw j (hm.mem_line hj)

end Line

/-! ## The line and the program points -/

/-- The task is at a point at which it can stand in the line. -/
def Task.lined : Task Op Loc Ret → Bool
  | .call _ pc =>
      match pc with
      | .spawned | .closing | .done _ | .dropped => false
      | _ => true
  | .exit _ pc =>
      match pc with
      | .waiting | .held | .sent => true
      | _ => false

/-- The task waits for the mutex and does nothing else: it does not look at the
token. -/
def Task.waits : Task Op Loc Ret → Bool
  | .call _ .closeWaiting => true
  | .exit _ .waiting => true
  | _ => false

/-- Who stands in the line is at a point that says so, and who waits stands in
it. -/
structure Lined (w : World Op Loc Ret Ev Vars Knob) : Prop where
  task : ∀ i t, w.tasks[i]? = some t → .task i ∈ w.lock.line → t.lined = true
  python : .python ∈ w.lock.line → w.python.holds = true
  waits : ∀ i t, w.tasks[i]? = some t → t.waits = true → .task i ∈ w.lock.line

section Lined

variable {H : Half Op Loc Ret Ev Vars Knob} {Q : Answers Ev} {i : ℕ}
  {sh sh' : Shared Ev Vars} {t t' : Task Op Loc Ret} {ans : Option Ev}
  {py py' : Python Knob} {o : Owner} {w w' : World Op Loc Ret Ev Vars Knob}
  {l : Action Op Ev Knob}

theorem TaskMove.lined (h : TaskMove H i sh t ans t' sh')
    (hbefore : .task i ∈ sh.lock.line → t.lined = true)
    (hin : .task i ∈ sh'.lock.line) : t'.lined = true := by
  cases h with
  | call op h =>
      cases h with
      | works l ans vars beat => cases beat <;> rfl
      | returns | letsGo | closeReturns =>
          exact absurd hin FifoLock.not_mem_leave_self
      | _ => rfl
  | exit b h =>
      cases h with
      | stores | skips | begins | cancels => cases hbefore hin
      | returns => exact absurd hin FifoLock.not_mem_leave_self
      | _ => rfl

theorem DropMove.lined (h : DropMove H i sh t t' sh')
    (hbefore : .task i ∈ sh.lock.line → t.lined = true) :
    .task i ∉ sh'.lock.line := by
  intro hin
  cases h with
  | callSpawned | exitSpawned => cases hbefore hin
  | _ => exact FifoLock.not_mem_leave_self hin

theorem TaskMove.waits (h : TaskMove H i sh t ans t' sh')
    (ht : t'.waits = true) : .task i ∈ sh'.lock.line := by
  cases h with
  | call op h =>
      cases h with
      | closeQueues => exact FifoLock.mem_request_self
      | works l ans vars beat => cases beat <;> cases ht
      | _ => cases ht
  | exit b h =>
      cases h with
      | queues => exact FifoLock.mem_request_self
      | _ => cases ht

theorem DropMove.not_waits (h : DropMove H i sh t t' sh') : t'.waits = false := by
  cases h <;> rfl

theorem TaskMove.mem_line_of_ne (h : TaskMove H i sh t ans t' sh')
    (ho : o ∈ sh.lock.line) (hne : o ≠ .task i) : o ∈ sh'.lock.line := by
  cases h with
  | call op h =>
      cases h with
      | enters | queues | closeLocks | closeQueues =>
          exact FifoLock.mem_request.mpr (Or.inl ho)
      | returns | letsGo | closeReturns => exact FifoLock.mem_leave_of_ne ho hne
      | _ => exact ho
  | exit b h =>
      cases h with
      | enters | queues => exact FifoLock.mem_request.mpr (Or.inl ho)
      | returns => exact FifoLock.mem_leave_of_ne ho hne
      | _ => exact ho

theorem DropMove.mem_line_of_ne (h : DropMove H i sh t t' sh')
    (ho : o ∈ sh.lock.line) (hne : o ≠ .task i) : o ∈ sh'.lock.line := by
  cases h with
  | callSpawned | exitSpawned => exact ho
  | _ => exact FifoLock.mem_leave_of_ne ho hne

theorem PythonMove.mem_line_of_ne (h : PythonMove H sh py ans py' sh')
    (ho : o ∈ sh.lock.line) (hne : o ≠ .python) : o ∈ sh'.lock.line := by
  cases h with
  | locks c lock hl | assignLocks k lock hl =>
      rw [(FifoLock.tryLock_eq_some hl).1] at ho
      cases ho
  | returns | assignReturns => exact FifoLock.mem_leave_of_ne ho hne
  | _ => exact ho

theorem PythonMove.lined (h : PythonMove H sh py ans py' sh')
    (hbefore : .python ∈ sh.lock.line → py.holds = true)
    (hin : .python ∈ sh'.lock.line) : py'.holds = true := by
  cases h with
  | locks | assignLocks | sends | applies | records => rfl
  | returns | assignReturns => exact absurd hin FifoLock.not_mem_leave_self
  | stores | cancels | defers | assignDefers => cases hbefore hin

theorem lined_init (vars : Vars) :
    Lined (World.init vars : World Op Loc Ret Ev Vars Knob) where
  task i t hi := by simp [World.init] at hi
  python h := by cases h
  waits i t hi := by simp [World.init] at hi

theorem lined_step (h : H.Step Q w l w')
    (hlt : ∀ i, .task i ∈ w.lock.line → i < w.tasks.length) (hw : Lined w) :
    Lined w' := by
  have hnew : .task w.tasks.length ∉ w.lock.line := fun hin =>
    absurd (hlt _ hin) (by omega)
  cases h.move with
  | call op =>
      exact ⟨forall_getElem?_concat (fun hin => absurd hin hnew) hw.task, hw.python,
        forall_getElem?_concat (fun ht => by cases ht) hw.waits⟩
  | exit b =>
      exact ⟨forall_getElem?_concat (fun hin => absurd hin hnew) hw.task, hw.python,
        forall_getElem?_concat (fun ht => by cases ht) hw.waits⟩
  | closeRefused => exact hw
  | closeBegins c hpy | assigns k hpy =>
      refine ⟨hw.task, fun hin => ?_, hw.waits⟩
      have hholds := hw.python hin
      rw [hpy] at hholds
      cases hholds
  | python ans hm =>
      exact ⟨fun i t hi hin => hw.task i t hi (hm.mem_line hin), hm.lined hw.python,
        fun i t hi ht => hm.mem_line_of_ne (hw.waits i t hi ht) (by simp)⟩
  | task i ans hi hm =>
      refine ⟨?_, fun hin => ?_, ?_⟩
      · refine forall_getElem?_set (hm.lined (hw.task i _ hi)) ?_
        intro j t hji hj hin
        rcases hm.mem_line hin with hstood | ⟨heq, -⟩
        · exact hw.task j t hj hstood
        · exact absurd (by simpa using heq) hji
      · rcases hm.mem_line hin with hstood | ⟨heq, -⟩
        · exact hw.python hstood
        · cases heq
      · refine forall_getElem?_set hm.waits ?_
        intro j t hji hj ht
        exact hm.mem_line_of_ne (hw.waits j t hj ht) (by simpa using hji)
  | drop i hi hm =>
      refine ⟨?_, fun hin => hw.python (hm.mem_line hin), ?_⟩
      · refine forall_getElem?_set
          (fun hin => absurd hin (hm.lined (hw.task i _ hi))) ?_
        exact fun j t hji hj hin => hw.task j t hj (hm.mem_line hin)
      · refine forall_getElem?_set (fun ht => ?_) ?_
        · rw [hm.not_waits] at ht
          cases ht
        · intro j t hji hj ht
          exact hm.mem_line_of_ne (hw.waits j t hj ht) (by simpa using hji)

theorem lined_of_reachable {vars : Vars}
    (h : Reachable (H.Step Q) (World.init vars) w) : Lined w := by
  have hboth : Reachable (H.Step Q) (World.init vars) w ∧ Lined w := by
    refine h.invariant
      (I := fun w => Reachable (H.Step Q) (World.init vars) w ∧ Lined w) ?_
      ⟨Reachable.refl, lined_init vars⟩
    rintro w l w' hstep ⟨hreach, hw⟩
    exact ⟨hreach.tail hstep,
      lined_step hstep (fun i hin => lt_length_of_mem_line hreach hin) hw⟩
  exact hboth.2

end Lined

end WebTransport.Wrapper
