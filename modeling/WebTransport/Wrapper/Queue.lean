import WebTransport.Wrapper.Exclusion
import WebTransport.Wrapper.Token

/-!
# The order of the requests

The tasks that have had the guard for their own work, followed by those that
still wait for it, stand in the order in which they first asked for the mutex:
a step either leaves this list alone or adds one task at its end.
-/

namespace WebTransport.Wrapper

open Support

variable {Op Loc Ret Ev Vars Knob : Type}

def Owner.task? : Owner → Option ℕ
  | .task i => some i
  | .python => none

/-- The tasks that have asked for the mutex, in the order of their requests. -/
def requests (line : List Owner) (entered : List ℕ) : List ℕ :=
  entered ++ (line.filterMap Owner.task?).filter fun i => !decide (i ∈ entered)

def Shared.queue (sh : Shared Ev Vars) : List ℕ :=
  requests sh.lock.line sh.entered

/-- The task is about to ask for the mutex. -/
def Task.asks : Task Op Loc Ret → Bool
  | .call _ .checked => true
  | .exit _ .ready => true
  | _ => false

section Requests

variable {line : List Owner} {entered : List ℕ} {i j : ℕ}

@[simp] theorem Owner.task?_task : (Owner.task i).task? = some i := rfl

@[simp] theorem Owner.task?_python : Owner.python.task? = none := rfl

theorem Owner.task?_eq_some {o : Owner} : o.task? = some i ↔ o = .task i := by
  cases o <;> simp [Owner.task?]

theorem mem_requests : i ∈ requests line entered ↔ i ∈ entered ∨ .task i ∈ line := by
  have hline : i ∈ line.filterMap Owner.task? ↔ .task i ∈ line := by
    simp [List.mem_filterMap, Owner.task?_eq_some]
  by_cases hi : i ∈ entered <;> simp [requests, hline, hi]

theorem requests_concat (hi : i ∉ entered) :
    requests (line ++ [.task i]) entered = requests line entered ++ [i] := by
  simp [requests, List.filterMap_append, hi]

theorem requests_enter (hnot : .task i ∉ line) (hi : i ∉ entered) :
    requests (.task i :: line) (entered ++ [i]) =
      requests (.task i :: line) entered := by
  have hfilter : (line.filterMap Owner.task?).filter
        (fun j => !decide (j ∈ entered ++ [i])) =
      (line.filterMap Owner.task?).filter fun j => !decide (j ∈ entered) := by
    refine List.filter_congr fun j hj => ?_
    have hji : j ≠ i := by
      rintro rfl
      exact hnot (by simpa [List.mem_filterMap, Owner.task?_eq_some] using hj)
    simp [hji]
  simp only [requests, List.filterMap_cons, Owner.task?_task, List.filter_cons,
    hfilter]
  simp [hi]

theorem requests_erase_task (hi : i ∈ entered) :
    requests (line.erase (.task i)) entered = requests line entered := by
  have hline : ((line.erase (.task i)).filterMap Owner.task?).filter
        (fun j => !decide (j ∈ entered)) =
      (line.filterMap Owner.task?).filter fun j => !decide (j ∈ entered) := by
    induction line with
    | nil => rfl
    | cons o rest ih =>
        by_cases ho : o = .task i
        · subst ho
          simp [hi]
        · rw [List.erase_cons_tail (by simpa using ho)]
          cases o with
          | python => simpa [List.filterMap_cons] using ih
          | task j =>
              simp only [List.filterMap_cons, Owner.task?_task, List.filter_cons, ih]
  rw [requests, requests, hline]

theorem requests_erase_python :
    requests (line.erase .python) entered = requests line entered := by
  have hline : (line.erase .python).filterMap Owner.task? =
      line.filterMap Owner.task? := by
    induction line with
    | nil => rfl
    | cons o rest ih =>
        cases o with
        | python => simp [List.filterMap_cons]
        | task j => simp [ih]
  rw [requests, requests, hline]

end Requests

section Shared

variable {sh : Shared Ev Vars} {i : ℕ}

theorem mem_queue : i ∈ sh.queue ↔ i ∈ sh.entered ∨ .task i ∈ sh.lock.line :=
  mem_requests

theorem queue_request (hi : i ∉ sh.entered) :
    (sh.request (.task i)).queue = sh.queue ∨
      (i ∉ sh.queue ∧ (sh.request (.task i)).queue = sh.queue ++ [i]) := by
  by_cases hline : .task i ∈ sh.lock.line
  · left
    rw [Shared.queue, Shared.request, FifoLock.line_request_of_mem hline]
    rfl
  · right
    refine ⟨fun hmem => (mem_queue.mp hmem).elim hi hline, ?_⟩
    rw [Shared.queue, Shared.request, FifoLock.line_request_of_not_mem hline]
    exact requests_concat hi

theorem queue_enter (ho : sh.Owns (.task i)) (hi : i ∉ sh.entered) :
    (sh.enter i).queue = sh.queue := by
  obtain ⟨rest, hline⟩ : ∃ rest, sh.lock.line = .task i :: rest :=
    List.head?_eq_some_iff.mp ho
  have hnot : .task i ∉ rest := by
    have hnodup := sh.lock.nodup
    rw [hline] at hnodup
    exact (List.nodup_cons.mp hnodup).1
  rw [Shared.queue, Shared.queue, hline]
  exact (congrArg (requests · _) hline).trans (requests_enter hnot hi)

theorem queue_leave (hi : i ∈ sh.entered) :
    (sh.leave (.task i)).queue = sh.queue :=
  requests_erase_task hi

theorem queue_leave_python : (sh.leave .python).queue = sh.queue :=
  requests_erase_python

end Shared

section Moves

variable {H : Half Op Loc Ret Ev Vars Knob} {i : ℕ} {sh sh' : Shared Ev Vars}
  {t t' : Task Op Loc Ret} {py py' : Python Knob} {ans : Option Ev}

/-- Outside its cancel branch a task leaves the order of the requests alone, or
makes its own. -/
theorem TaskMove.queue_cases (h : TaskMove H i sh t ans t' sh')
    (hbefore : t.beforeBody = true → i ∉ sh.entered)
    (hin : t.inBody = true → i ∈ sh.entered)
    (ht : t.inCancelBranch = false) :
    sh'.queue = sh.queue ∨
      (t.asks = true ∧ i ∉ sh.queue ∧ sh'.queue = sh.queue ++ [i]) := by
  cases h with
  | call op h =>
      cases h with
      | enters ho =>
          have hentered := hbefore rfl
          rw [queue_enter ho hentered]
          exact (queue_request hentered).imp_right fun hnew => ⟨rfl, hnew⟩
      | queues ho =>
          exact (queue_request (hbefore rfl)).imp_right fun hnew => ⟨rfl, hnew⟩
      | returns r => exact Or.inl (queue_leave (hin rfl))
      | letsGo | closeLocks | closeQueues | closeReturns => cases ht
      | _ => exact Or.inl rfl
  | exit b h =>
      cases h with
      | enters _ ho =>
          have hentered := hbefore rfl
          rw [queue_enter ho hentered]
          exact (queue_request hentered).imp_right fun hnew => ⟨rfl, hnew⟩
      | queues _ ho =>
          exact (queue_request (hbefore rfl)).imp_right fun hnew => ⟨rfl, hnew⟩
      | wakes _ ho => exact Or.inl (queue_enter ho (hbefore rfl))
      | returns => exact Or.inl (queue_leave (hin rfl))
      | _ => exact Or.inl rfl

theorem PythonMove.queue_eq (h : PythonMove H sh py ans py' sh') :
    sh'.queue = sh.queue := by
  cases h with
  | locks c lock hl | assignLocks k lock hl =>
      obtain ⟨hnil, hself⟩ := FifoLock.tryLock_eq_some hl
      simp [Shared.queue, requests, hnil, hself]
  | returns | assignReturns => exact queue_leave_python
  | _ => rfl

end Moves

end WebTransport.Wrapper
