import Mathlib.Data.List.Nodup

/-!
# A fair lock as a queue

A lock that is handed to its waiters in the order of their requests is a queue
without repetitions: the first entry owns the lock, the others wait for it.
Giving the lock up and walking away from the queue are the same operation on
this representation, so a hand-over is never a state of its own.
-/

namespace WebTransport.Support

/-- A first-in first-out lock.  No party stands in the line twice. -/
@[ext] structure FifoLock (α : Type*) where
  line : List α
  nodup : line.Nodup

namespace FifoLock

variable {α : Type*}

/-- The owner of the lock, if there is one. -/
def holder (m : FifoLock α) : Option α :=
  m.line.head?

def unlocked : FifoLock α where
  line := []
  nodup := List.nodup_nil

/-- Take the lock if nobody owns it, without waiting for it. -/
def tryLock (m : FifoLock α) (a : α) : Option (FifoLock α) :=
  match m.line with
  | [] => some ⟨[a], List.nodup_singleton a⟩
  | _ :: _ => none

variable {m m' : FifoLock α} {a b : α}

theorem mem_line_of_holder (h : m.holder = some a) : a ∈ m.line :=
  List.mem_of_mem_head? h

theorem tryLock_eq_some (h : m.tryLock a = some m') :
    m.line = [] ∧ m'.line = [a] := by
  unfold tryLock at h
  split at h
  · cases h
    exact ⟨by assumption, rfl⟩
  · cases h

theorem tryLock_eq_none : m.tryLock a = none ↔ m.line ≠ [] := by
  unfold tryLock
  split <;> simp_all

theorem holder_tryLock (h : m.tryLock a = some m') : m'.holder = some a := by
  simp [holder, (tryLock_eq_some h).2]

variable [DecidableEq α]

/-- Ask for the lock.  The request is queued unless it already is. -/
def request (m : FifoLock α) (a : α) : FifoLock α where
  line := if a ∈ m.line then m.line else m.line ++ [a]
  nodup := by
    split
    · exact m.nodup
    · rename_i ha
      exact List.nodup_append.mpr
        ⟨m.nodup, List.nodup_singleton a, by
          simpa using fun b hb (hba : b = a) => ha (hba ▸ hb)⟩

/-- Give the lock up, or leave the queue in front of it. -/
def leave (m : FifoLock α) (a : α) : FifoLock α where
  line := m.line.erase a
  nodup := m.nodup.erase a

theorem line_request_of_mem (h : a ∈ m.line) : (m.request a).line = m.line := by
  simp [request, h]

theorem line_request_of_not_mem (h : a ∉ m.line) :
    (m.request a).line = m.line ++ [a] := by
  simp [request, h]

@[simp] theorem line_leave : (m.leave a).line = m.line.erase a := rfl

theorem mem_request_self : a ∈ (m.request a).line := by
  by_cases h : a ∈ m.line
  · rwa [line_request_of_mem h]
  · simp [line_request_of_not_mem h]

theorem mem_request : b ∈ (m.request a).line ↔ b ∈ m.line ∨ b = a := by
  by_cases ha : a ∈ m.line
  · rw [line_request_of_mem ha]
    exact ⟨Or.inl, fun h => h.elim id fun hba => hba ▸ ha⟩
  · simp [line_request_of_not_mem ha]

theorem not_mem_leave_self : a ∉ (m.leave a).line := by
  rw [line_leave]
  exact m.nodup.not_mem_erase

theorem mem_leave_of_ne (h : b ∈ m.line) (hne : b ≠ a) : b ∈ (m.leave a).line := by
  rw [line_leave]
  exact (List.mem_erase_of_ne hne).mpr h

theorem holder_request (h : m.holder = some b) :
    (m.request a).holder = some b := by
  by_cases ha : a ∈ m.line
  · simpa [holder, line_request_of_mem ha] using h
  · have hne : m.line ≠ [] := by
      intro hnil
      simp [holder, hnil] at h
    rw [holder, line_request_of_not_mem ha, List.head?_append_of_ne_nil _ hne]
    exact h

theorem holder_leave (h : m.holder = some b) (hne : b ≠ a) :
    (m.leave a).holder = some b := by
  obtain ⟨rest, hline⟩ : ∃ rest, m.line = b :: rest := by
    cases hl : m.line with
    | nil => simp [holder, hl] at h
    | cons c rest => exact ⟨rest, by simpa [holder, hl] using h⟩
  simp [holder, hline, hne]

end FifoLock

end WebTransport.Support
