import Mathlib.Logic.Relation
import WebTransport.Support.FifoLock

/-!
# Waiting for a lock and for events

A party waits for the owner of a lock when it stands in the line, and it may
wait for an event that another party has to bring about.  If only the owner of
the lock waits for events, the two kinds of waiting make a cycle exactly when
the owner waits for somebody in the line.
-/

namespace WebTransport.Support

variable {α : Type*}

/-- Nobody waits for itself, directly or through others. -/
def Acyclic (r : α → α → Prop) : Prop :=
  ∀ a, ¬ Relation.TransGen r a a

/-- `a` waits for `b`: it stands in the line and `b` owns the lock, or `b` has
to bring about an event that `a` waits for. -/
inductive WaitsFor (m : FifoLock α) (event : α → α → Prop) : α → α → Prop
  | lock {a b : α} (ha : a ∈ m.line) (hb : m.holder = some b) (hne : a ≠ b) :
      WaitsFor m event a b
  | event {a b : α} (h : event a b) : WaitsFor m event a b

section Acyclic

variable {r : α → α → Prop} {a b : α}

/-- A relation along which a rank decreases has no cycle. -/
theorem acyclic_of_rank (rank : α → ℕ) (h : ∀ a b, r a b → rank b < rank a) :
    Acyclic r := by
  have hdecreases : ∀ {a b}, Relation.TransGen r a b → rank b < rank a := by
    intro a b hab
    induction hab with
    | single hab => exact h _ _ hab
    | tail _ hbc ih => exact Nat.lt_trans (h _ _ hbc) ih
  intro a ha
  exact Nat.lt_irrefl _ (hdecreases ha)

theorem not_acyclic_of_two (hab : r a b) (hba : r b a) : ¬ Acyclic r :=
  fun h => h a (.tail (.single hab) hba)

end Acyclic

section WaitsFor

variable {m : FifoLock α} {event : α → α → Prop}

/-- Who owns the lock stands before the others in the line, and those who are
not in the line come last. -/
noncomputable def lineRank (m : FifoLock α) (a : α) : ℕ :=
  open Classical in if m.holder = some a then 1 else if a ∈ m.line then 2 else 0

theorem lineRank_holder {a : α} (h : m.holder = some a) : lineRank m a = 1 := by
  simp [lineRank, h]

theorem lineRank_waiter {a b : α} (ha : a ∈ m.line) (hb : m.holder = some b)
    (hne : a ≠ b) : lineRank m a = 2 := by
  simp [lineRank, ha, hb, Ne.symm hne]

theorem lineRank_outside {a : α} (ha : a ∉ m.line) : lineRank m a = 0 := by
  have hnot : m.holder ≠ some a := fun h => ha (FifoLock.mem_line_of_holder h)
  simp [lineRank, ha, hnot]

/-- If only the owner waits for events, there is a cycle exactly when it waits
for somebody in the line. -/
theorem acyclic_waitsFor_iff (howner : ∀ a b, event a b → m.holder = some a)
    (hne : ∀ a b, event a b → a ≠ b) :
    Acyclic (WaitsFor m event) ↔ ∀ a b, event a b → b ∉ m.line := by
  constructor
  · intro hacyclic a b hab hb
    have hback : WaitsFor m event b a :=
      .lock hb (howner a b hab) (Ne.symm (hne a b hab))
    exact not_acyclic_of_two (.event hab) hback hacyclic
  · intro hout
    refine acyclic_of_rank (lineRank m) fun a b hab => ?_
    cases hab with
    | lock ha hb hne =>
        rw [lineRank_waiter ha hb hne, lineRank_holder hb]
        omega
    | event h =>
        rw [lineRank_holder (howner a b h), lineRank_outside (hout a b h)]
        omega

end WaitsFor

end WebTransport.Support
