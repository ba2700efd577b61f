import WebTransport.Wrapper.Moves

/-!
# Who has seen the token set

The token is set once and for all.  A task in its cancel branch has found it
set, and a close call that has come to its `try_lock` has set it.
-/

namespace WebTransport.Wrapper

open Support

variable {Op Loc Ret Ev Vars Knob : Type}

def Task.inCancelBranch : Task Op Loc Ret → Bool
  | .call _ pc =>
      match pc with
      | .interrupted _ | .closing | .closeWaiting | .closeHeld | .closeLoaded _
      | .closeSent => true
      | _ => false
  | .exit _ _ => false

section Tasks

variable {H : Half Op Loc Ret Ev Vars Knob} {Q : Answers Ev} {i : ℕ}
  {sh sh' : Shared Ev Vars} {t t' : Task Op Loc Ret} {ans : Option Ev}
  {w w' : World Op Loc Ret Ev Vars Knob} {l : Action Op Ev Knob}

theorem TaskMove.inCancelBranch (h : TaskMove H i sh t ans t' sh')
    (ht : t'.inCancelBranch = true) :
    t.inCancelBranch = true ∨ sh.cancelled = true := by
  cases h with
  | call op h =>
      cases h with
      | spawnedSet hc => exact Or.inr hc
      | waitingSet hc => exact Or.inr hc
      | suspendedSet l hc => exact Or.inr hc
      | works l ans vars beat => cases beat <;> cases ht
      | letsGo | closeLocks | closeQueues | closeWakes | closeLoads
      | closeSends => exact Or.inl rfl
      | _ => cases ht
  | exit b h => cases ht

theorem DropMove.inCancelBranch (h : DropMove H i sh t t' sh') :
    t'.inCancelBranch = false := by
  cases h <;> rfl

theorem cancelled_of_inCancelBranch {vars : Vars}
    (h : Reachable (H.Step Q) (World.init vars) w) (hi : w.tasks[i]? = some t)
    (ht : t.inCancelBranch = true) : w.cancelled = true := by
  refine holds_at_point (p := Task.inCancelBranch) (P := fun w => w.cancelled = true)
    (fun _ => rfl) (fun _ => rfl) ?_ (fun hm => hm.inCancelBranch)
    (fun hstep => hstep.cancelled) h hi ht
  intro u u' i ans t t' hstep hm ht'
  exact (hm.inCancelBranch ht').imp_right hstep.cancelled

end Tasks

/-- The Python thread is within a close call that has been accepted. -/
def Python.inClose : Python Knob → Bool
  | .tested _ | .stored _ | .cancelled _ | .locked _ | .sent _ => true
  | _ => false

def Python.pastCancel : Python Knob → Bool
  | .cancelled _ | .locked _ | .sent _ => true
  | _ => false

section Python

variable {H : Half Op Loc Ret Ev Vars Knob} {Q : Answers Ev}
  {sh sh' : Shared Ev Vars} {py py' : Python Knob} {ans : Option Ev}
  {w : World Op Loc Ret Ev Vars Knob}

theorem PythonMove.pastCancel (h : PythonMove H sh py ans py' sh')
    (hpy : py'.pastCancel = true) :
    py.pastCancel = true ∨ sh'.cancelled = true := by
  cases h with
  | cancels c => exact Or.inr rfl
  | locks c => exact Or.inl rfl
  | sends c => exact Or.inl rfl
  | _ => cases hpy

theorem PythonMove.inClose (h : PythonMove H sh py ans py' sh')
    (hpy : py.inClose = false) :
    py'.inClose = false ∧ sh'.cancelled = sh.cancelled := by
  cases h <;> first | exact ⟨rfl, rfl⟩ | cases hpy

theorem cancelled_of_pastCancel {vars : Vars}
    (h : Reachable (H.Step Q) (World.init vars) w)
    (hpy : w.python.pastCancel = true) : w.cancelled = true := by
  refine h.invariant
    (I := fun w => w.python.pastCancel = true → w.cancelled = true)
    ?_ (fun h => by cases h) hpy
  intro w l w' hstep hw
  have hkeep : w.cancelled = true → w'.cancelled = true := hstep.cancelled
  cases hstep.move with
  | closeBegins => exact fun h => by cases h
  | assigns => exact fun h => by cases h
  | python ans hm =>
      intro hpy
      rcases hm.pastCancel hpy with hbefore | hset
      · exact hkeep (hw hbefore)
      · exact hset
  | _ => exact fun hpy => hkeep (hw hpy)

end Python

end WebTransport.Wrapper
