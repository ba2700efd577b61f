import WebTransport.Support.Indexed
import WebTransport.Wrapper.Machine

/-!
# Tasks that await one call

Where nothing is locked and no token is raced, a task polls one future of a QUIC
object until it is ready and hands over what comes of it.  An operation may return
before that, or make a call before the one that it awaits.  What the operations of
an object are is collected in a `OneCall`.
-/

namespace WebTransport.Wrapper

open Support

/-- How the task of an operation begins: it returns, it makes a call before the one
that it awaits, or it awaits. -/
inductive First (Ev Val : Type)
  | returns (v : Val)
  | calls (e : Ev)
  | awaits

/-- What the operations of an object do. -/
structure OneCall (Op Ev Err Val : Type) where
  first : Op → First Ev Val
  /-- The call that an operation awaits, and what it makes of the answer. -/
  awaits : Op → Ev → Option (Poll (Except Err Val))
  awaits_of_returns : ∀ {op v} (e : Ev), first op = .returns v → awaits op e = none

namespace OneCall

variable {Op Ev Err Val : Type}

/-- Where a task is.  `between` is the point between two calls. -/
inductive Pc (Err Val : Type)
  | spawned
  | between
  | suspended
  | done (r : Except Err Val)
  | dropped
  deriving DecidableEq

/-- The point after a poll of the future that the operation awaits. -/
def Pc.after : Poll (Except Err Val) → Pc Err Val
  | .pending => .suspended
  | .ready r => .done r

def Pc.pending : Pc Err Val → Bool
  | .done _ | .dropped => false
  | _ => true

/-- What a finished operation has raised. -/
def Pc.raised : Pc Err Val → Option Err
  | .done (.error e) => some e
  | _ => none

/-- How many steps a task has left if no poll keeps it waiting. -/
def Pc.left : Pc Err Val → ℕ
  | .spawned => 2
  | .between | .suspended => 1
  | .done _ | .dropped => 0

structure Task (Op Err Val : Type) where
  op : Op
  pc : Pc Err Val

def ops (tasks : List (Task Op Err Val)) : List Op :=
  tasks.map Task.op

/-- One step of a task. -/
def taskStep [DecidableEq Ev] (M : OneCall Op Ev Err Val) (op : Op) (pc : Pc Err Val)
    (ans : Option Ev) : Option (Pc Err Val) :=
  match pc, ans with
  | .spawned, ans =>
      match M.first op, ans with
      | .returns v, none => some (.done (.ok v))
      | .calls e, some e' => if e' = e then some .between else none
      | .awaits, some e => (M.awaits op e).map Pc.after
      | _, _ => none
  | .between, some e | .suspended, some e => (M.awaits op e).map Pc.after
  | _, _ => none

/-- The moves of a task. -/
inductive TaskMove (M : OneCall Op Ev Err Val) (op : Op) :
    Pc Err Val → Option Ev → Pc Err Val → Prop
  | returns (v : Val) (hop : M.first op = .returns v) :
      TaskMove M op .spawned none (.done (.ok v))
  | calls (e : Ev) (hop : M.first op = .calls e) :
      TaskMove M op .spawned (some e) .between
  | polls (pc : Pc Err Val) (e : Ev) (r : Poll (Except Err Val))
      (hpc : pc.pending = true) (hfirst : pc = .spawned → M.first op = .awaits)
      (hr : M.awaits op e = some r) : TaskMove M op pc (some e) (Pc.after r)

/-- Every call can be answered, as far as `P` says which answers the object gives. -/
structure Answering (M : OneCall Op Ev Err Val) (P : Ev → Prop) : Prop where
  answers : ∀ op, (∀ v, M.first op ≠ .returns v) →
    ∃ e r, M.awaits op e = some (.ready r) ∧ P e
  calls : ∀ {op e}, M.first op = .calls e → P e

/-- An operation that returns in its first poll never waits. -/
def Settled (M : OneCall Op Ev Err Val) (t : Task Op Err Val) : Prop :=
  ∀ v, M.first t.op = .returns v → t.pc = .spawned ∨ t.pc.pending = false

/-- Task `i` is one of `op`, and was not dropped. -/
def Undropped (op : Op) (i : ℕ) (tasks : List (Task Op Err Val)) : Prop :=
  ∃ pc, tasks[i]? = some ⟨op, pc⟩ ∧ pc ≠ .dropped

section Moves

variable {M : OneCall Op Ev Err Val} {P : Ev → Prop} {op : Op} {pc pc' : Pc Err Val}
  {ans : Option Ev} {t : Task Op Err Val} {tasks : List (Task Op Err Val)} {i j : ℕ}

theorem taskMove_of_awaits {e : Ev} (h : (M.awaits op e).map Pc.after = some pc')
    (hpc : pc.pending = true) (hfirst : pc = .spawned → M.first op = .awaits) :
    M.TaskMove op pc (some e) pc' := by
  obtain ⟨r, hr, rfl⟩ := Option.map_eq_some_iff.mp h
  exact .polls pc e r hpc hfirst hr

theorem taskMove_of_taskStep [DecidableEq Ev] (h : M.taskStep op pc ans = some pc') :
    M.TaskMove op pc ans pc' := by
  unfold taskStep at h
  split at h
  · split at h
    · rename_i v hop
      cases h
      exact .returns v hop
    · rename_i e e' hop
      split at h
      · rename_i he
        subst he
        cases h
        exact .calls _ hop
      · cases h
    · rename_i e hop
      exact taskMove_of_awaits h rfl fun _ => hop
    · cases h
  · exact taskMove_of_awaits h rfl nofun
  · exact taskMove_of_awaits h rfl nofun
  · cases h

theorem TaskMove.pending (h : M.TaskMove op pc ans pc') : pc.pending = true := by
  cases h with
  | returns | calls => rfl
  | polls pc e r hpc => exact hpc

theorem TaskMove.ne_dropped (h : M.TaskMove op pc ans pc') : pc' ≠ .dropped := by
  cases h with
  | returns | calls => simp
  | polls pc e r => cases r <;> simp [Pc.after]

theorem TaskMove.left_lt (h : M.TaskMove op pc ans pc')
    (hnow : ∀ e ∈ ans, M.awaits op e ≠ some .pending) : pc'.left < pc.left := by
  cases h with
  | returns | calls => simp [Pc.left]
  | polls pc e r hpc hfirst hr =>
      cases r with
      | pending => exact absurd hr (hnow e rfl)
      | ready r =>
          cases pc with
          | done | dropped => cases hpc
          | _ => simp [Pc.after, Pc.left]

theorem TaskMove.settled (h : M.TaskMove op pc ans pc') : M.Settled ⟨op, pc'⟩ := by
  intro v hop
  cases h with
  | returns => exact Or.inr rfl
  | calls e hcalls => exact absurd (hop.symm.trans hcalls) nofun
  | polls pc e r hpc hfirst hr =>
      rw [M.awaits_of_returns e hop] at hr
      cases hr

theorem Answering.exists_taskStep [DecidableEq Ev] (hP : M.Answering P)
    (hpending : t.pc.pending = true) (ht : M.Settled t) :
    ∃ ans pc, M.taskStep t.op t.pc ans = some pc ∧ ∀ e ∈ ans, P e := by
  obtain ⟨op, pc⟩ := t
  by_cases hreturns : ∃ v, M.first op = .returns v
  · obtain ⟨v, hop⟩ := hreturns
    obtain rfl : pc = .spawned := (ht v hop).resolve_right (by simp [hpending])
    exact ⟨none, .done (.ok v), by simp [taskStep, hop], by simp⟩
  · push Not at hreturns
    obtain ⟨e, r, hr, he⟩ := hP.answers op hreturns
    have hanswer : ∀ e' ∈ some e, P e' := by
      rintro _ ⟨⟩
      exact he
    cases pc with
    | spawned =>
        cases hop : M.first op with
        | returns v => exact absurd hop (hreturns v)
        | calls e' =>
            refine ⟨some e', .between, by simp [taskStep, hop], ?_⟩
            rintro _ ⟨⟩
            exact hP.calls hop
        | awaits => exact ⟨some e, .done r, by simp [taskStep, hop, hr, Pc.after], hanswer⟩
    | between | suspended =>
        exact ⟨some e, .done r, by simp [taskStep, hr, Pc.after], hanswer⟩
    | done | dropped => cases hpending

theorem ops_set (hi : tasks[i]? = some t) :
    ops (tasks.set i { t with pc := pc }) = ops tasks :=
  map_set_of_eq hi rfl

theorem Undropped.set (h : Undropped op i tasks) (hj : tasks[j]? = some t)
    (hpc : pc ≠ .dropped) : Undropped op i (tasks.set j { t with pc := pc }) := by
  obtain ⟨old, hi, hne⟩ := h
  by_cases hji : j = i
  · subst hji
    obtain rfl := Option.some.inj (hj.symm.trans hi)
    exact ⟨pc, getElem?_set_of_eq_some hj, hpc⟩
  · exact ⟨old, getElem?_set_of_ne hji hi, hne⟩

theorem undropped_of_pending (hi : tasks[i]? = some t) (ht : t.pc.pending = true) :
    Undropped t.op i tasks := by
  refine ⟨t.pc, hi, fun hpc => ?_⟩
  rw [hpc] at ht
  cases ht

/-- Where nothing is pending, a task that was not dropped has come to its end. -/
theorem Undropped.completed (h : Undropped op i tasks)
    (hrest : ∀ t ∈ tasks, t.pc.pending = false) :
    ∃ r, tasks[i]? = some ⟨op, .done r⟩ := by
  obtain ⟨pc, hi, hne⟩ := h
  have hquiet := hrest _ (List.mem_of_getElem? hi)
  cases pc with
  | done r => exact ⟨r, hi⟩
  | dropped => exact absurd rfl hne
  | _ => cases hquiet

end Moves

end OneCall

end WebTransport.Wrapper
