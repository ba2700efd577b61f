import WebTransport.Support.Indexed
import WebTransport.Wrapper.Moves

/-!
# What an operation can return

An operation returns what its body has built, or the exception for a local
close.  So whatever a body keeps true of its places and its result, from the
answers of the QUIC stream, is true of every result that reaches Python.
-/

namespace WebTransport.Wrapper

open Support

variable {Op Loc Ret Ev Vars Knob : Type}

/-- After a step a body is at a place with `P`, or has a result with `R`. -/
def Beat.Meets (P : Loc → Prop) (R : Ret → Prop) : Beat Loc Ret → Prop
  | .more l | .pend l => P l
  | .ready r => R r

/-- Facts `P` about the places and `R` about the results of an operation, which
may refer to the calls that have been made, are kept by its body. -/
structure Half.Keeps (H : Half Op Loc Ret Ev Vars Knob) (Q : Answers Ev)
    (P : List Ev → Op → Loc → Prop) (R : List Ev → Op → Ret → Prop) : Prop where
  enter : ∀ log op, P log op (H.enter op)
  body : ∀ {log op l v ans v' beat}, H.body op l v ans = some (v', beat) →
    (∀ e ∈ ans, Q log e) → P log op l →
      beat.Meets (P (log ++ ans.toList) op) (R (log ++ ans.toList) op)
  closedLocally : ∀ log op, R log op H.closedLocally
  place_mono : ∀ {log log' op l}, log <+: log' → P log op l → P log' op l
  result_mono : ∀ {log log' op r}, log <+: log' → R log op r → R log' op r

/-- The task is at a place with `P`, or has a result with `R`. -/
def Task.Meets (P : Op → Loc → Prop) (R : Op → Ret → Prop) :
    Task Op Loc Ret → Prop
  | .call op pc =>
      match pc with
      | .running l | .suspended l => P op l
      | .built r | .done r => R op r
      | _ => True
  | .exit _ _ => True

section Recorded

variable {H : Half Op Loc Ret Ev Vars Knob} {Q : Answers Ev} {i : ℕ}
  {sh sh' : Shared Ev Vars} {t t' : Task Op Loc Ret} {py py' : Python Knob}
  {ans : Option Ev} {w w' : World Op Loc Ret Ev Vars Knob}
  {l : Action Op Ev Knob} {e : Ev}

theorem TaskMove.answer_mem (h : TaskMove H i sh t ans t' sh') (he : e ∈ ans) :
    e ∈ sh'.log := by
  cases h with
  | call op h =>
      cases h with
      | works l ans vars beat hb => simp_all [Shared.record]
      | closeSends code e => simp_all [Shared.record]
      | _ => cases he
  | exit b h =>
      cases h with
      | sendsClose e | sendsFinish e => simp_all [Shared.record]
      | _ => cases he

theorem PythonMove.answer_mem (h : PythonMove H sh py ans py' sh') (he : e ∈ ans) :
    e ∈ sh'.log := by
  cases h with
  | sends code e | applies k e => simp_all [Shared.record]
  | _ => cases he

theorem Half.Step.answer_mem (h : H.Step Q w l w') (he : e ∈ l.answer) :
    e ∈ w'.log := by
  cases h.move with
  | python ans hm => exact hm.answer_mem he
  | task i ans hi hm => exact hm.answer_mem he
  | _ => cases he

end Recorded

/-! ## What the bodies keep -/

section Results

variable {H : Half Op Loc Ret Ev Vars Knob} {Q : Answers Ev}
  {P : List Ev → Op → Loc → Prop} {R : List Ev → Op → Ret → Prop} {i : ℕ}
  {sh sh' : Shared Ev Vars} {t t' : Task Op Loc Ret} {ans : Option Ev}
  {w : World Op Loc Ret Ev Vars Knob} {op : Op} {r : Ret}

theorem Half.Keeps.mono (h : H.Keeps Q P R) (hlog : sh.log <+: sh'.log)
    (ht : t.Meets (P sh.log) (R sh.log)) : t.Meets (P sh'.log) (R sh'.log) := by
  cases t with
  | exit b pc => trivial
  | call op pc =>
      cases pc with
      | running l | suspended l => exact h.place_mono hlog ht
      | built r | done r => exact h.result_mono hlog ht
      | _ => trivial

theorem Half.Keeps.taskMove (h : H.Keeps Q P R) (hans : ∀ e ∈ ans, Q sh.log e)
    (hm : TaskMove H i sh t ans t' sh') (ht : t.Meets (P sh.log) (R sh.log)) :
    t'.Meets (P sh'.log) (R sh'.log) := by
  cases hm with
  | exit b hm => trivial
  | call op hm =>
      cases hm with
      | enters ho => exact h.enter _ op
      | works l ans vars beat hb =>
          have hbeat := h.body hb hans ht
          cases beat <;> exact hbeat
      | suspendedUnset l hc => exact ht
      | returns r => exact ht
      | closeReturns => exact h.closedLocally _ op
      | _ => trivial

theorem DropMove.meets (hm : DropMove H i sh t t' sh') :
    t'.Meets (P sh'.log) (R sh'.log) := by
  cases hm <;> trivial

/-- The rule: what the bodies keep holds of every task in every run. -/
theorem Half.Keeps.meets {vars : Vars} (h : H.Keeps Q P R)
    (hw : Reachable (H.Step Q) (World.init vars) w) :
    ∀ (i : ℕ) (t : Task Op Loc Ret), w.tasks[i]? = some t →
      t.Meets (P w.log) (R w.log) := by
  refine hw.invariant (I := fun w => ∀ (i : ℕ) (t : Task Op Loc Ret),
    w.tasks[i]? = some t → t.Meets (P w.log) (R w.log))
    ?_ (fun i t hi => by simp [World.init] at hi)
  intro w l w' hstep hw
  refine hstep.forall_tasks (P := fun _ t => t.Meets (P w.log) (R w.log))
    (fun op => trivial) (fun b => trivial) ?_ ?_ ?_ hw
  · rintro i ans t t' rfl _ hm ht
    exact h.taskMove hstep.2 hm ht
  · exact fun i t t' _ _ hm _ => hm.meets
  · exact fun i t _ _ _ ht => h.mono hstep.log_isPrefix ht

theorem Half.Keeps.result {vars : Vars} (h : H.Keeps Q P R)
    (hw : Reachable (H.Step Q) (World.init vars) w)
    (hi : w.tasks[i]? = some (.call op (.done r))) : R w.log op r :=
  h.meets hw i _ hi

end Results

end WebTransport.Wrapper
