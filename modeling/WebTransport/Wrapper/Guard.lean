import WebTransport.Wrapper.Draining

/-!
# Work under the guard

Nobody touches the QUIC stream without the guard of the mutex: a step that makes
a call on the stream, or that drops a future which has made one, belongs to the
one party that has the guard.  And the guard is never left behind: where nothing
is pending the mutex is free.
-/

namespace WebTransport.Wrapper

open Support

variable {Op Loc Ret Ev Vars Knob : Type}

def Action.owner : Action Op Ev Knob → Option Owner
  | .python _ => some .python
  | .task i _ | .drop i => some (.task i)
  | _ => none

/-- The party is at a point at which it has the guard. -/
def World.HasGuard (w : World Op Loc Ret Ev Vars Knob) : Owner → Prop
  | .python => w.python.holds = true
  | .task i => ∃ t ∈ w.tasks[i]?, t.holds = true

/-- In every state that can be reached, at most one party has the guard, a step
that adds a call on the QUIC stream is made by the party that has it, and a
wrapper on which nothing is pending has a free mutex. -/
structure Half.KeepsGuard (H : Half Op Loc Ret Ev Vars Knob) (Q : Answers Ev)
    (vars : Vars) : Prop where
  alone : ∀ {w : World Op Loc Ret Ev Vars Knob} {o o' : Owner},
    Reachable (H.Step Q) (World.init vars) w →
    w.HasGuard o → w.HasGuard o' → o = o'
  calls : ∀ {w w' : World Op Loc Ret Ev Vars Knob} {l : Action Op Ev Knob},
    Reachable (H.Step Q) (World.init vars) w → H.Step Q w l w' →
    w'.log ≠ w.log → ∃ o, l.owner = some o ∧ w.HasGuard o
  free : ∀ {w : World Op Loc Ret Ev Vars Knob},
    Reachable (H.Step Q) (World.init vars) w → w.Quiet → w.python = .idle →
    w.lock.line = []

section Guard

variable {H : Half Op Loc Ret Ev Vars Knob} {Q : Answers Ev} {o : Owner}
  {w w' : World Op Loc Ret Ev Vars Knob} {l : Action Op Ev Knob}

theorem Exclusive.owns_of_hasGuard (hx : Exclusive w) (ho : w.HasGuard o) :
    w.Owns o := by
  cases o with
  | python => exact hx.python ho
  | task i =>
      obtain ⟨t, hi, ht⟩ := ho
      exact hx.task i t hi ht

theorem hasGuard_of_log_ne (h : H.Step Q w l w') (hlog : w'.log ≠ w.log) :
    ∃ o, l.owner = some o ∧ w.HasGuard o := by
  cases h.move with
  | call | exit | closeRefused | closeBegins | assigns => exact absurd rfl hlog
  | python ans hm =>
      refine ⟨.python, rfl, ?_⟩
      by_contra hnot
      exact hlog (hm.log_eq (eq_false_of_ne_true hnot))
  | task i ans hi hm =>
      refine ⟨.task i, rfl, _, hi, ?_⟩
      by_contra hnot
      exact hlog (hm.log_eq (eq_false_of_ne_true hnot))
  | drop i hi hm =>
      refine ⟨.task i, rfl, _, hi, ?_⟩
      by_contra hnot
      exact hlog (hm.log_eq (eq_false_of_ne_true hnot))

theorem Lined.line_eq_nil (hl : Lined w)
    (hlt : ∀ i, .task i ∈ w.lock.line → i < w.tasks.length) (hquiet : w.Quiet)
    (hidle : w.python = .idle) : w.lock.line = [] := by
  rw [List.eq_nil_iff_forall_not_mem]
  intro o ho
  cases o with
  | python =>
      have hholds := hl.python ho
      rw [hidle] at hholds
      cases hholds
  | task i =>
      have hi := List.getElem?_eq_getElem (hlt i ho)
      have hpending := pending_of_lined (hl.task i _ hi ho)
      rw [hquiet _ (List.mem_of_getElem? hi)] at hpending
      cases hpending

theorem keepsGuard (H : Half Op Loc Ret Ev Vars Knob) (Q : Answers Ev) (vars : Vars) :
    H.KeepsGuard Q vars where
  alone hreach ho ho' := by
    have hx := exclusive_of_reachable hreach
    exact (hx.owns_of_hasGuard ho).unique (hx.owns_of_hasGuard ho')
  calls _ hstep hlog := hasGuard_of_log_ne hstep hlog
  free hreach hquiet hidle :=
    (lined_of_reachable hreach).line_eq_nil
      (fun _ => lt_length_of_mem_line hreach) hquiet hidle

end Guard

end WebTransport.Wrapper
