import WebTransport.Wrapper.LocalClose

/-!
# Operations that a close interrupts

An operation that is suspended when the token is set finds it set at its next
poll, wherever it was suspended.  It drops its body, closes the QUIC stream once
more and raises: the close has the last word on everything that was pending,
except for what was in the middle of a poll.
-/

namespace WebTransport.Wrapper

open Support

variable {Op Loc Ret Ev Vars Knob : Type}

/-- The task of the operation is between two polls, or in its cancel branch. -/
def Task.interruptible : Task Op Loc Ret → Bool
  | .call _ pc =>
      match pc with
      | .spawned | .waiting | .suspended _ | .interrupted _ | .closing
      | .closeWaiting | .closeHeld | .closeLoaded _ | .closeSent => true
      | _ => false
  | .exit _ _ => false

/-- From `w` on task `i` only gives up: if it comes to a result it raises the
exception for a local close, and its calls on the QUIC stream only close it. -/
structure Half.GivesUp (H : Half Op Loc Ret Ev Vars Knob) (Q : Answers Ev)
    (w : World Op Loc Ret Ev Vars Knob) (i : ℕ) : Prop where
  raises : ∀ {u op r}, Reachable (H.Step Q) w u →
    u.tasks[i]? = some (.call op (.done r)) → r = H.closedLocally
  calls : ∀ {u u' e}, Reachable (H.Step Q) w u →
    H.Step Q u (.task i (some e)) u' → ∃ code, H.closeCode e = some code

/-- The task of an operation that is on its way out. -/
def Half.OnItsWayOut (H : Half Op Loc Ret Ev Vars Knob) : Task Op Loc Ret → Prop
  | .call _ pc =>
      match pc with
      | .spawned | .waiting | .suspended _ | .interrupted _ | .closing
      | .closeWaiting | .closeHeld | .closeLoaded _ | .closeSent | .dropped => True
      | .done r => r = H.closedLocally
      | _ => False
  | .exit _ _ => False

section Interrupted

variable {H : Half Op Loc Ret Ev Vars Knob} {Q : Answers Ev} {i : ℕ}
  {sh sh' : Shared Ev Vars} {t t' : Task Op Loc Ret} {ans : Option Ev} {e : Ev}
  {w u : World Op Loc Ret Ev Vars Knob}

theorem Half.onItsWayOut_of_interruptible (ht : t.interruptible = true) :
    H.OnItsWayOut t := by
  cases t with
  | exit b pc => cases ht
  | call op pc => cases pc <;> trivial

theorem TaskMove.onItsWayOut (h : TaskMove H i sh t ans t' sh')
    (hc : sh.cancelled = true) (ht : H.OnItsWayOut t) : H.OnItsWayOut t' := by
  cases h with
  | exit b h => exact ht.elim
  | call op h =>
      cases h with
      | spawnedUnset hunset | waitingUnset hunset | suspendedUnset l hunset =>
          rw [hc] at hunset
          cases hunset
      | closeReturns => rfl
      | enters | queues | works | returns => exact ht.elim
      | _ => trivial

theorem DropMove.onItsWayOut (h : DropMove H i sh t t' sh')
    (ht : H.OnItsWayOut t) : H.OnItsWayOut t' := by
  cases h with
  | exitSpawned | exitWaiting => exact ht.elim
  | _ => trivial

theorem TaskMove.closes_of_onItsWayOut (h : TaskMove H i sh t (some e) t' sh')
    (ht : H.OnItsWayOut t) : ∃ code, H.closeCode e = some code := by
  cases h with
  | exit b h => exact ht.elim
  | call op h =>
      cases h with
      | works => exact ht.elim
      | closeSends code e he => exact ⟨code, he⟩

theorem onItsWayOut_of_reachable (hc : w.cancelled = true)
    (hi : w.tasks[i]? = some t) (ht : H.OnItsWayOut t)
    (h : Reachable (H.Step Q) w u) :
    u.cancelled = true ∧ ∃ t, u.tasks[i]? = some t ∧ H.OnItsWayOut t := by
  refine h.invariant (I := fun u => u.cancelled = true ∧
    ∃ t, u.tasks[i]? = some t ∧ H.OnItsWayOut t) ?_ ⟨hc, t, hi, ht⟩
  rintro u l u' hstep ⟨hset, t, hi, ht⟩
  refine ⟨hstep.cancelled hset, ?_⟩
  rcases hstep.task_cases hi with
    ⟨ans, t', -, hi', hm⟩ | ⟨t', -, hi', hm⟩ | ⟨-, -, hi'⟩
  · exact ⟨t', hi', hm.onItsWayOut hset ht⟩
  · exact ⟨t', hi', hm.onItsWayOut ht⟩
  · exact ⟨t, hi', ht⟩

/-- A close interrupts every operation that is not in the middle of a poll. -/
theorem givesUp_of_interruptible (hc : w.cancelled = true)
    (hi : w.tasks[i]? = some t) (ht : t.interruptible = true) :
    H.GivesUp Q w i := by
  have hout : ∀ {u}, Reachable (H.Step Q) w u →
      ∃ t, u.tasks[i]? = some t ∧ H.OnItsWayOut t := fun hu =>
    (onItsWayOut_of_reachable hc hi (Half.onItsWayOut_of_interruptible ht) hu).2
  refine ⟨fun hu hdone => ?_, fun hu hstep => ?_⟩
  · obtain ⟨t, hi, ht⟩ := hout hu
    rw [hdone] at hi
    cases hi
    exact ht
  · obtain ⟨t, hi, ht⟩ := hout hu
    cases hstep.move with
    | task j ans hj hm =>
        obtain rfl := Option.some.inj (hi.symm.trans hj)
        exact hm.closes_of_onItsWayOut ht

end Interrupted

end WebTransport.Wrapper
