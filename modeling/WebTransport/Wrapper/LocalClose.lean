import WebTransport.Wrapper.CloseDelivery
import WebTransport.Wrapper.Token

/-!
# After a local close

A close call that has returned `Ok` and an exit on an exception both leave the
token set.  An operation that is called from then on finds it set when it is
polled first, so that it never gets to its own work: all it does is to close the
QUIC stream once more.
-/

namespace WebTransport.Wrapper

open Support

variable {Op Loc Ret Ev Vars Knob : Type}

/-- The step by which a local close is complete: the close call returns `Ok`, or
an exit on an exception returns. -/
def Half.LocallyCloses (H : Half Op Loc Ret Ev Vars Knob) (Q : Answers Ev)
    (w : World Op Loc Ret Ev Vars Knob) (l : Action Op Ev Knob)
    (w' : World Op Loc Ret Ev Vars Knob) : Prop :=
  H.Step Q w l w' ∧
    ((l = .python none ∧ ∃ code, H.CloseReturns Q w code w') ∨
      ∃ i, l = .task i none ∧ w.tasks[i]? = some (.exit true .sent))

/-- The local close is absorbing from `w` on: the token stays set, and every
operation that is called raises the exception for a local close, if it comes to
a result, and makes no other call on the QUIC stream than the one that closes
it. -/
structure Half.Absorbs (H : Half Op Loc Ret Ev Vars Knob) (Q : Answers Ev)
    (w : World Op Loc Ret Ev Vars Knob) : Prop where
  cancelled : ∀ {u}, Reachable (H.Step Q) w u → u.cancelled = true
  raises : ∀ {u i op r}, Reachable (H.Step Q) w u → w.tasks.length ≤ i →
    u.tasks[i]? = some (.call op (.done r)) → r = H.closedLocally
  calls : ∀ {u u' i e op pc}, Reachable (H.Step Q) w u →
    H.Step Q u (.task i (some e)) u' → w.tasks.length ≤ i →
    u.tasks[i]? = some (.call op pc) → ∃ code, H.closeCode e = some code

/-! ## Who has set the token -/

/-- In the trace the half was closed locally: a close call has returned `Ok`, or an
exit on an exception has cancelled. -/
def Half.ClosedIn (H : Half Op Loc Ret Ev Vars Knob) (Q : Answers Ev)
    (tr : List (World Op Loc Ret Ev Vars Knob × Action Op Ev Knob)) : Prop :=
  ∃ p ∈ tr, (p.2 = .python none ∧ ∃ code w', H.CloseReturns Q p.1 code w') ∨
    ∃ i, p.2 = .task i none ∧ p.1.tasks[i]? = some (.exit true .stored)

/-- Every close call in `tr` comes after a local close, in `tr₀` or in `tr`. -/
def Half.ClosesFollow (H : Half Op Loc Ret Ev Vars Knob) (Q : Answers Ev)
    (tr₀ tr : List (World Op Loc Ret Ev Vars Knob × Action Op Ev Knob)) : Prop :=
  ∀ tr₁ u code tr₂, tr = tr₁ ++ (u, .close code) :: tr₂ → H.ClosedIn Q (tr₀ ++ tr₁)

section History

variable {H : Half Op Loc Ret Ev Vars Knob} {Q : Answers Ev} {i : ℕ}
  {sh sh' : Shared Ev Vars} {t t' : Task Op Loc Ret} {py py' : Python Knob}
  {ans : Option Ev} {w w₁ w' : World Op Loc Ret Ev Vars Knob} {l : Action Op Ev Knob}
  {tr₀ tr tr' : List (World Op Loc Ret Ev Vars Knob × Action Op Ev Knob)} {vars : Vars}

theorem Half.ClosedIn.append (h : H.ClosedIn Q tr) : H.ClosedIn Q (tr ++ tr') := by
  obtain ⟨p, hp, hcloses⟩ := h
  exact ⟨p, List.mem_append_left _ hp, hcloses⟩

theorem exit_of_stored (h : Reachable (H.Step Q) (World.init vars) w) {b : Bool}
    (hi : w.tasks[i]? = some (.exit b .stored)) : b = true := by
  have hnever := h.invariant (I := fun w => ∀ (i : ℕ) (t : Task Op Loc Ret),
    w.tasks[i]? = some t → t ≠ .exit false .stored) ?_ (by simp [World.init])
  · cases b with
    | true => rfl
    | false => exact absurd rfl (hnever i _ hi)
  · intro u l u' hstep hu
    refine hstep.forall_tasks (by simp) (by simp) ?_ ?_ (fun _ _ _ _ _ ht => ht) hu
    · rintro i ans t t' _ _ hm - rfl
      cases hm with
      | exit b h => cases h
    · rintro i t t' _ _ hm - rfl
      cases hm

/-- An exit on an exception is the only task that sets the token. -/
theorem TaskMove.cancelled_cases (h : TaskMove H i sh t ans t' sh')
    (hset : sh'.cancelled = true) :
    sh.cancelled = true ∨ ans = none ∧ ∃ b, t = .exit b .stored := by
  cases h with
  | call op h => cases h <;> exact Or.inl hset
  | exit b h =>
      cases h with
      | cancels => exact Or.inr ⟨rfl, b, rfl⟩
      | _ => exact Or.inl hset

theorem DropMove.cancelled_eq (h : DropMove H i sh t t' sh') :
    sh'.cancelled = sh.cancelled := by
  cases h <;> rfl

theorem PythonMove.cancelled_cases (h : PythonMove H sh py ans py' sh')
    (hset : sh'.cancelled = true) :
    py'.pastCancel = true ∨ sh.cancelled = true := by
  cases h with
  | cancels => exact Or.inl rfl
  | _ => exact Or.inr hset

theorem PythonMove.pastCancel_cases (h : PythonMove H sh py ans py' sh')
    (hpast : py.pastCancel = true) :
    py'.pastCancel = true ∨ ans = none ∧ py' = .idle ∧
      ∃ code, py = .cancelled code ∨ py = .sent code := by
  cases h with
  | defers code => exact Or.inr ⟨rfl, rfl, code, Or.inl rfl⟩
  | returns code => exact Or.inr ⟨rfl, rfl, code, Or.inr rfl⟩
  | locks | sends => exact Or.inl rfl
  | _ => cases hpast

theorem pastCancel_step (h : H.Step Q w l w') (hpast : w.python.pastCancel = true) :
    w'.python.pastCancel = true ∨ H.ClosedIn Q [(w, l)] := by
  have hstep := h
  cases h.move with
  | call _ hpy | exit _ hpy | closeRefused _ hpy | closeBegins _ hpy | assigns _ hpy =>
      rw [hpy] at hpast
      cases hpast
  | task | drop => exact Or.inl hpast
  | python ans hm =>
      refine (hm.pastCancel_cases hpast).imp_right ?_
      rintro ⟨rfl, hidle, code, hcalling⟩
      exact ⟨_, List.mem_singleton.mpr rfl, Or.inl ⟨rfl, code, _, hstep, hcalling, hidle⟩⟩

theorem cancelled_step (hw : Reachable (H.Step Q) (World.init vars) w)
    (h : H.Step Q w l w') (hset : w'.cancelled = true) :
    w.cancelled = true ∨ w'.python.pastCancel = true ∨ H.ClosedIn Q [(w, l)] := by
  cases h.move with
  | call | exit | closeRefused | closeBegins | assigns => exact Or.inl hset
  | python ans hm => exact (hm.cancelled_cases hset).symm.imp_right Or.inl
  | drop i hi hm => exact Or.inl (hm.cancelled_eq ▸ hset)
  | task i ans hi hm =>
      refine (hm.cancelled_cases hset).imp_right ?_
      rintro ⟨rfl, b, rfl⟩
      obtain rfl := exit_of_stored hw hi
      exact Or.inr ⟨_, List.mem_singleton.mpr rfl, Or.inr ⟨i, rfl, hi⟩⟩

theorem cancelled_of_closedIn_step (hw : Reachable (H.Step Q) (World.init vars) w)
    (h : H.Step Q w l w') (hlast : H.ClosedIn Q [(w, l)]) : w'.cancelled = true := by
  obtain ⟨p, hp, hcloses⟩ := hlast
  obtain rfl := List.mem_singleton.mp hp
  rcases hcloses with ⟨-, code, u, hret⟩ | ⟨i, rfl, hi⟩
  · refine h.cancelled (cancelled_of_pastCancel hw ?_)
    rcases hret.calling with hpy | hpy <;> rw [hpy] <;> rfl
  · cases h.move with
    | task i ans hj hm =>
        obtain rfl := Option.some.inj (hi.symm.trans hj)
        cases hm with
        | exit b hm =>
            cases hm
            rfl

/-- The token is set if and only if the half was closed locally, or is just being
closed by a call that has not returned. -/
theorem cancelled_iff_of_run (h : Run (H.Step Q) (World.init vars) tr w) :
    w.cancelled = true ↔ w.python.pastCancel = true ∨ H.ClosedIn Q tr := by
  constructor
  · induction h with
    | refl => exact fun hset => by cases hset
    | @tail tr w w' l hrun hstep ih =>
        intro hset
        have hlast : H.ClosedIn Q [(w, l)] → H.ClosedIn Q (tr ++ [(w, l)]) := by
          rintro ⟨p, hp, hcloses⟩
          exact ⟨p, List.mem_append_right _ hp, hcloses⟩
        rcases cancelled_step hrun.reachable hstep hset with hbefore | hpast | hcloses
        · rcases ih hbefore with hpast | hclosed
          · exact (pastCancel_step hstep hpast).imp_right hlast
          · exact Or.inr hclosed.append
        · exact Or.inl hpast
        · exact Or.inr (hlast hcloses)
  · rintro (hpast | hclosed)
    · exact cancelled_of_pastCancel h.reachable hpast
    · induction h with
      | refl =>
          obtain ⟨p, hp, -⟩ := hclosed
          cases hp
      | @tail tr w w' l hrun hstep ih =>
          obtain ⟨p, hp, hcloses⟩ := hclosed
          rcases List.mem_append.mp hp with hbefore | hlast
          · exact hstep.cancelled (ih ⟨p, hbefore, hcloses⟩)
          · exact cancelled_of_closedIn_step hrun.reachable hstep ⟨p, hlast, hcloses⟩

theorem refused_iff {ε : Type} {err : ε} {code : UInt32}
    (h : H.Step Q w (.close code) w') :
    (w.testToken err = .error err ∧ H.next w (.close code) = some w) ↔
      w.cancelled = true := by
  cases h.move with
  | closeRefused _ _ hc => exact ⟨fun _ => hc, fun _ => ⟨if_pos hc, h.1⟩⟩
  | closeBegins _ _ hc =>
      rw [World.testToken, hc]
      exact ⟨fun hraised => (by cases hraised.1), fun hset => (by cases hset)⟩

/-- A close call is refused if and only if the half has been closed locally. -/
theorem refused_iff_closedIn {ε : Type} {err : ε} {code : UInt32}
    (h : Run (H.Step Q) (World.init vars) tr w) (hstep : H.Step Q w (.close code) w') :
    (w.testToken err = .error err ∧ H.next w (.close code) = some w) ↔
      H.ClosedIn Q tr := by
  rw [refused_iff hstep, cancelled_iff_of_run h]
  refine or_iff_right ?_
  cases hstep.move with
  | closeRefused _ hpy | closeBegins _ hpy =>
      rw [hpy]
      exact Bool.false_ne_true

theorem Half.ClosedIn.closesFollow (h : H.ClosedIn Q tr₀) : H.ClosesFollow Q tr₀ tr :=
  fun _ _ _ _ _ => h.append

/-- The task is an exit on an exception that has set the token. -/
def Task.hasCancelled : Task Op Loc Ret → Bool
  | .exit true .ready | .exit true .waiting | .exit true .held
  | .exit true .sent | .exit true .returned => true
  | _ => false

theorem TaskMove.hasCancelled (h : TaskMove H i sh t ans t' sh')
    (ht : t'.hasCancelled = true) :
    t.hasCancelled = true ∨ ans = none ∧ t = .exit true .stored := by
  cases h with
  | call op h => cases ht
  | exit b h =>
      cases b with
      | false => cases h <;> cases ht
      | true =>
          cases h with
          | stores => cases ht
          | cancels => exact Or.inr ⟨rfl, rfl⟩
          | _ => exact Or.inl rfl

theorem DropMove.hasCancelled (h : DropMove H i sh t t' sh') :
    t'.hasCancelled = false := by
  cases h with
  | exitSpawned b | exitWaiting b => cases b <;> rfl
  | _ => rfl

theorem closedIn_of_hasCancelled (h : Run (H.Step Q) (World.init vars) tr w) :
    ∀ (i : ℕ) (t : Task Op Loc Ret), w.tasks[i]? = some t → t.hasCancelled = true →
      H.ClosedIn Q tr := by
  induction h with
  | refl => simp [World.init]
  | @tail tr w w' l hrun hstep ih =>
      refine hstep.forall_tasks (fun _ ht => by cases ht) (fun b ht => by cases b <;> cases ht)
        ?_ ?_ (fun _ _ _ _ _ hbefore ht => (hbefore ht).append) ih
      · rintro i ans t t' rfl hi hm hbefore ht
        rcases hm.hasCancelled ht with ht | ⟨rfl, rfl⟩
        · exact (hbefore ht).append
        · exact ⟨(w, .task i none), by simp, Or.inr ⟨i, rfl, hi⟩⟩
      · intro i t t' _ _ hm _ ht
        rw [hm.hasCancelled] at ht
        cases ht

theorem closedIn_of_locallyCloses (h : Run (H.Step Q) (World.init vars) tr w)
    (hl : H.LocallyCloses Q w l w') : H.ClosedIn Q (tr ++ [(w, l)]) := by
  obtain ⟨hstep, ⟨rfl, code, hret⟩ | ⟨i, rfl, hi⟩⟩ := hl
  · exact ⟨(w, .python none), by simp, Or.inl ⟨rfl, code, _, hret⟩⟩
  · exact (closedIn_of_hasCancelled h i _ hi rfl).append

theorem cancelled_of_locallyCloses (hw : Reachable (H.Step Q) (World.init vars) w)
    (h : H.LocallyCloses Q w l w') : w'.cancelled = true := by
  obtain ⟨tr, hrun⟩ := hw
  exact (cancelled_iff_of_run (hrun.tail h.1)).mpr
    (Or.inr (closedIn_of_locallyCloses hrun h))

/-- In a run that goes on from `w₁`, the close calls are all refused if and only if
each of them comes after a local close. -/
theorem closesRefused_iff {ε : Type} (err : ε)
    (h₀ : Run (H.Step Q) (World.init vars) tr₀ w₁) (h : Run (H.Step Q) w₁ tr w') :
    Along (fun u l => ∀ code, l = .close code →
      u.testToken err = .error err ∧ H.next u l = some u) tr ↔
      H.ClosesFollow Q tr₀ tr := by
  constructor
  · rintro hall tr₁ u code tr₂ rfl
    obtain ⟨hbefore, v, hstep, -⟩ := h.split rfl
    exact (refused_iff_closedIn (h₀.trans hbefore) hstep).mp
      (hall (u, .close code) (by simp) code rfl)
  · rintro hfollow ⟨u, l⟩ hp code rfl
    obtain ⟨tr₁, tr₂, rfl⟩ := List.append_of_mem hp
    obtain ⟨hbefore, v, hstep, -⟩ := h.split rfl
    exact (refused_iff_closedIn (h₀.trans hbefore) hstep).mpr
      (hfollow tr₁ u code tr₂ rfl)

end History

/-! ## Operations under the token -/

/-- The task of an operation that has never found the token unset. -/
def Half.TurnsAway (H : Half Op Loc Ret Ev Vars Knob) : Task Op Loc Ret → Prop
  | .call _ pc =>
      match pc with
      | .spawned | .interrupted none | .closing | .closeWaiting | .closeHeld
      | .closeLoaded _ | .closeSent | .dropped => True
      | .done r => r = H.closedLocally
      | _ => False
  | .exit _ _ => True

section Absorbing

variable {H : Half Op Loc Ret Ev Vars Knob} {Q : Answers Ev} {i : ℕ}
  {sh sh' : Shared Ev Vars} {t t' : Task Op Loc Ret} {ans : Option Ev}
  {w w' u : World Op Loc Ret Ev Vars Knob} {l : Action Op Ev Knob}

theorem TaskMove.turnsAway (h : TaskMove H i sh t ans t' sh')
    (hc : sh.cancelled = true) (ht : H.TurnsAway t) : H.TurnsAway t' := by
  cases h with
  | exit b h => trivial
  | call op h =>
      cases h with
      | spawnedUnset hunset =>
          rw [hc] at hunset
          cases hunset
      | closeReturns => rfl
      | waitingSet | waitingUnset | suspendedSet | suspendedUnset | enters | queues
      | works | returns => exact ht.elim
      | _ => trivial

theorem DropMove.turnsAway (h : DropMove H i sh t t' sh') : H.TurnsAway t' := by
  cases h <;> trivial

theorem TaskMove.closes_of_turnsAway {op : Op} {pc : CallPc Loc Ret} {e : Ev}
    (h : TaskMove H i sh (.call op pc) (some e) t' sh')
    (ht : H.TurnsAway (.call op pc)) : ∃ code, H.closeCode e = some code := by
  cases h with
  | call op h =>
      cases h with
      | works => exact ht.elim
      | closeSends code e he => exact ⟨code, he⟩

/-- Whatever is called on a closed wrapper is turned away. -/
theorem turnsAway_of_reachable (hc : w.cancelled = true)
    (h : Reachable (H.Step Q) w u) :
    u.cancelled = true ∧ ∀ i t, u.tasks[i]? = some t → w.tasks.length ≤ i →
      H.TurnsAway t := by
  refine h.invariant (I := fun u => u.cancelled = true ∧ ∀ i t,
    u.tasks[i]? = some t → w.tasks.length ≤ i → H.TurnsAway t) ?_ ⟨hc, ?_⟩
  · rintro u l u' hstep ⟨hset, hu⟩
    refine ⟨hstep.cancelled hset, hstep.forall_tasks (fun op _ => trivial)
      (fun b _ => trivial) ?_ ?_ (fun i t _ _ _ ht => ht) hu⟩
    · exact fun i ans t t' _ _ hm ht hn => hm.turnsAway hset (ht hn)
    · exact fun i t t' _ _ hm _ _ => hm.turnsAway
  · intro i t hi hn
    exact absurd (lt_length_of_getElem? hi) (by omega)

theorem absorbs_of_locallyCloses {vars : Vars}
    (hw : Reachable (H.Step Q) (World.init vars) w)
    (h : H.LocallyCloses Q w l w') : H.Absorbs Q w' := by
  have hset : w'.cancelled = true := cancelled_of_locallyCloses hw h
  refine ⟨fun hu => cancelled_of_reachable hu hset, ?_, ?_⟩
  · intro u i op r hu hn hi
    exact (turnsAway_of_reachable hset hu).2 i _ hi hn
  · intro u u' i e op pc hu hstep hn hi
    have hturns := (turnsAway_of_reachable hset hu).2 i _ hi hn
    cases hstep.move with
    | task i ans hj hm =>
        obtain rfl := Option.some.inj (hi.symm.trans hj)
        exact hm.closes_of_turnsAway hturns

end Absorbing

end WebTransport.Wrapper
