import Mathlib.Data.List.Basic

/-!
# Finite runs of a labelled step relation

A run carries its trace: the state in front of each step together with the
label of the step.  A condition on steps can then be required along a given
run, and the invariant rule below turns a step lemma under such a condition
into a statement about every state that the run reaches.
-/

namespace WebTransport.Support

variable {σ ℓ : Type*}

/-- `Run step s tr t` says that the steps listed in `tr` lead from `s` to `t`. -/
inductive Run (step : σ → ℓ → σ → Prop) (s : σ) : List (σ × ℓ) → σ → Prop
  | refl : Run step s [] s
  | tail {tr : List (σ × ℓ)} {t u : σ} {l : ℓ}
      (hrun : Run step s tr t) (hstep : step t l u) :
      Run step s (tr ++ [(t, l)]) u

/-- Some run leads from `s` to `t`. -/
def Reachable (step : σ → ℓ → σ → Prop) (s t : σ) : Prop :=
  ∃ tr, Run step s tr t

/-- Every step of the trace meets the condition `K`. -/
def Along (K : σ → ℓ → Prop) (tr : List (σ × ℓ)) : Prop :=
  ∀ p ∈ tr, K p.1 p.2

instance (K : σ → ℓ → Prop) [∀ s l, Decidable (K s l)] (tr : List (σ × ℓ)) :
    Decidable (Along K tr) :=
  inferInstanceAs (Decidable (∀ p ∈ tr, K p.1 p.2))

section Along

variable {K K' : σ → ℓ → Prop} {tr tr' : List (σ × ℓ)} {s : σ} {l : ℓ}

@[simp] theorem along_nil : Along K [] := by
  simp [Along]

@[simp] theorem along_append : Along K (tr ++ tr') ↔ Along K tr ∧ Along K tr' := by
  simp [Along, or_imp, forall_and]

@[simp] theorem along_singleton : Along K [(s, l)] ↔ K s l := by
  simp [Along]

theorem Along.mono (h : Along K tr) (hK : ∀ s l, K s l → K' s l) :
    Along K' tr :=
  fun p hp => hK _ _ (h p hp)

theorem along_true : Along (fun _ _ => True) tr := by
  simp [Along]

end Along

section Rules

variable {step : σ → ℓ → σ → Prop} {K : σ → ℓ → Prop}
  {tr tr' : List (σ × ℓ)} {s t u : σ} {l : ℓ}

theorem Run.single (h : step s l t) : Run step s [(s, l)] t := by
  simpa using Run.tail Run.refl h

theorem Run.trans (h : Run step s tr t) (h' : Run step t tr' u) :
    Run step s (tr ++ tr') u := by
  induction h' with
  | refl => simpa using h
  | tail _ hstep ih =>
      rw [← List.append_assoc]
      exact ih.tail hstep

theorem Run.head (hstep : step s l t) (h : Run step t tr u) :
    Run step s ((s, l) :: tr) u :=
  (Run.single hstep).trans h

/-- The invariant rule: what every step that meets `K` preserves holds at the
end of every run whose steps all meet `K`. -/
theorem Run.invariant {I : σ → Prop} (h : Run step s tr t)
    (hstep : ∀ s l t, K s l → step s l t → I s → I t)
    (hK : Along K tr) (hs : I s) : I t := by
  induction h with
  | refl => exact hs
  | tail _ hlast ih =>
      rw [along_append, along_singleton] at hK
      exact hstep _ _ _ hK.2 hlast (ih hK.1)

/-- The invariant rule with a property of the single steps: where the invariant
holds, a step that meets `K` keeps it and has the property `P`. -/
theorem Run.invariant_along {I : σ → Prop} {P : σ → ℓ → Prop}
    (h : Run step s tr t)
    (hstep : ∀ s l t, K s l → step s l t → I s → I t ∧ P s l)
    (hK : Along K tr) (hs : I s) : I t ∧ Along P tr := by
  induction h with
  | refl => exact ⟨hs, along_nil⟩
  | tail _ hlast ih =>
      rw [along_append, along_singleton] at hK ⊢
      obtain ⟨hbefore, hall⟩ := ih hK.1
      obtain ⟨hafter, hP⟩ := hstep _ _ _ hK.2 hlast hbefore
      exact ⟨hafter, hall, hP⟩

/-- A run has no more steps of a kind than a measure has room for, if these steps
make the measure fall and no step makes it grow. -/
theorem Run.count_add_le {I : σ → Prop} {μ : σ → ℕ} {B : ℓ → Bool}
    (h : Run step s tr t)
    (hstep : ∀ s l t, K s l → step s l t → I s → I t ∧ μ t + (B l).toNat ≤ μ s)
    (hK : Along K tr) (hs : I s) :
    I t ∧ (tr.countP fun p => B p.2) + μ t ≤ μ s := by
  induction h with
  | refl => exact ⟨hs, by simp⟩
  | @tail tr t u l _ hlast ih =>
      rw [along_append, along_singleton] at hK
      obtain ⟨hbefore, hcount⟩ := ih hK.1
      obtain ⟨hafter, hfalls⟩ := hstep _ _ _ hK.2 hlast hbefore
      refine ⟨hafter, ?_⟩
      have hlastCount : ([(t, l)].countP fun p => B p.2) = (B l).toNat := by
        cases hB : B l <;> simp [hB]
      rw [List.countP_append, hlastCount]
      omega

/-- A run whose steps all make a measure fall is no longer than the measure. -/
theorem Run.length_add_le {I : σ → Prop} {μ : σ → ℕ} (h : Run step s tr t)
    (hstep : ∀ s l t, K s l → step s l t → I s → I t ∧ μ t < μ s)
    (hK : Along K tr) (hs : I s) : I t ∧ tr.length + μ t ≤ μ s := by
  have hcount := h.count_add_le (B := fun _ => true) hstep hK hs
  simpa using hcount

/-- The unconditional invariant rule. -/
theorem Reachable.invariant {I : σ → Prop} (h : Reachable step s t)
    (hstep : ∀ s l t, step s l t → I s → I t) (hs : I s) : I t := by
  obtain ⟨tr, hrun⟩ := h
  exact hrun.invariant (fun s l t _ => hstep s l t) along_true hs

theorem Run.first {P : σ → Prop} (h : Run step s tr t)
    (htr : Along (fun u _ => P u) tr) (ht : P t) : P s := by
  induction h with
  | refl => exact ht
  | tail _ _ ih =>
      rw [along_append, along_singleton] at htr
      exact ih htr.1 htr.2

theorem Reachable.refl : Reachable step s s :=
  ⟨[], Run.refl⟩

theorem Reachable.trans (h : Reachable step s t) (h' : Reachable step t u) :
    Reachable step s u := by
  obtain ⟨tr, hrun⟩ := h
  obtain ⟨tr', hrun'⟩ := h'
  exact ⟨tr ++ tr', hrun.trans hrun'⟩

theorem Run.reachable (h : Run step s tr t) : Reachable step s t :=
  ⟨tr, h⟩

theorem Reachable.tail (h : Reachable step s t) (hstep : step t l u) :
    Reachable step s u :=
  h.trans (Run.single hstep).reachable

theorem Reachable.mono {step' : σ → ℓ → σ → Prop} (h : Reachable step s t)
    (hstep : ∀ s l t, step s l t → step' s l t) : Reachable step' s t :=
  h.invariant (fun _ _ _ hst hs => hs.tail (hstep _ _ _ hst)) Reachable.refl

/-- A run passes through every state of its trace. -/
theorem Run.split {tr₀ : List (σ × ℓ)} (h : Run step s tr₀ t)
    (heq : tr₀ = tr ++ (u, l) :: tr') :
    Run step s tr u ∧ ∃ v, step u l v ∧ Run step v tr' t := by
  induction h generalizing tr' with
  | refl => simp at heq
  | tail hrun hlast ih =>
      rcases List.eq_nil_or_concat tr' with rfl | ⟨tr₂, p, rfl⟩
      · obtain ⟨rfl, hp⟩ := List.append_inj' heq rfl
        cases hp
        exact ⟨hrun, _, hlast, Run.refl⟩
      · have hconcat : tr ++ (u, l) :: tr₂.concat p = (tr ++ (u, l) :: tr₂) ++ [p] := by
          simp
        obtain ⟨hinit, hp⟩ := List.append_inj' (heq.trans hconcat) rfl
        cases hp
        obtain ⟨hbefore, v, hstep, hafter⟩ := ih hinit
        rw [List.concat_eq_append]
        exact ⟨hbefore, v, hstep, hafter.tail hlast⟩

theorem Run.along_reachable (h : Run step s tr t) :
    Along (fun u _ => Reachable step s u) tr :=
  (h.invariant_along (I := Reachable step s)
    (fun _ _ _ _ hstep hu => ⟨hu.tail hstep, hu⟩) along_true Reachable.refl).2

/-- Every state of a run is below the last one in an order that every step goes
up. -/
theorem Run.along_below {r : σ → σ → Prop} (h : Run step s tr t)
    (hstep : ∀ s l t, step s l t → r s t)
    (htrans : ∀ {a b c}, r a b → r b c → r a c) : Along (fun u _ => r u t) tr := by
  induction h with
  | refl => exact along_nil
  | tail _ hlast ih =>
      have hup := hstep _ _ _ hlast
      exact along_append.mpr ⟨ih.mono fun _ _ hu => htrans hu hup,
        along_singleton.mpr hup⟩

/-- Where something does not hold at first and holds at the end, some step makes
it hold. -/
theorem Run.exists_becomes {B : σ → Prop} (h : Run step s tr t) (hs : ¬ B s)
    (ht : B t) : ∃ tr₁ u l v tr₂, tr = tr₁ ++ (u, l) :: tr₂ ∧ Run step s tr₁ u ∧
      step u l v ∧ ¬ B u ∧ B v ∧ Run step v tr₂ t := by
  induction h with
  | refl => exact absurd ht hs
  | @tail tr t u l hrun hlast ih =>
      by_cases hB : B t
      · obtain ⟨tr₁, u₀, l₀, v, tr₂, rfl, hbefore, hstep, hout, hin, hafter⟩ := ih hB
        exact ⟨tr₁, u₀, l₀, v, tr₂ ++ [(t, l)], by simp, hbefore, hstep, hout, hin,
          hafter.tail hlast⟩
      · exact ⟨tr, t, l, u, [], rfl, hrun, hlast, hB, ht, Run.refl⟩

/-- A condition that a step can break only by making `B` true, where `B` is
never made false again, holds along every run at whose end `B` is false. -/
theorem Run.along_of_not {B : σ → Prop} (h : Run step s tr t)
    (hstep : ∀ s l t, step s l t → ¬ K s l → B t)
    (hmono : ∀ s l t, step s l t → B s → B t)
    (ht : ¬ B t) : Along K tr := by
  induction h with
  | refl => exact along_nil
  | tail _ hlast ih =>
      rw [along_append, along_singleton]
      refine ⟨ih fun hB => ht (hmono _ _ _ hlast hB), ?_⟩
      by_contra hnot
      exact ht (hstep _ _ _ hlast hnot)

/-- A simulation: if a system can match each step that is made in a state which is
related to one of its own, with a step or with none, it can match every run. -/
theorem Reachable.simulate {α β : Type*} {step' : α → β → α → Prop}
    {R : σ → α → Prop} {a : α} (h : Reachable step s t)
    (hstep : ∀ {s l t a}, step s l t → R s a →
      R t a ∨ ∃ l' b, step' a l' b ∧ R t b)
    (hs : R s a) : ∃ b, Reachable step' a b ∧ R t b := by
  refine h.invariant (I := fun t => ∃ b, Reachable step' a b ∧ R t b) ?_
    ⟨a, Reachable.refl, hs⟩
  rintro u l v huv ⟨b, hb, hub⟩
  rcases hstep huv hub with hstays | ⟨l', c, hbc, hvc⟩
  · exact ⟨b, hb, hstays⟩
  · exact ⟨c, hb.tail hbc, hvc⟩

/-! ### Runs of a part -/

variable {σ' ℓ' : Type*} {step' : σ' → ℓ' → σ' → Prop}

/-- The steps of a trace that a part of the system makes. -/
def projectTrace (f : σ → σ') (g : ℓ → Option ℓ') (tr : List (σ × ℓ)) :
    List (σ' × ℓ') :=
  tr.filterMap fun p => (g p.2).map fun l => (f p.1, l)

theorem filterMap_projectTrace {α : Type*} {f : σ → σ'} {g : ℓ → Option ℓ'}
    (r : ℓ' → Option α) :
    (projectTrace f g tr).filterMap (fun p => r p.2) =
      tr.filterMap fun p => (g p.2).bind r := by
  rw [projectTrace, List.filterMap_filterMap]
  congr 1
  funext p
  cases g p.2 <;> rfl

/-- A run of a system is a run of a part of it, if each step is one of the part
or leaves the part alone. -/
theorem Run.project {f : σ → σ'} {g : ℓ → Option ℓ'} (h : Run step s tr t)
    (hsome : ∀ s l t l', K s l → step s l t → g l = some l' → step' (f s) l' (f t))
    (hnone : ∀ s l t, K s l → step s l t → g l = none → f t = f s)
    (hK : Along K tr) : Run step' (f s) (projectTrace f g tr) (f t) := by
  induction h with
  | refl => exact Run.refl
  | @tail tr t u l _ hlast ih =>
      rw [along_append, along_singleton] at hK
      have hbefore := ih hK.1
      cases hg : g l with
      | none =>
          have hsame : f u = f t := hnone t l u hK.2 hlast hg
          simpa [projectTrace, hg, hsame] using hbefore
      | some l' =>
          have hpart : step' (f t) l' (f u) := hsome t l u l' hK.2 hlast hg
          simpa [projectTrace, hg] using hbefore.tail hpart

end Rules

/-! ## Replaying a list of labels through a partial step function -/

/-- Apply a partial step function to the labels of a list, in order. -/
def replay (next : σ → ℓ → Option σ) : σ → List ℓ → Option σ
  | s, [] => some s
  | s, l :: ls => (next s l).bind fun t => replay next t ls

def replayTrace (next : σ → ℓ → Option σ) : σ → List ℓ → List (σ × ℓ)
  | _, [] => []
  | s, l :: ls => (s, l) :: (next s l).elim [] fun t => replayTrace next t ls

theorem run_of_replay {step : σ → ℓ → σ → Prop} {next : σ → ℓ → Option σ}
    (hnext : ∀ s l t, next s l = some t → step s l t) :
    ∀ {s t : σ} {ls : List ℓ}, replay next s ls = some t →
      Run step s (replayTrace next s ls) t := by
  intro s t ls
  induction ls generalizing s with
  | nil =>
      intro h
      obtain rfl : s = t := by simpa [replay] using h
      exact Run.refl
  | cons l ls ih =>
      intro h
      obtain ⟨u, hu, hrest⟩ := Option.bind_eq_some_iff.mp h
      have hrun : Run step u (replayTrace next u ls) t := ih hrest
      rw [replayTrace, hu]
      exact hrun.head (hnext s l u hu)

def replayEnd (next : σ → ℓ → Option σ) (s : σ) (ls : List ℓ) : σ :=
  (replay next s ls).getD s

theorem run_replayEnd {step : σ → ℓ → σ → Prop} {next : σ → ℓ → Option σ}
    (hnext : ∀ s l t, next s l = some t → step s l t) {s : σ} {ls : List ℓ}
    (h : (replay next s ls).isSome = true) :
    Run step s (replayTrace next s ls) (replayEnd next s ls) := by
  obtain ⟨t, ht⟩ := Option.isSome_iff_exists.mp h
  rw [replayEnd, ht]
  exact run_of_replay hnext ht

end WebTransport.Support
