import WebTransport.Support.Run

/-!
# Systems that settle by themselves

A system takes some steps by itself and others because something reaches it from
outside.  It settles when the former come to an end, wherever they started from,
and leave it in a state of a given kind.
-/

namespace WebTransport.Support

variable {σ ℓ : Type*}

/-- From `s` on the system settles: as long as `P` does not hold it has a step of
its `own` that is `due`, the sequences of steps that are due are bounded, and where
they have come to an end `P` holds.  A step can be due without being the system's
own: it is not counted on, but it does not disturb. -/
structure Settles (step : σ → ℓ → σ → Prop) (due : σ → ℓ → Prop) (own : ℓ → Prop)
    (P : σ → Prop) (s : σ) : Prop where
  live : ¬ P s → ∃ l t, own l ∧ due s l ∧ step s l t
  finite : ∃ n, ∀ {tr t}, Run step s tr t → Along due tr → tr.length ≤ n
  ends : ∀ {tr t}, Run step s tr t → Along due tr →
    (∀ l u, own l → due t l → ¬ step t l u) → P t

/-- A system settles if every step that is due makes a measure fall, and `P` holds
wherever no step of its own is due. -/
theorem settles_of_measure {step : σ → ℓ → σ → Prop} {due : σ → ℓ → Prop}
    {own : ℓ → Prop} {P : σ → Prop} {s : σ} (μ : σ → ℕ)
    (hfalls : ∀ s l t, due s l → step s l t → μ t < μ s)
    (hP : ∀ {t}, Reachable step s t → (∀ l u, own l → due t l → ¬ step t l u) → P t) :
    Settles step due own P s := by
  constructor
  · intro hnot
    by_contra hnone
    push Not at hnone
    exact hnot (hP Reachable.refl hnone)
  · refine ⟨μ s, ?_⟩
    intro tr t hrun hall
    have hbound := (hrun.length_add_le (I := fun _ => True) (μ := μ)
      (fun s l t hl hstep _ => ⟨trivial, hfalls s l t hl hstep⟩) hall trivial).2
    omega
  · intro tr t hrun _ hstopped
    exact hP hrun.reachable hstopped

/-! ## Systems with parts -/

variable {α β : Type*}

/-- A part of a system makes the steps that `g` picks out.  It sees nothing but its
own state, and what it can do by itself the system can do. -/
structure IsPart (step : σ → ℓ → σ → Prop) (due : σ → ℓ → Prop) (own : ℓ → Prop)
    (part : α → β → α → Prop) (partDue : α → β → Prop) (partOwn : β → Prop)
    (f : σ → α) (g : ℓ → Option β) : Prop where
  steps : ∀ {s l t b}, step s l t → g l = some b → part (f s) b (f t)
  stays : ∀ {s l t}, step s l t → g l = none → f t = f s
  lift : ∀ {s b a}, part (f s) b a → ∃ l t, g l = some b ∧ step s l t
  due : ∀ {s l b}, g l = some b → (due s l ↔ partDue (f s) b)
  own : ∀ {l b}, g l = some b → (own l ↔ partOwn b)

/-- The steps of a kind come to an end, whatever else the system does meanwhile, and
leave it where `P` holds. -/
structure SettlesOn (step : σ → ℓ → σ → Prop) (due : σ → ℓ → Prop) (own : ℓ → Prop)
    (kind : ℓ → Bool) (P : σ → Prop) (s : σ) : Prop where
  live : ¬ P s → ∃ l t, kind l = true ∧ own l ∧ due s l ∧ step s l t
  finite : ∃ n, ∀ {tr t}, Run step s tr t → Along due tr →
    (tr.countP fun p => kind p.2) ≤ n
  ends : ∀ {tr t}, Run step s tr t → Along due tr →
    (∀ l u, kind l = true → own l → due t l → ¬ step t l u) → P t

section Parts

variable {step : σ → ℓ → σ → Prop} {due : σ → ℓ → Prop} {own : ℓ → Prop}
  {part : α → β → α → Prop} {partDue : α → β → Prop} {partOwn : β → Prop}
  {f : σ → α} {g : ℓ → Option β} {kind kind' : ℓ → Bool} {P P' : σ → Prop}
  {R : α → Prop} {K : σ → ℓ → Prop} {K' : α → β → Prop} {s t : σ} {tr : List (σ × ℓ)}

theorem along_projectTrace (h : Along K tr)
    (hK : ∀ s l b, g l = some b → K s l → K' (f s) b) :
    Along K' (projectTrace f g tr) := by
  rintro p hp
  obtain ⟨⟨s, l⟩, hmem, hb⟩ := List.mem_filterMap.mp hp
  obtain ⟨b, hl, rfl⟩ := Option.map_eq_some_iff.mp hb
  exact hK s l b hl (h _ hmem)

theorem length_projectTrace :
    (projectTrace f g tr).length = tr.countP fun p => (g p.2).isSome := by
  rw [projectTrace, List.length_filterMap_eq_countP]
  simp

theorem IsPart.run (hp : IsPart step due own part partDue partOwn f g)
    (h : Run step s tr t) : Run part (f s) (projectTrace f g tr) (f t) :=
  h.project (fun _ _ _ _ _ hstep hl => hp.steps hstep hl)
    (fun _ _ _ _ hstep hl => hp.stays hstep hl) along_true

theorem IsPart.along (hp : IsPart step due own part partDue partOwn f g)
    (h : Along (fun s l => due s l ∧ own l) tr) :
    Along (fun a b => partDue a b ∧ partOwn b) (projectTrace f g tr) :=
  along_projectTrace h fun _ _ _ hl hK => ⟨(hp.due hl).mp hK.1, (hp.own hl).mp hK.2⟩

theorem IsPart.stopped (hp : IsPart step due own part partDue partOwn f g)
    (h : ∀ l u, (g l).isSome = true → own l → due t l → ¬ step t l u) :
    ∀ b a, partOwn b → partDue (f t) b → ¬ part (f t) b a := by
  intro b a hown hdue ha
  obtain ⟨l, u, hl, hstep⟩ := hp.lift ha
  exact h l u (by simp [hl]) ((hp.own hl).mpr hown) ((hp.due hl).mpr hdue) hstep

/-- If a part settles by itself, it settles within the system. -/
theorem IsPart.settlesOn (hp : IsPart step due own part partDue partOwn f g)
    (h : Settles part partDue partOwn R (f s)) :
    SettlesOn step due own (fun l => (g l).isSome) (fun s => R (f s)) s := by
  have hdue : ∀ {tr}, Along due tr → Along partDue (projectTrace f g tr) :=
    fun hall => along_projectTrace hall fun _ _ _ hl => (hp.due hl).mp
  constructor
  · intro hnot
    obtain ⟨b, a, hown, hb, ha⟩ := h.live hnot
    obtain ⟨l, t, hl, hstep⟩ := hp.lift ha
    exact ⟨l, t, by simp [hl], (hp.own hl).mpr hown, (hp.due hl).mpr hb, hstep⟩
  · obtain ⟨n, hn⟩ := h.finite
    refine ⟨n, fun hrun hall => ?_⟩
    rw [← length_projectTrace]
    exact hn (hp.run hrun) (hdue hall)
  · intro tr t hrun hall hstopped
    exact h.ends (hp.run hrun) (hdue hall) (hp.stopped hstopped)

theorem countP_or_le {γ : Type*} (p q : γ → Bool) (xs : List γ) :
    (xs.countP fun x => p x || q x) ≤ xs.countP p + xs.countP q := by
  induction xs with
  | nil => simp
  | cons x xs ih =>
      simp only [List.countP_cons]
      cases p x <;> cases q x <;> simp <;> omega

/-- Two kinds of steps come to an end together. -/
theorem SettlesOn.and (h : SettlesOn step due own kind P s)
    (h' : SettlesOn step due own kind' P' s) :
    SettlesOn step due own (fun l => kind l || kind' l) (fun s => P s ∧ P' s) s := by
  constructor
  · intro hnot
    by_cases hP : P s
    · obtain ⟨l, t, hl, hrest⟩ := h'.live fun hP' => hnot ⟨hP, hP'⟩
      exact ⟨l, t, by simp [hl], hrest⟩
    · obtain ⟨l, t, hl, hrest⟩ := h.live hP
      exact ⟨l, t, by simp [hl], hrest⟩
  · obtain ⟨n, hn⟩ := h.finite
    obtain ⟨m, hm⟩ := h'.finite
    refine ⟨n + m, fun {tr t} hrun hall => ?_⟩
    have hboth := countP_or_le (fun p : σ × ℓ => kind p.2) (fun p => kind' p.2) tr
    exact Nat.le_trans hboth (Nat.add_le_add (hn hrun hall) (hm hrun hall))
  · intro tr t hrun hall hstopped
    constructor
    · exact h.ends hrun hall fun l u hl => hstopped l u (by simp [hl])
    · exact h'.ends hrun hall fun l u hl => hstopped l u (by simp [hl])

/-- A system settles if all of its steps come to an end. -/
theorem SettlesOn.settles (h : SettlesOn step due own kind P s)
    (hkind : ∀ l, kind l = true) (hP : ∀ {s}, P s ↔ P' s) : Settles step due own P' s := by
  constructor
  · intro hnot
    obtain ⟨l, t, -, hown, hdue, hstep⟩ := h.live fun hs => hnot (hP.mp hs)
    exact ⟨l, t, hown, hdue, hstep⟩
  · obtain ⟨n, hn⟩ := h.finite
    refine ⟨n, fun hrun hall => ?_⟩
    rw [← List.countP_eq_length.mpr fun p _ => hkind p.2]
    exact hn hrun hall
  · intro tr t hrun hall hstopped
    exact hP.mp (h.ends hrun hall fun l u _ => hstopped l u)

end Parts

end WebTransport.Support
