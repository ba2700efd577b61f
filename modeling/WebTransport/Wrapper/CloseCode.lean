import WebTransport.Wrapper.Exclusion
import WebTransport.Wrapper.Closes
import WebTransport.Wrapper.Token

/-!
# Which code is sent

The code of a close call travels through a shared atomic to whichever
interrupted operation gets the mutex first, and an exit sends `0` of its own.
This module proves that the code of the accepted call is the one sent as long as
the atomic still holds it at each load, and no exit with another code comes
first.
-/

namespace WebTransport.Wrapper

open Support

variable {Op Loc Ret Ev Vars Knob : Type}

/-- The next step of the task puts no other code than `code` on its way: a
cancel branch that loads the atomic finds `code` there, and an exit that has the
guard to close the stream closes it with `code`. -/
def Half.carries (H : Half Op Loc Ret Ev Vars Knob) (code : UInt32)
    (sh : Shared Ev Vars) : Task Op Loc Ret → Bool
  | .call _ .closeHeld => sh.code = code
  | .exit b .held => (b || H.exitCloses) → code = 0
  | _ => true

/-- The condition on a step under which the code of an accepted close is kept,
where `n` closes came before the call. -/
def Half.Carried (H : Half Op Loc Ret Ev Vars Knob) (code : UInt32) (n : ℕ)
    (w : World Op Loc Ret Ev Vars Knob) : Action Op Ev Knob → Prop
  | .task i _ => (H.closes w.log).length = n →
      (w.tasks[i]?.all (H.carries code w.toShared)) = true
  | _ => True

instance (H : Half Op Loc Ret Ev Vars Knob) (code : UInt32) (n : ℕ)
    (w : World Op Loc Ret Ev Vars Knob) :
    (l : Action Op Ev Knob) → Decidable (H.Carried code n w l)
  | .task _ _ => inferInstanceAs (Decidable (_ = _ → _ = _))
  | .call _ | .exit _ | .close _ | .assign _ | .python _ | .drop _ =>
      inferInstanceAs (Decidable True)

/-- The code of an accepted close is the one sent, in the runs whose steps meet
`K`: when `close(c)` begins on a stream whose token is unset, then after its
return the first close since the beginning of the call, if there is one, carries
`c`. -/
def Half.CodeKept (H : Half Op Loc Ret Ev Vars Knob) (Q : Answers Ev)
    (vars : Vars)
    (K : UInt32 → ℕ → World Op Loc Ret Ev Vars Knob → Action Op Ev Knob → Prop) :
    Prop :=
  ∀ ⦃w w₁ w₂ : World Op Loc Ret Ev Vars Knob⦄ ⦃c tr⦄,
    Reachable (H.Step Q) (World.init vars) w → w.cancelled = false →
    H.Step Q w (.close c) w₁ → Run (H.Step Q) w₁ tr w₂ →
    Along (K c (H.closes w.log).length) tr → w₂.python.inClose = false →
    H.closes w₂.log = H.closes w.log ∨
      ∃ rest, H.closes w₂.log = H.closes w.log ++ c :: rest

/-! ## The code on its way -/

/-- Where the Python thread is in the accepted call: it has the code in hand,
or it has left the call with the token set. -/
def Python.Sends (code : UInt32) (cancelled : Bool) : Python Knob → Prop
  | .tested c | .stored c => c = code
  | .cancelled c | .locked c => c = code ∧ cancelled = true
  | _ => cancelled = true

/-- Nothing has been sent since the call began, and every code that is on its
way to the QUIC stream is the one of the call. -/
structure Half.Underway (H : Half Op Loc Ret Ev Vars Knob) (code : UInt32)
    (before : List UInt32) (w : World Op Loc Ret Ev Vars Knob) : Prop where
  unsent : H.closes w.log = before
  loaded : ∀ (i : ℕ) (t : Task Op Loc Ret), w.tasks[i]? = some t →
    ∀ op c, t = .call op (.closeLoaded c) → c = code
  python : w.python.Sends code w.cancelled

section Code

variable {H : Half Op Loc Ret Ev Vars Knob} {Q : Answers Ev} {i : ℕ}
  {sh sh' : Shared Ev Vars} {t t' : Task Op Loc Ret} {py py' : Python Knob}
  {ans : Option Ev} {w w' : World Op Loc Ret Ev Vars Knob}
  {l : Action Op Ev Knob} {code c : UInt32} {before : List UInt32}

theorem PythonMove.keeps_sends (h : PythonMove H sh py ans py' sh')
    (hpy : py.Sends code sh.cancelled) : py'.Sends code sh'.cancelled := by
  cases h with
  | stores c => exact hpy
  | cancels c => exact ⟨hpy, rfl⟩
  | locks c => exact hpy
  | defers c => exact hpy.2
  | sends c => exact hpy.2
  | _ => exact hpy

theorem Python.Sends.mono (h : py.Sends code sh.cancelled)
    (hc : sh.cancelled = true → sh'.cancelled = true) :
    py.Sends code sh'.cancelled := by
  cases py with
  | tested c => exact h
  | stored c => exact h
  | cancelled c => exact ⟨h.1, hc h.2⟩
  | locked c => exact ⟨h.1, hc h.2⟩
  | _ => exact hc h

theorem TaskMove.loads (h : TaskMove H i sh t ans t' sh') {op : Op}
    (ht : t' = .call op (.closeLoaded c)) :
    t = .call op .closeHeld ∧ c = sh.code := by
  cases h with
  | call op h =>
      cases h with
      | closeLoads => cases ht; exact ⟨rfl, rfl⟩
      | works l ans vars beat => cases beat <;> cases ht
      | _ => cases ht
  | exit b h => cases ht

theorem DropMove.not_loaded (h : DropMove H i sh t t' sh') {op : Op} :
    t' ≠ .call op (.closeLoaded c) := by
  cases h <;> simp

/-- One step under the condition sends the code of the call, or keeps
everything on its way. -/
theorem underway_step (h : H.Step Q w l w')
    (hK : H.Carried code before.length w l) (hw : H.Underway code before w) :
    H.Underway code before w' ∨ H.closes w'.log = before ++ [code] := by
  have hlength : (H.closes w.log).length = before.length := by rw [hw.unsent]
  cases h.move with
  | call op =>
      refine Or.inl ⟨hw.unsent, ?_, hw.python⟩
      exact forall_getElem?_concat (fun _ _ h => by cases h) hw.loaded
  | exit b =>
      refine Or.inl ⟨hw.unsent, ?_, hw.python⟩
      exact forall_getElem?_concat (fun _ _ h => by cases h) hw.loaded
  | closeRefused => exact Or.inl hw
  | closeBegins c hpy hc =>
      -- after the call the token is set, so no second call is accepted
      have hset := hw.python
      rw [hpy] at hset
      exact absurd (hc.symm.trans hset) (by simp)
  | assigns k hpy =>
      have hset := hw.python
      rw [hpy] at hset
      exact Or.inl ⟨hw.unsent, hw.loaded, hset⟩
  | python ans hm =>
      rcases hm.closes_cases with heq | ⟨c, hpy, -, hsends⟩
      · exact Or.inl ⟨heq.trans hw.unsent, hw.loaded, hm.keeps_sends hw.python⟩
      · have hcode := hw.python
        rw [hpy] at hcode
        rw [hcode.1, hw.unsent] at hsends
        exact Or.inr hsends
  | task i ans hi hm =>
      have hcarries := hK hlength
      rw [hi, Option.all_some] at hcarries
      rcases hm.closes_cases with heq | ⟨op, c, ht, hsends⟩ | ⟨b, ht, hb, hsends⟩
      · refine Or.inl ⟨heq.trans hw.unsent, ?_, hw.python.mono hm.cancelled⟩
        refine forall_getElem?_set ?_ fun j u _ => hw.loaded j u
        intro op c ht'
        obtain ⟨rfl, rfl⟩ := hm.loads ht'
        simpa [Half.carries] using hcarries
      · have hcode : c = code := hw.loaded i _ hi op c ht
        rw [hcode, hw.unsent] at hsends
        exact Or.inr hsends
      · subst ht
        have hcode : code = 0 := by simpa [Half.carries, hb] using hcarries
        rw [← hcode, hw.unsent] at hsends
        exact Or.inr hsends
  | drop i hi hm =>
      refine Or.inl ⟨hm.closes_eq.trans hw.unsent, ?_, hw.python.mono hm.cancelled⟩
      exact forall_getElem?_set (fun _ _ ht => absurd ht hm.not_loaded)
        fun j u _ => hw.loaded j u

theorem underway_of_accepted {vars : Vars}
    (hw : Reachable (H.Step Q) (World.init vars) w) (hc : w.cancelled = false)
    (h : H.Step Q w (.close code) w') : H.Underway code (H.closes w.log) w' := by
  cases h.move with
  | closeRefused code hpy hset =>
      rw [hc] at hset
      cases hset
  | closeBegins code hpy =>
      refine ⟨rfl, fun i t hi op c ht => ?_, rfl⟩
      have hset := cancelled_of_inCancelBranch hw hi (by rw [ht]; rfl)
      rw [hc] at hset
      cases hset

theorem codeKept_of_carried (vars : Vars) :
    H.CodeKept Q vars H.Carried := by
  intro w w₁ w₂ code tr hreach hc hbegin hrun hall _
  have hstart := underway_of_accepted hreach hc hbegin
  have hlast : H.Underway code (H.closes w.log) w₂ ∨
      H.closes w.log ++ [code] <+: H.closes w₂.log := by
    refine hrun.invariant (I := fun u => H.Underway code (H.closes w.log) u ∨
      H.closes w.log ++ [code] <+: H.closes u.log) ?_ hall (Or.inl hstart)
    rintro u l u' hK hstep (hu | hsent)
    · rcases underway_step hstep hK hu with hkeep | hsends
      · exact Or.inl hkeep
      · exact Or.inr (hsends ▸ List.prefix_rfl)
    · exact Or.inr (hsent.trans (closes_mono hstep.log_isPrefix))
  rcases hlast with hunsent | ⟨rest, hrest⟩
  · exact Or.inl hunsent.unsent
  · exact Or.inr ⟨rest, by simpa using hrest.symm⟩

/-! ## The condition leaves out only wrong codes -/

/-- A cancel branch that has loaded another code holds the guard until it has
sent it. -/
theorem sends_of_loaded {vars : Vars}
    (hreach : Reachable (H.Step Q) (World.init vars) w) (h : H.Step Q w l w')
    {op : Op} (hi : w.tasks[i]? = some (.call op (.closeLoaded c))) :
    (w'.tasks[i]? = some (.call op (.closeLoaded c)) ∧
      H.closes w'.log = H.closes w.log) ∨
    H.closes w'.log = H.closes w.log ++ [c] := by
  have hx : Exclusive w := exclusive_of_reachable hreach
  by_cases hl : ∃ ans, l = .task i ans
  · obtain ⟨ans, rfl⟩ := hl
    cases h.move with
    | task i ans hj hm =>
        obtain rfl := Option.some.inj (hi.symm.trans hj)
        cases hm with
        | call op hm =>
            cases hm with
            | closeSends code e he => exact Or.inr (closes_record he)
  · by_cases hd : l = .drop i
    · subst hd
      cases h.move with
      | drop i hj hm =>
          obtain rfl := Option.some.inj (hi.symm.trans hj)
          cases hm
    · obtain ⟨hkeep, hlog⟩ :=
        hx.frame h hi rfl (fun ans h => hl ⟨ans, h⟩) hd
      exact Or.inl ⟨hkeep, by rw [hlog]⟩

/-- A step that does not meet the condition puts another code on its way, and
that code is the first one sent. -/
theorem wrongCode_of_not_carried {vars : Vars} {n : ℕ}
    (hreach : Reachable (H.Step Q) (World.init vars) w) (h : H.Step Q w l w')
    (hK : ¬ H.Carried code n w l) :
    ∃ c, c ≠ code ∧ ∀ u, Reachable (H.Step Q) w' u →
      H.closes u.log = H.closes w.log ∨
        H.closes w.log ++ [c] <+: H.closes u.log := by
  cases h.move with
  | task i ans hi hm =>
      obtain ⟨-, hcarries⟩ := Classical.not_imp.mp hK
      rw [hi, Option.all_some] at hcarries
      cases hm with
      | call op hm =>
          cases hm with
          | closeLoads =>
              refine ⟨w.code, by simpa [Half.carries] using hcarries, ?_⟩
              rintro u ⟨tr, hrun⟩
              have hstart := hreach.tail h
              have hlast : Reachable (H.Step Q) (World.init vars) u ∧
                  ((u.tasks[i]? = some (.call op (.closeLoaded w.code)) ∧
                    H.closes u.log = H.closes w.log) ∨
                  H.closes w.log ++ [w.code] <+: H.closes u.log) := by
                refine hrun.reachable.invariant
                  (I := fun u => Reachable (H.Step Q) (World.init vars) u ∧
                    ((u.tasks[i]? = some (.call op (.closeLoaded w.code)) ∧
                      H.closes u.log = H.closes w.log) ∨
                    H.closes w.log ++ [w.code] <+: H.closes u.log))
                  ?_ ⟨hstart, Or.inl ⟨getElem?_set_of_eq_some hi, rfl⟩⟩
                rintro v l v' hstep ⟨hv, ⟨hloaded, heq⟩ | hsent⟩
                · refine ⟨hv.tail hstep, ?_⟩
                  rw [← heq]
                  rcases sends_of_loaded hv hstep hloaded with hkeep | hsends
                  · exact Or.inl hkeep
                  · exact Or.inr (hsends ▸ List.prefix_rfl)
                · exact ⟨hv.tail hstep,
                    Or.inr (hsent.trans (closes_mono hstep.log_isPrefix))⟩
              exact hlast.2.imp (fun hkeep => hkeep.2) id
          | _ => simp [Half.carries] at hcarries
      | exit b hm =>
          have hne : (0 : UInt32) ≠ code := by
            rintro rfl
            cases hm <;> simp [Half.carries] at hcarries
          cases hm with
          | sendsClose b e hb he =>
              refine ⟨0, hne, fun u hu => Or.inr ?_⟩
              rw [← closes_record he]
              exact closes_mono (log_isPrefix_of_reachable hu)
          | sendsFinish b e hb he => simp [Half.carries, hb] at hcarries
          | _ => simp [Half.carries] at hcarries
  | _ => exact absurd trivial hK

end Code

end WebTransport.Wrapper
