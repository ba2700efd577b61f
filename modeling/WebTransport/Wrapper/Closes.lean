import WebTransport.Wrapper.Moves

/-!
# Which steps close the QUIC stream

The codes of the abrupt closes in the list of calls, and how a step can change
them: only a cancel branch, an exit and the Python thread ever add one.
-/

namespace WebTransport.Wrapper

open Support

variable {Op Loc Ret Ev Vars Knob : Type}

/-- The codes with which the QUIC stream has been closed, oldest first. -/
def Half.closes (H : Half Op Loc Ret Ev Vars Knob) (log : List Ev) :
    List UInt32 :=
  log.filterMap H.closeCode

section Log

variable {H : Half Op Loc Ret Ev Vars Knob} {sh : Shared Ev Vars}
  {log log' evs : List Ev} {e : Ev} {code : UInt32}

theorem closes_append :
    H.closes (log ++ log') = H.closes log ++ H.closes log' := by
  simp [Half.closes]

theorem closes_mono (h : log <+: log') : H.closes log <+: H.closes log' :=
  h.filterMap _

theorem closes_ne_nil_mono (h : log <+: log') (hne : H.closes log ≠ []) :
    H.closes log' ≠ [] := by
  intro hnil
  have hpre := closes_mono (H := H) h
  rw [hnil] at hpre
  exact hne (List.prefix_nil.mp hpre)

theorem closes_record (he : H.closeCode e = some code) :
    H.closes (sh.record [e]).log = H.closes sh.log ++ [code] := by
  rw [Shared.record, closes_append]
  simp [Half.closes, he]

theorem closes_record_of_not_close (h : ∀ e ∈ evs, H.closeCode e = none) :
    H.closes (sh.record evs).log = H.closes sh.log := by
  have hnil : H.closes evs = [] := by
    simpa [Half.closes, List.filterMap_eq_nil_iff] using h
  rw [Shared.record, closes_append, hnil, List.append_nil]

end Log

section Moves

variable {H : Half Op Loc Ret Ev Vars Knob} {i : ℕ} {sh sh' : Shared Ev Vars}
  {t t' : Task Op Loc Ret} {py py' : Python Knob} {ans : Option Ev}

theorem closes_works {op : Op} {loc : Loc} {vars : Vars} {beat : Beat Loc Ret}
    (hb : H.body op loc sh.vars ans = some (vars, beat)) :
    H.closes (sh.record ans.toList).log = H.closes sh.log := by
  refine closes_record_of_not_close fun e he => ?_
  obtain rfl : ans = some e := by simpa using he
  exact H.body_closeCode _ _ _ _ _ hb

theorem closes_letsGo {op : Op} (loc : Option Loc) :
    H.closes (sh.record (loc.elim [] (H.dropped op))).log = H.closes sh.log := by
  refine closes_record_of_not_close fun e he => ?_
  cases loc with
  | none => cases he
  | some loc => exact H.dropped_closeCode _ _ _ he

/-- A step of a task closes nothing, or it is the step of a cancel branch that
sends the code it has loaded, or that of an exit that sends `0`. -/
theorem TaskMove.closes_cases (h : TaskMove H i sh t ans t' sh') :
    H.closes sh'.log = H.closes sh.log ∨
    (∃ op code, t = .call op (.closeLoaded code) ∧
      H.closes sh'.log = H.closes sh.log ++ [code]) ∨
    (∃ b, t = .exit b .held ∧ (b || H.exitCloses) = true ∧
      H.closes sh'.log = H.closes sh.log ++ [0]) := by
  cases h with
  | call op h =>
      cases h with
      | works l ans vars beat hb => exact Or.inl (closes_works hb)
      | letsGo l => exact Or.inl (closes_letsGo l)
      | closeSends code e he =>
          exact Or.inr (Or.inl ⟨op, code, rfl, closes_record he⟩)
      | _ => exact Or.inl rfl
  | exit b h =>
      cases h with
      | sendsClose b e hb he =>
          exact Or.inr (Or.inr ⟨b, rfl, hb, closes_record he⟩)
      | sendsFinish b e hb he =>
          refine Or.inl (closes_record_of_not_close fun e' he' => ?_)
          rw [List.mem_singleton.mp he']
          exact H.finish_closeCode e he
      | _ => exact Or.inl rfl

theorem DropMove.closes_eq (h : DropMove H i sh t t' sh') :
    H.closes sh'.log = H.closes sh.log := by
  cases h with
  | callSuspended op l =>
      exact closes_record_of_not_close (H.dropped_closeCode op l)
  | _ => rfl

theorem PythonMove.closes_cases (h : PythonMove H sh py ans py' sh') :
    H.closes sh'.log = H.closes sh.log ∨
    (∃ code, py = .locked code ∧ py' = .sent code ∧
      H.closes sh'.log = H.closes sh.log ++ [code]) := by
  cases h with
  | sends code e he => exact Or.inr ⟨code, rfl, rfl, closes_record he⟩
  | applies k e he =>
      refine Or.inl (closes_record_of_not_close fun e' he' => ?_)
      rw [List.mem_singleton.mp he']
      exact H.apply_closeCode k e he
  | _ => exact Or.inl rfl

end Moves

end WebTransport.Wrapper
