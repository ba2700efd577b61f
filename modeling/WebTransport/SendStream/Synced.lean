import WebTransport.SendStream.Model
import WebTransport.Wrapper.Exclusion

/-!
# The priority that is in step with the stream

`synced_priority` is the value last passed to the QUIC stream, except between a
call of `set_priority` and the store behind it; and there, whoever has made the
call has the mutex.
-/

namespace WebTransport.SendStream

open Support Wrapper

/-- The value that a call passes to the QUIC stream. -/
def Event.passed : Event → Option Int32
  | .setPriority p _ => some p
  | _ => none

/-- The priority last passed to a QUIC stream of the given priority. -/
def lastPassed (priority : Int32) (log : List Event) : Int32 :=
  (log.filterMap Event.passed).getLastD priority

section Last

variable {priority : Int32} {log : List Event} {e : Event}

theorem getLastD_filterMap_concat {α β : Type} (f : α → Option β) (xs : List α)
    (x : α) (b : β) : ((xs ++ [x]).filterMap f).getLastD b =
      (f x).getD ((xs.filterMap f).getLastD b) := by
  cases hx : f x <;> simp [List.filterMap_append, hx]

@[simp] theorem lastPassed_concat :
    lastPassed priority (log ++ [e]) = e.passed.getD (lastPassed priority log) :=
  getLastD_filterMap_concat Event.passed log e priority

end Last

/-! ## `synced_priority` -/

/-- The value that a task has passed to the QUIC stream and is about to store in
`synced_priority`. -/
def storing : Task Op Loc Ret → Option Int32
  | .call _ (.running (.storeSynced d)) => some d
  | _ => none

def Storing (w : World) (d : Int32) : Prop :=
  (∃ (i : ℕ) (t : Task Op Loc Ret), w.tasks[i]? = some t ∧ storing t = some d) ∨
    w.python = .applied d

/-- A body suspends in its own call only. -/
def SuspendsInCall (t : Task Op Loc Ret) : Prop :=
  ∀ op l, t = .call op (.suspended l) → ∃ sent, l = .call sent

/-- `synced_priority` is the value last passed, up to the store of one that has
just been passed. -/
structure Synced (priority : Int32) (w : World) : Prop where
  suspended : ∀ (i : ℕ) (t : Task Op Loc Ret), w.tasks[i]? = some t →
    SuspendsInCall t
  storing : ∀ d, Storing w d → lastPassed priority w.log = d
  rest : (∀ d, ¬ Storing w d) → w.vars.syncedPriority = lastPassed priority w.log

section Synced

variable {errorFromHttp3 : ErrorFromHttp3} {Q : Answers Event} {i : ℕ}
  {sh sh' : Shared Event Priorities} {t t' : Task Op Loc Ret}
  {ans : Option Event} {w w' : World} {l : Action Op Event Int32}
  {priority d : Int32}

theorem holds_of_storing (h : storing t = some d) : t.holds = true := by
  unfold storing at h
  split at h
  · rfl
  · cases h

theorem storing_iff_of_holds (hx : Exclusive w) (hi : w.tasks[i]? = some t)
    (ht : t.holds = true) : Storing w d ↔ storing t = some d := by
  constructor
  · rintro (⟨j, u, hj, hu⟩ | hpy)
    · obtain rfl := hx.eq_of_holds hi hj ht (holds_of_storing hu)
      rw [hi] at hj
      cases hj
      exact hu
    · have hpython : w.Owns .python := hx.python (by rw [hpy]; rfl)
      exact absurd (hpython.unique (hx.task i t hi ht)) (by simp)
  · exact fun h => Or.inl ⟨i, t, hi, h⟩

theorem storing_iff_of_python (hx : Exclusive w) (hpy : w.python.holds = true) :
    Storing w d ↔ w.python = .applied d := by
  refine ⟨?_, Or.inr⟩
  rintro (⟨i, t, hi, ht⟩ | h)
  · have htask : w.Owns (.task i) := hx.task i t hi (holds_of_storing ht)
    exact absurd (htask.unique (hx.python hpy)) (by simp)
  · exact h

/-- A task passes a value, stores the one that it has passed, or does neither. -/
theorem storing_of_taskMove (priority : Int32)
    (h : TaskMove (half errorFromHttp3) i sh t ans t' sh')
    (hsus : SuspendsInCall t) :
    (∃ d, t'.holds = true ∧ storing t' = some d ∧ lastPassed priority sh'.log = d) ∨
    (∃ d, storing t = some d ∧ t'.holds = true ∧ storing t' = none ∧
      sh'.vars.syncedPriority = d ∧
      lastPassed priority sh'.log = lastPassed priority sh.log) ∨
    (storing t = none ∧ storing t' = none ∧
      sh'.vars.syncedPriority = sh.vars.syncedPriority ∧
      lastPassed priority sh'.log = lastPassed priority sh.log) := by
  rw [log_of_taskMove h]
  cases h with
  | call op h =>
      cases h with
      | works loc ans vars beat hb =>
          cases bodyMove_of_body hb with
          | applies op desired ok =>
              exact Or.inl ⟨desired, rfl, rfl, by simp [Event.passed]⟩
          | storesSynced op desired =>
              exact Or.inr (Or.inl ⟨desired, rfl, rfl, rfl, rfl, by simp⟩)
          | _ =>
              exact Or.inr (Or.inr ⟨rfl, rfl, rfl, by simp [Event.passed]⟩)
      | suspendedUnset loc hc =>
          obtain ⟨sent, rfl⟩ := hsus op loc rfl
          exact Or.inr (Or.inr ⟨rfl, rfl, rfl, by simp⟩)
      | closeSends code e he =>
          obtain ⟨ok, rfl⟩ := eq_reset_of_closeCode he
          exact Or.inr (Or.inr ⟨rfl, rfl, rfl, by simp [Event.passed]⟩)
      | _ => exact Or.inr (Or.inr ⟨rfl, rfl, rfl, by simp⟩)
  | exit b h =>
      refine Or.inr (Or.inr ⟨rfl, rfl, ?_⟩)
      cases h with
      | sendsClose b e hb he =>
          obtain ⟨ok, rfl⟩ := eq_reset_of_closeCode he
          exact ⟨rfl, by simp [Event.passed]⟩
      | sendsFinish b e hb he =>
          obtain ⟨ok, rfl⟩ := eq_finish_of_isFinish he
          exact ⟨rfl, by simp [Event.passed]⟩
      | _ => exact ⟨rfl, by simp⟩

theorem suspendsInCall_of_taskMove
    (h : TaskMove (half errorFromHttp3) i sh t ans t' sh') : SuspendsInCall t' := by
  rintro op l rfl
  cases h with
  | call op h =>
      generalize hpc : (CallPc.suspended l : CallPc Loc Ret) = pc at h
      cases h with
      | works loc ans vars beat hb =>
          cases bodyMove_of_body hb <;> cases hpc <;> exact ⟨_, rfl⟩
      | _ => cases hpc

/-- Python passes a value, stores the one that it has passed, or does neither. -/
theorem storing_of_pythonMove (priority : Int32) {py py' : Python Int32}
    (h : PythonMove (half errorFromHttp3) sh py ans py' sh') :
    (∃ d, py'.holds = true ∧ py' = .applied d ∧ lastPassed priority sh'.log = d) ∨
    (∃ d, py = .applied d ∧ py'.holds = true ∧ (∀ k, py' ≠ .applied k) ∧
      sh'.vars.syncedPriority = d ∧
      lastPassed priority sh'.log = lastPassed priority sh.log) ∨
    ((∀ k, py ≠ .applied k) ∧ (∀ k, py' ≠ .applied k) ∧
      sh'.vars.syncedPriority = sh.vars.syncedPriority ∧
      lastPassed priority sh'.log = lastPassed priority sh.log) := by
  rw [log_of_pythonMove h]
  cases h with
  | applies k e he =>
      obtain ⟨ok, rfl⟩ := eq_setPriority_of_isApply he
      exact Or.inl ⟨k, rfl, rfl, by simp [Event.passed]⟩
  | records k => exact Or.inr (Or.inl ⟨k, rfl, rfl, by simp, rfl, by simp⟩)
  | sends code e he =>
      obtain ⟨ok, rfl⟩ := eq_reset_of_closeCode he
      exact Or.inr (Or.inr ⟨by simp, by simp, rfl, by simp [Event.passed]⟩)
  | _ => exact Or.inr (Or.inr ⟨by simp, by simp, rfl, by simp⟩)

theorem storing_set (hi : w.tasks[i]? = some t) (ht : storing t = none)
    (ht' : storing t' = none) :
    Storing { w with toShared := sh, tasks := w.tasks.set i t' } d ↔ Storing w d := by
  refine or_congr_left ⟨?_, ?_⟩
  · rintro ⟨j, u, hj, hu⟩
    by_cases hij : i = j
    · subst hij
      rw [getElem?_set_of_eq_some hi] at hj
      cases hj
      rw [ht'] at hu
      cases hu
    · rw [List.getElem?_set_ne hij] at hj
      exact ⟨j, u, hj, hu⟩
  · rintro ⟨j, u, hj, hu⟩
    have hij : i ≠ j := by
      rintro rfl
      rw [hi] at hj
      cases hj
      rw [ht] at hu
      cases hu
    exact ⟨j, u, getElem?_set_of_ne hij hj, hu⟩

theorem storing_concat (ht : storing t = none) :
    Storing { w with tasks := w.tasks ++ [t] } d ↔ Storing w d := by
  refine or_congr_left ⟨?_, ?_⟩
  · rintro ⟨j, u, hj, hu⟩
    rcases List.mem_append.mp (List.mem_of_getElem? hj) with hmem | hmem
    · obtain ⟨k, hk⟩ := List.getElem?_of_mem hmem
      exact ⟨k, u, hk, hu⟩
    · obtain rfl := List.mem_singleton.mp hmem
      rw [ht] at hu
      cases hu
  · rintro ⟨j, u, hj, hu⟩
    exact ⟨j, u, getElem?_concat_of_eq_some hj, hu⟩

theorem Synced.frame (hw : Synced priority w)
    (hsus : ∀ (i : ℕ) (t : Task Op Loc Ret), w'.tasks[i]? = some t →
      SuspendsInCall t)
    (hstoring : ∀ d, Storing w' d ↔ Storing w d)
    (hsynced : w'.vars.syncedPriority = w.vars.syncedPriority)
    (hlast : lastPassed priority w'.log = lastPassed priority w.log) :
    Synced priority w' where
  suspended := hsus
  storing d hd := hlast.trans (hw.storing d ((hstoring d).mp hd))
  rest hnone := by
    rw [hsynced, hlast]
    exact hw.rest fun d hd => hnone d ((hstoring d).mpr hd)

theorem Synced.pass
    (hsus : ∀ (i : ℕ) (t : Task Op Loc Ret), w'.tasks[i]? = some t →
      SuspendsInCall t)
    (hstoring : ∀ k, Storing w' k ↔ k = d) (hlast : lastPassed priority w'.log = d) :
    Synced priority w' where
  suspended := hsus
  storing k hk := hlast.trans ((hstoring k).mp hk).symm
  rest hnone := absurd ((hstoring d).mpr rfl) (hnone d)

theorem Synced.store (hw : Synced priority w)
    (hsus : ∀ (i : ℕ) (t : Task Op Loc Ret), w'.tasks[i]? = some t →
      SuspendsInCall t)
    (hbefore : Storing w d) (hafter : ∀ k, ¬ Storing w' k)
    (hsynced : w'.vars.syncedPriority = d)
    (hlast : lastPassed priority w'.log = lastPassed priority w.log) :
    Synced priority w' where
  suspended := hsus
  storing k hk := absurd hk (hafter k)
  rest _ := by rw [hsynced, hlast, hw.storing d hbefore]

theorem suspendsInCall_step (h : (half errorFromHttp3).Step Q w l w')
    (hw : ∀ (i : ℕ) (t : Task Op Loc Ret), w.tasks[i]? = some t → SuspendsInCall t) :
    ∀ (i : ℕ) (t : Task Op Loc Ret), w'.tasks[i]? = some t → SuspendsInCall t := by
  refine h.forall_tasks (P := fun _ t => SuspendsInCall t)
    (R := fun _ t => SuspendsInCall t) ?_ ?_ ?_ ?_ (fun _ _ _ _ _ ht => ht) hw
  · rintro op op' l ⟨⟩
  · rintro b op' l ⟨⟩
  · intro i ans t t' _ _ hm _
    exact suspendsInCall_of_taskMove hm
  · rintro i t t' _ _ hm _ op l rfl
    cases hm

theorem synced_step (hx : Exclusive w) (h : (half errorFromHttp3).Step Q w l w')
    (hw : Synced priority w) : Synced priority w' := by
  have hx' : Exclusive w' := exclusive_step h hx
  have hsus := suspendsInCall_step h hw.suspended
  cases h.move with
  | call op | exit b =>
      exact hw.frame hsus (fun d => storing_concat rfl) rfl rfl
  | closeRefused => exact hw
  | closeBegins code hpy hc =>
      exact hw.frame hsus (fun d => by simp [Storing, hpy]) rfl rfl
  | assigns k hpy =>
      exact hw.frame hsus (fun d => by simp [Storing, hpy]) rfl rfl
  | python ans hm =>
      rcases storing_of_pythonMove priority hm with
        ⟨d, hholds, hafter, hlast⟩ | ⟨d, hbefore, hholds, hafter, hsynced, hlast⟩ |
        ⟨hbefore, hafter, hsynced, hlast⟩
      · refine Synced.pass hsus (fun k => ?_) hlast
        rw [storing_iff_of_python hx' hholds]
        simp [hafter, eq_comm]
      · refine hw.store hsus (Or.inr hbefore) (fun k => ?_) hsynced hlast
        rw [storing_iff_of_python hx' hholds]
        exact hafter k
      · exact hw.frame hsus (fun d => by simp [Storing, hbefore, hafter]) hsynced hlast
  | task i ans hi hm =>
      rcases storing_of_taskMove priority hm (hw.suspended i _ hi) with
        ⟨d, hholds, hafter, hlast⟩ | ⟨d, hbefore, hholds, hafter, hsynced, hlast⟩ |
        ⟨hbefore, hafter, hsynced, hlast⟩
      · refine Synced.pass hsus (fun k => ?_) hlast
        rw [storing_iff_of_holds hx' (getElem?_set_of_eq_some hi) hholds]
        simp [hafter, eq_comm]
      · refine hw.store hsus (Or.inl ⟨i, _, hi, hbefore⟩) (fun k => ?_) hsynced hlast
        rw [storing_iff_of_holds hx' (getElem?_set_of_eq_some hi) hholds]
        simp [hafter]
      · exact hw.frame hsus (fun d => storing_set hi hbefore hafter) hsynced hlast
  | drop i hi hm =>
      refine hw.frame hsus (fun d => storing_set hi ?_ ?_) ?_ ?_
      · cases hm <;> rfl
      · cases hm <;> rfl
      · cases hm <;> rfl
      · rw [log_of_dropMove hm]

theorem synced_of_reachable
    (h : Reachable ((half errorFromHttp3).Step Q) (new priority) w) :
    Synced priority w := by
  have hboth : Exclusive w ∧ Synced priority w := by
    refine h.invariant (I := fun w => Exclusive w ∧ Synced priority w) ?_
      ⟨exclusive_init _, ?_⟩
    · intro w l w' hstep hw
      exact ⟨exclusive_step hstep hw.1, synced_step hw.1 hstep hw.2⟩
    · refine ⟨fun i t hi => by simp [World.init] at hi, ?_, fun _ => rfl⟩
      rintro d (⟨i, t, hi, -⟩ | hpy)
      · simp [World.init] at hi
      · cases hpy
  exact hboth.2

/-- While nobody has the mutex, `synced_priority` is the value last passed. -/
theorem syncedPriority_of_unowned (hx : Exclusive w) (hw : Synced priority w)
    (hfree : w.lock.holder = none) :
    w.vars.syncedPriority = lastPassed priority w.log := by
  refine hw.rest fun d hd => ?_
  have hnot : ∀ o, ¬ w.Owns o := by simp [Shared.Owns, hfree]
  rcases hd with ⟨i, t, hi, ht⟩ | hpy
  · exact hnot _ (hx.task i t hi (holds_of_storing ht))
  · exact hnot _ (hx.python (by rw [hpy]; rfl))

theorem syncedPriority_of_holds (hx : Exclusive w) (hw : Synced priority w)
    (hi : w.tasks[i]? = some t) (ht : t.holds = true) (hnone : storing t = none) :
    w.vars.syncedPriority = lastPassed priority w.log := by
  refine hw.rest fun d => ?_
  rw [storing_iff_of_holds hx hi ht, hnone]
  simp

end Synced

end WebTransport.SendStream
