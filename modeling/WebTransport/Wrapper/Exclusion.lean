import WebTransport.Support.Indexed
import WebTransport.Wrapper.Moves

/-!
# Who has the guard

At most one task, or the Python thread, has the guard of the mutex, and only
the task that got it last is inside its own work.  These are the invariants
behind everything that is said about the order of the calls on the QUIC stream.
-/

namespace WebTransport.Wrapper

open Support

variable {Op Loc Ret Ev Vars Knob : Type}

/-! ## Classes of program points -/

/-- The task of the operation has the guard. -/
def CallPc.holds : CallPc Loc Ret → Bool
  | .running _ | .suspended _ | .built _ => true
  | .interrupted l => l.isSome
  | .closeHeld | .closeLoaded _ | .closeSent => true
  | _ => false

/-- The operation has the guard for its body. -/
def CallPc.inBody : CallPc Loc Ret → Bool
  | .running _ | .suspended _ | .built _ => true
  | .interrupted l => l.isSome
  | _ => false

def CallPc.beforeBody : CallPc Loc Ret → Bool
  | .spawned | .checked | .waiting => true
  | _ => false

def ExitPc.holds : ExitPc → Bool
  | .held | .sent => true
  | _ => false

def ExitPc.beforeBody : ExitPc → Bool
  | .spawned | .stored | .ready | .waiting => true
  | _ => false

/-- The task has the guard. -/
def Task.holds : Task Op Loc Ret → Bool
  | .call _ pc => pc.holds
  | .exit _ pc => pc.holds

def Task.inBody : Task Op Loc Ret → Bool
  | .call _ pc => pc.inBody
  | .exit _ pc => pc.holds

def Task.beforeBody : Task Op Loc Ret → Bool
  | .call _ pc => pc.beforeBody
  | .exit _ pc => pc.beforeBody

def Python.holds : Python Knob → Bool
  | .locked _ | .sent _ | .applying _ | .applied _ | .recorded => true
  | _ => false

theorem Task.holds_of_inBody {t : Task Op Loc Ret} (h : t.inBody = true) :
    t.holds = true := by
  cases t with
  | call op pc => cases pc <;> simp_all [Task.inBody, CallPc.inBody,
      Task.holds, CallPc.holds]
  | exit b pc => exact h

@[simp] theorem Beat.beforeBody_pc (beat : Beat Loc Ret) :
    beat.pc.beforeBody = false := by
  cases beat <;> rfl

/-! ## Ownership of the mutex -/

section Shared

variable {sh : Shared Ev Vars} {o o' : Owner} {i : ℕ} {evs : List Ev}

@[simp] theorem Shared.owns_record : (sh.record evs).Owns o ↔ sh.Owns o :=
  Iff.rfl

@[simp] theorem Shared.owns_enter : (sh.enter i).Owns o ↔ sh.Owns o :=
  Iff.rfl

theorem Shared.Owns.request (h : sh.Owns o) : (sh.request o').Owns o :=
  FifoLock.holder_request h

theorem Shared.Owns.leave (h : sh.Owns o) (hne : o ≠ o') :
    (sh.leave o').Owns o :=
  FifoLock.holder_leave h hne

theorem Shared.Owns.unique (h : sh.Owns o) (h' : sh.Owns o') : o = o' :=
  Option.some.inj (h.symm.trans h')

theorem Shared.not_owns_of_tryLock {lock : FifoLock Owner}
    (h : sh.lock.tryLock o' = some lock) : ¬ sh.Owns o := by
  intro ho
  have hmem := FifoLock.mem_line_of_holder ho
  rw [(FifoLock.tryLock_eq_some h).1] at hmem
  exact List.not_mem_nil hmem

end Shared

section Moves

variable {H : Half Op Loc Ret Ev Vars Knob} {i : ℕ} {sh sh' : Shared Ev Vars}
  {t t' : Task Op Loc Ret} {ans : Option Ev} {o : Owner}

theorem TaskMove.owns_self (h : TaskMove H i sh t ans t' sh')
    (hown : t.holds = true → sh.Owns (.task i)) (hholds : t'.holds = true) :
    sh'.Owns (.task i) := by
  cases h with
  | call op h =>
      cases h
      case enters ho => exact ho
      case closeLocks ho => exact ho
      case closeWakes ho => exact ho
      case suspendedSet => exact hown rfl
      case suspendedUnset => exact hown rfl
      case works => exact hown rfl
      case closeLoads => exact hown rfl
      case closeSends => exact hown rfl
      all_goals cases hholds
  | exit b h =>
      cases h
      case enters ho => exact ho
      case wakes ho => exact ho
      case sendsClose => exact hown rfl
      case sendsFinish => exact hown rfl
      all_goals cases hholds

theorem TaskMove.owns_other (h : TaskMove H i sh t ans t' sh')
    (ho : sh.Owns o) (hne : o ≠ .task i) : sh'.Owns o := by
  cases h with
  | call op h =>
      cases h
      case enters => exact ho.request
      case queues => exact ho.request
      case returns => exact ho.leave hne
      case letsGo => exact (Shared.owns_record.mpr ho).leave hne
      case closeLocks => exact ho.request
      case closeQueues => exact ho.request
      case closeReturns => exact ho.leave hne
      all_goals exact ho
  | exit b h =>
      cases h
      case enters => exact ho.request
      case queues => exact ho.request
      case returns => exact ho.leave hne
      all_goals exact ho

theorem DropMove.owns_other (h : DropMove H i sh t t' sh')
    (ho : sh.Owns o) (hne : o ≠ .task i) : sh'.Owns o := by
  cases h
  case callWaiting => exact ho.leave hne
  case callSuspended => exact (Shared.owns_record.mpr ho).leave hne
  case callCloseWaiting => exact ho.leave hne
  case exitWaiting => exact ho.leave hne
  all_goals exact ho

theorem DropMove.holds_eq_false (h : DropMove H i sh t t' sh') :
    t'.holds = false := by
  cases h <;> rfl

variable {py py' : Python Knob}

theorem PythonMove.owns_self (h : PythonMove H sh py ans py' sh')
    (hown : py.holds = true → sh.Owns .python) (hholds : py'.holds = true) :
    sh'.Owns .python := by
  cases h
  case locks hl => exact FifoLock.holder_tryLock hl
  case assignLocks hl => exact FifoLock.holder_tryLock hl
  case sends => exact hown rfl
  case applies => exact hown rfl
  case records => exact hown rfl
  all_goals cases hholds

theorem PythonMove.owns_other (h : PythonMove H sh py ans py' sh')
    (ho : sh.Owns o) (hne : o ≠ .python) : sh'.Owns o := by
  cases h
  case locks hl => exact absurd ho (Shared.not_owns_of_tryLock hl)
  case assignLocks hl => exact absurd ho (Shared.not_owns_of_tryLock hl)
  case returns => exact ho.leave hne
  case assignReturns => exact ho.leave hne
  all_goals exact ho

end Moves

/-! ## Mutual exclusion -/

/-- Whoever is at a point where the guard is held owns the mutex. -/
structure Exclusive (w : World Op Loc Ret Ev Vars Knob) : Prop where
  task : ∀ i t, w.tasks[i]? = some t → t.holds = true → w.Owns (.task i)
  python : w.python.holds = true → w.Owns .python

section Exclusive

variable {H : Half Op Loc Ret Ev Vars Knob} {Q : Answers Ev}
  {w w' : World Op Loc Ret Ev Vars Knob} {l : Action Op Ev Knob}

theorem exclusive_init (vars : Vars) :
    Exclusive (World.init vars : World Op Loc Ret Ev Vars Knob) where
  task i t hi := by simp [World.init] at hi
  python h := by cases h

theorem exclusive_step (h : H.Step Q w l w') (hw : Exclusive w) :
    Exclusive w' := by
  cases h.move with
  | call op =>
      refine ⟨?_, hw.python⟩
      exact forall_getElem?_concat (fun h => by cases h) hw.task
  | exit b =>
      refine ⟨?_, hw.python⟩
      exact forall_getElem?_concat (fun h => by cases h) hw.task
  | closeRefused => exact hw
  | closeBegins => exact ⟨hw.task, fun h => by cases h⟩
  | assigns => exact ⟨hw.task, fun h => by cases h⟩
  | python ans hm =>
      refine ⟨fun i t hi ht => ?_, hm.owns_self hw.python⟩
      exact hm.owns_other (hw.task i t hi ht) (by simp)
  | task i ans hi hm =>
      refine ⟨?_, fun h => hm.owns_other (hw.python h) (by simp)⟩
      refine forall_getElem?_set (hm.owns_self (hw.task i _ hi)) ?_
      intro j t hji hj ht
      exact hm.owns_other (hw.task j t hj ht) (by simpa using hji)
  | drop i hi hm =>
      refine ⟨?_, fun h => hm.owns_other (hw.python h) (by simp)⟩
      refine forall_getElem?_set ?_ ?_
      · intro ht
        rw [hm.holds_eq_false] at ht
        cases ht
      · intro j t hji hj ht
        exact hm.owns_other (hw.task j t hj ht) (by simpa using hji)

theorem exclusive_of_reachable {vars : Vars}
    (h : Reachable (H.Step Q) (World.init vars) w) : Exclusive w :=
  h.invariant (fun _ _ _ => exclusive_step) (exclusive_init vars)

theorem Exclusive.eq_of_holds (hw : Exclusive w) {i j : ℕ}
    {t t' : Task Op Loc Ret} (hi : w.tasks[i]? = some t)
    (hj : w.tasks[j]? = some t') (ht : t.holds = true) (ht' : t'.holds = true) :
    i = j := by
  simpa using (hw.task i t hi ht).unique (hw.task j t' hj ht')

end Exclusive

/-! ## Only the owner makes calls on the QUIC stream -/

section Calls

variable {H : Half Op Loc Ret Ev Vars Knob} {i : ℕ} {sh sh' : Shared Ev Vars}
  {t t' : Task Op Loc Ret} {ans : Option Ev} {py py' : Python Knob}

theorem TaskMove.log_eq (h : TaskMove H i sh t ans t' sh')
    (ht : t.holds = false) : sh'.log = sh.log := by
  cases h with
  | call op h =>
      cases h with
      | works => cases ht
      | closeSends => cases ht
      | letsGo l =>
          cases l with
          | none => simp [Shared.record, Shared.leave]
          | some l => cases ht
      | _ => rfl
  | exit b h =>
      cases h with
      | sendsClose => cases ht
      | sendsFinish => cases ht
      | _ => rfl

theorem DropMove.log_eq (h : DropMove H i sh t t' sh')
    (ht : t.holds = false) : sh'.log = sh.log := by
  cases h with
  | callSuspended => cases ht
  | _ => rfl

theorem PythonMove.log_eq (h : PythonMove H sh py ans py' sh')
    (hpy : py.holds = false) : sh'.log = sh.log := by
  cases h with
  | sends => cases hpy
  | applies => cases hpy
  | _ => rfl

variable {Q : Answers Ev} {w w' : World Op Loc Ret Ev Vars Knob}
  {l : Action Op Ev Knob}

/-- While a task has the guard, a step that is not its own leaves it and the
calls on the QUIC stream alone. -/
theorem Exclusive.frame (hx : Exclusive w) (h : H.Step Q w l w')
    (hi : w.tasks[i]? = some t) (ht : t.holds = true)
    (hl : ∀ ans, l ≠ .task i ans) (hd : l ≠ .drop i) :
    w'.tasks[i]? = some t ∧ w'.log = w.log := by
  have hmine : w.Owns (.task i) := hx.task i t hi ht
  cases h.move with
  | call op => exact ⟨getElem?_concat_of_eq_some hi, rfl⟩
  | exit b => exact ⟨getElem?_concat_of_eq_some hi, rfl⟩
  | closeRefused => exact ⟨hi, rfl⟩
  | closeBegins => exact ⟨hi, rfl⟩
  | assigns => exact ⟨hi, rfl⟩
  | python ans hm =>
      refine ⟨hi, hm.log_eq ?_⟩
      by_contra hpy
      have howns : w.Owns .python := hx.python (by simpa using hpy)
      exact absurd (howns.unique hmine) (by simp)
  | task j ans hj hm =>
      have hji : j ≠ i := fun hji => hl ans (by rw [hji])
      refine ⟨getElem?_set_of_ne hji hi, hm.log_eq ?_⟩
      by_contra hu
      exact hji (hx.eq_of_holds hj hi (by simpa using hu) ht)
  | drop j hj hm =>
      have hji : j ≠ i := fun hji => hd (by rw [hji])
      refine ⟨getElem?_set_of_ne hji hi, hm.log_eq ?_⟩
      by_contra hu
      exact hji (hx.eq_of_holds hj hi (by simpa using hu) ht)

end Calls

/-! ## The order of entry -/

/-- What the list of entries says about the tasks. -/
structure Entries (w : World Op Loc Ret Ev Vars Knob) : Prop where
  nodup : w.entered.Nodup
  entered : ∀ i ∈ w.entered, ∃ t, w.tasks[i]? = some t ∧ t.beforeBody = false
  last : ∀ i t, w.tasks[i]? = some t → t.inBody = true →
    w.entered.getLast? = some i

section Entries

variable {H : Half Op Loc Ret Ev Vars Knob} {i : ℕ} {sh sh' : Shared Ev Vars}
  {t t' : Task Op Loc Ret} {ans : Option Ev}

/-- A step of a task either leaves the list of entries alone, and does not lead
into the body or back in front of it, or it is the entry of the task. -/
theorem TaskMove.entered_cases (h : TaskMove H i sh t ans t' sh') :
    (sh'.entered = sh.entered ∧ (t'.inBody = true → t.inBody = true) ∧
      (t'.beforeBody = true → t.beforeBody = true)) ∨
    (sh'.entered = sh.entered ++ [i] ∧ t.beforeBody = true ∧
      t'.beforeBody = false ∧ t'.holds = true) := by
  cases h with
  | call op h =>
      cases h
      case enters => exact Or.inr ⟨rfl, rfl, rfl, rfl⟩
      case works => exact Or.inl ⟨rfl, fun _ => rfl, by simp [Task.beforeBody]⟩
      all_goals
        refine Or.inl ⟨rfl, ?_, ?_⟩ <;>
          simp [Task.inBody, Task.beforeBody, CallPc.inBody, CallPc.beforeBody]
  | exit b h =>
      cases h
      case enters => exact Or.inr ⟨rfl, rfl, rfl, rfl⟩
      case wakes => exact Or.inr ⟨rfl, rfl, rfl, rfl⟩
      all_goals
        refine Or.inl ⟨rfl, ?_, ?_⟩ <;>
          simp [Task.inBody, Task.beforeBody, ExitPc.holds, ExitPc.beforeBody]

theorem DropMove.entered_eq (h : DropMove H i sh t t' sh') :
    sh'.entered = sh.entered ∧ t'.inBody = false ∧ t'.beforeBody = false := by
  cases h <;> exact ⟨rfl, rfl, rfl⟩

theorem PythonMove.entered_eq {py py' : Python Knob}
    (h : PythonMove H sh py ans py' sh') : sh'.entered = sh.entered := by
  cases h <;> rfl

variable {Q : Answers Ev} {w w' : World Op Loc Ret Ev Vars Knob}
  {l : Action Op Ev Knob}

theorem mem_entered_of_step (h : H.Step Q w l w') (hi : i ∈ w'.entered) :
    i ∈ w.entered ∨ (i < w.tasks.length ∧ ∃ ans, l = .task i ans) := by
  cases h.move with
  | python ans hm =>
      rw [← hm.entered_eq]
      exact Or.inl hi
  | drop j hj hm =>
      rw [← hm.entered_eq.1]
      exact Or.inl hi
  | task j ans hj hm =>
      rcases hm.entered_cases with ⟨heq, -⟩ | ⟨heq, -⟩
      · rw [← heq]
        exact Or.inl hi
      · have hmem : i ∈ w.entered ++ [j] := heq ▸ hi
        rcases List.mem_append.mp hmem with hold | hnew
        · exact Or.inl hold
        · obtain rfl := List.mem_singleton.mp hnew
          exact Or.inr ⟨lt_length_of_getElem? hj, ans, rfl⟩
  | _ => exact Or.inl hi

theorem Entries.lt_length (hw : Entries w) (hi : i ∈ w.entered) :
    i < w.tasks.length := by
  obtain ⟨t, ht, -⟩ := hw.entered i hi
  exact lt_length_of_getElem? ht

theorem Entries.not_mem (hw : Entries w) (hi : w.tasks[i]? = some t)
    (ht : t.beforeBody = true) : i ∉ w.entered := by
  intro hmem
  obtain ⟨t', ht', hpast⟩ := hw.entered i hmem
  rw [hi] at ht'
  cases ht'
  rw [ht] at hpast
  cases hpast

theorem Entries.not_mem_of_append (hw : Entries w) (hi : w.tasks[i]? = some t)
    (ht : t.inBody = true) {pre post : List ℕ} (hsplit : w.entered = pre ++ post)
    (hpost : post ≠ []) : i ∉ pre := by
  have hlast : w.entered.getLast? = some i := hw.last i t hi ht
  have hmem : i ∈ post := by
    rw [hsplit, List.getLast?_append_of_ne_nil _ hpost] at hlast
    exact List.mem_of_getLast? hlast
  have hnodup := hw.nodup
  rw [hsplit, List.nodup_append] at hnodup
  intro hpre
  exact hnodup.2.2 i hpre i hmem rfl

theorem entries_init (vars : Vars) :
    Entries (World.init vars : World Op Loc Ret Ev Vars Knob) where
  nodup := List.nodup_nil
  entered i hi := by simp [World.init] at hi
  last i t hi := by simp [World.init] at hi

theorem Entries.spawn (hw : Entries w) (hin : t.inBody = false) :
    Entries { w with tasks := w.tasks ++ [t] } where
  nodup := hw.nodup
  entered i hi := by
    obtain ⟨t', ht', hpast⟩ := hw.entered i hi
    exact ⟨t', getElem?_concat_of_eq_some ht', hpast⟩
  last := by
    refine forall_getElem?_concat ?_ hw.last
    intro h
    rw [hin] at h
    cases h

theorem Entries.task (hx : Exclusive w) (hw : Entries w)
    (hi : w.tasks[i]? = some t)
    (hm : TaskMove H i w.toShared t ans t' sh) :
    Entries { w with toShared := sh, tasks := w.tasks.set i t' } := by
  have hself : (w.tasks.set i t')[i]? = some t' := getElem?_set_of_eq_some hi
  rcases hm.entered_cases with ⟨heq, hin, hbefore⟩ | ⟨heq, hbefore, hpast, hholds⟩
  · refine ⟨?_, ?_, ?_⟩
    · simpa only [heq] using hw.nodup
    · intro j hj
      simp only [heq] at hj
      by_cases hji : j = i
      · subst hji
        refine ⟨t', hself, ?_⟩
        by_contra hne
        exact hw.not_mem hi (hbefore (by simpa using hne)) hj
      · obtain ⟨u, hu, hpast⟩ := hw.entered j hj
        exact ⟨u, getElem?_set_of_ne (Ne.symm hji) hu, hpast⟩
    · simp only [heq]
      exact forall_getElem?_set (fun h => hw.last i t hi (hin h))
        fun j u _ hj => hw.last j u hj
  · have hnot : i ∉ w.entered := hw.not_mem hi hbefore
    refine ⟨?_, ?_, ?_⟩
    · simp only [heq]
      refine List.nodup_append.mpr ⟨hw.nodup, List.nodup_singleton i, ?_⟩
      intro a ha b hb hab
      rw [List.mem_singleton] at hb
      exact hnot (hb ▸ hab ▸ ha)
    · intro j hj
      simp only [heq, List.mem_append, List.mem_singleton] at hj
      by_cases hji : j = i
      · subst hji
        exact ⟨t', hself, hpast⟩
      · obtain ⟨u, hu, hpastu⟩ := hw.entered j (hj.resolve_right hji)
        exact ⟨u, getElem?_set_of_ne (Ne.symm hji) hu, hpastu⟩
    · simp only [heq]
      refine forall_getElem?_set (fun _ => by simp) ?_
      -- nobody else is in its body while `i` takes the guard
      intro j u hji hj hu
      have howns : sh.Owns (.task j) :=
        hm.owns_other (hx.task j u hj (Task.holds_of_inBody hu)) (by simpa using hji)
      have hmine : sh.Owns (.task i) := hm.owns_self (hx.task i t hi) hholds
      exact absurd (by simpa using howns.unique hmine) hji

theorem entries_step (hx : Exclusive w) (h : H.Step Q w l w') (hw : Entries w) :
    Entries w' := by
  cases h.move with
  | call op => exact hw.spawn rfl
  | exit b => exact hw.spawn rfl
  | closeRefused => exact hw
  | closeBegins => exact ⟨hw.nodup, hw.entered, hw.last⟩
  | assigns => exact ⟨hw.nodup, hw.entered, hw.last⟩
  | python ans hm =>
      have heq := hm.entered_eq
      exact ⟨by simpa only [heq] using hw.nodup,
        by simpa only [heq] using hw.entered, by simpa only [heq] using hw.last⟩
  | task i ans hi hm => exact hw.task hx hi hm
  | drop i hi hm =>
      obtain ⟨heq, hin, hpast⟩ := hm.entered_eq
      refine ⟨by simpa only [heq] using hw.nodup, ?_, ?_⟩
      · intro j hj
        simp only [heq] at hj
        by_cases hji : j = i
        · subst hji
          exact ⟨_, getElem?_set_of_eq_some hi, hpast⟩
        · obtain ⟨u, hu, hpastu⟩ := hw.entered j hj
          exact ⟨u, getElem?_set_of_ne (Ne.symm hji) hu, hpastu⟩
      · simp only [heq]
        refine forall_getElem?_set ?_ fun j u _ hj => hw.last j u hj
        intro h
        rw [hin] at h
        cases h

theorem entries_of_reachable {vars : Vars}
    (h : Reachable (H.Step Q) (World.init vars) w) : Entries w := by
  have hboth : Exclusive w ∧ Entries w := by
    refine h.invariant (I := fun w => Exclusive w ∧ Entries w) ?_
      ⟨exclusive_init vars, entries_init vars⟩
    intro w l w' hstep hw
    exact ⟨exclusive_step hstep hw.1, entries_step hw.1 hstep hw.2⟩
  exact hboth.2

end Entries

end WebTransport.Wrapper
