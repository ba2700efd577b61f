import WebTransport.Wrapper.Exclusion

/-!
# One operation at a time

A program without concurrency calls the operations of a half one after the other.
`Serial` is a half as such a program sees it: there is no mutex, no token and no
task, only the operation at work, which goes on from where it was suspended or is
broken off there.  Whatever the tasks do, the QUIC stream sees the calls of a serial
program, in which each operation does what it does by itself and gets the result
that its awaitable returns.
-/

namespace WebTransport.Wrapper

open Support

variable {Op Loc Ret Ev Vars Knob : Type}

/-! ## The serial half -/

/-- What is being done: an operation, which may be suspended, or an exit. -/
inductive Job (Op Loc : Type)
  | op (op : Op) (l : Loc) (asleep : Bool)
  | exit (hasException : Bool)

/-- What has been done: an operation with its result, one that was broken off, or an
exit. -/
inductive Work (Op Ret : Type)
  | result (op : Op) (r : Ret)
  | cut (op : Op)
  | exit (hasException : Bool)
  deriving DecidableEq, Repr

/-- A half without concurrency. -/
structure Serial (Op Loc Ret Ev Vars : Type) where
  log : List Ev
  vars : Vars
  job : Option (Job Op Loc)
  works : List (Work Op Ret)

def Serial.init (vars : Vars) : Serial Op Loc Ret Ev Vars where
  log := []
  vars := vars
  job := none
  works := []

def Serial.record (s : Serial Op Loc Ret Ev Vars) (evs : List Ev) :
    Serial Op Loc Ret Ev Vars :=
  { s with log := s.log ++ evs }

def Serial.finish (s : Serial Op Loc Ret Ev Vars) (work : Work Op Ret) :
    Serial Op Loc Ret Ev Vars :=
  { s with job := none, works := s.works ++ [work] }

/-- What comes of a step of a body. -/
def Serial.proceed (s : Serial Op Loc Ret Ev Vars) (op : Op) :
    Beat Loc Ret → Serial Op Loc Ret Ev Vars
  | .more l => { s with job := some (.op op l false) }
  | .pend l => { s with job := some (.op op l true) }
  | .ready r => s.finish (.result op r)

/-- The steps of a serial half, with the call on the QUIC stream that each makes.
Only the store of an assignment does not wait for the job to end. -/
inductive Half.SerialStep (H : Half Op Loc Ret Ev Vars Knob) (Q : Answers Ev)
    (s : Serial Op Loc Ret Ev Vars) :
    Option Ev → Serial Op Loc Ret Ev Vars → Prop
  | begins (op : Op) (hjob : s.job = none) :
      H.SerialStep Q s none { s with job := some (.op op (H.enter op) false) }
  | works {op : Op} {l : Loc} {asleep : Bool} {ans : Option Ev} {vars : Vars}
      {beat : Beat Loc Ret} (hjob : s.job = some (.op op l asleep))
      (hb : H.body op l s.vars ans = some (vars, beat)) (hQ : ∀ e ∈ ans, Q s.log e) :
      H.SerialStep Q s ans
        (({ s with vars := vars }.record ans.toList).proceed op beat)
  | breaksOff {op : Op} {l : Loc} (hjob : s.job = some (.op op l true)) :
      H.SerialStep Q s none ((s.record (H.dropped op l)).finish (.cut op))
  | exits (b : Bool) (hjob : s.job = none) :
      H.SerialStep Q s none { s with job := some (.exit b) }
  | exitCloses {b : Bool} {e : Ev} (hjob : s.job = some (.exit b))
      (hb : (b || H.exitCloses) = true) (he : H.closeCode e = some 0) (hQ : Q s.log e) :
      H.SerialStep Q s (some e) ((s.record [e]).finish (.exit b))
  | exitFinishes {b : Bool} {e : Ev} (hjob : s.job = some (.exit b))
      (hb : (b || H.exitCloses) = false) (he : H.isFinish e = true) (hQ : Q s.log e) :
      H.SerialStep Q s (some e) ((s.record [e]).finish (.exit b))
  | closes {code : UInt32} {e : Ev} (hjob : s.job = none)
      (he : H.closeCode e = some code) (hQ : Q s.log e) :
      H.SerialStep Q s (some e) (s.record [e])
  | assigns (k : Knob) : H.SerialStep Q s none { s with vars := H.assign k s.vars }
  | applies {k : Knob} {e : Ev} (hjob : s.job = none) (he : H.isApply k e = true)
      (hQ : Q s.log e) : H.SerialStep Q s (some e) (s.record [e])
  | records (k : Knob) (hjob : s.job = none) :
      H.SerialStep Q s none { s with vars := H.recordApplied k s.vars }

/-! ## What a task is doing and what it has done -/

/-- The job of a task that has the guard. -/
inductive Task.Doing : Task Op Loc Ret → Job Op Loc → Prop
  | running (op : Op) (l : Loc) (asleep : Bool) :
      Task.Doing (.call op (.running l)) (.op op l asleep)
  | suspended (op : Op) (l : Loc) : Task.Doing (.call op (.suspended l)) (.op op l true)
  | interrupted (op : Op) (l : Loc) :
      Task.Doing (.call op (.interrupted (some l))) (.op op l true)
  | held (b : Bool) : Task.Doing (.exit b .held) (.exit b)

/-- The cancel branch has let go of the guard, or the task was dropped. -/
def CallPc.letGo (closedLocally : Ret) : CallPc Loc Ret → Prop
  | .closing | .closeWaiting | .closeHeld | .closeLoaded _ | .closeSent | .dropped => True
  | .done r => r = closedLocally
  | _ => False

/-- What a task has done with the guard. -/
inductive Task.Did (closedLocally : Ret) : Task Op Loc Ret → Work Op Ret → Prop
  | built (op : Op) (r : Ret) : Task.Did closedLocally (.call op (.built r)) (.result op r)
  | done (op : Op) (r : Ret) : Task.Did closedLocally (.call op (.done r)) (.result op r)
  | cut (op : Op) (pc : CallPc Loc Ret) (hpc : pc.letGo closedLocally) :
      Task.Did closedLocally (.call op pc) (.cut op)
  | sent (b : Bool) : Task.Did closedLocally (.exit b .sent) (.exit b)
  | returned (b : Bool) : Task.Did closedLocally (.exit b .returned) (.exit b)

def Task.atWork : Task Op Loc Ret → Bool
  | .call _ (.running _) | .call _ (.suspended _) | .call _ (.interrupted (some _)) => true
  | .exit _ .held => true
  | _ => false

section Tasks

variable {H : Half Op Loc Ret Ev Vars Knob} {closedLocally : Ret} {i : ℕ}
  {sh sh' : Shared Ev Vars} {t t' : Task Op Loc Ret} {ans : Option Ev}
  {job : Job Op Loc} {work : Work Op Ret}

theorem Task.Doing.atWork (h : t.Doing job) : t.atWork = true := by
  cases h <;> rfl

theorem Task.holds_of_atWork (h : t.atWork = true) : t.holds = true := by
  unfold Task.atWork at h
  split at h <;> first | rfl | cases h

theorem TaskMove.did (h : TaskMove H i sh t ans t' sh')
    (hdid : t.Did H.closedLocally work) : t'.Did H.closedLocally work := by
  cases h with
  | call op h =>
      cases hdid with
      | built _ r =>
          cases h
          exact .done op r
      | done _ r => cases h
      | cut _ pc hpc =>
          cases h
          case closeReturns => exact .cut op _ rfl
          case closeLocks | closeQueues | closeWakes | closeLoads | closeSends =>
            exact .cut op _ trivial
          all_goals exact hpc.elim
  | exit b h =>
      cases hdid with
      | sent =>
          cases h
          exact .returned b
      | returned => cases h

theorem DropMove.did (h : DropMove H i sh t t' sh')
    (hdid : t.Did closedLocally work) : t'.Did closedLocally work := by
  cases hdid with
  | cut op pc hpc =>
      cases h
      case callCloseWaiting => exact .cut op _ trivial
      all_goals exact hpc.elim
  | _ => cases h

end Tasks

/-! ## The simulation -/

def Has (closedLocally : Ret) (tasks : List (Task Op Loc Ret)) (i : ℕ)
    (work : Work Op Ret) : Prop :=
  ∃ t, tasks[i]? = some t ∧ t.Did closedLocally work

/-- How far the tasks have come: those that have entered have done the works, in
that order, and the last one may be at its job. -/
inductive Place (closedLocally : Ret) (w : World Op Loc Ret Ev Vars Knob) :
    Option (Job Op Loc) → List (Work Op Ret) → Prop
  | idle {works : List (Work Op Ret)}
      (hworks : List.Forall₂ (Has closedLocally w.tasks) w.entered works)
      (hnone : ∀ (i : ℕ) (t : Task Op Loc Ret), w.tasks[i]? = some t →
        t.atWork = false) :
      Place closedLocally w none works
  | busy {pre : List ℕ} {i : ℕ} {t : Task Op Loc Ret} {job : Job Op Loc}
      {works : List (Work Op Ret)} (hentered : w.entered = pre ++ [i])
      (hworks : List.Forall₂ (Has closedLocally w.tasks) pre works)
      (hi : w.tasks[i]? = some t) (hjob : t.Doing job) :
      Place closedLocally w (some job) works

/-- The serial half has made the same calls, and has come as far as the tasks. -/
structure Serves (closedLocally : Ret) (w : World Op Loc Ret Ev Vars Knob)
    (s : Serial Op Loc Ret Ev Vars) : Prop where
  log : s.log = w.log
  vars : s.vars = w.vars
  place : Place closedLocally w s.job s.works

section Simulation

variable {H : Half Op Loc Ret Ev Vars Knob} {Q : Answers Ev} {c : Ret}
  {w w' : World Op Loc Ret Ev Vars Knob} {a : Action Op Ev Knob}
  {s : Serial Op Loc Ret Ev Vars} {sh : Shared Ev Vars} {t t' : Task Op Loc Ret}
  {i : ℕ} {pre : List ℕ} {job : Job Op Loc} {o : Option (Job Op Loc)}
  {work : Work Op Ret} {works : List (Work Op Ret)}

theorem has_set (hi : w.tasks[i]? = some t)
    (hkeep : ∀ work, t.Did c work → t'.Did c work)
    (h : List.Forall₂ (Has c w.tasks) pre works) :
    List.Forall₂ (Has c (w.tasks.set i t')) pre works := by
  refine h.imp ?_
  rintro j work ⟨u, hj, hu⟩
  by_cases hji : j = i
  · subst hji
    obtain rfl := Option.some.inj (hi.symm.trans hj)
    exact ⟨t', getElem?_set_of_eq_some hi, hkeep work hu⟩
  · exact ⟨u, getElem?_set_of_ne (Ne.symm hji) hj, hu⟩

theorem Place.cases_of_holds (hx : Exclusive w) (hp : Place c w o works)
    (hi : w.tasks[i]? = some t) (ht : t.holds = true) :
    (o = none ∧ t.atWork = false ∧ List.Forall₂ (Has c w.tasks) w.entered works) ∨
      ∃ job pre, o = some job ∧ t.Doing job ∧ w.entered = pre ++ [i] ∧
        List.Forall₂ (Has c w.tasks) pre works := by
  cases hp with
  | idle hworks hnone => exact Or.inl ⟨rfl, hnone i t hi, hworks⟩
  | @busy pre j u job works hentered hworks hj hjob =>
      obtain rfl : j = i :=
        hx.eq_of_holds hj hi (Task.holds_of_atWork hjob.atWork) ht
      obtain rfl := Option.some.inj (hj.symm.trans hi)
      exact Or.inr ⟨job, pre, rfl, hjob, hentered, hworks⟩

theorem Place.eq_none_of_python (hx : Exclusive w) (hp : Place c w o works)
    (hpy : w.python.holds = true) : o = none := by
  cases hp with
  | idle => rfl
  | @busy pre i t job works hentered hworks hi hjob =>
      have howns := hx.task i t hi (Task.holds_of_atWork hjob.atWork)
      exact absurd (howns.unique (hx.python hpy)) (by simp)

theorem Place.eq_none_of_enters
    (hx : Exclusive { w with toShared := sh, tasks := w.tasks.set i t' })
    (hi : w.tasks[i]? = some t) (ht : t.atWork = false) (ht' : t'.holds = true)
    (hp : Place c w o works) : o = none := by
  cases hp with
  | idle => rfl
  | @busy pre j u job works hentered hworks hj hjob =>
      have hji : j ≠ i := by
        rintro rfl
        obtain rfl := Option.some.inj (hi.symm.trans hj)
        rw [hjob.atWork] at ht
        cases ht
      have heq : j = i := hx.eq_of_holds (getElem?_set_of_ne (Ne.symm hji) hj)
        (getElem?_set_of_eq_some hi) (Task.holds_of_atWork hjob.atWork) ht'
      exact absurd heq hji

theorem Place.quiet (hp : Place c w o works) (hi : w.tasks[i]? = some t)
    (hentered : sh.entered = w.entered)
    (hkeep : ∀ work, t.Did c work → t'.Did c work)
    (hjob : ∀ job, t.Doing job → t'.Doing job)
    (hwork : t'.atWork = true → t.atWork = true) :
    Place c { w with toShared := sh, tasks := w.tasks.set i t' } o works := by
  cases hp with
  | idle hworks hnone =>
      refine .idle (has_set hi hkeep (hentered ▸ hworks)) ?_
      refine forall_getElem?_set ?_ fun j u _ hj => hnone j u hj
      rw [Bool.eq_false_iff]
      intro ht
      rw [hnone i t hi] at hwork
      exact absurd (hwork ht) (by simp)
  | @busy pre j u job works hsplit hworks hj hdoing =>
      have hworks' := has_set hi hkeep hworks
      by_cases hji : j = i
      · subst hji
        obtain rfl := Option.some.inj (hi.symm.trans hj)
        exact .busy (hentered.trans hsplit) hworks' (getElem?_set_of_eq_some hi)
          (hjob job hdoing)
      · exact .busy (hentered.trans hsplit) hworks'
          (getElem?_set_of_ne (Ne.symm hji) hj) hdoing

theorem place_busy (hi : w.tasks[i]? = some t) (hentered : sh.entered = pre ++ [i])
    (hworks : List.Forall₂ (Has c w.tasks) pre works)
    (hkeep : ∀ work, t.Did c work → t'.Did c work) (hjob : t'.Doing job) :
    Place c { w with toShared := sh, tasks := w.tasks.set i t' } (some job) works :=
  .busy hentered (has_set hi hkeep hworks) (getElem?_set_of_eq_some hi) hjob

theorem place_finish (hx : Exclusive w) (hi : w.tasks[i]? = some t)
    (ht : t.holds = true) (hentered : sh.entered = pre ++ [i])
    (hworks : List.Forall₂ (Has c w.tasks) pre works)
    (hkeep : ∀ work, t.Did c work → t'.Did c work) (hdid : t'.Did c work)
    (hwork : t'.atWork = false) :
    Place c { w with toShared := sh, tasks := w.tasks.set i t' } none
      (works ++ [work]) := by
  constructor
  · change List.Forall₂ _ sh.entered _
    rw [hentered]
    refine List.rel_append (has_set hi hkeep hworks) ?_
    exact .cons ⟨t', getElem?_set_of_eq_some hi, hdid⟩ .nil
  · refine forall_getElem?_set hwork ?_
    intro j u hji hj
    rw [Bool.eq_false_iff]
    intro hu
    exact hji (hx.eq_of_holds hj hi (Task.holds_of_atWork hu) ht)

/-- A step of the task of an operation is a step of the serial half or none. -/
theorem serves_call {op : Op} {pc pc' : CallPc Loc Ret} {ans : Option Ev}
    (hx : Exclusive w)
    (hx' : Exclusive { w with toShared := sh, tasks := w.tasks.set i (.call op pc') })
    (hi : w.tasks[i]? = some (.call op pc))
    (hm : CallMove H i op w.toShared pc ans pc' sh) (hQ : ∀ e ∈ ans, Q w.log e)
    (hs : Serves H.closedLocally w s) :
    Serves H.closedLocally
        { w with toShared := sh, tasks := w.tasks.set i (.call op pc') } s ∨
      ∃ e s', H.SerialStep Q s e s' ∧ Serves H.closedLocally
        { w with toShared := sh, tasks := w.tasks.set i (.call op pc') } s' := by
  have hkeep : ∀ work, (Task.call op pc).Did H.closedLocally work →
      (Task.call op pc').Did H.closedLocally work :=
    fun _ => (TaskMove.call op hm).did
  have hquiet : sh.log = w.log → sh.vars = w.vars → sh.entered = w.entered →
      (∀ job, (Task.call op pc).Doing job → (Task.call op pc').Doing job) →
      ((Task.call op pc').atWork = true → (Task.call op pc).atWork = true) →
      Serves H.closedLocally
        { w with toShared := sh, tasks := w.tasks.set i (.call op pc') } s := by
    intro hlog hvars hentered hjob hwork
    exact ⟨hs.log.trans hlog.symm, hs.vars.trans hvars.symm,
      hs.place.quiet hi hentered hkeep hjob hwork⟩
  cases hm with
  | spawnedSet | spawnedUnset | waitingSet | waitingUnset | queues | returns |
    closeLocks | closeQueues | closeWakes | closeLoads | closeReturns =>
      left
      exact hquiet rfl rfl rfl (fun job hjob => by cases hjob) (by simp [Task.atWork])
  | suspendedSet l =>
      left
      refine hquiet rfl rfl rfl (fun job hjob => ?_) (fun _ => rfl)
      cases hjob
      exact .interrupted op l
  | suspendedUnset l =>
      left
      refine hquiet rfl rfl rfl (fun job hjob => ?_) (fun _ => rfl)
      cases hjob
      exact .running op l true
  | enters ho =>
      right
      have hjob : s.job = none := hs.place.eq_none_of_enters hx' hi rfl rfl
      have hplace := hs.place
      rw [hjob] at hplace
      cases hplace with
      | idle hworks hnone =>
          refine ⟨none, _, .begins op hjob, hs.log, hs.vars, ?_⟩
          exact place_busy hi rfl hworks hkeep (.running op _ false)
  | works l ans vars beat hb =>
      right
      rcases hs.place.cases_of_holds hx hi rfl with ⟨-, hnot, -⟩ |
        ⟨job, pre, hjob, hdoing, hentered, hworks⟩
      · cases hnot
      · cases hdoing with
        | running _ _ asleep =>
            have hb' : H.body op l s.vars ans = some (vars, beat) := hs.vars ▸ hb
            have hQ' : ∀ e ∈ ans, Q s.log e := hs.log ▸ hQ
            refine ⟨ans, _, .works hjob hb' hQ', ?_⟩
            cases beat with
            | more l' =>
                refine ⟨congrArg (· ++ ans.toList) hs.log, rfl, ?_⟩
                exact place_busy hi hentered hworks hkeep (.running op l' false)
            | pend l' =>
                refine ⟨congrArg (· ++ ans.toList) hs.log, rfl, ?_⟩
                exact place_busy hi hentered hworks hkeep (.suspended op l')
            | ready r =>
                refine ⟨congrArg (· ++ ans.toList) hs.log, rfl, ?_⟩
                exact place_finish hx hi rfl hentered hworks hkeep (.built op r) rfl
  | letsGo l =>
      cases l with
      | none =>
          left
          refine hquiet ?_ rfl rfl (fun job hjob => by cases hjob) (by simp [Task.atWork])
          exact List.append_nil _
      | some l =>
          right
          rcases hs.place.cases_of_holds hx hi rfl with ⟨-, hnot, -⟩ |
            ⟨job, pre, hjob, hdoing, hentered, hworks⟩
          · cases hnot
          · cases hdoing
            refine ⟨none, _, .breaksOff hjob, ?_⟩
            refine ⟨congrArg (· ++ H.dropped op l) hs.log, hs.vars, ?_⟩
            exact place_finish hx hi rfl hentered hworks hkeep
              (.cut op _ trivial) rfl
  | closeSends code e he =>
      right
      rcases hs.place.cases_of_holds hx hi rfl with ⟨hjob, -, -⟩ |
        ⟨job, pre, -, hdoing, -, -⟩
      · refine ⟨some e, _, .closes hjob he (hs.log ▸ hQ e rfl), ?_⟩
        refine ⟨congrArg (· ++ [e]) hs.log, hs.vars, ?_⟩
        refine hs.place.quiet hi rfl hkeep (fun job hjob => by cases hjob) ?_
        simp [Task.atWork]
      · cases hdoing

theorem serves_exit {b : Bool} {pc pc' : ExitPc} {ans : Option Ev}
    (hx : Exclusive w)
    (hx' : Exclusive { w with toShared := sh, tasks := w.tasks.set i (.exit b pc') })
    (hi : w.tasks[i]? = some (.exit b pc))
    (hm : ExitMove H i w.toShared b pc ans pc' sh) (hQ : ∀ e ∈ ans, Q w.log e)
    (hs : Serves H.closedLocally w s) :
    Serves H.closedLocally
        { w with toShared := sh, tasks := w.tasks.set i (.exit b pc') } s ∨
      ∃ e s', H.SerialStep Q s e s' ∧ Serves H.closedLocally
        { w with toShared := sh, tasks := w.tasks.set i (.exit b pc') } s' := by
  have hkeep : ∀ work, (Task.exit b pc).Did H.closedLocally work →
      (Task.exit b pc').Did H.closedLocally work :=
    fun _ => (TaskMove.exit (H := H) b hm).did
  have henters : (Task.exit b pc : Task Op Loc Ret).atWork = false → pc' = .held →
      sh.log = w.log → sh.vars = w.vars → sh.entered = w.entered ++ [i] →
      ∃ e s', H.SerialStep Q s e s' ∧ Serves H.closedLocally
        { w with toShared := sh, tasks := w.tasks.set i (.exit b pc') } s' := by
    rintro hpc rfl hlog hvars hentered
    have hjob : s.job = none := hs.place.eq_none_of_enters hx' hi hpc rfl
    have hplace := hs.place
    rw [hjob] at hplace
    cases hplace with
    | idle hworks hnone =>
        refine ⟨none, _, .exits b hjob, hs.log.trans hlog.symm,
          hs.vars.trans hvars.symm, ?_⟩
        exact place_busy hi hentered hworks hkeep (.held b)
  have hsends : ∀ {e}, (Task.exit b pc : Task Op Loc Ret).atWork = true → pc' = .sent →
      ans = some e → sh = w.toShared.record [e] →
      (s.job = some (.exit b) → H.SerialStep Q s (some e)
        ((s.record [e]).finish (.exit b))) →
      ∃ e s', H.SerialStep Q s e s' ∧ Serves H.closedLocally
        { w with toShared := sh, tasks := w.tasks.set i (.exit b pc') } s' := by
    rintro e hpc rfl rfl rfl hstep
    rcases hs.place.cases_of_holds hx hi (Task.holds_of_atWork hpc) with ⟨-, hnot, -⟩ |
      ⟨job, pre, hjob, hdoing, hentered, hworks⟩
    · rw [hpc] at hnot
      cases hnot
    · cases hdoing
      refine ⟨some e, _, hstep hjob, ?_⟩
      refine ⟨congrArg (· ++ [e]) hs.log, hs.vars, ?_⟩
      exact place_finish hx hi (Task.holds_of_atWork hpc) hentered hworks hkeep
        (.sent b) rfl
  cases hm with
  | stores | skips | begins | cancels | queues | returns =>
      left
      refine ⟨hs.log, hs.vars, hs.place.quiet hi rfl hkeep (fun job hjob => ?_) ?_⟩
      · cases hjob
      · simp [Task.atWork]
  | enters => exact Or.inr (henters rfl rfl rfl rfl rfl)
  | wakes => exact Or.inr (henters rfl rfl rfl rfl rfl)
  | sendsClose _ e hb he =>
      right
      refine hsends rfl rfl rfl rfl fun hjob => ?_
      exact .exitCloses hjob hb he (hs.log ▸ hQ e rfl)
  | sendsFinish _ e hb he =>
      right
      refine hsends rfl rfl rfl rfl fun hjob => ?_
      exact .exitFinishes hjob hb he (hs.log ▸ hQ e rfl)

theorem serves_drop (hx : Exclusive w) (hi : w.tasks[i]? = some t)
    (hm : DropMove H i w.toShared t t' sh) (hs : Serves H.closedLocally w s) :
    Serves H.closedLocally
        { w with toShared := sh, tasks := w.tasks.set i t' } s ∨
      ∃ e s', H.SerialStep Q s e s' ∧ Serves H.closedLocally
        { w with toShared := sh, tasks := w.tasks.set i t' } s' := by
  have hkeep : ∀ work, t.Did H.closedLocally work → t'.Did H.closedLocally work :=
    fun _ => hm.did
  cases hm with
  | callSuspended op l =>
      right
      rcases hs.place.cases_of_holds hx hi rfl with ⟨-, hnot, -⟩ |
        ⟨job, pre, hjob, hdoing, hentered, hworks⟩
      · cases hnot
      · cases hdoing
        refine ⟨none, _, .breaksOff hjob, ?_⟩
        refine ⟨congrArg (· ++ H.dropped op l) hs.log, hs.vars, ?_⟩
        exact place_finish hx hi rfl hentered hworks hkeep (.cut op _ trivial) rfl
  | _ =>
      left
      refine ⟨hs.log, hs.vars, hs.place.quiet hi rfl hkeep (fun job hjob => ?_) ?_⟩
      · cases hjob
      · simp [Task.atWork]

theorem Place.of_python {py : Python Knob} (hp : Place c w o works)
    (hentered : sh.entered = w.entered) :
    Place c { w with toShared := sh, python := py } o works := by
  cases hp with
  | idle hworks hnone => exact .idle (hentered ▸ hworks) hnone
  | busy hsplit hworks hi hjob => exact .busy (hentered.trans hsplit) hworks hi hjob

theorem serves_python {py : Python Knob} {ans : Option Ev} (hx : Exclusive w)
    (hm : PythonMove H w.toShared w.python ans py sh) (hQ : ∀ e ∈ ans, Q w.log e)
    (hs : Serves H.closedLocally w s) :
    Serves H.closedLocally { w with toShared := sh, python := py } s ∨
      ∃ e s', H.SerialStep Q s e s' ∧
        Serves H.closedLocally { w with toShared := sh, python := py } s' := by
  have hnone : w.python.holds = true → s.job = none :=
    hs.place.eq_none_of_python hx
  generalize hpy : w.python = before at hm hnone
  cases hm with
  | sends code e he =>
      right
      refine ⟨some e, _, .closes (hnone rfl) he (hs.log ▸ hQ e rfl), ?_⟩
      exact ⟨congrArg (· ++ [e]) hs.log, hs.vars, hs.place.of_python rfl⟩
  | applies k e he =>
      right
      refine ⟨some e, _, .applies (hnone rfl) he (hs.log ▸ hQ e rfl), ?_⟩
      exact ⟨congrArg (· ++ [e]) hs.log, hs.vars, hs.place.of_python rfl⟩
  | records k =>
      right
      refine ⟨none, _, .records k (hnone rfl), ?_⟩
      exact ⟨hs.log, congrArg (H.recordApplied k) hs.vars, hs.place.of_python rfl⟩
  | _ =>
      left
      exact ⟨hs.log, hs.vars, hs.place.of_python rfl⟩

/-- Every step of a half is a step of the serial half or none. -/
theorem serves_step (hx : Exclusive w) (h : H.Step Q w a w')
    (hs : Serves H.closedLocally w s) :
    Serves H.closedLocally w' s ∨
      ∃ e s', H.SerialStep Q s e s' ∧ Serves H.closedLocally w' s' := by
  have hx' : Exclusive w' := exclusive_step h hx
  have hQ := h.2
  have hspawn : ∀ t : Task Op Loc Ret, t.atWork = false →
      Serves H.closedLocally { w with tasks := w.tasks ++ [t] } s := by
    intro t ht
    refine ⟨hs.log, hs.vars, ?_⟩
    have hhas : ∀ {i work}, Has H.closedLocally w.tasks i work →
        Has H.closedLocally (w.tasks ++ [t]) i work :=
      fun ⟨u, hi, hu⟩ => ⟨u, getElem?_concat_of_eq_some hi, hu⟩
    have hplace := hs.place
    generalize s.job = o at hplace
    cases hplace with
    | idle hworks hnone =>
        exact .idle (hworks.imp fun _ _ => hhas) (forall_getElem?_concat ht hnone)
    | busy hsplit hworks hi hjob =>
        exact .busy hsplit (hworks.imp fun _ _ => hhas) (getElem?_concat_of_eq_some hi)
          hjob
  cases h.move with
  | call op => exact Or.inl (hspawn _ rfl)
  | exit b => exact Or.inl (hspawn _ rfl)
  | closeRefused => exact Or.inl hs
  | closeBegins => exact Or.inl ⟨hs.log, hs.vars, hs.place.of_python rfl⟩
  | assigns k =>
      right
      refine ⟨none, _, .assigns k, ?_⟩
      exact ⟨hs.log, congrArg (H.assign k) hs.vars, hs.place.of_python rfl⟩
  | python ans hm => exact serves_python hx hm hQ hs
  | task i ans hi hm =>
      cases hm with
      | call op hm => exact serves_call hx hx' hi hm hQ hs
      | exit b hm => exact serves_exit hx hx' hi hm hQ hs
  | drop i hi hm => exact serves_drop hx hi hm hs

theorem serves_of_reachable {vars : Vars}
    (h : Reachable (H.Step Q) (World.init vars) w) :
    ∃ s, Reachable (H.SerialStep Q) (Serial.init vars) s ∧
      Serves H.closedLocally w s := by
  have hinit : Serves H.closedLocally
      (World.init vars : World Op Loc Ret Ev Vars Knob) (Serial.init vars) := by
    refine ⟨rfl, rfl, .idle .nil ?_⟩
    intro i t hi
    simp [World.init] at hi
  have hsim : ∀ {u : World Op Loc Ret Ev Vars Knob} {l v} {b : Serial Op Loc Ret Ev Vars},
      H.Step Q u l v → Exclusive u ∧ Serves H.closedLocally u b →
      (Exclusive v ∧ Serves H.closedLocally v b) ∨
        ∃ e b', H.SerialStep Q b e b' ∧ Exclusive v ∧ Serves H.closedLocally v b' := by
    rintro u l v b hstep ⟨hx, hb⟩
    have hx' := exclusive_step hstep hx
    rcases serves_step hx hstep hb with hstays | ⟨e, b', hb', hserves⟩
    · exact Or.inl ⟨hx', hstays⟩
    · exact Or.inr ⟨e, b', hb', hx', hserves⟩
  obtain ⟨s, hs, -, hserves⟩ := Reachable.simulate
    (R := fun w s => Exclusive w ∧ Serves H.closedLocally w s) h hsim
    ⟨exclusive_init vars, hinit⟩
  exact ⟨s, hs, hserves⟩

end Simulation

/-! ## Results and real time -/

/-- The task is at its own work, or has the result of it. -/
def Task.worked (closedLocally : Ret) : Task Op Loc Ret → Prop
  | .call _ (.running _) | .call _ (.suspended _) | .call _ (.interrupted (some _))
  | .call _ (.built _) => True
  | .call _ (.done r) => r ≠ closedLocally
  | _ => False

/-- A half does for its tasks what a serial half does: it makes the same calls on the
QUIC stream, an operation that returns anything else than the exception for a local
close has done its work, and who enters later was pending or not yet called. -/
structure Half.Serialized (H : Half Op Loc Ret Ev Vars Knob) (Q : Answers Ev)
    (vars : Vars) (w : World Op Loc Ret Ev Vars Knob) : Prop where
  serial : ∃ s, Reachable (H.SerialStep Q) (Serial.init vars) s ∧
    Serves H.closedLocally w s
  results : ∀ (i : ℕ) (op : Op) (r : Ret), w.tasks[i]? = some (.call op (.done r)) →
    r ≠ H.closedLocally → i ∈ w.entered
  order : ∀ {u}, Reachable (H.Step Q) (World.init vars) u → Reachable (H.Step Q) u w →
    ∃ rest, w.entered = u.entered ++ rest ∧
      ∀ i ∈ rest, ∀ t, u.tasks[i]? = some t → t.pending = true

section Results

variable {H : Half Op Loc Ret Ev Vars Knob} {Q : Answers Ev} {vars : Vars} {i : ℕ}
  {u w w' : World Op Loc Ret Ev Vars Knob} {a : Action Op Ev Knob}
  {sh sh' : Shared Ev Vars} {t t' : Task Op Loc Ret} {ans : Option Ev}

theorem TaskMove.worked_cases (h : TaskMove H i sh t ans t' sh')
    (ht : t'.worked H.closedLocally) :
    t.worked H.closedLocally ∨ sh'.entered = sh.entered ++ [i] := by
  cases h with
  | call op h =>
      cases h
      case enters => exact Or.inr rfl
      case closeReturns => exact absurd rfl ht
      case suspendedSet | suspendedUnset | works | returns => exact Or.inl trivial
      all_goals exact ht.elim
  | exit b h => exact ht.elim

theorem Task.pending_of_beforeBody (h : t.beforeBody = true) : t.pending = true := by
  unfold Task.pending
  split <;> first | rfl | cases h

theorem DropMove.not_worked (h : DropMove H i sh t t' sh') :
    ¬ t'.worked H.closedLocally := by
  cases h <;> exact id

theorem TaskMove.entered_isPrefix (h : TaskMove H i sh t ans t' sh') :
    sh.entered <+: sh'.entered := by
  rcases h.entered_cases with ⟨heq, -⟩ | ⟨heq, -⟩
  · exact heq ▸ List.prefix_rfl
  · rw [heq]
    exact List.prefix_append _ _

theorem mem_entered_of_worked (h : Reachable (H.Step Q) (World.init vars) w) :
    ∀ (i : ℕ) (t : Task Op Loc Ret), w.tasks[i]? = some t →
      t.worked H.closedLocally → i ∈ w.entered := by
  refine h.invariant (I := fun w => ∀ (i : ℕ) (t : Task Op Loc Ret),
    w.tasks[i]? = some t → t.worked H.closedLocally → i ∈ w.entered) ?_ ?_
  · intro w a w' hstep hw
    cases hstep.move with
    | call | exit => exact forall_getElem?_concat (fun ht => ht.elim) hw
    | closeRefused | closeBegins | assigns => exact hw
    | python ans hm =>
        intro i t hi ht
        rw [hm.entered_eq]
        exact hw i t hi ht
    | task i ans hi hm =>
        refine forall_getElem?_set ?_ ?_
        · intro ht
          rcases hm.worked_cases ht with hbefore | hentered
          · exact hm.entered_isPrefix.subset (hw i _ hi hbefore)
          · simp [hentered]
        · intro j t _ hj ht
          exact hm.entered_isPrefix.subset (hw j t hj ht)
    | drop i hi hm =>
        refine forall_getElem?_set (fun ht => (hm.not_worked ht).elim) ?_
        intro j t _ hj ht
        rw [hm.entered_eq.1]
        exact hw j t hj ht
  · intro i t hi
    simp [World.init] at hi

theorem ended_stays (h : H.Step Q w a w') (hi : w.tasks[i]? = some t)
    (ht : t.pending = false) : w'.tasks[i]? = some t := by
  cases h.move with
  | call | exit => exact getElem?_concat_of_eq_some hi
  | closeRefused | closeBegins | assigns | python => exact hi
  | task j ans hj hm =>
      by_cases hji : j = i
      · subst hji
        obtain rfl := Option.some.inj (hi.symm.trans hj)
        cases hm with
        | call op hm => cases hm <;> cases ht
        | exit b hm => cases hm <;> cases ht
      · exact getElem?_set_of_ne hji hi
  | drop j hj hm =>
      by_cases hji : j = i
      · subst hji
        obtain rfl := Option.some.inj (hi.symm.trans hj)
        cases hm <;> cases ht
      · exact getElem?_set_of_ne hji hi

/-- Who enters later was pending, or was not called yet. -/
theorem order_of_reachable (h : Reachable (H.Step Q) u w) :
    ∃ rest, w.entered = u.entered ++ rest ∧
      ∀ i ∈ rest, ∀ t, u.tasks[i]? = some t → t.pending = true := by
  have hboth : (∃ rest, w.entered = u.entered ++ rest ∧
      ∀ i ∈ rest, ∀ t, u.tasks[i]? = some t → t.pending = true) ∧
      ∀ (i : ℕ) (t : Task Op Loc Ret), u.tasks[i]? = some t → t.pending = false →
        w.tasks[i]? = some t := by
    refine h.invariant (I := fun w => (∃ rest, w.entered = u.entered ++ rest ∧
      ∀ i ∈ rest, ∀ t, u.tasks[i]? = some t → t.pending = true) ∧
      ∀ (i : ℕ) (t : Task Op Loc Ret), u.tasks[i]? = some t → t.pending = false →
        w.tasks[i]? = some t) ?_ ⟨⟨[], by simp⟩, fun _ _ hi _ => hi⟩
    rintro v a v' hstep ⟨⟨rest, hrest, hpending⟩, hended⟩
    refine ⟨?_, fun i t hi ht => ended_stays hstep (hended i t hi ht) ht⟩
    have hsame : v'.entered = v.entered → ∃ rest, v'.entered = u.entered ++ rest ∧
        ∀ i ∈ rest, ∀ t, u.tasks[i]? = some t → t.pending = true :=
      fun heq => ⟨rest, heq.trans hrest, hpending⟩
    cases hstep.move with
    | call | exit | closeRefused | closeBegins | assigns => exact hsame rfl
    | python ans hm => exact hsame hm.entered_eq
    | drop i hi hm => exact hsame hm.entered_eq.1
    | task i ans hi hm =>
        rcases hm.entered_cases with ⟨heq, -⟩ | ⟨heq, hbefore, -⟩
        · exact hsame heq
        · refine ⟨rest ++ [i], ?_, ?_⟩
          · rw [← List.append_assoc, ← hrest]
            exact heq
          · intro j hj t hjt
            rcases List.mem_append.mp hj with hold | hnew
            · exact hpending j hold t hjt
            · obtain rfl := List.mem_singleton.mp hnew
              by_contra hnot
              have hstays := hended j t hjt (by simpa using hnot)
              obtain rfl := Option.some.inj (hi.symm.trans hstays)
              exact hnot (Task.pending_of_beforeBody hbefore)
  exact hboth.1

theorem serialized_of_reachable (h : Reachable (H.Step Q) (World.init vars) w) :
    H.Serialized Q vars w where
  serial := serves_of_reachable h
  results i _ _ hi hr := mem_entered_of_worked h i _ hi hr
  order _ hw := order_of_reachable hw

end Results

end WebTransport.Wrapper
