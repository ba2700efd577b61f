import WebTransport.Wrapper.LocalClose
import WebTransport.Wrapper.Line

/-!
# Draining a closed wrapper

Once the token is set, nobody waits for the peer any more.  A task that is
suspended in the QUIC stream gives the guard up when it is polled, and so the
line for the mutex moves until everybody has gone through it.  Two facts make
this precise: as long as something is pending, some step can be taken that needs
nobody else, and every such step makes what is left to do smaller.
-/

namespace WebTransport.Wrapper

open Support

variable {Op Loc Ret Ev Vars Knob : Type}

/-- Every call on the QUIC stream is answered, be it with `pending`. -/
structure Half.Responsive (H : Half Op Loc Ret Ev Vars Knob) (Q : Answers Ev) :
    Prop where
  body : ∀ op l v log, ∃ ans, (H.body op l v ans).isSome = true ∧ ∀ e ∈ ans, Q log e
  close : ∀ log code, ∃ e, H.closeCode e = some code ∧ Q log e
  finish : H.exitCloses = false → ∀ log, ∃ e, H.isFinish e = true ∧ Q log e
  apply : ∀ log k, ∃ e, H.isApply k e = true ∧ Q log e

/-- A body that goes on within one poll comes closer to its end. -/
structure Half.Progress (H : Half Op Loc Ret Ev Vars Knob) (Q : Answers Ev) where
  rank : Op → Loc → ℕ
  falls : ∀ {op l v ans v' l' log}, H.body op l v ans = some (v', .more l') →
    (∀ e ∈ ans, Q log e) → rank op l' < rank op l

/-! ## Local steps -/

/-- A poll of a task, or a step of the synchronous call that Python is in. -/
def Action.isLocal : Action Op Ev Knob → Bool
  | .python _ | .task _ _ => true
  | _ => false

/-- A local step, or a task that asyncio drops: no new call. -/
def Action.isInner : Action Op Ev Knob → Bool
  | .python _ | .task _ _ | .drop _ => true
  | _ => false

def Task.completed : Task Op Loc Ret → Bool
  | .call _ (.done _) => true
  | .exit _ .returned => true
  | _ => false

/-- Nothing is pending, and the mutex is free. -/
structure World.AtRest (w : World Op Loc Ret Ev Vars Knob) : Prop where
  quiet : w.Quiet
  free : w.lock.line = []
  idle : w.python = .idle

def Half.Stopped (H : Half Op Loc Ret Ev Vars Knob) (Q : Answers Ev)
    (w : World Op Loc Ret Ev Vars Knob) : Prop :=
  ∀ l w', l.isLocal = true → ¬ H.Step Q w l w'

/-- From `w` on the wrapper drains by itself: as long as it is not at rest a
local step can be taken, the sequences of steps without a new call are bounded,
they end at rest, and where asyncio drops nothing, every task that was pending
comes to its end. -/
structure Half.Drains (H : Half Op Loc Ret Ev Vars Knob) (Q : Answers Ev)
    (w : World Op Loc Ret Ev Vars Knob) : Prop where
  live : ¬ w.AtRest → ¬ H.Stopped Q w
  finite : ∃ n, ∀ {tr u}, Run (H.Step Q) w tr u →
    Along (fun _ l => l.isInner = true) tr → tr.length ≤ n
  ends : ∀ {tr u}, Run (H.Step Q) w tr u →
    Along (fun _ l => l.isInner = true) tr → H.Stopped Q u → u.AtRest
  completes : ∀ {tr u}, Run (H.Step Q) w tr u →
    Along (fun _ l => l.isLocal = true) tr → H.Stopped Q u →
    ∀ (i : ℕ) (t : Task Op Loc Ret), w.tasks[i]? = some t → t.pending = true →
      ∃ t' : Task Op Loc Ret, u.tasks[i]? = some t' ∧ t'.completed = true

/-! ## As long as something is pending, something can be done -/

section Live

variable {H : Half Op Loc Ret Ev Vars Knob} {Q : Answers Ev} {i : ℕ} {op : Op}
  {sh : Shared Ev Vars} {t : Task Op Loc Ret} {pc : CallPc Loc Ret} {b : Bool}
  {epc : ExitPc} {py : Python Knob} {w : World Op Loc Ret Ev Vars Knob}

theorem exists_callStep (hQ : H.Responsive Q)
    (hpending : (Task.call op pc : Task Op Loc Ret).pending = true)
    (howns : pc = .closeWaiting → sh.Owns (.task i)) :
    ∃ ans, (H.callStep i op pc ans sh).isSome = true ∧ ∀ e ∈ ans, Q sh.log e := by
  cases pc with
  | running l =>
      obtain ⟨ans, hsome, hans⟩ := hQ.body op l sh.vars sh.log
      exact ⟨ans, by simpa [Half.callStep] using hsome, hans⟩
  | closeWaiting =>
      exact ⟨none, by simp [Half.callStep, howns rfl], by simp⟩
  | closeLoaded code =>
      obtain ⟨e, he, hans⟩ := hQ.close sh.log code
      exact ⟨some e, by simp [Half.callStep, he], by simpa using hans⟩
  | done r => cases hpending
  | dropped => cases hpending
  | _ => exact ⟨none, rfl, by simp⟩

theorem exists_exitStep (hQ : H.Responsive Q)
    (hpending : (Task.exit b epc : Task Op Loc Ret).pending = true)
    (howns : epc = .waiting → sh.Owns (.task i)) :
    ∃ ans, (H.exitStep i b epc ans sh).isSome = true ∧ ∀ e ∈ ans, Q sh.log e := by
  cases epc with
  | spawned =>
      cases b with
      | true => exact ⟨none, rfl, by simp⟩
      | false =>
          cases hs : H.exitSkips sh.vars <;>
            exact ⟨none, by simp [Half.exitStep, hs], by simp⟩
  | waiting => exact ⟨none, by simp [Half.exitStep, howns rfl], by simp⟩
  | held =>
      by_cases hb : (b || H.exitCloses) = true
      · obtain ⟨e, he, hans⟩ := hQ.close sh.log 0
        exact ⟨some e, by simp [Half.exitStep, hb, he], by simpa using hans⟩
      · have hnot : H.exitCloses = false := by
          cases b <;> simp_all
        obtain ⟨e, he, hans⟩ := hQ.finish hnot sh.log
        exact ⟨some e, by simp [Half.exitStep, hb, he], by simpa using hans⟩
  | returned => cases hpending
  | dropped => cases hpending
  | _ => exact ⟨none, rfl, by simp⟩

/-- A pending task can go on, unless it waits for the mutex and does not have
it. -/
theorem exists_taskStep (hQ : H.Responsive Q)
    (hpending : t.pending = true)
    (howns : t.waits = true → sh.Owns (.task i)) :
    ∃ ans, (H.taskStep i t ans sh).isSome = true ∧ ∀ e ∈ ans, Q sh.log e := by
  cases t with
  | call op pc =>
      obtain ⟨ans, hstep, hans⟩ := exists_callStep hQ hpending
        (fun hpc => howns (by rw [hpc]; rfl))
      exact ⟨ans, by simpa [Half.taskStep] using hstep, hans⟩
  | exit b pc =>
      obtain ⟨ans, hstep, hans⟩ := exists_exitStep hQ hpending
        (fun hpc => howns (by rw [hpc]; rfl))
      exact ⟨ans, by simpa [Half.taskStep] using hstep, hans⟩

theorem exists_pythonStep (sh : Shared Ev Vars) (hQ : H.Responsive Q)
    (hpy : py ≠ .idle) :
    ∃ ans, (H.pythonStep py ans sh).isSome = true ∧ ∀ e ∈ ans, Q sh.log e := by
  cases py with
  | idle => exact absurd rfl hpy
  | cancelled code =>
      cases hl : sh.lock.tryLock .python <;>
        exact ⟨none, by simp [Half.pythonStep, hl], by simp⟩
  | assigned k =>
      cases hl : sh.lock.tryLock .python <;>
        exact ⟨none, by simp [Half.pythonStep, hl], by simp⟩
  | locked code =>
      obtain ⟨e, he, hans⟩ := hQ.close sh.log code
      exact ⟨some e, by simp [Half.pythonStep, he], by simpa using hans⟩
  | applying k =>
      obtain ⟨e, he, hans⟩ := hQ.apply sh.log k
      exact ⟨some e, by simp [Half.pythonStep, he], by simpa using hans⟩
  | _ => exact ⟨none, rfl, by simp⟩

theorem exists_step_of_task (hQ : H.Responsive Q)
    (hi : w.tasks[i]? = some t) (hpending : t.pending = true)
    (howns : t.waits = true → w.Owns (.task i)) :
    ∃ ans w', H.Step Q w (.task i ans) w' := by
  obtain ⟨ans, hsome, hans⟩ := exists_taskStep hQ hpending howns
  have hnext : (H.next w (.task i ans)).isSome = true := by
    simpa [Half.next, hi] using hsome
  obtain ⟨w', hw'⟩ := Option.isSome_iff_exists.mp hnext
  exact ⟨ans, w', hw', hans⟩

theorem exists_step_of_python (hQ : H.Responsive Q) (hpy : w.python ≠ .idle) :
    ∃ ans w', H.Step Q w (.python ans) w' := by
  obtain ⟨ans, hsome, hans⟩ := exists_pythonStep w.toShared hQ hpy
  have hnext : (H.next w (.python ans)).isSome = true := by
    simpa [Half.next] using hsome
  obtain ⟨w', hw'⟩ := Option.isSome_iff_exists.mp hnext
  exact ⟨ans, w', hw', hans⟩

theorem pending_of_lined (h : t.lined = true) : t.pending = true := by
  cases t with
  | call op pc => cases pc <;> first | rfl | cases h
  | exit b pc => cases pc <;> first | rfl | cases h

/-- Where no local step can be taken, nothing is pending: whoever is first in the
line could go on. -/
theorem atRest_of_stopped (hQ : H.Responsive Q)
    (hlined : Lined w) (hlt : ∀ i, .task i ∈ w.lock.line → i < w.tasks.length)
    (h : H.Stopped Q w) : w.AtRest := by
  have hidle : w.python = .idle := by
    by_contra hpy
    obtain ⟨ans, w', hstep⟩ := exists_step_of_python hQ hpy
    exact h (.python ans) w' rfl hstep
  have htask : ∀ {i t}, w.tasks[i]? = some t → t.pending = true →
      ¬ (t.waits = true → w.Owns (.task i)) := by
    intro i t hi hpending howns
    obtain ⟨ans, w', hstep⟩ := exists_step_of_task hQ hi hpending howns
    exact h (.task i ans) w' rfl hstep
  have hfree : w.lock.line = [] := by
    by_contra hne
    obtain ⟨o, rest, hline⟩ := List.exists_cons_of_ne_nil hne
    have hfirst : o ∈ w.lock.line := by rw [hline]; exact List.mem_cons_self
    cases o with
    | python =>
        have hholds := hlined.python hfirst
        rw [hidle] at hholds
        cases hholds
    | task i =>
        have howns : w.Owns (.task i) := by
          simp [Shared.Owns, FifoLock.holder, hline]
        obtain ⟨t, hi⟩ : ∃ t, w.tasks[i]? = some t :=
          ⟨_, List.getElem?_eq_getElem (hlt i hfirst)⟩
        have hstands : t.lined = true := hlined.task i t hi hfirst
        exact htask hi (pending_of_lined hstands) fun _ => howns
  refine ⟨fun t ht => ?_, hfree, hidle⟩
  by_contra hpending
  obtain ⟨i, hi⟩ := List.getElem?_of_mem ht
  refine htask hi (by simpa using hpending) ?_
  intro hwaits
  have hin := hlined.waits i t hi hwaits
  rw [hfree] at hin
  cases hin

end Live

/-! ## Every step makes what is left smaller -/

/-- How many steps a task has left at most. -/
def Half.left {H : Half Op Loc Ret Ev Vars Knob} {Q : Answers Ev}
    (R : H.Progress Q) : Task Op Loc Ret → ℕ
  | .call op pc =>
      match pc with
      | .done _ | .dropped => 0
      | .closeSent | .built _ => 1
      | .closeLoaded _ => 2
      | .closeHeld => 3
      | .closeWaiting => 4
      | .closing => 5
      | .interrupted _ => 6
      | .spawned | .waiting | .suspended _ => 7
      | .running l => 8 + R.rank op l
      | .checked => 9 + R.rank op (H.enter op)
  | .exit _ pc =>
      match pc with
      | .returned | .dropped => 0
      | .sent => 1
      | .held => 2
      | .waiting => 3
      | .ready => 4
      | .stored => 5
      | .spawned => 6

def Python.left : Python Knob → ℕ
  | .idle => 0
  | .sent _ | .recorded => 1
  | .locked _ | .applied _ => 2
  | .cancelled _ | .applying _ => 3
  | .stored _ | .assigned _ => 4
  | .tested _ => 5

/-- What is left to do on a wrapper. -/
def Half.load {H : Half Op Loc Ret Ev Vars Knob} {Q : Answers Ev}
    (R : H.Progress Q) (w : World Op Loc Ret Ev Vars Knob) : ℕ :=
  (w.tasks.map (Half.left R)).sum + w.python.left

section Falls

variable {H : Half Op Loc Ret Ev Vars Knob} {Q : Answers Ev} {R : H.Progress Q}
  {i : ℕ} {sh sh' : Shared Ev Vars} {t t' : Task Op Loc Ret} {ans : Option Ev}
  {py py' : Python Knob} {w w' : World Op Loc Ret Ev Vars Knob}
  {l : Action Op Ev Knob} {tr : List (World Op Loc Ret Ev Vars Knob × Action Op Ev Knob)}

theorem TaskMove.left_lt (h : TaskMove H i sh t ans t' sh')
    (hans : ∀ e ∈ ans, Q sh.log e) (hc : sh.cancelled = true) :
    Half.left R t' < Half.left R t := by
  cases h with
  | call op h =>
      cases h with
      | spawnedUnset hunset | waitingUnset hunset | suspendedUnset l hunset =>
          rw [hc] at hunset
          cases hunset
      | works l ans vars beat hb =>
          cases beat with
          | more l' =>
              have hfalls : R.rank op l' < R.rank op l := R.falls hb hans
              simp only [Half.left, Beat.pc]
              omega
          | pend l' =>
              simp only [Half.left, Beat.pc]
              omega
          | ready r =>
              simp only [Half.left, Beat.pc]
              omega
      | _ =>
          simp only [Half.left]
          omega
  | exit b h => cases h <;> simp [Half.left]

theorem DropMove.left_lt (h : DropMove H i sh t t' sh') :
    Half.left R t' < Half.left R t := by
  cases h <;> simp [Half.left]

theorem PythonMove.left_lt (h : PythonMove H sh py ans py' sh') :
    py'.left < py.left := by
  cases h <;> simp [Python.left]

/-- A step under the token that is no new call makes the load smaller. -/
theorem load_lt_of_step (h : H.Step Q w l w') (hl : l.isInner = true)
    (hc : w.cancelled = true) : Half.load R w' < Half.load R w := by
  cases h.move with
  | call | exit | closeRefused | closeBegins | assigns => cases hl
  | python ans hm =>
      have hfalls := hm.left_lt
      simp only [Half.load]
      omega
  | task i ans hi hm =>
      have hfalls := sum_map_set_lt hi (hm.left_lt (R := R) h.2 hc)
      simp only [Half.load]
      omega
  | drop i hi hm =>
      have hfalls := sum_map_set_lt hi (hm.left_lt (R := R))
      simp only [Half.load]
      omega

theorem length_le_load (h : Run (H.Step Q) w tr w') (hc : w.cancelled = true)
    (hall : Along (fun _ l => l.isInner = true) tr) :
    tr.length ≤ Half.load R w := by
  have hbound := (h.length_add_le (I := fun u => u.cancelled = true)
    (μ := Half.load R) ?_ hall hc).2
  · omega
  · intro u l u' hl hstep hset
    exact ⟨hstep.cancelled hset, load_lt_of_step hstep hl hset⟩

end Falls

/-! ## Nobody disappears -/

section Completion

variable {H : Half Op Loc Ret Ev Vars Knob} {Q : Answers Ev} {i : ℕ}
  {sh sh' : Shared Ev Vars} {t t' : Task Op Loc Ret} {ans : Option Ev}
  {w w' : World Op Loc Ret Ev Vars Knob} {l : Action Op Ev Knob}

theorem TaskMove.pending_or_completed (h : TaskMove H i sh t ans t' sh') :
    t'.pending = true ∨ t'.completed = true := by
  cases h with
  | call op h =>
      cases h with
      | works l ans vars beat => cases beat <;> exact Or.inl rfl
      | returns | closeReturns => exact Or.inr rfl
      | _ => exact Or.inl rfl
  | exit b h =>
      cases h with
      | skips | returns => exact Or.inr rfl
      | _ => exact Or.inl rfl

theorem exists_task_of_step (h : H.Step Q w l w') (hl : l.isLocal = true)
    (hw : ∃ t, w.tasks[i]? = some t ∧ (t.pending = true ∨ t.completed = true)) :
    ∃ t, w'.tasks[i]? = some t ∧ (t.pending = true ∨ t.completed = true) := by
  obtain ⟨t, hi, ht⟩ := hw
  cases h.move with
  | call | exit | closeRefused | closeBegins | assigns | drop => cases hl
  | python ans hm => exact ⟨t, hi, ht⟩
  | task j ans hj hm =>
      by_cases hji : j = i
      · subst hji
        exact ⟨_, getElem?_set_of_eq_some hj, hm.pending_or_completed⟩
      · exact ⟨t, getElem?_set_of_ne hji hi, ht⟩

theorem drains_of_cancelled {vars : Vars} (hQ : H.Responsive Q) (R : H.Progress Q)
    (hw : Reachable (H.Step Q) (World.init vars) w) (hc : w.cancelled = true) :
    H.Drains Q w := by
  have hrest : ∀ {u}, Reachable (H.Step Q) w u → H.Stopped Q u → u.AtRest := by
    intro u hu hstopped
    have hreach := hw.trans hu
    exact atRest_of_stopped hQ (lined_of_reachable hreach)
      (fun i => lt_length_of_mem_line hreach) hstopped
  refine ⟨?_, ⟨Half.load R w, fun hrun hall => length_le_load hrun hc hall⟩, ?_, ?_⟩
  · exact fun hnot hstopped => hnot (hrest Reachable.refl hstopped)
  · exact fun hrun _ hstopped => hrest hrun.reachable hstopped
  · intro tr u hrun hall hstopped i t hi hpending
    have hlast : ∃ t, u.tasks[i]? = some t ∧
        (t.pending = true ∨ t.completed = true) :=
      hrun.invariant
        (I := fun u => ∃ t, u.tasks[i]? = some t ∧
          (t.pending = true ∨ t.completed = true))
        (fun _ _ _ hl hstep => exists_task_of_step hstep hl) hall
        ⟨t, hi, Or.inl hpending⟩
    obtain ⟨t', hi', ht'⟩ := hlast
    have hquiet := (hrest hrun.reachable hstopped).quiet t' (List.mem_of_getElem? hi')
    refine ⟨t', hi', ht'.resolve_left ?_⟩
    rw [hquiet]
    exact Bool.false_ne_true

end Completion

end WebTransport.Wrapper
