import WebTransport.Server.Handout
import WebTransport.Support.Settling

/-!
# A closed server leaves nobody waiting

Once the endpoint is closed the QUIC server answers without delay.  The mutex then
passes from task to task until everybody who waits for a request has been told, and
so have those who wait for the endpoint to be idle.
-/

namespace WebTransport.Server

open Support Wrapper Handshake

def Pc.pending : Pc → Bool
  | .done _ | .dropped => false
  | _ => true

def World.AtRest (w : World) : Prop :=
  ∀ t ∈ w.tasks, t.pc.pending = false

def Action.isLocal : Action → Bool
  | .task _ _ => true
  | _ => false

def Action.isInner : Action → Bool
  | .task _ _ | .drop _ => true
  | _ => false

theorem Action.isInner_of_isLocal {l : Action} (hl : l.isLocal = true) :
    l.isInner = true := by
  cases l with
  | task i ans => rfl
  | _ => cases hl

/-- Every call is answered, and none is kept waiting. -/
structure Prompt (Q : Answers Event) : Prop where
  accept : ∀ log, ∃ a, Q log (.accept (.ready a))
  idle : ∀ log, Q log (.waitIdle (.ready ()))
  acceptPends : ∀ log, ¬ Q log (.accept .pending)
  idlePends : ∀ log, ¬ Q log (.waitIdle .pending)

/-- From `w` on the server comes to rest by itself, and where asyncio drops nothing,
every awaitable that was pending returns. -/
structure Finishes (Q : Answers Event) (w : World) : Prop where
  settles : Settles (Step Q) (fun _ l => l.isInner = true) (fun l => l.isLocal = true)
    World.AtRest w
  completes : ∀ {tr u}, Run (Step Q) w tr u → Along (fun _ l => l.isLocal = true) tr →
    (∀ l u', l.isLocal = true → ¬ Step Q u l u') →
    ∀ (i : ℕ) (t : Task), w.tasks[i]? = some t → t.pc.pending = true →
      ∃ r, u.tasks[i]? = some ⟨t.op, .done r⟩

section Finishing

variable {Q Q₀ : Answers Event} {i : ℕ} {op : Op} {pc pc' : Pc} {ans : Option Event}
  {lock lock' : FifoLock ℕ} {w w' : World} {l : Action}

/-- How many steps a task has left. -/
def Task.left (t : Task) : ℕ :=
  match t.pc with
  | .spawned => 4
  | .waiting => 3
  | .running | .suspended => 2
  | .built _ => 1
  | .done _ | .dropped => 0

def World.load (w : World) : ℕ :=
  (w.tasks.map Task.left).sum

theorem TaskMove.left_lt (h : TaskMove i lock op pc ans pc' lock')
    (hQ : Prompt Q) {log : List Event} (hans : ∀ e ∈ ans, Q log e) :
    Task.left ⟨op, pc'⟩ < Task.left ⟨op, pc⟩ := by
  cases h with
  | pends => exact absurd (hans _ rfl) (hQ.acceptPends log)
  | receives op pc a hop hpc => rcases hpc with rfl | rfl <;> simp [Task.left]
  | idles op pc r hop hpc =>
      cases r with
      | pending => exact absurd (hans _ rfl) (hQ.idlePends log)
      | ready u => rcases hpc with rfl | rfl <;> simp [Task.left, Pc.afterIdle]
  | _ => simp [Task.left]

theorem load_lt_of_step (hQ : Prompt Q) (h : Step Q w l w') (hl : l.isInner = true) :
    w'.load < w.load := by
  have hans := h.2
  cases h.move with
  | task i ans hi hm => exact sum_map_set_lt hi (hm.left_lt hQ hans)
  | drop i hi hpc =>
      apply sum_map_set_lt hi
      rcases hpc with hpc | hpc | hpc <;> simp [Task.left, hpc]
  | _ => cases hl

/-! ## As long as something is pending, something can be done -/

/-- Only those who wait for a request come to the mutex, and an entry never
waits. -/
def Task.Fits (t : Task) : Prop :=
  match t.pc with
  | .waiting | .running | .built _ => t.op.accepts = true
  | .suspended => t.op ≠ .aenter
  | _ => True

theorem TaskMove.fits (h : TaskMove i lock op pc ans pc' lock')
    (ht : Task.Fits ⟨op, pc⟩) : Task.Fits ⟨op, pc'⟩ := by
  cases h with
  | locks op hop | queues op hop | receives op pc a hop => exact hop
  | wakes => exact ht
  | pends op pc hop hpc =>
      intro heq
      rw [show op = .aenter from heq] at hop
      cases hop
  | idles op pc r hop hpc =>
      cases r with
      | ready u => trivial
      | pending =>
          intro heq
          rw [show op = .aenter from heq] at hop
          rcases hop with hop | hop <;> cases hop
  | enters | returns => trivial

theorem fits_of_reachable (h : Reachable (Step Q) new w) :
    ∀ (i : ℕ) (t : Task), w.tasks[i]? = some t → t.Fits := by
  refine h.invariant (I := fun w => ∀ (i : ℕ) (t : Task), w.tasks[i]? = some t → t.Fits)
    ?_ (by simp [new])
  intro u l v hstep hu
  cases hstep.move with
  | call | exit => exact forall_getElem?_concat trivial hu
  | close | refused => exact hu
  | drop i hi hpc => exact forall_getElem?_set trivial fun j t _ => hu j t
  | task i ans hi hm =>
      exact forall_getElem?_set (hm.fits (hu i _ hi)) fun j t _ => hu j t

theorem exists_step_of_taskStep {t : Task} (hi : w.tasks[i]? = some t)
    (h : (taskStep i t.op t.pc ans w.lock).isSome = true)
    (hans : ∀ e ∈ ans, Q w.log e) : ∃ w', Step Q w (.task i ans) w' := by
  obtain ⟨⟨pc, lock⟩, hpc⟩ := Option.isSome_iff_exists.mp h
  exact ⟨_, by simp only [next, hi, Option.bind_some, hpc, Option.map_some]; rfl, hans⟩

/-- Whoever is the first in the line can go on. -/
theorem exists_step_of_holder (hQ : Prompt Q) {t : Task} (hi : w.tasks[i]? = some t)
    (ht : t.queued = true) (hfits : t.Fits) (hw : w.lock.holder = some i) :
    ∃ ans w', Step Q w (.task i ans) w' := by
  obtain ⟨a, ha⟩ := hQ.accept w.log
  have hanswer : ∀ e ∈ some (Event.accept (.ready a)), Q w.log e := by
    rintro _ ⟨⟩
    exact ha
  obtain ⟨op, pc⟩ := t
  cases pc with
  | waiting =>
      exact ⟨none, exists_step_of_taskStep hi (by simp [taskStep, hw]) (by simp)⟩
  | running =>
      have hop : op.accepts = true := hfits
      exact ⟨_, exists_step_of_taskStep hi (by simp [taskStep, hop]) hanswer⟩
  | suspended =>
      have hop : op.accepts = true := ht
      exact ⟨_, exists_step_of_taskStep hi (by simp [taskStep, hop]) hanswer⟩
  | built r => exact ⟨none, exists_step_of_taskStep hi rfl (by simp)⟩
  | spawned | done | dropped => cases ht

/-- As long as a task is pending, some task can go on. -/
theorem exists_step_of_pending (hQ : Prompt Q) (hw : Locked w)
    (hfits : ∀ (i : ℕ) (t : Task), w.tasks[i]? = some t → t.Fits) {t : Task}
    (hi : w.tasks[i]? = some t) (hpending : t.pc.pending = true) :
    ∃ j ans w', Step Q w (.task j ans) w' := by
  have hidle : ∀ e ∈ some (Event.waitIdle (.ready ())), Q w.log e := by
    rintro _ ⟨⟩
    exact hQ.idle w.log
  by_cases hqueued : t.queued = true
  · have hmem : i ∈ w.lock.line := (hw.lined i t hi).mpr hqueued
    obtain ⟨j, hj⟩ : ∃ j, w.lock.holder = some j := by
      cases hline : w.lock.line with
      | nil =>
          rw [hline] at hmem
          cases hmem
      | cons j rest => exact ⟨j, by simp [FifoLock.holder, hline]⟩
    have hfirst := FifoLock.mem_line_of_holder hj
    have hu := List.getElem?_eq_getElem (hw.inside j hfirst)
    exact ⟨j, exists_step_of_holder hQ hu ((hw.lined j _ hu).mp hfirst) (hfits j _ hu) hj⟩
  · have ht := hfits i t hi
    obtain ⟨op, pc⟩ := t
    refine ⟨i, ?_⟩
    cases pc with
    | spawned =>
        cases op with
        | aenter => exact ⟨none, exists_step_of_taskStep hi rfl (by simp)⟩
        | anext | accept => exact ⟨none, exists_step_of_taskStep hi rfl (by simp)⟩
        | aexit | waitClosed => exact ⟨_, exists_step_of_taskStep hi rfl hidle⟩
    | suspended =>
        cases op with
        | aenter => exact absurd rfl ht
        | anext | accept => exact absurd rfl hqueued
        | aexit | waitClosed => exact ⟨_, exists_step_of_taskStep hi rfl hidle⟩
    | waiting | running | built => exact absurd rfl hqueued
    | done | dropped => cases hpending

/-! ## The server finishes -/

theorem task_stays (h : Step Q w l w') (hl : l.isLocal = true)
    (hw : ∃ pc, w.tasks[i]? = some ⟨op, pc⟩ ∧ pc ≠ .dropped) :
    ∃ pc, w'.tasks[i]? = some ⟨op, pc⟩ ∧ pc ≠ .dropped := by
  obtain ⟨old, hi, hne⟩ := hw
  cases h.move with
  | call | exit | close | refused | drop => cases hl
  | @task j ans t pc lock hj hm =>
      by_cases hji : j = i
      · subst hji
        obtain rfl := Option.some.inj (hj.symm.trans hi)
        refine ⟨pc, getElem?_set_of_eq_some hj, ?_⟩
        cases hm with
        | idles op pc r => cases r <;> simp [Pc.afterIdle]
        | _ => simp
      · exact ⟨old, getElem?_set_of_ne hji hi, hne⟩

theorem Step.weaken (h : Step Q w l w') : Step (fun _ _ => True) w l w' :=
  ⟨h.1, fun _ _ => trivial⟩

theorem finishes_of_reachable (hQ : Prompt Q)
    (h : Reachable (Step fun _ _ => True) new w) : Finishes Q w := by
  have hrest : ∀ {u}, Reachable (Step Q) w u →
      (∀ l u', l.isLocal = true → ¬ Step Q u l u') → u.AtRest := by
    intro u hu hstopped t ht
    have hreach : Reachable (Step fun _ _ => True) new u :=
      h.trans (hu.mono fun _ _ _ => Step.weaken)
    obtain ⟨i, hi⟩ := List.getElem?_of_mem ht
    by_contra hpending
    obtain ⟨j, ans, u', hstep⟩ := exists_step_of_pending hQ (locked_of_reachable hreach)
      (fits_of_reachable hreach) hi (by simpa using hpending)
    exact hstopped _ u' rfl hstep
  constructor
  · apply settles_of_measure World.load
    · intro s l t hl hstep
      exact load_lt_of_step hQ hstep hl
    · intro u hu hstopped
      apply hrest hu
      intro l u' hl
      exact hstopped l u' hl (Action.isInner_of_isLocal hl)
  · intro tr u hrun hall hstopped i t hi hpending
    have hne : t.pc ≠ .dropped := by
      intro hpc
      simp [hpc, Pc.pending] at hpending
    obtain ⟨pc, hi', hne'⟩ := hrun.invariant
      (I := fun u => ∃ pc, u.tasks[i]? = some ⟨t.op, pc⟩ ∧ pc ≠ .dropped)
      (fun _ _ _ hl hstep => task_stays hstep hl) hall ⟨t.pc, hi, hne⟩
    have hquiet := hrest hrun.reachable hstopped _ (List.mem_of_getElem? hi')
    cases pc with
    | done r => exact ⟨r, hi'⟩
    | dropped => exact absurd rfl hne'
    | _ => cases hquiet

/-- From the moment at which the QUIC server answers without delay, as it does once
it is closed, the server comes to rest in a bounded number of steps, and every
awaitable that was pending returns, whatever had happened before. -/
theorem closed_server_finishes (hQ : Prompt Q) (h : Reachable (Step Q₀) new w) :
    Finishes Q w :=
  finishes_of_reachable hQ (h.mono fun _ _ _ => Step.weaken)

end Finishing

def closedServer (_log : List Event) (e : Event) : Prop :=
  e = .accept (.ready none) ∨ e = .waitIdle (.ready ())

theorem closedServer_prompt : Prompt closedServer where
  accept _ := ⟨none, Or.inl rfl⟩
  idle _ := Or.inr rfl
  acceptPends log h := by
    rcases h with h | h <;> cases h
  idlePends log h := by
    rcases h with h | h <;> cases h

/-- An `accept` waits for a request, an `async for` behind it, and an exit. -/
def allWait : List Action :=
  [.call .accept, .call .anext, .task 0 none, .task 0 (some (.accept .pending)),
    .task 1 none, .call .aexit]

theorem allWait_finish : Finishes closedServer (after closingServer new allWait) :=
  closed_server_finishes closedServer_prompt (run_after allWait (by decide)).reachable

end WebTransport.Server
