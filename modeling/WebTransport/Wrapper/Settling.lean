import WebTransport.Support.Settling
import WebTransport.Wrapper.Draining

/-!
# What a wrapper comes to by itself

Between two wake-ups from outside, a wrapper only goes on with what has been woken
inside it: a task in the middle of a poll, one whose mutex has come to it, or one
that watches a token which is set.  Such steps come to an end.  What is then still
pending waits for a single call on the QUIC stream: one operation is suspended in
it with the guard in hand, and everybody else stands in the line behind that
operation.
-/

namespace WebTransport.Wrapper

open Support

variable {Op Loc Ret Ev Vars Knob : Type}

/-- The task is to go on: it is in the middle of a poll, or it has been woken.
With `quic` a task that is suspended in the QUIC stream is woken, too. -/
def World.Awake (quic : Bool) (w : World Op Loc Ret Ev Vars Knob) (i : ℕ) :
    Task Op Loc Ret → Prop
  | .call _ pc =>
      match pc with
      | .suspended _ => quic = true ∨ w.cancelled = true
      | .waiting => w.Owns (.task i) ∨ w.cancelled = true
      | .closeWaiting => w.Owns (.task i)
      | .done _ | .dropped => False
      | _ => True
  | .exit _ pc =>
      match pc with
      | .waiting => w.Owns (.task i)
      | .returned | .dropped => False
      | _ => True

/-- The step polls a task that is awake, belongs to a synchronous call, or drops
a task. -/
def World.Due (quic : Bool) (w : World Op Loc Ret Ev Vars Knob) :
    Action Op Ev Knob → Prop
  | .task i _ => ∀ t ∈ w.tasks[i]?, w.Awake quic i t
  | .python _ | .drop _ => True
  | _ => False

/-- Everything that is pending on the wrapper waits for one call on the QUIC
stream: that of the operation `op` in the task `i`. -/
structure World.BlockedOn (w : World Op Loc Ret Ev Vars Knob) (i : ℕ) (op : Op) :
    Prop where
  suspended : ∃ l, w.tasks[i]? = some (.call op (.suspended l))
  owns : w.Owns (.task i)
  unset : w.cancelled = false
  idle : w.python = .idle
  behind : ∀ (j : ℕ) (t : Task Op Loc Ret), w.tasks[j]? = some t →
    t.pending = true → j ≠ i → .task j ∈ w.lock.line.tail

/-- From `w` on the wrapper settles by itself in a state with `P`: it polls what is
awake, and asyncio may drop tasks meanwhile. -/
abbrev Half.Settles (H : Half Op Loc Ret Ev Vars Knob) (Q : Answers Ev)
    (quic : Bool) (P : World Op Loc Ret Ev Vars Knob → Prop)
    (w : World Op Loc Ret Ev Vars Knob) : Prop :=
  Support.Settles (H.Step Q) (World.Due quic) (fun l => l.isLocal = true) P w

/-! ## Where nobody is awake -/

section Parked

variable {H : Half Op Loc Ret Ev Vars Knob} {Q : Answers Ev} {quic : Bool} {i : ℕ}
  {sh sh' : Shared Ev Vars} {t t' : Task Op Loc Ret} {ans : Option Ev}
  {w w' : World Op Loc Ret Ev Vars Knob} {l : Action Op Ev Knob}

/-- The operation waits for the guard to do its own work. -/
def Task.queued : Task Op Loc Ret → Bool
  | .call _ .waiting => true
  | _ => false

theorem TaskMove.queued (h : TaskMove H i sh t ans t' sh')
    (ht : t'.queued = true) : .task i ∈ sh'.lock.line := by
  cases h with
  | call op h =>
      cases h with
      | queues => exact FifoLock.mem_request_self
      | works l ans vars beat => cases beat <;> cases ht
      | _ => cases ht
  | exit b h => cases ht

theorem DropMove.not_queued (h : DropMove H i sh t t' sh') : t'.queued = false := by
  cases h <;> rfl

theorem mem_line_of_queued {vars : Vars}
    (h : Reachable (H.Step Q) (World.init vars) w) (hi : w.tasks[i]? = some t)
    (ht : t.queued = true) : .task i ∈ w.lock.line := by
  refine h.invariant (I := fun w => ∀ (i : ℕ) (t : Task Op Loc Ret),
    w.tasks[i]? = some t → t.queued = true → .task i ∈ w.lock.line)
    ?_ (fun i t hi => by simp [World.init] at hi) i t hi ht
  intro w l w' hstep hw
  cases hstep.move with
  | call op => exact forall_getElem?_concat (fun ht => by cases ht) hw
  | exit b => exact forall_getElem?_concat (fun ht => by cases ht) hw
  | closeRefused | closeBegins | assigns => exact hw
  | python ans hm =>
      exact fun i t hi ht => hm.mem_line_of_ne (hw i t hi ht) (by simp)
  | task i ans hi hm =>
      refine forall_getElem?_set hm.queued ?_
      exact fun j t hji hj ht => hm.mem_line_of_ne (hw j t hj ht) (by simpa using hji)
  | drop i hi hm =>
      refine forall_getElem?_set (fun ht => ?_) ?_
      · rw [hm.not_queued] at ht
        cases ht
      · exact fun j t hji hj ht =>
          hm.mem_line_of_ne (hw j t hj ht) (by simpa using hji)

/-- A pending task that is not awake waits for the mutex, or for the QUIC
stream. -/
theorem asleep_cases (hpending : t.pending = true) (ht : ¬ w.Awake quic i t) :
    ((t.queued = true ∨ t.waits = true) ∧ ¬ w.Owns (.task i)) ∨
      ∃ op l, t = .call op (.suspended l) ∧ quic = false ∧ w.cancelled = false := by
  cases t with
  | call op pc =>
      cases pc with
      | suspended l =>
          simp only [World.Awake, not_or, Bool.not_eq_true] at ht
          exact Or.inr ⟨op, l, rfl, ht⟩
      | waiting => exact Or.inl ⟨Or.inl rfl, fun ho => ht (Or.inl ho)⟩
      | closeWaiting => exact Or.inl ⟨Or.inr rfl, ht⟩
      | done r => cases hpending
      | dropped => cases hpending
      | _ => exact absurd trivial ht
  | exit b pc =>
      cases pc with
      | waiting => exact Or.inl ⟨Or.inr rfl, ht⟩
      | returned => cases hpending
      | dropped => cases hpending
      | _ => exact absurd trivial ht

/-- Where nobody is awake, nothing is pending, or everything waits for one call on
the QUIC stream. -/
theorem blocked_of_asleep {vars : Vars}
    (h : Reachable (H.Step Q) (World.init vars) w) (hidle : w.python = .idle)
    (hasleep : ∀ i t, w.tasks[i]? = some t → ¬ w.Awake quic i t) :
    w.AtRest ∨ (quic = false ∧ ∃ i op, w.BlockedOn i op) := by
  have hlined := lined_of_reachable h
  have hx := exclusive_of_reachable h
  have hin : ∀ {j t}, w.tasks[j]? = some t → t.pending = true →
      .task j ∈ w.lock.line := by
    intro j t hj hpending
    rcases asleep_cases hpending (hasleep j t hj) with ⟨hwaits, -⟩ | ⟨op, l, rfl, -⟩
    · exact hwaits.elim (mem_line_of_queued h hj) (hlined.waits j t hj)
    · exact FifoLock.mem_line_of_holder (hx.task j _ hj rfl)
  cases hline : w.lock.line with
  | nil =>
      refine Or.inl ⟨fun t ht => ?_, hline, hidle⟩
      obtain ⟨j, hj⟩ := List.getElem?_of_mem ht
      by_contra hpending
      have hmem := hin hj (by simpa using hpending)
      rw [hline] at hmem
      cases hmem
  | cons o rest =>
      have hfirst : w.Owns o := by simp [Shared.Owns, FifoLock.holder, hline]
      have hmem := FifoLock.mem_line_of_holder hfirst
      cases o with
      | python =>
          have hholds := hlined.python hmem
          rw [hidle] at hholds
          cases hholds
      | task i =>
          have hi := List.getElem?_eq_getElem (lt_length_of_mem_line h hmem)
          have hpending := pending_of_lined (hlined.task i _ hi hmem)
          rcases asleep_cases hpending (hasleep i _ hi) with
            ⟨-, hnot⟩ | ⟨op, l, ht, hquic, hunset⟩
          · exact absurd hfirst hnot
          · refine Or.inr ⟨hquic, i, op, ⟨l, hi.trans (congrArg some ht)⟩, hfirst,
              hunset, hidle, ?_⟩
            intro j t hj hpending hji
            have hstands := hin hj hpending
            rw [hline] at hstands ⊢
            exact (List.mem_cons.mp hstands).resolve_left (by simpa using hji)

theorem pending_of_awake (h : w.Awake quic i t) :
    t.pending = true ∧ (t.waits = true → w.Owns (.task i)) := by
  cases t with
  | call op pc =>
      cases pc with
      | closeWaiting => exact ⟨rfl, fun _ => h⟩
      | done r => exact h.elim
      | dropped => exact h.elim
      | _ => exact ⟨rfl, fun hwaits => by cases hwaits⟩
  | exit b pc =>
      cases pc with
      | waiting => exact ⟨rfl, fun _ => h⟩
      | returned => exact h.elim
      | dropped => exact h.elim
      | _ => exact ⟨rfl, fun hwaits => by cases hwaits⟩

theorem blocked_of_stopped {vars : Vars} {Q₀ : Answers Ev} (hQ : H.Responsive Q)
    (h : Reachable (H.Step Q₀) (World.init vars) w)
    (hstopped : ∀ l w', l.isLocal = true → w.Due quic l → ¬ H.Step Q w l w') :
    w.AtRest ∨ (quic = false ∧ ∃ i op, w.BlockedOn i op) := by
  refine blocked_of_asleep h ?_ ?_
  · by_contra hpy
    obtain ⟨ans, w', hstep⟩ := exists_step_of_python hQ hpy
    exact hstopped (.python ans) w' rfl trivial hstep
  · intro i t hi hawake
    obtain ⟨hpending, howns⟩ := pending_of_awake hawake
    obtain ⟨ans, w', hstep⟩ := exists_step_of_task hQ hi hpending howns
    refine hstopped (.task i ans) w' rfl (fun u hu => ?_) hstep
    obtain rfl := Option.some.inj (hi.symm.trans hu)
    exact hawake

end Parked

/-! ## How much is due -/

/-- No call of a body is answered with `pending`. -/
def Half.NeverPends (H : Half Op Loc Ret Ev Vars Knob) (Q : Answers Ev) : Prop :=
  ∀ log op l v ans v' l', H.body op l v ans = some (v', .pend l') →
    ¬ ∀ e ∈ ans, Q log e

/-- How many steps a task has left at most before it has to be woken again.  A
task that looks at the token before its request has more of them left than one
that looks at it with the mutex in hand. -/
def Half.due {H : Half Op Loc Ret Ev Vars Knob} {Q : Answers Ev}
    (R : H.Progress Q) (quic owns : Bool) : Task Op Loc Ret → ℕ
  | .call op pc =>
      match pc with
      | .done _ | .dropped => 0
      | .closeSent | .built _ => 1
      | .closeLoaded _ => 2
      | .closeHeld => 3
      | .closeWaiting => 4
      | .closing => 5
      | .interrupted _ => 6
      | .suspended l => if quic then 9 + R.rank op l else 7
      | .running l => 8 + R.rank op l
      | .checked => (if owns then 9 else 11) + R.rank op (H.enter op)
      | .waiting => 10 + R.rank op (H.enter op)
      | .spawned => 12 + R.rank op (H.enter op)
  | .exit _ pc =>
      match pc with
      | .returned | .dropped => 0
      | .sent => 1
      | .held => 2
      | .waiting => 3
      | .ready => 4
      | .stored => 5
      | .spawned => 6

def Half.dueAt {H : Half Op Loc Ret Ev Vars Knob} {Q : Answers Ev}
    (R : H.Progress Q) (quic : Bool) (sh : Shared Ev Vars) (i : ℕ) :
    Task Op Loc Ret → ℕ :=
  Half.due R quic (decide (sh.Owns (.task i)))

def Half.dueLoad {H : Half Op Loc Ret Ev Vars Knob} {Q : Answers Ev}
    (R : H.Progress Q) (quic : Bool) (w : World Op Loc Ret Ev Vars Knob) : ℕ :=
  (w.tasks.mapIdx (Half.dueAt R quic w.toShared)).sum + w.python.left

section Falls

variable {H : Half Op Loc Ret Ev Vars Knob} {Q : Answers Ev} {R : H.Progress Q}
  {quic : Bool} {i j : ℕ} {sh sh' : Shared Ev Vars} {t t' : Task Op Loc Ret}
  {ans : Option Ev} {w w' : World Op Loc Ret Ev Vars Knob} {l : Action Op Ev Knob}
  {tr : List (World Op Loc Ret Ev Vars Knob × Action Op Ev Knob)}

theorem dueAt_le (howns : sh.Owns (.task j) → sh'.Owns (.task j)) :
    Half.dueAt R quic sh' j t ≤ Half.dueAt R quic sh j t := by
  cases t with
  | exit b pc => exact le_rfl
  | call op pc =>
      cases pc with
      | checked =>
          by_cases ho : sh.Owns (.task j)
          · simp [Half.dueAt, Half.due, ho, howns ho]
          · simp only [Half.dueAt, Half.due, ho, decide_false]
            split <;> simp
      | _ => exact le_rfl

theorem TaskMove.due_lt (h : TaskMove H i w.toShared t ans t' sh')
    (hpends : quic = true → H.NeverPends Q) (hans : ∀ e ∈ ans, Q w.log e)
    (hawake : w.Awake quic i t) :
    Half.dueAt R quic sh' i t' < Half.dueAt R quic w.toShared i t := by
  unfold Half.dueAt
  cases h with
  | exit b h => cases h <;> simp [Half.due]
  | call op h =>
      cases h with
      | spawnedUnset =>
          simp only [Half.due]
          split <;> omega
      | waitingUnset hunset =>
          have howns : w.Owns (.task i) := by
            refine hawake.resolve_right fun hset => ?_
            rw [hunset] at hset
            cases hset
          simp only [Half.due, howns, decide_true, if_true]
          omega
      | suspendedSet l =>
          simp only [Half.due]
          split <;> omega
      | suspendedUnset l hunset =>
          have hquic : quic = true := by
            refine hawake.resolve_right fun hset => ?_
            rw [hunset] at hset
            cases hset
          simp only [Half.due, hquic, if_true]
          omega
      | enters ho =>
          simp only [Half.due]
          split <;> omega
      | queues ho =>
          have hnot : ¬ w.Owns (.task i) := fun howns => ho howns.request
          simp only [Half.due, hnot, decide_false]
          simp
      | works l ans vars beat hb =>
          cases beat with
          | more l' =>
              have hfalls : R.rank op l' < R.rank op l := R.falls hb hans
              simp only [Half.due, Beat.pc]
              omega
          | pend l' =>
              cases quic with
              | true => exact absurd hans (hpends rfl _ _ _ _ _ _ _ hb)
              | false =>
                  simp only [Half.due, Beat.pc, Bool.false_eq_true, if_false]
                  omega
          | ready r =>
              simp only [Half.due, Beat.pc]
              omega
      | _ =>
          simp only [Half.due]
          omega

theorem DropMove.due_lt (h : DropMove H i sh t t' sh') :
    Half.dueAt R quic sh' i t' < Half.dueAt R quic sh i t := by
  unfold Half.dueAt
  cases h with
  | callSuspended op l =>
      simp only [Half.due]
      split <;> omega
  | _ => simp [Half.due]

/-- A step that is due makes less of what is due. -/
theorem dueLoad_lt_of_step (hpends : quic = true → H.NeverPends Q)
    (h : H.Step Q w l w') (hdue : w.Due quic l) :
    Half.dueLoad R quic w' < Half.dueLoad R quic w := by
  cases h.move with
  | call | exit | closeRefused | closeBegins | assigns => exact hdue.elim
  | @python ans py sh hm =>
      have hfalls := hm.left_lt
      have hrest := sum_mapIdx_le (l := w.tasks) (f := Half.dueAt R quic w.toShared)
        (g := Half.dueAt R quic sh)
        fun j t _ => dueAt_le fun ho => hm.owns_other ho (by simp)
      simp only [Half.dueLoad]
      omega
  | task i ans hi hm =>
      have hfalls := sum_mapIdx_set_lt hi
        (hm.due_lt (R := R) hpends h.2 (hdue _ hi))
        fun j t hji _ => dueAt_le fun ho => hm.owns_other ho (by simpa using hji)
      simp only [Half.dueLoad]
      omega
  | drop i hi hm =>
      have hfalls := sum_mapIdx_set_lt hi
        (f := Half.dueAt R quic w.toShared) hm.due_lt
        fun j t hji _ => dueAt_le fun ho => hm.owns_other ho (by simpa using hji)
      simp only [Half.dueLoad]
      omega

end Falls

/-! ## The wrapper settles -/

section Settles

variable {H : Half Op Loc Ret Ev Vars Knob} {Q : Answers Ev} {vars : Vars}
  {w : World Op Loc Ret Ev Vars Knob}

/-- From any state that can be reached, a wrapper that the QUIC stream does not
wake comes to rest, or to wait for a single call on the stream. -/
theorem settles_of_reachable (hQ : H.Responsive Q) (R : H.Progress Q)
    (h : Reachable (H.Step Q) (World.init vars) w) :
    H.Settles Q false (fun u => u.AtRest ∨ ∃ i op, u.BlockedOn i op) w := by
  apply settles_of_measure (Half.dueLoad R false)
  · intro w l w' hdue hstep
    exact dueLoad_lt_of_step (fun hquic => by cases hquic) hstep hdue
  intro u hu hstopped
  exact (blocked_of_stopped hQ (h.trans hu) hstopped).imp_right And.right

theorem atRest_of_nothing_due {Q₀ : Answers Ev} (hQ : H.Responsive Q)
    (h : Reachable (H.Step Q₀) (World.init vars) w)
    (hstopped : ∀ l w', l.isLocal = true → w.Due true l → ¬ H.Step Q w l w') :
    w.AtRest := by
  refine (blocked_of_stopped hQ h hstopped).resolve_right ?_
  rintro ⟨hquic, -⟩
  cases hquic

theorem Half.Step.weaken {l : Action Op Ev Knob} {w' : World Op Loc Ret Ev Vars Knob}
    (h : H.Step Q w l w') : H.Step (fun _ _ => True) w l w' :=
  ⟨h.1, fun _ _ => trivial⟩

/-- From `w` on the wrapper comes to rest, and where asyncio drops nothing every
task that was pending comes to its end. -/
structure Half.Finishes (H : Half Op Loc Ret Ev Vars Knob) (Q : Answers Ev)
    (w : World Op Loc Ret Ev Vars Knob) : Prop where
  settles : H.Settles Q true World.AtRest w
  completes : ∀ {tr u}, Run (H.Step Q) w tr u →
    Along (fun u l => u.Due true l ∧ l.isLocal = true) tr →
    (∀ l u', l.isLocal = true → u.Due true l → ¬ H.Step Q u l u') →
    ∀ (i : ℕ) (t : Task Op Loc Ret), w.tasks[i]? = some t → t.pending = true →
      ∃ t' : Task Op Loc Ret, u.tasks[i]? = some t' ∧ t'.completed = true

/-- A wrapper whose QUIC stream answers every call at once, from some state on,
finishes from there. -/
theorem finishes_of_reachable {Q₀ : Answers Ev} (hQ : H.Responsive Q)
    (R : H.Progress Q) (hpends : H.NeverPends Q)
    (h : Reachable (H.Step Q₀) (World.init vars) w) : H.Finishes Q w := by
  have hrest : ∀ {u}, Reachable (H.Step Q) w u →
      (∀ l u', l.isLocal = true → u.Due true l → ¬ H.Step Q u l u') → u.AtRest := by
    intro u hu hstopped
    have hreach := (h.mono fun _ _ _ => Half.Step.weaken).trans
      (hu.mono fun _ _ _ => Half.Step.weaken)
    exact atRest_of_nothing_due hQ hreach hstopped
  have hsettles : H.Settles Q true World.AtRest w :=
    settles_of_measure (Half.dueLoad R true)
      (fun _ _ _ hdue hstep => dueLoad_lt_of_step (fun _ => hpends) hstep hdue) hrest
  refine ⟨hsettles, ?_⟩
  intro tr u hrun hall hstopped i t hi hpending
  have hlast : ∃ t, u.tasks[i]? = some t ∧
      (t.pending = true ∨ t.completed = true) :=
    hrun.invariant
      (I := fun u => ∃ t, u.tasks[i]? = some t ∧
        (t.pending = true ∨ t.completed = true))
      (fun _ _ _ hl hstep => exists_task_of_step hstep hl.2) hall
      ⟨t, hi, Or.inl hpending⟩
  obtain ⟨t', hi', ht'⟩ := hlast
  have hquiet := (hrest hrun.reachable hstopped).quiet t' (List.mem_of_getElem? hi')
  refine ⟨t', hi', ht'.resolve_left ?_⟩
  rw [hquiet]
  exact Bool.false_ne_true

end Settles

end WebTransport.Wrapper
