import WebTransport.Client.Model
import WebTransport.Support.Settling

/-!
# A closed client leaves nobody waiting

Once the endpoint is closed the QUIC client answers without delay: a connection
attempt fails, and there is nothing left that the endpoint has to wait for.
-/

namespace WebTransport.Client

open Support Wrapper

section Finishing

variable {Url : Type}

/-- Nothing is pending on the client. -/
def World.AtRest (w : World Url) : Prop :=
  ∀ t ∈ w.tasks, t.pc.pending = false

/-- A poll of a task. -/
def Action.isLocal : Action Url → Bool
  | .task _ _ => true
  | _ => false

def Action.isInner : Action Url → Bool
  | .task _ _ | .drop _ => true
  | _ => false

theorem Action.isInner_of_isLocal {l : Action Url} (hl : l.isLocal = true) :
    l.isInner = true := by
  cases l with
  | task i ans => rfl
  | _ => cases hl

/-- Every call is answered, and none is kept waiting. -/
structure Prompt (Q : Answers (Event Url)) : Prop where
  connect : ∀ log url, ∃ r, Q log (.connect url (.ready r))
  idle : ∀ log, Q log (.waitIdle (.ready ()))
  closes : ∀ log, Q log (.close 0 [])
  connectPends : ∀ log url, ¬ Q log (.connect url .pending)
  idlePends : ∀ log, ¬ Q log (.waitIdle .pending)

variable [DecidableEq Url] {parse : String → Except String Url} {Q Q₀ : Answers (Event Url)}
  {i : ℕ} {op : Op Url} {w w' : World Url} {l : Action Url}

/-- The awaitables that are pending in `w` have returned or raised in `u`. -/
def World.CompletedIn (w u : World Url) : Prop :=
  ∀ (i : ℕ) (t : Task Url), w.tasks[i]? = some t → t.pc.pending = true →
    ∃ r, u.tasks[i]? = some ⟨t.op, .done r⟩

/-- From `w` on the client comes to rest by itself, and where asyncio drops nothing,
every awaitable that was pending returns or raises. -/
structure Finishes (parse : String → Except String Url) (Q : Answers (Event Url))
    (w : World Url) : Prop where
  settles : Settles (Step parse Q) (fun _ l => l.isInner = true)
    (fun l => l.isLocal = true) World.AtRest w
  completes : ∀ {tr u}, Run (Step parse Q) w tr u →
    Along (fun _ l => l.isLocal = true) tr →
    (∀ l u', l.isLocal = true → ¬ Step parse Q u l u') → w.CompletedIn u

def World.load (w : World Url) : ℕ :=
  (w.tasks.map fun t => t.pc.left).sum

theorem Prompt.awaits_ne_pending (hQ : Prompt Q) {log : List (Event Url)} {e : Event Url}
    (he : Q log e) : awaits op e ≠ some .pending := by
  intro hpending
  unfold awaits at hpending
  split at hpending
  · rename_i url u r
    split at hpending
    · cases r with
      | pending => exact hQ.connectPends log u he
      | ready a => rcases a with e | id <;> cases hpending
    · cases hpending
  · rename_i r
    cases r with
    | pending => exact hQ.idlePends log he
    | ready => cases hpending
  · rename_i r
    cases r with
    | pending => exact hQ.idlePends log he
    | ready => cases hpending
  · cases hpending

theorem Prompt.answering (hQ : Prompt Q) (log : List (Event Url)) :
    Client.oneCall.Answering (Q log) where
  answers op hop := by
    cases op with
    | aenter => exact absurd rfl (hop .self)
    | connect url =>
        obtain ⟨r, hr⟩ := hQ.connect log url
        have hawaits : awaits (.connect url) (.connect url (.ready r)) =
            some (connected (.ready r)) := if_pos rfl
        cases r with
        | ok id => exact ⟨.connect url (.ready (.ok id)), .ok (.session id), hawaits, hr⟩
        | error e =>
            exact ⟨.connect url (.ready (.error e)), .error (mapClientError e), hawaits, hr⟩
    | aexit | waitClosed => exact ⟨_, _, rfl, hQ.idle log⟩
  calls hop := by
    obtain ⟨rfl, rfl⟩ := first_eq_calls hop
    exact hQ.closes log

theorem load_lt_of_step (hQ : Prompt Q) (h : Step parse Q w l w')
    (hl : l.isInner = true) : w'.load < w.load := by
  have hans := h.2
  cases h.move with
  | task i ans hi hm =>
      exact sum_map_set_lt hi (hm.left_lt fun e he => hQ.awaits_ne_pending (hans e he))
  | drop i hi hpc =>
      apply sum_map_set_lt hi
      rcases hpc with hpc | hpc <;> simp [OneCall.Pc.left, hpc]
  | _ => cases hl

theorem settled_of_reachable (h : Reachable (Step parse Q) new w) :
    ∀ (i : ℕ) (t : Task Url), w.tasks[i]? = some t → oneCall.Settled t := by
  refine h.invariant (I := fun w => ∀ (i : ℕ) (t : Task Url), w.tasks[i]? = some t →
    oneCall.Settled t) ?_ (by simp [new])
  intro u l v hstep hu
  cases hstep.move with
  | call => exact forall_getElem?_concat (fun _ _ => Or.inl rfl) hu
  | noUrl | close | refused => exact hu
  | drop => exact forall_getElem?_set (fun _ _ => Or.inr rfl) fun j t _ => hu j t
  | task i ans hi hm => exact forall_getElem?_set hm.settled fun j t _ => hu j t

/-- A task that is pending can go on. -/
theorem exists_step_of_pending (hQ : Prompt Q) {t : Task Url}
    (hi : w.tasks[i]? = some t) (hpending : t.pc.pending = true)
    (ht : oneCall.Settled t) : ∃ ans w', Step parse Q w (.task i ans) w' := by
  obtain ⟨ans, pc, hpc, hans⟩ := (hQ.answering w.log).exists_taskStep hpending ht
  exact ⟨ans, _, by simp only [next, hi, Option.bind_some, hpc, Option.map_some]; rfl,
    hans⟩

theorem undropped_step (h : Step parse Q w l w') (hl : l.isLocal = true)
    (hw : OneCall.Undropped op i w.tasks) : OneCall.Undropped op i w'.tasks := by
  cases h.move with
  | task j ans hj hm => exact hw.set hj hm.ne_dropped
  | _ => cases hl

/-- From the moment at which the QUIC client answers without delay, as it does once
it is closed, the client comes to rest in a bounded number of steps, and every
awaitable that was pending comes to its end. -/
theorem finishes_of_reachable (hQ : Prompt Q)
    (h : Reachable (Step parse fun _ _ => True) new w) : Finishes parse Q w := by
  have hrest : ∀ {u}, Reachable (Step parse Q) w u →
      (∀ l u', l.isLocal = true → ¬ Step parse Q u l u') → u.AtRest := by
    intro u hu hstopped t ht
    have hreach : Reachable (Step parse fun _ _ => True) new u :=
      h.trans (hu.mono fun _ _ _ hstep => ⟨hstep.1, fun _ _ => trivial⟩)
    obtain ⟨i, hi⟩ := List.getElem?_of_mem ht
    by_contra hpending
    rw [Bool.not_eq_false] at hpending
    obtain ⟨ans, u', hstep⟩ :=
      exists_step_of_pending hQ hi hpending (settled_of_reachable hreach i t hi)
    exact hstopped _ u' rfl hstep
  constructor
  · apply settles_of_measure World.load
    · intro s l t hl hstep
      exact load_lt_of_step hQ hstep hl
    · intro u hu hstopped
      apply hrest hu
      intro l u' hl
      exact hstopped l u' hl (Action.isInner_of_isLocal hl)
  · intro tr u hrun hall hstopped i t hi hpending
    have hstays := hrun.invariant (I := fun u => OneCall.Undropped t.op i u.tasks)
      (fun _ _ _ hl hstep => undropped_step hstep hl) hall
      (OneCall.undropped_of_pending hi hpending)
    exact hstays.completed (hrest hrun.reachable hstopped)

end Finishing

end WebTransport.Client
