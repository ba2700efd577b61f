import WebTransport.SendStream.Model
import WebTransport.Wrapper.LocalClose

/-!
# At most one action ends the stream

`finish`, `reset` and the exits all end the stream, but keep account of that in
two places: `finish` and a clean exit leave it to the QUIC stream, a `reset` and
an exit on an exception set the token as well.  `finish` heeds both, `reset` only
the token.
-/

namespace WebTransport.SendStream

open Support Wrapper

/-! ## Actions that end the stream -/

def Event.resets : Event → Bool
  | .reset _ ok => ok
  | _ => false

/-- `reset` has succeeded on the QUIC stream. -/
def WasReset (log : List Event) : Prop :=
  log.any Event.resets = true

instance (log : List Event) : Decidable (WasReset log) :=
  inferInstanceAs (Decidable (_ = _))

theorem wasReset_mono {log log' : List Event} (h : log <+: log') (hreset : WasReset log) :
    WasReset log' := by
  obtain ⟨rest, rfl⟩ := h
  simp only [WasReset, List.any_append, Bool.or_eq_true]
  exact Or.inl hreset

/-- The first `reset` wins. -/
def ResetLaw (Q : Answers Event) : Prop :=
  ∀ log code, Q log (.reset code true) → ¬ WasReset log

theorem openSession_resetLaw : ResetLaw OpenSession := by
  intro log code h hreset
  simp only [OpenSession, openSession, decide_eq_true_eq, Bool.true_eq,
    Bool.not_eq_true', List.any_eq_false, Option.isSome_iff_ne_none, ne_eq,
    not_not] at h
  obtain ⟨e, he, hok⟩ := List.any_eq_true.mp hreset
  have hnone : e.closeCode = none := h e he
  cases e <;> simp_all [Event.resets, Event.closeCode]

section Ending

variable (errorFromHttp3 : ErrorFromHttp3) (Q : Answers Event)

/-- The step by which an action that ends the stream returns: `finish` or
`reset` with `Ok`, or an exit. -/
inductive Ends (w : World) : Action Op Event Int32 → World → Prop
  | finish {i : ℕ} {v : Value} {w' : World}
      (hstep : (half errorFromHttp3).Step Q w (.task i none) w')
      (hi : w.tasks[i]? = some (.call .finish (.built (.ok v)))) :
      Ends w (.task i none) w'
  | reset {code : UInt32} {w' : World}
      (hret : (half errorFromHttp3).CloseReturns Q w code w') :
      Ends w (.python none) w'
  | exit {i : ℕ} {b : Bool} {w' : World}
      (hstep : (half errorFromHttp3).Step Q w (.task i none) w')
      (hi : w.tasks[i]? = some (.exit b .sent)) :
      Ends w (.task i none) w'

/-- The calls of `reset` in the trace of a run raise and change nothing. -/
def ResetsRefused (tr : List (World × Action Op Event Int32)) : Prop :=
  Along (fun u l => ∀ code, l = .close code →
    reset u = .error (.streamClosedLocally "stream already closed") ∧
      (half errorFromHttp3).next u l = some u) tr

/-- Each `finish` that was called since there were `n` tasks raises. -/
def FinishesRaise (n : ℕ) (w : World) : Prop :=
  ∀ i r, n ≤ i → w.tasks[i]? = some (.call .finish (.done r)) →
    ∃ msg, r = .error (.streamClosedLocally msg)

/-- What is said of the calls made since there were `n` tasks, in a run with the
trace `tr` that leads to `w`: `reset` and `finish` raise, and none of them finishes or
resets the QUIC stream. -/
structure LaterRefused (n : ℕ) (tr : List (World × Action Op Event Int32))
    (w : World) : Prop where
  reset : ResetsRefused errorFromHttp3 tr
  finish : FinishesRaise n w
  silent : Along (fun u l => ∀ i e pc, l = .task i (some e) → n ≤ i →
    u.tasks[i]? = some (.call .finish pc) → e.closes = false) tr

/-- The task is a `finish` in its cancel branch, with the guard in hand. -/
def resetting : Task Op Loc Ret → Bool
  | .call .finish .closeHeld => true
  | .call .finish (.closeLoaded _) => true
  | _ => false

/-- The next step of task `i` takes the guard for the cancel branch of a `finish`. -/
def entersToReset (sh : Shared Event Priorities) (i : ℕ) : Task Op Loc Ret → Bool
  | .call .finish .closing => (sh.request (.task i)).Owns (.task i)
  | .call .finish .closeWaiting => sh.Owns (.task i)
  | _ => false

/-- The condition on a step: the guard is given to the cancel branch of a `finish`
that was called since there were `n` tasks only when the QUIC stream has been reset. -/
def NoResetEnters (n : ℕ) (w : World) : Action Op Event Int32 → Prop
  | .task i _ => n ≤ i →
      (w.tasks[i]?.any (entersToReset w.toShared i)) = true → WasReset w.log
  | _ => True

instance (n : ℕ) (w : World) : (l : Action Op Event Int32) → Decidable (NoResetEnters n w l)
  | .task _ _ => inferInstanceAs (Decidable (_ → _ → _))
  | .call _ | .exit _ | .close _ | .assign _ | .python _ | .drop _ =>
      inferInstanceAs (Decidable True)

/-- Once an action has ended the stream, the later ones are refused. -/
def EndsOnce (priority : Int32) : Prop :=
  ∀ ⦃w w₁ w₂ : World⦄ ⦃l tr⦄,
    Reachable ((half errorFromHttp3).Step Q) (new priority) w →
    Ends errorFromHttp3 Q w l w₁ → Run ((half errorFromHttp3).Step Q) w₁ tr w₂ →
    LaterRefused errorFromHttp3 w₁.tasks.length tr w₂

end Ending

/-! ## The stream is closed when the action returns -/

/-- The task has finished the QUIC stream, or has found it closed. -/
def hasFinished : Task Op Loc Ret → Bool
  | .call .finish (.built (.ok _)) => true
  | .exit false .sent => true
  | _ => false

/-- The token is set, or the QUIC stream is closed. -/
def Ended (w : World) : Prop :=
  w.cancelled = true ∨ Closed w.log

section Moves

variable {errorFromHttp3 : ErrorFromHttp3} {Q : Answers Event} {i n : ℕ}
  {sh sh' : Shared Event Priorities} {t t' : Task Op Loc Ret}
  {ans : Option Event} {w w' w₁ w₂ : World} {l : Action Op Event Int32}
  {priority : Int32} {log log' : List Event}
  {tr₀ tr : List (World × Action Op Event Int32)}

theorem closed_of_hasFinished_move (hfinish : FinishLaw Q)
    (hQ : ∀ e ∈ ans, Q sh.log e)
    (h : TaskMove (half errorFromHttp3) i sh t ans t' sh')
    (ht : hasFinished t' = true) : Closed sh'.log := by
  cases h with
  | call op h =>
      cases op with
      | finish =>
          cases h with
          | works loc ans v beat hb =>
              have hb : body errorFromHttp3 .finish loc sh.vars ans =
                some (v, beat) := hb
              cases bodyMove_of_body hb with
              | finishes sent => simp [Shared.record, Event.closes]
              | _ => cases ht
          | _ => cases ht
      | _ => cases ht
  | exit b h =>
      cases b with
      | true => cases ht
      | false =>
          cases h with
          | sendsClose b e hb => cases hb
          | sendsFinish b e hb he =>
              obtain ⟨ok, rfl⟩ := eq_finish_of_isFinish he
              have hok := hfinish sh.log ok (hQ _ rfl)
              by_cases hclosed : Closed sh.log
              · simp [Shared.record, hclosed]
              · simp [Shared.record, Event.closes, hok.mpr hclosed]
          | _ => cases ht

theorem not_hasFinished_of_dropMove
    (h : DropMove (half errorFromHttp3) i sh t t' sh') : hasFinished t' = false := by
  cases h with
  | exitSpawned b | exitWaiting b => cases b <;> rfl
  | callSpawned op | callWaiting op | callSuspended op | callCloseWaiting op =>
      cases op <;> rfl

theorem closed_of_hasFinished (hfinish : FinishLaw Q)
    (h : Reachable ((half errorFromHttp3).Step Q) (new priority) w)
    (hi : w.tasks[i]? = some t) (ht : hasFinished t = true) : Closed w.log := by
  refine holds_at_point (p := hasFinished) (P := fun w => Closed w.log)
    (fun op => by cases op <;> rfl) (fun b => by cases b <;> rfl) ?_
    not_hasFinished_of_dropMove (fun hstep => closed_mono hstep.log_isPrefix) h hi ht
  intro u u' i ans t t' hstep hm ht'
  exact Or.inr (closed_of_hasFinished_move hfinish hstep.2 hm ht')

theorem Ends.step (h : Ends errorFromHttp3 Q w l w') :
    (half errorFromHttp3).Step Q w l w' := by
  cases h with
  | finish hstep | exit hstep => exact hstep
  | reset hret => exact hret.step

theorem ended_of_ends (hfinish : FinishLaw Q)
    (hreach : Reachable ((half errorFromHttp3).Step Q) (new priority) w)
    (h : Ends errorFromHttp3 Q w l w') : Ended w' := by
  cases h with
  | finish hstep hi =>
      exact Or.inr (closed_mono hstep.log_isPrefix
        (closed_of_hasFinished hfinish hreach hi rfl))
  | reset hret =>
      exact Or.inl (cancelled_of_locallyCloses hreach
        ⟨hret.step, Or.inl ⟨rfl, _, hret⟩⟩)
  | @exit i b w' hstep hi =>
      cases b with
      | true =>
          exact Or.inl (cancelled_of_locallyCloses hreach
            ⟨hstep, Or.inr ⟨i, rfl, hi⟩⟩)
      | false =>
          exact Or.inr (closed_mono hstep.log_isPrefix
            (closed_of_hasFinished hfinish hreach hi rfl))

theorem Ended.step (h : (half errorFromHttp3).Step Q w l w') (hw : Ended w) :
    Ended w' :=
  hw.imp h.cancelled (closed_mono h.log_isPrefix)

/-! ## Late calls of `finish` -/

/-- Where a `finish` can be that was called after the end: it is past its test
of the token only if the QUIC stream is closed. -/
def Late (log : List Event) : Task Op Loc Ret → Prop
  | .call .finish pc =>
      match pc with
      | .checked | .waiting | .running _ | .suspended _ => Closed log
      | .built r | .done r => ∃ msg, r = .error (.streamClosedLocally msg)
      | _ => True
  | _ => True

theorem Late.mono (h : Late log t) (hpre : log <+: log') : Late log' t := by
  cases t with
  | exit b pc => trivial
  | call op pc =>
      cases op with
      | finish =>
          cases pc with
          | checked | waiting | running | suspended => exact closed_mono hpre h
          | built r | done r => exact h
          | _ => trivial
      | _ => trivial

theorem late_of_taskMove (hfinish : FinishLaw Q) (hreset : ResetLaw Q)
    (hQ : ∀ e ∈ ans, Q sh.log e)
    (h : TaskMove (half errorFromHttp3) i sh t ans t' sh')
    (hended : sh.cancelled = true ∨ Closed sh.log) (ht : Late sh.log t) :
    Late sh'.log t' ∧ ∀ e pc, t = .call .finish pc → e ∈ ans → e.closes = true →
      resetting t = true ∧ ¬ WasReset sh.log := by
  cases h with
  | exit b h => exact ⟨trivial, fun e pc ht => by cases ht⟩
  | call op h =>
      cases op with
      | finish =>
          cases h with
          | works loc ans v beat hb =>
              have hclosed : Closed sh.log := ht
              have hstays : ∀ {evs}, Closed (sh.record evs).log := fun {evs} =>
                closed_append.mpr (Or.inl hclosed)
              have hb : body errorFromHttp3 .finish loc sh.vars ans =
                some (v, beat) := hb
              cases bodyMove_of_body hb with
              | finishes sent =>
                  exact absurd hclosed ((hfinish _ _ (hQ _ rfl)).mp rfl)
              | finishRefused sent =>
                  exact ⟨⟨_, rfl⟩, fun e pc _ he hcloses => by cases he; cases hcloses⟩
              | applies op desired ok =>
                  exact ⟨hstays, fun e pc _ he hcloses => by cases he; cases hcloses⟩
              | _ => exact ⟨hstays, fun e pc _ he => by cases he⟩
          | closeSends code e he =>
              refine ⟨trivial, fun e' pc _ he' hcloses => ⟨rfl, ?_⟩⟩
              cases he'
              obtain ⟨ok, rfl⟩ := eq_reset_of_closeCode he
              obtain rfl : ok = true := hcloses
              exact hreset _ _ (hQ _ rfl)
          | spawnedUnset hunset =>
              refine ⟨hended.resolve_left ?_, fun e pc _ he => by cases he⟩
              rw [hunset]
              exact Bool.false_ne_true
          | closeReturns => exact ⟨⟨_, rfl⟩, fun e pc _ he => by cases he⟩
          | waitingUnset | suspendedUnset | enters | queues | returns =>
              exact ⟨ht, fun e pc _ he => by cases he⟩
          | _ => exact ⟨trivial, fun e pc _ he => by cases he⟩
      | _ => exact ⟨trivial, fun e pc ht => by cases ht⟩

theorem late_of_dropMove (h : DropMove (half errorFromHttp3) i sh t t' sh') :
    Late log t' := by
  cases h with
  | exitSpawned b | exitWaiting b => trivial
  | callSpawned op | callWaiting op | callSuspended op | callCloseWaiting op =>
      cases op <;> trivial

/-- Once an action has ended the stream, a `finish` that is called then is late in
every run, and closes the QUIC stream only by resetting it for the first time. -/
theorem late_of_run (hfinish : FinishLaw Q) (hreset : ResetLaw Q)
    (hreach : Reachable ((half errorFromHttp3).Step Q) (new priority) w)
    (hends : Ends errorFromHttp3 Q w l w₁)
    (hrun : Run ((half errorFromHttp3).Step Q) w₁ tr w₂) :
    (∀ (i : ℕ) (t : Task Op Loc Ret), w₂.tasks[i]? = some t →
      w₁.tasks.length ≤ i → Late w₂.log t) ∧
    Along (fun u l => ∀ i e pc, l = .task i (some e) → w₁.tasks.length ≤ i →
      u.tasks[i]? = some (.call .finish pc) → e.closes = true →
        resetting (.call .finish pc) = true ∧ ¬ WasReset u.log) tr := by
  have hstart : Ended w₁ ∧ ∀ (i : ℕ) (t : Task Op Loc Ret),
      w₁.tasks[i]? = some t → w₁.tasks.length ≤ i → Late w₁.log t := by
    refine ⟨ended_of_ends hfinish hreach hends, fun i t hi hn => ?_⟩
    exact absurd (lt_length_of_getElem? hi) (by omega)
  have hboth := hrun.invariant_along (K := fun _ _ => True)
    (I := fun u => Ended u ∧ ∀ (i : ℕ) (t : Task Op Loc Ret),
      u.tasks[i]? = some t → w₁.tasks.length ≤ i → Late u.log t)
    (P := fun u l => ∀ i e pc, l = .task i (some e) → w₁.tasks.length ≤ i →
      u.tasks[i]? = some (.call .finish pc) → e.closes = true →
        resetting (.call .finish pc) = true ∧ ¬ WasReset u.log) ?_ along_true hstart
  · exact ⟨hboth.1.2, hboth.2⟩
  · rintro u l u' - hstep ⟨hended, hlate⟩
    refine ⟨⟨hended.step hstep, ?_⟩, ?_⟩
    · refine hstep.forall_tasks (fun op _ => by cases op <;> trivial)
        (fun b _ => trivial) ?_ ?_ ?_ hlate
      · rintro i ans t t' rfl hi hm ht hn
        exact (late_of_taskMove hfinish hreset hstep.2 hm hended (ht hn)).1
      · exact fun i t t' _ _ hm _ _ => late_of_dropMove hm
      · exact fun i t _ _ _ ht hn => (ht hn).mono hstep.log_isPrefix
    · rintro i e pc rfl hn hi
      cases hstep.move with
      | task i ans hj hm =>
          obtain rfl := Option.some.inj (hi.symm.trans hj)
          exact (late_of_taskMove hfinish hreset hstep.2 hm hended
            (hlate i _ hi hn)).2 e pc rfl rfl

theorem resetting_of_taskMove (h : TaskMove (half errorFromHttp3) i sh t ans t' sh')
    (ht' : resetting t' = true) :
    resetting t = true ∨ entersToReset sh i t = true := by
  cases h with
  | exit b h => cases ht'
  | call op h =>
      cases op with
      | finish =>
          cases h with
          | closeLocks ho => exact Or.inr (decide_eq_true ho)
          | closeWakes ho => exact Or.inr (decide_eq_true ho)
          | closeLoads => exact Or.inl rfl
          | works loc ans v beat hb => cases beat <;> cases ht'
          | _ => cases ht'
      | _ => cases ht'

theorem not_resetting_of_dropMove (h : DropMove (half errorFromHttp3) i sh t t' sh') :
    resetting t' = false := by
  cases h with
  | exitSpawned b | exitWaiting b => rfl
  | callSpawned op | callWaiting op | callSuspended op | callCloseWaiting op =>
      cases op <;> rfl

/-- A late `finish` that has the guard to reset the QUIC stream finds it reset before,
in a run whose steps give the guard to none that does not. -/
theorem wasReset_of_resetting (hrun : Run ((half errorFromHttp3).Step Q) w₁ tr w₂)
    (hall : Along (NoResetEnters w₁.tasks.length) tr) :
    Along (fun u _ => ∀ (i : ℕ) (t : Task Op Loc Ret), u.tasks[i]? = some t →
      w₁.tasks.length ≤ i → resetting t = true → WasReset u.log) tr := by
  refine (hrun.invariant_along (I := fun u => ∀ (i : ℕ) (t : Task Op Loc Ret),
    u.tasks[i]? = some t → w₁.tasks.length ≤ i → resetting t = true → WasReset u.log)
    ?_ hall ?_).2
  · rintro u l u' hK hstep hbefore
    refine ⟨?_, hbefore⟩
    refine hstep.forall_tasks (fun op _ ht => by cases op <;> cases ht)
      (fun b _ ht => by cases ht) ?_ ?_ ?_ hbefore
    · rintro i ans t t' rfl hi hm ht hn ht'
      refine wasReset_mono hstep.log_isPrefix ?_
      rcases resetting_of_taskMove hm ht' with hresetting | henters
      · exact ht hn hresetting
      · exact hK hn (by rw [hi, Option.any_some, henters])
    · intro i t t' _ _ hm _ _ ht'
      rw [not_resetting_of_dropMove hm] at ht'
      cases ht'
    · exact fun i t _ _ _ ht hn hresetting =>
        wasReset_mono hstep.log_isPrefix (ht hn hresetting)
  · intro i t hi hn
    exact absurd (lt_length_of_getElem? hi) (by omega)

theorem noResetEnters_of_wasReset (hrun : Run ((half errorFromHttp3).Step Q) w₁ tr w₂)
    (hw : WasReset w₁.log) : Along (NoResetEnters n) tr := by
  refine (hrun.invariant_along (K := fun _ _ => True) (I := fun u => WasReset u.log)
    ?_ along_true hw).2
  rintro u l u' - hstep hreset
  refine ⟨wasReset_mono hstep.log_isPrefix hreset, ?_⟩
  cases l with
  | task i ans => exact fun _ _ => hreset
  | _ => trivial

/-- Once an action has ended the stream, a later `reset` is refused if and only if it
comes after a local close, and a later `finish` raises.  If the guard is given to the
cancel branch of none before the QUIC stream was reset, none of them does anything
to it. -/
theorem laterRefused_iff (hfinish : FinishLaw Q) (hreset : ResetLaw Q)
    (h₀ : Run ((half errorFromHttp3).Step Q) (new priority) tr₀ w)
    (hends : Ends errorFromHttp3 Q w l w₁)
    (hrun : Run ((half errorFromHttp3).Step Q) w₁ tr w₂) :
    (ResetsRefused errorFromHttp3 tr ↔
      (half errorFromHttp3).ClosesFollow Q (tr₀ ++ [(w, l)]) tr) ∧
    FinishesRaise w₁.tasks.length w₂ ∧
    (Along (NoResetEnters w₁.tasks.length) tr →
      (LaterRefused errorFromHttp3 w₁.tasks.length tr w₂ ↔
        (half errorFromHttp3).ClosesFollow Q (tr₀ ++ [(w, l)]) tr)) := by
  obtain ⟨hlate, hcloses⟩ := late_of_run hfinish hreset h₀.reachable hends hrun
  have hiff : ResetsRefused errorFromHttp3 tr ↔
      (half errorFromHttp3).ClosesFollow Q (tr₀ ++ [(w, l)]) tr :=
    closesRefused_iff _ (h₀.tail hends.step) hrun
  have hraises : FinishesRaise w₁.tasks.length w₂ := fun i r hn hi => hlate i _ hi hn
  refine ⟨hiff, hraises, fun hall => ⟨fun hrefused => hiff.mp hrefused.reset, ?_⟩⟩
  intro hfollow
  refine ⟨hiff.mpr hfollow, hraises, ?_⟩
  rintro p hp i e pc hl hn hi
  by_contra hclosing
  obtain ⟨hresetting, hnot⟩ := hcloses p hp i e pc hl hn hi (by simpa using hclosing)
  exact hnot (wasReset_of_resetting hrun hall p hp i _ hi hn hresetting)

end Moves

end WebTransport.SendStream
