import WebTransport.SendStream.Model
import WebTransport.Wrapper.Exclusion
import WebTransport.Wrapper.Token

/-!
# No finish after an accepted reset

While a reset waits for the mutex the QUIC stream does not know of it, and would
still accept a `finish`.  This module follows the tasks that can call it in that
time: a clean exit, which never looks at the token, and a `finish()` that has
looked at it too early.
-/

namespace WebTransport.SendStream

open Support Wrapper

/-- The task has the guard and goes on to `finish` the QUIC stream. -/
def finishing : Task Op Loc Ret → Bool
  | .call .finish (.running _) => true
  | .exit false .held => true
  | _ => false

/-- The next step of task `i` takes the guard for a `finish`. -/
def entersToFinish (sh : Shared Event Priorities) (i : ℕ) :
    Task Op Loc Ret → Bool
  | .call .finish .checked => (sh.request (.task i)).Owns (.task i)
  | .exit false .ready => (sh.request (.task i)).Owns (.task i)
  | .exit false .waiting => sh.Owns (.task i)
  | _ => false

/-- The condition on the state in which a reset is accepted. -/
def NoneFinishing (w : World) : Prop :=
  ¬ Closed w.log → ∀ t ∈ w.tasks, finishing t = false

/-- The condition on a later step: the guard is not given to a `finish` on a
stream that is open. -/
def NoFinishEnters (w : World) : Action Op Event Int32 → Prop
  | .task i _ => ¬ Closed w.log →
      (w.tasks[i]?.any (entersToFinish w.toShared i)) = false
  | _ => True

instance (w : World) : Decidable (NoneFinishing w) :=
  inferInstanceAs (Decidable (_ → ∀ t ∈ w.tasks, _))

instance (w : World) : (l : Action Op Event Int32) → Decidable (NoFinishEnters w l)
  | .task _ _ => inferInstanceAs (Decidable (_ → _))
  | .call _ | .exit _ | .close _ | .assign _ | .python _ | .drop _ =>
      inferInstanceAs (Decidable True)

section Accepted

variable (errorFromHttp3 : ErrorFromHttp3) (Q : Answers Event) (priority : Int32)

/-- The step by which the local side gives the stream up: a `reset` returns
`Ok`, or an exit on an exception sets the token. -/
def Accepted (w : World) (l : Action Op Event Int32) (w' : World) : Prop :=
  (half errorFromHttp3).Step Q w l w' ∧
    ((l = .python none ∧ w'.python = .idle ∧
        ∃ code, w.python = .cancelled code ∨ w.python = .sent code) ∨
      ∃ i, l = .task i none ∧ w.tasks[i]? = some (.exit true .stored))

/-- A stream that was given up before it was finished is never finished, if the
state in which it was given up meets `A` and every later step meets `K`. -/
def NeverFinished (A : World → Prop) (K : World → Action Op Event Int32 → Prop) :
    Prop :=
  ∀ ⦃w w₁ w₂ : World⦄ ⦃l tr⦄,
    Reachable ((half errorFromHttp3).Step Q) (new priority) w →
    Accepted errorFromHttp3 Q w l w₁ → ¬ Finished w.log → A w →
    Run ((half errorFromHttp3).Step Q) w₁ tr w₂ → Along K tr →
    ¬ Finished w₂.log

end Accepted

/-! ## What can finish the stream -/

section Moves

variable {errorFromHttp3 : ErrorFromHttp3} {Q : Answers Event} {i : ℕ}
  {sh sh' : Shared Event Priorities} {t t' : Task Op Loc Ret}
  {py py' : Python Int32} {ans : Option Event} {w w' : World}
  {l : Action Op Event Int32} {priority : Int32}

/-- Only a task with the guard for it finishes the stream, and only if the
stream is open. -/
theorem finished_of_taskMove (hfinish : FinishLaw Q)
    (hQ : ∀ e ∈ ans, Q sh.log e)
    (h : TaskMove (half errorFromHttp3) i sh t ans t' sh')
    (hnot : ¬ Finished sh.log) (hfinished : Finished sh'.log) :
    finishing t = true ∧ ¬ Closed sh.log := by
  have hopen : ∀ {ok}, ans = some (.finish ok) → ok = true → ¬ Closed sh.log := by
    intro ok hans hok
    exact (hfinish sh.log ok (hQ _ (by simp [hans]))).mp hok
  cases h with
  | call op h =>
      cases h with
      | works loc ans v beat hb =>
          have hlast : Finished ans.toList := by
            simpa [Shared.record, hnot] using hfinished
          cases bodyMove_of_body hb with
          | finishes sent => exact ⟨rfl, hopen rfl rfl⟩
          | _ => simp [Event.finishes] at hlast
      | letsGo loc =>
          cases loc <;> simp [Shared.record, Shared.leave, half, hnot] at hfinished
      | closeSends code e he =>
          obtain ⟨ok, rfl⟩ := eq_reset_of_closeCode he
          simp [Shared.record, hnot, Event.finishes] at hfinished
      | _ => exact absurd hfinished hnot
  | exit b h =>
      cases h with
      | sendsClose b e hb he =>
          obtain ⟨ok, rfl⟩ := eq_reset_of_closeCode he
          simp [Shared.record, hnot, Event.finishes] at hfinished
      | sendsFinish b e hb he =>
          have hlast : e.finishes = true := by
            simpa [Shared.record, hnot] using hfinished
          cases b with
          | true => cases hb
          | false =>
              cases e with
              | finish ok => exact ⟨rfl, hopen rfl hlast⟩
              | _ => cases he
      | _ => exact absurd hfinished hnot

theorem finishing_of_taskMove (hc : sh.cancelled = true)
    (h : TaskMove (half errorFromHttp3) i sh t ans t' sh')
    (ht : finishing t' = true) :
    finishing t = true ∨ entersToFinish sh i t = true := by
  cases h with
  | call op h =>
      cases op with
      | finish =>
          cases h with
          | enters ho => exact Or.inr (by simpa [entersToFinish] using ho)
          | works => exact Or.inl rfl
          | suspendedUnset loc hunset =>
              rw [hc] at hunset
              cases hunset
          | _ => cases ht
      | _ => cases ht
  | exit b h =>
      cases b with
      | true => cases h <;> cases ht
      | false =>
          cases h with
          | enters _ ho => exact Or.inr (by simpa [entersToFinish] using ho)
          | wakes _ ho => exact Or.inr (by simpa [entersToFinish] using ho)
          | _ => cases ht

theorem not_finished_of_pythonMove
    (h : PythonMove (half errorFromHttp3) sh py ans py' sh')
    (hnot : ¬ Finished sh.log) : ¬ Finished sh'.log := by
  intro hfinished
  cases h with
  | sends code e he =>
      obtain ⟨ok, rfl⟩ := eq_reset_of_closeCode he
      simp [Shared.record, hnot, Event.finishes] at hfinished
  | applies k e he =>
      obtain ⟨ok, rfl⟩ := eq_setPriority_of_isApply he
      simp [Shared.record, hnot, Event.finishes] at hfinished
  | _ => exact hnot hfinished

theorem finishing_of_dropMove (h : DropMove (half errorFromHttp3) i sh t t' sh') :
    finishing t' = false := by
  cases h <;> simp [finishing]

/-! ## The invariant of a stream that was given up -/

/-- The token is set, the stream is not finished, and nobody is about to finish
it while it is open. -/
structure GivenUp (w : World) : Prop where
  cancelled : w.cancelled = true
  notFinished : ¬ Finished w.log
  nobody : ¬ Closed w.log → ∀ (i : ℕ) (t : Task Op Loc Ret),
    w.tasks[i]? = some t → finishing t = false

theorem nobody_finishing_step (h : (half errorFromHttp3).Step Q w l w')
    (hK : NoFinishEnters w l) (hset : w.cancelled = true) (hopen : ¬ Closed w.log)
    (hw : ∀ (i : ℕ) (t : Task Op Loc Ret), w.tasks[i]? = some t →
      finishing t = false) :
    ∀ (i : ℕ) (t : Task Op Loc Ret), w'.tasks[i]? = some t → finishing t = false := by
  refine h.forall_tasks (by simp [finishing]) (by simp [finishing]) ?_
    (fun i t t' _ _ hm _ => finishing_of_dropMove hm) (fun i t _ _ _ ht => ht) hw
  rintro i ans t t' rfl hi hm hbefore
  have henters := hK hopen
  rw [hi, Option.any_some] at henters
  by_contra hfin
  rcases finishing_of_taskMove hset hm (by simpa using hfin) with hfin | hin
  · rw [hbefore] at hfin
    cases hfin
  · rw [henters] at hin
    cases hin

theorem givenUp_step (hfinish : FinishLaw Q)
    (h : (half errorFromHttp3).Step Q w l w') (hK : NoFinishEnters w l)
    (hw : GivenUp w) : GivenUp w' where
  cancelled := h.cancelled hw.cancelled
  notFinished := by
    cases h.move with
    | python ans hm => exact not_finished_of_pythonMove hm hw.notFinished
    | task i ans hi hm =>
        intro hfinished
        obtain ⟨hfin, hopen⟩ :=
          finished_of_taskMove hfinish h.2 hm hw.notFinished hfinished
        rw [hw.nobody hopen i _ hi] at hfin
        cases hfin
    | drop i hi hm =>
        rw [log_of_dropMove hm]
        exact hw.notFinished
    | _ => exact hw.notFinished
  nobody hopen' := by
    have hopen : ¬ Closed w.log := fun hclosed =>
      hopen' (closed_mono h.log_isPrefix hclosed)
    exact nobody_finishing_step h hK hw.cancelled hopen (hw.nobody hopen)

theorem givenUp_of_accepted
    (hreach : Reachable ((half errorFromHttp3).Step Q) (new priority) w)
    (h : Accepted errorFromHttp3 Q w l w') (hnot : ¬ Finished w.log)
    (hA : NoneFinishing w) : GivenUp w' := by
  obtain ⟨hstep, ⟨rfl, hidle, code, hpy⟩ | ⟨i, rfl, hi⟩⟩ := h
  · have hset : w.cancelled = true := by
      refine cancelled_of_pastCancel hreach ?_
      rcases hpy with hpy | hpy <;> rw [hpy] <;> rfl
    have hcancelled : w'.cancelled = true := hstep.cancelled hset
    have hsame : w'.log = w.log ∧ w'.tasks = w.tasks := by
      cases hstep.move with
      | python ans hm =>
          obtain rfl : _ = Python.idle := hidle
          generalize w.python = py at hm hpy
          cases hm with
          | defers => exact ⟨rfl, rfl⟩
          | returns => exact ⟨rfl, rfl⟩
          | assignDefers => rcases hpy with hpy | hpy <;> cases hpy
          | assignReturns => rcases hpy with hpy | hpy <;> cases hpy
    refine ⟨hcancelled, by rwa [hsame.1], ?_⟩
    rw [hsame.1, hsame.2]
    exact fun hopen j t hj => hA hopen t (List.mem_of_getElem? hj)
  · cases hstep.move with
    | task i ans hj hm =>
        obtain rfl := Option.some.inj (hi.symm.trans hj)
        cases hm with
        | exit b hm =>
            cases hm with
            | cancels b =>
                refine ⟨rfl, hnot, fun hopen => ?_⟩
                exact forall_getElem?_set rfl
                  fun j t _ hj => hA hopen t (List.mem_of_getElem? hj)

/-- A stream that was given up is never finished in a run that gives the guard
to no `finish` while the stream is open. -/
theorem neverFinished_of_noFinishEnters (hfinish : FinishLaw Q) :
    NeverFinished errorFromHttp3 Q priority NoneFinishing NoFinishEnters := by
  intro w w₁ w₂ l tr hreach hacc hnot hA hrun hall
  have hstart : GivenUp w₁ := givenUp_of_accepted hreach hacc hnot hA
  have hlast : GivenUp w₂ := hrun.invariant
    (fun _ _ _ hK hstep => givenUp_step hfinish hstep hK) hall hstart
  exact hlast.notFinished

/-! ## The condition leaves out only finished streams -/

/-- The step of a task that is about to finish an open stream finishes it, or
leads towards that. -/
theorem finishing_of_self (hfinish : FinishLaw Q) (hQ : ∀ e ∈ ans, Q sh.log e)
    (h : TaskMove (half errorFromHttp3) i sh t ans t' sh')
    (ht : finishing t = true) (hopen : ¬ Closed sh.log) :
    (finishing t' = true ∧ ¬ Closed sh'.log) ∨ Finished sh'.log := by
  have hok : ∀ {ok}, ans = some (.finish ok) → ok = true := by
    intro ok hans
    exact (hfinish sh.log ok (hQ _ (by simp [hans]))).mpr hopen
  cases h with
  | call op h =>
      cases op with
      | finish =>
          cases h with
          | works loc ans v beat hb =>
              have hb : body errorFromHttp3 .finish loc sh.vars ans =
                some (v, beat) := hb
              cases bodyMove_of_body hb with
              | finishes sent => exact Or.inr (by simp [Shared.record, Event.finishes])
              | finishRefused sent => exact absurd (hok rfl) (by simp)
              | applies op desired ok =>
                  exact Or.inl ⟨rfl, by simpa [Shared.record, Event.closes]⟩
              | _ => exact Or.inl ⟨rfl, by simpa [Shared.record]⟩
          | _ => cases ht
      | _ => cases ht
  | exit b h =>
      cases b with
      | true => cases ht
      | false =>
          cases h with
          | sendsClose b e hb he => cases hb
          | sendsFinish b e hb he =>
              obtain ⟨ok, rfl⟩ := eq_finish_of_isFinish he
              obtain rfl := hok rfl
              exact Or.inr (by simp [Shared.record, Event.finishes])
          | _ => cases ht

/-- A `finish` that gets the guard while the stream is open succeeds: nobody
else comes to the stream before it has. -/
theorem finishing_run (hfinish : FinishLaw Q)
    (hreach : Reachable ((half errorFromHttp3).Step Q) (new priority) w)
    (hi : w.tasks[i]? = some t) (ht : finishing t = true)
    (hopen : ¬ Closed w.log)
    (hrun : Reachable ((half errorFromHttp3).Step Q) w w') :
    Finished w'.log ∨
      ∃ t, w'.tasks[i]? = some t ∧ finishing t = true ∧ ¬ Closed w'.log := by
  have hlast : Reachable ((half errorFromHttp3).Step Q) (new priority) w' ∧
      (Finished w'.log ∨
        ∃ t, w'.tasks[i]? = some t ∧ finishing t = true ∧ ¬ Closed w'.log) := by
    refine hrun.invariant
      (I := fun u => Reachable ((half errorFromHttp3).Step Q) (new priority) u ∧
        (Finished u.log ∨
          ∃ t, u.tasks[i]? = some t ∧ finishing t = true ∧ ¬ Closed u.log))
      ?_ ⟨hreach, Or.inr ⟨t, hi, ht, hopen⟩⟩
    rintro u l u' hstep ⟨hu, hfinished | ⟨t, hi, ht, hopen⟩⟩
    · obtain ⟨rest, hrest⟩ := hstep.log_isPrefix
      exact ⟨hu.tail hstep, Or.inl (hrest ▸ finished_append.mpr (Or.inl hfinished))⟩
    refine ⟨hu.tail hstep, ?_⟩
    have hx : Exclusive u := exclusive_of_reachable hu
    have hholds : t.holds = true := by
      unfold finishing at ht
      split at ht <;> first | rfl | cases ht
    by_cases hl : ∃ ans, l = .task i ans
    · obtain ⟨ans, rfl⟩ := hl
      cases hstep.move with
      | task i ans hj hm =>
          obtain rfl := Option.some.inj (hi.symm.trans hj)
          rcases finishing_of_self hfinish hstep.2 hm ht hopen with
            ⟨ht', hopen'⟩ | hfinished
          · exact Or.inr ⟨_, getElem?_set_of_eq_some hi, ht', hopen'⟩
          · exact Or.inl hfinished
    · by_cases hd : l = .drop i
      · subst hd
        cases hstep.move with
        | drop i hj hm =>
            obtain rfl := Option.some.inj (hi.symm.trans hj)
            cases hm <;> simp [finishing] at ht
      · obtain ⟨hkeep, hlog⟩ :=
          hx.frame hstep hi hholds (fun ans h => hl ⟨ans, h⟩) hd
        exact Or.inr ⟨t, hkeep, ht, by rwa [hlog]⟩
  exact hlast.2

/-- A step that gives the guard to a `finish` while the stream is open leaves its
task about to finish it. -/
theorem finishing_of_enters (h : (half errorFromHttp3).Step Q w l w')
    (hK : ¬ NoFinishEnters w l) :
    ∃ (i : ℕ) (t : Task Op Loc Ret),
      w'.tasks[i]? = some t ∧ finishing t = true ∧ ¬ Closed w'.log := by
  cases h.move with
  | task i ans hi hm =>
      obtain ⟨hopen, henters⟩ := Classical.not_imp.mp hK
      rw [hi, Option.any_some, Bool.not_eq_false] at henters
      refine ⟨i, _, getElem?_set_of_eq_some hi, ?_⟩
      cases hm with
      | call op hm =>
          cases op with
          | finish =>
              cases hm with
              | enters ho => exact ⟨rfl, hopen⟩
              | queues ho => exact absurd (by simpa [entersToFinish] using henters) ho
              | _ => cases henters
          | _ => cases henters
      | exit b hm =>
          cases b with
          | true => cases henters
          | false =>
              cases hm with
              | enters _ ho => exact ⟨rfl, hopen⟩
              | queues _ ho =>
                  exact absurd (by simpa [entersToFinish] using henters) ho
              | wakes _ ho => exact ⟨rfl, hopen⟩
              | _ => cases henters
  | _ => exact absurd trivial hK

end Moves

/-- The write sends the reset, and a clean exit after it does not finish the
stream. -/
theorem interrupted_never_finished :
    ¬ Finished (after (after interrupted [.python none])
      [.task 0 none, .task 0 none, .task 0 none, .task 0 none,
        .task 0 (some (.reset 7 true)), .task 0 none,
        .exit false, .task 1 none, .task 1 none,
        .task 1 (some (.finish false)), .task 1 none]).log := by
  refine neverFinished_of_noFinishEnters openSession_finishLaw
    (w := interrupted) (l := .python none) (priority := 0) ?_
    ⟨Half.step_of_tryNext rfl, Or.inl ⟨rfl, rfl, 7, Or.inl rfl⟩⟩
    (by decide) (by decide) (run_after _ (by decide)) (by decide)
  exact (run_after _ (by decide)).reachable.trans (run_after _ (by decide)).reachable

/-- Without the condition a stream that was reset can be finished: a clean exit
waits for the mutex when `reset(7)` returns, and gets it before the interrupted
write has sent the reset. -/
theorem overtaken_by_clean_exit :
    ¬ NeverFinished noCodes OpenSession 0 (fun _ => True) fun _ _ => True := by
  intro h
  have hexit : Reachable ((half noCodes).Step OpenSession) (new 0)
      (after (after blocked [.exit false, .task 1 none, .task 1 none])
        (startReset 7)) :=
    ((run_after _ (by decide)).reachable.trans
      (run_after _ (by decide)).reachable).trans (run_after _ (by decide)).reachable
  refine h hexit (l := .python none)
    ⟨Half.step_of_tryNext rfl, Or.inl ⟨rfl, rfl, 7, Or.inl rfl⟩⟩
    (by decide) trivial
    (run_after ([.task 0 none, .task 0 none, .task 1 none,
      .task 1 (some (.finish true))]) (by decide)) along_true (by decide)

end WebTransport.SendStream
