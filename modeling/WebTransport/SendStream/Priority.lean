import WebTransport.SendStream.Synced

/-!
# Priority assignments

`set_priority` passes a value to the QUIC stream itself if it gets the mutex
without waiting, and otherwise leaves it to the operation that gets the mutex
next.  That operation compares `priority` with `synced_priority` before it does
anything else, so no value is lost as long as it is an operation; a clean exit
takes the mutex and finishes the stream without the comparison.
-/

namespace WebTransport.SendStream

open Support Wrapper

/-! ## The priority in force -/

/-- The value that a call puts in force. -/
def Event.puts : Event → Option Int32
  | .setPriority p true => some p
  | _ => none

/-- The priority in force in the QUIC stream. -/
def inForce (priority : Int32) (log : List Event) : Int32 :=
  (log.filterMap Event.puts).getLastD priority

/-- `set_priority` succeeds while the stream is open. -/
def SetPriorityLaw (Q : Answers Event) : Prop :=
  ∀ log p ok, Q log (.setPriority p ok) → ¬ Closed log → ok = true

theorem openSession_setPriorityLaw : SetPriorityLaw OpenSession := by
  intro log p ok h hopen
  simpa [OpenSession, openSession, hopen] using h

/-- `write` and `finish` send. -/
def Event.sends : Event → Bool
  | .write _ _ | .finish _ => true
  | _ => false

section InForce

variable {errorFromHttp3 : ErrorFromHttp3} {Q : Answers Event}
  {priority : Int32} {log : List Event} {e : Event} {u : World}

@[simp] theorem inForce_concat :
    inForce priority (log ++ [e]) = e.puts.getD (inForce priority log) :=
  getLastD_filterMap_concat Event.puts log e priority

theorem inForce_of_run (hset : SetPriorityLaw Q)
    (h : Reachable ((half errorFromHttp3).Step Q) (new priority) u)
    (hopen : ¬ Closed u.log) : inForce priority u.log = lastPassed priority u.log := by
  revert hopen
  refine h.invariant
    (I := fun w => ¬ Closed w.log → inForce priority w.log = lastPassed priority w.log)
    ?_ (fun _ => rfl)
  intro w l w' hstep hw hopen
  have hlog := log_of_step hstep
  cases hans : l.answer with
  | none =>
      rw [hlog, hans, Option.toList_none, List.append_nil] at hopen ⊢
      exact hw hopen
  | some e =>
      rw [hlog, hans, Option.toList_some] at hopen ⊢
      have hbefore : ¬ Closed w.log := fun hclosed =>
        hopen (closed_append.mpr (Or.inl hclosed))
      rw [inForce_concat, lastPassed_concat, hw hbefore]
      cases e with
      | setPriority p ok =>
          obtain rfl : ok = true := hset w.log p ok (hstep.2 _ hans) hbefore
          rfl
      | _ => rfl

end InForce

/-! ## The values that are assigned -/

def assignment : Action Op Event Int32 → Option Int32
  | .assign value => some value
  | _ => none

/-- The values of the priority in a run, the first one included, in the order
in which they were assigned. -/
def values (priority : Int32) (tr : List (World × Action Op Event Int32)) :
    List Int32 :=
  priority :: tr.filterMap fun p => assignment p.2

/-- Python is between the store of an assignment and its return. -/
def assigning : Python Int32 → Bool
  | .assigned _ | .applying _ | .applied _ | .recorded => true
  | _ => false

/-- The number of assignments that are complete at the end of a run. -/
def completed (tr : List (World × Action Op Event Int32)) (w : World) : ℕ :=
  (tr.filterMap fun p => assignment p.2).length - (assigning w.python).toNat

section Values

variable {errorFromHttp3 : ErrorFromHttp3} {Q : Answers Event} {i : ℕ}
  {sh sh' : Shared Event Priorities} {w w' : World}
  {l : Action Op Event Int32} {priority value : Int32}
  {tr tr' : List (World × Action Op Event Int32)} {n : ℕ}

theorem length_values :
    (values priority tr).length =
      (tr.filterMap fun p => assignment p.2).length + 1 := by
  simp [values]

theorem values_append : values priority (tr ++ tr') =
    values priority tr ++ tr'.filterMap fun p => assignment p.2 := by
  simp [values]

theorem completed_lt_length : completed tr w < (values priority tr).length := by
  rw [length_values, completed]
  omega

theorem mem_drop_values (hn : n < (values priority tr).length)
    (h : value ∈ (values priority tr).drop n) :
    value ∈ (values priority (tr ++ tr')).drop n := by
  rw [values_append, List.drop_append_of_le_length hn.le]
  exact List.mem_append_left _ h

theorem priority_of_pythonMove {py py' : Python Int32}
    (h : PythonMove (half errorFromHttp3) sh py ans py' sh') :
    sh'.vars.priority = sh.vars.priority := by
  cases h <;> rfl

theorem priority_of_step (h : (half errorFromHttp3).Step Q w l w') :
    w'.vars.priority = (assignment l).getD w.vars.priority := by
  cases h.move with
  | task i ans hi hm =>
      cases hm with
      | call op hm =>
          cases hm with
          | works loc ans vars beat hb => cases bodyMove_of_body hb <;> rfl
          | _ => rfl
      | exit b hm => cases hm <;> rfl
  | drop i hi hm => cases hm <;> rfl
  | python ans hm => exact priority_of_pythonMove hm
  | _ => rfl

theorem getLast?_values
    (h : Run ((half errorFromHttp3).Step Q) (new priority) tr w) :
    (values priority tr).getLast? = some w.vars.priority := by
  suffices hlast : w.vars.priority =
      (tr.filterMap fun p => assignment p.2).getLastD priority by
    rw [values, List.getLast?_cons, hlast, List.getLastD_eq_getLast?]
  induction h with
  | refl => rfl
  | tail _ hstep ih => rw [getLastD_filterMap_concat, priority_of_step hstep, ih]

theorem priority_mem_drop_values {n : ℕ}
    (h : Run ((half errorFromHttp3).Step Q) (new priority) tr w)
    (hn : n < (values priority tr).length) :
    w.vars.priority ∈ (values priority tr).drop n := by
  refine List.mem_of_getLast? ?_
  rw [List.getLast?_drop, if_neg (by omega), getLast?_values h]

end Values

/-! ## From the guard to the call -/

/-- The value that a body has in hand, and at its call the one last passed, is
one of `due`. -/
def InHand (due : List Int32) (priority : Int32) (log : List Event) : Loc → Prop
  | .loadPriority => True
  | .compare d | .setPriority d | .storeSynced d => d ∈ due
  | .call _ => lastPassed priority log ∈ due

/-- What is known of a task from its acquisition of the mutex on.  An exit keeps
the value that it has found, whatever it is. -/
def Course (due : List Int32) (found priority : Int32) (log : List Event) :
    Task Op Loc Ret → Prop
  | .call _ (.running l) | .call _ (.suspended l) => InHand due priority log l
  | .call _ _ => True
  | .exit _ .held => lastPassed priority log = found
  | .exit _ pc => pc.beforeBody = false

section Course

variable {errorFromHttp3 : ErrorFromHttp3} {Q : Answers Event} {i : ℕ}
  {sh sh' : Shared Event Priorities} {t t' : Task Op Loc Ret}
  {ans : Option Event} {w w' : World} {l : Action Op Event Int32}
  {priority found : Int32} {tr : List (World × Action Op Event Int32)}
  {due due' : List Int32} {log log' : List Event} {e : Event}

theorem Course.mono (h : Course due found priority log t)
    (hdue : ∀ value ∈ due, value ∈ due') : Course due' found priority log t := by
  cases t with
  | exit b pc => cases pc <;> exact h
  | call op pc =>
      cases pc with
      | running l | suspended l =>
          cases l with
          | loadPriority => trivial
          | _ => exact hdue _ h
      | _ => trivial

theorem Course.of_not_holds (h : Course due found priority log t)
    (ht : t.holds = false) : Course due found priority log' t := by
  cases t with
  | call op pc =>
      cases pc with
      | running | suspended => cases ht
      | _ => trivial
  | exit b pc =>
      cases pc with
      | held => cases ht
      | _ => exact h

/-- The body of an operation goes from a value that is due to the call. -/
theorem inHand_of_bodyMove {op : Op} {loc : Loc} {v v' : Priorities}
    {beat : Beat Loc Ret} (h : BodyMove errorFromHttp3 v op loc ans v' beat)
    (hpriority : v.priority ∈ due)
    (hcompare : ∀ d, loc = .compare d → v.syncedPriority = lastPassed priority log)
    (hstore : ∀ d, loc = .storeSynced d → lastPassed priority log = d)
    (hloc : InHand due priority log loc) :
    Course due found priority (log ++ ans.toList) (.call op beat.pc) := by
  cases h with
  | loads => exact hpriority
  | differs op desired hne => exact hloc
  | agrees op desired heq =>
      have hin : desired ∈ due := hloc
      simpa [Course, Beat.pc, InHand, ← hcompare desired rfl, ← heq] using hin
  | applies op desired ok => exact hloc
  | storesSynced op desired =>
      have hin : desired ∈ due := hloc
      simpa [Course, Beat.pc, InHand, hstore desired rfl] using hin
  | writePends | writeAccepts | somePends | waits =>
      simpa [Course, Beat.pc, InHand, Event.passed] using hloc
  | _ => trivial

theorem course_of_taskMove (h : TaskMove (half errorFromHttp3) i sh t ans t' sh')
    (hpriority : sh.vars.priority ∈ due)
    (hcompare : t.holds = true → storing t = none →
      sh.vars.syncedPriority = lastPassed priority sh.log)
    (hstore : ∀ d, storing t = some d → lastPassed priority sh.log = d)
    (ht : Course due found priority sh.log t) :
    Course due found priority sh'.log t' := by
  have hlog := log_of_taskMove h
  cases h with
  | call op h =>
      cases h with
      | works loc ans vars beat hb =>
          rw [hlog]
          refine inHand_of_bodyMove (bodyMove_of_body hb) hpriority ?_ ?_ ht
          · rintro d rfl
            exact hcompare rfl rfl
          · rintro d rfl
            exact hstore d rfl
      | suspendedUnset loc hc => exact ht
      | _ => trivial
  | exit b h =>
      cases h with
      | sendsClose | sendsFinish | returns => rfl
      | _ => cases ht

theorem course_of_entry (h : TaskMove (half errorFromHttp3) i sh t ans t' sh')
    (hbefore : t.beforeBody = true) (hpast : t'.beforeBody = false)
    (hholds : t'.holds = true)
    (hsynced : storing t' = none →
      sh'.vars.syncedPriority = lastPassed priority sh'.log) :
    Course due sh.vars.syncedPriority priority sh'.log t' := by
  cases h with
  | call op h =>
      cases h with
      | works => cases hbefore
      | suspendedUnset => cases hbefore
      | _ => trivial
  | exit b h =>
      cases h with
      | enters | wakes => exact (hsynced rfl).symm
      | _ => exact hpast

theorem course_of_dropMove (h : DropMove (half errorFromHttp3) i sh t t' sh') :
    Course due found priority log t' := by
  cases h <;> trivial

theorem course_step (hx : Exclusive w) (hw : Synced priority w)
    (h : (half errorFromHttp3).Step Q w l w') (hpriority : w.vars.priority ∈ due)
    (hi : w.tasks[i]? = some t) (ht : Course due found priority w.log t) :
    ∃ t', w'.tasks[i]? = some t' ∧ Course due found priority w'.log t' := by
  rcases h.task_cases hi with
    ⟨ans, t', rfl, hi', hm⟩ | ⟨t', rfl, hi', hm⟩ | ⟨hl, hd, hi'⟩
  · refine ⟨t', hi', course_of_taskMove hm hpriority ?_ ?_ ht⟩
    · exact fun hholds hnone => syncedPriority_of_holds hx hw hi hholds hnone
    · exact fun d hd => hw.storing d (Or.inl ⟨i, t, hi, hd⟩)
  · exact ⟨t', hi', course_of_dropMove hm⟩
  · refine ⟨t, hi', ?_⟩
    by_cases hholds : t.holds = true
    · rwa [(hx.frame h hi hholds hl hd).2]
    · exact ht.of_not_holds (by simpa using hholds)

theorem course_of_enters (hx : Exclusive w) (hw : Synced priority w)
    (h : (half errorFromHttp3).Step Q w l w') (hout : i ∉ w.entered)
    (hin : i ∈ w'.entered) :
    ∃ t, w'.tasks[i]? = some t ∧
      Course due w.vars.syncedPriority priority w'.log t := by
  have hx' : Exclusive w' := exclusive_step h hx
  have hw' : Synced priority w' := synced_step hx h hw
  obtain ⟨hlength, ans, rfl⟩ := (mem_entered_of_step h hin).resolve_left hout
  rcases h.task_cases (List.getElem?_eq_getElem hlength) with
    ⟨ans', t', heq, hi', hm⟩ | ⟨t', heq, -⟩ | ⟨hl, -⟩
  · refine ⟨t', hi', ?_⟩
    rcases hm.entered_cases with ⟨hsame, -⟩ | ⟨-, hbefore, hpast, hholds⟩
    · rw [hsame] at hin
      exact absurd hin hout
    · have hsynced : storing t' = none →
          w'.vars.syncedPriority = lastPassed priority w'.log :=
        syncedPriority_of_holds hx' hw' hi' hholds
      exact course_of_entry hm hbefore hpast hholds hsynced
  · cases heq
  · exact absurd rfl (hl ans)

theorem inBody_of_sends (h : TaskMove (half errorFromHttp3) i sh t (some e) t' sh')
    (he : e.sends = true) : t.inBody = true := by
  cases h with
  | call op h =>
      cases h with
      | works => rfl
      | closeSends code e hcode =>
          obtain ⟨ok, rfl⟩ := eq_reset_of_closeCode hcode
          cases he
  | exit b h => cases h <;> rfl

/-- At a call that sends, the value last passed is due, unless an exit has found
one that is not. -/
theorem due_of_sends (h : TaskMove (half errorFromHttp3) i sh t (some e) t' sh')
    (he : e.sends = true) (ht : Course due found priority sh.log t) :
    lastPassed priority sh.log ∈ due ↔ (t.called = .exit false → found ∈ due) := by
  cases h with
  | call op h =>
      have hdue : lastPassed priority sh.log ∈ due := by
        cases h with
        | works loc ans vars beat hb =>
            cases bodyMove_of_body hb with
            | applies | waits | waitEnds | waitFails => cases he
            | _ => exact ht
        | closeSends code e hcode =>
            obtain ⟨ok, rfl⟩ := eq_reset_of_closeCode hcode
            cases he
      exact iff_of_true hdue (by rintro ⟨⟩)
  | exit b h =>
      cases h with
      | sendsClose b e hb hcode =>
          obtain ⟨ok, rfl⟩ := eq_reset_of_closeCode hcode
          cases he
      | sendsFinish b e hb hfinish =>
          obtain rfl : b = false := by simpa [half] using hb
          obtain rfl : lastPassed priority sh.log = found := ht
          simp [Task.called]

end Course

/-! ## Every call that sends -/

/-- The run `tr` to `u` takes task `i` to a call that sends; the task has got the
mutex in `u₀`, after the part `tr₀` of the run. -/
structure Sending (errorFromHttp3 : ErrorFromHttp3) (Q : Answers Event)
    (priority : Int32) (tr₀ : List (World × Action Op Event Int32)) (u₀ : World)
    (tr : List (World × Action Op Event Int32)) (u : World) (i : ℕ) : Prop where
  before : Run ((half errorFromHttp3).Step Q) (new priority) tr₀ u₀
  outside : i ∉ u₀.entered
  acquires : ∃ l u₁ tr₁, (half errorFromHttp3).Step Q u₀ l u₁ ∧ i ∈ u₁.entered ∧
    Run ((half errorFromHttp3).Step Q) u₁ tr₁ u ∧ tr = tr₀ ++ (u₀, l) :: tr₁
  sends : ∃ e u', e.sends = true ∧
    (half errorFromHttp3).Step Q u (.task i (some e)) u'

/-- The values assigned no earlier than the last assignment that was complete
when the mutex was acquired in `u₀`. -/
def due (priority : Int32) (tr₀ : List (World × Action Op Event Int32)) (u₀ : World)
    (tr : List (World × Action Op Event Int32)) : List Int32 :=
  (values priority tr).drop (completed tr₀ u₀)

section Sending

variable {errorFromHttp3 : ErrorFromHttp3} {Q : Answers Event} {i : ℕ}
  {priority : Int32} {tr tr₀ tr₁ : List (World × Action Op Event Int32)}
  {u u₀ u' : World} {e : Event}

/-- Whoever makes a call that sends has got the mutex before, exactly once. -/
theorem exists_sending
    (h : Run ((half errorFromHttp3).Step Q) (new priority) tr u)
    (hstep : (half errorFromHttp3).Step Q u (.task i (some e)) u')
    (he : e.sends = true) :
    ∃ tr₀ u₀, Sending errorFromHttp3 Q priority tr₀ u₀ tr u i := by
  have hin : i ∈ u.entered := by
    cases hstep.move with
    | task i ans hi hm =>
        have hbody := inBody_of_sends hm he
        exact List.mem_of_getLast? ((entries_of_reachable h.reachable).last i _ hi hbody)
  obtain ⟨tr₀, u₀, l, u₁, tr₁, htr, hbefore, hfirst, hout, hentered, hafter⟩ :=
    h.exists_becomes (B := fun w => i ∈ w.entered) (by simp [World.init]) hin
  exact ⟨tr₀, u₀, hbefore, hout, ⟨l, u₁, tr₁, hfirst, hentered, hafter, htr⟩,
    e, u', he, hstep⟩

theorem Sending.reachable (h : Sending errorFromHttp3 Q priority tr₀ u₀ tr u i) :
    Reachable ((half errorFromHttp3).Step Q) (new priority) u := by
  obtain ⟨l, u₁, tr₁, hstep, -, hafter, -⟩ := h.acquires
  exact (h.before.reachable.tail hstep).trans hafter.reachable

/-- From the acquisition to the call the task keeps to its course. -/
theorem course_of_run {found : Int32} {u₁ : World} {n : ℕ}
    (hbefore : Run ((half errorFromHttp3).Step Q) (new priority) tr u₁)
    (hn : n < (values priority tr).length)
    (hentry : ∃ t, u₁.tasks[i]? = some t ∧
      Course ((values priority tr).drop n) found priority u₁.log t)
    (h : Run ((half errorFromHttp3).Step Q) u₁ tr₁ u) :
    ∃ t, u.tasks[i]? = some t ∧
      Course ((values priority (tr ++ tr₁)).drop n) found priority u.log t := by
  induction h with
  | refl => simpa using hentry
  | @tail tr₁ w u l hrun hlast ih =>
      obtain ⟨t, hi, ht⟩ := ih
      have hall := hbefore.trans hrun
      have hlong : n < (values priority (tr ++ tr₁)).length := by
        rw [values_append, List.length_append]
        omega
      obtain ⟨t', hi', ht'⟩ := course_step (exclusive_of_reachable hall.reachable)
        (synced_of_reachable hall.reachable) hlast
        (priority_mem_drop_values hall hlong) hi ht
      refine ⟨t', hi', ht'.mono fun value hvalue => ?_⟩
      rw [← List.append_assoc]
      exact mem_drop_values hlong hvalue

theorem lastPassed_mem_due_iff
    (h : Sending errorFromHttp3 Q priority tr₀ u₀ tr u i) :
    lastPassed priority u.log ∈ due priority tr₀ u₀ tr ↔
      (u.calls[i]? = some (.exit false) →
        u₀.vars.syncedPriority ∈ due priority tr₀ u₀ tr) := by
  obtain ⟨l, u₁, tr₁, hstep, hin, hafter, rfl⟩ := h.acquires
  obtain ⟨e, u', he, hlast⟩ := h.sends
  have hn : completed tr₀ u₀ < (values priority (tr₀ ++ [(u₀, l)])).length := by
    have hlt : completed tr₀ u₀ < (values priority tr₀).length := completed_lt_length
    rw [values_append, List.length_append]
    omega
  obtain ⟨t, hi, ht⟩ := course_of_run (h.before.tail hstep) hn
    (course_of_enters (exclusive_of_reachable h.before.reachable)
      (synced_of_reachable h.before.reachable) hstep h.outside hin) hafter
  have hcall : u.calls[i]? = some t.called := by simp [World.calls, hi]
  rw [List.append_assoc, List.singleton_append] at ht
  rcases hlast.task_cases hi with ⟨ans, t', heq, -, hm⟩ | ⟨t', heq, -⟩ | ⟨hl, -⟩
  · cases heq
    rw [hcall, Option.some.injEq]
    exact due_of_sends hm he ht
  · cases heq
  · exact absurd rfl (hl (some e))

theorem syncedPriority_mem_due
    (h : Sending errorFromHttp3 Q priority tr₀ u₀ tr u i)
    (heq : u₀.vars.syncedPriority = u₀.vars.priority) :
    u₀.vars.syncedPriority ∈ due priority tr₀ u₀ tr := by
  obtain ⟨l, u₁, tr₁, -, -, -, rfl⟩ := h.acquires
  rw [heq]
  exact mem_drop_values completed_lt_length
    (priority_mem_drop_values h.before completed_lt_length)

/-- No assignment is lost, up to the exits that find one deferred.  While the
mutex is free `synced_priority` is the value last passed to quinn.  Every call that
sends is made by a task that has got the mutex before, and the priority in force is
then a value assigned no earlier than the last assignment that was complete when it
got it, exactly if the caller is not a clean exit or has found such a value in
`synced_priority`.  It has whenever `synced_priority` equals `priority` there. -/
theorem priority_kept_iff (errorFromHttp3 : ErrorFromHttp3) {Q : Answers Event}
    (hset : SetPriorityLaw Q) (priority : Int32) :
    (∀ u, Reachable ((half errorFromHttp3).Step Q) (new priority) u →
      u.lock.holder = none →
      u.vars.syncedPriority = lastPassed priority u.log) ∧
    (∀ tr u i e u', Run ((half errorFromHttp3).Step Q) (new priority) tr u →
      (half errorFromHttp3).Step Q u (.task i (some e)) u' → e.sends = true →
      ∃ tr₀ u₀, Sending errorFromHttp3 Q priority tr₀ u₀ tr u i) ∧
    ∀ tr₀ u₀ tr u i, Sending errorFromHttp3 Q priority tr₀ u₀ tr u i →
      (lastPassed priority u.log ∈ due priority tr₀ u₀ tr ↔
        (u.calls[i]? = some (.exit false) →
          u₀.vars.syncedPriority ∈ due priority tr₀ u₀ tr)) ∧
      (u₀.vars.syncedPriority = u₀.vars.priority →
        u₀.vars.syncedPriority ∈ due priority tr₀ u₀ tr) ∧
      (¬ Closed u.log → inForce priority u.log = lastPassed priority u.log) := by
  refine ⟨fun u hu hfree => ?_, fun tr u i e u' hrun hstep he => ?_, ?_⟩
  · exact syncedPriority_of_unowned (exclusive_of_reachable hu)
      (synced_of_reachable hu) hfree
  · exact exists_sending hrun hstep he
  · intro tr₀ u₀ tr u i h
    exact ⟨lastPassed_mem_due_iff h, syncedPriority_mem_due h,
      inForce_of_run hset h.reachable⟩

end Sending

/-- A write is held up with the mutex while Python assigns `5`, which is left to
who gets the mutex next. -/
def deferred : List (Action Op Event Int32) :=
  startCall (.write [1]) 0 ++
    [.task 0 (some (.write [1] .pending)), .assign 5, .python none, .task 0 none,
      .task 0 (some (.write [1] (.ready (.ok 1)))), .task 0 none, .task 0 none]

def nextWriter : World :=
  after (new 0) (deferred ++ [.call (.write [2]), .task 1 none])

def nextWrite : List (Action Op Event Int32) :=
  [.task 1 none, .task 1 none, .task 1 (some (.setPriority 5 true)), .task 1 none]

/-- The next write is sent with the priority that was left to it. -/
theorem nextWrite_inForce :
    inForce 0 (after (after nextWriter [.task 1 none]) nextWrite).log = 5 := by
  have hsending : Sending noCodes OpenSession 0 _ nextWriter _
      (after (after nextWriter [.task 1 none]) nextWrite) 1 :=
    ⟨run_after _ (by decide), by decide, ⟨.task 1 none, _, _,
      Half.step_of_tryNext rfl, by decide, run_after nextWrite (by decide), rfl⟩,
      .write [2] (.ready (.ok 1)), _, rfl, Half.step_of_tryNext rfl⟩
  obtain ⟨hiff, -, hopen⟩ :=
    (priority_kept_iff noCodes openSession_setPriorityLaw 0).2.2 _ _ _ _ _ hsending
  rw [hopen (by decide)]
  exact List.mem_singleton.mp (hiff.mpr (by decide))

/-- A clean exit that comes after the deferred assignment is about to get the
mutex. -/
def staleExit : World :=
  after (new 0) (deferred ++ [.exit false, .task 1 none])

/-- It finishes the stream with the old priority in force. -/
theorem staleExit_inForce :
    ¬ ∀ tr₀ u₀ tr u i, Sending noCodes OpenSession 0 tr₀ u₀ tr u i →
      inForce 0 u.log ∈ due 0 tr₀ u₀ tr := by
  intro h
  have hsending : Sending noCodes OpenSession 0 _ staleExit _
      (after staleExit [.task 1 none]) 1 :=
    ⟨run_after _ (by decide), by decide, ⟨.task 1 none, _, _,
      Half.step_of_tryNext rfl, by decide, Run.refl, rfl⟩,
      .finish true, _, rfl, Half.step_of_tryNext rfl⟩
  exact absurd (h _ _ _ _ _ hsending) (by decide)

end WebTransport.SendStream
