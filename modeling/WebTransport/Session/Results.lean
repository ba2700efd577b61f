import WebTransport.Session.Model

/-!
# Where a result of the session comes from

An awaitable of the session returns what its one call on the QUIC session has
answered.  Every exception that reaches Python is the image of an error that the
QUIC session has reported.
-/

namespace WebTransport.Session

open Support Wrapper

/-- The error with which a call on the QUIC session fails, or the reason that it
gives for the end of the session. -/
def Event.error? : Event → Option SessionError
  | .openBi (.ready (.error e)) | .openUni (.ready (.error e))
  | .acceptBi (.ready (.error e)) | .acceptUni (.ready (.error e))
  | .readDatagram (.ready (.error e)) | .sendDatagram _ (.error e) => some e
  | .closeReason r => r
  | _ => none

/-- The operations that can fail: all but the entry, the exit and the wait for the
end of the session. -/
def Op.fallible : Op → Bool
  | .aenter | .aexit | .waitClosed => false
  | _ => true

/-- Where a result comes from, on a QUIC session that answers as `Q` allows. -/
inductive Origin (errorFromHttp3 : ErrorFromHttp3) (Q : Answers Event) :
    Op → Ret → Prop
  | entered : Origin errorFromHttp3 Q .aenter (.ok .self)
  | awaited (op : Op) (log : List Event) (e : Event) (r : Ret) (hans : Q log e)
      (hr : awaits errorFromHttp3 op e = some (.ready r)) :
      Origin errorFromHttp3 Q op r

/-- Where an exception comes from. -/
inductive Told (errorFromHttp3 : ErrorFromHttp3) (Q : Answers Event) :
    Caller → PyErr → Prop
  | raised (op : Op) (log : List Event) (e : Event) (err : SessionError)
      (hop : op.fallible = true) (hans : Q log e) (herr : e.error? = some err)
      (hdatagram : ∀ data r, e ≠ .sendDatagram data r) :
      Told errorFromHttp3 Q (.op op) (mapSessionError errorFromHttp3 err)
  | datagram (log : List Event) (data : List UInt8) (err : SessionError)
      (hans : Q log (.sendDatagram data (.error err))) :
      Told errorFromHttp3 Q .sendDatagram (mapSessionError errorFromHttp3 err)
  | closeReason (log : List Event) (err : SessionError)
      (hans : Q log (.closeReason (some err))) :
      Told errorFromHttp3 Q .closeReason (mapSessionError errorFromHttp3 err)

/-- Everything that has reached Python has an origin. -/
structure Sourced (errorFromHttp3 : ErrorFromHttp3) (Q : Answers Event) (w : World) :
    Prop where
  results : ∀ (i : ℕ) (t : Task), w.tasks[i]? = some t → ∀ r, t.pc = .done r →
    Origin errorFromHttp3 Q t.op r
  told : ∀ c e, (c, e) ∈ w.told → Told errorFromHttp3 Q c e

section Origin

variable {errorFromHttp3 : ErrorFromHttp3} {Q : Answers Event} {op : Op} {pc pc' : Pc}
  {ans : Option Event} {log : List Event} {w w' : World} {l : Action}

theorem pc_after_eq_done {p : Poll Ret} {r : Ret} (h : OneCall.Pc.after p = .done r) :
    p = .ready r := by
  cases p with
  | pending => cases h
  | ready a =>
      cases h
      rfl

theorem reply_error {α : Type} {f : α → Value} {p : Poll (Except SessionError α)}
    {e : PyErr} (h : reply errorFromHttp3 f p = .ready (.error e)) :
    ∃ err, p = .ready (.error err) ∧ mapSessionError errorFromHttp3 err = e := by
  match p with
  | .pending => cases h
  | .ready (.ok a) => cases h
  | .ready (.error err) =>
      cases h
      exact ⟨err, rfl, rfl⟩

theorem ignored_ne_error {p : Poll SessionError} {e : PyErr} :
    ignored p ≠ .ready (.error e) := by
  cases p <;> simp [ignored]

theorem awaits_error {ev : Event} {e : PyErr}
    (h : awaits errorFromHttp3 op ev = some (.ready (.error e))) :
    op.fallible = true ∧ (∀ data r, ev ≠ .sendDatagram data r) ∧
      ∃ err, ev.error? = some err ∧ mapSessionError errorFromHttp3 err = e := by
  have hfails : ∀ {α : Type} {f : α → Value} {p : Poll (Except SessionError α)},
      some (reply errorFromHttp3 f p) = some (.ready (.error e)) →
      ∃ err, p = .ready (.error err) ∧ mapSessionError errorFromHttp3 err = e := by
    intro α f p hp
    exact reply_error (Option.some.inj hp)
  unfold awaits at h
  split at h
  case h_1 | h_2 | h_3 | h_4 | h_5 =>
    obtain ⟨err, rfl, rfl⟩ := hfails h
    exact ⟨rfl, by simp, err, rfl, rfl⟩
  case h_6 | h_7 => exact absurd (Option.some.inj h) ignored_ne_error
  case h_8 => cases h

theorem origin_of_taskMove (h : (oneCall errorFromHttp3).TaskMove op pc ans pc')
    (hans : ∀ e ∈ ans, Q log e) {r : Ret} (hr : pc' = .done r) :
    Origin errorFromHttp3 Q op r := by
  cases h with
  | returns v hop =>
      cases hr
      obtain ⟨rfl, rfl⟩ := first_eq_returns hop
      exact .entered
  | calls => cases hr
  | polls pc e p hpc hfirst hp =>
      rw [pc_after_eq_done hr] at hp
      exact .awaited op log e r (hans e rfl) hp

theorem told_of_origin {e : PyErr}
    (h : Origin errorFromHttp3 Q op (.error e)) :
    Told errorFromHttp3 Q (.op op) e := by
  cases h with
  | awaited op log ev r hans hr =>
      obtain ⟨hop, hdatagram, err, herr, rfl⟩ := awaits_error hr
      exact .raised op log ev err hop hans herr hdatagram

theorem pc_raised_eq_some {e : PyErr} (h : pc.raised = some e) :
    pc = .done (.error e) := by
  unfold OneCall.Pc.raised at h
  split at h
  · cases h
    rfl
  · cases h

theorem Sourced.tell {c : Caller} {e : PyErr} (hw : Sourced errorFromHttp3 Q w)
    (h : Told errorFromHttp3 Q c e) (d : Caller) (x : PyErr)
    (hx : (d, x) ∈ w.told ++ [(c, e)]) : Told errorFromHttp3 Q d x := by
  rcases List.mem_append.mp hx with hold | hnew
  · exact hw.told d x hold
  · obtain ⟨rfl, rfl⟩ := Prod.mk.inj (List.mem_singleton.mp hnew)
    exact h

theorem sourced_step (hw : Sourced errorFromHttp3 Q w)
    (h : Step errorFromHttp3 Q w l w') : Sourced errorFromHttp3 Q w' := by
  have hans := h.2
  cases h.move with
  | call op =>
      refine ⟨forall_getElem?_concat ?_ hw.results, hw.told⟩
      intro r hr
      cases hr
  | datagram | close | isOpen => exact ⟨hw.results, hw.told⟩
  | datagramFails data e =>
      exact ⟨hw.results, hw.tell (.datagram w.log data e (hans _ rfl))⟩
  | isClosed e =>
      exact ⟨hw.results, hw.tell (.closeReason w.log e (hans _ rfl))⟩
  | @task i ans t pc hi hm =>
      constructor
      · apply forall_getElem?_set
        · intro r hr
          exact origin_of_taskMove hm hans hr
        · intro j t _ hj
          exact hw.results j t hj
      · intro c e hmem
        rcases List.mem_append.mp hmem with hold | hnew
        · exact hw.told c e hold
        · obtain ⟨x, hx, heq⟩ := Option.map_eq_some_iff.mp (Option.mem_toList.mp hnew)
          obtain ⟨rfl, rfl⟩ := Prod.mk.inj heq
          exact told_of_origin (origin_of_taskMove hm hans (pc_raised_eq_some hx))
  | drop i hi hpc =>
      refine ⟨forall_getElem?_set ?_ fun j t _ => hw.results j t, hw.told⟩
      intro r hr
      cases hr

theorem sourced_of_reachable (h : Reachable (Step errorFromHttp3 Q) new w) :
    Sourced errorFromHttp3 Q w :=
  h.invariant (fun _ _ _ hstep hw => sourced_step hw hstep)
    ⟨by simp [new], by simp [new]⟩

end Origin

end WebTransport.Session
