import WebTransport.Connection.Model
import WebTransport.Errors.Contract
import WebTransport.RecvStream.Raises
import WebTransport.SendStream.Raises
import WebTransport.Session.Results

/-!
# What everyone is told about the end

A connection ends once, but many awaitables of many objects learn of it: those of
the session, and those of both halves of every stream.  Each has its own way from
the error value to the exception.  Whatever the interleaving, the exceptions are
those of errors that the QUIC connection has reported, and they agree as far as
its reports do.
-/

namespace WebTransport

open Support Wrapper

/-! ## The two halves -/

namespace SendStream

variable {errorFromHttp3 : ErrorFromHttp3} {Q : Answers Event} {op : Op} {e : PyErr}

/-- An error of the connection was reported, or it is about the code of the
peer's `STOP_SENDING`. -/
theorem reported_of_connection (h : Origin errorFromHttp3 Q op (.error e))
    (hcls : e.cls ∈ connectionClasses) :
    e = .protocolError "peer sent STOP_SENDING with invalid error code" ∨
      ∃ log ev err, Q log ev ∧ ev.sessionError? = some err ∧
        e = mapSessionError errorFromHttp3 err := by
  cases h with
  | closedLocally op msg => simp [connectionClasses, PyErr.cls] at hcls
  | writeFailed op log data rest err hop hans =>
      cases err with
      | stopped code =>
          simp [connectionClasses, mapWriteError, newStreamClosedByPeer,
            PyErr.cls] at hcls
      | invalidStopped code => exact Or.inl rfl
      | sessionError err => exact Or.inr ⟨log, _, err, hans, rfl, rfl⟩
      | closedStream => simp [connectionClasses, mapWriteError, PyErr.cls] at hcls
  | waitFailed log err hans => exact Or.inr ⟨log, _, err, hans, rfl, rfl⟩

end SendStream

namespace RecvStream

variable {errorFromHttp3 : ErrorFromHttp3} {Q : Answers Event} {op : Op} {e : PyErr}

theorem reported_of_connection (h : Origin errorFromHttp3 Q op (.error e))
    (hcls : e.cls ∈ connectionClasses) :
    e = .protocolError "peer sent RESET_STREAM with invalid error code" ∨
    e = .protocolError "illegal ordered read on unordered stream" ∨
      ∃ log ev err, Q log ev ∧ ev.sessionError? = some err ∧
        e = mapSessionError errorFromHttp3 err := by
  generalize hr : (Except.error e : Ret) = r at h
  cases h with
  | readFailed op log ev err hop hans hev =>
      cases hr
      cases err with
      | reset code =>
          simp [connectionClasses, mapReadError, newStreamClosedByPeer,
            PyErr.cls] at hcls
      | invalidReset code => exact Or.inl rfl
      | illegalOrderedRead => exact Or.inr (Or.inl rfl)
      | sessionError err =>
          have herr := Event.sessionError?_of_readError? hev
          exact Or.inr (Or.inr ⟨log, ev, err, hans, herr, rfl⟩)
      | closedStream => simp [connectionClasses, mapReadError, PyErr.cls] at hcls
  | waitFailed log err hans =>
      cases hr
      exact Or.inr (Or.inr ⟨log, _, err, hans, rfl, rfl⟩)
  | ended op ht =>
      cases op with
      | readexactly n =>
          cases hr
          simp [connectionClasses, newStreamIncompleteReadError, PyErr.cls] at hcls
      | anext =>
          cases hr
          simp [connectionClasses, PyErr.cls] at hcls
      | read n limit | waitClosed => cases hr
  | closedLocally | incomplete | overflow | tooLong =>
      cases hr
      simp [connectionClasses, newStreamIncompleteReadError, mapReadToEndError,
        PyErr.cls] at hcls
  | bytes | waitEnded => cases hr

end RecvStream

namespace Connection

/-- The QUIC connection has reported the error to one of the wrappers. -/
inductive World.Reports (w : World) (err : SessionError) : Prop
  | session (e : Session.Event) (he : e ∈ w.session.log) (herr : e.error? = some err)
  | send (k : ℕ) (u : SendStream.World) (e : SendStream.Event)
      (hk : w.sends[k]? = some u) (he : e ∈ u.log) (herr : e.sessionError? = some err)
  | recv (k : ℕ) (u : RecvStream.World) (e : RecvStream.Event)
      (hk : w.recvs[k]? = some u) (he : e ∈ u.log) (herr : e.sessionError? = some err)

/-- One of the wrappers has handed the exception to Python. -/
inductive World.Tells (w : World) (e : PyErr) : Prop
  | session (c : Session.Caller) (h : (c, e) ∈ w.session.told)
  | send (k : ℕ) (u : SendStream.World) (i : ℕ) (op : SendStream.Op)
      (hk : w.sends[k]? = some u) (hi : u.tasks[i]? = some (.call op (.done (.error e))))
  | recv (k : ℕ) (u : RecvStream.World) (i : ℕ) (op : RecvStream.Op)
      (hk : w.recvs[k]? = some u) (hi : u.tasks[i]? = some (.call op (.done (.error e))))

/-- The protocol errors of a single stream. -/
def streamErrors : List PyErr :=
  [.protocolError "peer sent STOP_SENDING with invalid error code",
    .protocolError "peer sent RESET_STREAM with invalid error code",
    .protocolError "illegal ordered read on unordered stream"]

/-- Whatever the QUIC connection has reported, apart from the fate of datagrams,
has the one cause. -/
def World.EndedBy (w : World) (cause : Failure) : Prop :=
  ∀ err, w.Reports err → (∀ d, (Failure.session err).cause ≠ .sendDatagram d) →
    (Failure.session err).cause = cause

section Answers

variable {errorFromHttp3 : ErrorFromHttp3} {Q : Quic} {w w' : World} {l : Action}
  {err : SessionError} {e : PyErr}

/-! ## Every exception has been reported -/

/-- Each wrapper has done what it can do on answers whose errors are among the
reports. -/
abbrev Reported (errorFromHttp3 : ErrorFromHttp3) (R : SessionError → Prop)
    (w : World) : Prop :=
  Parts errorFromHttp3 (fun _ e => ∀ err, e.error? = some err → R err)
    (fun _ e => ∀ err, e.sessionError? = some err → R err)
    (fun _ e => ∀ err, e.sessionError? = some err → R err) w

theorem Reported.mono {R R' : SessionError → Prop}
    (h : Reported errorFromHttp3 R w) (hR : ∀ err, R err → R' err) :
    Reported errorFromHttp3 R' w where
  session := h.session.mono fun _ _ _ hstep =>
    ⟨hstep.1, fun e he err herr => hR err (hstep.2 e he err herr)⟩
  send k u hk := by
    obtain ⟨priority, hu⟩ := h.send k u hk
    exact ⟨priority, hu.mono fun _ _ _ hstep =>
      ⟨hstep.1, fun e he err herr => hR err (hstep.2 e he err herr)⟩⟩
  recv k u hk := (h.recv k u hk).mono fun _ _ _ hstep =>
    ⟨hstep.1, fun e he err herr => hR err (hstep.2 e he err herr)⟩

theorem reports_mono (h : Step errorFromHttp3 Q w l w') (hw : w.Reports err) :
    w'.Reports err := by
  cases step_iff_move.mp h with
  | session l s hs =>
      cases hw with
      | session e he herr =>
          refine .session e ?_ herr
          rw [Session.log_of_step hs]
          exact List.mem_append_left _ he
      | send k u e hk he herr =>
          exact .send k u e (List.getElem?_append_left
            (lt_length_of_getElem? hk) ▸ hk) he herr
      | recv k u e hk he herr =>
          exact .recv k u e (List.getElem?_append_left
            (lt_length_of_getElem? hk) ▸ hk) he herr
  | @send k l u u' hk hs =>
      cases hw with
      | session e he herr => exact .session e he herr
      | recv j v e hj he herr => exact .recv j v e hj he herr
      | send j v e hj he herr =>
          by_cases hjk : j = k
          · subst hjk
            obtain rfl := Option.some.inj (hk.symm.trans hj)
            exact .send j u' e (getElem?_set_of_eq_some hk)
              (hs.log_isPrefix.subset he) herr
          · exact .send j v e (getElem?_set_of_ne (Ne.symm hjk) hj) he herr
  | @recv k l u u' hk hs =>
      cases hw with
      | session e he herr => exact .session e he herr
      | send j v e hj he herr => exact .send j v e hj he herr
      | recv j v e hj he herr =>
          by_cases hjk : j = k
          · subst hjk
            obtain rfl := Option.some.inj (hk.symm.trans hj)
            exact .recv j u' e (getElem?_set_of_eq_some hk)
              (hs.log_isPrefix.subset he) herr
          · exact .recv j v e (getElem?_set_of_ne (Ne.symm hjk) hj) he herr

theorem within_of_step (h : Step errorFromHttp3 Q w l w') :
    Within (fun _ e => ∀ err, e.error? = some err → w'.Reports err)
      (fun _ e => ∀ err, e.sessionError? = some err → w'.Reports err)
      (fun _ e => ∀ err, e.sessionError? = some err → w'.Reports err) w l := by
  cases step_iff_move.mp h with
  | session l s hs =>
      intro e he err herr
      refine .session e ?_ herr
      rw [Session.log_of_step hs]
      exact List.mem_append_right _ (Option.mem_toList.mpr he)
  | @send k l u u' hk hs =>
      intro v _ e he err herr
      exact .send k u' e (getElem?_set_of_eq_some hk) (hs.answer_mem he) herr
  | @recv k l u u' hk hs =>
      intro v _ e he err herr
      exact .recv k u' e (getElem?_set_of_eq_some hk) (hs.answer_mem he) herr

theorem reported_of_reachable (h : Reachable (Step errorFromHttp3 Q) new w) :
    Reported errorFromHttp3 w.Reports w := by
  refine h.invariant (I := fun w => Reported errorFromHttp3 w.Reports w) ?_ ?_
  · intro u l v hstep hu
    exact parts_step hstep (within_of_step hstep)
      (hu.mono fun err => reports_mono hstep)
  · exact ⟨Reachable.refl, by simp [new], by simp [new]⟩

theorem Reported.told {R : SessionError → Prop} (hparts : Reported errorFromHttp3 R w)
    (htold : w.Tells e) (hcls : e.cls ∈ connectionClasses)
    (hstream : e ∉ streamErrors) :
    ∃ err, R err ∧ e = mapSessionError errorFromHttp3 err := by
  cases htold with
  | session c hmem =>
      cases (Session.sourced_of_reachable hparts.session).told c e hmem with
      | raised op log ev err hop hans herr => exact ⟨err, hans err herr, rfl⟩
      | datagram log data err hans => exact ⟨err, hans err rfl, rfl⟩
      | closeReason log err hans => exact ⟨err, hans err rfl, rfl⟩
  | send k u i op hk hi =>
      obtain ⟨priority, hu⟩ := hparts.send k u hk
      rcases SendStream.reported_of_connection (SendStream.origin_of_result hu hi) hcls
        with rfl | ⟨log, ev, err, hans, herr, rfl⟩
      · exact absurd (by simp [streamErrors]) hstream
      · exact ⟨err, hans err herr, rfl⟩
  | recv k u i op hk hi =>
      have hu := hparts.recv k u hk
      rcases RecvStream.reported_of_connection (RecvStream.origin_of_result hu hi) hcls
        with rfl | rfl | ⟨log, ev, err, hans, herr, rfl⟩
      · exact absurd (by simp [streamErrors]) hstream
      · exact absurd (by simp [streamErrors]) hstream
      · exact ⟨err, hans err herr, rfl⟩

/-- Whoever is told of the end of the connection, on the session or on any half of
any stream, is told of an error that the QUIC connection has reported; and if its
reports have one cause, everyone is told the same. -/
theorem one_end (h : Reachable (Step errorFromHttp3 Q) new w) (htold : w.Tells e)
    (hcls : e.cls ∈ connectionClasses) (hstream : e ∉ streamErrors) :
    (∃ err, w.Reports err ∧ e = mapSessionError errorFromHttp3 err) ∧
      ∀ cause, w.EndedBy cause → e = cause.toPyErr errorFromHttp3 := by
  obtain ⟨err, hreports, rfl⟩ := (reported_of_reachable h).told htold hcls hstream
  refine ⟨⟨err, hreports, rfl⟩, ?_⟩
  intro cause hended
  have hcause : (Failure.session err).cause.toPyErr errorFromHttp3 =
      mapSessionError errorFromHttp3 err :=
    Failure.toPyErr_cause _
  rw [← hcause] at hcls ⊢
  rw [hended err hreports]
  intro d hd
  obtain ⟨-, hinner⟩ := Failure.leadsTo_cause (.session err)
  rw [hd] at hcls hinner
  cases d with
  | connectionLost err => cases hinner
  | _ => simp [Failure.toPyErr, mapSendDatagramError, newDatagramNotSupportedError,
      connectionClasses, PyErr.cls] at hcls

end Answers

/-- A connection that times out after a stream was opened on it. -/
def timingOut : TestQuic where
  session
    | .openUni r => r = .ready (.ok ⟨0, none⟩)
    | .sendDatagram _ (.error e) =>
        e = .sendDatagramError (.connectionLost .timedOut)
    | .closeReason r => r = some (.connectionError .timedOut)
    | _ => false
  send _
    | .write _ r => r = .ready (.error (.sessionError (.connectionError .timedOut)))
    | _ => false
  recv _ _ := false

/-- A write that learns of it. -/
def writeTimedOut : List (Wrapper.Action SendStream.Op SendStream.Event Int32) :=
  SendStream.startCall (.write [1]) 0 ++
    [.task 0 (some (.write [1]
      (.ready (.error (.sessionError (.connectionError .timedOut)))))), .task 0 none]

/-- A stream is opened, a write on it fails, and so does a datagram. -/
def timedOutSteps : List Action :=
  [.session (.call .openUni),
    .session (.task 0 (some (.openUni (.ready (.ok ⟨0, none⟩)))))] ++
  writeTimedOut.map (.send 0) ++
  [.session (.sendDatagram [1] (.error (.sendDatagramError
      (.connectionLost .timedOut)))),
    .session (.closeReason (some (.connectionError .timedOut)))]

def timedOut : World :=
  timingOut.after new timedOutSteps

theorem timedOut_endedBy : timedOut.EndedBy (.connection .timedOut) := by
  have hconnection : (Failure.session (.connectionError .timedOut)).cause =
      .connection .timedOut := by
    rw [Failure.cause_of_inner rfl, Failure.cause_eq_self rfl]
  have hdatagram : (Failure.session (.sendDatagramError
      (.connectionLost .timedOut))).cause = .connection .timedOut := by
    rw [Failure.cause_of_inner rfl, Failure.cause_of_inner rfl,
      Failure.cause_eq_self rfl]
  have hsession : timedOut.session.log =
      [.openUni (.ready (.ok ⟨0, none⟩)),
        .sendDatagram [1] (.error (.sendDatagramError (.connectionLost .timedOut))),
        .closeReason (some (.connectionError .timedOut))] := rfl
  have hsends : timedOut.sends.map (fun u => u.log) =
      [[.write [1] (.ready (.error (.sessionError (.connectionError .timedOut))))]] :=
    rfl
  have hrecvs : timedOut.recvs = [] := rfl
  intro err hreports _
  cases hreports with
  | session e he herr =>
      rw [hsession] at he
      simp only [List.mem_cons, List.not_mem_nil, or_false] at he
      rcases he with rfl | rfl | rfl <;> cases herr
      · exact hdatagram
      · exact hconnection
  | send k u e hk he herr =>
      have hlog : u.log ∈ timedOut.sends.map fun u => u.log :=
        List.mem_map_of_mem (List.mem_of_getElem? hk)
      rw [hsends, List.mem_singleton] at hlog
      rw [hlog, List.mem_singleton] at he
      subst he
      cases herr
      exact hconnection
  | recv k u e hk =>
      rw [hrecvs] at hk
      cases hk

/-- The write is told of an error that was reported, and of nothing else than the
datagram and `close_reason` are. -/
theorem timedOut_told_alike :
    (∃ err, timedOut.Reports err ∧
      PyErr.sessionTimeout "session timed out" = mapSessionError noCodes err) ∧
      PyErr.sessionTimeout "session timed out" =
        (Failure.connection .timedOut).toPyErr noCodes := by
  have htold : timedOut.Tells (.sessionTimeout "session timed out") :=
    .send 0 _ 0 (.write [1]) rfl rfl
  obtain ⟨hreported, hall⟩ := one_end
    (TestQuic.run_after timedOutSteps (by decide)).reachable htold (by decide)
    (by decide)
  exact ⟨hreported, hall _ timedOut_endedBy⟩

end Connection

end WebTransport
