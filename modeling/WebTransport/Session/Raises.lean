import WebTransport.Errors.Hierarchy
import WebTransport.Session.Results

/-!
# What the session raises

The counterpart of the two halves.  The entry, the exit and `wait_closed` never
raise, the other awaitables raise the errors of a connection, and `close_reason`
returns one of them.  `send_datagram` has exceptions of its own, and one that the
type stubs do not list: the connection may have been lost by a protocol error.
-/

namespace WebTransport.Session

open Support Wrapper

/-- The classes that the type stubs list for a call. -/
def Caller.raises : Caller → List ExcClass
  | .op .aenter | .op .aexit | .op .waitClosed => []
  | .sendDatagram => [.datagramTooLargeError, .datagramNotSupportedError,
      .sessionClosedByPeer, .sessionClosedLocally, .sessionTimeout]
  | .op _ | .closeReason => connectionClasses

/-- Only `send_datagram` fails with an error about a datagram. -/
def PlainErrors (Q : Answers Event) : Prop :=
  ∀ log e err, Q log e → e.error? = some err →
    (∀ data r, e ≠ .sendDatagram data r) → err.Plain

/-- What is known of an exception that reaches Python by a call. -/
structure Caller.Documents (c : Caller) (e : PyErr) : Prop where
  listed : e.cls ∈ c.raises ∨ c = .sendDatagram ∧ e.cls = .protocolError
  session : c ≠ .sendDatagram → e.CaughtBy .sessionError
  base : e.CaughtBy .webTransportError
  reason : ∀ {msg reason}, e = .datagramNotSupportedError msg reason →
    reason = "unsupported_by_peer" ∨ reason = "disabled_locally"

section Raises

variable {errorFromHttp3 : ErrorFromHttp3} {Q : Answers Event} {c : Caller}
  {e : PyErr} {w : World}

/-- Errors of the connection are listed for every call that fails, apart from the
protocol errors of `send_datagram`. -/
theorem Caller.documents_of_connection (hc : ∀ op, c = .op op → op.fallible = true)
    (h : e.cls ∈ connectionClasses) : c.Documents e := by
  have hsession : e.CaughtBy .sessionError := caughtBy_sessionError h
  have hbase : ∀ c ∈ connectionClasses, c.IsSubclass .webTransportError := by decide
  refine ⟨?_, fun _ => hsession, hbase e.cls h, ?_⟩
  · cases c with
    | closeReason => exact Or.inl h
    | op op =>
        left
        have hop := hc op rfl
        cases op with
        | aenter | aexit | waitClosed => cases hop
        | _ => exact h
    | sendDatagram =>
        have hall : ∀ c ∈ connectionClasses,
            c ∈ Caller.sendDatagram.raises ∨ c = .protocolError := by decide
        exact (hall e.cls h).imp_right fun hcls => ⟨rfl, hcls⟩
  · intro msg reason he
    subst he
    simp [connectionClasses, PyErr.cls] at h

theorem Caller.documents_datagram (err : SendDatagramError) :
    Caller.sendDatagram.Documents (mapSendDatagramError errorFromHttp3 err) := by
  cases err with
  | connectionLost err =>
      apply Caller.documents_of_connection
      · intro op hop
        cases hop
      · exact mapConnectionError_cls errorFromHttp3 err
  | tooLarge =>
      refine ⟨Or.inl ?_, fun hc => absurd rfl hc, ?_, fun h => by cases h⟩
      · exact List.mem_cons_self
      · show ExcClass.IsSubclass .datagramTooLargeError .webTransportError
        decide
  | unsupportedByPeer =>
      refine ⟨Or.inl ?_, fun hc => absurd rfl hc, ?_, ?_⟩
      · exact List.mem_cons_of_mem _ List.mem_cons_self
      · show ExcClass.IsSubclass .datagramNotSupportedError .webTransportError
        decide
      · rintro _ _ ⟨⟩
        exact Or.inl rfl
  | disabled =>
      refine ⟨Or.inl ?_, fun hc => absurd rfl hc, ?_, ?_⟩
      · exact List.mem_cons_of_mem _ List.mem_cons_self
      · show ExcClass.IsSubclass .datagramNotSupportedError .webTransportError
        decide
      · rintro _ _ ⟨⟩
        exact Or.inr rfl

theorem Caller.documents_of_told (hQ : PlainErrors Q)
    (h : Told errorFromHttp3 Q c e) : c.Documents e := by
  cases h with
  | raised op log ev err hop hans herr hdatagram =>
      apply Caller.documents_of_connection
      · rintro _ ⟨⟩
        exact hop
      · exact mapSessionError_cls errorFromHttp3 (hQ log ev err hans herr hdatagram)
  | closeReason log err hans =>
      apply Caller.documents_of_connection
      · intro op hop
        cases hop
      · exact mapSessionError_cls errorFromHttp3 (hQ log _ err hans rfl (by simp))
  | datagram log data err hans =>
      by_cases hplain : err.Plain
      · apply Caller.documents_of_connection
        · intro op hop
          cases hop
        · exact mapSessionError_cls errorFromHttp3 hplain
      · match err with
        | .sendDatagramError err => exact Caller.documents_datagram err
        | .connectionError err | .webTransportError err =>
            exact absurd trivial hplain

/-- In every run, whatever the session hands to Python as an exception is of a
class that the type stubs list for the call that it came from, or it is a protocol
error of `send_datagram`; `except SessionError` catches what comes from any other
call, and `except WebTransportError` everything. -/
theorem session_raises_documented (hQ : PlainErrors Q)
    (h : Reachable (Step errorFromHttp3 Q) new w) (htold : (c, e) ∈ w.told) :
    c.Documents e :=
  Caller.documents_of_told hQ ((sourced_of_reachable h).told c e htold)

end Raises

def timedOutSession (_log : List Event) : Event → Bool
  | .acceptUni (.ready (.error e)) => e = .connectionError .timedOut
  | .sendDatagram _ (.error e) => e = .sendDatagramError .disabled
  | .closeReason (some e) => e = .connectionError .timedOut
  | _ => false

theorem timedOutSession_plainErrors :
    PlainErrors fun log e => timedOutSession log e = true := by
  intro log e err hQ herr hdatagram
  unfold timedOutSession at hQ
  split at hQ
  · cases herr
    obtain rfl := of_decide_eq_true hQ
    trivial
  · exact absurd rfl (hdatagram _ _)
  · cases herr
    obtain rfl := of_decide_eq_true hQ
    trivial
  · cases hQ

/-- A datagram is refused, and a stream that is waited for does not come. -/
def timedOut : World :=
  after timedOutSession new [.call .acceptUni,
    .sendDatagram [1] (.error (.sendDatagramError .disabled)),
    .task 0 (some (.acceptUni (.ready (.error (.connectionError .timedOut))))),
    .closeReason (some (.connectionError .timedOut))]

theorem timedOut_documented :
    (Caller.op .acceptUni).Documents (.sessionTimeout "session timed out") ∧
      Caller.sendDatagram.Documents
        (newDatagramNotSupportedError "disabled_locally") ∧
      Caller.closeReason.Documents (.sessionTimeout "session timed out") := by
  have hall : ∀ {c e}, (c, e) ∈ timedOut.told → c.Documents e := by
    intro c e htold
    exact session_raises_documented timedOutSession_plainErrors
      (run_after _ (by decide)).reachable htold
  exact ⟨hall (by decide), hall (by decide), hall (by decide)⟩

end WebTransport.Session
