import Mathlib.Logic.Relation
import WebTransport.Errors

/-!
# What `SessionClosedByPeer` promises

An error of the QUIC connection reaches Python through several layers of error
values, and each layer has a mapping of its own.  The exception depends only on
the innermost error value; where it is a `SessionClosedByPeer` its attributes are
held against what the type stubs say about them.
-/

namespace WebTransport

/-! ## Error values and their causes -/

/-- An error value on its way to Python, with what its mapping is given beside
it. -/
inductive Failure
  | connection (err : ConnectionError)
  | sendDatagram (err : SendDatagramError)
  | session (err : SessionError)
  | write (err : WriteError)
  | read (err : ReadError)
  | readToEnd (err : ReadToEndError) (limit : UInt64)
  | readExact (err : ReadExactError) (expected : UInt64) (buf : List UInt8)
  | server (err : ServerError)
  deriving DecidableEq, Repr

namespace Failure

/-- The exception that an error value becomes. -/
def toPyErr (errorFromHttp3 : ErrorFromHttp3) : Failure → PyErr
  | connection err => mapConnectionError errorFromHttp3 err
  | sendDatagram err => mapSendDatagramError errorFromHttp3 err
  | session err => mapSessionError errorFromHttp3 err
  | write err => mapWriteError errorFromHttp3 err
  | read err => mapReadError errorFromHttp3 err
  | readToEnd err limit => mapReadToEndError errorFromHttp3 err limit
  | readExact err expected buf => mapReadExactError errorFromHttp3 err expected buf
  | server err => mapServerError errorFromHttp3 err

/-- The error value that another one is wrapped around. -/
def inner : Failure → Option Failure
  | sendDatagram (.connectionLost err) => some (connection err)
  | session (.connectionError err) => some (connection err)
  | session (.sendDatagramError err) => some (sendDatagram err)
  | write (.sessionError err) => some (session err)
  | read (.sessionError err) => some (session err)
  | readToEnd (.readError err) _ => some (read err)
  | readExact (.readError err) _ _ => some (read err)
  | server (.connection err) => some (connection err)
  | _ => none

def LeadsTo : Failure → Failure → Prop :=
  Relation.ReflTransGen fun f g => f.inner = some g

/-- The number of layers that an error value can have. -/
def layers : Failure → ℕ
  | connection _ => 0
  | sendDatagram _ | server _ => 1
  | session _ => 2
  | write _ | read _ => 3
  | readToEnd _ _ | readExact _ _ _ => 4

variable {f g c : Failure}

theorem layers_inner (h : f.inner = some g) : g.layers < f.layers := by
  unfold inner at h
  split at h <;> cases h <;> simp [layers]

def cause (f : Failure) : Failure :=
  match _h : f.inner with
  | some g => g.cause
  | none => f
termination_by f.layers
decreasing_by exact layers_inner _h

theorem cause_of_inner (h : f.inner = some g) : f.cause = g.cause := by
  rw [cause]
  split
  · rename_i g' h'
    rw [h] at h'
    cases h'
    rfl
  · rename_i h'
    rw [h] at h'
    cases h'

theorem cause_eq_self (h : f.inner = none) : f.cause = f := by
  rw [cause]
  split
  · rename_i g' h'
    rw [h] at h'
    cases h'
  · rfl

theorem LeadsTo.cause_eq (h : f.LeadsTo g) : f.cause = g.cause := by
  induction h with
  | refl => rfl
  | tail _ hinner ih => rw [ih, cause_of_inner hinner]

theorem leadsTo_cause (f : Failure) : f.LeadsTo f.cause ∧ f.cause.inner = none := by
  induction f using cause.induct with
  | case1 f g h ih =>
      rw [cause_of_inner h]
      exact ⟨ih.1.head h, ih.2⟩
  | case2 f h =>
      rw [cause_eq_self h]
      exact ⟨.refl, h⟩

/-- The innermost error value is the one end of the layers. -/
theorem leadsTo_and_inner_eq_none_iff :
    f.LeadsTo c ∧ c.inner = none ↔ c = f.cause := by
  constructor
  · rintro ⟨hleads, hnone⟩
    rw [hleads.cause_eq, cause_eq_self hnone]
  · rintro rfl
    exact leadsTo_cause f

/-! ## The exception of a cause -/

section Exceptions

variable {errorFromHttp3 : ErrorFromHttp3}

theorem toPyErr_of_inner (h : f.inner = some g) :
    f.toPyErr errorFromHttp3 = g.toPyErr errorFromHttp3 := by
  unfold inner at h
  split at h <;> cases h <;> rfl

theorem toPyErr_cause (f : Failure) :
    f.cause.toPyErr errorFromHttp3 = f.toPyErr errorFromHttp3 := by
  induction f using cause.induct with
  | case1 f g h ih => rw [cause_of_inner h, ih, toPyErr_of_inner h]
  | case2 f h => rw [cause_eq_self h]

/-- The WebTransport code with which the peer has closed the session. -/
def closeCode (errorFromHttp3 : ErrorFromHttp3) : Failure → Option UInt32
  | session (.webTransportError (.closed code _)) => some code
  | connection (.applicationClosed errorCode _) => errorFromHttp3 errorCode
  | _ => none

/-- The attributes of a `SessionClosedByPeer` are what the type stubs say, for a
session that the peer has closed with the given code. -/
def AsDocumented (closeCode : Option UInt32) : PyErr → Prop
  | .sessionClosedByPeer _ source code reason =>
      source ∈ ["session", "application", "transport", "connection-reset"] ∧
      (source = "transport" ∨ source = "connection-reset" → code = none) ∧
      (source = "session" → ∃ c, closeCode = some c ∧ code = some c.toUInt64) ∧
      (source = "application" →
        ∀ c, closeCode = some c → code = some c.toUInt64) ∧
      (source = "connection-reset" → reason = "")
  | _ => True

/-- What becomes of an innermost error value is as documented, unless the peer's
QUIC stack has closed the connection. -/
theorem asDocumented_iff_of_inner (h : c.inner = none) :
    AsDocumented (c.closeCode errorFromHttp3) (c.toPyErr errorFromHttp3) ↔
      ∀ errorCode reason, c ≠ connection (.connectionClosed errorCode reason) := by
  cases c with
  | connection err =>
      cases err with
      | applicationClosed errorCode reason =>
          simp +contextual [AsDocumented, toPyErr, mapConnectionError,
            newSessionClosedByPeer, closeCode]
      | _ =>
          simp [AsDocumented, toPyErr, mapConnectionError, newSessionClosedByPeer]
  | session err =>
      cases err with
      | webTransportError err =>
          cases err <;> simp [AsDocumented, toPyErr, mapSessionError,
            newSessionClosedByPeer, closeCode]
      | _ => cases h
  | sendDatagram err =>
      cases err with
      | connectionLost err => cases h
      | _ => simp [AsDocumented, toPyErr, mapSendDatagramError,
          newDatagramNotSupportedError]
  | write err =>
      cases err with
      | sessionError err => cases h
      | _ => simp [AsDocumented, toPyErr, mapWriteError, newStreamClosedByPeer]
  | read err =>
      cases err with
      | sessionError err => cases h
      | _ => simp [AsDocumented, toPyErr, mapReadError, newStreamClosedByPeer]
  | readToEnd err limit =>
      cases err with
      | readError err => cases h
      | tooLong => simp [AsDocumented, toPyErr, mapReadToEndError]
  | readExact err expected buf =>
      cases err with
      | readError err => cases h
      | finishedEarly bytesRead =>
          by_cases hrange : bytesRead ≤ buf.length <;>
            simp [AsDocumented, toPyErr, mapReadExactError, hrange,
              newStreamIncompleteReadError]
  | server err =>
      cases err with
      | connection err => cases h
      | _ => simp [AsDocumented, toPyErr, mapServerError]

/-- Every error value has one innermost error value, the exception depends on
nothing else, and it is as documented exactly if this is not a connection that
the peer's QUIC stack has closed. -/
theorem asDocumented_iff (errorFromHttp3 : ErrorFromHttp3) :
    (∀ f c : Failure, f.LeadsTo c ∧ c.inner = none ↔ c = f.cause) ∧
    (∀ f g : Failure, f.cause = g.cause →
      f.toPyErr errorFromHttp3 = g.toPyErr errorFromHttp3) ∧
    ∀ f : Failure,
      AsDocumented (f.cause.closeCode errorFromHttp3) (f.toPyErr errorFromHttp3) ↔
        ∀ errorCode reason,
          f.cause ≠ connection (.connectionClosed errorCode reason) := by
  refine ⟨fun f c => leadsTo_and_inner_eq_none_iff, fun f g h => ?_, fun f => ?_⟩
  · rw [← toPyErr_cause f, h, toPyErr_cause g]
  · rw [← toPyErr_cause f]
    exact asDocumented_iff_of_inner (leadsTo_cause f).2

/-- A close by the peer's QUIC stack carries a code. -/
theorem connectionClosed_not_documented :
    ¬ ∀ f : Failure, AsDocumented (f.cause.closeCode noCodes) (f.toPyErr noCodes) := by
  intro h
  have hclosed := h (read (.sessionError (.connectionError (.connectionClosed 10 []))))
  have hcode := hclosed.2.1 (Or.inl rfl)
  cases hcode

end Exceptions

end Failure

end WebTransport
