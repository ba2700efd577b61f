import WebTransport.Errors

/-!
# The exception classes

The classes that the bindings register, each with its base class, and the class
of an exception.
-/

namespace WebTransport

/-- The classes made by `create_exception!`, and the classes of Python and of the
runtime that the bindings use beside them. -/
inductive ExcClass
  | webTransportError
  | sessionError
  | connectError
  | sessionRejected
  | sessionClosed
  | sessionClosedByPeer
  | sessionClosedLocally
  | sessionTimeout
  | protocolError
  | streamError
  | streamClosed
  | streamClosedByPeer
  | streamClosedLocally
  | streamTooLongError
  | streamIncompleteReadError
  | datagramError
  | datagramTooLargeError
  | datagramNotSupportedError
  | valueError
  | stopAsyncIteration
  | rustPanic
  | exception
  | baseException
  deriving DecidableEq, Repr

namespace ExcClass

def base : ExcClass → Option ExcClass
  | webTransportError => some exception
  | sessionError => some webTransportError
  | connectError => some sessionError
  | sessionRejected => some connectError
  | sessionClosed => some sessionError
  | sessionClosedByPeer => some sessionClosed
  | sessionClosedLocally => some sessionClosed
  | sessionTimeout => some sessionError
  | protocolError => some sessionError
  | streamError => some webTransportError
  | streamClosed => some streamError
  | streamClosedByPeer => some streamClosed
  | streamClosedLocally => some streamClosed
  | streamTooLongError => some streamError
  | streamIncompleteReadError => some streamError
  | datagramError => some webTransportError
  | datagramTooLargeError => some datagramError
  | datagramNotSupportedError => some datagramError
  | valueError => some exception
  | stopAsyncIteration => some exception
  | rustPanic => some exception
  | exception => some baseException
  | baseException => none

/-- The classes from `c` upwards, at most `n` of them above `c`. -/
def upwards : ℕ → ExcClass → List ExcClass
  | 0, c => [c]
  | n + 1, c => c :: c.base.elim [] (upwards n)

/-- `issubclass(c, d)`.  No branch of the tree is longer than six classes. -/
def IsSubclass (c d : ExcClass) : Prop :=
  d ∈ upwards 5 c

instance (c d : ExcClass) : Decidable (IsSubclass c d) :=
  inferInstanceAs (Decidable (_ ∈ _))

end ExcClass

/-- The class of an exception. -/
def PyErr.cls : PyErr → ExcClass
  | sessionError _ => .sessionError
  | connectError _ => .connectError
  | sessionRejected _ _ => .sessionRejected
  | sessionClosedByPeer _ _ _ _ => .sessionClosedByPeer
  | sessionClosedLocally _ => .sessionClosedLocally
  | sessionTimeout _ => .sessionTimeout
  | protocolError _ => .protocolError
  | streamClosedByPeer _ _ _ => .streamClosedByPeer
  | streamClosedLocally _ => .streamClosedLocally
  | streamTooLongError _ _ => .streamTooLongError
  | streamIncompleteReadError _ _ _ => .streamIncompleteReadError
  | datagramTooLargeError _ => .datagramTooLargeError
  | datagramNotSupportedError _ _ => .datagramNotSupportedError
  | valueError _ => .valueError
  | stopAsyncIteration => .stopAsyncIteration
  | rustPanic _ => .rustPanic

def PyErr.CaughtBy (e : PyErr) (c : ExcClass) : Prop :=
  e.cls.IsSubclass c

instance (e : PyErr) (c : ExcClass) : Decidable (e.CaughtBy c) :=
  inferInstanceAs (Decidable (_ ∈ _))

/-- The classes of the errors of a connection. -/
def connectionClasses : List ExcClass :=
  [.sessionClosedByPeer, .sessionClosedLocally, .sessionTimeout, .protocolError]

/-- An error of a session that is not about a datagram. -/
def SessionError.Plain : SessionError → Prop
  | .sendDatagramError _ => False
  | _ => True

section Classes

variable (errorFromHttp3 : ErrorFromHttp3)

theorem mapConnectionError_cls (err : ConnectionError) :
    (mapConnectionError errorFromHttp3 err).cls ∈ connectionClasses := by
  cases err <;> simp [mapConnectionError, connectionClasses, PyErr.cls,
    newSessionClosedByPeer]

theorem mapSessionError_cls {err : SessionError} (h : err.Plain) :
    (mapSessionError errorFromHttp3 err).cls ∈ connectionClasses := by
  match err with
  | .connectionError err => exact mapConnectionError_cls errorFromHttp3 err
  | .webTransportError (.closed code reason) =>
      simp [mapSessionError, connectionClasses, PyErr.cls, newSessionClosedByPeer]
  | .webTransportError (.other display) =>
      simp [mapSessionError, connectionClasses, PyErr.cls]
  | .sendDatagramError err => exact h.elim

theorem caughtBy_sessionError {e : PyErr} (h : e.cls ∈ connectionClasses) :
    e.CaughtBy .sessionError := by
  have hall : ∀ c ∈ connectionClasses, c.IsSubclass .sessionError := by decide
  exact hall e.cls h

end Classes

end WebTransport
