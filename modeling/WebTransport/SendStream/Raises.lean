import WebTransport.Errors.Hierarchy
import WebTransport.SendStream.Results

/-!
# What the operations of the send half raise

The type stubs list for each operation the exceptions that it may raise.  In
every run an operation that fails raises one of them, and `StreamClosedByPeer`
always tells of a peer that has stopped the stream.
-/

namespace WebTransport.SendStream

open Support Wrapper

/-- The classes that the type stubs list for an operation. -/
def Op.raises : Op → List ExcClass
  | .write _ | .writeSome _ =>
      .streamClosedByPeer :: .streamClosedLocally :: connectionClasses
  | .finish => [.streamClosedLocally]
  | .waitClosed => .streamClosedLocally :: connectionClasses

/-- The type stubs tell of the exception. -/
structure Op.Documents (op : Op) (e : PyErr) : Prop where
  listed : e.cls ∈ op.raises
  kind : ∀ {msg kind code}, e = .streamClosedByPeer msg kind code → kind = "stop"

/-- The error of the session with which a call on the QUIC stream fails. -/
def Event.sessionError? : Event → Option SessionError
  | .write _ (.ready (.error (.sessionError err))) => some err
  | .stopped (.ready (.error err)) => some err
  | _ => none

/-- A call on a stream never fails with an error about a datagram. -/
def PlainErrors (Q : Answers Event) : Prop :=
  ∀ log e err, Q log e → e.sessionError? = some err → err.Plain

section Raises

variable {errorFromHttp3 : ErrorFromHttp3} {Q : Answers Event} {op : Op}

theorem Op.documents_closedLocally (op : Op) (msg : String) :
    op.Documents (.streamClosedLocally msg) where
  listed := by cases op <;> simp [Op.raises, PyErr.cls]
  kind h := by cases h

theorem Op.documents_of_connection {e : PyErr} (hop : op ≠ .finish)
    (h : e.cls ∈ connectionClasses) : op.Documents e where
  listed := by
    cases op with
    | finish => exact absurd rfl hop
    | write data | writeSome data =>
        exact List.mem_cons_of_mem _ (List.mem_cons_of_mem _ h)
    | waitClosed => exact List.mem_cons_of_mem _ h
  kind he := by
    subst he
    simp [connectionClasses, PyErr.cls] at h

theorem Op.documents_mapSessionError {err : SessionError} (hop : op ≠ .finish)
    (h : err.Plain) : op.Documents (mapSessionError errorFromHttp3 err) :=
  op.documents_of_connection hop (mapSessionError_cls errorFromHttp3 h)

theorem Op.documents_mapWriteError {e : WriteError}
    (hop : .streamClosedByPeer ∈ op.raises)
    (h : ∀ err, e = .sessionError err → err.Plain) :
    op.Documents (mapWriteError errorFromHttp3 e) := by
  have hne : op ≠ .finish := by
    rintro rfl
    simp [Op.raises] at hop
  cases e with
  | stopped code =>
      exact ⟨hop, fun heq => by cases heq; rfl⟩
  | invalidStopped code =>
      exact op.documents_of_connection hne (by simp [mapWriteError, PyErr.cls,
        connectionClasses])
  | sessionError err => exact op.documents_mapSessionError hne (h err rfl)
  | closedStream => exact op.documents_closedLocally _

/-- An exception is in the stubs, wherever it comes from. -/
theorem Op.documents_of_origin {e : PyErr} (hQ : PlainErrors Q)
    (h : Origin errorFromHttp3 Q op (.error e)) : op.Documents e := by
  cases h with
  | closedLocally op msg => exact op.documents_closedLocally msg
  | writeFailed op log data rest e hop hans =>
      have hlisted : ExcClass.streamClosedByPeer ∈ op.raises := by
        rcases hop with rfl | rfl <;> exact List.mem_cons_self
      refine Op.documents_mapWriteError hlisted ?_
      rintro err rfl
      exact hQ log _ err hans rfl
  | waitFailed log e hans =>
      exact Op.documents_mapSessionError (by simp) (hQ log _ e hans rfl)

theorem caught_of_documents {e : PyErr} (h : op.Documents e) :
    e.CaughtBy .webTransportError := by
  have hall : ∀ c ∈ ExcClass.streamClosedByPeer :: .streamClosedLocally ::
      connectionClasses, c.IsSubclass .webTransportError := by decide
  refine hall e.cls ?_
  have hlisted := h.listed
  cases op with
  | write data | writeSome data => exact hlisted
  | finish => exact List.mem_cons_of_mem _ (List.mem_cons.mpr
      (Or.inl (List.mem_singleton.mp hlisted)))
  | waitClosed => exact List.mem_cons_of_mem _ hlisted

/-- In every run an operation of the send half raises only what the type stubs
list for it, and `except WebTransportError` catches it. -/
theorem writes_raise_documented {priority : Int32} {w : World} {i : ℕ} {e : PyErr}
    (hQ : PlainErrors Q)
    (h : Reachable ((half errorFromHttp3).Step Q) (new priority) w)
    (hi : w.tasks[i]? = some (.call op (.done (.error e)))) :
    op.Documents e ∧ e.CaughtBy .webTransportError := by
  have hdoc : op.Documents e := Op.documents_of_origin hQ (origin_of_result h hi)
  exact ⟨hdoc, caught_of_documents hdoc⟩

end Raises

def stoppedSession (log : List Event) : Event → Bool
  | .write _ r => r = .ready (.error (.stopped 5))
  | e => openSession log e

theorem stoppedSession_plainErrors :
    PlainErrors fun log e => stoppedSession log e = true := by
  rintro log (⟨data, r⟩ | ok | ⟨code, ok⟩ | r | ⟨p, ok⟩) err hQ herr
  · obtain rfl : r = .ready (.error (.stopped 5)) := of_decide_eq_true hQ
    cases herr
  · cases herr
  · cases herr
  · match r with
    | .pending => cases herr
    | .ready (.ok code) => cases herr
    | .ready (.error e) => cases hQ
  · cases herr

def stoppedWrite : World :=
  (half noCodes).after stoppedSession (new 0) (startCall (.write [1]) 0 ++
    [.task 0 (some (.write [1] (.ready (.error (.stopped 5))))), .task 0 none])

theorem stoppedWrite_documented :
    (Op.write [1]).Documents (newStreamClosedByPeer "stop" 5) ∧
      (newStreamClosedByPeer "stop" 5).CaughtBy .webTransportError :=
  writes_raise_documented (i := 0) stoppedSession_plainErrors
    (Half.run_after (w := new 0) (by decide)).reachable
    (show stoppedWrite.tasks[0]? = _ from rfl)

end WebTransport.SendStream
