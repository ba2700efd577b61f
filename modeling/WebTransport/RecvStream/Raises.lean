import WebTransport.Errors.Hierarchy
import WebTransport.RecvStream.Results

/-!
# What the operations of the receive half raise

The counterpart of the send half: the exceptions that the type stubs list, with
what they say about the attributes.  One exception is in no stub, the panic of a
`readexactly` whose buffer cannot be allocated.
-/

namespace WebTransport.RecvStream

open Support Wrapper

/-- The classes that the type stubs list for an operation.  `__anext__` ends an
`async for` with `StopAsyncIteration`. -/
def Op.raises : Op → List ExcClass
  | .read _ _ => .streamClosedByPeer :: .streamClosedLocally ::
      .streamTooLongError :: connectionClasses
  | .readexactly _ => .streamClosedByPeer :: .streamClosedLocally ::
      .streamIncompleteReadError :: connectionClasses
  | .anext => .streamClosedByPeer :: .streamClosedLocally ::
      .stopAsyncIteration :: connectionClasses
  | .waitClosed => .streamClosedLocally :: connectionClasses

/-- The type stubs tell of the exception, with its attributes. -/
structure Op.Documents (op : Op) (e : PyErr) : Prop where
  listed : e.cls ∈ op.raises ∨ ∃ n msg, op = .readexactly n ∧
    maxAlloc < n.toNat ∧ e = .rustPanic msg
  kind : ∀ {msg kind code}, e = .streamClosedByPeer msg kind code → kind = "reset"
  limit : ∀ {msg limit}, e = .streamTooLongError msg limit →
    ∃ n given, op = .read n given ∧ n < 0 ∧ limit = given.getD (.ofNat (2 ^ 64 - 1))
  incomplete : ∀ {msg expected partialBytes},
    e = .streamIncompleteReadError msg expected partialBytes →
      op = .readexactly expected ∧ partialBytes.length < expected.toNat

/-- The error of the session with which a call on the QUIC stream fails. -/
def Event.sessionError? : Event → Option SessionError
  | .readChunk _ (.ready (.error (.sessionError err))) => some err
  | .readExact _ (.ready (.error (.sessionError err))) => some err
  | .readToEnd _ (.ready (.error (.readError (.sessionError err)))) => some err
  | .receivedReset (.ready (.error err)) => some err
  | _ => none

/-- A call on a stream never fails with an error about a datagram. -/
def PlainErrors (Q : Answers Event) : Prop :=
  ∀ log e err, Q log e → e.sessionError? = some err → err.Plain

section Raises

variable {errorFromHttp3 : ErrorFromHttp3} {Q : Answers Event} {op : Op}

theorem Op.documents_of_listed {e : PyErr} (h : e.cls ∈ op.raises)
    (hplain : e.cls ∈ .streamClosedLocally :: .stopAsyncIteration ::
      connectionClasses) : op.Documents e where
  listed := Or.inl h
  kind he := by
    subst he
    simp [connectionClasses, PyErr.cls] at hplain
  limit he := by
    subst he
    simp [connectionClasses, PyErr.cls] at hplain
  incomplete he := by
    subst he
    simp [connectionClasses, PyErr.cls] at hplain

theorem Op.documents_closedLocally (op : Op) (msg : String) :
    op.Documents (.streamClosedLocally msg) :=
  op.documents_of_listed (by cases op <;> simp [Op.raises, PyErr.cls])
    List.mem_cons_self

theorem Op.documents_of_connection {e : PyErr} (h : e.cls ∈ connectionClasses) :
    op.Documents e := by
  refine op.documents_of_listed ?_
    (List.mem_cons_of_mem _ (List.mem_cons_of_mem _ h))
  cases op <;> simp [Op.raises, h]

theorem Op.documents_mapReadError {e : ReadError} (hop : op ≠ .waitClosed)
    (h : ∀ err, e = .sessionError err → err.Plain) :
    op.Documents (mapReadError errorFromHttp3 e) := by
  cases e with
  | reset code =>
      have hlisted : ExcClass.streamClosedByPeer ∈ op.raises := by
        cases op with
        | waitClosed => exact absurd rfl hop
        | _ => exact List.mem_cons_self
      exact ⟨Or.inl hlisted, (fun heq => by cases heq; rfl), (fun heq => by cases heq),
        fun heq => by cases heq⟩
  | invalidReset code =>
      exact op.documents_of_connection (by simp [mapReadError, PyErr.cls,
        connectionClasses])
  | illegalOrderedRead =>
      exact op.documents_of_connection (by simp [mapReadError, PyErr.cls,
        connectionClasses])
  | sessionError err =>
      exact op.documents_of_connection
        (mapSessionError_cls errorFromHttp3 (h err rfl))
  | closedStream => exact op.documents_closedLocally _

theorem Op.documents_tooLong {n : Int64} {given : Option UInt64} {limit : UInt64}
    (hn : n < 0) (hlimit : limit = given.getD (.ofNat (2 ^ 64 - 1))) :
    (Op.read n given).Documents
      (mapReadToEndError errorFromHttp3 .tooLong limit) where
  listed := Or.inl (by simp [Op.raises, mapReadToEndError, PyErr.cls])
  kind h := by cases h
  limit h := by
    cases h
    exact ⟨n, given, rfl, hn, hlimit⟩
  incomplete h := by cases h

theorem Op.documents_incomplete {n : UInt64} {buf : List UInt8}
    (hroom : buf.length < n.toNat) :
    (Op.readexactly n).Documents (newStreamIncompleteReadError n buf) where
  listed := Or.inl (by simp [Op.raises, newStreamIncompleteReadError, PyErr.cls])
  kind h := by cases h
  limit h := by cases h
  incomplete h := by
    cases h
    exact ⟨rfl, hroom⟩

theorem Op.documents_overflow {n : UInt64} (hn : maxAlloc < n.toNat)
    (msg : String) : (Op.readexactly n).Documents (.rustPanic msg) where
  listed := Or.inr ⟨n, msg, rfl, hn, rfl⟩
  kind h := by cases h
  limit h := by cases h
  incomplete h := by cases h

theorem Op.documents_eofAnswer {e : PyErr} (ht : testsEof op = true)
    (h : eofAnswer op = .error e) : op.Documents e := by
  cases op with
  | read n limit => cases h
  | readexactly n =>
      cases h
      have hne : n ≠ 0 := testsEof_readexactly.mp ht
      have hroom : 0 < n.toNat := by
        rcases Nat.eq_zero_or_pos n.toNat with hzero | hpos
        · exact absurd (UInt64.toNat_inj.mp hzero) hne
        · exact hpos
      exact Op.documents_incomplete hroom
  | anext =>
      cases h
      exact Op.documents_of_listed (by simp [Op.raises, PyErr.cls])
        (by simp [PyErr.cls])
  | waitClosed => cases ht

theorem Event.sessionError?_of_readError? {ev : Event} {err : SessionError}
    (h : ev.readError? = some (.sessionError err)) : ev.sessionError? = some err := by
  unfold Event.readError? at h
  split at h <;> cases h <;> rfl

/-- An exception is in the stubs, wherever it comes from. -/
theorem Op.documents_of_origin {e : PyErr} (hQ : PlainErrors Q)
    (h : Origin errorFromHttp3 Q op (.error e)) : op.Documents e := by
  generalize hr : (Except.error e : Ret) = r at h
  cases h with
  | closedLocally op msg =>
      cases hr
      exact op.documents_closedLocally msg
  | bytes op data => cases hr
  | ended op ht => exact Op.documents_eofAnswer ht hr.symm
  | incomplete n buf hroom =>
      cases hr
      exact Op.documents_incomplete hroom
  | overflow n msg hn =>
      cases hr
      exact Op.documents_overflow hn msg
  | tooLong n given hn =>
      cases hr
      exact Op.documents_tooLong hn rfl
  | readFailed op log ev e hop hans hev =>
      cases hr
      refine Op.documents_mapReadError hop ?_
      rintro err rfl
      exact hQ log ev err hans (Event.sessionError?_of_readError? hev)
  | waitEnded log code hans => cases hr
  | waitFailed log e hans =>
      cases hr
      refine Op.documents_of_connection ?_
      exact mapSessionError_cls errorFromHttp3 (hQ log _ e hans rfl)

/-- What the stubs list is caught by `except WebTransportError`, apart from the
end of an iteration. -/
theorem caught_of_listed {e : PyErr} (h : e.cls ∈ op.raises) :
    e.CaughtBy .webTransportError ∨ (op = .anext ∧ e.cls = .stopAsyncIteration) := by
  have hall : ∀ c ∈ ExcClass.streamClosedByPeer :: .streamClosedLocally ::
      .streamTooLongError :: .streamIncompleteReadError :: connectionClasses,
      c.IsSubclass .webTransportError := by decide
  by_cases hstop : op = .anext ∧ e.cls = .stopAsyncIteration
  · exact Or.inr hstop
  · refine Or.inl (hall e.cls ?_)
    cases op <;> simp_all [Op.raises] <;> tauto

/-- In every run an operation of the receive half raises only what the type stubs
list for it, or the panic of a buffer that cannot be allocated;
`except WebTransportError` catches everything but that and the end of an
iteration. -/
theorem reads_raise_documented {w : World} {i : ℕ} {e : PyErr} (hQ : PlainErrors Q)
    (h : Reachable ((half errorFromHttp3).Step Q) new w)
    (hi : w.tasks[i]? = some (.call op (.done (.error e)))) :
    op.Documents e ∧ (e.CaughtBy .webTransportError ∨
      (op = .anext ∧ e.cls = .stopAsyncIteration) ∨
      e.cls = .rustPanic) := by
  have hdoc : op.Documents e := Op.documents_of_origin hQ (origin_of_result h hi)
  refine ⟨hdoc, ?_⟩
  rcases hdoc.listed with hlisted | ⟨n, msg, -, -, rfl⟩
  · exact (caught_of_listed hlisted).imp_right Or.inl
  · exact Or.inr (Or.inr rfl)

end Raises

theorem finishedStream_plainErrors (S : List UInt8) :
    PlainErrors (FinishedStream S) := by
  intro log e err hQ herr
  unfold Event.sessionError? at herr
  split at herr <;> cases herr <;>
    simp [FinishedStream, finishedStream, orderedRead] at hQ

/-- A `readexactly` runs past the end of the stream. -/
def cutShort : World :=
  after [1] new (startCall (.readexactly 2) 0 ++
    [.task 0 (some (.readExact 2 (.ready (.ok (some [1]))))),
      .task 0 (some (.readExact 1 (.ready (.ok none)))), .task 0 none,
      .task 0 none])

theorem cutShort_documented :
    (Op.readexactly 2).Documents (newStreamIncompleteReadError 2 [1]) :=
  (reads_raise_documented (i := 0) (w := cutShort) (finishedStream_plainErrors [1])
    (run_after _ (by decide)).reachable rfl).1

end WebTransport.RecvStream
