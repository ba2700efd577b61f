import WebTransport.SendStream.Model
import WebTransport.RecvStream.Model
import WebTransport.Wrapper.WaitFor

/-!
# `wait_closed` and the operations it depends on

On the send half `wait_closed` waits for the acknowledgement of the `FIN` that a
`finish` or a clean exit sends, on the receive half for data that the peer can
send only when reads return flow-control credit.  On both halves it waits with
the guard in hand, so that such an operation can be stuck behind it.
-/

namespace WebTransport.Streams

open Support Wrapper

variable (errorFromHttp3 : ErrorFromHttp3)

/-! ## The two events -/

/-- A poll of `stopped()` before the event. -/
def stoppedPends : SendStream.Event → Bool
  | .stopped .pending => true
  | _ => false

def sendsFin : Call SendStream.Op → Bool
  | .op .finish => true
  | .exit hasException => !hasException
  | _ => false

/-- `stopped()` resolves when the peer has acknowledged the `FIN`. -/
def stopped : Completion (SendStream.half errorFromHttp3) where
  waits op := op = .waitClosed
  serves := sendsFin
  pends := stoppedPends
  starved log := !decide (SendStream.Closed log)
  waits_not_serves {op} h := by
    obtain rfl := of_decide_eq_true h
    rfl
  pends_of_pend {op l v ans v' l'} h hwaits := by
    obtain rfl := of_decide_eq_true hwaits
    have hb : SendStream.body errorFromHttp3 .waitClosed l v ans =
      some (v', .pend l') := h
    cases SendStream.bodyMove_of_body hb with
    | waits sent => exact ⟨_, rfl, rfl⟩
  pend_of_pends {op l v e v' beat} h he := by
    cases SendStream.bodyMove_of_body h with
    | waits sent => exact ⟨rfl, _, rfl⟩
    | _ => cases he
  closeCode_of_pends {e} he := by
    cases e with
    | stopped r => rfl
    | _ => cases he
  isFinish_of_pends {e} he := by
    cases e with
    | stopped r => rfl
    | _ => cases he
  starved_of_append {log evs} h := by
    simp only [SendStream.closed_append, Bool.not_eq_true', decide_eq_false_iff_not,
      not_or] at h
    simpa using h.1
  starved_concat {log e} he h := by
    cases e with
    | stopped r => simpa [SendStream.Event.closes] using h
    | _ => cases he

/-- The flow control of a stream: how many bytes the peer sends before its
`FIN`, and how many of them it may have sent after the given calls. -/
structure FlowControl where
  total : ℕ
  credit : List RecvStream.Event → ℕ
  credit_append : ∀ log evs, credit log ≤ credit (log ++ evs)
  credit_pends : ∀ log, credit (log ++ [.receivedReset .pending]) = credit log

def resetPends : RecvStream.Event → Bool
  | .receivedReset .pending => true
  | _ => false

/-- A read that returns flow-control credit. -/
def returnsCredit : Call RecvStream.Op → Bool
  | .op (.read n _) => n ≠ 0
  | .op (.readexactly n) => n ≠ 0
  | .op .anext => true
  | _ => false

/-- `received_reset()` resolves when all data up to the `FIN` has come. -/
def receivedReset (flow : FlowControl) :
    Completion (RecvStream.half errorFromHttp3) where
  waits op := op = .waitClosed
  serves := returnsCredit
  pends := resetPends
  starved log := flow.credit log < flow.total
  waits_not_serves {op} h := by
    obtain rfl := of_decide_eq_true h
    rfl
  pends_of_pend {op l v ans v' l'} h hwaits := by
    obtain rfl := of_decide_eq_true hwaits
    have hb : RecvStream.body errorFromHttp3 .waitClosed l v ans =
      some (v', .pend l') := h
    generalize hbeat : Beat.pend l' = beat at hb
    cases RecvStream.bodyMove_of_body hb with
    | waits buf => exact ⟨_, rfl, rfl⟩
    | chunkPends _ _ _ hop =>
        rcases hop with ⟨_, _, hop, -⟩ | ⟨hop, -⟩ <;> cases hop
    | _ => cases hbeat
  pend_of_pends {op l v e v' beat} h he := by
    cases RecvStream.bodyMove_of_body h with
    | waits buf => exact ⟨rfl, _, rfl⟩
    | _ => cases he
  closeCode_of_pends {e} he := by
    cases e with
    | receivedReset r => rfl
    | _ => cases he
  isFinish_of_pends _ := rfl
  starved_of_append {log evs} h := by
    have hmono := flow.credit_append log evs
    simp only [decide_eq_true_eq] at h ⊢
    omega
  starved_concat {log e} he h := by
    unfold resetPends at he
    split at he
    · simpa [flow.credit_pends] using h
    · cases he

/-- On both halves the wait-for relation between the mutex and the completion
event stays free of cycles exactly in the runs in which nobody who has to bring
the event about asks for the mutex while a pending `wait_closed` needs it, and no
`wait_closed` is left pending in front of such a one. -/
theorem waitClosed_noCycle_iff (QS : Answers SendStream.Event)
    (QR : Answers RecvStream.Event) (priority : Int32) (flow : FlowControl) :
    (∀ {tr w}, Run ((SendStream.half errorFromHttp3).Step QS)
        (SendStream.new priority) tr w →
      ((Along (fun u _ => (stopped errorFromHttp3).NoCycle u) tr ∧
          (stopped errorFromHttp3).NoCycle w) ↔
        Along (stopped errorFromHttp3).Unblocked tr)) ∧
    ∀ {tr w}, Run ((RecvStream.half errorFromHttp3).Step QR) RecvStream.new tr w →
      ((Along (fun u _ => (receivedReset errorFromHttp3 flow).NoCycle u) tr ∧
          (receivedReset errorFromHttp3 flow).NoCycle w) ↔
        Along (receivedReset errorFromHttp3 flow).Unblocked tr) :=
  ⟨Completion.noCycle_iff_unblocked, Completion.noCycle_iff_unblocked⟩

/-- Flow control with a window of `n` bytes beyond what has been read. -/
def window (n : ℕ) (S : List UInt8) : FlowControl where
  total := S.length
  credit log := n + (RecvStream.consumed log).length
  credit_append log evs := by simp
  credit_pends log := by simp [RecvStream.Event.bytes]

/-- `finish` returns before `wait_closed` is called, and a read before the
`wait_closed` of the other half. -/
theorem orderly_waitClosed_noCycle :
    (stopped noCodes).NoCycle (SendStream.after (SendStream.new 0)
        (SendStream.startCall .finish 0 ++
          [.task 0 (some (.finish true)), .task 0 none] ++
          SendStream.startCall .waitClosed 1 ++
          [.task 1 (some (.stopped .pending))])) ∧
      (receivedReset noCodes (window 1 [1, 2])).NoCycle
        (RecvStream.after [1, 2] RecvStream.new
          (RecvStream.startCall (.read 5 none) 0 ++
            [.task 0 (some (.readChunk 5 (.ready (.ok (some [1]))))),
              .task 0 none, .call .waitClosed, .task 1 none, .task 1 none,
              .task 1 (some (.receivedReset .pending)), .call .anext,
              .task 2 none, .task 2 none])) := by
  have hboth := waitClosed_noCycle_iff noCodes SendStream.OpenSession
    (RecvStream.FinishedStream [1, 2]) 0 (window 1 [1, 2])
  constructor
  · exact ((hboth.1 (SendStream.run_after _ (by decide))).mpr (by decide)).2
  · exact ((hboth.2 (RecvStream.run_after _ (by decide))).mpr (by decide)).2

/-- Without the condition both halves can block themselves: a `finish` stands in
the line behind a `wait_closed`, and a read does. -/
theorem waitClosed_blocks :
    ¬ (stopped noCodes).NeverBlocks SendStream.OpenSession ⟨0, 0⟩
        (fun _ _ => True) ∧
      ¬ (receivedReset noCodes (window 1 [1, 2])).NeverBlocks
        (RecvStream.FinishedStream [1, 2]) ⟨false⟩ (fun _ _ => True) := by
  constructor
  · intro h
    have hrun := SendStream.run_after (w := SendStream.new 0)
      (SendStream.startCall .waitClosed 0 ++ [.task 0 (some (.stopped .pending)),
        .call .finish, .task 1 none, .task 1 none]) (by decide)
    have hnone := (h hrun along_true).2
    rw [Completion.noCycle_iff (exclusive_of_reachable hrun.reachable)] at hnone
    exact hnone (by decide)
  · intro h
    have hrun := RecvStream.run_after (S := [1, 2]) (w := RecvStream.new)
      ([.call .waitClosed, .task 0 none, .task 0 none,
        .task 0 (some (.receivedReset .pending)),
        .call (.read 5 none), .task 1 none, .task 1 none]) (by decide)
    have hnone := (h hrun along_true).2
    rw [Completion.noCycle_iff (exclusive_of_reachable hrun.reachable)] at hnone
    exact hnone (by decide)

end WebTransport.Streams
