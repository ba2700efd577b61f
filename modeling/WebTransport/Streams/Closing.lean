import WebTransport.SendStream.Model
import WebTransport.RecvStream.Model
import WebTransport.Wrapper.CloseDelivery
import WebTransport.Wrapper.CloseCode
import WebTransport.Wrapper.Asked

/-!
# Closing the two halves

`reset` and `stop` promise that the stream is closed with the given code, now or
by the operation that is interrupted.  Both promises can be broken; this module
has the runs that break them, and the conditions under which they hold on both
halves.
-/

namespace WebTransport.Streams

open Support Wrapper

/-- `reset` is never lost in the runs whose steps meet `K`. -/
abbrev ResetDelivered (errorFromHttp3 : ErrorFromHttp3)
    (Q : Answers SendStream.Event) (priority : Int32)
    (K : SendStream.World → Action SendStream.Op SendStream.Event Int32 → Prop) :
    Prop :=
  (SendStream.half errorFromHttp3).CloseDelivered Q ⟨priority, priority⟩
    (fun sh => ¬ SendStream.Closed sh.log) K

/-- `stop` is never lost in the runs whose steps meet `K`. -/
abbrev StopDelivered (errorFromHttp3 : ErrorFromHttp3)
    (Q : Answers RecvStream.Event)
    (K : RecvStream.World → Action RecvStream.Op RecvStream.Event Empty → Prop) :
    Prop :=
  (RecvStream.half errorFromHttp3).CloseDelivered Q ⟨false⟩
    (fun sh => sh.vars.eof = false) K

/-- A write has found the token unset and is about to hand over its byte when
`reset(7)` comes to its `try_lock`. -/
def overtaken : SendStream.World :=
  SendStream.after (SendStream.new 0)
    (SendStream.startCall (.write [1]) 0 ++ SendStream.startReset 7)

def stopping : RecvStream.World :=
  RecvStream.after [1] RecvStream.waiting
    [.close 7, .python none, .python none]

/-! ## No close is lost in a run that heeds it -/

/-- Both halves deliver every close in the runs in which no step uses up the last
task that can still send it. -/
theorem closes_delivered (errorFromHttp3 : ErrorFromHttp3)
    (QS : Answers SendStream.Event) (QR : Answers RecvStream.Event)
    (priority : Int32) :
    ResetDelivered errorFromHttp3 QS priority
        (SendStream.half errorFromHttp3).Heeded ∧
      StopDelivered errorFromHttp3 QR (RecvStream.half errorFromHttp3).Heeded :=
  ⟨closeDelivered_of_heeded _ _, closeDelivered_of_heeded _ _⟩

def wakeAndClose {Op Ev Knob : Type} (e : Ev) : List (Action Op Ev Knob) :=
  [.task 0 none, .task 0 none, .task 0 none, .task 0 none, .task 0 (some e),
    .task 0 none]

/-- The suspended write sends the reset that was left to it, and the suspended
read the stop. -/
theorem interrupted_closes_delivered :
    (SendStream.half noCodes).closes
        (SendStream.after (SendStream.after SendStream.interrupted [.python none])
          (wakeAndClose (.reset 7 true))).log ≠ [] ∧
      (RecvStream.half noCodes).closes
        (RecvStream.after [1] (RecvStream.after [1] stopping [.python none])
          (wakeAndClose (.stop 7 true))).log ≠ [] := by
  have hboth := closes_delivered noCodes SendStream.OpenSession
    (RecvStream.FinishedStream [1]) 0
  constructor
  · refine hboth.1 (w := SendStream.interrupted) (c := 7) ?_ (by decide)
      ⟨Half.step_of_tryNext rfl, Or.inl rfl, rfl⟩ (by decide)
      (SendStream.run_after _ (by decide)) (by decide) (by decide)
    exact (SendStream.run_after _ (by decide)).reachable.trans
      (SendStream.run_after _ (by decide)).reachable
  · refine hboth.2 (w := stopping) (c := 7) ?_ (by decide)
      ⟨Half.step_of_tryNext rfl, Or.inl rfl, rfl⟩ (by decide)
      (RecvStream.run_after _ (by decide)) (by decide) (by decide)
    exact (RecvStream.run_after _ (by decide)).reachable.trans
      (RecvStream.run_after _ (by decide)).reachable

/-- Without the condition a reset can be lost: the write that it was left to
completes, and the stream stays open with nobody to close it. -/
theorem overtaken_reset_lost :
    ¬ ResetDelivered noCodes SendStream.OpenSession 0 fun _ _ => True := by
  intro h
  refine h (w := overtaken) (c := 7) ?_ (by decide)
    ⟨Half.step_of_tryNext rfl, Or.inl rfl, rfl⟩ trivial
    (SendStream.run_after ([.task 0 (some (.write [1] (.ready (.ok 1)))),
      .task 0 none, .task 0 none]) (by decide)) along_true (by decide) (by decide)
  exact (SendStream.run_after _ (by decide)).reachable

/-! ## The code of the accepted close is kept in a run that carries it -/

/-- The first `reset` since an accepted `reset(c)` carries `c`. -/
abbrev ResetCodeKept (errorFromHttp3 : ErrorFromHttp3)
    (Q : Answers SendStream.Event) (priority : Int32)
    (K : UInt32 → ℕ → SendStream.World →
      Action SendStream.Op SendStream.Event Int32 → Prop) : Prop :=
  (SendStream.half errorFromHttp3).CodeKept Q ⟨priority, priority⟩ K

/-- The first `stop` since an accepted `stop(c)` carries `c`. -/
abbrev StopCodeKept (errorFromHttp3 : ErrorFromHttp3)
    (Q : Answers RecvStream.Event)
    (K : UInt32 → ℕ → RecvStream.World →
      Action RecvStream.Op RecvStream.Event Empty → Prop) : Prop :=
  (RecvStream.half errorFromHttp3).CodeKept Q ⟨false⟩ K

/-- Both halves send the code of the accepted close in the runs in which each
cancel branch finds it in the atomic and no exit with another code comes
first. -/
theorem accepted_code_kept (errorFromHttp3 : ErrorFromHttp3)
    (QS : Answers SendStream.Event) (QR : Answers RecvStream.Event)
    (priority : Int32) :
    ResetCodeKept errorFromHttp3 QS priority
        (SendStream.half errorFromHttp3).Carried ∧
      StopCodeKept errorFromHttp3 QR (RecvStream.half errorFromHttp3).Carried :=
  ⟨codeKept_of_carried _, codeKept_of_carried _⟩

/-- A suspended write or read sends the code that was left to it. -/
theorem deferred_code_kept :
    (∃ rest, (SendStream.half noCodes).closes
        (SendStream.after (SendStream.after SendStream.blocked [.close 7])
          ([.python none, .python none, .python none] ++
            wakeAndClose (.reset 7 true))).log = 7 :: rest) ∧
      ∃ rest, (RecvStream.half noCodes).closes
        (RecvStream.after [1] (RecvStream.after [1] RecvStream.waiting [.close 7])
          ([.python none, .python none, .python none] ++
            wakeAndClose (.stop 7 true))).log = 7 :: rest := by
  have hboth := accepted_code_kept noCodes SendStream.OpenSession
    (RecvStream.FinishedStream [1]) 0
  constructor
  · have hkept := hboth.1 (w := SendStream.blocked) (c := 7)
      (SendStream.run_after _ (by decide)).reachable rfl (Half.step_of_tryNext rfl)
      (SendStream.run_after ([.python none, .python none, .python none] ++
        wakeAndClose (.reset 7 true)) (by decide)) (by decide) (by decide)
    exact hkept.resolve_left (by decide)
  · have hkept := hboth.2 (w := RecvStream.waiting) (c := 7)
      (RecvStream.run_after _ (by decide)).reachable rfl (Half.step_of_tryNext rfl)
      (RecvStream.run_after ([.python none, .python none, .python none] ++
        wakeAndClose (.stop 7 true)) (by decide)) (by decide) (by decide)
    exact hkept.resolve_left (by decide)

/-- Without the condition another code is sent: an exit on an exception stores
its `0` after `reset(7)` has returned and gets the mutex before the interrupted
write does. -/
theorem overwritten_code_sent :
    ¬ ResetCodeKept noCodes SendStream.OpenSession 0 fun _ _ _ _ => True := by
  intro h
  have hkept := h (w := SendStream.blocked) (c := 7)
    (SendStream.run_after _ (by decide)).reachable rfl (Half.step_of_tryNext rfl)
    (SendStream.run_after ([.python none, .python none, .python none,
      .exit true, .task 1 none, .task 1 none, .task 1 none,
      .task 0 none, .task 0 none, .task 0 none,
      .task 1 none, .task 1 (some (.reset 0 true))]) (by decide))
    along_true (by decide)
  have hzero : (7 : UInt32) = 0 := by
    obtain ⟨rest, hrest⟩ := hkept.resolve_left (by decide)
    exact (List.cons.inj (hrest.symm.trans (show _ = [0] by decide))).1
  exact absurd hzero (by decide)

/-! ## No code is made up -/

/-- On both halves every code with which the QUIC stream is closed was given to
an accepted `reset` or `stop` of the run, or is the `0` of an exit that closes
the stream: the initial value of the atomic is never sent. -/
theorem sent_codes_asked (errorFromHttp3 : ErrorFromHttp3)
    (QS : Answers SendStream.Event) (QR : Answers RecvStream.Event)
    (priority : Int32) :
    (∀ {tr w code}, Run ((SendStream.half errorFromHttp3).Step QS)
        (SendStream.new priority) tr w →
      code ∈ (SendStream.half errorFromHttp3).closes w.log →
      (SendStream.half errorFromHttp3).Asked tr code) ∧
    ∀ {tr w code}, Run ((RecvStream.half errorFromHttp3).Step QR)
        RecvStream.new tr w →
      code ∈ (RecvStream.half errorFromHttp3).closes w.log →
      (RecvStream.half errorFromHttp3).Asked tr code :=
  ⟨asked_of_closes, asked_of_closes⟩

def resetNow : List (Action SendStream.Op SendStream.Event Int32) :=
  [.close 7, .python none, .python none, .python none,
    .python (some (.reset 7 true))]

def exitNow : List (Action RecvStream.Op RecvStream.Event Empty) :=
  [.exit true, .task 0 none, .task 0 none, .task 0 none,
    .task 0 (some (.stop 0 true))]

/-- The `7` of a `reset(7)` and the `0` of an exit. -/
theorem reset_and_exit_asked :
    (SendStream.half noCodes).Asked
        (replayTrace ((SendStream.half noCodes).tryNext SendStream.openSession)
          (SendStream.new 0) resetNow) 7 ∧
      (RecvStream.half noCodes).Asked
        (replayTrace ((RecvStream.half noCodes).tryNext (RecvStream.finishedStream []))
          RecvStream.new exitNow) 0 := by
  have hboth := sent_codes_asked noCodes SendStream.OpenSession
    (RecvStream.FinishedStream []) 0
  exact ⟨hboth.1 (SendStream.run_after resetNow (by decide)) (by decide),
    hboth.2 (RecvStream.run_after exitNow (by decide)) (by decide)⟩

end WebTransport.Streams
