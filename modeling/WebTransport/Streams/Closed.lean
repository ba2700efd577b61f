import WebTransport.SendStream.TerminalAction
import WebTransport.Streams.Closing
import WebTransport.Wrapper.Interrupted

/-!
# What a closed half refuses

The first action that ends a half is meant to be the only one.  A local close
that goes through the token keeps this promise; `finish`, a clean exit of a
`SendStream` and a clean exit of a `RecvStream` leave the token unset, and a
`reset` or `stop` behind them goes through.
-/

namespace WebTransport.Streams

open Support Wrapper

/-! ## One action ends the receive half -/

section Stopping

variable (errorFromHttp3 : ErrorFromHttp3) (Q : Answers RecvStream.Event)

/-- The step by which an action that stops the stream returns: `stop` with `Ok`,
or an exit that has called `stop`. -/
inductive Stops (w : RecvStream.World) :
    Action RecvStream.Op RecvStream.Event Empty → RecvStream.World → Prop
  | stop {code : UInt32} {w' : RecvStream.World}
      (hret : (RecvStream.half errorFromHttp3).CloseReturns Q w code w') :
      Stops w (.python none) w'
  | exit {i : ℕ} {b : Bool} {w' : RecvStream.World}
      (hstep : (RecvStream.half errorFromHttp3).Step Q w (.task i none) w')
      (hi : w.tasks[i]? = some (.exit b .sent)) :
      Stops w (.task i none) w'

/-- What is said of the calls of `stop` in the trace of a run: they raise and change
nothing. -/
def StopsRefused (tr : List (RecvStream.World ×
    Action RecvStream.Op RecvStream.Event Empty)) : Prop :=
  Along (fun u l => ∀ code, l = .close code →
    RecvStream.stop u = .error (.streamClosedLocally "stream already closed") ∧
      (RecvStream.half errorFromHttp3).next u l = some u) tr

/-- Once an action has stopped the stream, every later `stop` is refused. -/
def StopsOnce : Prop :=
  ∀ ⦃w w₁ w₂ : RecvStream.World⦄ ⦃l tr⦄,
    Reachable ((RecvStream.half errorFromHttp3).Step Q) RecvStream.new w →
    Stops errorFromHttp3 Q w l w₁ →
    Run ((RecvStream.half errorFromHttp3).Step Q) w₁ tr w₂ →
    StopsRefused errorFromHttp3 tr

end Stopping

theorem Stops.step {errorFromHttp3 : ErrorFromHttp3} {Q : Answers RecvStream.Event}
    {w w' : RecvStream.World} {l : Action RecvStream.Op RecvStream.Event Empty}
    (h : Stops errorFromHttp3 Q w l w') : (RecvStream.half errorFromHttp3).Step Q w l w' := by
  cases h with
  | stop hret => exact hret.step
  | exit hstep => exact hstep

/-- After an action that has ended a half, each later `reset` or `stop` is refused if
and only if it comes after a local close, which is one that has returned `Ok` or an
exit on an exception that has cancelled; so all are refused in every run if the action
itself was a local close.  On the send half a later `finish` raises, and nothing later
touches the QUIC stream as long as its cancel branch gets the guard only when the
stream has been reset before; so nothing does if the action has itself reset it. -/
theorem terminalAction_once_iff (errorFromHttp3 : ErrorFromHttp3)
    {QS : Answers SendStream.Event} (QR : Answers RecvStream.Event)
    (priority : Int32) (hfinish : SendStream.FinishLaw QS)
    (hreset : SendStream.ResetLaw QS) :
    (∀ {tr₀ w l w₁ tr w₂},
      Run ((SendStream.half errorFromHttp3).Step QS) (SendStream.new priority) tr₀ w →
      SendStream.Ends errorFromHttp3 QS w l w₁ →
      Run ((SendStream.half errorFromHttp3).Step QS) w₁ tr w₂ →
      (SendStream.ResetsRefused errorFromHttp3 tr ↔
        (SendStream.half errorFromHttp3).ClosesFollow QS (tr₀ ++ [(w, l)]) tr) ∧
      SendStream.FinishesRaise w₁.tasks.length w₂ ∧
      (Along (SendStream.NoResetEnters w₁.tasks.length) tr →
        (SendStream.LaterRefused errorFromHttp3 w₁.tasks.length tr w₂ ↔
          (SendStream.half errorFromHttp3).ClosesFollow QS (tr₀ ++ [(w, l)]) tr)) ∧
      ((SendStream.half errorFromHttp3).LocallyCloses QS w l w₁ →
        SendStream.ResetsRefused errorFromHttp3 tr ∧
          (SendStream.WasReset w₁.log →
            SendStream.LaterRefused errorFromHttp3 w₁.tasks.length tr w₂))) ∧
    ∀ {tr₀ w l w₁ tr w₂},
      Run ((RecvStream.half errorFromHttp3).Step QR) RecvStream.new tr₀ w →
      Stops errorFromHttp3 QR w l w₁ →
      Run ((RecvStream.half errorFromHttp3).Step QR) w₁ tr w₂ →
      (StopsRefused errorFromHttp3 tr ↔
        (RecvStream.half errorFromHttp3).ClosesFollow QR (tr₀ ++ [(w, l)]) tr) ∧
      ((RecvStream.half errorFromHttp3).LocallyCloses QR w l w₁ →
        StopsRefused errorFromHttp3 tr) := by
  constructor
  · intro tr₀ w l w₁ tr w₂ h₀ hends hrun
    obtain ⟨hiff, hraises, hlater⟩ :=
      SendStream.laterRefused_iff hfinish hreset h₀ hends hrun
    refine ⟨hiff, hraises, hlater, fun hl => ?_⟩
    have hfollow : (SendStream.half errorFromHttp3).ClosesFollow QS (tr₀ ++ [(w, l)]) tr :=
      (closedIn_of_locallyCloses h₀ hl).closesFollow
    exact ⟨hiff.mpr hfollow, fun hw =>
      (hlater (SendStream.noResetEnters_of_wasReset hrun hw)).mpr hfollow⟩
  · intro tr₀ w l w₁ tr w₂ h₀ hstops hrun
    have hiff := closesRefused_iff (PyErr.streamClosedLocally "stream already closed")
      (h₀.tail hstops.step) hrun
    exact ⟨hiff, fun hl => hiff.mpr (closedIn_of_locallyCloses h₀ hl).closesFollow⟩

def resetAlone : SendStream.World :=
  SendStream.after (SendStream.new 0)
    (SendStream.startReset 7 ++ [.python none, .python (some (.reset 7 true))])

def stopAlone : RecvStream.World :=
  RecvStream.after [1] RecvStream.new
    [.close 7, .python none, .python none, .python none,
      .python (some (.stop 7 true))]

def afterReset : List (Action SendStream.Op SendStream.Event Int32) :=
  [.close 8, .call .finish, .task 0 none, .task 0 none, .task 0 none, .task 0 none,
    .task 0 (some (.reset 7 false)), .task 0 none]

/-- After `reset(7)` and `stop(7)` nothing else goes through. -/
theorem reset_and_stop_once :
    SendStream.LaterRefused noCodes 0
        (replayTrace ((SendStream.half noCodes).tryNext SendStream.openSession)
          (SendStream.after resetAlone [.python none]) afterReset)
        (SendStream.after (SendStream.after resetAlone [.python none]) afterReset) ∧
      StopsRefused noCodes
        (replayTrace ((RecvStream.half noCodes).tryNext (RecvStream.finishedStream [1]))
          (RecvStream.after [1] stopAlone [.python none]) [.close 8]) := by
  have hboth := terminalAction_once_iff noCodes (RecvStream.FinishedStream [1]) 0
    SendStream.openSession_finishLaw SendStream.openSession_resetLaw
  constructor
  · have hreset : (SendStream.half noCodes).CloseReturns SendStream.OpenSession
        resetAlone 7 (SendStream.after resetAlone [.python none]) :=
      ⟨Half.step_of_tryNext rfl, Or.inr rfl, rfl⟩
    obtain ⟨hiff, -, hlater, hlocal⟩ := hboth.1 (SendStream.run_after _ (by decide))
      (.reset hreset) (SendStream.run_after afterReset (by decide))
    exact (hlater (by decide)).mpr
      (hiff.mp (hlocal ⟨hreset.step, Or.inl ⟨rfl, 7, hreset⟩⟩).1)
  · have hstop : (RecvStream.half noCodes).CloseReturns (RecvStream.FinishedStream [1])
        stopAlone 7 (RecvStream.after [1] stopAlone [.python none]) :=
      ⟨Half.step_of_tryNext rfl, Or.inr rfl, rfl⟩
    exact (hboth.2 (RecvStream.run_after _ (by decide)) (.stop hstop)
      (RecvStream.run_after [.close 8] (by decide))).2
      ⟨hstop.step, Or.inl ⟨rfl, 7, hstop⟩⟩

def finishAlone : SendStream.World :=
  SendStream.after (SendStream.new 0)
    (SendStream.startCall .finish 0 ++ [.task 0 (some (.finish true))])

def exitAlone : RecvStream.World :=
  RecvStream.after [1] RecvStream.new
    [.exit false, .task 0 none, .task 0 none, .task 0 (some (.stop 0 true))]

/-- Neither half keeps the promise: `reset` goes through after a successful `finish`,
and `stop` after a clean exit. -/
theorem reset_after_finish_accepted :
    ¬ SendStream.EndsOnce noCodes SendStream.OpenSession 0 ∧
      ¬ StopsOnce noCodes (RecvStream.FinishedStream [1]) := by
  constructor
  · intro h
    have hlater := h (w := finishAlone) (SendStream.run_after _ (by decide)).reachable
      (.finish (i := 0) (v := .none) (Half.step_of_tryNext rfl) rfl)
      (SendStream.run_after [.close 7] (by decide))
    have hrefused := hlater.reset (_, .close 7) (List.mem_singleton.mpr rfl) 7 rfl
    exact absurd hrefused.1 (by decide)
  · intro h
    have hrefused := h (w := exitAlone) (RecvStream.run_after _ (by decide)).reachable
      (.exit (i := 0) (b := false) (Half.step_of_tryNext rfl) rfl)
      (RecvStream.run_after [.close 7] (by decide))
      (_, .close 7) (List.mem_singleton.mpr rfl) 7 rfl
    exact absurd hrefused.1 (by decide)

/-! ## A local close is absorbing -/

/-- On both halves a local close is absorbing: from the return of `reset`,
`stop` or an exit on an exception on, every operation that is called is turned
away without any other call on the QUIC stream than the one that closes it. -/
theorem localClose_absorbs (errorFromHttp3 : ErrorFromHttp3)
    (QS : Answers SendStream.Event) (QR : Answers RecvStream.Event)
    (priority : Int32) :
    (∀ {w l w'}, Reachable ((SendStream.half errorFromHttp3).Step QS)
        (SendStream.new priority) w →
      (SendStream.half errorFromHttp3).LocallyCloses QS w l w' →
      (SendStream.half errorFromHttp3).Absorbs QS w') ∧
    ∀ {w l w'}, Reachable ((RecvStream.half errorFromHttp3).Step QR)
        RecvStream.new w →
      (RecvStream.half errorFromHttp3).LocallyCloses QR w l w' →
      (RecvStream.half errorFromHttp3).Absorbs QR w' :=
  ⟨absorbs_of_locallyCloses, absorbs_of_locallyCloses⟩

/-- `reset(7)` and `stop(7)` return while a write and a read have the mutex. -/
theorem interrupted_absorbs :
    (SendStream.half noCodes).Absorbs SendStream.OpenSession
        (SendStream.after SendStream.interrupted [.python none]) ∧
      (RecvStream.half noCodes).Absorbs (RecvStream.FinishedStream [1])
        (RecvStream.after [1] stopping [.python none]) := by
  have hboth := localClose_absorbs noCodes SendStream.OpenSession
    (RecvStream.FinishedStream [1]) 0
  constructor
  · have hwrites : Reachable ((SendStream.half noCodes).Step SendStream.OpenSession)
        (SendStream.new 0) SendStream.blocked := (SendStream.run_after _ (by decide)).reachable
    have hresets : Reachable ((SendStream.half noCodes).Step SendStream.OpenSession)
        SendStream.blocked SendStream.interrupted :=
      (SendStream.run_after _ (by decide)).reachable
    exact hboth.1 (hwrites.trans hresets) ⟨Half.step_of_tryNext rfl,
      Or.inl ⟨rfl, 7, Half.step_of_tryNext rfl, Or.inl rfl, rfl⟩⟩
  · have hreads : Reachable ((RecvStream.half noCodes).Step (RecvStream.FinishedStream [1]))
        RecvStream.new RecvStream.waiting := (RecvStream.run_after _ (by decide)).reachable
    have hstops : Reachable ((RecvStream.half noCodes).Step (RecvStream.FinishedStream [1]))
        RecvStream.waiting stopping := (RecvStream.run_after _ (by decide)).reachable
    exact hboth.2 (hreads.trans hstops) ⟨Half.step_of_tryNext rfl,
      Or.inl ⟨rfl, 7, Half.step_of_tryNext rfl, Or.inl rfl, rfl⟩⟩

/-- On both halves the token interrupts every operation that is suspended or
queued when it is set: such an operation never succeeds any more, raises the
exception for a local close if it comes to a result, and makes no other call on
the QUIC stream than the one that closes it. -/
theorem pending_interrupted (errorFromHttp3 : ErrorFromHttp3)
    (QS : Answers SendStream.Event) (QR : Answers RecvStream.Event) :
    (∀ {w : SendStream.World} {i t}, w.cancelled = true → w.tasks[i]? = some t →
      t.interruptible = true → (SendStream.half errorFromHttp3).GivesUp QS w i) ∧
    ∀ {w : RecvStream.World} {i t}, w.cancelled = true → w.tasks[i]? = some t →
      t.interruptible = true → (RecvStream.half errorFromHttp3).GivesUp QR w i :=
  ⟨givesUp_of_interruptible, givesUp_of_interruptible⟩

/-- A write and a read that wait for the peer when `reset(7)` and `stop(7)` set
the token. -/
theorem waiting_interrupted :
    (SendStream.half noCodes).GivesUp SendStream.OpenSession
        SendStream.interrupted 0 ∧
      (RecvStream.half noCodes).GivesUp (RecvStream.FinishedStream [1]) stopping 0 := by
  have hboth := pending_interrupted noCodes SendStream.OpenSession
    (RecvStream.FinishedStream [1])
  exact ⟨hboth.1 (by decide) rfl rfl, hboth.2 (by decide) rfl rfl⟩

end WebTransport.Streams
