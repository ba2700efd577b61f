import WebTransport.RecvStream.Results
import WebTransport.SendStream.Results
import WebTransport.Streams.Ends
import WebTransport.Wrapper.Asked

/-!
# The codes that the peer is told

A `reset` at one end surfaces at the other as `StreamClosedByPeer` with its code,
and so does a `stop` in the other direction; the two `wait_closed` return the
code.  Whatever the interleaving at the end that closes, its peer is never told a
code that nobody there asked for.
-/

namespace WebTransport

open Support Wrapper

theorem mapConnectionError_ne_streamClosedByPeer (errorFromHttp3 : ErrorFromHttp3)
    (err : ConnectionError) {msg kind : String} {code : UInt32} :
    mapConnectionError errorFromHttp3 err ≠ .streamClosedByPeer msg kind code := by
  cases err <;> simp [mapConnectionError, newSessionClosedByPeer]

theorem mapSessionError_ne_streamClosedByPeer (errorFromHttp3 : ErrorFromHttp3)
    (err : SessionError) {msg kind : String} {code : UInt32} :
    mapSessionError errorFromHttp3 err ≠ .streamClosedByPeer msg kind code := by
  match err with
  | .connectionError err =>
      exact mapConnectionError_ne_streamClosedByPeer errorFromHttp3 err
  | .webTransportError (.closed code reason) =>
      simp [mapSessionError, newSessionClosedByPeer]
  | .webTransportError (.other display) => simp [mapSessionError]
  | .sendDatagramError (.connectionLost err) =>
      exact mapConnectionError_ne_streamClosedByPeer errorFromHttp3 err
  | .sendDatagramError .unsupportedByPeer | .sendDatagramError .disabled =>
      simp [mapSessionError, mapSendDatagramError, newDatagramNotSupportedError]
  | .sendDatagramError .tooLarge => simp [mapSessionError, mapSendDatagramError]

/-! ## What the send half is told -/

namespace SendStream

/-- The code of the peer's `stop`, as a call on the QUIC stream reports it. -/
def Event.stopCode? : Event → Option UInt32
  | .write _ (.ready (.error (.stopped code))) => some code
  | .stopped (.ready (.ok code)) => code
  | _ => none

/-- The result tells Python a code of the peer. -/
inductive TellsCode : Ret → UInt32 → Prop
  | raised (msg kind : String) (code : UInt32) :
      TellsCode (.error (.streamClosedByPeer msg kind code)) code
  | returned (code : UInt32) : TellsCode (.ok (.code (some code))) code

section Reported

variable {errorFromHttp3 : ErrorFromHttp3} {Q : Answers Event} {op : Op} {r : Ret}
  {code : UInt32}

/-- The code in a result was reported by the QUIC stream. -/
theorem reported_of_origin (h : Origin errorFromHttp3 Q op r)
    (htells : TellsCode r code) : ∃ log e, Q log e ∧ e.stopCode? = some code := by
  cases htells with
  | returned code =>
      cases h with
      | waitEnded log code hans => exact ⟨log, _, hans, rfl⟩
  | raised msg kind code =>
      generalize hr : (Except.error (.streamClosedByPeer msg kind code) : Ret) = r
        at h
      cases h with
      | writeFailed op log data rest e hop hans =>
          cases e with
          | stopped c =>
              cases hr
              exact ⟨log, _, hans, rfl⟩
          | sessionError err =>
              exact absurd (Except.error.inj hr).symm
                (mapSessionError_ne_streamClosedByPeer errorFromHttp3 err)
          | _ => cases hr
      | waitFailed log e hans =>
          exact absurd (Except.error.inj hr).symm
            (mapSessionError_ne_streamClosedByPeer errorFromHttp3 e)
      | _ => cases hr

end Reported

end SendStream

/-! ## What the receive half is told -/

namespace RecvStream

/-- The code of the peer's `reset`, as a call on the QUIC stream reports it. -/
def Event.resetCode? : Event → Option UInt32
  | .readChunk _ (.ready (.error (.reset code))) => some code
  | .readExact _ (.ready (.error (.reset code))) => some code
  | .readToEnd _ (.ready (.error (.readError (.reset code)))) => some code
  | .receivedReset (.ready (.ok code)) => code
  | _ => none

/-- The result tells Python a code of the peer. -/
inductive TellsCode : Ret → UInt32 → Prop
  | raised (msg kind : String) (code : UInt32) :
      TellsCode (.error (.streamClosedByPeer msg kind code)) code
  | returned (code : UInt32) : TellsCode (.ok (.code (some code))) code

section Reported

variable {errorFromHttp3 : ErrorFromHttp3} {Q : Answers Event} {op : Op} {r : Ret}
  {code : UInt32}

theorem Event.resetCode?_of_readError? {ev : Event}
    (h : ev.readError? = some (.reset code)) : ev.resetCode? = some code := by
  unfold Event.readError? at h
  split at h <;> cases h <;> rfl

theorem reported_of_origin (h : Origin errorFromHttp3 Q op r)
    (htells : TellsCode r code) : ∃ log e, Q log e ∧ e.resetCode? = some code := by
  cases htells with
  | returned code =>
      generalize hr : (Except.ok (.code (some code)) : Ret) = r at h
      cases h with
      | waitEnded log code hans =>
          cases hr
          exact ⟨log, _, hans, rfl⟩
      | ended op ht => cases op <;> cases hr
      | _ => cases hr
  | raised msg kind code =>
      generalize hr : (Except.error (.streamClosedByPeer msg kind code) : Ret) = r
        at h
      cases h with
      | ended op ht => cases op <;> cases hr
      | readFailed op log ev e hop hans hev =>
          cases e with
          | reset c =>
              cases hr
              exact ⟨log, ev, hans, Event.resetCode?_of_readError? hev⟩
          | sessionError err =>
              exact absurd (Except.error.inj hr).symm
                (mapSessionError_ne_streamClosedByPeer errorFromHttp3 err)
          | _ => cases hr
      | waitFailed log e hans =>
          exact absurd (Except.error.inj hr).symm
            (mapSessionError_ne_streamClosedByPeer errorFromHttp3 e)
      | _ => cases hr

end Reported

end RecvStream

/-! ## From end to end -/

namespace Streams

/-- QUIC carries the codes: what one end is told was sent by a call at the other
end that succeeded. -/
structure Wire.CarriesCodes (N : Wire) : Prop where
  reset : ∀ {sent log e code}, N.recv sent log e → e.resetCode? = some code →
    .reset code true ∈ sent
  stop : ∀ {log got e code}, N.send log got e → e.stopCode? = some code →
    .stop code true ∈ got

section Codes

variable {errorFromHttp3 : ErrorFromHttp3} {N : Wire} {priority : Int32} {s : Ends}
  {tr : List (Ends × Ends.Action)}

/-- A code that Python is told at one end was asked for at the other: it was given
to an accepted `reset` or `stop` there, or it is the `0` of an exit. -/
theorem codes_follow_closes (hN : N.CarriesCodes)
    (h : Run (Ends.Step errorFromHttp3 N) (.new priority) tr s) :
    (∀ (i : ℕ) (op : RecvStream.Op) (r : RecvStream.Ret) (code : UInt32),
      s.recv.tasks[i]? = some (Task.call op (.done r)) →
        RecvStream.TellsCode r code →
        (SendStream.half errorFromHttp3).Asked (Ends.sendTrace tr) code) ∧
    ∀ (i : ℕ) (op : SendStream.Op) (r : SendStream.Ret) (code : UInt32),
      s.send.tasks[i]? = some (Task.call op (.done r)) →
        SendStream.TellsCode r code →
        (RecvStream.half errorFromHttp3).Asked (Ends.recvTrace tr) code := by
  have hsend := Ends.run_send h
  have hrecv := Ends.run_recv h
  constructor
  · intro i op r code hi htells
    obtain ⟨log, e, ⟨before, hbefore, hQ⟩, he⟩ :=
      RecvStream.reported_of_origin
        (RecvStream.origin_of_result hrecv.reachable hi) htells
    refine asked_of_closes hsend (List.mem_filterMap.mpr ?_)
    exact ⟨_, hbefore.subset (hN.reset hQ he), rfl⟩
  · intro i op r code hi htells
    obtain ⟨log, e, ⟨before, hbefore, hQ⟩, he⟩ :=
      SendStream.reported_of_origin
        (SendStream.origin_of_result hsend.reachable hi) htells
    refine asked_of_closes hrecv (List.mem_filterMap.mpr ?_)
    exact ⟨_, hbefore.subset (hN.stop hQ he), rfl⟩

end Codes

def wasReset (sent : List SendStream.Event) (code : UInt32) : Bool :=
  sent.any fun
    | .reset c true => c = code
    | _ => false

def wasStopped (got : List RecvStream.Event) (code : UInt32) : Bool :=
  got.any fun
    | .stop c true => c = code
    | _ => false

/-- An idle sending end, whose `reset` succeeds and whose writes are refused once
the peer has stopped the stream. -/
def tellingSend (got : List RecvStream.Event) : SendStream.Event → Bool
  | .reset _ ok => ok
  | .write _ (.ready (.error (.stopped code))) => wasStopped got code
  | _ => false

/-- An idle receiving end, whose `stop` succeeds and whose reads fail once the
peer has reset the stream. -/
def tellingRecv (sent : List SendStream.Event) : RecvStream.Event → Bool
  | .stop _ ok => ok
  | .readChunk _ (.ready (.error (.reset code))) => wasReset sent code
  | _ => false

def tellingWire : TestWire where
  send _ got e := tellingSend got e
  recv sent _ e := tellingRecv sent e

theorem tellingWire_carriesCodes : tellingWire.wire.CarriesCodes where
  reset := by
    intro sent log e code h he
    change tellingRecv sent e = true at h
    unfold tellingRecv at h
    split at h
    · cases he
    · cases he
      obtain ⟨e, he, hcode⟩ := List.any_eq_true.mp h
      split at hcode
      · obtain rfl := of_decide_eq_true hcode
        exact he
      · cases hcode
    · cases h
  stop := by
    intro log got e code h he
    change tellingSend got e = true at h
    unfold tellingSend at h
    split at h
    · cases he
    · cases he
      obtain ⟨e, he, hcode⟩ := List.any_eq_true.mp h
      split at hcode
      · obtain rfl := of_decide_eq_true hcode
        exact he
      · cases hcode
    · cases h

def resetSender : List (Wrapper.Action SendStream.Op SendStream.Event Int32) :=
  [.close 7, .python none, .python none, .python none,
    .python (some (.reset 7 true)), .python none]

def readReset : List (Wrapper.Action RecvStream.Op RecvStream.Event Empty) :=
  RecvStream.startCall (.read 5 none) 0 ++
    [.task 0 (some (.readChunk 5 (.ready (.error (.reset 7))))), .task 0 none]

def stopReceiver : List (Wrapper.Action RecvStream.Op RecvStream.Event Empty) :=
  [.close 9, .python none, .python none, .python none,
    .python (some (.stop 9 true)), .python none]

def writeStopped : List (Wrapper.Action SendStream.Op SendStream.Event Int32) :=
  SendStream.startCall (.write [1]) 0 ++
    [.task 0 (some (.write [1] (.ready (.error (.stopped 9))))), .task 0 none]

def resetTold : List Ends.Action :=
  resetSender.map .send ++ readReset.map .recv

def stopTold : List Ends.Action :=
  stopReceiver.map .recv ++ writeStopped.map .send

/-- The `7` of the `reset`, and the `9` of the `stop`. -/
theorem told_codes_asked :
    (SendStream.half noCodes).Asked
        (Ends.sendTrace (replayTrace tellingWire.tryNext (.new 0) resetTold)) 7 ∧
      (RecvStream.half noCodes).Asked
        (Ends.recvTrace (replayTrace tellingWire.tryNext (.new 0) stopTold))
        9 := by
  constructor
  · have hboth := codes_follow_closes (priority := 0) tellingWire_carriesCodes
      (TestWire.run_after resetTold (by decide))
    exact hboth.1 0 (.read 5 none) _ 7 rfl (.raised _ _ 7)
  · have hboth := codes_follow_closes (priority := 0) tellingWire_carriesCodes
      (TestWire.run_after stopTold (by decide))
    exact hboth.2 0 (.write [1]) _ 9 rfl (.raised _ _ 9)

end Streams

end WebTransport
