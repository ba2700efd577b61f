import WebTransport.RecvStream.Progress
import WebTransport.SendStream.Progress
import WebTransport.Wrapper.Guard
import WebTransport.Wrapper.Settling

/-!
# What a half does by itself

The wrappers never get in each other's way inside a half: the QUIC stream is only
touched under the guard, and between two wake-ups from outside a half comes to
rest or to wait for one call on the QUIC stream.  When the session is lost there
is no such call, and everything that is pending comes to its end.
-/

namespace WebTransport.Streams

open Support Wrapper

/-- On both halves at most one party at a time has the guard, only that party
makes calls on the QUIC stream, and the mutex is free when nothing is pending. -/
theorem guard_kept (errorFromHttp3 : ErrorFromHttp3)
    (QS : Answers SendStream.Event) (QR : Answers RecvStream.Event)
    (priority : Int32) :
    (SendStream.half errorFromHttp3).KeepsGuard QS ⟨priority, priority⟩ ∧
      (RecvStream.half errorFromHttp3).KeepsGuard QR ⟨false⟩ :=
  ⟨keepsGuard _ _ _, keepsGuard _ _ _⟩

section Settling

variable {QS : Answers SendStream.Event} {QR : Answers RecvStream.Event}

/-- Both halves settle without a wake-up from outside: in a bounded number of
steps they come to rest, or to a state in which one operation is suspended in the
QUIC stream with the guard in hand, the token is unset, and everybody else who is
pending stands in the line behind that operation. -/
theorem halves_settle (errorFromHttp3 : ErrorFromHttp3) (priority : Int32)
    (hs : SendStream.Answering QS) (hwrite : SendStream.WriteProgress QS)
    (hr : RecvStream.Answering QR) (hread : RecvStream.ReadProgress QR) :
    (∀ {w}, Reachable ((SendStream.half errorFromHttp3).Step QS)
        (SendStream.new priority) w →
      (SendStream.half errorFromHttp3).Settles QS false
        (fun u => u.AtRest ∨ ∃ i op, u.BlockedOn i op) w) ∧
    ∀ {w}, Reachable ((RecvStream.half errorFromHttp3).Step QR) RecvStream.new w →
      (RecvStream.half errorFromHttp3).Settles QR false
        (fun u => u.AtRest ∨ ∃ i op, u.BlockedOn i op) w :=
  ⟨settles_of_reachable (SendStream.responsive hs) (SendStream.progress hwrite),
    settles_of_reachable (RecvStream.responsive hr) (RecvStream.progress hread)⟩

/-- From the moment at which the session is lost, so that the QUIC streams answer
every call at once, whatever their answers were before, both halves come to rest in a
bounded number of steps, and everything that was pending comes to its end. -/
theorem lost_session_finishes (errorFromHttp3 : ErrorFromHttp3) (priority : Int32)
    (QS₀ : Answers SendStream.Event) (QR₀ : Answers RecvStream.Event)
    (hs : SendStream.Answering QS) (hwrite : SendStream.WriteProgress QS)
    (hsend : SendStream.Immediate QS) (hr : RecvStream.Answering QR)
    (hread : RecvStream.ReadProgress QR) (hrecv : RecvStream.Immediate QR) :
    (∀ {w}, Reachable ((SendStream.half errorFromHttp3).Step QS₀)
        (SendStream.new priority) w →
      (SendStream.half errorFromHttp3).Finishes QS w) ∧
    ∀ {w}, Reachable ((RecvStream.half errorFromHttp3).Step QR₀) RecvStream.new w →
      (RecvStream.half errorFromHttp3).Finishes QR w :=
  ⟨finishes_of_reachable (SendStream.responsive hs) (SendStream.progress hwrite)
      (SendStream.neverPends hsend),
    finishes_of_reachable (RecvStream.responsive hr) (RecvStream.progress hread)
      (RecvStream.neverPends hrecv)⟩

end Settling

/-- A suspended write, with another one and a clean exit that are called behind
it. -/
def writesBehind : SendStream.World :=
  (SendStream.half noCodes).after SendStream.eagerSession (SendStream.new 0)
    (SendStream.startCall (.write [1]) 0 ++
      [.task 0 (some (.write [1] .pending)), .call (.write [2]), .exit false])

def readsBehind : RecvStream.World :=
  RecvStream.after [1] RecvStream.new
    (RecvStream.startCall (.read 5 none) 0 ++
      [.task 0 (some (.readChunk 5 .pending)), .call .anext, .exit false])

/-- They settle, be it behind the first one. -/
theorem behind_settle :
    (SendStream.half noCodes).Settles
        (fun log e => SendStream.eagerSession log e = true) false
        (fun u => u.AtRest ∨ ∃ i op, u.BlockedOn i op) writesBehind ∧
      (RecvStream.half noCodes).Settles (RecvStream.FinishedStream [1]) false
        (fun u => u.AtRest ∨ ∃ i op, u.BlockedOn i op) readsBehind := by
  have hboth := halves_settle noCodes 0 SendStream.eagerSession_answering
    SendStream.eagerSession_writeProgress (RecvStream.finishedStream_answering [1])
    (RecvStream.finishedStream_readProgress [1])
  exact ⟨hboth.1 (Half.run_after (by decide)).reachable,
    hboth.2 (RecvStream.run_after _ (by decide)).reachable⟩

/-- When the session times out all of them come to their end. -/
theorem behind_finish :
    (SendStream.half noCodes).Finishes SendStream.LostSession writesBehind ∧
      (RecvStream.half noCodes).Finishes RecvStream.LostSession readsBehind := by
  have hboth := lost_session_finishes noCodes 0
    (fun log e => SendStream.eagerSession log e = true) (RecvStream.FinishedStream [1])
    SendStream.lostSession_answering SendStream.lostSession_writeProgress
    SendStream.lostSession_immediate RecvStream.lostSession_answering
    RecvStream.lostSession_readProgress RecvStream.lostSession_immediate
  exact ⟨hboth.1 (Half.run_after (by decide)).reachable,
    hboth.2 (RecvStream.run_after _ (by decide)).reachable⟩

end WebTransport.Streams
