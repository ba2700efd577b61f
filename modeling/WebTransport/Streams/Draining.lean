import WebTransport.SendStream.Progress
import WebTransport.RecvStream.Progress

/-!
# A close drains both halves

Once the token is set, whatever is pending on a half comes to its end by polls
and by steps of the Python thread: nobody waits for the peer any more.
-/

namespace WebTransport.Streams

open Support Wrapper

/-- On both halves, whatever is pending when the token is set, the wrapper drains
by polls and by steps of the Python thread alone. -/
theorem close_drains {QS : Answers SendStream.Event} {QR : Answers RecvStream.Event}
    (errorFromHttp3 : ErrorFromHttp3) (priority : Int32)
    (hs : SendStream.Answering QS) (hwrite : SendStream.WriteProgress QS)
    (hr : RecvStream.Answering QR) (hread : RecvStream.ReadProgress QR) :
    (∀ {w}, Reachable ((SendStream.half errorFromHttp3).Step QS)
        (SendStream.new priority) w → w.cancelled = true →
      (SendStream.half errorFromHttp3).Drains QS w) ∧
    ∀ {w}, Reachable ((RecvStream.half errorFromHttp3).Step QR) RecvStream.new w →
      w.cancelled = true → (RecvStream.half errorFromHttp3).Drains QR w :=
  ⟨drains_of_cancelled (SendStream.responsive hs) (SendStream.progress hwrite),
    drains_of_cancelled (RecvStream.responsive hr) (RecvStream.progress hread)⟩

/-- A suspended write, another one in the line behind it and an exit on an
exception, at the point at which the token is set. -/
def crowdedWrites : SendStream.World :=
  (SendStream.half noCodes).after SendStream.eagerSession (SendStream.new 0)
    (SendStream.startCall (.write [1]) 0 ++
      [.task 0 (some (.write [1] .pending)), .call (.write [2]), .task 1 none,
        .task 1 none, .exit true, .task 2 none, .task 2 none])

def crowdedReads : RecvStream.World :=
  RecvStream.after [1] RecvStream.waiting
    [.call .anext, .task 1 none, .task 1 none, .exit true, .task 2 none,
      .task 2 none]

/-- All of them come to their end. -/
theorem crowded_drain :
    (SendStream.half noCodes).Drains (fun log e => SendStream.eagerSession log e = true)
        crowdedWrites ∧
      (RecvStream.half noCodes).Drains (RecvStream.FinishedStream [1])
        crowdedReads := by
  have hboth := close_drains noCodes 0 SendStream.eagerSession_answering
    SendStream.eagerSession_writeProgress (RecvStream.finishedStream_answering [1])
    (RecvStream.finishedStream_readProgress [1])
  constructor
  · exact hboth.1 (Half.run_after (by decide)).reachable (by decide)
  · exact hboth.2 ((RecvStream.run_after _ (by decide)).reachable.trans
      (RecvStream.run_after _ (by decide)).reachable) (by decide)

end WebTransport.Streams
