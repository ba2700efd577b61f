import WebTransport.RecvStream.Cursor
import WebTransport.SendStream.Contiguity
import WebTransport.Wrapper.Serial

/-!
# Concurrent calls on both halves

The tasks that write to a stream, or read from it, run into each other in any way.
For the QUIC stream and for their results it is as if their operations had been
called one after the other.
-/

namespace WebTransport.Streams

open Support Wrapper

/-- Every run of either half is that of a serial half: the same calls are made on the
QUIC stream, with the same answers, by operations that are carried out one at a time;
each awaitable that has returned has the result that its operation has there, or was
interrupted; and an operation that was called after another one had returned comes
after it there. -/
theorem halves_serialize {errorFromHttp3 : ErrorFromHttp3} {priority : Int32}
    {QS : Answers SendStream.Event} {QR : Answers RecvStream.Event}
    {u : SendStream.World} {v : RecvStream.World}
    (hu : Reachable ((SendStream.half errorFromHttp3).Step QS)
      (SendStream.new priority) u)
    (hv : Reachable ((RecvStream.half errorFromHttp3).Step QR) RecvStream.new v) :
    (SendStream.half errorFromHttp3).Serialized QS ⟨priority, priority⟩ u ∧
      (RecvStream.half errorFromHttp3).Serialized QR ⟨false⟩ v :=
  ⟨serialized_of_reachable hu, serialized_of_reachable hv⟩

theorem concurrent_serialize :
    (SendStream.half noCodes).Serialized SendStream.OpenSession ⟨0, 0⟩
        SendStream.twoWriters ∧
      (RecvStream.half noCodes).Serialized (RecvStream.FinishedStream [1, 2, 3]) ⟨false⟩
        RecvStream.threeReads :=
  halves_serialize (SendStream.run_after _ (by decide)).reachable
    (RecvStream.run_after _ (by decide)).reachable

end WebTransport.Streams
