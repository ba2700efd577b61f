import WebTransport.RecvStream.Cursor
import WebTransport.Streams.Ends

/-!
# From one end of a stream to the other

QUIC carries the bytes that its sender has accepted to the receiver, reliably and
in order.  With the wrappers at both ends this becomes a promise between two
Python programs: what one of them reads is what the other one wrote, block by
block, and the end of the stream is reported behind the last block only.
-/

namespace WebTransport.Streams

open Support Wrapper

/-! ## What is assumed of QUIC -/

/-- The stream between the two ends is reliable: `write` accepts a prefix of its
argument, nothing is accepted after `finish` or `reset`, and at each moment the
receiving end is a byte stream of what the sending end has accepted so far, with
its end where `finish` was called. -/
structure Wire.Reliable (N : Wire) : Prop where
  write : ∀ got, SendStream.WriteLaw fun log e => N.send log got e
  closedWrite : ∀ got, SendStream.ClosedWriteLaw fun log e => N.send log got e
  bytes : ∀ sent, RecvStream.ByteStream (N.recv sent) (SendStream.written sent)
    (SendStream.Finished sent)

section Laws

variable {N : Wire} {sent before : List SendStream.Event}
  {got : List RecvStream.Event}

theorem Wire.Reliable.writeLaw (hN : N.Reliable) :
    SendStream.WriteLaw (N.sendAnswers got) := by
  rintro log data n ⟨before, -, h⟩
  exact hN.write before log data n h

theorem Wire.Reliable.closedWriteLaw (hN : N.Reliable) :
    SendStream.ClosedWriteLaw (N.sendAnswers got) := by
  rintro log data r ⟨before, -, h⟩
  exact hN.closedWrite before log data r h

theorem written_isPrefix (h : before <+: sent) :
    SendStream.written before <+: SendStream.written sent := by
  obtain ⟨rest, rfl⟩ := h
  rw [SendStream.written_append]
  exact List.prefix_append _ _

theorem written_eq_of_finished (hsilent : SendStream.Silent sent)
    (hbefore : before <+: sent) (hfin : SendStream.Finished before) :
    SendStream.written before = SendStream.written sent ∧
      SendStream.Finished sent := by
  obtain ⟨rest, rfl⟩ := hbefore
  refine ⟨?_, SendStream.finished_append.mpr (Or.inl hfin)⟩
  obtain ⟨e, he, hcloses⟩ := List.any_eq_true.mp hfin.closed
  obtain ⟨pre, post, rfl⟩ := List.append_of_mem he
  have hnil : SendStream.written (post ++ rest) = [] :=
    hsilent pre e (post ++ rest) (by simp) hcloses
  rw [SendStream.written_append] at hnil
  have hrest : SendStream.written rest = [] := (List.append_eq_nil_iff.mp hnil).2
  simp only [SendStream.written_append, hrest, List.append_nil]

/-- Seen from the end of a run, the receiving end has been a byte stream of all
that was written. -/
theorem Wire.Reliable.byteStream (hN : N.Reliable)
    (hsilent : SendStream.Silent sent) :
    RecvStream.ByteStream (N.recvAnswers sent) (SendStream.written sent)
      (SendStream.Finished sent) where
  chunk := by
    rintro log max data ⟨before, hbefore, h⟩ hclean
    obtain ⟨hne, hlength, hpre⟩ := (hN.bytes before).chunk h hclean
    exact ⟨hne, hlength, hpre.trans (written_isPrefix hbefore)⟩
  chunkEnd := by
    rintro log max ⟨before, hbefore, h⟩ hclean
    obtain ⟨heq, hfin⟩ := (hN.bytes before).chunkEnd h hclean
    obtain ⟨hall, hfinished⟩ := written_eq_of_finished hsilent hbefore hfin
    exact ⟨heq.trans hall, hfinished⟩
  exact := by
    rintro log want data ⟨before, hbefore, h⟩ hclean
    obtain ⟨hne, hlength, hpre⟩ := (hN.bytes before).exact h hclean
    exact ⟨hne, hlength, hpre.trans (written_isPrefix hbefore)⟩
  exactEnd := by
    rintro log want ⟨before, hbefore, h⟩ hclean
    obtain ⟨heq, hfin⟩ := (hN.bytes before).exactEnd h hclean
    obtain ⟨hall, hfinished⟩ := written_eq_of_finished hsilent hbefore hfin
    exact ⟨heq.trans hall, hfinished⟩
  toEnd := by
    rintro log limit data ⟨before, hbefore, h⟩ hclean
    obtain ⟨heq, hfin⟩ := (hN.bytes before).toEnd h hclean
    obtain ⟨hall, hfinished⟩ := written_eq_of_finished hsilent hbefore hfin
    exact ⟨heq.trans hall, hfinished⟩
  failed := by
    rintro log e ⟨before, -, h⟩ hclean hfails
    exact (hN.bytes before).failed h hclean hfails

end Laws

/-! ## Bytes -/

section Bytes

variable {errorFromHttp3 : ErrorFromHttp3} {N : Wire} {priority : Int32}
  {s : Ends}

/-- What is read at one end is a prefix of the blocks that the operations at the
other have contributed, and its end is reported behind all of them. -/
def Ends.Delivers (s : Ends) : Prop :=
  ∃ block : ℕ → List UInt8,
    (∀ i t, s.send.tasks[i]? = some t → SendStream.Contributes t (block i)) ∧
    s.recv.entered.flatMap (RecvStream.deliveredAt s.recv) <+:
      s.send.entered.flatMap block ∧
    ∀ i op r, s.recv.tasks[i]? = some (.call op (.done r)) →
      RecvStream.signals op r = true → SendStream.Finished s.send.log ∧
        ∃ pre post, s.recv.entered = pre ++ i :: post ∧
          (pre ++ [i]).flatMap (RecvStream.deliveredAt s.recv) =
            s.send.entered.flatMap block

theorem delivers_of_reachable (hN : N.Reliable)
    (h : Reachable (Ends.Step errorFromHttp3 N) (.new priority) s)
    (hclean : ¬ RecvStream.Seen RecvStream.Event.spoils s.recv.log) :
    s.Delivers := by
  obtain ⟨tr, hrun⟩ := h
  have hsend := (Ends.run_send hrun).reachable
  have hrecv := (Ends.run_recv hrun).reachable
  obtain ⟨block, haccounted⟩ :=
    SendStream.accounted_of_reachable hN.writeLaw hsend
  have hbytes := hN.byteStream
    (SendStream.silent_of_reachable hN.closedWriteLaw hsend)
  have hcursor := RecvStream.onCursor_of_reachable hbytes hrecv hclean
  have hin : Entries s.recv := entries_of_reachable hrecv
  have hblocks : SendStream.written s.send.log = s.send.entered.flatMap block :=
    haccounted.blocks.total_eq
  refine ⟨block, fun i t hi => (haccounted.tasks i t hi).contributes, ?_, ?_⟩
  · rw [← hblocks]
    exact (RecvStream.flatMap_deliveredAt_isPrefix hin).trans hcursor.within
  · intro i op r hi hsignals
    have hview : (RecvStream.views s.recv)[i]? = some (.op op, .result r) :=
      RecvStream.getElem?_views hi
    obtain ⟨pre, post, hsplit, hall, hfin⟩ := hcursor.signalled i _ hview hsignals
    refine ⟨hfin, pre, post, hsplit, ?_⟩
    have hself : RecvStream.deliveredAt s.recv i = RecvStream.bytesAt s.recv i := by
      refine RecvStream.deliveredAt_eq_bytesAt fun t ht => ?_
      obtain rfl := Option.some.inj (hi.symm.trans ht)
      rfl
    rw [List.flatMap_append, List.flatMap_singleton, hself,
      RecvStream.flatMap_deliveredAt hin hsplit (by simp), ← hblocks]
    simpa using hall

/-- If no read was given up inside QUIC, what is read at one end is what was
written at the other: it is a prefix of the blocks that the operations there
have contributed, in the order of the mutex at either end, where a `write` that
has returned contributes all of its data; and whoever reports the end of the
stream has, with those in front of it, handed over all of the blocks of a
finished stream. -/
theorem reads_follow_writes (hN : N.Reliable)
    (h : Reachable (Ends.Step errorFromHttp3 N) (.new priority) s)
    (hclean : ¬ RecvStream.Seen RecvStream.Event.spoils s.recv.log) :
    ∃ block : ℕ → List UInt8,
      (∀ i t, s.send.tasks[i]? = some t → SendStream.Contributes t (block i)) ∧
      s.recv.entered.flatMap (RecvStream.deliveredAt s.recv) <+:
        s.send.entered.flatMap block ∧
      ∀ i op r, s.recv.tasks[i]? = some (.call op (.done r)) →
        RecvStream.signals op r = true → SendStream.Finished s.send.log ∧
          ∃ pre post, s.recv.entered = pre ++ i :: post ∧
            (pre ++ [i]).flatMap (RecvStream.deliveredAt s.recv) =
              s.send.entered.flatMap block :=
  delivers_of_reachable hN h hclean

end Bytes

/-! ## A wire for concrete runs -/

/-- A wire without delay: the peer reads what has been written, and its end once
the stream is finished. -/
def directRecv (sent : List SendStream.Event) (log : List RecvStream.Event)
    (e : RecvStream.Event) : Bool :=
  RecvStream.finishedStream (SendStream.written sent) log e &&
    match e with
    | .readChunk _ (.ready (.ok none)) | .readExact _ (.ready (.ok none))
    | .readToEnd _ (.ready (.ok _)) => decide (SendStream.Finished sent)
    | _ => true

def directWire : TestWire where
  send log _ e := SendStream.openSession log e
  recv sent log e := directRecv sent log e

theorem directWire_reliable : directWire.wire.Reliable where
  write _ := SendStream.openSession_writeLaw
  closedWrite _ := SendStream.openSession_closedWriteLaw
  bytes sent := by
    have hbytes := RecvStream.finishedStream_byteStream (SendStream.written sent)
    have hends : ∀ {log e}, directWire.wire.recv sent log e →
        RecvStream.FinishedStream (SendStream.written sent) log e := by
      intro log e h
      exact (Bool.and_eq_true_iff.mp h).1
    refine ⟨fun h => hbytes.chunk (hends h), fun h hclean => ?_,
      fun h => hbytes.exact (hends h), fun h hclean => ?_, fun h hclean => ?_,
      fun h => hbytes.failed (hends h)⟩
    · exact ⟨(hbytes.chunkEnd (hends h) hclean).1,
        of_decide_eq_true (Bool.and_eq_true_iff.mp h).2⟩
    · exact ⟨(hbytes.exactEnd (hends h) hclean).1,
        of_decide_eq_true (Bool.and_eq_true_iff.mp h).2⟩
    · exact ⟨(hbytes.toEnd (hends h) hclean).1,
        of_decide_eq_true (Bool.and_eq_true_iff.mp h).2⟩

def twoWritesAndExit : List (Wrapper.Action SendStream.Op SendStream.Event Int32) :=
  SendStream.startCall (.write [1, 2]) 0 ++
    [.task 0 (some (.write [1, 2] (.ready (.ok 2)))), .task 0 none,
      .task 0 none] ++
    SendStream.startCall (.write [3]) 1 ++
    [.task 1 (some (.write [3] (.ready (.ok 1)))), .task 1 none, .task 1 none,
      .exit false, .task 2 none, .task 2 none, .task 2 (some (.finish true)),
      .task 2 none]

def twoReads : List (Wrapper.Action RecvStream.Op RecvStream.Event Empty) :=
  RecvStream.startCall (.read 2 none) 0 ++
    [.task 0 (some (.readChunk 2 (.ready (.ok (some [1, 2]))))), .task 0 none] ++
    RecvStream.startCall (.read (-1) none) 1 ++
    [.task 1 (some (.readToEnd (.ofNat (2 ^ 64 - 1)) (.ready (.ok [3])))),
      .task 1 none, .task 1 none]

def relayed : Ends :=
  directWire.after (.new 0) (twoWritesAndExit.map .send ++ twoReads.map .recv)

theorem relayed_follow_writes :
    ∃ block : ℕ → List UInt8, block 0 = [1, 2] ∧ block 1 = [3] ∧
      ∃ pre post, relayed.recv.entered = pre ++ 1 :: post ∧
        (pre ++ [1]).flatMap (RecvStream.deliveredAt relayed.recv) =
          relayed.send.entered.flatMap block := by
  obtain ⟨block, hblocks, -, hends⟩ :=
    reads_follow_writes (s := relayed) directWire_reliable
      (TestWire.run_after _ (by decide)).reachable
      (by decide)
  refine ⟨block, ?_, ?_, ?_⟩
  · exact hblocks 0 (.call (.write [1, 2]) (.done (.ok .none))) rfl
  · exact hblocks 1 (.call (.write [3]) (.done (.ok .none))) rfl
  · exact (hends 1 (.read (-1) none) (.ok (.bytes [3])) rfl rfl).2

end WebTransport.Streams
