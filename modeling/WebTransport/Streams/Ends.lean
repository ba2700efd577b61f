import WebTransport.RecvStream.Model
import WebTransport.SendStream.Contiguity

/-!
# The two ends of a stream

A `SendStream` in one process and the `RecvStream` of its peer in another, with
everything that runs on them.  The steps of the two ends interleave freely.  What
lies between them is the two QUIC stacks and the network: a black box that may
let the answers at one end depend on what has been done at the other.
-/

namespace WebTransport.Streams

open Support Wrapper

/-! ## The system -/

/-- A stream with the wrappers at its two ends. -/
structure Ends where
  send : SendStream.World
  recv : RecvStream.World

inductive Ends.Action
  | send (l : Wrapper.Action SendStream.Op SendStream.Event Int32)
  | recv (l : Wrapper.Action RecvStream.Op RecvStream.Event Empty)

/-- How the QUIC stacks answer at the two ends, after the calls made at both. -/
structure Wire where
  send : List SendStream.Event → List RecvStream.Event → SendStream.Event → Prop
  recv : List SendStream.Event → List RecvStream.Event → RecvStream.Event → Prop

namespace Ends

def new (priority : Int32) : Ends where
  send := SendStream.new priority
  recv := RecvStream.new

section Steps

variable (errorFromHttp3 : ErrorFromHttp3)

def next (s : Ends) : Action → Option Ends
  | .send l => ((SendStream.half errorFromHttp3).next s.send l).map
      fun w => { s with send := w }
  | .recv l => ((RecvStream.half errorFromHttp3).next s.recv l).map
      fun w => { s with recv := w }

/-- The wire gives the answer that the step needs. -/
def Allowed (N : Wire) (s : Ends) : Action → Prop
  | .send l => ∀ e ∈ l.answer, N.send s.send.log s.recv.log e
  | .recv l => ∀ e ∈ l.answer, N.recv s.send.log s.recv.log e

/-- A step of either end. -/
def Step (N : Wire) (s : Ends) (l : Action) (s' : Ends) : Prop :=
  next errorFromHttp3 s l = some s' ∧ Allowed N s l

end Steps

def Action.send? : Action → Option
    (Wrapper.Action SendStream.Op SendStream.Event Int32)
  | .send l => some l
  | .recv _ => none

def Action.recv? : Action → Option
    (Wrapper.Action RecvStream.Op RecvStream.Event Empty)
  | .send _ => none
  | .recv l => some l

abbrev sendTrace (tr : List (Ends × Action)) :=
  projectTrace Ends.send Action.send? tr

abbrev recvTrace (tr : List (Ends × Action)) :=
  projectTrace Ends.recv Action.recv? tr

end Ends

section Steps

variable {errorFromHttp3 : ErrorFromHttp3} {N : Wire} {s s' : Ends}

theorem Ends.step_send_iff
    {l : Wrapper.Action SendStream.Op SendStream.Event Int32} :
    Ends.Step errorFromHttp3 N s (.send l) s' ↔
      (SendStream.half errorFromHttp3).Step
        (fun log e => N.send log s.recv.log e) s.send l s'.send ∧
      s'.recv = s.recv := by
  constructor
  · rintro ⟨hnext, hallowed⟩
    obtain ⟨w, hw, rfl⟩ := Option.map_eq_some_iff.mp hnext
    exact ⟨⟨hw, hallowed⟩, rfl⟩
  · rintro ⟨⟨hw, hallowed⟩, hrecv⟩
    refine ⟨?_, hallowed⟩
    rw [Ends.next, hw, Option.map_some, ← hrecv]

theorem Ends.step_recv_iff
    {l : Wrapper.Action RecvStream.Op RecvStream.Event Empty} :
    Ends.Step errorFromHttp3 N s (.recv l) s' ↔
      (RecvStream.half errorFromHttp3).Step
        (fun log e => N.recv s.send.log log e) s.recv l s'.recv ∧
      s'.send = s.send := by
  constructor
  · rintro ⟨hnext, hallowed⟩
    obtain ⟨w, hw, rfl⟩ := Option.map_eq_some_iff.mp hnext
    exact ⟨⟨hw, hallowed⟩, rfl⟩
  · rintro ⟨⟨hw, hallowed⟩, hsend⟩
    refine ⟨?_, hallowed⟩
    rw [Ends.next, hw, Option.map_some, ← hsend]

theorem Ends.Step.log_isPrefix {l : Ends.Action}
    (h : Ends.Step errorFromHttp3 N s l s') :
    s.send.log <+: s'.send.log ∧ s.recv.log <+: s'.recv.log := by
  cases l with
  | send l =>
      obtain ⟨hstep, hrecv⟩ := Ends.step_send_iff.mp h
      exact ⟨hstep.log_isPrefix, hrecv ▸ List.prefix_rfl⟩
  | recv l =>
      obtain ⟨hstep, hsend⟩ := Ends.step_recv_iff.mp h
      exact ⟨hsend ▸ List.prefix_rfl, hstep.log_isPrefix⟩

end Steps

/-! ## A run seen from either end -/

/-- The answers that the sending end gets while the other end has made no more
calls than those in `got`. -/
def Wire.sendAnswers (N : Wire) (got : List RecvStream.Event) :
    Answers SendStream.Event :=
  fun log e => ∃ before, before <+: got ∧ N.send log before e

/-- The answers that the receiving end gets while the other end has made no more
calls than those in `sent`. -/
def Wire.recvAnswers (N : Wire) (sent : List SendStream.Event) :
    Answers RecvStream.Event :=
  fun log e => ∃ before, before <+: sent ∧ N.recv before log e

section Projections

variable {errorFromHttp3 : ErrorFromHttp3} {N : Wire} {s s' : Ends}
  {tr : List (Ends × Ends.Action)}

theorem Ends.along_log_isPrefix (h : Run (Ends.Step errorFromHttp3 N) s tr s') :
    Along (fun u _ => u.send.log <+: s'.send.log ∧ u.recv.log <+: s'.recv.log)
      tr :=
  h.along_below (fun _ _ _ hstep => hstep.log_isPrefix)
    fun hab hbc => ⟨hab.1.trans hbc.1, hab.2.trans hbc.2⟩

theorem Ends.run_send (h : Run (Ends.Step errorFromHttp3 N) s tr s') :
    Run ((SendStream.half errorFromHttp3).Step (N.sendAnswers s'.recv.log))
      s.send (Ends.sendTrace tr) s'.send := by
  refine h.project ?_ ?_ (Ends.along_log_isPrefix h)
  · rintro u (l | l) u' l' ⟨-, hbelow⟩ hstep ⟨⟩
    obtain ⟨⟨hnext, hans⟩, -⟩ := Ends.step_send_iff.mp hstep
    exact ⟨hnext, fun e he => ⟨_, hbelow, hans e he⟩⟩
  · rintro u (l | l) u' - hstep ⟨⟩
    exact (Ends.step_recv_iff.mp hstep).2

theorem Ends.run_recv (h : Run (Ends.Step errorFromHttp3 N) s tr s') :
    Run ((RecvStream.half errorFromHttp3).Step (N.recvAnswers s'.send.log))
      s.recv (Ends.recvTrace tr) s'.recv := by
  refine h.project ?_ ?_ (Ends.along_log_isPrefix h)
  · rintro u (l | l) u' l' ⟨hbelow, -⟩ hstep ⟨⟩
    obtain ⟨⟨hnext, hans⟩, -⟩ := Ends.step_recv_iff.mp hstep
    exact ⟨hnext, fun e he => ⟨_, hbelow, hans e he⟩⟩
  · rintro u (l | l) u' - hstep ⟨⟩
    exact (Ends.step_send_iff.mp hstep).2

end Projections

/-- A wire whose answers can be tested. -/
structure TestWire where
  send : List SendStream.Event → List RecvStream.Event → SendStream.Event → Bool
  recv : List SendStream.Event → List RecvStream.Event → RecvStream.Event → Bool

def TestWire.wire (q : TestWire) : Wire where
  send log got e := q.send log got e = true
  recv sent log e := q.recv sent log e = true

def TestWire.allows (q : TestWire) (s : Ends) : Ends.Action → Bool
  | .send l => l.answer.all (q.send s.send.log s.recv.log)
  | .recv l => l.answer.all (q.recv s.send.log s.recv.log)

def TestWire.tryNext (q : TestWire) (s : Ends) (l : Ends.Action) : Option Ends :=
  if q.allows s l then Ends.next noCodes s l else none

def TestWire.after (q : TestWire) (s : Ends) (ls : List Ends.Action) : Ends :=
  replayEnd q.tryNext s ls

section Replay

variable {q : TestWire} {s s' : Ends} {l : Ends.Action}

theorem TestWire.step_of_tryNext (h : q.tryNext s l = some s') :
    Ends.Step noCodes q.wire s l s' := by
  unfold TestWire.tryNext at h
  split at h
  · rename_i hall
    refine ⟨h, ?_⟩
    cases l with
    | send l | recv l =>
        intro e he
        rw [Option.mem_def] at he
        simpa [TestWire.allows, TestWire.wire, he] using hall
  · cases h

theorem TestWire.run_after (ls : List Ends.Action)
    (h : (replay q.tryNext s ls).isSome = true) :
    Run (Ends.Step noCodes q.wire) s (replayTrace q.tryNext s ls)
      (q.after s ls) :=
  run_replayEnd (fun _ _ _ => TestWire.step_of_tryNext) h

end Replay

end WebTransport.Streams
