import WebTransport.RecvStream.Model
import WebTransport.SendStream.Model
import WebTransport.Session.Model

/-!
# A session with its streams

All the wrappers that belong to one QUIC connection: the session, and the two
halves of every stream that it has handed out.  Their steps interleave freely; the
QUIC connection behind them is one black box, whose answers to one wrapper may
depend on everything that has been done with the others.
-/

namespace WebTransport.Connection

open Support Wrapper

/-! ## The system -/

/-- The wrappers of a connection, with those of the streams in the order in which
they were made. -/
structure World where
  session : Session.World
  sends : List SendStream.World
  recvs : List RecvStream.World

/-- The steps: one of the session, or one of a half. -/
inductive Action
  | session (l : Session.Action)
  | send (k : ℕ) (l : Wrapper.Action SendStream.Op SendStream.Event Int32)
  | recv (k : ℕ) (l : Wrapper.Action RecvStream.Op RecvStream.Event Empty)

/-- How the QUIC connection answers its wrappers. -/
structure Quic where
  session : World → Session.Event → Prop
  send : World → ℕ → SendStream.Event → Prop
  recv : World → ℕ → RecvStream.Event → Prop

/-- The stream whose send half a call on the session has handed out. -/
def sendHalf : Session.Event → Option Session.QuicStream
  | .openBi (.ready (.ok s)) | .openUni (.ready (.ok s))
  | .acceptBi (.ready (.ok s)) => some s
  | _ => none

/-- The stream whose receive half a call on the session has handed out. -/
def recvHalf : Session.Event → Option Session.QuicStream
  | .openBi (.ready (.ok s)) | .acceptBi (.ready (.ok s))
  | .acceptUni (.ready (.ok s)) => some s
  | _ => none

def newSend (s : Session.QuicStream) : SendStream.World :=
  SendStream.new (s.priority.getD 0)

def new : World where
  session := Session.new
  sends := []
  recvs := []

section Steps

variable (errorFromHttp3 : ErrorFromHttp3)

/-- The state after a step, if the step can be taken. -/
def next (w : World) : Action → Option World
  | .session l => (Session.next errorFromHttp3 w.session l).map fun s =>
      { session := s
        sends := w.sends ++ ((l.event.bind sendHalf).map newSend).toList
        recvs := w.recvs ++
          ((l.event.bind recvHalf).map fun _ => RecvStream.new).toList }
  | .send k l => w.sends[k]?.bind fun u =>
      ((SendStream.half errorFromHttp3).next u l).map fun u' =>
        { w with sends := w.sends.set k u' }
  | .recv k l => w.recvs[k]?.bind fun u =>
      ((RecvStream.half errorFromHttp3).next u l).map fun u' =>
        { w with recvs := w.recvs.set k u' }

/-- The QUIC connection gives the answer that the step needs. -/
def Allowed (Q : Quic) (w : World) : Action → Prop
  | .session l => ∀ e ∈ l.event, Q.session w e
  | .send k l => ∀ e ∈ l.answer, Q.send w k e
  | .recv k l => ∀ e ∈ l.answer, Q.recv w k e

/-- A step of one of the wrappers. -/
def Step (Q : Quic) (w : World) (l : Action) (w' : World) : Prop :=
  next errorFromHttp3 w l = some w' ∧ Allowed Q w l

end Steps

/-! ## What a step can do -/

/-- The moves of a connection. -/
inductive Move (errorFromHttp3 : ErrorFromHttp3) (Q : Quic) (w : World) :
    Action → World → Prop
  | session (l : Session.Action) (s : Session.World)
      (h : Session.Step errorFromHttp3 (fun _ e => Q.session w e) w.session l s) :
      Move errorFromHttp3 Q w (.session l)
        { session := s
          sends := w.sends ++ ((l.event.bind sendHalf).map newSend).toList
          recvs := w.recvs ++
            ((l.event.bind recvHalf).map fun _ => RecvStream.new).toList }
  | send (k : ℕ) (l : Wrapper.Action SendStream.Op SendStream.Event Int32)
      {u u' : SendStream.World} (hk : w.sends[k]? = some u)
      (h : (SendStream.half errorFromHttp3).Step (fun _ e => Q.send w k e) u l u') :
      Move errorFromHttp3 Q w (.send k l) { w with sends := w.sends.set k u' }
  | recv (k : ℕ) (l : Wrapper.Action RecvStream.Op RecvStream.Event Empty)
      {u u' : RecvStream.World} (hk : w.recvs[k]? = some u)
      (h : (RecvStream.half errorFromHttp3).Step (fun _ e => Q.recv w k e) u l u') :
      Move errorFromHttp3 Q w (.recv k l) { w with recvs := w.recvs.set k u' }

section Inversion

variable {errorFromHttp3 : ErrorFromHttp3} {Q : Quic} {w w' : World} {l : Action}

theorem step_iff_move :
    Step errorFromHttp3 Q w l w' ↔ Move errorFromHttp3 Q w l w' := by
  constructor
  · rintro ⟨hnext, hallowed⟩
    cases l with
    | session l =>
        obtain ⟨s, hs, rfl⟩ := Option.map_eq_some_iff.mp hnext
        exact .session l s ⟨hs, hallowed⟩
    | send k l =>
        obtain ⟨u, hk, hrest⟩ := Option.bind_eq_some_iff.mp hnext
        obtain ⟨u', hu, rfl⟩ := Option.map_eq_some_iff.mp hrest
        exact .send k l hk ⟨hu, hallowed⟩
    | recv k l =>
        obtain ⟨u, hk, hrest⟩ := Option.bind_eq_some_iff.mp hnext
        obtain ⟨u', hu, rfl⟩ := Option.map_eq_some_iff.mp hrest
        exact .recv k l hk ⟨hu, hallowed⟩
  · intro h
    cases h with
    | session l s h => exact ⟨Option.map_eq_some_iff.mpr ⟨s, h.1, rfl⟩, h.2⟩
    | send k l hk h =>
        exact ⟨Option.bind_eq_some_iff.mpr
          ⟨_, hk, Option.map_eq_some_iff.mpr ⟨_, h.1, rfl⟩⟩, h.2⟩
    | recv k l hk h =>
        exact ⟨Option.bind_eq_some_iff.mpr
          ⟨_, hk, Option.map_eq_some_iff.mpr ⟨_, h.1, rfl⟩⟩, h.2⟩

end Inversion

/-- A QUIC connection that may answer anything. -/
def Quic.any : Quic where
  session _ _ := True
  send _ _ _ := True
  recv _ _ _ := True

theorem allowed_any {w : World} {l : Action} : Allowed Quic.any w l := by
  cases l <;> exact fun _ _ => trivial

theorem Step.weaken {errorFromHttp3 : ErrorFromHttp3} {Q : Quic} {w w' : World}
    {l : Action} (h : Step errorFromHttp3 Q w l w') :
    Step errorFromHttp3 Quic.any w l w' :=
  ⟨h.1, allowed_any⟩

/-! ## What happens to each wrapper -/

/-- In every state of the connection, each wrapper is in a state that it can
reach by itself, on answers of the kinds that it was given. -/
structure Parts (errorFromHttp3 : ErrorFromHttp3) (QE : Answers Session.Event)
    (QS : Answers SendStream.Event) (QR : Answers RecvStream.Event) (w : World) :
    Prop where
  session : Reachable (Session.Step errorFromHttp3 QE) Session.new w.session
  send : ∀ (k : ℕ) (u : SendStream.World), w.sends[k]? = some u → ∃ priority,
    Reachable ((SendStream.half errorFromHttp3).Step QS)
      (SendStream.new priority) u
  recv : ∀ (k : ℕ) (u : RecvStream.World), w.recvs[k]? = some u →
    Reachable ((RecvStream.half errorFromHttp3).Step QR) RecvStream.new u

section Parts

variable {errorFromHttp3 : ErrorFromHttp3} {Q : Quic} {w w' : World} {l : Action}
  {QE : Answers Session.Event} {QS : Answers SendStream.Event}
  {QR : Answers RecvStream.Event} {tr : List (World × Action)}

/-- The answers that a step uses are of the given kinds. -/
def Within (QE : Answers Session.Event) (QS : Answers SendStream.Event)
    (QR : Answers RecvStream.Event) (w : World) : Action → Prop
  | .session l => ∀ e ∈ l.event, QE w.session.log e
  | .send k l => ∀ u ∈ w.sends[k]?, ∀ e ∈ l.answer, QS u.log e
  | .recv k l => ∀ u ∈ w.recvs[k]?, ∀ e ∈ l.answer, QR u.log e

theorem forall_getElem?_toList {α : Type} {P : α → Prop} {xs : List α}
    {o : Option α} (hxs : ∀ (k : ℕ) (a : α), xs[k]? = some a → P a)
    (ho : ∀ a ∈ o, P a) : ∀ (k : ℕ) (a : α), (xs ++ o.toList)[k]? = some a → P a := by
  cases o with
  | none => simpa using hxs
  | some b => exact forall_getElem?_concat (ho b rfl) hxs

theorem parts_step (h : Step errorFromHttp3 Q w l w') (hl : Within QE QS QR w l)
    (hw : Parts errorFromHttp3 QE QS QR w) : Parts errorFromHttp3 QE QS QR w' := by
  cases step_iff_move.mp h with
  | session l s hs =>
      refine ⟨hw.session.tail ⟨hs.1, hl⟩, ?_, ?_⟩
      · refine forall_getElem?_toList hw.send ?_
        rintro u hu
        obtain ⟨stream, -, rfl⟩ := Option.map_eq_some_iff.mp hu
        exact ⟨_, Reachable.refl⟩
      · refine forall_getElem?_toList hw.recv ?_
        rintro u hu
        obtain ⟨stream, -, rfl⟩ := Option.map_eq_some_iff.mp hu
        exact Reachable.refl
  | send k l hk hs =>
      refine ⟨hw.session, ?_, hw.recv⟩
      refine forall_getElem?_set ?_ fun j u _ => hw.send j u
      obtain ⟨priority, hu⟩ := hw.send k _ hk
      exact ⟨priority, hu.tail ⟨hs.1, hl _ hk⟩⟩
  | recv k l hk hs =>
      refine ⟨hw.session, hw.send, ?_⟩
      refine forall_getElem?_set ?_ fun j u _ => hw.recv j u
      exact (hw.recv k _ hk).tail ⟨hs.1, hl _ hk⟩

/-- Whatever happens on a connection, each wrapper does what it can do by
itself. -/
theorem parts_of_run (h : Run (Step errorFromHttp3 Q) new tr w)
    (hall : Along (Within QE QS QR) tr) : Parts errorFromHttp3 QE QS QR w :=
  h.invariant (fun _ _ _ hl hstep => parts_step hstep hl) hall
    ⟨Reachable.refl, by simp [new], by simp [new]⟩

def Action.session? : Action → Option Session.Action
  | .session l => some l
  | _ => none

theorem run_session (h : Run (Step errorFromHttp3 Q) w tr w') :
    Run (Session.Step errorFromHttp3 fun _ _ => True) w.session
      (projectTrace World.session Action.session? tr) w'.session := by
  refine h.project ?_ ?_ along_true
  · rintro u (l | ⟨k, l⟩ | ⟨k, l⟩) u' l' - hstep ⟨⟩
    cases step_iff_move.mp hstep with
    | session l s hs => exact ⟨hs.1, fun _ _ => trivial⟩
  · rintro u (l | ⟨k, l⟩ | ⟨k, l⟩) u' - hstep ⟨⟩ <;>
      cases step_iff_move.mp hstep <;> rfl

theorem session_log_cases (h : Step errorFromHttp3 Q w l w') :
    w'.session.log = w.session.log ∨
      ∃ e, Q.session w e ∧ w'.session.log = w.session.log ++ [e] := by
  cases step_iff_move.mp h with
  | session l s hs =>
      have hlog : s.log = w.session.log ++ l.event.toList := Session.log_of_step hs
      cases he : l.event with
      | none =>
          rw [he, Option.toList_none, List.append_nil] at hlog
          exact Or.inl hlog
      | some e =>
          rw [he] at hlog
          exact Or.inr ⟨e, hs.2 e he, hlog⟩
  | send | recv => exact Or.inl rfl

theorem session_log_isPrefix (h : Step errorFromHttp3 Q w l w') :
    w.session.log <+: w'.session.log := by
  cases step_iff_move.mp h with
  | session l s hs =>
      rw [Session.log_of_step hs]
      exact List.prefix_append _ _
  | send | recv => exact List.prefix_rfl

end Parts

/-- A QUIC connection whose answers can be tested. -/
structure TestQuic where
  session : Session.Event → Bool
  send : ℕ → SendStream.Event → Bool
  recv : ℕ → RecvStream.Event → Bool

def TestQuic.quic (q : TestQuic) : Quic where
  session _ e := q.session e = true
  send _ k e := q.send k e = true
  recv _ k e := q.recv k e = true

def TestQuic.allows (q : TestQuic) : Action → Bool
  | .session l => l.event.all q.session
  | .send k l => l.answer.all (q.send k)
  | .recv k l => l.answer.all (q.recv k)

def TestQuic.tryNext (q : TestQuic) (w : World) (l : Action) : Option World :=
  if q.allows l then next noCodes w l else none

def TestQuic.after (q : TestQuic) (w : World) (ls : List Action) : World :=
  replayEnd q.tryNext w ls

section Replay

variable {q : TestQuic} {w w' : World} {l : Action}

theorem TestQuic.allowed_of_allows (h : q.allows l = true) : Allowed q.quic w l := by
  cases l with
  | session l | send k l | recv k l =>
      intro e he
      rw [Option.mem_def] at he
      simpa [TestQuic.allows, TestQuic.quic, he] using h

theorem TestQuic.step_of_tryNext (h : q.tryNext w l = some w') :
    Step noCodes q.quic w l w' := by
  unfold TestQuic.tryNext at h
  split at h
  · rename_i hall
    exact ⟨h, TestQuic.allowed_of_allows hall⟩
  · cases h

theorem TestQuic.run_after (ls : List Action)
    (h : (replay q.tryNext w ls).isSome = true) :
    Run (Step noCodes q.quic) w (replayTrace q.tryNext w ls) (q.after w ls) :=
  run_replayEnd (fun _ _ _ => TestQuic.step_of_tryNext) h

end Replay

end WebTransport.Connection
