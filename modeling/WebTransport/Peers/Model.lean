import WebTransport.Client.Model
import WebTransport.Connection.Model
import WebTransport.Server.Model

/-!
# A client and its server

Two processes: a client with a session that it has opened, and a server with the
session that it has accepted.  The wrappers of the two interleave freely.  What lies
between them is the two QUIC stacks and the network: a black box, whose answers at
one end may depend on everything that has been done at either.
-/

namespace WebTransport.Peers

open Support Wrapper

/-! ## The system -/

/-- A client and a server, with the wrappers of the two ends of a connection: `near`
is the client's end. -/
structure World (Url : Type) where
  client : Client.World Url
  near : Connection.World
  server : Server.World
  far : Connection.World

/-- The steps: one of either endpoint, or at either end of the connection. -/
inductive Action (Url : Type)
  | client (l : Client.Action Url)
  | near (l : Connection.Action)
  | server (l : Server.Action)
  | far (l : Connection.Action)

inductive Side
  | client
  | server
  deriving DecidableEq, Repr

def Side.peer : Side → Side
  | client => server
  | server => client

/-- How the QUIC stacks answer, in a state of the two processes. -/
structure Net (Url : Type) where
  client : World Url → Client.Event Url → Prop
  near : World Url → Connection.Quic
  server : World Url → Server.Event → Prop
  far : World Url → Connection.Quic

section System

variable {Url : Type}

def new : World Url where
  client := Client.new
  near := Connection.new
  server := Server.new
  far := Connection.new

def Action.client? : Action Url → Option (Client.Action Url)
  | .client l => some l
  | _ => none

def Action.server? : Action Url → Option Server.Action
  | .server l => some l
  | _ => none

def World.conn (w : World Url) : Side → Connection.World
  | .client => w.near
  | .server => w.far

theorem conn_new (side : Side) : (new : World Url).conn side = Connection.new := by
  cases side <;> rfl

def Net.quic (N : Net Url) (w : World Url) : Side → Connection.Quic
  | .client => N.near w
  | .server => N.far w

def Action.conn? : Side → Action Url → Option Connection.Action
  | .client, .near l => some l
  | .server, .far l => some l
  | _, _ => none

variable [DecidableEq Url] (errorFromHttp3 : ErrorFromHttp3)
  (parse : String → Except String Url)

/-- The state after a step, if the step can be taken. -/
def next (w : World Url) : Action Url → Option (World Url)
  | .client l => (Client.next parse w.client l).map fun u => { w with client := u }
  | .near l => (Connection.next errorFromHttp3 w.near l).map fun u =>
      { w with near := u }
  | .server l => (Server.next w.server l).map fun u => { w with server := u }
  | .far l => (Connection.next errorFromHttp3 w.far l).map fun u => { w with far := u }

/-- The network gives the answer that the step needs. -/
def Allowed (N : Net Url) (w : World Url) : Action Url → Prop
  | .client l => ∀ e ∈ l.answer, N.client w e
  | .near l => Connection.Allowed (N.near w) w.near l
  | .server l => ∀ e ∈ l.answer, N.server w e
  | .far l => Connection.Allowed (N.far w) w.far l

/-- A step of one of the two processes. -/
def Step (N : Net Url) (w : World Url) (l : Action Url) (w' : World Url) : Prop :=
  next errorFromHttp3 parse w l = some w' ∧ Allowed N w l

/-! ## What a step can do -/

/-- The moves of the two processes. -/
inductive Move (N : Net Url) (w : World Url) : Action Url → World Url → Prop
  | client (l : Client.Action Url) (u : Client.World Url)
      (h : Client.Step parse (fun _ e => N.client w e) w.client l u) :
      Move N w (.client l) { w with client := u }
  | near (l : Connection.Action) (u : Connection.World)
      (h : Connection.Step errorFromHttp3 (N.near w) w.near l u) :
      Move N w (.near l) { w with near := u }
  | server (l : Server.Action) (u : Server.World)
      (h : Server.Step (fun _ e => N.server w e) w.server l u) :
      Move N w (.server l) { w with server := u }
  | far (l : Connection.Action) (u : Connection.World)
      (h : Connection.Step errorFromHttp3 (N.far w) w.far l u) :
      Move N w (.far l) { w with far := u }

end System

section Inversion

variable {Url : Type} [DecidableEq Url] {errorFromHttp3 : ErrorFromHttp3}
  {parse : String → Except String Url} {N : Net Url} {w w' : World Url} {l : Action Url}

theorem Step.move (h : Step errorFromHttp3 parse N w l w') :
    Move errorFromHttp3 parse N w l w' := by
  obtain ⟨hnext, hallowed⟩ := h
  cases l with
  | client l =>
      obtain ⟨u, hu, rfl⟩ := Option.map_eq_some_iff.mp hnext
      exact .client l u ⟨hu, hallowed⟩
  | near l =>
      obtain ⟨u, hu, rfl⟩ := Option.map_eq_some_iff.mp hnext
      exact .near l u ⟨hu, hallowed⟩
  | server l =>
      obtain ⟨u, hu, rfl⟩ := Option.map_eq_some_iff.mp hnext
      exact .server l u ⟨hu, hallowed⟩
  | far l =>
      obtain ⟨u, hu, rfl⟩ := Option.map_eq_some_iff.mp hnext
      exact .far l u ⟨hu, hallowed⟩

end Inversion

/-! ## A run seen from one place -/

section Projections

variable {Url : Type} [DecidableEq Url] {errorFromHttp3 : ErrorFromHttp3}
  {parse : String → Except String Url} {N : Net Url} {w w' : World Url} {l : Action Url}
  {tr : List (World Url × Action Url)}

theorem run_client (h : Run (Step errorFromHttp3 parse N) w tr w') :
    Run (Client.Step parse fun _ _ => True) w.client
      (projectTrace World.client Action.client? tr) w'.client := by
  refine h.project ?_ ?_ along_true
  · rintro u (l | l | l | l) u' l' - hstep ⟨⟩
    cases hstep.move with
    | client l v hv => exact ⟨hv.1, fun _ _ => trivial⟩
  · rintro u (l | l | l | l) u' - hstep ⟨⟩ <;> cases hstep.move <;> rfl

theorem run_server (h : Run (Step errorFromHttp3 parse N) w tr w') :
    Run (Server.Step fun _ _ => True) w.server
      (projectTrace World.server Action.server? tr) w'.server := by
  refine h.project ?_ ?_ along_true
  · rintro u (l | l | l | l) u' l' - hstep ⟨⟩
    cases hstep.move with
    | server l v hv => exact ⟨hv.1, fun _ _ => trivial⟩
  · rintro u (l | l | l | l) u' - hstep ⟨⟩ <;> cases hstep.move <;> rfl

theorem Step.conn (h : Step errorFromHttp3 parse N w l w') (side : Side) :
    (∃ c, l.conn? side = some c ∧
      Connection.Step errorFromHttp3 (N.quic w side) (w.conn side) c (w'.conn side)) ∨
    (l.conn? side = none ∧ w'.conn side = w.conn side) := by
  cases side with
  | client =>
      cases h.move with
      | near c u hu => exact Or.inl ⟨c, rfl, hu⟩
      | client | server | far => exact Or.inr ⟨rfl, rfl⟩
  | server =>
      cases h.move with
      | far c u hu => exact Or.inl ⟨c, rfl, hu⟩
      | client | server | near => exact Or.inr ⟨rfl, rfl⟩

/-- What happens at one end of the connection is a run of it, on a QUIC connection
that gives the answers of the kind that the network gives. -/
theorem run_conn {Q : Connection.Quic} {side : Side}
    (h : Run (Step errorFromHttp3 parse N) w tr w')
    (hQ : Along (fun u _ => ∀ c, Connection.Allowed (N.quic u side) (u.conn side) c →
      Connection.Allowed Q (u.conn side) c) tr) :
    Run (Connection.Step errorFromHttp3 Q) (w.conn side)
      (projectTrace (fun u => u.conn side) (Action.conn? side) tr) (w'.conn side) := by
  refine h.project (f := fun u => u.conn side) (g := Action.conn? side) ?_ ?_ hQ
  · intro u l u' c hallowed hstep hl
    rcases hstep.conn side with ⟨c', hc, hu⟩ | ⟨hnone, -⟩
    · obtain rfl := Option.some.inj (hl.symm.trans hc)
      exact ⟨hu.1, hallowed c hu.2⟩
    · rw [hl] at hnone
      cases hnone
  · rintro u l u' - hstep hl
    rcases hstep.conn side with ⟨c', hc, -⟩ | ⟨-, hsame⟩
    · rw [hl] at hc
      cases hc
    · exact hsame

theorem run_conn_any (h : Run (Step errorFromHttp3 parse N) w tr w') (side : Side) :
    Run (Connection.Step errorFromHttp3 Connection.Quic.any) (w.conn side)
      (projectTrace (fun u => u.conn side) (Action.conn? side) tr) (w'.conn side) :=
  run_conn h (along_true.mono fun _ _ _ _ _ => Connection.allowed_any)

theorem run_session (h : Run (Step errorFromHttp3 parse N) w tr w') (side : Side) :
    Run (Session.Step errorFromHttp3 fun _ _ => True) (w.conn side).session
      (projectTrace Connection.World.session Connection.Action.session?
        (projectTrace (fun u => u.conn side) (Action.conn? side) tr))
      (w'.conn side).session :=
  Connection.run_session (run_conn_any h side)

theorem session_log_isPrefix (h : Step errorFromHttp3 parse N w l w') (side : Side) :
    (w.conn side).session.log <+: (w'.conn side).session.log := by
  rcases h.conn side with ⟨c, -, hu⟩ | ⟨-, hsame⟩
  · exact Connection.session_log_isPrefix hu
  · rw [hsame]

end Projections

/-- A network whose answers can be tested, between endpoints that wait for
nothing. -/
structure TestNet where
  near : World Unit → Connection.TestQuic
  far : World Unit → Connection.TestQuic

def TestNet.net (q : TestNet) : Net Unit where
  client _ _ := False
  near w := (q.near w).quic
  server _ _ := False
  far w := (q.far w).quic

def TestNet.allows (q : TestNet) (w : World Unit) : Action Unit → Bool
  | .client l => l.answer.isNone
  | .near l => (q.near w).allows l
  | .server l => l.answer.isNone
  | .far l => (q.far w).allows l

/-- The steps that the network lets the two processes make; every URL is one. -/
def TestNet.tryNext (q : TestNet) (errorFromHttp3 : ErrorFromHttp3) (w : World Unit)
    (l : Action Unit) : Option (World Unit) :=
  if q.allows w l then next errorFromHttp3 (fun _ => .ok ()) w l else none

def TestNet.after (q : TestNet) (errorFromHttp3 : ErrorFromHttp3) (w : World Unit)
    (ls : List (Action Unit)) : World Unit :=
  replayEnd (q.tryNext errorFromHttp3) w ls

section Replay

variable {q : TestNet} {errorFromHttp3 : ErrorFromHttp3} {w w' : World Unit}
  {l : Action Unit}

theorem TestNet.step_of_tryNext (h : q.tryNext errorFromHttp3 w l = some w') :
    Step errorFromHttp3 (fun _ => .ok ()) q.net w l w' := by
  unfold TestNet.tryNext at h
  split at h
  · rename_i hall
    refine ⟨h, ?_⟩
    cases l with
    | client l | server l =>
        intro e he
        rw [Option.mem_def] at he
        simp [TestNet.allows, he] at hall
    | near l => exact Connection.TestQuic.allowed_of_allows hall
    | far l => exact Connection.TestQuic.allowed_of_allows hall
  · cases h

theorem TestNet.run_after (ls : List (Action Unit))
    (h : (replay (q.tryNext errorFromHttp3) w ls).isSome = true) :
    Run (Step errorFromHttp3 (fun _ => .ok ()) q.net) w
      (replayTrace (q.tryNext errorFromHttp3) w ls) (q.after errorFromHttp3 w ls) :=
  run_replayEnd (fun _ _ _ => TestNet.step_of_tryNext) h

end Replay

end WebTransport.Peers
