import WebTransport.Client.Finishing
import WebTransport.Connection.Finishing
import WebTransport.Peers.Model
import WebTransport.Server.Finishing

/-!
# Two processes that have lost each other

When nothing gets from one process to the other any more, the QUIC stacks give up:
the connection is lost at both ends, and no endpoint has anything left to wait for.
From then on the client, the server and the wrappers at both ends come to rest side
by side, in whatever order their steps are taken.
-/

namespace WebTransport.Peers

open Support Wrapper

section Finishing

variable {Url : Type}

/-- QUIC stacks that do not hear from each other: each answers by what has been
asked of it. -/
structure Stacks (Url : Type) where
  client : Answers (Client.Event Url)
  server : Answers Server.Event
  conn : Side → Connection.Quic

def Stacks.net (S : Stacks Url) : Net Url where
  client w := S.client w.client.log
  near _ := S.conn .client
  server w := S.server w.server.log
  far _ := S.conn .server

/-- Both endpoints answer without delay, and the connection is lost at both ends. -/
structure Stacks.Down (S : Stacks Url) (errorFromHttp3 : ErrorFromHttp3) : Prop where
  client : Client.Prompt S.client
  server : Server.Prompt S.server
  conn : ∀ side, (S.conn side).Lost errorFromHttp3

/-- A step of a task that is awake, of a synchronous call, or of asyncio when it
drops a task. -/
def World.Due (w : World Url) : Action Url → Prop
  | .client l => l.isInner = true
  | .near l => w.near.Due l
  | .server l => l.isInner = true
  | .far l => w.far.Due l

def Action.isLocal : Action Url → Bool
  | .client l => l.isLocal
  | .near l => l.isLocal
  | .server l => l.isLocal
  | .far l => l.isLocal

structure World.AtRest (w : World Url) : Prop where
  client : w.client.AtRest
  server : w.server.AtRest
  conn : ∀ side, (w.conn side).AtRest

/-- The awaitables that are pending in `w` have come to their end in `u`. -/
structure World.CompletedIn (w u : World Url) : Prop where
  client : w.client.CompletedIn u.client
  server : ∀ (i : ℕ) (t : Server.Task), w.server.tasks[i]? = some t →
    t.pc.pending = true → ∃ r, u.server.tasks[i]? = some ⟨t.op, .done r⟩
  conn : ∀ side, (w.conn side).CompletedIn (u.conn side)

theorem quic_net (S : Stacks Url) (w : World Url) (side : Side) :
    S.net.quic w side = S.conn side := by
  cases side <;> rfl

variable [DecidableEq Url]

/-- From `w` on both processes come to rest by themselves, and where asyncio drops
nothing, every awaitable that was pending comes to its end. -/
structure Finishes (errorFromHttp3 : ErrorFromHttp3)
    (parse : String → Except String Url) (N : Net Url) (w : World Url) : Prop where
  settles : Settles (Step errorFromHttp3 parse N) World.Due
    (fun l => l.isLocal = true) World.AtRest w
  completes : ∀ {tr u}, Run (Step errorFromHttp3 parse N) w tr u →
    Along (fun u l => u.Due l ∧ l.isLocal = true) tr →
    (∀ l u', l.isLocal = true → u.Due l → ¬ Step errorFromHttp3 parse N u l u') →
    w.CompletedIn u

/-! ## The parts -/

section Parts

variable (errorFromHttp3 : ErrorFromHttp3) (parse : String → Except String Url)
  (S : Stacks Url)

theorem client_isPart :
    IsPart (Step errorFromHttp3 parse S.net) World.Due (fun l => l.isLocal = true)
      (Client.Step parse S.client) (fun _ l => l.isInner = true)
      (fun l => l.isLocal = true) World.client Action.client? where
  steps := by
    rintro s (l | l | l | l) t b hstep ⟨⟩
    cases hstep.move with
    | client l u h => exact h
  stays := by
    rintro s (l | l | l | l) t hstep ⟨⟩ <;> cases hstep.move <;> rfl
  lift := by
    intro s b a h
    exact ⟨.client b, { s with client := a }, rfl,
      Option.map_eq_some_iff.mpr ⟨a, h.1, rfl⟩, h.2⟩
  due := by
    rintro s (l | l | l | l) b ⟨⟩
    exact Iff.rfl
  own := by
    rintro (l | l | l | l) b ⟨⟩
    exact Iff.rfl

theorem server_isPart :
    IsPart (Step errorFromHttp3 parse S.net) World.Due (fun l => l.isLocal = true)
      (Server.Step S.server) (fun _ l => l.isInner = true)
      (fun l => l.isLocal = true) World.server Action.server? where
  steps := by
    rintro s (l | l | l | l) t b hstep ⟨⟩
    cases hstep.move with
    | server l u h => exact h
  stays := by
    rintro s (l | l | l | l) t hstep ⟨⟩ <;> cases hstep.move <;> rfl
  lift := by
    intro s b a h
    exact ⟨.server b, { s with server := a }, rfl,
      Option.map_eq_some_iff.mpr ⟨a, h.1, rfl⟩, h.2⟩
  due := by
    rintro s (l | l | l | l) b ⟨⟩
    exact Iff.rfl
  own := by
    rintro (l | l | l | l) b ⟨⟩
    exact Iff.rfl

theorem conn_isPart (side : Side) :
    IsPart (Step errorFromHttp3 parse S.net) World.Due (fun l => l.isLocal = true)
      (Connection.Step errorFromHttp3 (S.conn side)) Connection.World.Due
      (fun l => l.isLocal = true) (fun w => w.conn side) (Action.conn? side) where
  steps := by
    intro s l t b hstep hl
    rcases hstep.conn side with ⟨c, hc, h⟩ | ⟨hnone, -⟩
    · obtain rfl := Option.some.inj (hl.symm.trans hc)
      rwa [quic_net] at h
    · rw [hl] at hnone
      cases hnone
  stays := by
    intro s l t hstep hl
    rcases hstep.conn side with ⟨c, hc, -⟩ | ⟨-, hsame⟩
    · rw [hl] at hc
      cases hc
    · exact hsame
  lift := by
    intro s b a h
    cases side with
    | client =>
        exact ⟨.near b, { s with near := a }, rfl,
          Option.map_eq_some_iff.mpr ⟨a, h.1, rfl⟩, h.2⟩
    | server =>
        exact ⟨.far b, { s with far := a }, rfl,
          Option.map_eq_some_iff.mpr ⟨a, h.1, rfl⟩, h.2⟩
  due := by
    rintro s (l | l | l | l) b hl <;> cases side <;> cases hl <;> exact Iff.rfl
  own := by
    rintro (l | l | l | l) b hl <;> cases side <;> cases hl <;> exact Iff.rfl

end Parts

/-! ## Both processes finish -/

variable {errorFromHttp3 : ErrorFromHttp3} {parse : String → Except String Url}
  {S : Stacks Url} {N₀ : Net Url} {w : World Url}

theorem reachable_conn (h : Reachable (Step errorFromHttp3 parse N₀) new w)
    (side : Side) :
    Reachable (Connection.Step errorFromHttp3 Connection.Quic.any) Connection.new
      (w.conn side) := by
  obtain ⟨tr, hrun⟩ := h
  have hconn := run_conn_any hrun side
  rw [conn_new] at hconn
  exact hconn.reachable

/-- From the moment at which nothing gets from one process to the other, whatever
had happened between them before, the client, the server, the session and all streams
at both ends come to rest in a bounded number of steps, and every awaitable that was
pending on any of them comes to its end. -/
theorem parted_processes_finish (hS : S.Down errorFromHttp3)
    (h : Reachable (Step errorFromHttp3 parse N₀) new w) :
    Finishes errorFromHttp3 parse S.net w := by
  have hclient : Client.Finishes parse S.client w.client :=
    Client.finishes_of_reachable hS.client (h.elim fun _ hrun => (run_client hrun).reachable)
  have hserver : Server.Finishes S.server w.server :=
    Server.finishes_of_reachable hS.server (h.elim fun _ hrun => (run_server hrun).reachable)
  have hconn : ∀ side, Connection.Finishes errorFromHttp3 (S.conn side) (w.conn side) :=
    fun side => Connection.finishes_of_reachable (hS.conn side) (reachable_conn h side)
  have hclientPart := client_isPart errorFromHttp3 parse S
  have hserverPart := server_isPart errorFromHttp3 parse S
  have hconnPart := conn_isPart errorFromHttp3 parse S
  constructor
  · have hends := ((hconnPart .client).settlesOn (hconn .client).settles).and
      ((hconnPart .server).settlesOn (hconn .server).settles)
    have hall := ((hclientPart.settlesOn hclient.settles).and
      (hserverPart.settlesOn hserver.settles)).and hends
    refine hall.settles ?_ ?_
    · rintro (l | l | l | l) <;> rfl
    · intro s
      constructor
      · rintro ⟨⟨hc, hs⟩, hnear, hfar⟩
        refine ⟨hc, hs, ?_⟩
        rintro (_ | _)
        · exact hnear
        · exact hfar
      · intro hs
        exact ⟨⟨hs.client, hs.server⟩, hs.conn .client, hs.conn .server⟩
  · intro tr u hrun hall hstopped
    refine ⟨?_, ?_, fun side => ?_⟩
    · apply hclient.completes (hclientPart.run hrun)
        ((hclientPart.along hall).mono fun _ _ hl => hl.2)
      intro l v hl
      exact hclientPart.stopped (fun l v _ => hstopped l v) l v hl
        (Client.Action.isInner_of_isLocal hl)
    · apply hserver.completes (hserverPart.run hrun)
        ((hserverPart.along hall).mono fun _ _ hl => hl.2)
      intro l v hl
      exact hserverPart.stopped (fun l v _ => hstopped l v) l v hl
        (Server.Action.isInner_of_isLocal hl)
    · exact (hconn side).completes ((hconnPart side).run hrun)
        ((hconnPart side).along hall) ((hconnPart side).stopped fun l v _ => hstopped l v)

end Finishing

def closedClient (_log : List (Client.Event Unit)) : Client.Event Unit → Prop
  | .connect _ r => r = .ready (.error (.other "endpoint stopping"))
  | .waitIdle r => r = .ready ()
  | .close _ _ => True

theorem closedClient_prompt : Client.Prompt closedClient where
  connect _ _ := ⟨_, rfl⟩
  idle _ := rfl
  closes _ := trivial
  connectPends log url h := by cases h
  idlePends log h := by cases h

/-- Two processes that do not hear from each other. -/
def partedStacks : Stacks Unit where
  client := closedClient
  server := Server.closedServer
  conn _ := Connection.lostQuic.quic

theorem partedStacks_down : partedStacks.Down noCodes where
  client := closedClient_prompt
  server := Server.closedServer_prompt
  conn _ := Connection.lostQuic_lost

/-- A connection on which nothing arrives. -/
def quietNet : TestNet where
  near _ := Connection.idleQuic
  far _ :=
    { session := fun e => match e with
        | .acceptUni r => r = .pending
        | _ => false
      send := fun _ _ => false
      recv := fun _ _ => false }

/-- At the client a `connect`, a write and a `receive_datagram` wait, and at the
server an `accept` and an `accept_uni`. -/
def allCalled : List (Action Unit) :=
  [.client (.call (.connect "/")), .server (.call .accept), .server (.task 0 none),
    .near (.session (.call .openUni)),
    .near (.session (.task 0 (some (.openUni (.ready (.ok ⟨0, none⟩))))))] ++
    Connection.writeWaits.map (fun l => .near (.send 0 l)) ++
    [.near (.session (.call .receiveDatagram)),
      .near (.session (.task 1 (some (.readDatagram .pending)))),
      .far (.session (.call .acceptUni)),
      .far (.session (.task 0 (some (.acceptUni .pending))))]

/-- All of them come to their end. -/
theorem allCalled_finish :
    Finishes noCodes (fun _ => .ok ()) partedStacks.net
      (quietNet.after noCodes new allCalled) :=
  parted_processes_finish partedStacks_down
    (TestNet.run_after allCalled (by decide)).reachable

end WebTransport.Peers
