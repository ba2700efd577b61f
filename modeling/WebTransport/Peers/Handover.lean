import Mathlib.Data.List.Perm.Subperm
import WebTransport.Peers.Model
import WebTransport.Session.Handout

/-!
# What arrives was sent

Streams and datagrams that one process gets from a session are those that the other
one has sent off: a stream by an awaitable that has opened and returned it, a
datagram by a call that has returned.  However many tasks wait for them, and whoever
is cancelled, each goes to one of them.
-/

namespace WebTransport.Peers

open Support Wrapper
open scoped List

section Handover

variable {Url : Type}

/-- What the awaitables at one end have waited for and returned. -/
def World.taken (w : World Url) (side : Side) : List Session.Item :=
  (w.conn side).session.tasks.filterMap Session.Task.taken?

/-- The datagrams of the calls that have returned at one end. -/
def datagramsGiven (tr : List (World Url × Action Url)) (side : Side) :
    List Session.Item :=
  tr.filterMap fun p =>
    (p.2.conn? side).bind fun l => l.session?.bind Session.Action.given?

/-- What was sent off at one end in a run. -/
def given (tr : List (World Url × Action Url)) (w : World Url) (side : Side) :
    List Session.Item :=
  (w.conn side).session.tasks.filterMap Session.Task.given? ++ datagramsGiven tr side

def World.yielded (w : World Url) (side : Side) : List Session.Item :=
  (w.conn side).session.log.filterMap Session.Event.taken?

def World.sentOff (w : World Url) (side : Side) : List Session.Item :=
  (w.conn side).session.log.filterMap Session.Event.given?

/-- The network yields at one end what was sent off at the other, and nothing
twice. -/
def Net.CarriesItems (N : Net Url) : Prop :=
  ∀ w side e x, (N.quic w side).session (w.conn side) e →
    Session.Event.taken? e = some x →
    (w.yielded side).count x < (w.sentOff side.peer).count x

variable [DecidableEq Url] {errorFromHttp3 : ErrorFromHttp3}
  {parse : String → Except String Url} {N : Net Url} {w w' : World Url}
  {l : Action Url} {tr : List (World Url × Action Url)}

def Covered (w : World Url) : Prop :=
  ∀ side x, (w.yielded side).count x ≤ (w.sentOff side.peer).count x

theorem covered_step (hN : N.CarriesItems) (h : Step errorFromHttp3 parse N w l w')
    (hw : Covered w) : Covered w' := by
  intro side x
  have hmore : (w.sentOff side.peer).count x ≤ (w'.sentOff side.peer).count x :=
    ((session_log_isPrefix h side.peer).filterMap _).sublist.count_le x
  have hlog : (w'.conn side).session.log = (w.conn side).session.log ∨
      ∃ e, (N.quic w side).session (w.conn side) e ∧
        (w'.conn side).session.log = (w.conn side).session.log ++ [e] := by
    rcases h.conn side with ⟨c, -, hc⟩ | ⟨-, hsame⟩
    · exact Connection.session_log_cases hc
    · exact Or.inl (by rw [hsame])
  apply le_trans _ hmore
  rcases hlog with hsame | ⟨e, he, hnew⟩
  · rw [World.yielded, hsame]
    exact hw side x
  · have hadds : w'.yielded side =
        w.yielded side ++ (Session.Event.taken? e).toList := by
      rw [World.yielded, hnew, List.filterMap_append]
      exact congrArg _ (filterMap_toList Session.Event.taken? (some e))
    rw [hadds, List.count_append]
    cases hitem : Session.Event.taken? e with
    | none => exact hw side x
    | some y =>
        have hlaw := hN w side e y he hitem
        by_cases hyx : y = x
        · subst hyx
          rw [Option.toList_some, List.count_singleton_self]
          exact hlaw
        · simpa [hyx] using hw side x

theorem covered_of_reachable (hN : N.CarriesItems)
    (h : Reachable (Step errorFromHttp3 parse N) new w) : Covered w := by
  refine h.invariant (fun _ _ _ hstep => covered_step hN hstep) ?_
  intro side x
  cases side <;> exact Nat.le_refl _

theorem yielded_perm (h : Run (Step errorFromHttp3 parse N) new tr w) (side : Side) :
    w.yielded side ~ w.taken side := by
  have hrun := run_session h side
  rw [conn_new] at hrun
  have hperm := Session.divided_of_run Session.taken_divides hrun
  rw [List.filterMap_none, List.append_nil] at hperm
  exact hperm

theorem sentOff_perm (h : Run (Step errorFromHttp3 parse N) new tr w) (side : Side) :
    w.sentOff side ~ given tr w side := by
  have hrun := run_session h side
  rw [conn_new] at hrun
  have hperm := Session.divided_of_run Session.given_divides hrun
  rw [filterMap_projectTrace, filterMap_projectTrace fun l : Connection.Action =>
    l.session?.bind Session.Action.given?] at hperm
  exact hperm

/-- Every stream and every datagram that the session yields at one end is returned
there by exactly one awaitable, whoever else waits for it or is cancelled; and what
the awaitables have returned was sent off at the other end, each stream by an
awaitable that has returned it there and each datagram by a call that has. -/
theorem handed_over (hN : N.CarriesItems)
    (h : Run (Step errorFromHttp3 parse N) new tr w) (side : Side) :
    w.yielded side ~ w.taken side ∧ w.taken side <+~ given tr w side.peer := by
  have hyielded := yielded_perm h side
  refine ⟨hyielded, ?_⟩
  rw [List.subperm_iff_count]
  intro x
  rw [← hyielded.count_eq, ← (sentOff_perm h side.peer).count_eq]
  exact covered_of_reachable hN h.reachable side x

end Handover

def yields (w : World Unit) (side : Side) (e : Session.Event) : Bool :=
  match Session.Event.taken? e with
  | some x => (w.yielded side).count x < (w.sentOff side.peer).count x
  | none => true

/-- A network that yields everything that was sent off, without delay. -/
def itemNet : TestNet where
  near w :=
    { session := yields w .client
      send := fun _ _ => false
      recv := fun _ _ => false }
  far w :=
    { session := yields w .server
      send := fun _ _ => false
      recv := fun _ _ => false }

theorem itemNet_carriesItems : itemNet.net.CarriesItems := by
  intro w side e x he hitem
  have hyields : yields w side e = true := by
    cases side <;> exact he
  rw [yields, hitem] at hyields
  exact of_decide_eq_true hyields

/-- The client sends a datagram and opens a stream.  Two tasks of the server wait for
the datagram; the first one is cancelled. -/
def twoReceivers : List (Action Unit) :=
  [.far (.session (.call .receiveDatagram)),
    .far (.session (.task 0 (some (.readDatagram .pending)))),
    .far (.session (.call .receiveDatagram)),
    .near (.session (.sendDatagram [1, 2] (.ok ()))),
    .near (.session (.call .openUni)),
    .near (.session (.task 0 (some (.openUni (.ready (.ok ⟨2, none⟩)))))),
    .far (.session (.drop 0)),
    .far (.session (.task 1 (some (.readDatagram (.ready (.ok [1, 2])))))),
    .far (.session (.call .acceptUni)),
    .far (.session (.task 2 (some (.acceptUni (.ready (.ok ⟨2, none⟩))))))]

/-- The second one gets the datagram, once. -/
theorem twoReceivers_handed_over :
    [.datagram [1, 2], .uni 2] <+~
      given (replayTrace (itemNet.tryNext noCodes) new twoReceivers)
        (itemNet.after noCodes new twoReceivers) .client :=
  (handed_over itemNet_carriesItems (TestNet.run_after twoReceivers (by decide))
    .server).2

end WebTransport.Peers
