import WebTransport.Peers.Model
import WebTransport.Streams.EndToEnd

/-!
# Every stream of a connection

A stream is opened at one end and accepted at the other, in the middle of whatever
else happens on the connection.  The halves that the two processes have of it are
still the two ends of one stream and of nothing else: in every run of the whole
system, they do what the ends of a single stream can do.
-/

namespace WebTransport

open Support Wrapper

/-! ## The streams of a connection -/

namespace Connection

/-- The streams whose send halves have been handed out, in that order. -/
def sendStreams (w : World) : List Session.QuicStream :=
  w.session.log.filterMap sendHalf

/-- The streams whose receive halves have been handed out, in that order. -/
def recvStreams (w : World) : List Session.QuicStream :=
  w.session.log.filterMap recvHalf

/-- Each stream has its wrappers. -/
structure Counts (w : World) : Prop where
  sends : w.sends.length = (sendStreams w).length
  recvs : w.recvs.length = (recvStreams w).length

section Counts

variable {errorFromHttp3 : ErrorFromHttp3} {Q : Quic} {w w' : World}
  {l : Session.Action} {s : Session.World}

theorem sendStreams_session
    (h : Session.Step errorFromHttp3 (fun _ e => Q.session w e) w.session l s) :
    s.log.filterMap sendHalf = sendStreams w ++ (l.event.bind sendHalf).toList := by
  rw [Session.log_of_step h, List.filterMap_append, filterMap_toList]
  rfl

theorem recvStreams_session
    (h : Session.Step errorFromHttp3 (fun _ e => Q.session w e) w.session l s) :
    s.log.filterMap recvHalf = recvStreams w ++ (l.event.bind recvHalf).toList := by
  rw [Session.log_of_step h, List.filterMap_append, filterMap_toList]
  rfl

theorem counts_step {l : Action} (h : Step errorFromHttp3 Q w l w') (hw : Counts w) :
    Counts w' := by
  cases step_iff_move.mp h with
  | session l s hs =>
      constructor
      · rw [sendStreams, sendStreams_session hs, List.length_append, List.length_append,
          hw.sends, Option.toList_map, List.length_map]
      · rw [recvStreams, recvStreams_session hs, List.length_append, List.length_append,
          hw.recvs, Option.toList_map, List.length_map]
  | send k l hk hs =>
      constructor
      · rw [List.length_set]
        exact hw.sends
      · exact hw.recvs
  | recv k l hk hs =>
      constructor
      · exact hw.sends
      · rw [List.length_set]
        exact hw.recvs

/-- The wrapper of the `k`-th stream, new if there is none yet. -/
def sendAt (w : World) (priority : Int32) (k : ℕ) : SendStream.World :=
  (w.sends[k]?).getD (SendStream.new priority)

def recvAt (w : World) (k : ℕ) : RecvStream.World :=
  (w.recvs[k]?).getD RecvStream.new

theorem sendAt_of_getElem? {priority : Int32} {k : ℕ} {u : SendStream.World}
    (hk : w.sends[k]? = some u) : sendAt w priority k = u := by
  rw [sendAt, hk, Option.getD_some]

theorem recvAt_of_getElem? {k : ℕ} {u : RecvStream.World}
    (hk : w.recvs[k]? = some u) : recvAt w k = u := by
  rw [recvAt, hk, Option.getD_some]

theorem getD_concat_self {α : Type} {xs : List α} {a b : α} {k : ℕ}
    (h : k = xs.length → b = a) : ((xs ++ [b])[k]?).getD a = (xs[k]?).getD a := by
  rcases Nat.lt_trichotomy k xs.length with hlt | heq | hgt
  · rw [List.getElem?_append_left hlt]
  · rw [heq, List.getElem?_concat_length, List.getElem?_eq_none (Nat.le_refl _)]
    exact h heq
  · rw [List.getElem?_eq_none (by simp; omega), List.getElem?_eq_none (by omega)]

theorem sendAt_step {l : Action} {priority : Int32} {k : ℕ} (hw : Counts w)
    (h : Step errorFromHttp3 Q w l w')
    (hpriority : ∀ x, (sendStreams w')[k]? = some x → x.priority.getD 0 = priority) :
    sendAt w' priority k = sendAt w priority k ∨
      ∃ u l₁, w.sends[k]? = some u ∧
        (SendStream.half errorFromHttp3).Step (fun _ e => Q.send w k e) u l₁
          (sendAt w' priority k) := by
  cases step_iff_move.mp h with
  | session l s hs =>
      left
      rw [sendStreams, sendStreams_session hs] at hpriority
      show ((w.sends ++ _)[k]?).getD _ = (w.sends[k]?).getD _
      cases ho : l.event.bind sendHalf with
      | none => simp
      | some x =>
          rw [ho] at hpriority
          apply getD_concat_self
          intro heq
          have hx : x.priority.getD 0 = priority := by
            apply hpriority
            rw [heq, hw.sends]
            simp
          rw [newSend, hx]
  | @send j l u u' hj hs =>
      by_cases hjk : j = k
      · subst hjk
        refine Or.inr ⟨u, l, hj, ?_⟩
        rw [sendAt_of_getElem? (getElem?_set_of_eq_some hj)]
        exact hs
      · left
        rw [sendAt, sendAt, List.getElem?_set_ne hjk]
  | recv j l hj hs => exact Or.inl rfl

theorem recvAt_step {l : Action} {k : ℕ} (h : Step errorFromHttp3 Q w l w') :
    recvAt w' k = recvAt w k ∨
      ∃ u l₁, w.recvs[k]? = some u ∧
        (RecvStream.half errorFromHttp3).Step (fun _ e => Q.recv w k e) u l₁
          (recvAt w' k) := by
  cases step_iff_move.mp h with
  | session l s hs =>
      left
      show ((w.recvs ++ _)[k]?).getD _ = (w.recvs[k]?).getD _
      cases ho : l.event.bind recvHalf with
      | none => simp
      | some x => exact getD_concat_self fun _ => rfl
  | send j l hj hs => exact Or.inl rfl
  | @recv j l u u' hj hs =>
      by_cases hjk : j = k
      · subst hjk
        refine Or.inr ⟨u, l, hj, ?_⟩
        rw [recvAt_of_getElem? (getElem?_set_of_eq_some hj)]
        exact hs
      · left
        rw [recvAt, recvAt, List.getElem?_set_ne hjk]

theorem streams_isPrefix {l : Action} (h : Step errorFromHttp3 Q w l w') :
    sendStreams w <+: sendStreams w' ∧ recvStreams w <+: recvStreams w' :=
  ⟨(session_log_isPrefix h).filterMap _, (session_log_isPrefix h).filterMap _⟩

end Counts

end Connection

namespace Peers

open Connection

/-- What has been done with the receive half of a stream, which may not have been
handed out yet. -/
inductive RecvLog (c : Connection.World) (id : ℕ) : List RecvStream.Event → Prop
  | handedOut (k : ℕ) (x : Session.QuicStream) (u : RecvStream.World)
      (hx : (recvStreams c)[k]? = some x) (hid : x.id = id)
      (hk : c.recvs[k]? = some u) : RecvLog c id u.log
  | none (h : ∀ x ∈ recvStreams c, x.id ≠ id) : RecvLog c id []

inductive SendLog (c : Connection.World) (id : ℕ) : List SendStream.Event → Prop
  | handedOut (k : ℕ) (x : Session.QuicStream) (u : SendStream.World)
      (hx : (sendStreams c)[k]? = some x) (hid : x.id = id)
      (hk : c.sends[k]? = some u) : SendLog c id u.log
  | none (h : ∀ x ∈ sendStreams c, x.id ≠ id) : SendLog c id []

/-- The network hands out each half of a stream once, and gives its two ends the
answers of one wire: `wires` has one for each stream and each direction. -/
structure Net.CarriesStreams {Url : Type} (N : Net Url)
    (wires : Side → ℕ → Streams.Wire) : Prop where
  send : ∀ {w side k x u e got}, (sendStreams (w.conn side))[k]? = some x →
    (w.conn side).sends[k]? = some u → RecvLog (w.conn side.peer) x.id got →
    (N.quic w side).send (w.conn side) k e → (wires side x.id).send u.log got e
  recv : ∀ {w side k x u e sent}, (recvStreams (w.conn side.peer))[k]? = some x →
    (w.conn side.peer).recvs[k]? = some u → SendLog (w.conn side) x.id sent →
    (N.quic w side.peer).recv (w.conn side.peer) k e →
    (wires side x.id).recv sent u.log e
  freshSend : ∀ {w side e x}, (N.quic w side).session (w.conn side) e →
    sendHalf e = some x → ∀ y ∈ sendStreams (w.conn side), y.id ≠ x.id
  freshRecv : ∀ {w side e x}, (N.quic w side).session (w.conn side) e →
    recvHalf e = some x → ∀ y ∈ recvStreams (w.conn side), y.id ≠ x.id

/-! ## The two ends of one stream -/

section Pairs

variable {Url : Type}

/-- The `k`-th send half at one end and the `m`-th receive half at the other, as far
as there are so many, are those of the stream `id`, and no others are. -/
structure Pairs (w : World Url) (side : Side) (k m id : ℕ) (priority : Int32) :
    Prop where
  send : ∀ j x, (sendStreams (w.conn side))[j]? = some x → (x.id = id ↔ j = k)
  recv : ∀ j x, (recvStreams (w.conn side.peer))[j]? = some x → (x.id = id ↔ j = m)
  priority : ∀ x, (sendStreams (w.conn side))[k]? = some x →
    x.priority.getD 0 = priority

/-- The two halves as the ends of a stream. -/
def World.stream (w : World Url) (side : Side) (k m : ℕ) (priority : Int32) :
    Streams.Ends where
  send := sendAt (w.conn side) priority k
  recv := recvAt (w.conn side.peer) m

variable {w : World Url} {side : Side} {k m id : ℕ} {priority : Int32}

theorem Pairs.recvLog (h : Pairs w side k m id priority)
    (hw : Counts (w.conn side.peer)) :
    RecvLog (w.conn side.peer) id (w.stream side k m priority).recv.log := by
  cases hm : (w.conn side.peer).recvs[m]? with
  | some u =>
      have hlt : m < (recvStreams (w.conn side.peer)).length :=
        hw.recvs ▸ lt_length_of_getElem? hm
      have hx := List.getElem?_eq_getElem hlt
      have hlog : (w.stream side k m priority).recv = u := recvAt_of_getElem? hm
      rw [hlog]
      exact .handedOut m _ u hx ((h.recv m _ hx).mpr rfl) hm
  | none =>
      have hlog : (w.stream side k m priority).recv = RecvStream.new := by
        rw [World.stream, recvAt, hm, Option.getD_none]
      rw [hlog]
      apply RecvLog.none
      intro x hx hid
      obtain ⟨j, hj⟩ := List.mem_iff_getElem?.mp hx
      have hjm : j = m := (h.recv j x hj).mp hid
      have hlt : j < (recvStreams (w.conn side.peer)).length := lt_length_of_getElem? hj
      rw [List.getElem?_eq_none_iff, hw.recvs] at hm
      omega

theorem Pairs.sendLog (h : Pairs w side k m id priority) (hw : Counts (w.conn side)) :
    SendLog (w.conn side) id (w.stream side k m priority).send.log := by
  cases hk : (w.conn side).sends[k]? with
  | some u =>
      have hlt : k < (sendStreams (w.conn side)).length :=
        hw.sends ▸ lt_length_of_getElem? hk
      have hx := List.getElem?_eq_getElem hlt
      have hlog : (w.stream side k m priority).send = u := sendAt_of_getElem? hk
      rw [hlog]
      exact .handedOut k _ u hx ((h.send k _ hx).mpr rfl) hk
  | none =>
      have hlog : (w.stream side k m priority).send = SendStream.new priority := by
        rw [World.stream, sendAt, hk, Option.getD_none]
      rw [hlog]
      apply SendLog.none
      intro x hx hid
      obtain ⟨j, hj⟩ := List.mem_iff_getElem?.mp hx
      have hjk : j = k := (h.send j x hj).mp hid
      have hlt : j < (sendStreams (w.conn side)).length := lt_length_of_getElem? hj
      rw [List.getElem?_eq_none_iff, hw.sends] at hk
      omega

end Pairs

/-! ## Runs of the whole system -/

section Runs

variable {Url : Type} [DecidableEq Url] {errorFromHttp3 : ErrorFromHttp3}
  {parse : String → Except String Url} {N : Net Url} {wires : Side → ℕ → Streams.Wire}
  {w w' : World Url} {l : Action Url} {side : Side} {k m id : ℕ} {priority : Int32}

theorem Pairs.before (h : Pairs w' side k m id priority)
    (hstep : Step errorFromHttp3 parse N w l w') : Pairs w side k m id priority := by
  have hbefore : ∀ side, sendStreams (w.conn side) <+: sendStreams (w'.conn side) ∧
      recvStreams (w.conn side) <+: recvStreams (w'.conn side) := by
    intro side
    rcases hstep.conn side with ⟨c, -, hu⟩ | ⟨-, hsame⟩
    · exact streams_isPrefix hu
    · rw [hsame]
      exact ⟨List.prefix_rfl, List.prefix_rfl⟩
  refine ⟨fun j x hj => ?_, fun j x hj => ?_, fun x hk => ?_⟩
  · exact h.send j x (getElem?_of_isPrefix (hbefore side).1 hj)
  · exact h.recv j x (getElem?_of_isPrefix (hbefore side.peer).2 hj)
  · exact h.priority x (getElem?_of_isPrefix (hbefore side).1 hk)

/-- Whatever step is made, the two ends of a stream make a step of the stream or
none. -/
theorem stream_step (hN : N.CarriesStreams wires)
    (hcounts : ∀ side, Counts (w.conn side))
    (h : Step errorFromHttp3 parse N w l w') (hp : Pairs w' side k m id priority) :
    w'.stream side k m priority = w.stream side k m priority ∨
      ∃ l₁, Streams.Ends.Step errorFromHttp3 (wires side id)
        (w.stream side k m priority) l₁ (w'.stream side k m priority) := by
  have hpairs : Pairs w side k m id priority := hp.before h
  rcases h.conn side with ⟨c, hc, hu⟩ | ⟨-, hsame⟩
  · have hpeer : w'.conn side.peer = w.conn side.peer := by
      rcases h.conn side.peer with ⟨d, hd, -⟩ | ⟨-, hsame⟩
      · cases side <;> cases l <;> first | cases hc; done | cases hd
      · exact hsame
    have hrecv : (w'.stream side k m priority).recv =
        (w.stream side k m priority).recv := by
      rw [World.stream, World.stream, hpeer]
    rcases sendAt_step (hcounts side) hu hp.priority with heq | ⟨u, l₁, hk, hs⟩
    · left
      rw [World.stream, World.stream, heq, hpeer]
    · refine Or.inr ⟨.send l₁, Streams.Ends.step_send_iff.mpr ⟨?_, hrecv⟩⟩
      have hlt : k < (sendStreams (w.conn side)).length :=
        (hcounts side).sends ▸ lt_length_of_getElem? hk
      have hx := List.getElem?_eq_getElem hlt
      have hid := (hpairs.send k _ hx).mpr rfl
      have hsend : (w.stream side k m priority).send = u := sendAt_of_getElem? hk
      rw [hsend]
      refine ⟨hs.1, fun e he => ?_⟩
      have hlog := hpairs.recvLog (hcounts side.peer)
      rw [← hid] at hlog ⊢
      exact hN.send hx hk hlog (hs.2 e he)
  · rcases h.conn side.peer with ⟨c, -, hu⟩ | ⟨-, hpeer⟩
    · have hsend : (w'.stream side k m priority).send =
          (w.stream side k m priority).send := by
        rw [World.stream, World.stream, hsame]
      rcases recvAt_step hu with heq | ⟨u, l₁, hm, hs⟩
      · left
        rw [World.stream, World.stream, heq, hsame]
      · refine Or.inr ⟨.recv l₁, Streams.Ends.step_recv_iff.mpr ⟨?_, hsend⟩⟩
        have hlt : m < (recvStreams (w.conn side.peer)).length :=
          (hcounts side.peer).recvs ▸ lt_length_of_getElem? hm
        have hx := List.getElem?_eq_getElem hlt
        have hid := (hpairs.recv m _ hx).mpr rfl
        have hrecv : (w.stream side k m priority).recv = u := recvAt_of_getElem? hm
        rw [hrecv]
        refine ⟨hs.1, fun e he => ?_⟩
        have hlog := hpairs.sendLog (hcounts side)
        rw [← hid] at hlog ⊢
        exact hN.recv hx hm hlog (hs.2 e he)
    · left
      rw [World.stream, World.stream, hsame, hpeer]

/-- No half is handed out twice. -/
structure Distinct (c : Connection.World) : Prop where
  sends : ((sendStreams c).map Session.QuicStream.id).Nodup
  recvs : ((recvStreams c).map Session.QuicStream.id).Nodup

theorem nodup_ids_concat {xs : List Session.QuicStream} {o : Option Session.QuicStream}
    (h : (xs.map Session.QuicStream.id).Nodup)
    (ho : ∀ x, o = some x → ∀ y ∈ xs, y.id ≠ x.id) :
    ((xs ++ o.toList).map Session.QuicStream.id).Nodup := by
  cases o with
  | none => simpa using h
  | some x =>
      have hnew : x.id ∉ xs.map Session.QuicStream.id := by
        intro hmem
        obtain ⟨y, hy, hid⟩ := List.mem_map.mp hmem
        exact ho x rfl y hy hid
      rw [Option.toList_some, List.map_append, List.map_singleton,
        ← List.concat_eq_append]
      exact h.concat hnew

theorem distinct_step (hN : N.CarriesStreams wires)
    (h : Step errorFromHttp3 parse N w l w') (side : Side)
    (hw : Distinct (w.conn side)) : Distinct (w'.conn side) := by
  rcases h.conn side with ⟨c, -, hu⟩ | ⟨-, hsame⟩
  · generalize w'.conn side = d at hu ⊢
    cases step_iff_move.mp hu with
    | session l s hs =>
        have hfresh : ∀ e, l.event = some e → (N.quic w side).session (w.conn side) e :=
          fun e he => hs.2 e he
        constructor
        · rw [sendStreams, sendStreams_session hs]
          apply nodup_ids_concat hw.sends
          intro x hx
          obtain ⟨e, he, hhalf⟩ := Option.bind_eq_some_iff.mp hx
          exact hN.freshSend (hfresh e he) hhalf
        · rw [recvStreams, recvStreams_session hs]
          apply nodup_ids_concat hw.recvs
          intro x hx
          obtain ⟨e, he, hhalf⟩ := Option.bind_eq_some_iff.mp hx
          exact hN.freshRecv (hfresh e he) hhalf
    | send | recv => exact ⟨hw.sends, hw.recvs⟩
  · rw [hsame]
    exact hw

/-- What holds of the streams in every state of every run. -/
structure Streaming (errorFromHttp3 : ErrorFromHttp3)
    (wires : Side → ℕ → Streams.Wire) (w : World Url) : Prop where
  counts : ∀ side, Counts (w.conn side)
  distinct : ∀ side, Distinct (w.conn side)
  streams : ∀ side k m id priority, Pairs w side k m id priority →
    Reachable (Streams.Ends.Step errorFromHttp3 (wires side id)) (.new priority)
      (w.stream side k m priority)

theorem streaming_of_reachable (hN : N.CarriesStreams wires)
    (h : Reachable (Step errorFromHttp3 parse N) new w) :
    Streaming errorFromHttp3 wires w := by
  refine h.invariant (I := Streaming errorFromHttp3 wires) ?_ ?_
  · intro u l v hstep hu
    refine ⟨fun side => ?_, fun side => distinct_step hN hstep side (hu.distinct side),
      fun side k m id priority hp => ?_⟩
    · rcases hstep.conn side with ⟨c, -, hc⟩ | ⟨-, hsame⟩
      · exact counts_step hc (hu.counts side)
      · rw [hsame]
        exact hu.counts side
    · have hbefore := hu.streams side k m id priority (hp.before hstep)
      rcases stream_step hN hu.counts hstep hp with heq | ⟨l₁, hl⟩
      · rw [heq]
        exact hbefore
      · exact hbefore.tail hl
  · refine ⟨fun side => ?_, fun side => ?_, fun side k m id priority _ => ?_⟩
    · cases side <;> exact ⟨rfl, rfl⟩
    · cases side <;> exact ⟨List.nodup_nil, List.nodup_nil⟩
    · cases side <;> exact Reachable.refl

/-- In every run of the two processes, the halves that they have of one stream are in
a state that the two ends of a single stream can reach by themselves: nothing that
happens to other streams, to the session or to the endpoints changes that.  So what
is read from any stream of the connection is what was written to this stream at the
other end, if QUIC is reliable on it and no read was given up inside QUIC. -/
theorem streams_stand_alone (hN : N.CarriesStreams wires)
    (h : Reachable (Step errorFromHttp3 parse N) new w) (side : Side)
    {x y : Session.QuicStream} {u : SendStream.World} {v : RecvStream.World}
    (hx : (sendStreams (w.conn side))[k]? = some x)
    (hy : (recvStreams (w.conn side.peer))[m]? = some y) (hid : y.id = x.id)
    (hu : (w.conn side).sends[k]? = some u) (hv : (w.conn side.peer).recvs[m]? = some v) :
    Reachable (Streams.Ends.Step errorFromHttp3 (wires side x.id))
        (.new (x.priority.getD 0)) ⟨u, v⟩ ∧
      ((wires side x.id).Reliable → ¬ RecvStream.Seen RecvStream.Event.spoils v.log →
        Streams.Ends.Delivers ⟨u, v⟩) := by
  have hw := streaming_of_reachable hN h
  have hpairs : Pairs w side k m x.id (x.priority.getD 0) := by
    refine ⟨fun j z hj => ⟨fun hz => ?_, ?_⟩, fun j z hj => ⟨fun hz => ?_, ?_⟩,
      fun z hz => ?_⟩
    · exact eq_of_key_eq (hw.distinct side).sends hj hx hz
    · rintro rfl
      rw [Option.some.inj (hj.symm.trans hx)]
    · exact eq_of_key_eq (hw.distinct side.peer).recvs hj hy (hz.trans hid.symm)
    · rintro rfl
      rw [Option.some.inj (hj.symm.trans hy), hid]
    · rw [Option.some.inj (hz.symm.trans hx)]
  have hstream : w.stream side k m (x.priority.getD 0) = ⟨u, v⟩ := by
    rw [World.stream, sendAt_of_getElem? hu, recvAt_of_getElem? hv]
  have hreach := hw.streams side k m x.id _ hpairs
  rw [hstream] at hreach
  exact ⟨hreach, fun hwire hclean =>
    Streams.delivers_of_reachable hwire hreach hclean⟩

end Runs

/-! ## A connection with one stream -/

def paired (w : World Unit) : Bool :=
  sendStreams w.near = [⟨0, none⟩] && recvStreams w.far = [⟨0, none⟩] &&
    w.near.sends.length = 1

/-- A network without delay, on which the client can open one stream. -/
def oneStream : TestNet where
  near w :=
    { session := fun
        | .openUni (.ready (.ok x)) => x = ⟨0, none⟩ && sendStreams w.near = []
        | _ => false
      send := fun k e => (w.near.sends[k]?).any fun u => SendStream.openSession u.log e
      recv := fun _ _ => false }
  far w :=
    { session := fun
        | .acceptUni (.ready (.ok x)) => x = ⟨0, none⟩ && recvStreams w.far = []
        | _ => false
      send := fun _ _ => false
      recv := fun k e => paired w && (w.near.sends[0]?).any fun u =>
        (w.far.recvs[k]?).any fun v => Streams.directRecv u.log v.log e }

theorem oneStream_carriesStreams :
    oneStream.net.CarriesStreams fun _ _ => Streams.directWire.wire where
  send := by
    rintro w (_ | _) k x u e got hx hk hlog h
    · change (w.near.sends[k]?).any _ = true at h
      have hk' : w.near.sends[k]? = some u := hk
      rw [hk'] at h
      exact h
    · cases h
  recv := by
    rintro w (_ | _) k x v e sent hx hk hlog h
    · change (paired w && _) = true at h
      have hk' : w.far.recvs[k]? = some v := hk
      rw [hk', Bool.and_eq_true] at h
      obtain ⟨hpaired, h⟩ := h
      simp only [paired, Bool.and_eq_true, decide_eq_true_eq] at hpaired
      obtain ⟨⟨hsends, hrecvs⟩, hone⟩ := hpaired
      have hzero : x = ⟨0, none⟩ := by
        have hmem : x ∈ recvStreams w.far := List.mem_of_getElem? hx
        rw [hrecvs] at hmem
        exact List.mem_singleton.mp hmem
      subst hzero
      cases hlog with
      | handedOut j y u hy hid hj =>
          have hj' : w.near.sends[j]? = some u := hj
          have hlt : j < w.near.sends.length := lt_length_of_getElem? hj'
          obtain rfl : j = 0 := by omega
          rw [hj'] at h
          exact h
      | none hnone =>
          have hmem : (⟨0, none⟩ : Session.QuicStream) ∈ sendStreams w.near := by
            rw [hsends]
            exact List.mem_singleton.mpr rfl
          exact absurd rfl (hnone _ hmem)
    · cases h
  freshSend := by
    rintro w (_ | _) e x h hx y hy
    · simp only [Net.quic, TestNet.net, oneStream, Connection.TestQuic.quic] at h
      split at h
      · simp only [Bool.and_eq_true, decide_eq_true_eq] at h
        have hy' : y ∈ sendStreams w.near := hy
        rw [h.2] at hy'
        cases hy'
      · cases h
    · simp only [Net.quic, TestNet.net, oneStream, Connection.TestQuic.quic] at h
      split at h
      · cases hx
      · cases h
  freshRecv := by
    rintro w (_ | _) e x h hx y hy
    · simp only [Net.quic, TestNet.net, oneStream, Connection.TestQuic.quic] at h
      split at h
      · cases hx
      · cases h
    · simp only [Net.quic, TestNet.net, oneStream, Connection.TestQuic.quic] at h
      split at h
      · simp only [Bool.and_eq_true, decide_eq_true_eq] at h
        have hy' : y ∈ recvStreams w.far := hy
        rw [h.2] at hy'
        cases hy'
      · cases h

/-- The client opens the stream and writes to it, and the server accepts it and reads
it to its end. -/
def oneStreamSteps : List (Action Unit) :=
  [.near (.session (.call .openUni)),
    .near (.session (.task 0 (some (.openUni (.ready (.ok ⟨0, none⟩)))))),
    .far (.session (.call .acceptUni)),
    .far (.session (.task 0 (some (.acceptUni (.ready (.ok ⟨0, none⟩))))))] ++
  Streams.twoWritesAndExit.map (fun l => .near (.send 0 l)) ++
  Streams.twoReads.map (fun l => .far (.recv 0 l))

def oneStreamRead : World Unit :=
  oneStream.after noCodes new oneStreamSteps

theorem oneStreamRead_delivers :
    ∃ u v, oneStreamRead.near.sends[0]? = some u ∧ oneStreamRead.far.recvs[0]? = some v ∧
      Streams.Ends.Delivers ⟨u, v⟩ := by
  have hboth := streams_stand_alone oneStream_carriesStreams
    (TestNet.run_after oneStreamSteps (by decide)).reachable .client (k := 0) (m := 0)
    (x := ⟨0, none⟩) (y := ⟨0, none⟩) rfl rfl rfl (w := oneStreamRead) rfl rfl
  exact ⟨_, _, rfl, rfl, hboth.2 Streams.directWire_reliable (by decide)⟩

end Peers

end WebTransport
