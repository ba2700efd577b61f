import WebTransport.Connection.Ending
import WebTransport.Peers.Asked
import WebTransport.Peers.Model

/-!
# What the peer is told about a close

A session is closed with a code and a reason, by a call or by an exit; an endpoint
closes all its connections with a code that goes out as it is.  The peer learns of
it as a `SessionClosedByPeer`, from whatever it was doing.  Every such exception
that carries a code carries one that was asked for at the other end, and what is
left of the reason that was given with it.
-/

namespace WebTransport

open Support Wrapper

namespace Connection

/-- The QUIC connection can report the error to one of the wrappers. -/
inductive Quic.Reports (Q : Quic) (w : World) (err : SessionError) : Prop
  | session (e : Session.Event) (he : Q.session w e) (herr : e.error? = some err)
  | send (k : ℕ) (e : SendStream.Event) (he : Q.send w k e)
      (herr : e.sessionError? = some err)
  | recv (k : ℕ) (e : RecvStream.Event) (he : Q.recv w k e)
      (herr : e.sessionError? = some err)

/-- A QUIC connection that gives any answer, if it is not an error or is one of
`R`. -/
def reportsOnly (R : SessionError → Prop) : Quic where
  session _ e := ∀ err, e.error? = some err → R err
  send _ _ e := ∀ err, e.sessionError? = some err → R err
  recv _ _ e := ∀ err, e.sessionError? = some err → R err

section Reports

variable {errorFromHttp3 : ErrorFromHttp3} {Q : Quic} {w : World} {l : Action}
  {R : SessionError → Prop} {tr : List (World × Action)}

theorem allowed_reportsOnly (h : Allowed Q w l) (hR : ∀ err, Q.Reports w err → R err) :
    Allowed (reportsOnly R) w l := by
  cases l with
  | session l =>
      intro e he err herr
      exact hR err (.session e (h e he) herr)
  | send k l =>
      intro e he err herr
      exact hR err (.send k e (h e he) herr)
  | recv k l =>
      intro e he err herr
      exact hR err (.recv k e (h e he) herr)

theorem reported_of_reportsOnly
    (h : Run (Step errorFromHttp3 (reportsOnly R)) new tr w) :
    Reported errorFromHttp3 R w := by
  have hall : Along (fun u l => Allowed (reportsOnly R) u l) tr :=
    (h.invariant_along (I := fun _ => True) (fun _ _ _ _ hstep _ => ⟨trivial, hstep.2⟩)
      along_true trivial).2
  refine parts_of_run h (hall.mono ?_)
  intro u l hl
  cases l with
  | session l => exact hl
  | send k l => exact fun v _ => hl
  | recv k l => exact fun v _ => hl

end Reports

end Connection

namespace Peers

/-! ## What QUIC carries -/

/-- The code and the reason of a `CONNECTION_CLOSE` frame of the peer's
application. -/
def applicationClosed? : SessionError → Option (UInt64 × List UInt8)
  | .connectionError (.applicationClosed code reason)
  | .sendDatagramError (.connectionLost (.applicationClosed code reason)) =>
      some (code, reason)
  | _ => none

/-- The report of a close of the peer, after the peer has made the given closes of
its session and its endpoint.  A frame whose code is not one of WebTransport may
come from the HTTP/3 layer, or from a connection that was given up; a frame with
such a code, like a capsule, does not.  A long reason may have been cut off. -/
structure Carried (errorFromHttp3 : ErrorFromHttp3) (errorToHttp3 : UInt32 → UInt64)
    (session : List Session.Event) (endpoint : List (UInt64 × List UInt8))
    (err : SessionError) : Prop where
  capsule : ∀ {code text}, err = .webTransportError (.closed code text) →
    ∃ bytes p, .close code bytes ∈ session ∧ p <+: bytes ∧ text = fromUtf8Lossy p
  frame : ∀ {h p c}, applicationClosed? err = some (h, p) →
    errorFromHttp3 h = some c → ∃ bytes, p <+: bytes ∧
      ((∃ code, errorToHttp3 code = h ∧ .close code bytes ∈ session) ∨
        (h, bytes) ∈ endpoint)

section Closes

variable {Url : Type}

def World.endpointCloses (w : World Url) : Side → List (UInt64 × List UInt8)
  | .client => w.client.log.filterMap Client.Event.close?
  | .server => w.server.log.filterMap Server.Event.close?

/-- What either end is told about a close was done at the other. -/
def Net.CarriesCloses (errorFromHttp3 : ErrorFromHttp3)
    (errorToHttp3 : UInt32 → UInt64) (N : Net Url) : Prop :=
  ∀ w side err, (N.quic w side).Reports (w.conn side) err →
    Carried errorFromHttp3 errorToHttp3 (w.conn side.peer).session.log
      (w.endpointCloses side.peer) err

/-- A close with the code was asked for, with a reason of which `out` is left.  The
code of an endpoint is turned into a code of WebTransport by the peer. -/
inductive AskedClose (errorFromHttp3 : ErrorFromHttp3)
    (session : List (UInt32 × String)) (endpoint : List (UInt64 × String)) :
    UInt64 → String → Prop
  | session (code : UInt32) (reason out : String) (hmem : (code, reason) ∈ session)
      (hout : Remains reason out) :
      AskedClose errorFromHttp3 session endpoint code.toUInt64 out
  | endpoint (h : UInt64) (code : UInt32) (reason out : String)
      (hmem : (h, reason) ∈ endpoint) (hcode : errorFromHttp3 h = some code)
      (hout : Remains reason out) :
      AskedClose errorFromHttp3 session endpoint code.toUInt64 out

section Asked

variable {errorFromHttp3 : ErrorFromHttp3} {errorToHttp3 : UInt32 → UInt64}
  {log log' : List Session.Event} {ends ends' : List (UInt64 × List UInt8)}
  {err : SessionError}

theorem Carried.mono (h : Carried errorFromHttp3 errorToHttp3 log ends err)
    (hlog : log ⊆ log') (hends : ends ⊆ ends') :
    Carried errorFromHttp3 errorToHttp3 log' ends' err where
  capsule herr := by
    obtain ⟨bytes, p, hmem, hp, htext⟩ := h.capsule herr
    exact ⟨bytes, p, hlog hmem, hp, htext⟩
  frame herr hc := by
    obtain ⟨bytes, hp, ⟨code, hcode, hmem⟩ | hmem⟩ := h.frame herr hc
    · exact ⟨bytes, hp, Or.inl ⟨code, hcode, hlog hmem⟩⟩
    · exact ⟨bytes, hp, Or.inr (hends hmem)⟩

/-- A `SessionClosedByPeer` with a code comes from a capsule, from a frame of the
application, or from QUIC itself. -/
theorem closedByPeer_cases {msg source reason : String} {code : UInt64}
    (h : mapSessionError errorFromHttp3 err =
      .sessionClosedByPeer msg source (some code) reason) :
    (∃ c, err = .webTransportError (.closed c reason) ∧ code = c.toUInt64) ∨
    (∃ h p c, applicationClosed? err = some (h, p) ∧ errorFromHttp3 h = some c ∧
      code = c.toUInt64 ∧ reason = fromUtf8Lossy p) ∨
    source = "transport" := by
  have hconnection : ∀ {err : ConnectionError},
      mapConnectionError errorFromHttp3 err =
        .sessionClosedByPeer msg source (some code) reason →
      (∃ h p c, err = .applicationClosed h p ∧ errorFromHttp3 h = some c ∧
        code = c.toUInt64 ∧ reason = fromUtf8Lossy p) ∨ source = "transport" := by
    intro err h
    cases err with
    | applicationClosed e p =>
        simp only [mapConnectionError, newSessionClosedByPeer,
          PyErr.sessionClosedByPeer.injEq, Option.map_eq_some_iff] at h
        obtain ⟨-, -, ⟨c, hc, hcode⟩, hreason⟩ := h
        exact Or.inl ⟨e, p, c, rfl, hc, hcode.symm, hreason.symm⟩
    | connectionClosed e p =>
        simp only [mapConnectionError, newSessionClosedByPeer,
          PyErr.sessionClosedByPeer.injEq] at h
        exact Or.inr h.2.1.symm
    | reset =>
        simp [mapConnectionError, newSessionClosedByPeer] at h
    | _ => cases h
  have hlost : ∀ {lost : ConnectionError},
      applicationClosed? err = applicationClosed? (.connectionError lost) →
      mapConnectionError errorFromHttp3 lost =
        .sessionClosedByPeer msg source (some code) reason →
      (∃ c, err = .webTransportError (.closed c reason) ∧ code = c.toUInt64) ∨
      (∃ h p c, applicationClosed? err = some (h, p) ∧ errorFromHttp3 h = some c ∧
        code = c.toUInt64 ∧ reason = fromUtf8Lossy p) ∨
      source = "transport" := by
    intro lost hsame hlost
    rcases hconnection hlost with ⟨e, p, c, rfl, hrest⟩ | hsource
    · exact Or.inr (Or.inl ⟨e, p, c, hsame, hrest⟩)
    · exact Or.inr (Or.inr hsource)
  cases err with
  | webTransportError err =>
      cases err with
      | closed c text =>
          simp only [mapSessionError, newSessionClosedByPeer,
            PyErr.sessionClosedByPeer.injEq, Option.some.injEq] at h
          obtain ⟨-, -, rfl, rfl⟩ := h
          exact Or.inl ⟨c, rfl, rfl⟩
      | other display => cases h
  | connectionError lost => exact hlost rfl h
  | sendDatagramError err =>
      cases err with
      | connectionLost lost => exact hlost (by cases lost <;> rfl) h
      | _ => cases h

/-- From the closes that QUIC has carried to those that were asked for. -/
theorem askedClose_of_carried {session : List (UInt32 × String)}
    {endpoint : List (UInt64 × String)} {msg source reason : String} {code : UInt64}
    (hcodes : ∀ c, errorFromHttp3 (errorToHttp3 c) = some c)
    (hsession : Obeys session (log.filterMap Session.Event.close?))
    (hendpoint : Obeys endpoint ends)
    (h : Carried errorFromHttp3 errorToHttp3 log ends err)
    (he : mapSessionError errorFromHttp3 err =
      .sessionClosedByPeer msg source (some code) reason)
    (hsource : source ≠ "transport") :
    AskedClose errorFromHttp3 session endpoint code reason := by
  rcases closedByPeer_cases he with ⟨c, rfl, rfl⟩ | ⟨e, p, c, herr, hc, rfl, rfl⟩ |
    htransport
  · obtain ⟨bytes, p, hmem, hp, rfl⟩ := h.capsule rfl
    obtain ⟨asked, hasked, rfl⟩ := hsession _ _ (List.mem_filterMap.mpr ⟨_, hmem, rfl⟩)
    exact .session c asked _ hasked (remains_of_isPrefix hp)
  · obtain ⟨bytes, hp, ⟨d, hd, hmem⟩ | hmem⟩ := h.frame herr hc
    · obtain ⟨asked, hasked, rfl⟩ :=
        hsession _ _ (List.mem_filterMap.mpr ⟨_, hmem, rfl⟩)
      have hdc : d = c := by
        have hfrom : errorFromHttp3 (errorToHttp3 d) = some d := hcodes d
        rw [hd, hc] at hfrom
        exact (Option.some.inj hfrom).symm
      subst hdc
      exact .session d asked _ hasked (remains_of_isPrefix hp)
    · obtain ⟨asked, hasked, rfl⟩ := hendpoint _ _ hmem
      exact .endpoint e c asked _ hasked hc (remains_of_isPrefix hp)
  · exact absurd htransport hsource

end Asked

/-! ## From end to end -/

/-- The closes of the session that were asked for at one end. -/
def sessionAsked (tr : List (World Url × Action Url)) (side : Side) :
    List (UInt32 × String) :=
  tr.filterMap fun p =>
    (p.2.conn? side).bind fun l => l.session?.bind Session.Action.asked?

/-- The closes that were asked for of the endpoint at one end. -/
def endpointAsked (tr : List (World Url × Action Url)) : Side → List (UInt64 × String)
  | .client => tr.filterMap fun p => p.2.client?.bind Client.Action.asked?
  | .server => tr.filterMap fun p => p.2.server?.bind Server.Action.asked?

structure Grows (u v : World Url) : Prop where
  session : ∀ side, (u.conn side).session.log <+: (v.conn side).session.log
  endpoint : ∀ side, u.endpointCloses side <+: v.endpointCloses side

theorem Grows.trans {u v w : World Url} (huv : Grows u v) (hvw : Grows v w) :
    Grows u w where
  session side := (huv.session side).trans (hvw.session side)
  endpoint side := (huv.endpoint side).trans (hvw.endpoint side)

section Runs

variable [DecidableEq Url] {errorFromHttp3 : ErrorFromHttp3}
  {errorToHttp3 : UInt32 → UInt64} {parse : String → Except String Url} {N : Net Url}
  {w w' : World Url} {l : Action Url} {tr : List (World Url × Action Url)}

theorem grows_of_step (h : Step errorFromHttp3 parse N w l w') : Grows w w' where
  session := session_log_isPrefix h
  endpoint side := by
    cases h.move with
    | near | far => cases side <;> exact List.prefix_rfl
    | client l u hu =>
        cases side with
        | client => exact (Client.log_isPrefix hu).filterMap _
        | server => exact List.prefix_rfl
    | server l u hu =>
        cases side with
        | client => exact List.prefix_rfl
        | server => exact (Server.log_isPrefix hu).filterMap _

theorem along_grows (h : Run (Step errorFromHttp3 parse N) w tr w') :
    Along (fun u _ => Grows u w') tr :=
  h.along_below (fun _ _ _ => grows_of_step) Grows.trans

theorem session_of_run (hN : N.CarriesCloses errorFromHttp3 errorToHttp3)
    (h : Run (Step errorFromHttp3 parse N) new tr w) (side : Side) :
    Obeys (sessionAsked tr side)
        ((w.conn side).session.log.filterMap Session.Event.close?) ∧
      Connection.Reported errorFromHttp3 (Carried errorFromHttp3 errorToHttp3
        (w.conn side.peer).session.log (w.endpointCloses side.peer)) (w.conn side) := by
  have hallowed : Along (fun u _ => ∀ c,
      Connection.Allowed (N.quic u side) (u.conn side) c →
      Connection.Allowed (Connection.reportsOnly (Carried errorFromHttp3 errorToHttp3
        (w.conn side.peer).session.log (w.endpointCloses side.peer)))
        (u.conn side) c) tr := by
    refine (along_grows h).mono fun u l hgrows c hc => ?_
    apply Connection.allowed_reportsOnly hc
    intro err hreports
    exact (hN u side err hreports).mono (hgrows.session side.peer).subset
      (hgrows.endpoint side.peer).subset
  have hrun := run_conn h hallowed
  rw [conn_new] at hrun
  refine ⟨?_, Connection.reported_of_reportsOnly hrun⟩
  have hobeys := Session.closes_obey (Connection.run_session hrun)
  rw [filterMap_projectTrace] at hobeys
  rwa [filterMap_projectTrace fun l : Connection.Action =>
    l.session?.bind Session.Action.asked?] at hobeys

theorem endpoint_of_run (h : Run (Step errorFromHttp3 parse N) new tr w) (side : Side) :
    Obeys (endpointAsked tr side) (w.endpointCloses side) := by
  cases side with
  | client =>
      have hobeys := Client.closes_obey (run_client h)
      rw [filterMap_projectTrace] at hobeys
      exact hobeys
  | server =>
      have hobeys := Server.closes_obey (run_server h)
      rw [filterMap_projectTrace] at hobeys
      exact hobeys

/-- Whoever is told that the peer has closed the session with a code, on the session
or on any half of any stream, at either end: a call or an exit at the other end has
asked for a close with this code, of the session or of the endpoint, and the reason
is what is left of the one that was given there. -/
theorem closes_reach_peer (hN : N.CarriesCloses errorFromHttp3 errorToHttp3)
    (hcodes : ∀ c, errorFromHttp3 (errorToHttp3 c) = some c)
    (h : Run (Step errorFromHttp3 parse N) new tr w) (side : Side)
    {msg source reason : String} {code : UInt64} (hsource : source ≠ "transport")
    (htold : (w.conn side).Tells (.sessionClosedByPeer msg source (some code) reason)) :
    AskedClose errorFromHttp3 (sessionAsked tr side.peer) (endpointAsked tr side.peer)
      code reason := by
  have hcls : (PyErr.sessionClosedByPeer msg source (some code) reason).cls ∈
      connectionClasses :=
    List.mem_cons_self
  have hstream : PyErr.sessionClosedByPeer msg source (some code) reason ∉
      Connection.streamErrors := by
    simp [Connection.streamErrors]
  obtain ⟨err, hcarried, he⟩ := (session_of_run hN h side).2.told htold hcls hstream
  exact askedClose_of_carried hcodes (session_of_run hN h side.peer).1
    (endpoint_of_run h side.peer) hcarried he.symm hsource

end Runs

end Closes

/-! ## A session that the server closes -/

/-- `web_transport_proto::error_to_http3` -/
def toHttp3 (code : UInt32) : UInt64 :=
  .ofNat (0x52e4a40fa8db + code.toNat + code.toNat / 0x1e)

/-- `web_transport_proto::error_from_http3` -/
def fromHttp3 (code : UInt64) : Option UInt32 :=
  if 0x52e4a40fa8db ≤ code.toNat ∧ code.toNat ≤ 0x52e5ac983162 then
    some (.ofNat (code.toNat - 0x52e4a40fa8db -
      (code.toNat - 0x52e4a40fa8db) / 0x1f))
  else none

theorem fromHttp3_toHttp3 (code : UInt32) : fromHttp3 (toHttp3 code) = some code := by
  have hlt : code.toNat < 2 ^ 32 := code.toNat_lt
  have hto : (toHttp3 code).toNat = 0x52e4a40fa8db + code.toNat + code.toNat / 0x1e := by
    rw [toHttp3, UInt64.toNat_ofNat', Nat.mod_eq_of_lt]
    omega
  rw [fromHttp3, hto, if_pos (by omega), Option.some.injEq, ← UInt32.toNat_inj,
    UInt32.toNat_ofNat']
  omega

def wasClosed (log : List Session.Event) (code : UInt32) (text : String) : Bool :=
  log.any fun
    | .close c reason => c = code && fromUtf8Lossy reason = text
    | _ => false

/-- A network that carries the close capsules of the server, without delay. -/
def closingNet : TestNet where
  near w :=
    { session := fun
        | .acceptUni (.ready (.error (.webTransportError (.closed code text)))) =>
            wasClosed w.far.session.log code text
        | _ => false
      send := fun _ _ => false
      recv := fun _ _ => false }
  far _ :=
    { session := fun
        | .close _ _ => true
        | _ => false
      send := fun _ _ => false
      recv := fun _ _ => false }

theorem closingNet_carriesCloses :
    closingNet.net.CarriesCloses fromHttp3 toHttp3 := by
  rintro w (_ | _) err (⟨e, he, herr⟩ | ⟨k, e, he, herr⟩ | ⟨k, e, he, herr⟩)
  · simp only [Net.quic, TestNet.net, closingNet, Connection.TestQuic.quic] at he
    split at he
    · cases herr
      obtain ⟨ev, hev, hmatch⟩ := List.any_eq_true.mp he
      split at hmatch
      · simp only [Bool.and_eq_true, decide_eq_true_eq] at hmatch
        obtain ⟨rfl, rfl⟩ := hmatch
        constructor
        · rintro code text ⟨⟩
          exact ⟨_, _, hev, List.prefix_rfl, rfl⟩
        · intro h p c happlication
          cases happlication
      · cases hmatch
    · cases he
  · cases he
  · cases he
  · simp only [Net.quic, TestNet.net, closingNet, Connection.TestQuic.quic] at he
    split at he
    · cases herr
    · cases he
  · cases he
  · cases he

/-- The server closes the session with `7`, and a waiting `accept_uni` of the client
learns of it. -/
def closedByServer : List (Action Unit) :=
  [.near (.session (.call .acceptUni)), .far (.session (.close 7 "bye")),
    .near (.session (.task 0
      (some (.acceptUni (.ready (.error (.webTransportError (.closed 7 "bye"))))))))]

/-- The `7` and the reason were asked for. -/
theorem closedByServer_asked :
    AskedClose fromHttp3
      (sessionAsked (replayTrace (closingNet.tryNext fromHttp3) new closedByServer)
        .server)
      (endpointAsked (replayTrace (closingNet.tryNext fromHttp3) new closedByServer)
        .server)
      7 "bye" :=
  have htold : ((replayEnd (closingNet.tryNext fromHttp3) new closedByServer).conn
      .client).Tells (.sessionClosedByPeer "peer closed session (code 7): bye" "session"
        (some 7) "bye") :=
    .session (.op .acceptUni) (by decide)
  closes_reach_peer closingNet_carriesCloses fromHttp3_toHttp3
    (TestNet.run_after closedByServer (by decide)) .client (by decide) htold

end Peers

end WebTransport
