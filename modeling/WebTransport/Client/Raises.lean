import WebTransport.Client.Model
import WebTransport.Errors.Hierarchy

/-!
# What the client raises

A session that could not be established is a `ConnectError` to Python, whatever
the reason was.  Each failure that the QUIC client reports is raised once, by the
`connect` that it belongs to, and in the order of the reports; beside these there
are only the two checks of arguments.
-/

namespace WebTransport.Client

open Support Wrapper

section Documents

variable {Url : Type}

/-- A failure that the QUIC client reports, as Python is told of it. -/
def Event.failure? : Event Url → Option (Caller Url × PyErr)
  | .connect url (.ready (.error e)) => some (.op (.connect url), mapClientError e)
  | _ => none

def Caller.isOp : Caller Url → Bool
  | .op _ => true
  | _ => false

def Action.caller? : Action Url → Option (Caller Url)
  | .call c => some (.call c)
  | .close code _ => some (.close code)
  | _ => none

/-- What the calls raise by themselves. -/
inductive Refused (parse : String → Except String Url) : Caller Url → PyErr → Prop
  | url (url display : String) (hurl : parse url = .error display) :
      Refused parse (.call (.connect url)) (.valueError s!"invalid URL: {display}")
  | code (code : UInt64) (hcode : 2 ^ 62 ≤ code.toNat) :
      Refused parse (.close code) (.valueError "code must be less than 2**62")

/-- Everything that was raised has a reason. -/
structure Accounted (parse : String → Except String Url) (w : World Url) : Prop where
  awaited : w.told.filter (fun x => x.1.isOp) = w.log.filterMap Event.failure?
  refused : ∀ c e, (c, e) ∈ w.told → c.isOp = false → Refused parse c e

/-- The classes that the type stubs list for a call. -/
def Caller.raises : Caller Url → List ExcClass
  | .call (.connect _) | .close _ => [.valueError]
  | .op (.connect _) => [.connectError, .sessionTimeout, .protocolError]
  | _ => []

/-- What is known of an exception that a call has raised, with the calls on the
QUIC client so far.  Two of the three classes that are listed for `connect` are
never raised. -/
structure Caller.Documents (log : List (Event Url)) (c : Caller Url) (e : PyErr) :
    Prop where
  listed : ∃ cls ∈ c.raises, e.CaughtBy cls
  awaited : c.isOp = true → e.CaughtBy .connectError ∧
    ¬ e.CaughtBy .sessionTimeout ∧ ¬ e.CaughtBy .protocolError
  rejected : ∀ {msg status}, e = .sessionRejected msg status → ∃ url,
    c = .op (.connect url) ∧
      .connect url (.ready (.error (.wrongStatus (some status) msg))) ∈ log

variable {parse : String → Except String Url} {log : List (Event Url)}
  {c : Caller Url} {e : PyErr}

/-- The error of a `connect` is a `ConnectError`, and a `SessionRejected` only for
a status that has arrived. -/
theorem documents_failure {url : Url} {err : ClientError}
    (hmem : .connect url (.ready (.error err)) ∈ log) :
    Caller.Documents log (.op (.connect url)) (mapClientError err) := by
  have hcls : (mapClientError err).cls = .connectError ∨
      (mapClientError err).cls = .sessionRejected := by
    match err with
    | .wrongStatus (some status) display => exact Or.inr rfl
    | .wrongStatus none display | .other display => exact Or.inl rfl
  have hconnect : (mapClientError err).CaughtBy .connectError := by
    unfold PyErr.CaughtBy
    rcases hcls with hcls | hcls <;> rw [hcls] <;> decide
  refine ⟨⟨.connectError, List.mem_cons_self, hconnect⟩, fun _ => ⟨hconnect, ?_, ?_⟩, ?_⟩
  · unfold PyErr.CaughtBy
    rcases hcls with hcls | hcls <;> rw [hcls] <;> decide
  · unfold PyErr.CaughtBy
    rcases hcls with hcls | hcls <;> rw [hcls] <;> decide
  · intro msg status he
    match err with
    | .wrongStatus (some s) display =>
        cases he
        exact ⟨url, rfl, hmem⟩
    | .wrongStatus none display | .other display => cases he

theorem documents_refused (h : Refused parse c e) : c.Documents log e := by
  have hvalue : ExcClass.IsSubclass .valueError .valueError := by decide
  cases h with
  | url | code =>
      refine ⟨⟨.valueError, List.mem_cons_self, hvalue⟩, fun hc => ?_, fun he => ?_⟩
      · cases hc
      · cases he

end Documents

section Raises

variable {Url : Type} [DecidableEq Url] {parse : String → Except String Url}
  {Q : Answers (Event Url)} {op : Op Url} {pc : Pc} {ans : Option (Event Url)}
  {w w' : World Url} {l : Action Url}

/-- What a client has raised, and what its next step raises. -/
structure World.Documented (parse : String → Except String Url) (Q : Answers (Event Url))
    (w : World Url) : Prop where
  awaited : w.told.filter (fun x => x.1.isOp) = w.log.filterMap Event.failure?
  documents : ∀ c e, (c, e) ∈ w.told → c.Documents w.log e
  refused : ∀ c e, (c, e) ∈ w.told → c.isOp = false → Refused parse c e
  refuses : ∀ {l w'}, Step parse Q w l w' → ∀ c e, c.isOp = false →
    (w'.told = w.told ++ [(c, e)] ↔ l.caller? = some c ∧ Refused parse c e)
  unchanged : ∀ {l w' c e}, Step parse Q w l w' → l.caller? = some c →
    Refused parse c e → w'.log = w.log ∧ w'.tasks = w.tasks

theorem raised_eq_failure {pc' : Pc} (h : oneCall.TaskMove op pc ans pc') :
    (pc'.raised.map fun e => (Caller.op op, e)).toList =
      ans.toList.filterMap Event.failure? := by
  cases h with
  | returns => rfl
  | calls e hop =>
      obtain ⟨rfl, rfl⟩ := first_eq_calls hop
      rfl
  | polls pc e r hpc hfirst hr =>
      change awaits op e = some r at hr
      unfold awaits at hr
      split at hr
      · split at hr
        · rename_i p hurl
          subst hurl
          obtain rfl := Option.some.inj hr
          match p with
          | .pending | .ready (.ok id) | .ready (.error err) => rfl
        · cases hr
      case h_2 p | h_3 p =>
        obtain rfl := Option.some.inj hr
        match p with
        | .pending | .ready () => rfl
      · cases hr

theorem accounted_step (hw : Accounted parse w) (h : Step parse Q w l w') :
    Accounted parse w' := by
  have htell : ∀ {d : Caller Url} {x : PyErr}, d.isOp = false → Refused parse d x →
      Accounted parse { w with told := w.told ++ [(d, x)] } := by
    intro d x hd hx
    constructor
    · rw [List.filter_append, List.filter_singleton, hd]
      simpa using hw.awaited
    · intro c e hmem hc
      rcases List.mem_append.mp hmem with hold | hnew
      · exact hw.refused c e hold hc
      · obtain ⟨rfl, rfl⟩ := Prod.mk.inj (List.mem_singleton.mp hnew)
        exact hx
  cases h.move with
  | call c op hop => exact ⟨hw.awaited, hw.refused⟩
  | noUrl url display hurl => exact htell rfl (.url url display hurl)
  | close code reason hcode =>
      refine ⟨?_, hw.refused⟩
      rw [List.filterMap_append, ← hw.awaited]
      exact (List.append_nil _).symm
  | refused code reason hcode => exact htell rfl (.code code hcode)
  | task i ans hi hm =>
      constructor
      · rw [List.filter_append, hw.awaited, List.filterMap_append,
          ← raised_eq_failure hm]
        congr 1
        apply List.filter_eq_self.mpr
        intro x hx
        obtain ⟨e, -, rfl⟩ := Option.map_eq_some_iff.mp (Option.mem_toList.mp hx)
        rfl
      · intro c e hmem hc
        rcases List.mem_append.mp hmem with hold | hnew
        · exact hw.refused c e hold hc
        · obtain ⟨x, -, heq⟩ := Option.map_eq_some_iff.mp (Option.mem_toList.mp hnew)
          obtain ⟨rfl, rfl⟩ := Prod.mk.inj heq
          cases hc
  | drop i hi hpc => exact ⟨hw.awaited, hw.refused⟩

theorem accounted_of_reachable (h : Reachable (Step parse Q) new w) :
    Accounted parse w :=
  h.invariant (fun _ _ _ hstep hw => accounted_step hw hstep)
    ⟨rfl, by simp [new]⟩

/-- A call is refused exactly for a bad argument. -/
theorem told_concat_iff (h : Step parse Q w l w') {c : Caller Url} {e : PyErr}
    (hc : c.isOp = false) :
    w'.told = w.told ++ [(c, e)] ↔ l.caller? = some c ∧ Refused parse c e := by
  have hlonger : w.told ≠ w.told ++ [(c, e)] := by simp
  cases h.move with
  | call d op hop =>
      refine ⟨fun h => absurd h hlonger, ?_⟩
      rintro ⟨⟨⟩, hrefused⟩
      cases hrefused with
      | url url display hurl => simp [start, hurl] at hop
  | noUrl url display hurl =>
      rw [List.append_cancel_left_eq, List.singleton_inj, Prod.mk.injEq]
      constructor
      · rintro ⟨rfl, rfl⟩
        exact ⟨rfl, .url url display hurl⟩
      · rintro ⟨⟨⟩, hrefused⟩
        cases hrefused with
        | url url other hother =>
            rw [hurl] at hother
            cases hother
            exact ⟨rfl, rfl⟩
  | close code reason hcode =>
      refine ⟨fun h => absurd h hlonger, ?_⟩
      rintro ⟨⟨⟩, hrefused⟩
      cases hrefused with
      | code code hbad => omega
  | refused code reason hcode =>
      rw [List.append_cancel_left_eq, List.singleton_inj, Prod.mk.injEq]
      constructor
      · rintro ⟨rfl, rfl⟩
        exact ⟨rfl, .code code hcode⟩
      · rintro ⟨⟨⟩, ⟨⟩⟩
        exact ⟨rfl, rfl⟩
  | @task i ans t pc hi hm =>
      refine ⟨fun h => ?_, by rintro ⟨⟨⟩, -⟩⟩
      have hraised : (c, e) ∈ (pc.raised.map fun e => (Caller.op t.op, e)).toList := by
        rw [List.append_cancel_left h]
        exact List.mem_singleton_self _
      obtain ⟨x, -, heq⟩ := Option.map_eq_some_iff.mp (Option.mem_toList.mp hraised)
      cases heq
      cases hc
  | drop => exact ⟨fun h => absurd h hlonger, by rintro ⟨⟨⟩, -⟩⟩

theorem unchanged_of_refused (h : Step parse Q w l w') {c : Caller Url} {e : PyErr}
    (hl : l.caller? = some c) (hrefused : Refused parse c e) :
    w'.log = w.log ∧ w'.tasks = w.tasks := by
  cases h.move with
  | call d op hop =>
      cases hl
      cases hrefused with
      | url url display hurl => simp [start, hurl] at hop
  | noUrl | refused => exact ⟨rfl, rfl⟩
  | close code reason hcode =>
      cases hl
      cases hrefused with
      | code code hbad => omega
  | task | drop => cases hl

/-- In every run, the awaitables of a client have raised the failures that the QUIC
client has reported, each once and in that order; every exception is of a class
that the type stubs list for its call; and what an awaitable raises is always a
`ConnectError`, never the `SessionTimeout` or `ProtocolError` of the list, with the
status that has arrived if it is a `SessionRejected`.  A call raises exactly if its
URL cannot be parsed or its code does not fit, and then it makes no call on the QUIC
client and no task. -/
theorem connects_raise_documented (h : Reachable (Step parse Q) new w) :
    w.Documented parse Q where
  awaited := (accounted_of_reachable h).awaited
  refused := (accounted_of_reachable h).refused
  refuses hstep _ _ hc := told_concat_iff hstep hc
  unchanged hstep := unchanged_of_refused hstep
  documents := by
    have hw := accounted_of_reachable h
    intro c e hmem
    cases hc : c.isOp with
    | false => exact documents_refused (hw.refused c e hmem hc)
    | true =>
        have hfiltered : (c, e) ∈ w.told.filter fun x => x.1.isOp :=
          List.mem_filter.mpr ⟨hmem, hc⟩
        rw [hw.awaited] at hfiltered
        obtain ⟨ev, hev, hfailure⟩ := List.mem_filterMap.mp hfiltered
        unfold Event.failure? at hfailure
        split at hfailure
        · cases hfailure
          exact documents_failure hev
        · cases hfailure

end Raises

def oneUrl (url : String) : Except String String :=
  if url = "https://localhost" then .ok url else .error "relative URL without a base"

def turnedAway (_log : List (Event String)) : Event String → Bool
  | .connect _ (.ready (.error e)) => e = .wrongStatus (some 404) "status 404"
  | _ => false

/-- Three calls, of which one gets to the server. -/
def threeCalls : World String :=
  after oneUrl turnedAway new
    [.call (.connect "localhost"), .call (.connect "https://localhost"),
      .task 0 (some (.connect "https://localhost"
        (.ready (.error (.wrongStatus (some 404) "status 404"))))),
      .close 0x4000000000000000 ""]

/-- The `404` has arrived at the `connect` that got to the server, and the other two
calls were refused. -/
theorem threeCalls_documented :
    threeCalls.Documented oneUrl fun log e => turnedAway log e = true :=
  connects_raise_documented (run_after _ (by decide)).reachable

end WebTransport.Client
