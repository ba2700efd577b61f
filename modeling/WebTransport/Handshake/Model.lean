import WebTransport.Errors
import WebTransport.Support.Indexed
import WebTransport.Support.Run

/-!
# The handshake

One connection attempt: the `SessionRequest` of the server with the futures of
its `accept` and `reject` calls, the HTTP response in flight, and the `connect`
of the client.  A call takes the request out of the `SessionRequest` at once;
the response goes out when the future of the call is polled.
-/

namespace WebTransport.Handshake

open Support

/-- What belongs to `http` and `web_transport_quinn`: the status codes that can
be built from an integer, and what a client makes of the status that it
receives.  `200` is a success and nothing else is. -/
structure Http where
  Status : Type
  /-- `http::StatusCode::from_u16`, with the text of its error. -/
  fromU16 : UInt16 → Except String Status
  /-- `http::StatusCode::as_u16`. -/
  asU16 : Status → UInt16
  /-- `web_transport_quinn::Client::connect` when a response arrives. -/
  received : UInt16 → Except ClientError Unit
  asU16_of_fromU16 : ∀ {s c}, fromU16 s = .ok c → asU16 c = s
  fromU16_success : ∃ c, fromU16 200 = .ok c
  received_success : received 200 = .ok ()
  received_other : ∀ {s}, s ≠ 200 →
    ∃ display, received s = .error (.wrongStatus (some s) display)

def Http.Valid (http : Http) (s : UInt16) : Prop :=
  ∃ c, http.fromU16 s = .ok c

/-! ## `SessionRequest` -/

/-- `web_transport_quinn::Request`, of which there is one per attempt. -/
structure Request where
  url : String
  deriving DecidableEq, Repr

structure SessionRequest where
  inner : Option Request
  url : String
  deriving DecidableEq, Repr

namespace SessionRequest

def new (request : Request) : SessionRequest where
  inner := some request
  url := request.url

end SessionRequest

/-- The calls on a `SessionRequest`. -/
inductive Call
  | accept
  | reject (statusCode : UInt16)
  deriving DecidableEq, Repr

/-- How a future answers the request that it was given. -/
inductive Response (Status : Type)
  | ok
  | respond (status : Status)

/-- What the second decision on a request raises. -/
abbrev alreadyDecided : PyErr :=
  .sessionError "request already accepted or rejected"

section Calls

variable (http : Http)

namespace SessionRequest

variable (self : SessionRequest)

/-- `accept`, up to the future that it returns. -/
def accept : SessionRequest × Except PyErr (Response http.Status) :=
  match self.inner with
  | none => (self, .error alreadyDecided)
  | some _ => ({ self with inner := none }, .ok .ok)

/-- `reject`, up to the future that it returns: the request is taken before the
status is looked at. -/
def reject (statusCode : UInt16) :
    SessionRequest × Except PyErr (Response http.Status) :=
  match self.inner with
  | none => (self, .error alreadyDecided)
  | some _ => ({ self with inner := none },
      match http.fromU16 statusCode with
      | .error e => .error (.valueError s!"invalid status code: {e}")
      | .ok status => .ok (.respond status))

def call : Call → SessionRequest × Except PyErr (Response http.Status)
  | .accept => self.accept http
  | .reject statusCode => self.reject http statusCode

end SessionRequest

def Response.status : Response http.Status → UInt16
  | .ok => 200
  | .respond status => http.asU16 status

end Calls

/-! ## The system -/

/-- Where the future of an `accept` or `reject` is.  After its response has been
accepted, a rejection closes the session and waits for it to be closed. -/
inductive FuturePc
  | spawned
  | sent
  | closing
  | returned
  | raised (e : PyErr)
  | dropped
  deriving DecidableEq, Repr

structure Future (Status : Type) where
  response : Response Status
  pc : FuturePc

/-- What `Client::connect` has come to. -/
inductive Connect
  | connecting
  | session
  | raised (e : PyErr)
  deriving DecidableEq, Repr

/-- One connection attempt.  `calls`, `issued` and `delivered` are history
variables: the calls on the request, the statuses of the responses that were
sent, and the one that has arrived. -/
structure World (http : Http) where
  calls : List Call
  request : SessionRequest
  futures : List (Future http.Status)
  issued : List UInt16
  inFlight : Option UInt16
  delivered : Option UInt16
  client : Connect

/-- The steps: a call on the request, the response going out from the future of
a call, the outcome of `ok()` or `respond()`, the end of `closed()`, an asyncio
cancellation, the arrival of the response, and any other end of `connect`. -/
inductive Action
  | call (c : Call)
  | send (i : ℕ)
  | answer (i : ℕ) (ans : Except ServerError Unit)
  | closed (i : ℕ)
  | drop (i : ℕ)
  | deliver
  | lose (e : ClientError)

/-- The error of a `connect` that has received a response. -/
def isWrongStatus : ClientError → Bool
  | .wrongStatus (some _) _ => true
  | _ => false

section Steps

variable (errorFromHttp3 : ErrorFromHttp3) (http : Http)

/-- The outcome of `ok()` or `respond()`. -/
def answered (f : Future http.Status) :
    Except ServerError Unit → Option FuturePc
  | .ok () =>
      match f.pc, f.response with
      | .sent, .ok => some .returned
      | .sent, .respond _ => some .closing
      | _, _ => none
  | .error e =>
      match f.pc with
      | .spawned | .sent => some (.raised (mapServerError errorFromHttp3 e))
      | _ => none

/-- `connect` when a response with status `s` arrives. -/
def connected (s : UInt16) : Connect :=
  match http.received s with
  | .ok () => .session
  | .error e => .raised (mapClientError e)

/-- The state after a step, if the step can be taken. -/
def next (w : World http) : Action → Option (World http)
  | .call c =>
      let (request, r) := w.request.call http c
      some { w with
        calls := w.calls ++ [c]
        request := request
        futures := w.futures ++ r.toOption.toList.map (⟨·, .spawned⟩) }
  | .send i =>
      w.futures[i]?.bind fun f =>
        if f.pc = .spawned then
          some { w with
            futures := w.futures.set i { f with pc := .sent }
            issued := w.issued ++ [f.response.status http]
            inFlight := some (f.response.status http) }
        else none
  | .answer i ans =>
      w.futures[i]?.bind fun f =>
        (answered errorFromHttp3 http f ans).map fun pc =>
          { w with futures := w.futures.set i { f with pc := pc } }
  | .closed i =>
      w.futures[i]?.bind fun f =>
        if f.pc = .closing then
          some { w with futures := w.futures.set i { f with pc := .returned } }
        else none
  | .drop i =>
      w.futures[i]?.bind fun f =>
        if f.pc = .spawned ∨ f.pc = .sent ∨ f.pc = .closing then
          some { w with futures := w.futures.set i { f with pc := .dropped } }
        else none
  | .deliver =>
      match w.client, w.inFlight with
      | .connecting, some s =>
          some { w with
            inFlight := none
            delivered := some s
            client := connected http s }
      | _, _ => none
  | .lose e =>
      match w.client with
      | .connecting =>
          if isWrongStatus e then none
          else some { w with client := .raised (mapClientError e) }
      | _ => none

def Step (w : World http) (l : Action) (w' : World http) : Prop :=
  next errorFromHttp3 http w l = some w'

/-- The server has the request and the client waits. -/
def start (request : Request) : World http where
  calls := []
  request := .new request
  futures := []
  issued := []
  inFlight := none
  delivered := none
  client := .connecting

end Steps

/-! ## What a step can do -/

/-- The moves of the attempt. -/
inductive Move (http : Http) (w : World http) : Action → World http → Prop
  | refused (c : Call) (hd : w.request.inner = none) :
      Move http w (.call c) { w with calls := w.calls ++ [c] }
  | invalid (statusCode : UInt16) (request : Request)
      (hu : w.request.inner = some request) (hv : ¬ http.Valid statusCode) :
      Move http w (.call (.reject statusCode)) { w with
        calls := w.calls ++ [.reject statusCode]
        request := { w.request with inner := none } }
  | accepts (request : Request) (hu : w.request.inner = some request) :
      Move http w (.call .accept) { w with
        calls := w.calls ++ [.accept]
        request := { w.request with inner := none }
        futures := w.futures ++ [⟨.ok, .spawned⟩] }
  | rejects (statusCode : UInt16) (status : http.Status) (request : Request)
      (hu : w.request.inner = some request)
      (hv : http.fromU16 statusCode = .ok status) :
      Move http w (.call (.reject statusCode)) { w with
        calls := w.calls ++ [.reject statusCode]
        request := { w.request with inner := none }
        futures := w.futures ++ [⟨.respond status, .spawned⟩] }
  | sends (i : ℕ) (f : Future http.Status) (hi : w.futures[i]? = some f)
      (hpc : f.pc = .spawned) :
      Move http w (.send i) { w with
        futures := w.futures.set i { f with pc := .sent }
        issued := w.issued ++ [f.response.status http]
        inFlight := some (f.response.status http) }
  | proceeds (l : Action) (i : ℕ) (f : Future http.Status) (pc : FuturePc)
      (hi : w.futures[i]? = some f) (hl : ∀ c, l ≠ .call c) (hpc : pc ≠ .spawned) :
      Move http w l { w with futures := w.futures.set i { f with pc := pc } }
  | arrives (s : UInt16) (hs : w.inFlight = some s)
      (hc : w.client = .connecting) :
      Move http w .deliver { w with
        inFlight := none, delivered := some s, client := connected http s }
  | fails (e : ClientError) (he : isWrongStatus e = false)
      (hc : w.client = .connecting) :
      Move http w (.lose e) { w with client := .raised (mapClientError e) }

section Inversion

variable {errorFromHttp3 : ErrorFromHttp3} {http : Http} {w w' : World http}
  {l : Action}

theorem move_of_call {c : Call}
    (h : next errorFromHttp3 http w (.call c) = some w') :
    Move http w (.call c) w' := by
  cases hinner : w.request.inner with
  | none =>
      cases c <;>
        (simp only [next, SessionRequest.call, SessionRequest.accept,
            SessionRequest.reject, hinner, Except.toOption, Option.toList_none,
            List.map_nil, List.append_nil, Option.some.injEq] at h
         subst h
         exact .refused _ hinner)
  | some request =>
      cases c with
      | accept =>
          simp only [next, SessionRequest.call, SessionRequest.accept, hinner,
            Except.toOption, Option.toList_some, List.map_cons, List.map_nil,
            Option.some.injEq] at h
          subst h
          exact .accepts request hinner
      | reject s =>
          cases hs : http.fromU16 s with
          | error e =>
              simp only [next, SessionRequest.call, SessionRequest.reject, hinner,
                hs, Except.toOption, Option.toList_none, List.map_nil,
                List.append_nil, Option.some.injEq] at h
              subst h
              refine .invalid s request hinner ?_
              rintro ⟨c, hc⟩
              rw [hs] at hc
              cases hc
          | ok status =>
              simp only [next, SessionRequest.call, SessionRequest.reject, hinner,
                hs, Except.toOption, Option.toList_some, List.map_cons,
                List.map_nil, Option.some.injEq] at h
              subst h
              exact .rejects s status request hinner hs

theorem spawned_ne_of_answered {f : Future http.Status}
    {ans : Except ServerError Unit} {pc : FuturePc}
    (h : answered errorFromHttp3 http f ans = some pc) : pc ≠ .spawned := by
  unfold answered at h
  split at h <;> split at h <;> cases h <;> simp

theorem Step.move (h : Step errorFromHttp3 http w l w') : Move http w l w' := by
  cases l with
  | call c => exact move_of_call h
  | send i =>
      obtain ⟨f, hi, hrest⟩ := Option.bind_eq_some_iff.mp h
      split at hrest
      · cases hrest
        exact .sends i f hi (by assumption)
      · cases hrest
  | answer i ans =>
      obtain ⟨f, hi, hrest⟩ := Option.bind_eq_some_iff.mp h
      obtain ⟨pc, hpc, heq⟩ := Option.map_eq_some_iff.mp hrest
      cases heq
      exact .proceeds _ i f pc hi (by simp) (spawned_ne_of_answered hpc)
  | closed i =>
      obtain ⟨f, hi, hrest⟩ := Option.bind_eq_some_iff.mp h
      split at hrest
      · cases hrest
        exact .proceeds _ i f _ hi (by simp) (by simp)
      · cases hrest
  | drop i =>
      obtain ⟨f, hi, hrest⟩ := Option.bind_eq_some_iff.mp h
      split at hrest
      · cases hrest
        exact .proceeds _ i f _ hi (by simp) (by simp)
      · cases hrest
  | deliver =>
      simp only [Step, next] at h
      split at h
      · cases h
        exact .arrives _ (by assumption) (by assumption)
      · cases h
  | lose e =>
      simp only [Step, next] at h
      split at h
      · split at h
        · cases h
        · rename_i he
          cases h
          exact .fails e (by simpa using he) (by assumption)
      · cases h

end Inversion

def httpCodes : Http where
  Status := { s : UInt16 // 100 ≤ s ∧ s < 1000 }
  fromU16 s :=
    if hs : 100 ≤ s ∧ s < 1000 then .ok ⟨s, hs⟩ else .error "invalid status code"
  asU16 := Subtype.val
  received s :=
    if s = 200 then .ok () else .error (.wrongStatus (some s) "wrong status")
  asU16_of_fromU16 {s c} h := by
    split at h
    · cases h
      rfl
    · cases h
  fromU16_success := ⟨⟨200, by decide⟩, by simp⟩
  received_success := if_pos rfl
  received_other {s} hs := ⟨_, if_neg hs⟩

abbrev after (ls : List Action) : World httpCodes :=
  replayEnd (next noCodes httpCodes) (start httpCodes ⟨"https://localhost/"⟩) ls

theorem run_after (ls : List Action)
    (h : (replay (next noCodes httpCodes)
      (start httpCodes ⟨"https://localhost/"⟩) ls).isSome = true) :
    Run (Step noCodes httpCodes) (start httpCodes ⟨"https://localhost/"⟩)
      (replayTrace (next noCodes httpCodes)
        (start httpCodes ⟨"https://localhost/"⟩) ls) (after ls) :=
  run_replayEnd (fun _ _ _ => id) h

end WebTransport.Handshake
