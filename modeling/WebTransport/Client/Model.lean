import WebTransport.Errors.Reason
import WebTransport.Wrapper.OneCall

/-!
# The client

`Client`: the awaitables that open a session or wait for the endpoint to be idle,
its exits, and the calls that close the endpoint.  Unlike the exit of a server, the
exit of a client closes the endpoint inside its task.  What is a URL is decided by
another package and is a parameter.
-/

namespace WebTransport.Client

open Support Wrapper

/-- The calls with their answers: `connect` is a call on the
`web_transport_quinn::Client`, which hands out sessions, the other two are calls on
the endpoint. -/
inductive Event (Url : Type)
  | connect (url : Url) (r : Poll (Except ClientError ℕ))
  | close (code : UInt64) (reason : List UInt8)
  | waitIdle (r : Poll Unit)
  deriving DecidableEq

/-! ## The operations -/

/-- The calls from Python that return an awaitable. -/
inductive Call
  | aenter
  | aexit
  | connect (url : String)
  | waitClosed
  deriving DecidableEq, Repr

/-- What a task does, with the parsed URL. -/
inductive Op (Url : Type)
  | aenter
  | aexit
  | connect (url : Url)
  | waitClosed
  deriving DecidableEq

/-- What an operation hands to Python. -/
inductive Value
  | none
  | self
  | session (id : ℕ)
  deriving DecidableEq, Repr

abbrev Ret := Except PyErr Value

abbrev Pc := OneCall.Pc PyErr Value

abbrev Task (Url : Type) := OneCall.Task (Op Url) PyErr Value

/-- `client.connect(parsed_url).await.map_err(errors::map_client_error)?` -/
def connected : Poll (Except ClientError ℕ) → Poll Ret
  | .pending => .pending
  | .ready (.ok id) => .ready (.ok (.session id))
  | .ready (.error e) => .ready (.error (mapClientError e))

/-- `endpoint.wait_idle().await` -/
def idle : Poll Unit → Poll Ret
  | .pending => .pending
  | .ready () => .ready (.ok .none)

/-- `close`: the code has to fit into a QUIC variable-length integer. -/
def close {Url : Type} (code : UInt64) (reason : String) : Except PyErr (Event Url) :=
  if code.toNat < 2 ^ 62 then .ok (.close code (asBytes reason))
  else .error (.valueError "code must be less than 2**62")

section Calls

variable {Url : Type}

/-- How the task of an operation begins. -/
def first : Op Url → First (Event Url) Value
  | .aenter => .returns .self
  -- `endpoint.close(quinn::VarInt::from_u32(0), b"")`
  | .aexit => .calls (.close 0 [])
  | _ => .awaits

/-- The call that an operation awaits, and what it makes of the answer. -/
def awaits [DecidableEq Url] : Op Url → Event Url → Option (Poll Ret)
  | .connect url, .connect u r => if u = url then some (connected r) else none
  | .aexit, .waitIdle r | .waitClosed, .waitIdle r => some (idle r)
  | _, _ => none

/-- The operations of a client. -/
def oneCall [DecidableEq Url] : OneCall (Op Url) (Event Url) PyErr Value where
  first := first
  awaits := awaits
  awaits_of_returns {op _} e h := by
    cases op with
    | aenter => cases e <;> rfl
    | _ => cases h

theorem first_eq_returns {op : Op Url} {v : Value} (h : first op = .returns v) :
    op = .aenter ∧ v = .self := by
  cases op with
  | aenter =>
      cases h
      exact ⟨rfl, rfl⟩
  | _ => cases h

theorem first_eq_calls {op : Op Url} {e : Event Url} (h : first op = .calls e) :
    op = .aexit ∧ e = .close 0 [] := by
  cases op with
  | aexit =>
      cases h
      exact ⟨rfl, rfl⟩
  | _ => cases h

end Calls

section Start

variable {Url : Type} {parse : String → Except String Url}

/-- The task of a call.  A `connect` parses its URL before it makes one. -/
def start (parse : String → Except String Url) : Call → Except PyErr (Op Url)
  | .aenter => .ok .aenter
  | .aexit => .ok .aexit
  | .waitClosed => .ok .waitClosed
  | .connect url =>
      match parse url with
      | .ok url => .ok (.connect url)
      | .error e => .error (.valueError s!"invalid URL: {e}")

theorem start_error {c : Call} {e : PyErr} (h : start parse c = .error e) :
    ∃ url display, c = .connect url ∧ parse url = .error display ∧
      e = .valueError s!"invalid URL: {display}" := by
  unfold start at h
  split at h
  case h_4 url =>
    split at h
    · cases h
    · rename_i display hurl
      cases h
      exact ⟨url, display, rfl, hurl, rfl⟩
  all_goals cases h

theorem start_eq_aexit {c : Call} (h : start parse c = .ok .aexit) : c = .aexit := by
  unfold start at h
  split at h
  · cases h
  · rfl
  · cases h
  · split at h <;> cases h

end Start

/-! ## The system -/

/-- The calls that raise: those that return an awaitable, the awaitables, and
`close`. -/
inductive Caller (Url : Type)
  | call (c : Call)
  | op (op : Op Url)
  | close (code : UInt64)
  deriving DecidableEq

/-- A client with everything that runs on it.  `told` is a history variable: the
exceptions that were raised to Python, with the calls that they came from. -/
structure World (Url : Type) where
  log : List (Event Url)
  tasks : List (Task Url)
  told : List (Caller Url × PyErr)

/-- The steps: the call of an awaitable, a `close`, a step of a task, and an
asyncio cancellation. -/
inductive Action (Url : Type)
  | call (c : Call)
  | close (code : UInt64) (reason : String)
  | task (i : ℕ) (ans : Option (Event Url))
  | drop (i : ℕ)

def Action.answer {Url : Type} : Action Url → Option (Event Url)
  | .task _ ans => ans
  | _ => none

def new {Url : Type} : World Url where
  log := []
  tasks := []
  told := []

section Steps

variable {Url : Type} [DecidableEq Url] (parse : String → Except String Url)

/-- The state after a step, if the step can be taken. -/
def next (w : World Url) : Action Url → Option (World Url)
  | .call c =>
      match start parse c with
      | .ok op => some { w with tasks := w.tasks ++ [⟨op, .spawned⟩] }
      | .error e => some { w with told := w.told ++ [(.call c, e)] }
  | .close code reason =>
      match close code reason with
      | .ok e => some { w with log := w.log ++ [e] }
      | .error e => some { w with told := w.told ++ [(.close code, e)] }
  | .task i ans =>
      w.tasks[i]?.bind fun t =>
        (oneCall.taskStep t.op t.pc ans).map fun pc =>
          { log := w.log ++ ans.toList
            tasks := w.tasks.set i { t with pc := pc }
            told := w.told ++ (pc.raised.map fun e => (.op t.op, e)).toList }
  | .drop i =>
      w.tasks[i]?.bind fun t =>
        match t.pc with
        | .spawned | .suspended =>
            some { w with tasks := w.tasks.set i { t with pc := .dropped } }
        | _ => none

/-- A step on a QUIC client that answers as `Q` allows. -/
def Step (Q : Answers (Event Url)) (w : World Url) (l : Action Url) (w' : World Url) :
    Prop :=
  next parse w l = some w' ∧ ∀ e ∈ l.answer, Q w.log e

end Steps

/-! ## What a step can do -/

section Moves

variable {Url : Type} [DecidableEq Url]

/-- The moves of a client. -/
inductive Move (parse : String → Except String Url) (w : World Url) :
    Action Url → World Url → Prop
  | call (c : Call) (op : Op Url) (hop : start parse c = .ok op) :
      Move parse w (.call c) { w with tasks := w.tasks ++ [⟨op, .spawned⟩] }
  | noUrl (url e : String) (hurl : parse url = .error e) :
      Move parse w (.call (.connect url)) { w with
        told := w.told ++
          [(.call (.connect url), .valueError s!"invalid URL: {e}")] }
  | close (code : UInt64) (reason : String) (hcode : code.toNat < 2 ^ 62) :
      Move parse w (.close code reason)
        { w with log := w.log ++ [.close code (asBytes reason)] }
  | refused (code : UInt64) (reason : String) (hcode : 2 ^ 62 ≤ code.toNat) :
      Move parse w (.close code reason) { w with
        told := w.told ++ [(.close code, .valueError "code must be less than 2**62")] }
  | task (i : ℕ) (ans : Option (Event Url)) {t : Task Url} {pc : Pc}
      (hi : w.tasks[i]? = some t) (h : oneCall.TaskMove t.op t.pc ans pc) :
      Move parse w (.task i ans)
        { log := w.log ++ ans.toList
          tasks := w.tasks.set i { t with pc := pc }
          told := w.told ++ (pc.raised.map fun e => (.op t.op, e)).toList }
  | drop (i : ℕ) {t : Task Url} (hi : w.tasks[i]? = some t)
      (hpc : t.pc = .spawned ∨ t.pc = .suspended) :
      Move parse w (.drop i)
        { w with tasks := w.tasks.set i { t with pc := .dropped } }

variable {parse : String → Except String Url} {Q : Answers (Event Url)}
  {w w' : World Url} {l : Action Url}

theorem Step.move (h : Step parse Q w l w') : Move parse w l w' := by
  obtain ⟨h, -⟩ := h
  cases l with
  | call c =>
      cases hop : start parse c with
      | ok op =>
          simp only [next, hop, Option.some.injEq] at h
          subst h
          exact .call c op hop
      | error e =>
          simp only [next, hop, Option.some.injEq] at h
          subst h
          obtain ⟨url, display, rfl, hurl, rfl⟩ := start_error hop
          exact .noUrl url display hurl
  | close code reason =>
      by_cases hcode : code.toNat < 2 ^ 62
      · simp only [next, Client.close, hcode, if_true, Option.some.injEq] at h
        subst h
        exact .close code reason hcode
      · simp only [next, Client.close, hcode, if_false, Option.some.injEq] at h
        subst h
        exact .refused code reason (Nat.le_of_not_lt hcode)
  | task i ans =>
      obtain ⟨t, hi, hrest⟩ := Option.bind_eq_some_iff.mp h
      obtain ⟨pc, hpc, heq⟩ := Option.map_eq_some_iff.mp hrest
      cases heq
      exact .task i ans hi (OneCall.taskMove_of_taskStep hpc)
  | drop i =>
      obtain ⟨t, hi, hrest⟩ := Option.bind_eq_some_iff.mp h
      split at hrest
      · rename_i hpc
        cases hrest
        exact .drop i hi (Or.inl hpc)
      · rename_i hpc
        cases hrest
        exact .drop i hi (Or.inr hpc)
      · cases hrest

end Moves

section Replay

variable {Url : Type} [DecidableEq Url] {parse : String → Except String Url}
  {q : List (Event Url) → Event Url → Bool} {w w' : World Url} {l : Action Url}

def tryNext (parse : String → Except String Url)
    (q : List (Event Url) → Event Url → Bool) (w : World Url) (l : Action Url) :
    Option (World Url) :=
  if l.answer.all (q w.log) then next parse w l else none

def after (parse : String → Except String Url)
    (q : List (Event Url) → Event Url → Bool) (w : World Url) (ls : List (Action Url)) :
    World Url :=
  replayEnd (tryNext parse q) w ls

theorem step_of_tryNext (h : tryNext parse q w l = some w') :
    Step parse (fun log e => q log e = true) w l w' := by
  unfold tryNext at h
  split at h
  · rename_i hall
    refine ⟨h, fun e he => ?_⟩
    rw [Option.mem_def] at he
    simpa [he] using hall
  · cases h

theorem run_after (ls : List (Action Url))
    (h : (replay (tryNext parse q) w ls).isSome = true) :
    Run (Step parse fun log e => q log e = true) w
      (replayTrace (tryNext parse q) w ls) (after parse q w ls) :=
  run_replayEnd (fun _ _ _ => step_of_tryNext) h

end Replay

end WebTransport.Client
