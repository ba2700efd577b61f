import WebTransport.Errors.Reason
import WebTransport.Handshake.Model
import WebTransport.Support.FifoLock
import WebTransport.Wrapper.Machine

/-!
# The server

`Server`: the awaitables that wait for the next session request, and share the
`web_transport_quinn::Server` through an asynchronous mutex; those that wait for
the endpoint to be idle; and the calls that close the endpoint.
-/

namespace WebTransport.Server

open Support Wrapper Handshake

/-- The calls with their answers: `accept` is a call on the server in the mutex,
the other two are calls on the endpoint. -/
inductive Event
  | accept (r : Poll (Option Request))
  | close (code : UInt64) (reason : List UInt8)
  | waitIdle (r : Poll Unit)
  deriving DecidableEq

/-! ## The operations -/

inductive Op
  | aenter
  | aexit
  | anext
  | accept
  | waitClosed
  deriving DecidableEq, Repr

/-- What an operation hands to Python. -/
inductive Value
  | none
  | self
  | request (r : SessionRequest)
  deriving DecidableEq, Repr

abbrev Ret := Except PyErr Value

def Op.accepts : Op → Bool
  | .anext | .accept => true
  | _ => false

/-- What an operation makes of the answer of `accept`. -/
def received : Op → Option Request → Ret
  | _, some request => .ok (.request (.new request))
  | .anext, none => .error .stopAsyncIteration
  | _, none => .ok .none

/-- Where the task of an operation is.  At `running`, `suspended` and `built` the
task of an `accept` or `__anext__` has the guard. -/
inductive Pc
  | spawned
  | waiting
  | running
  | suspended
  | built (r : Ret)
  | done (r : Ret)
  | dropped
  deriving DecidableEq

structure Task where
  op : Op
  pc : Pc

def Pc.afterAccept (op : Op) : Poll (Option Request) → Pc
  | .pending => .suspended
  | .ready a => .built (received op a)

def Pc.afterIdle : Poll Unit → Pc
  | .pending => .suspended
  | .ready () => .done (.ok .none)

/-- One step of a task, with what it does to the mutex. -/
def taskStep (i : ℕ) (op : Op) (pc : Pc) (ans : Option Event) (lock : FifoLock ℕ) :
    Option (Pc × FifoLock ℕ) :=
  match pc, ans with
  | .spawned, none =>
      match op with
      | .aenter => some (.done (.ok .self), lock)
      -- `inner.lock().await`
      | .anext | .accept =>
          let lock' := lock.request i
          some (if lock'.holder = some i then .running else .waiting, lock')
      | .aexit | .waitClosed => none
  | .waiting, none =>
      if lock.holder = some i then some (.running, lock) else none
  | .running, some (.accept r) | .suspended, some (.accept r) =>
      if op.accepts then some (.afterAccept op r, lock) else none
  | .built r, none => some (.done r, lock.leave i)
  | .spawned, some (.waitIdle r) | .suspended, some (.waitIdle r) =>
      match op with
      | .aexit | .waitClosed => some (.afterIdle r, lock)
      | _ => none
  | _, _ => none

/-- `close`: the code has to fit into a QUIC variable-length integer. -/
def close (code : UInt64) (reason : String) : Except PyErr Event :=
  if code.toNat < 2 ^ 62 then .ok (.close code (asBytes reason))
  else .error (.valueError "code must be less than 2**62")

/-! ## The system -/

/-- A server with everything that runs on it.  `asked` and `answered` are history
variables: the tasks in the order in which they asked for the mutex, and those
that got an answer of `accept`, in the order of the answers. -/
structure World where
  log : List Event
  lock : FifoLock ℕ
  tasks : List Task
  asked : List ℕ
  answered : List ℕ

/-- The steps: the call of an awaitable, a `close`, a step of a task, and an
asyncio cancellation. -/
inductive Action
  | call (op : Op)
  | close (code : UInt64) (reason : String)
  | task (i : ℕ) (ans : Option Event)
  | drop (i : ℕ)

def Action.answer : Action → Option Event
  | .task _ ans => ans
  | _ => none

def new : World where
  log := []
  lock := .unlocked
  tasks := []
  asked := []
  answered := []

def asks (op : Op) (pc : Pc) : Bool :=
  pc = .spawned && op.accepts

def isAnswer : Option Event → Bool
  | some (.accept (.ready _)) => true
  | _ => false

/-- The state after a step, if the step can be taken.  `__aexit__` closes the
endpoint before it returns its awaitable. -/
def next (w : World) : Action → Option World
  | .call op => some { w with
      log := w.log ++ if op = .aexit then [.close 0 []] else []
      tasks := w.tasks ++ [⟨op, .spawned⟩] }
  | .close code reason =>
      match close code reason with
      | .ok e => some { w with log := w.log ++ [e] }
      | .error _ => some w
  | .task i ans =>
      w.tasks[i]?.bind fun t =>
        (taskStep i t.op t.pc ans w.lock).map fun (pc, lock) =>
          { log := w.log ++ ans.toList
            lock := lock
            tasks := w.tasks.set i { t with pc := pc }
            asked := w.asked ++ if asks t.op t.pc then [i] else []
            answered := w.answered ++ if isAnswer ans then [i] else [] }
  | .drop i =>
      w.tasks[i]?.bind fun t =>
        match t.pc with
        | .spawned | .waiting | .suspended =>
            some { w with
              lock := w.lock.leave i
              tasks := w.tasks.set i { t with pc := .dropped } }
        | _ => none

/-- A step on a QUIC server that answers as `Q` allows. -/
def Step (Q : Answers Event) (w : World) (l : Action) (w' : World) : Prop :=
  next w l = some w' ∧ ∀ e ∈ l.answer, Q w.log e

/-! ## What a step can do -/

/-- The moves of a task, with the mutex before and after. -/
inductive TaskMove (i : ℕ) (lock : FifoLock ℕ) :
    Op → Pc → Option Event → Pc → FifoLock ℕ → Prop
  | enters : TaskMove i lock .aenter .spawned none (.done (.ok .self)) lock
  | locks (op : Op) (hop : op.accepts = true)
      (ho : (lock.request i).holder = some i) :
      TaskMove i lock op .spawned none .running (lock.request i)
  | queues (op : Op) (hop : op.accepts = true)
      (ho : (lock.request i).holder ≠ some i) :
      TaskMove i lock op .spawned none .waiting (lock.request i)
  | wakes (op : Op) (ho : lock.holder = some i) :
      TaskMove i lock op .waiting none .running lock
  | pends (op : Op) (pc : Pc) (hop : op.accepts = true)
      (hpc : pc = .running ∨ pc = .suspended) :
      TaskMove i lock op pc (some (.accept .pending)) .suspended lock
  | receives (op : Op) (pc : Pc) (a : Option Request) (hop : op.accepts = true)
      (hpc : pc = .running ∨ pc = .suspended) :
      TaskMove i lock op pc (some (.accept (.ready a))) (.built (received op a)) lock
  | returns (op : Op) (r : Ret) :
      TaskMove i lock op (.built r) none (.done r) (lock.leave i)
  | idles (op : Op) (pc : Pc) (r : Poll Unit)
      (hop : op = .aexit ∨ op = .waitClosed) (hpc : pc = .spawned ∨ pc = .suspended) :
      TaskMove i lock op pc (some (.waitIdle r)) (.afterIdle r) lock

/-- The moves of a server. -/
inductive Move (w : World) : Action → World → Prop
  | call (op : Op) (hop : op ≠ .aexit) :
      Move w (.call op) { w with tasks := w.tasks ++ [⟨op, .spawned⟩] }
  | exit :
      Move w (.call .aexit) { w with
        log := w.log ++ [.close 0 []]
        tasks := w.tasks ++ [⟨.aexit, .spawned⟩] }
  | close (code : UInt64) (reason : String) (hcode : code.toNat < 2 ^ 62) :
      Move w (.close code reason)
        { w with log := w.log ++ [.close code (asBytes reason)] }
  | refused (code : UInt64) (reason : String) (hcode : 2 ^ 62 ≤ code.toNat) :
      Move w (.close code reason) w
  | task (i : ℕ) (ans : Option Event) {t : Task} {pc : Pc} {lock : FifoLock ℕ}
      (hi : w.tasks[i]? = some t) (h : TaskMove i w.lock t.op t.pc ans pc lock) :
      Move w (.task i ans)
        { log := w.log ++ ans.toList
          lock := lock
          tasks := w.tasks.set i { t with pc := pc }
          asked := w.asked ++ if asks t.op t.pc then [i] else []
          answered := w.answered ++ if isAnswer ans then [i] else [] }
  | drop (i : ℕ) {t : Task} (hi : w.tasks[i]? = some t)
      (hpc : t.pc = .spawned ∨ t.pc = .waiting ∨ t.pc = .suspended) :
      Move w (.drop i) { w with
        lock := w.lock.leave i
        tasks := w.tasks.set i { t with pc := .dropped } }

section Inversion

variable {Q : Answers Event} {i : ℕ} {op : Op} {pc pc' : Pc} {ans : Option Event}
  {lock lock' : FifoLock ℕ} {w w' : World} {l : Action}

theorem taskMove_of_taskStep (h : taskStep i op pc ans lock = some (pc', lock')) :
    TaskMove i lock op pc ans pc' lock' := by
  have hafter : ∀ {r}, op.accepts = true → (pc = .running ∨ pc = .suspended) →
      TaskMove i lock op pc (some (.accept r)) (.afterAccept op r) lock := by
    intro r hop hpc
    cases r with
    | pending => exact .pends op pc hop hpc
    | ready a => exact .receives op pc a hop hpc
  unfold taskStep at h
  split at h
  · split at h
    · cases h
      exact .enters
    case h_2 | h_3 =>
      by_cases ho : (lock.request i).holder = some i <;>
        (simp only [ho, if_true, if_false, Option.some.injEq, Prod.mk.injEq] at h
         obtain ⟨rfl, rfl⟩ := h)
      · exact .locks _ rfl ho
      · exact .queues _ rfl ho
    · cases h
    · cases h
  · split at h
    · rename_i ho
      cases h
      exact .wakes op ho
    · cases h
  · split at h
    · rename_i hop
      cases h
      exact hafter hop (Or.inl rfl)
    · cases h
  · split at h
    · rename_i hop
      cases h
      exact hafter hop (Or.inr rfl)
    · cases h
  · cases h
    exact .returns op _
  · split at h
    · cases h
      exact .idles _ _ _ (Or.inl rfl) (Or.inl rfl)
    · cases h
      exact .idles _ _ _ (Or.inr rfl) (Or.inl rfl)
    · cases h
  · split at h
    · cases h
      exact .idles _ _ _ (Or.inl rfl) (Or.inr rfl)
    · cases h
      exact .idles _ _ _ (Or.inr rfl) (Or.inr rfl)
    · cases h
  · cases h

theorem Step.move (h : Step Q w l w') : Move w l w' := by
  obtain ⟨h, -⟩ := h
  cases l with
  | call op =>
      by_cases hop : op = .aexit
      · subst hop
        cases h
        exact .exit
      · simp only [next, hop, if_false, List.append_nil, Option.some.injEq] at h
        subst h
        exact .call op hop
  | close code reason =>
      by_cases hcode : code.toNat < 2 ^ 62
      · simp only [next, Server.close, hcode, if_true, Option.some.injEq] at h
        subst h
        exact .close code reason hcode
      · simp only [next, Server.close, hcode, if_false, Option.some.injEq] at h
        subst h
        exact .refused code reason (Nat.le_of_not_lt hcode)
  | task i ans =>
      obtain ⟨t, hi, hrest⟩ := Option.bind_eq_some_iff.mp h
      obtain ⟨⟨pc, lock⟩, hpc, heq⟩ := Option.map_eq_some_iff.mp hrest
      cases heq
      exact .task i ans hi (taskMove_of_taskStep hpc)
  | drop i =>
      obtain ⟨t, hi, hrest⟩ := Option.bind_eq_some_iff.mp h
      split at hrest
      · rename_i hpc
        cases hrest
        exact .drop i hi (Or.inl hpc)
      · rename_i hpc
        cases hrest
        exact .drop i hi (Or.inr (Or.inl hpc))
      · rename_i hpc
        cases hrest
        exact .drop i hi (Or.inr (Or.inr hpc))
      · cases hrest

end Inversion

def tryNext (q : List Event → Event → Bool) (w : World) (l : Action) : Option World :=
  if l.answer.all (q w.log) then next w l else none

def after (q : List Event → Event → Bool) (w : World) (ls : List Action) : World :=
  replayEnd (tryNext q) w ls

section Replay

variable {q : List Event → Event → Bool} {w w' : World} {l : Action}

theorem step_of_tryNext (h : tryNext q w l = some w') :
    Step (fun log e => q log e = true) w l w' := by
  unfold tryNext at h
  split at h
  · rename_i hall
    refine ⟨h, fun e he => ?_⟩
    rw [Option.mem_def] at he
    simpa [he] using hall
  · cases h

theorem run_after (ls : List Action) (h : (replay (tryNext q) w ls).isSome = true) :
    Run (Step fun log e => q log e = true) w (replayTrace (tryNext q) w ls)
      (after q w ls) :=
  run_replayEnd (fun _ _ _ => step_of_tryNext) h

end Replay

end WebTransport.Server
