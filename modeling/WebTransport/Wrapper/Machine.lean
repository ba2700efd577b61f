import WebTransport.Support.Run
import WebTransport.Support.FifoLock

/-!
# One half of a stream under concurrent calls

`SendStream` and `RecvStream` wrap their QUIC stream in the same way.  The
stream sits in an asynchronous mutex beside a cancellation token, a close code
and a few atomics.  Every awaitable is a task of its own, which races the token
against a body that runs with the guard of the mutex; the close call and the
exits of the context manager go to the same mutex by other routes.

This module gives the steps that both wrappers share.  What differs between
them is collected in a `Half`: the bodies of the operations, the QUIC call that
closes the stream, what a clean exit does, and the assignment that Python can
make to an attribute of the stream.

The QUIC stream is a black box.  It is represented by the list of calls made on
it with their answers, and a relation that is never unfolded here says which
answers it may give after which history.
-/

namespace WebTransport.Wrapper

open Support

/-! ## The parameters of a half -/

/-- The outcome of polling a future of the QUIC stream. -/
inductive Poll (α : Type)
  | pending
  | ready (a : α)
  deriving DecidableEq, Repr

/-- What one step of a guarded body does: it goes on within the same poll, it
suspends with the guard in hand, or it returns. -/
inductive Beat (Loc Ret : Type)
  | more (l : Loc)
  | pend (l : Loc)
  | ready (r : Ret)

/-- What the two wrappers do differently. -/
structure Half (Op Loc Ret Ev Vars Knob : Type) where
  /-- Where the body of an operation starts. -/
  enter : Op → Loc
  /-- One step of a body, from the shared variables and, where the step is a
  call on the QUIC stream, the call with its answer. -/
  body : Op → Loc → Vars → Option Ev → Option (Vars × Beat Loc Ret)
  /-- What the QUIC stream notices when a suspended body is dropped. -/
  dropped : Op → Loc → List Ev
  /-- What an operation interrupted by a local close raises. -/
  closedLocally : Ret
  /-- The code of a call that closes the QUIC stream abruptly. -/
  closeCode : Ev → Option UInt32
  /-- A clean exit has nothing to do. -/
  exitSkips : Vars → Bool
  /-- A clean exit closes the QUIC stream abruptly, with code `0`. -/
  exitCloses : Bool
  /-- The call that a clean exit makes on the QUIC stream otherwise. -/
  isFinish : Ev → Bool
  /-- The three effects of an assignment: the store, the call on the QUIC
  stream and the store that records it. -/
  assign : Knob → Vars → Vars
  isApply : Knob → Ev → Bool
  recordApplied : Knob → Vars → Vars
  /-- The bodies, a graceful finish and an assignment close nothing abruptly. -/
  body_closeCode : ∀ op l v e r, body op l v (some e) = some r → closeCode e = none
  dropped_closeCode : ∀ op l, ∀ e ∈ dropped op l, closeCode e = none
  finish_closeCode : ∀ e, isFinish e = true → closeCode e = none
  apply_closeCode : ∀ k e, isApply k e = true → closeCode e = none

/-! ## Tasks and the Python thread -/

/-- Who can stand in the line for the mutex. -/
inductive Owner
  | python
  | task (i : Nat)
  deriving DecidableEq, Repr

/-- Where the task of an operation is.  `checked` and `running` are points of a
poll that has found the token unset; `interrupted` is the point of a poll that
has found it set. -/
inductive CallPc (Loc Ret : Type)
  | spawned
  | checked
  | waiting
  | running (l : Loc)
  | suspended (l : Loc)
  | built (r : Ret)
  | interrupted (l : Option Loc)
  | closing
  | closeWaiting
  | closeHeld
  | closeLoaded (code : UInt32)
  | closeSent
  | done (r : Ret)
  | dropped

/-- Where the task of an `__aexit__` is. -/
inductive ExitPc
  | spawned
  | stored
  | ready
  | waiting
  | held
  | sent
  | returned
  | dropped
  deriving DecidableEq, Repr

/-- The task of one awaitable. -/
inductive Task (Op Loc Ret : Type)
  | call (op : Op) (pc : CallPc Loc Ret)
  | exit (hasException : Bool) (pc : ExitPc)

/-- The call that made a task. -/
inductive Call (Op : Type)
  | op (op : Op)
  | exit (hasException : Bool)
  deriving DecidableEq, Repr

/-- Where the Python thread is within a synchronous call on the wrapper. -/
inductive Python (Knob : Type)
  | idle
  | tested (code : UInt32)
  | stored (code : UInt32)
  | cancelled (code : UInt32)
  | locked (code : UInt32)
  | sent (code : UInt32)
  | assigned (k : Knob)
  | applying (k : Knob)
  | applied (k : Knob)
  | recorded

/-- What the tasks and the Python thread share.  `log` lists the calls on the
QUIC stream, oldest first; `entered` is a history variable that lists the tasks
in the order in which they got the guard for their own work. -/
structure Shared (Ev Vars : Type) where
  log : List Ev
  vars : Vars
  code : UInt32
  cancelled : Bool
  lock : FifoLock Owner
  entered : List Nat

/-- A wrapper with everything that runs on it.  Tasks are numbered in the order
of the calls that spawned them. -/
structure World (Op Loc Ret Ev Vars Knob : Type) extends Shared Ev Vars where
  tasks : List (Task Op Loc Ret)
  python : Python Knob

/-- The steps.  `task` and `python` carry the call on the QUIC stream that the
step makes, if it makes one, with the answer. -/
inductive Action (Op Ev Knob : Type)
  | call (op : Op)
  | exit (hasException : Bool)
  | close (code : UInt32)
  | assign (k : Knob)
  | python (ans : Option Ev)
  | task (i : Nat) (ans : Option Ev)
  | drop (i : Nat)

variable {Op Loc Ret Ev Vars Knob : Type}

/-- How a QUIC stream answers the calls of a wrapper: `Q log e` says that after
the calls in `log` the next call can be the one in `e`, with that answer. -/
abbrev Answers (Ev : Type) := List Ev → Ev → Prop

def Action.answer : Action Op Ev Knob → Option Ev
  | .python ans => ans
  | .task _ ans => ans
  | _ => none

def Task.called : Task Op Loc Ret → Call Op
  | .call op _ => .op op
  | .exit hasException _ => .exit hasException

/-- The calls that have been made on the wrapper, in order. -/
def World.calls (w : World Op Loc Ret Ev Vars Knob) : List (Call Op) :=
  w.tasks.map Task.called

def Task.pending : Task Op Loc Ret → Bool
  | .call _ (.done _) | .call _ .dropped => false
  | .exit _ .returned | .exit _ .dropped => false
  | _ => true

/-- No operation is pending on the wrapper. -/
def World.Quiet (w : World Op Loc Ret Ev Vars Knob) : Prop :=
  ∀ t ∈ w.tasks, t.pending = false

instance (w : World Op Loc Ret Ev Vars Knob) : Decidable w.Quiet :=
  inferInstanceAs (Decidable (∀ t ∈ w.tasks, _))

/-- The test of the token with which a close call begins. -/
def World.testToken {ε : Type} (w : World Op Loc Ret Ev Vars Knob) (err : ε) :
    Except ε Unit :=
  if w.cancelled then .error err else .ok ()

def Beat.pc : Beat Loc Ret → CallPc Loc Ret
  | .more l => .running l
  | .pend l => .suspended l
  | .ready r => .built r

namespace Shared

variable (sh : Shared Ev Vars)

/-- Ask for the mutex, as `lock().await` does when it is polled. -/
def request (o : Owner) : Shared Ev Vars :=
  { sh with lock := sh.lock.request o }

/-- Drop the guard, or the future that waits for it. -/
def leave (o : Owner) : Shared Ev Vars :=
  { sh with lock := sh.lock.leave o }

/-- Get to one's own work with the guard. -/
def enter (i : Nat) : Shared Ev Vars :=
  { sh with entered := sh.entered ++ [i] }

def record (evs : List Ev) : Shared Ev Vars :=
  { sh with log := sh.log ++ evs }

def Owns (o : Owner) : Prop :=
  sh.lock.holder = some o

instance (o : Owner) : Decidable (sh.Owns o) :=
  inferInstanceAs (Decidable (_ = _))

end Shared

namespace Half

variable (H : Half Op Loc Ret Ev Vars Knob)

/-- One step of the task of an operation: `cancellable_write` and
`cancellable_read`.  Each poll of the biased `select!` looks at the token
first; when it is set the body is dropped, and the cancel branch locks the
mutex again, loads the code and closes the stream. -/
def callStep (i : Nat) (op : Op) (pc : CallPc Loc Ret) (ans : Option Ev)
    (sh : Shared Ev Vars) : Option (CallPc Loc Ret × Shared Ev Vars) :=
  match pc, ans with
  -- `_ = cancel.cancelled()`
  | .spawned, none =>
      some (if sh.cancelled then .interrupted none else .checked, sh)
  | .waiting, none =>
      some (if sh.cancelled then .interrupted none else .checked, sh)
  | .suspended l, none =>
      some (if sh.cancelled then .interrupted (some l) else .running l, sh)
  -- `stream.lock_owned().await`
  | .checked, none =>
      let sh' := sh.request (.task i)
      some (if sh'.Owns (.task i)
        then (.running (H.enter op), sh'.enter i) else (.waiting, sh'))
  -- `write_fn(guard).await`
  | .running l, ans =>
      (H.body op l sh.vars ans).map fun (vars, beat) =>
        (beat.pc, { sh.record ans.toList with vars := vars })
  | .built r, none => some (.done r, sh.leave (.task i))
  -- the cancel branch, after the losing future is dropped
  | .interrupted l, none =>
      some (.closing, (sh.record (l.elim [] (H.dropped op))).leave (.task i))
  | .closing, none =>
      let sh' := sh.request (.task i)
      some (if sh'.Owns (.task i) then .closeHeld else .closeWaiting, sh')
  | .closeWaiting, none =>
      if sh.Owns (.task i) then some (.closeHeld, sh) else none
  | .closeHeld, none => some (.closeLoaded sh.code, sh)
  | .closeLoaded code, some e =>
      if H.closeCode e = some code then some (.closeSent, sh.record [e])
      else none
  | .closeSent, none => some (.done H.closedLocally, sh.leave (.task i))
  | _, _ => none

/-- One step of an `__aexit__`. -/
def exitStep (i : Nat) (hasException : Bool) (pc : ExitPc) (ans : Option Ev)
    (sh : Shared Ev Vars) : Option (ExitPc × Shared Ev Vars) :=
  match pc, ans with
  | .spawned, none =>
      if hasException then some (.stored, { sh with code := 0 })
      else if H.exitSkips sh.vars then some (.returned, sh)
      else some (.ready, sh)
  | .stored, none => some (.ready, { sh with cancelled := true })
  | .ready, none =>
      let sh' := sh.request (.task i)
      some (if sh'.Owns (.task i)
        then (.held, sh'.enter i) else (.waiting, sh'))
  | .waiting, none =>
      if sh.Owns (.task i) then some (.held, sh.enter i) else none
  | .held, some e =>
      if (if hasException || H.exitCloses then H.closeCode e = some 0
        else H.isFinish e) then some (.sent, sh.record [e])
      else none
  | .sent, none => some (.returned, sh.leave (.task i))
  | _, _ => none

def taskStep (i : Nat) (t : Task Op Loc Ret) (ans : Option Ev)
    (sh : Shared Ev Vars) : Option (Task Op Loc Ret × Shared Ev Vars) :=
  match t with
  | .call op pc =>
      (H.callStep i op pc ans sh).map fun (pc', sh') => (.call op pc', sh')
  | .exit hasException pc =>
      (H.exitStep i hasException pc ans sh).map fun (pc', sh') =>
        (.exit hasException pc', sh')

/-- Asyncio cancellation drops a task that is suspended. -/
def taskDrop (i : Nat) (t : Task Op Loc Ret) (sh : Shared Ev Vars) :
    Option (Task Op Loc Ret × Shared Ev Vars) :=
  match t with
  | .call op .spawned => some (.call op .dropped, sh)
  | .call op .waiting => some (.call op .dropped, sh.leave (.task i))
  | .call op (.suspended l) =>
      some (.call op .dropped, (sh.record (H.dropped op l)).leave (.task i))
  | .call op .closeWaiting => some (.call op .dropped, sh.leave (.task i))
  | .exit hasException .spawned => some (.exit hasException .dropped, sh)
  | .exit hasException .waiting =>
      some (.exit hasException .dropped, sh.leave (.task i))
  | _ => none

/-- The next step of the synchronous call that the Python thread is in: `reset`
and `stop` after their test of the token, or the assignment of an attribute. -/
def pythonStep (py : Python Knob) (ans : Option Ev) (sh : Shared Ev Vars) :
    Option (Python Knob × Shared Ev Vars) :=
  match py, ans with
  | .tested code, none => some (.stored code, { sh with code := code })
  | .stored code, none => some (.cancelled code, { sh with cancelled := true })
  | .cancelled code, none =>
      match sh.lock.tryLock .python with
      | some lock => some (.locked code, { sh with lock := lock })
      | none => some (.idle, sh)
  | .locked code, some e =>
      if H.closeCode e = some code then some (.sent code, sh.record [e])
      else none
  | .sent _, none => some (.idle, sh.leave .python)
  | .assigned k, none =>
      match sh.lock.tryLock .python with
      | some lock => some (.applying k, { sh with lock := lock })
      | none => some (.idle, sh)
  | .applying k, some e =>
      if H.isApply k e then some (.applied k, sh.record [e]) else none
  | .applied k, none =>
      some (.recorded, { sh with vars := H.recordApplied k sh.vars })
  | .recorded, none => some (.idle, sh.leave .python)
  | _, _ => none

/-- The state after a step, if the step can be taken. -/
def next (w : World Op Loc Ret Ev Vars Knob) :
    Action Op Ev Knob → Option (World Op Loc Ret Ev Vars Knob)
  | .call op =>
      match w.python with
      | .idle => some { w with tasks := w.tasks ++ [.call op .spawned] }
      | _ => none
  | .exit hasException =>
      match w.python with
      | .idle =>
          some { w with tasks := w.tasks ++ [.exit hasException .spawned] }
      | _ => none
  | .close code =>
      match w.python with
      -- `if self.cancel.is_cancelled() { return Err(..) }`
      | .idle => some (if w.cancelled then w else { w with python := .tested code })
      | _ => none
  | .assign k =>
      match w.python with
      | .idle =>
          some { w with vars := H.assign k w.vars, python := .assigned k }
      | _ => none
  | .python ans =>
      (H.pythonStep w.python ans w.toShared).map fun (py, sh) =>
        { w with toShared := sh, python := py }
  | .task i ans =>
      w.tasks[i]?.bind fun t =>
        (H.taskStep i t ans w.toShared).map fun (t', sh) =>
          { w with toShared := sh, tasks := w.tasks.set i t' }
  | .drop i =>
      w.tasks[i]?.bind fun t =>
        (H.taskDrop i t w.toShared).map fun (t', sh) =>
          { w with toShared := sh, tasks := w.tasks.set i t' }

/-- A step of the wrapper on a QUIC stream that answers as `Q` allows. -/
def Step (Q : Answers Ev) (w : World Op Loc Ret Ev Vars Knob)
    (l : Action Op Ev Knob) (w' : World Op Loc Ret Ev Vars Knob) : Prop :=
  H.next w l = some w' ∧ ∀ e ∈ l.answer, Q w.log e

end Half

/-- A wrapper around a QUIC stream that nothing has been done with. -/
def World.init (vars : Vars) : World Op Loc Ret Ev Vars Knob where
  log := []
  vars := vars
  code := 0
  cancelled := false
  lock := .unlocked
  entered := []
  tasks := []
  python := .idle

/-- The step function on a QUIC stream whose answers can be tested. -/
def Half.tryNext (H : Half Op Loc Ret Ev Vars Knob)
    (q : List Ev → Ev → Bool) (w : World Op Loc Ret Ev Vars Knob)
    (l : Action Op Ev Knob) : Option (World Op Loc Ret Ev Vars Knob) :=
  if l.answer.all (q w.log) then H.next w l else none

/-- The state after a list of steps that can all be taken. -/
def Half.after (H : Half Op Loc Ret Ev Vars Knob) (q : List Ev → Ev → Bool)
    (w : World Op Loc Ret Ev Vars Knob) (ls : List (Action Op Ev Knob)) :
    World Op Loc Ret Ev Vars Knob :=
  (replay (H.tryNext q) w ls).getD w

section Replay

variable {H : Half Op Loc Ret Ev Vars Knob} {q : List Ev → Ev → Bool}
  {w w' : World Op Loc Ret Ev Vars Knob} {l : Action Op Ev Knob}
  {ls : List (Action Op Ev Knob)}

theorem Half.step_of_tryNext (h : H.tryNext q w l = some w') :
    H.Step (fun log e => q log e = true) w l w' := by
  unfold Half.tryNext at h
  split at h
  · rename_i hall
    refine ⟨h, fun e he => ?_⟩
    rw [Option.mem_def] at he
    simpa [he] using hall
  · cases h

theorem Half.run_after (h : (replay (H.tryNext q) w ls).isSome = true) :
    Run (H.Step fun log e => q log e = true) w (replayTrace (H.tryNext q) w ls)
      (H.after q w ls) :=
  run_replayEnd (fun _ _ _ => Half.step_of_tryNext) h

end Replay

end WebTransport.Wrapper
