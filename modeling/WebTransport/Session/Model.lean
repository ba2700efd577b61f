import WebTransport.Errors.Reason
import WebTransport.Wrapper.OneCall

/-!
# The session

`Session`: its awaitables, each a task that awaits one call on the QUIC session,
its exits, and its synchronous calls.  Nothing is locked here: the QUIC session is
shared, and whatever is done with it is a call on a black box.
-/

namespace WebTransport.Session

open Support Wrapper

/-- A stream that the QUIC session hands out: which one it is, and the priority
that it reports. -/
structure QuicStream where
  id : ℕ
  priority : Option Int32
  deriving DecidableEq, Repr

/-- The calls on `web_transport_quinn::Session` with their answers. -/
inductive Event
  | openBi (r : Poll (Except SessionError QuicStream))
  | openUni (r : Poll (Except SessionError QuicStream))
  | acceptBi (r : Poll (Except SessionError QuicStream))
  | acceptUni (r : Poll (Except SessionError QuicStream))
  | sendDatagram (data : List UInt8) (r : Except SessionError Unit)
  | readDatagram (r : Poll (Except SessionError (List UInt8)))
  | close (code : UInt32) (reason : List UInt8)
  | closed (r : Poll SessionError)
  | closeReason (r : Option SessionError)
  deriving DecidableEq

/-! ## The operations -/

inductive Op
  | aenter
  | aexit
  | openBi
  | openUni
  | acceptBi
  | acceptUni
  | receiveDatagram
  | waitClosed
  deriving DecidableEq, Repr

/-- What an operation hands to Python. -/
inductive Value
  | none
  | self
  | streams (s : QuicStream)
  | sendStream (s : QuicStream)
  | recvStream (s : QuicStream)
  | bytes (data : List UInt8)
  deriving DecidableEq, Repr

abbrev Ret := Except PyErr Value

abbrev Pc := OneCall.Pc PyErr Value

abbrev Task := OneCall.Task Op PyErr Value

/-- How the task of an operation begins. -/
def first : Op → First Event Value
  | .aenter => .returns .self
  -- `session.close(0, b"")`
  | .aexit => .calls (.close 0 [])
  | _ => .awaits

section Calls

variable (errorFromHttp3 : ErrorFromHttp3)

/-- `.await.map_err(errors::map_session_error)?` -/
def reply {α : Type} (f : α → Value) : Poll (Except SessionError α) → Poll Ret
  | .pending => .pending
  | .ready (.ok a) => .ready (.ok (f a))
  | .ready (.error e) => .ready (.error (mapSessionError errorFromHttp3 e))

/-- `let _ = session.closed().await` -/
def ignored : Poll SessionError → Poll Ret
  | .pending => .pending
  | .ready _ => .ready (.ok .none)

/-- The call that an operation awaits, and what it makes of the answer. -/
def awaits : Op → Event → Option (Poll Ret)
  | .openBi, .openBi r => some (reply errorFromHttp3 .streams r)
  | .openUni, .openUni r => some (reply errorFromHttp3 .sendStream r)
  | .acceptBi, .acceptBi r => some (reply errorFromHttp3 .streams r)
  | .acceptUni, .acceptUni r => some (reply errorFromHttp3 .recvStream r)
  | .receiveDatagram, .readDatagram r => some (reply errorFromHttp3 .bytes r)
  | .waitClosed, .closed r => some (ignored r)
  | .aexit, .closed r => some (ignored r)
  | _, _ => none

/-- The operations of a session. -/
def oneCall : OneCall Op Event PyErr Value where
  first := first
  awaits := awaits errorFromHttp3
  awaits_of_returns {op _} e h := by
    cases op with
    | aenter => cases e <;> rfl
    | _ => cases h

/-- `send_datagram` -/
def sendDatagram : Except SessionError Unit → Except PyErr Unit
  | .ok () => .ok ()
  | .error e => .error (mapSessionError errorFromHttp3 e)

/-- `close_reason` -/
def closeReason (r : Option SessionError) : Option PyErr :=
  r.map (mapSessionError errorFromHttp3)

end Calls

/-! ## The system -/

/-- The calls that hand exceptions to Python: awaitables and `send_datagram` raise
them, `close_reason` returns one. -/
inductive Caller
  | op (op : Op)
  | sendDatagram
  | closeReason
  deriving DecidableEq, Repr

/-- A session with everything that runs on it.  `told` is a history variable: the
exceptions that were handed to Python, with the calls that they came from. -/
structure World where
  log : List Event
  tasks : List Task
  told : List (Caller × PyErr)

/-- The steps: the call of an awaitable, the synchronous calls, a step of a task,
and an asyncio cancellation. -/
inductive Action
  | call (op : Op)
  | sendDatagram (data : List UInt8) (r : Except SessionError Unit)
  | close (code : UInt32) (reason : String)
  | closeReason (r : Option SessionError)
  | task (i : ℕ) (ans : Option Event)
  | drop (i : ℕ)

/-- The call on the QUIC session that a step makes. -/
def Action.event : Action → Option Event
  | .sendDatagram data r => some (.sendDatagram data r)
  | .close code reason => some (.close code (asBytes reason))
  | .closeReason r => some (.closeReason r)
  | .task _ ans => ans
  | .call _ | .drop _ => none

def new : World where
  log := []
  tasks := []
  told := []

section Steps

variable (errorFromHttp3 : ErrorFromHttp3)

/-- The state after a step, if the step can be taken. -/
def next (w : World) (l : Action) : Option World :=
  match l with
  | .call op => some { w with tasks := w.tasks ++ [⟨op, .spawned⟩] }
  | .sendDatagram data r =>
      some { w with
        log := w.log ++ [.sendDatagram data r]
        told := w.told ++ match sendDatagram errorFromHttp3 r with
          | .ok () => []
          | .error e => [(.sendDatagram, e)] }
  | .close code reason =>
      some { w with log := w.log ++ [.close code (asBytes reason)] }
  | .closeReason r =>
      some { w with
        log := w.log ++ [.closeReason r]
        told := w.told ++ ((closeReason errorFromHttp3 r).map fun e =>
          (.closeReason, e)).toList }
  | .task i ans =>
      w.tasks[i]?.bind fun t =>
        ((oneCall errorFromHttp3).taskStep t.op t.pc ans).map fun pc =>
          { w with
            log := w.log ++ ans.toList
            tasks := w.tasks.set i { t with pc := pc }
            told := w.told ++ (pc.raised.map fun e => (.op t.op, e)).toList }
  | .drop i =>
      w.tasks[i]?.bind fun t =>
        match t.pc with
        | .spawned | .suspended =>
            some { w with tasks := w.tasks.set i { t with pc := .dropped } }
        | _ => none

/-- A step on a QUIC session that answers as `Q` allows. -/
def Step (Q : Answers Event) (w : World) (l : Action) (w' : World) : Prop :=
  next errorFromHttp3 w l = some w' ∧ ∀ e ∈ l.event, Q w.log e

end Steps

/-! ## What a step can do -/

/-- The moves of a session. -/
inductive Move (errorFromHttp3 : ErrorFromHttp3) (w : World) :
    Action → World → Prop
  | call (op : Op) :
      Move errorFromHttp3 w (.call op)
        { w with tasks := w.tasks ++ [⟨op, .spawned⟩] }
  | datagram (data : List UInt8) :
      Move errorFromHttp3 w (.sendDatagram data (.ok ()))
        { w with log := w.log ++ [.sendDatagram data (.ok ())] }
  | datagramFails (data : List UInt8) (e : SessionError) :
      Move errorFromHttp3 w (.sendDatagram data (.error e)) { w with
        log := w.log ++ [.sendDatagram data (.error e)]
        told := w.told ++ [(.sendDatagram, mapSessionError errorFromHttp3 e)] }
  | close (code : UInt32) (reason : String) :
      Move errorFromHttp3 w (.close code reason)
        { w with log := w.log ++ [.close code (asBytes reason)] }
  | isOpen :
      Move errorFromHttp3 w (.closeReason none)
        { w with log := w.log ++ [.closeReason none] }
  | isClosed (e : SessionError) :
      Move errorFromHttp3 w (.closeReason (some e)) { w with
        log := w.log ++ [.closeReason (some e)]
        told := w.told ++ [(.closeReason, mapSessionError errorFromHttp3 e)] }
  | task (i : ℕ) (ans : Option Event) {t : Task} {pc : Pc}
      (hi : w.tasks[i]? = some t)
      (h : (oneCall errorFromHttp3).TaskMove t.op t.pc ans pc) :
      Move errorFromHttp3 w (.task i ans) { w with
        log := w.log ++ ans.toList
        tasks := w.tasks.set i { t with pc := pc }
        told := w.told ++ (pc.raised.map fun e => (.op t.op, e)).toList }
  | drop (i : ℕ) {t : Task} (hi : w.tasks[i]? = some t)
      (hpc : t.pc = .spawned ∨ t.pc = .suspended) :
      Move errorFromHttp3 w (.drop i)
        { w with tasks := w.tasks.set i { t with pc := .dropped } }

section Inversion

variable {errorFromHttp3 : ErrorFromHttp3} {Q : Answers Event} {op : Op}
  {w w' : World} {l : Action}

theorem first_eq_returns {v : Value} (h : first op = .returns v) :
    op = .aenter ∧ v = .self := by
  cases op with
  | aenter =>
      cases h
      exact ⟨rfl, rfl⟩
  | _ => cases h

theorem first_eq_calls {e : Event} (h : first op = .calls e) :
    op = .aexit ∧ e = .close 0 [] := by
  cases op with
  | aexit =>
      cases h
      exact ⟨rfl, rfl⟩
  | _ => cases h

theorem Step.move (h : Step errorFromHttp3 Q w l w') : Move errorFromHttp3 w l w' := by
  obtain ⟨h, -⟩ := h
  cases l with
  | call op =>
      cases h
      exact .call op
  | sendDatagram data r =>
      match r with
      | .ok () =>
          simp only [next, sendDatagram, List.append_nil, Option.some.injEq] at h
          subst h
          exact .datagram data
      | .error e =>
          cases h
          exact .datagramFails data e
  | close code reason =>
      cases h
      exact .close code reason
  | closeReason r =>
      cases r with
      | none =>
          simp only [next, closeReason, Option.map_none, Option.toList_none,
            List.append_nil, Option.some.injEq] at h
          subst h
          exact .isOpen
      | some e =>
          cases h
          exact .isClosed e
  | task i ans =>
      obtain ⟨t, hi, hrest⟩ := Option.bind_eq_some_iff.mp h
      obtain ⟨pc, hpc, heq⟩ := Option.map_eq_some_iff.mp hrest
      cases heq
      exact .task i ans hi (OneCall.taskMove_of_taskStep hpc)
  | drop i =>
      obtain ⟨t, hi, hrest⟩ := Option.bind_eq_some_iff.mp h
      split at hrest
      · rename_i hpc
        cases hrest
        exact .drop i hi (Or.inl hpc)
      · rename_i hpc
        cases hrest
        exact .drop i hi (Or.inr hpc)
      · cases hrest

theorem log_of_step (h : Step errorFromHttp3 Q w l w') :
    w'.log = w.log ++ l.event.toList := by
  cases h.move <;> simp [Action.event]

end Inversion

def tryNext (q : List Event → Event → Bool) (w : World) (l : Action) : Option World :=
  if l.event.all (q w.log) then next noCodes w l else none

def after (q : List Event → Event → Bool) (w : World) (ls : List Action) : World :=
  replayEnd (tryNext q) w ls

section Replay

variable {q : List Event → Event → Bool} {w w' : World} {l : Action}

theorem step_of_tryNext (h : tryNext q w l = some w') :
    Step noCodes (fun log e => q log e = true) w l w' := by
  unfold tryNext at h
  split at h
  · rename_i hall
    refine ⟨h, fun e he => ?_⟩
    rw [Option.mem_def] at he
    simpa [he] using hall
  · cases h

theorem run_after (ls : List Action) (h : (replay (tryNext q) w ls).isSome = true) :
    Run (Step noCodes fun log e => q log e = true) w
      (replayTrace (tryNext q) w ls) (after q w ls) :=
  run_replayEnd (fun _ _ _ => step_of_tryNext) h

end Replay

end WebTransport.Session
