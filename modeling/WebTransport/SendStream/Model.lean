import WebTransport.Errors
import WebTransport.Wrapper.Moves

/-!
# The send half

`SendStream`: the bodies of its operations, each with the priority
synchronisation that every operation does first, its exits and its setter.  The
calls on the QUIC stream are listed with their answers in the order in which
they are made; the functions at the end read off that list what the stream has
accepted and whether it has been closed.
-/

namespace WebTransport.SendStream

open Support Wrapper

/-- The calls on `web_transport_quinn::SendStream` with their answers.  The
only error of `finish`, `reset` and `set_priority` is that the stream is
closed. -/
inductive Event
  | write (data : List UInt8) (r : Poll (Except WriteError Nat))
  | finish (ok : Bool)
  | reset (code : UInt32) (ok : Bool)
  | stopped (r : Poll (Except SessionError (Option UInt32)))
  | setPriority (priority : Int32) (ok : Bool)

/-! ## The operations -/

inductive Op
  | write (data : List UInt8)
  | writeSome (data : List UInt8)
  | finish
  | waitClosed
  deriving DecidableEq, Repr

/-- What an operation hands to Python. -/
inductive Value
  | none
  | count (n : Nat)
  | code (c : Option UInt32)
  deriving DecidableEq, Repr

abbrev Ret := Except PyErr Value

/-- The two priority atomics. -/
structure Priorities where
  priority : Int32
  syncedPriority : Int32
  deriving DecidableEq, Repr

/-- Where a body is: in the priority synchronisation, or at its call on the
stream, of which `sent` bytes have been accepted so far. -/
inductive Loc
  | loadPriority
  | compare (desired : Int32)
  | setPriority (desired : Int32)
  | storeSynced (desired : Int32)
  | call (sent : Nat)
  deriving DecidableEq, Repr

section Bodies

variable (errorFromHttp3 : ErrorFromHttp3)

/-- `guard.write_all(&data)`, which calls `write` until nothing is left. -/
def write (data : List UInt8) (sent : Nat) :
    Option Event → Option (Beat Loc Ret)
  | none => if data.drop sent = [] then some (.ready (.ok .none)) else none
  | some (.write rest r) =>
      if rest = data.drop sent ∧ rest ≠ [] then
        some (match r with
          | .pending => .pend (.call sent)
          | .ready (.ok n) => .more (.call (sent + n))
          | .ready (.error e) =>
              .ready (.error (mapWriteError errorFromHttp3 e)))
      else none
  | some _ => none

/-- `guard.write(&data)`. -/
def writeSome (data : List UInt8) (sent : Nat) :
    Option Event → Option (Beat Loc Ret)
  | some (.write rest r) =>
      if rest = data then
        some (match r with
          | .pending => .pend (.call sent)
          | .ready (.ok n) => .ready (.ok (.count n))
          | .ready (.error e) =>
              .ready (.error (mapWriteError errorFromHttp3 e)))
      else none
  | _ => none

/-- `guard.finish()`. -/
def finish : Option Event → Option (Beat Loc Ret)
  | some (.finish ok) =>
      some (.ready (if ok then .ok .none
        else .error (.streamClosedLocally "stream already closed")))
  | _ => none

/-- `guard.stopped()`. -/
def waitClosed (sent : Nat) : Option Event → Option (Beat Loc Ret)
  | some (.stopped r) =>
      some (match r with
        | .pending => .pend (.call sent)
        | .ready (.ok code) => .ready (.ok (.code code))
        | .ready (.error e) =>
            .ready (.error (mapSessionError errorFromHttp3 e)))
  | _ => none

/-- The body of an operation, with the guard in hand. -/
def body (op : Op) (loc : Loc) (v : Priorities) (ans : Option Event) :
    Option (Priorities × Beat Loc Ret) :=
  match loc, ans with
  | .loadPriority, none => some (v, .more (.compare v.priority))
  | .compare desired, none =>
      some (v, .more (if desired ≠ v.syncedPriority then .setPriority desired
        else .call 0))
  | .setPriority desired, some (.setPriority p _) =>
      if p = desired then some (v, .more (.storeSynced desired)) else none
  | .storeSynced desired, none =>
      some ({ v with syncedPriority := desired }, .more (.call 0))
  | .call sent, ans =>
      match op with
      | .write data => (write errorFromHttp3 data sent ans).map (v, ·)
      | .writeSome data => (writeSome errorFromHttp3 data sent ans).map (v, ·)
      | .finish => (finish ans).map (v, ·)
      | .waitClosed => (waitClosed errorFromHttp3 sent ans).map (v, ·)
  | _, _ => none

end Bodies

/-! ## The moves of a body -/

/-- The steps of a body, one for each thing that can happen in it. -/
inductive BodyMove (errorFromHttp3 : ErrorFromHttp3) (v : Priorities) :
    Op → Loc → Option Event → Priorities → Beat Loc Ret → Prop
  | loads (op : Op) :
      BodyMove errorFromHttp3 v op .loadPriority none v
        (.more (.compare v.priority))
  | differs (op : Op) (desired : Int32) (hne : desired ≠ v.syncedPriority) :
      BodyMove errorFromHttp3 v op (.compare desired) none v
        (.more (.setPriority desired))
  | agrees (op : Op) (desired : Int32) (heq : desired = v.syncedPriority) :
      BodyMove errorFromHttp3 v op (.compare desired) none v (.more (.call 0))
  | applies (op : Op) (desired : Int32) (ok : Bool) :
      BodyMove errorFromHttp3 v op (.setPriority desired)
        (some (.setPriority desired ok)) v (.more (.storeSynced desired))
  | storesSynced (op : Op) (desired : Int32) :
      BodyMove errorFromHttp3 v op (.storeSynced desired) none
        { v with syncedPriority := desired } (.more (.call 0))
  | writeEnds (data : List UInt8) (sent : Nat) (hnil : data.drop sent = []) :
      BodyMove errorFromHttp3 v (.write data) (.call sent) none v
        (.ready (.ok .none))
  | writePends (data : List UInt8) (sent : Nat) (hne : data.drop sent ≠ []) :
      BodyMove errorFromHttp3 v (.write data) (.call sent)
        (some (.write (data.drop sent) .pending)) v (.pend (.call sent))
  | writeAccepts (data : List UInt8) (sent n : Nat)
      (hne : data.drop sent ≠ []) :
      BodyMove errorFromHttp3 v (.write data) (.call sent)
        (some (.write (data.drop sent) (.ready (.ok n)))) v
        (.more (.call (sent + n)))
  | writeFails (data : List UInt8) (sent : Nat) (e : WriteError)
      (hne : data.drop sent ≠ []) :
      BodyMove errorFromHttp3 v (.write data) (.call sent)
        (some (.write (data.drop sent) (.ready (.error e)))) v
        (.ready (.error (mapWriteError errorFromHttp3 e)))
  | somePends (data : List UInt8) (sent : Nat) :
      BodyMove errorFromHttp3 v (.writeSome data) (.call sent)
        (some (.write data .pending)) v (.pend (.call sent))
  | someAccepts (data : List UInt8) (sent n : Nat) :
      BodyMove errorFromHttp3 v (.writeSome data) (.call sent)
        (some (.write data (.ready (.ok n)))) v (.ready (.ok (.count n)))
  | someFails (data : List UInt8) (sent : Nat) (e : WriteError) :
      BodyMove errorFromHttp3 v (.writeSome data) (.call sent)
        (some (.write data (.ready (.error e)))) v
        (.ready (.error (mapWriteError errorFromHttp3 e)))
  | finishes (sent : Nat) :
      BodyMove errorFromHttp3 v .finish (.call sent) (some (.finish true)) v
        (.ready (.ok .none))
  | finishRefused (sent : Nat) :
      BodyMove errorFromHttp3 v .finish (.call sent) (some (.finish false)) v
        (.ready (.error (.streamClosedLocally "stream already closed")))
  | waits (sent : Nat) :
      BodyMove errorFromHttp3 v .waitClosed (.call sent)
        (some (.stopped .pending)) v (.pend (.call sent))
  | waitEnds (sent : Nat) (code : Option UInt32) :
      BodyMove errorFromHttp3 v .waitClosed (.call sent)
        (some (.stopped (.ready (.ok code)))) v (.ready (.ok (.code code)))
  | waitFails (sent : Nat) (e : SessionError) :
      BodyMove errorFromHttp3 v .waitClosed (.call sent)
        (some (.stopped (.ready (.error e)))) v
        (.ready (.error (mapSessionError errorFromHttp3 e)))

section Inversion

variable {errorFromHttp3 : ErrorFromHttp3} {v v' : Priorities} {op : Op}
  {loc : Loc} {ans : Option Event} {beat : Beat Loc Ret}
  {data : List UInt8} {sent : Nat}

theorem bodyMove_of_write
    (h : write errorFromHttp3 data sent ans = some beat) :
    BodyMove errorFromHttp3 v (.write data) (.call sent) ans v beat := by
  unfold write at h
  split at h
  · split at h
    · cases h
      exact .writeEnds data sent (by assumption)
    · cases h
  · split at h
    · rename_i r hrest
      obtain ⟨rfl, hne⟩ := hrest
      cases h
      match r with
      | .pending => exact .writePends data sent hne
      | .ready (.ok n) => exact .writeAccepts data sent n hne
      | .ready (.error e) => exact .writeFails data sent e hne
    · cases h
  · cases h

theorem bodyMove_of_writeSome
    (h : writeSome errorFromHttp3 data sent ans = some beat) :
    BodyMove errorFromHttp3 v (.writeSome data) (.call sent) ans v beat := by
  unfold writeSome at h
  split at h
  · split at h
    · rename_i r hrest
      subst hrest
      cases h
      match r with
      | .pending => exact .somePends _ sent
      | .ready (.ok n) => exact .someAccepts _ sent n
      | .ready (.error e) => exact .someFails _ sent e
    · cases h
  · cases h

theorem bodyMove_of_finish (h : finish ans = some beat) :
    BodyMove errorFromHttp3 v .finish (.call sent) ans v beat := by
  unfold finish at h
  split at h
  · rename_i ok
    cases h
    cases ok with
    | true => exact .finishes sent
    | false => exact .finishRefused sent
  · cases h

theorem bodyMove_of_waitClosed
    (h : waitClosed errorFromHttp3 sent ans = some beat) :
    BodyMove errorFromHttp3 v .waitClosed (.call sent) ans v beat := by
  unfold waitClosed at h
  split at h
  · rename_i r
    cases h
    match r with
    | .pending => exact .waits sent
    | .ready (.ok code) => exact .waitEnds sent code
    | .ready (.error e) => exact .waitFails sent e
  · cases h

theorem bodyMove_of_body
    (h : body errorFromHttp3 op loc v ans = some (v', beat)) :
    BodyMove errorFromHttp3 v op loc ans v' beat := by
  unfold body at h
  split at h
  case h_1 => cases h; exact .loads op
  case h_2 desired =>
    by_cases hd : desired ≠ v.syncedPriority
    · simp only [hd, if_true, not_false_eq_true, ne_eq, Option.some.injEq,
        Prod.mk.injEq] at h
      obtain ⟨rfl, rfl⟩ := h
      exact .differs op desired hd
    · simp only [hd, if_false, Option.some.injEq, Prod.mk.injEq] at h
      obtain ⟨rfl, rfl⟩ := h
      exact .agrees op desired (not_not.mp hd)
  case h_3 =>
    split at h
    · rename_i hp
      subst hp
      cases h
      exact .applies op _ _
    · cases h
  case h_4 => cases h; exact .storesSynced op _
  case h_5 =>
    split at h <;>
      (obtain ⟨b, hb, heq⟩ := Option.map_eq_some_iff.mp h; cases heq)
    · exact bodyMove_of_write hb
    · exact bodyMove_of_writeSome hb
    · exact bodyMove_of_finish hb
    · exact bodyMove_of_waitClosed hb
  case h_6 => cases h

end Inversion

/-! ## The wrapper -/

def Event.closeCode : Event → Option UInt32
  | .reset code _ => some code
  | _ => none

def Event.isFinish : Event → Bool
  | .finish _ => true
  | _ => false

/-- `SendStream` as a half: an exit on an exception resets with code `0`, a
clean one finishes, and `set_priority` is the one assignment. -/
def half (errorFromHttp3 : ErrorFromHttp3) :
    Half Op Loc Ret Event Priorities Int32 where
  enter _ := .loadPriority
  body := body errorFromHttp3
  dropped _ _ := []
  closedLocally := .error (.streamClosedLocally "stream reset locally")
  closeCode := Event.closeCode
  exitSkips _ := false
  exitCloses := false
  isFinish := Event.isFinish
  assign value v := { v with priority := value }
  isApply value
    | .setPriority p _ => p = value
    | _ => false
  recordApplied value v := { v with syncedPriority := value }
  body_closeCode op l v e r h := by
    obtain ⟨v', beat⟩ := r
    cases bodyMove_of_body h <;> rfl
  dropped_closeCode op l e h := by cases h
  finish_closeCode e h := by
    cases e <;> first | rfl | cases h
  apply_closeCode k e h := by
    cases e <;> first | rfl | cases h

section Calls

variable {errorFromHttp3 : ErrorFromHttp3} {e : Event}

theorem eq_reset_of_closeCode {code : UInt32} (he : e.closeCode = some code) :
    ∃ ok, e = .reset code ok := by
  cases e with
  | reset code ok =>
      cases he
      exact ⟨ok, rfl⟩
  | _ => cases he

theorem eq_finish_of_isFinish (he : e.isFinish = true) : ∃ ok, e = .finish ok := by
  cases e with
  | finish ok => exact ⟨ok, rfl⟩
  | _ => cases he

theorem eq_setPriority_of_isApply {value : Int32}
    (he : (half errorFromHttp3).isApply value e = true) :
    ∃ ok, e = .setPriority value ok := by
  cases e with
  | setPriority p ok =>
      obtain rfl : p = value := by simpa [half] using he
      exact ⟨ok, rfl⟩
  | _ => cases he

end Calls

/-- A `SendStream` with its tasks. -/
abbrev World := Wrapper.World Op Loc Ret Event Priorities Int32

/-- `SendStream::new` on a stream of the given priority. -/
abbrev new (priority : Int32) : World :=
  .init { priority := priority, syncedPriority := priority }

/-- `reset`, up to its test of the token. -/
def reset (w : World) : Except PyErr Unit :=
  w.testToken (.streamClosedLocally "stream already closed")

/-! ## Reading the list of calls -/

/-- The bytes that a call hands over to the stream. -/
def Event.bytes : Event → List UInt8
  | .write data (.ready (.ok n)) => data.take n
  | _ => []

/-- A successful `finish` or `reset`. -/
def Event.closes : Event → Bool
  | .finish ok => ok
  | .reset _ ok => ok
  | _ => false

def Event.finishes : Event → Bool
  | .finish ok => ok
  | _ => false

/-- All the bytes that the stream has accepted, in order. -/
def written (log : List Event) : List UInt8 :=
  log.flatMap Event.bytes

/-- `finish` or `reset` has succeeded. -/
def Closed (log : List Event) : Prop :=
  log.any Event.closes = true

/-- `finish` has succeeded. -/
def Finished (log : List Event) : Prop :=
  log.any Event.finishes = true

instance (log : List Event) : Decidable (Closed log) :=
  inferInstanceAs (Decidable (_ = _))

instance (log : List Event) : Decidable (Finished log) :=
  inferInstanceAs (Decidable (_ = _))

section Log

variable {log evs : List Event} {e : Event}

@[simp] theorem written_append :
    written (log ++ evs) = written log ++ written evs := by
  simp [written]

@[simp] theorem written_singleton : written [e] = e.bytes := by
  simp [written]

@[simp] theorem written_nil : written [] = [] := rfl

@[simp] theorem closed_append : Closed (log ++ evs) ↔ Closed log ∨ Closed evs := by
  simp only [Closed, List.any_append, Bool.or_eq_true]

@[simp] theorem closed_singleton : Closed [e] ↔ e.closes = true := by
  simp [Closed]

@[simp] theorem not_closed_nil : ¬ Closed [] := by
  simp [Closed]

@[simp] theorem finished_append :
    Finished (log ++ evs) ↔ Finished log ∨ Finished evs := by
  simp only [Finished, List.any_append, Bool.or_eq_true]

@[simp] theorem finished_singleton : Finished [e] ↔ e.finishes = true := by
  simp [Finished]

@[simp] theorem not_finished_nil : ¬ Finished [] := by
  simp [Finished]

theorem closed_mono {log' : List Event} (h : log <+: log') (hclosed : Closed log) :
    Closed log' := by
  obtain ⟨rest, rfl⟩ := h
  exact closed_append.mpr (Or.inl hclosed)

theorem Finished.closed (h : Finished log) : Closed log := by
  simp only [Finished, Closed, List.any_eq_true] at h ⊢
  obtain ⟨e, he, hfin⟩ := h
  refine ⟨e, he, ?_⟩
  cases e <;> simp_all [Event.finishes, Event.closes]

end Log

section Growth

variable {errorFromHttp3 : ErrorFromHttp3} {Q : Answers Event} {i : ℕ}
  {sh sh' : Shared Event Priorities} {t t' : Task Op Loc Ret}
  {ans : Option Event} {w w' : World} {l : Action Op Event Int32}

theorem log_of_taskMove (h : TaskMove (half errorFromHttp3) i sh t ans t' sh') :
    sh'.log = sh.log ++ ans.toList := by
  cases h with
  | call op h =>
      cases h with
      | letsGo loc => cases loc <;> simp [Shared.record, Shared.leave, half]
      | _ => simp [Shared.record, Shared.request, Shared.leave, Shared.enter]
  | exit b h =>
      cases h <;> simp [Shared.record, Shared.request, Shared.leave, Shared.enter]

theorem log_of_dropMove (h : DropMove (half errorFromHttp3) i sh t t' sh') :
    sh'.log = sh.log := by
  cases h with
  | callSuspended => simp [Shared.record, Shared.leave, half]
  | _ => rfl

theorem log_of_pythonMove {py py' : Python Int32}
    (h : PythonMove (half errorFromHttp3) sh py ans py' sh') :
    sh'.log = sh.log ++ ans.toList := by
  cases h <;> simp [Shared.record, Shared.leave]

theorem log_of_step (h : (half errorFromHttp3).Step Q w l w') :
    w'.log = w.log ++ l.answer.toList := by
  cases h.move with
  | python ans hm => exact log_of_pythonMove hm
  | task i ans hi hm => exact log_of_taskMove hm
  | drop i hi hm => simpa [Action.answer] using log_of_dropMove hm
  | _ => simp [Action.answer]

end Growth

/-! ## What is assumed of the QUIC stream -/

section Laws

variable (Q : Answers Event)

/-- `finish` succeeds exactly on a stream that is neither finished nor reset. -/
def FinishLaw : Prop :=
  ∀ log ok, Q log (.finish ok) → (ok = true ↔ ¬ Closed log)

/-- `write` accepts a prefix of its argument and returns its length. -/
def WriteLaw : Prop :=
  ∀ log data n, Q log (.write data (.ready (.ok n))) → n ≤ data.length

/-- After `finish` or `reset` every `write` fails with `ClosedStream`. -/
def ClosedWriteLaw : Prop :=
  ∀ log data r, Q log (.write data r) → Closed log →
    r = .ready (.error .closedStream)

/-- With a healthy session and a peer that reads, `write` and `finish` fail only
on a stream that is closed locally. -/
def HealthyPeer : Prop :=
  (∀ log data e, Q log (.write data (.ready (.error e))) → Closed log) ∧
    ∀ log, Q log (.finish false) → Closed log

end Laws

/-! ## A QUIC stream for concrete runs -/

/-- The answers of an open session whose peer neither stops the stream nor
resets anything: `write` may be held up by flow control, and `stopped` resolves
only after `finish` or `reset`. -/
def openSession (log : List Event) : Event → Bool
  | .write _ .pending => !decide (Closed log)
  | .write data (.ready (.ok n)) => !decide (Closed log) && n ≤ data.length
  | .write _ (.ready (.error e)) => decide (Closed log) && e = .closedStream
  | .finish ok => ok = !decide (Closed log)
  | .reset _ ok => ok = !log.any fun e => e.closeCode.isSome
  | .stopped .pending => true
  | .stopped (.ready (.ok none)) => decide (Closed log)
  | .stopped _ => false
  | .setPriority _ ok => ok = !decide (Closed log)

abbrev OpenSession : Answers Event :=
  fun log e => openSession log e = true

theorem openSession_finishLaw : FinishLaw OpenSession := by
  intro log ok h
  simp only [OpenSession, openSession, decide_eq_true_eq] at h
  simp [h]

theorem openSession_writeLaw : WriteLaw OpenSession := by
  intro log data n h
  simp only [OpenSession, openSession, Bool.and_eq_true, decide_eq_true_eq] at h
  exact h.2

theorem openSession_closedWriteLaw : ClosedWriteLaw OpenSession := by
  intro log data r h hclosed
  match r with
  | .pending => simp [OpenSession, openSession, hclosed] at h
  | .ready (.ok n) => simp [OpenSession, openSession, hclosed] at h
  | .ready (.error e) => simp_all [OpenSession, openSession]

theorem openSession_healthyPeer : HealthyPeer OpenSession := by
  constructor
  · intro log data e h
    simp only [OpenSession, openSession, Bool.and_eq_true, decide_eq_true_eq] at h
    exact h.1
  · intro log h
    simpa [OpenSession, openSession] using h

section Runs

variable {w : World}

abbrev after (w : World) (ls : List (Action Op Event Int32)) : World :=
  (half noCodes).after openSession w ls

theorem run_after (ls : List (Action Op Event Int32))
    (h : (replay ((half noCodes).tryNext openSession) w ls).isSome = true) :
    Run ((half noCodes).Step OpenSession) w
      (replayTrace ((half noCodes).tryNext openSession) w ls) (after w ls) :=
  Half.run_after h

end Runs

def startCall (op : Op) (i : ℕ) : List (Action Op Event Int32) :=
  [.call op, .task i none, .task i none, .task i none, .task i none]

def startReset (code : UInt32) : List (Action Op Event Int32) :=
  [.close code, .python none, .python none]

def blocked : World :=
  after (new 0) (startCall (.write [1]) 0 ++
    [.task 0 (some (.write [1] .pending))])

def interrupted : World :=
  after blocked (startReset 7)

end WebTransport.SendStream
