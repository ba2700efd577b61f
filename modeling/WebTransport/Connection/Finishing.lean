import WebTransport.Connection.Model
import WebTransport.RecvStream.Progress
import WebTransport.SendStream.Progress
import WebTransport.Wrapper.Settling

/-!
# A lost connection leaves nothing hanging

When the connection is lost, the QUIC connection answers every call of every
wrapper at once.  From that moment on the session and all of its streams come to
rest together: what is due on each of them adds up to a measure that falls with
every step, whichever wrapper takes it.
-/

namespace WebTransport.Connection

open Support Wrapper

/-- Every call of every wrapper is answered at once. -/
structure Quic.Lost (Q : Quic) (errorFromHttp3 : ErrorFromHttp3) : Prop where
  answers : ∀ w op, op ≠ .aenter →
    ∃ e r, Session.awaits errorFromHttp3 op e = some (.ready r) ∧ Q.session w e
  closes : ∀ w, Q.session w (.close 0 [])
  immediate : ∀ {w op e}, Q.session w e →
    Session.awaits errorFromHttp3 op e ≠ some .pending
  send : ∀ w k, SendStream.Answering fun _ e => Q.send w k e
  write : SendStream.WriteProgress fun _ e => ∃ w k, Q.send w k e
  sendImmediate : SendStream.Immediate fun _ e => ∃ w k, Q.send w k e
  recv : ∀ w k, RecvStream.Answering fun _ e => Q.recv w k e
  read : RecvStream.ReadProgress fun _ e => ∃ w k, Q.recv w k e
  recvImmediate : RecvStream.Immediate fun _ e => ∃ w k, Q.recv w k e

/-! ## What is due on a connection -/

/-- A step of a task that is awake, of a synchronous call, or of asyncio when it
drops a task. -/
def World.Due (w : World) : Action → Prop
  | .session l =>
      match l with
      | .task _ _ | .drop _ => True
      | _ => False
  | .send k l => ∀ u ∈ w.sends[k]?, u.Due true l
  | .recv k l => ∀ u ∈ w.recvs[k]?, u.Due true l

def Action.isLocal : Action → Bool
  | .session l =>
      match l with
      | .task _ _ => true
      | _ => false
  | .send _ l => l.isLocal
  | .recv _ l => l.isLocal

/-- Nothing is pending on any wrapper. -/
structure World.AtRest (w : World) : Prop where
  session : ∀ t ∈ w.session.tasks, t.pc.pending = false
  sends : ∀ u ∈ w.sends, u.AtRest
  recvs : ∀ u ∈ w.recvs, u.AtRest

section HasTask

variable {Op Loc Ret Ev Vars Knob : Type} {H : Half Op Loc Ret Ev Vars Knob}
  {Q : Answers Ev} {u u' : Wrapper.World Op Loc Ret Ev Vars Knob}
  {xs : List (Wrapper.World Op Loc Ret Ev Vars Knob)}
  {p p' : Task Op Loc Ret → Bool} {j k i : ℕ} {l : Wrapper.Action Op Ev Knob}

/-- The task `i` of the half `k` has the property. -/
def HasTask (p : Task Op Loc Ret → Bool) (k i : ℕ)
    (xs : List (Wrapper.World Op Loc Ret Ev Vars Knob)) : Prop :=
  ∃ v ∈ xs[k]?, ∃ t ∈ v.tasks[i]?, p t = true

theorem HasTask.imp (h : HasTask p k i xs) (hp : ∀ t, p t = true → p' t = true) :
    HasTask p' k i xs := by
  obtain ⟨v, hk, t, hi, ht⟩ := h
  exact ⟨v, hk, t, hi, hp t ht⟩

theorem HasTask.append (h : HasTask p k i xs)
    (ys : List (Wrapper.World Op Loc Ret Ev Vars Knob)) :
    HasTask p k i (xs ++ ys) := by
  obtain ⟨v, hk, t, hi, ht⟩ := h
  refine ⟨v, ?_, t, hi, ht⟩
  exact (List.getElem?_append_left (lt_length_of_getElem? hk)).trans hk

theorem HasTask.set (h : HasTask (fun t => t.pending || t.completed) k i xs)
    (hj : xs[j]? = some u) (hs : H.Step Q u l u') (hl : l.isLocal = true) :
    HasTask (fun t => t.pending || t.completed) k i (xs.set j u') := by
  obtain ⟨v, hk, t, hi, ht⟩ := h
  by_cases hjk : j = k
  · subst hjk
    obtain rfl := Option.some.inj (hj.symm.trans hk)
    obtain ⟨t', hi', ht'⟩ := exists_task_of_step hs hl ⟨t, hi, by simpa using ht⟩
    exact ⟨u', getElem?_set_of_eq_some hj, t', hi', by simpa using ht'⟩
  · exact ⟨v, getElem?_set_of_ne hjk hk, t, hi, ht⟩

theorem HasTask.completed (h : HasTask (fun t => t.pending || t.completed) k i xs)
    (hrest : ∀ v ∈ xs, v.AtRest) : HasTask Task.completed k i xs := by
  obtain ⟨v, hk, t, hi, ht⟩ := h
  have hquiet := (hrest v (List.mem_of_getElem? hk)).quiet t (List.mem_of_getElem? hi)
  exact ⟨v, hk, t, hi, by simpa [hquiet] using ht⟩

end HasTask

section Lost

variable {errorFromHttp3 : ErrorFromHttp3} {Q Q₀ : Quic} {w w' : World} {l : Action}

def Quic.Lost.sendLoad (hQ : Q.Lost errorFromHttp3) (u : SendStream.World) : ℕ :=
  Half.dueLoad (@SendStream.progress errorFromHttp3 _ hQ.write) true u

def Quic.Lost.recvLoad (hQ : Q.Lost errorFromHttp3) (u : RecvStream.World) : ℕ :=
  Half.dueLoad (@RecvStream.progress errorFromHttp3 _ hQ.read) true u

def Quic.Lost.load (hQ : Q.Lost errorFromHttp3) (w : World) : ℕ :=
  (w.session.tasks.map fun t => t.pc.left).sum + (w.sends.map hQ.sendLoad).sum +
    (w.recvs.map hQ.recvLoad).sum

/-! ## The load falls -/

theorem Quic.Lost.answering (hQ : Q.Lost errorFromHttp3) (w : World) :
    (Session.oneCall errorFromHttp3).Answering (Q.session w) where
  answers op hop := by
    apply hQ.answers w op
    rintro rfl
    exact hop .self rfl
  calls hop := by
    obtain ⟨-, rfl⟩ := Session.first_eq_calls hop
    exact hQ.closes w

theorem dueLoad_init {Op Loc Ret Ev Vars Knob : Type}
    {H : Half Op Loc Ret Ev Vars Knob} {P : Answers Ev} (R : H.Progress P)
    (quic : Bool) (vars : Vars) :
    Half.dueLoad R quic (Wrapper.World.init vars) = 0 := by
  simp [Half.dueLoad, Wrapper.World.init, Python.left]

theorem sum_append_new {α β : Type} (f : α → ℕ) (xs : List α) (o : Option β)
    (g : β → α) (hnew : ∀ b, f (g b) = 0) :
    ((xs ++ (o.map g).toList).map f).sum = (xs.map f).sum := by
  cases o with
  | none => simp
  | some b => simp [hnew b]

theorem load_lt_of_step (hQ : Q.Lost errorFromHttp3)
    (h : Step errorFromHttp3 Q w l w') (hdue : w.Due l) :
    hQ.load w' < hQ.load w := by
  cases step_iff_move.mp h with
  | session l s hs =>
      have hfalls : (s.tasks.map fun t => t.pc.left).sum <
          (w.session.tasks.map fun t => t.pc.left).sum := by
        cases hs.move with
        | task i ans hi hm =>
            exact sum_map_set_lt hi (hm.left_lt fun e he => hQ.immediate (hs.2 e he))
        | drop i hi hpc =>
            apply sum_map_set_lt hi
            rcases hpc with hpc | hpc <;> simp [OneCall.Pc.left, hpc]
        | _ => exact hdue.elim
      have hsends := sum_append_new hQ.sendLoad w.sends (l.event.bind sendHalf) newSend
        fun s => dueLoad_init _ true _
      have hrecvs := sum_append_new hQ.recvLoad w.recvs (l.event.bind recvHalf)
        (fun _ => RecvStream.new) fun s => dueLoad_init _ true _
      simp only [Quic.Lost.load, hsends, hrecvs]
      omega
  | @send k l u u' hk hs =>
      have hstep : (SendStream.half errorFromHttp3).Step
          (fun _ e => ∃ w k, Q.send w k e) u l u' :=
        ⟨hs.1, fun e he => ⟨w, k, hs.2 e he⟩⟩
      have hpends : (SendStream.half errorFromHttp3).NeverPends
          fun _ e => ∃ w k, Q.send w k e :=
        SendStream.neverPends hQ.sendImmediate
      have hless : hQ.sendLoad u' < hQ.sendLoad u :=
        dueLoad_lt_of_step (fun _ => hpends) hstep (hdue u hk)
      have hfalls := sum_map_set_lt hk hless
      simp only [Quic.Lost.load]
      omega
  | @recv k l u u' hk hs =>
      have hstep : (RecvStream.half errorFromHttp3).Step
          (fun _ e => ∃ w k, Q.recv w k e) u l u' :=
        ⟨hs.1, fun e he => ⟨w, k, hs.2 e he⟩⟩
      have hpends : (RecvStream.half errorFromHttp3).NeverPends
          fun _ e => ∃ w k, Q.recv w k e :=
        RecvStream.neverPends hQ.recvImmediate
      have hless : hQ.recvLoad u' < hQ.recvLoad u :=
        dueLoad_lt_of_step (fun _ => hpends) hstep (hdue u hk)
      have hfalls := sum_map_set_lt hk hless
      simp only [Quic.Lost.load]
      omega

/-! ## Where nothing is due -/

theorem settled_of_reachable (h : Reachable (Step errorFromHttp3 Q) new w) :
    ∀ (i : ℕ) (t : Session.Task), w.session.tasks[i]? = some t →
      (Session.oneCall errorFromHttp3).Settled t := by
  refine h.invariant (I := fun w => ∀ (i : ℕ) (t : Session.Task),
    w.session.tasks[i]? = some t → (Session.oneCall errorFromHttp3).Settled t) ?_
    (by simp [new, Session.new])
  intro w l w' hstep hw
  cases step_iff_move.mp hstep with
  | send | recv => exact hw
  | session l s hs =>
      cases hs.move with
      | call => exact forall_getElem?_concat (fun _ _ => Or.inl rfl) hw
      | datagram | datagramFails | close | isOpen | isClosed => exact hw
      | drop => exact forall_getElem?_set (fun _ _ => Or.inr rfl) fun j t _ => hw j t
      | task i ans hi hm => exact forall_getElem?_set hm.settled fun j t _ => hw j t

theorem exists_session_step (hQ : Q.Lost errorFromHttp3) {i : ℕ} {t : Session.Task}
    (hi : w.session.tasks[i]? = some t) (hpending : t.pc.pending = true)
    (ht : (Session.oneCall errorFromHttp3).Settled t) :
    ∃ ans w', Step errorFromHttp3 Q w (.session (.task i ans)) w' := by
  obtain ⟨ans, pc, hpc, hans⟩ := (hQ.answering w).exists_taskStep hpending ht
  have hnext : ∃ s, Session.next errorFromHttp3 w.session (.task i ans) = some s := by
    simp [Session.next, hi, hpc]
  obtain ⟨s, hs⟩ := hnext
  exact ⟨ans, _, Option.map_eq_some_iff.mpr ⟨s, hs, rfl⟩, hans⟩

/-- Where no step is due, nothing is pending. -/
theorem atRest_of_stopped (hQ : Q.Lost errorFromHttp3)
    (hw : Parts errorFromHttp3 (fun _ _ => True) (fun _ _ => True) (fun _ _ => True) w)
    (hsettled : ∀ (i : ℕ) (t : Session.Task), w.session.tasks[i]? = some t →
      (Session.oneCall errorFromHttp3).Settled t)
    (hstopped : ∀ l w', l.isLocal = true → w.Due l → ¬ Step errorFromHttp3 Q w l w') :
    w.AtRest := by
  constructor
  · intro t ht
    obtain ⟨i, hi⟩ := List.getElem?_of_mem ht
    by_contra hpending
    rw [Bool.not_eq_false] at hpending
    obtain ⟨ans, w', hstep⟩ := exists_session_step hQ hi hpending (hsettled i t hi)
    exact hstopped (.session (.task i ans)) w' rfl trivial hstep
  · intro u hu
    obtain ⟨k, hk⟩ := List.getElem?_of_mem hu
    obtain ⟨priority, hreach⟩ := hw.send k u hk
    apply atRest_of_nothing_due (SendStream.responsive (hQ.send w k)) hreach
    intro l u' hlocal hdue hstep
    refine hstopped (.send k l) _ hlocal ?_ (step_iff_move.mpr (.send k l hk hstep))
    intro v hv
    obtain rfl := Option.some.inj (hk.symm.trans hv)
    exact hdue
  · intro u hu
    obtain ⟨k, hk⟩ := List.getElem?_of_mem hu
    have hreach := hw.recv k u hk
    apply atRest_of_nothing_due (RecvStream.responsive (hQ.recv w k)) hreach
    intro l u' hlocal hdue hstep
    refine hstopped (.recv k l) _ hlocal ?_ (step_iff_move.mpr (.recv k l hk hstep))
    intro v hv
    obtain rfl := Option.some.inj (hk.symm.trans hv)
    exact hdue

/-! ## The connection finishes -/

theorem parts_any (h : Reachable (Step errorFromHttp3 Quic.any) new w) :
    Parts errorFromHttp3 (fun _ _ => True) (fun _ _ => True) (fun _ _ => True) w := by
  obtain ⟨tr, hrun⟩ := h
  refine parts_of_run hrun (along_true.mono ?_)
  intro u l _
  cases l with
  | session l => exact fun _ _ => trivial
  | send k l | recv k l => exact fun _ _ _ _ => trivial

/-- The awaitables that are pending in `w` have come to their end in `u`. -/
structure World.CompletedIn (w u : World) : Prop where
  session : ∀ (i : ℕ) (t : Session.Task), w.session.tasks[i]? = some t →
    t.pc.pending = true → ∃ r, u.session.tasks[i]? = some ⟨t.op, .done r⟩
  send : ∀ k i, HasTask Task.pending k i w.sends → HasTask Task.completed k i u.sends
  recv : ∀ k i, HasTask Task.pending k i w.recvs → HasTask Task.completed k i u.recvs

/-- From `w` on the connection comes to rest by itself, and where asyncio drops
nothing, every awaitable that was pending comes to its end. -/
structure Finishes (errorFromHttp3 : ErrorFromHttp3) (Q : Quic) (w : World) :
    Prop where
  settles : Settles (Step errorFromHttp3 Q) World.Due (fun l => l.isLocal = true)
    World.AtRest w
  completes : ∀ {tr u}, Run (Step errorFromHttp3 Q) w tr u →
    Along (fun u l => u.Due l ∧ l.isLocal = true) tr →
    (∀ l u', l.isLocal = true → u.Due l → ¬ Step errorFromHttp3 Q u l u') →
    w.CompletedIn u

theorem session_task_stays {i : ℕ} {op : Session.Op}
    (h : Step errorFromHttp3 Q w l w') (hl : w.Due l ∧ l.isLocal = true)
    (hw : OneCall.Undropped op i w.session.tasks) :
    OneCall.Undropped op i w'.session.tasks := by
  cases step_iff_move.mp h with
  | send | recv => exact hw
  | session l s hs =>
      cases hs.move with
      | task j ans hj hm => exact hw.set hj hm.ne_dropped
      | drop => exact absurd hl.2 (by simp [Action.isLocal])
      | _ => exact hl.1.elim

theorem send_task_stays {k i : ℕ} (h : Step errorFromHttp3 Q w l w')
    (hl : l.isLocal = true)
    (hw : HasTask (fun t => t.pending || t.completed) k i w.sends) :
    HasTask (fun t => t.pending || t.completed) k i w'.sends := by
  cases step_iff_move.mp h with
  | recv => exact hw
  | session l s hs => exact hw.append _
  | send j l hj hs => exact hw.set hj hs hl

theorem recv_task_stays {k i : ℕ} (h : Step errorFromHttp3 Q w l w')
    (hl : l.isLocal = true)
    (hw : HasTask (fun t => t.pending || t.completed) k i w.recvs) :
    HasTask (fun t => t.pending || t.completed) k i w'.recvs := by
  cases step_iff_move.mp h with
  | send => exact hw
  | session l s hs => exact hw.append _
  | recv j l hj hs => exact hw.set hj hs hl

/-- At rest, what was pending and has not been dropped has come to its end. -/
theorem completedIn_of_atRest {tr : List (World × Action)} {u : World}
    (h : Run (Step errorFromHttp3 Q) w tr u)
    (hall : Along (fun u l => u.Due l ∧ l.isLocal = true) tr) (hu : u.AtRest) :
    w.CompletedIn u := by
  constructor
  · intro i t hi hpending
    have hstays := h.invariant (I := fun u => OneCall.Undropped t.op i u.session.tasks)
      (fun _ _ _ hl hstep => session_task_stays hstep hl) hall
      (OneCall.undropped_of_pending hi hpending)
    exact hstays.completed hu.session
  · intro k i hpending
    have hstays := h.invariant (fun _ _ _ hl hstep => send_task_stays hstep hl.2) hall
      (hpending.imp fun t ht => by simp [ht])
    exact hstays.completed hu.sends
  · intro k i hpending
    have hstays := h.invariant (fun _ _ _ hl hstep => recv_task_stays hstep hl.2) hall
      (hpending.imp fun t ht => by simp [ht])
    exact hstays.completed hu.recvs

theorem finishes_of_reachable (hQ : Q.Lost errorFromHttp3)
    (h : Reachable (Step errorFromHttp3 Quic.any) new w) :
    Finishes errorFromHttp3 Q w := by
  have hrest : ∀ {u}, Reachable (Step errorFromHttp3 Q) w u →
      (∀ l u', l.isLocal = true → u.Due l → ¬ Step errorFromHttp3 Q u l u') →
      u.AtRest := by
    intro u hu hstopped
    have hreach : Reachable (Step errorFromHttp3 Quic.any) new u :=
      h.trans (hu.mono fun _ _ _ => Step.weaken)
    exact atRest_of_stopped hQ (parts_any hreach) (settled_of_reachable hreach) hstopped
  constructor
  · exact settles_of_measure hQ.load
      (fun _ _ _ hdue hstep => load_lt_of_step hQ hstep hdue) hrest
  · intro tr u hrun hall hstopped
    exact completedIn_of_atRest hrun hall (hrest hrun.reachable hstopped)

/-- From the moment at which the connection is lost, whatever had happened on it
before, the session and all halves of all its streams come to rest in a bounded
number of steps, and every awaitable that was pending comes to its end. -/
theorem lost_connection_finishes (hQ : Q.Lost errorFromHttp3)
    (h : Reachable (Step errorFromHttp3 Q₀) new w) : Finishes errorFromHttp3 Q w :=
  finishes_of_reachable hQ (h.mono fun _ _ _ => Step.weaken)

end Lost

/-! ## A connection that is lost under a write -/

def lostSession : Session.Event → Bool
  | .openBi r | .openUni r | .acceptBi r | .acceptUni r =>
      r = .ready (.error (.connectionError .timedOut))
  | .readDatagram r => r = .ready (.error (.connectionError .timedOut))
  | .sendDatagram _ r => r = .error (.connectionError .timedOut)
  | .close _ _ => true
  | .closed r => r = .ready (.connectionError .timedOut)
  | .closeReason r => r = some (.connectionError .timedOut)

/-- A connection that has timed out. -/
def lostQuic : TestQuic where
  session := lostSession
  send _ := SendStream.lostSession
  recv _ := RecvStream.lostSession

theorem lostQuic_lost : lostQuic.quic.Lost noCodes where
  answers w op hop := by
    cases op with
    | aenter => exact absurd rfl hop
    | openBi => exact ⟨.openBi _, _, rfl, decide_eq_true rfl⟩
    | openUni => exact ⟨.openUni _, _, rfl, decide_eq_true rfl⟩
    | acceptBi => exact ⟨.acceptBi _, _, rfl, decide_eq_true rfl⟩
    | acceptUni => exact ⟨.acceptUni _, _, rfl, decide_eq_true rfl⟩
    | receiveDatagram => exact ⟨.readDatagram _, _, rfl, decide_eq_true rfl⟩
    | waitClosed | aexit => exact ⟨.closed _, _, rfl, decide_eq_true rfl⟩
  closes _ := rfl
  immediate := by
    intro w op e he hpending
    change lostSession e = true at he
    unfold Session.awaits at hpending
    split at hpending
    case h_8 => cases hpending
    all_goals
      obtain rfl := of_decide_eq_true he
      cases hpending
  send _ _ := ⟨SendStream.lostSession_answering.write,
    SendStream.lostSession_answering.finish, SendStream.lostSession_answering.reset,
    SendStream.lostSession_answering.stopped,
    SendStream.lostSession_answering.setPriority⟩
  write := by
    rintro log data n ⟨w, k, h⟩
    exact SendStream.lostSession_writeProgress log data n h
  sendImmediate := by
    constructor
    · rintro log data ⟨w, k, h⟩
      exact SendStream.lostSession_immediate.write log data h
    · rintro log ⟨w, k, h⟩
      exact SendStream.lostSession_immediate.stopped log h
  recv _ _ := ⟨RecvStream.lostSession_answering.readChunk,
    RecvStream.lostSession_answering.readExact,
    RecvStream.lostSession_answering.readToEnd,
    RecvStream.lostSession_answering.receivedReset,
    RecvStream.lostSession_answering.stop⟩
  read := by
    rintro log want data ⟨w, k, h⟩
    exact RecvStream.lostSession_readProgress log want data h
  recvImmediate := by
    constructor
    · rintro log max ⟨w, k, h⟩
      exact RecvStream.lostSession_immediate.readChunk log max h
    · rintro log want ⟨w, k, h⟩
      exact RecvStream.lostSession_immediate.readExact log want h
    · rintro log limit ⟨w, k, h⟩
      exact RecvStream.lostSession_immediate.readToEnd log limit h
    · rintro log ⟨w, k, h⟩
      exact RecvStream.lostSession_immediate.receivedReset log h

/-- A connection on which a stream can be opened, and nothing else happens. -/
def idleQuic : TestQuic where
  session
    | .openUni r => r = .ready (.ok ⟨0, none⟩)
    | .readDatagram r => r = .pending
    | _ => false
  send _
    | .write _ r => r = .pending
    | _ => false
  recv _ _ := false

def writeWaits : List (Wrapper.Action SendStream.Op SendStream.Event Int32) :=
  SendStream.startCall (.write [1]) 0 ++ [.task 0 (some (.write [1] .pending))]

/-- A write and a `receive_datagram` wait for the peer. -/
def waiting : World :=
  idleQuic.after new ([.session (.call .openUni),
      .session (.task 0 (some (.openUni (.ready (.ok ⟨0, none⟩)))))] ++
    writeWaits.map (.send 0) ++
    [.session (.call .receiveDatagram),
      .session (.task 1 (some (.readDatagram .pending)))])

/-- Both come to their end when the connection times out. -/
theorem waiting_finishes : Finishes noCodes lostQuic.quic waiting :=
  lost_connection_finishes lostQuic_lost
    (TestQuic.run_after (q := idleQuic) _ (by decide)).reachable

end WebTransport.Connection
