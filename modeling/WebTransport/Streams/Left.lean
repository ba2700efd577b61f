import WebTransport.RecvStream.Cursor
import WebTransport.RecvStream.EndOfStream
import WebTransport.SendStream.Contiguity

/-!
# Leaving the context manager

When an exit returns, the half is over: nothing more is sent, and nothing more is
read.  A clean exit gets there by a call on the QUIC stream or, on the receive
half, because the end of the stream has been seen; an exit on an exception gets
there by a `reset` or a `stop`.
-/

namespace WebTransport.Wrapper

open Support

/-! ## What an exit that has returned has done -/

section Exits

variable {Op Loc Ret Ev Vars Knob : Type} {H : Half Op Loc Ret Ev Vars Knob}
  {Q : Answers Ev} {P : Shared Ev Vars → Prop} {i : ℕ} {sh sh' : Shared Ev Vars}
  {t t' : Task Op Loc Ret} {ans : Option Ev}
  {w : World Op Loc Ret Ev Vars Knob} {vars : Vars}

/-- The task is an exit that is through with its work. -/
def Task.left : Task Op Loc Ret → Bool
  | .exit _ .sent | .exit _ .returned => true
  | _ => false

theorem TaskMove.of_left (h : TaskMove H i sh t ans t' sh')
    (hQ : ∀ e ∈ ans, Q sh.log e)
    (hsends : ∀ {sh : Shared Ev Vars} {e : Ev}, Q sh.log e →
      (H.closeCode e = some 0 ∨ (H.exitCloses = false ∧ H.isFinish e = true)) →
      P (sh.record [e]))
    (hskips : ∀ {sh : Shared Ev Vars}, H.exitSkips sh.vars = true → P sh)
    (ht : t'.left = true) :
    t.left = true ∨ P sh' := by
  cases h with
  | call op h => cases ht
  | exit b h =>
      cases h with
      | skips hs => exact Or.inr (hskips hs)
      | sendsClose b e hb he => exact Or.inr (hsends (hQ e rfl) (Or.inl he))
      | sendsFinish b e hb he =>
          exact Or.inr (hsends (hQ e rfl)
            (Or.inr ⟨(Bool.or_eq_false_iff.mp hb).2, he⟩))
      | returns => exact Or.inl rfl
      | _ => cases ht

theorem DropMove.not_left (h : DropMove H i sh t t' sh') : t'.left = false := by
  cases h <;> rfl

theorem of_left (hmono : ∀ {w l w'}, H.Step Q w l w' → P w.toShared → P w'.toShared)
    (hsends : ∀ {sh : Shared Ev Vars} {e : Ev}, Q sh.log e →
      (H.closeCode e = some 0 ∨ (H.exitCloses = false ∧ H.isFinish e = true)) →
      P (sh.record [e]))
    (hskips : ∀ {sh : Shared Ev Vars}, H.exitSkips sh.vars = true → P sh)
    (h : Reachable (H.Step Q) (World.init vars) w) (hi : w.tasks[i]? = some t)
    (ht : t.left = true) : P w.toShared := by
  refine holds_at_point (p := Task.left) (P := fun w => P w.toShared)
    (fun _ => rfl) (fun _ => rfl) ?_ (fun hm => hm.not_left) hmono h hi ht
  intro u u' i ans t t' hstep hm ht'
  exact hm.of_left hstep.2 hsends hskips ht'

end Exits

end WebTransport.Wrapper

namespace WebTransport.SendStream

open Support Wrapper

/-! ## Nothing more is sent -/

/-- What `Gone` says of the calls so far, that the peer has stopped the stream or
that its session is lost: `finish` and `reset` fail only on a stream that is
closed or gone, and such a stream accepts nothing. -/
structure OverLaw (Q : Answers Event) (Gone : List Event → Prop) : Prop where
  stays : ∀ {log evs}, Gone log → Gone (log ++ evs)
  finish : ∀ {log}, Q log (.finish false) → Closed log ∨ Gone (log ++ [.finish false])
  reset : ∀ {log code}, Q log (.reset code false) →
    Closed log ∨ Gone (log ++ [.reset code false])
  silent : ∀ {log e}, Q log e → Closed log ∨ Gone log → e.bytes = []

/-- The stream is finished, reset, stopped by the peer, or its session is lost. -/
def Over (Gone : List Event → Prop) (log : List Event) : Prop :=
  Closed log ∨ Gone log

section Over

variable {errorFromHttp3 : ErrorFromHttp3} {Q : Answers Event}
  {Gone : List Event → Prop} {i : ℕ} {t : Task Op Loc Ret} {w w' u : World}
  {l : Action Op Event Int32} {priority : Int32} {log : List Event} {e : Event}

theorem Over.step (hQ : OverLaw Q Gone) (h : (half errorFromHttp3).Step Q w l w')
    (hw : Over Gone w.log) : Over Gone w'.log := by
  rw [log_of_step h]
  exact hw.imp (fun hclosed => closed_append.mpr (Or.inl hclosed)) hQ.stays

/-- The call of an exit leaves the stream over, also when it fails. -/
theorem over_of_exitCall (hQ : OverLaw Q Gone) (he : Q log e)
    (hcall : e.closeCode = some 0 ∨ e.isFinish = true) :
    Over Gone (log ++ [e]) := by
  have hfails : ∀ {e}, Closed log ∨ Gone (log ++ [e]) → Over Gone (log ++ [e]) :=
    Or.imp_left fun hclosed => closed_append.mpr (Or.inl hclosed)
  cases e with
  | finish ok =>
      cases ok with
      | true => exact Or.inl (closed_append.mpr (Or.inr (closed_singleton.mpr rfl)))
      | false => exact hfails (hQ.finish he)
  | reset code ok =>
      cases ok with
      | true => exact Or.inl (closed_append.mpr (Or.inr (closed_singleton.mpr rfl)))
      | false => exact hfails (hQ.reset he)
  | _ => rcases hcall with hcall | hcall <;> cases hcall

/-- When an exit has returned the stream is over. -/
theorem over_of_left (hQ : OverLaw Q Gone)
    (h : Reachable ((half errorFromHttp3).Step Q) (new priority) w)
    (hi : w.tasks[i]? = some t) (ht : t.left = true) : Over Gone w.log := by
  refine of_left (P := fun sh => Over Gone sh.log) (Over.step hQ) ?_
    (fun hskips => by cases hskips) h hi ht
  exact fun he hcall => over_of_exitCall hQ he (hcall.imp_right fun hfin => hfin.2)

theorem written_of_over (hQ : OverLaw Q Gone)
    (h : Reachable ((half errorFromHttp3).Step Q) w u) (hw : Over Gone w.log) :
    Over Gone u.log ∧ written u.log = written w.log := by
  refine h.invariant
    (I := fun u => Over Gone u.log ∧ written u.log = written w.log) ?_ ⟨hw, rfl⟩
  rintro u l u' hstep ⟨hover, hsame⟩
  refine ⟨hover.step hQ hstep, ?_⟩
  have hnone : written l.answer.toList = [] := by
    cases hans : l.answer with
    | none => rfl
    | some e => simpa using hQ.silent (hstep.2 e hans) hover
  rw [log_of_step hstep, written_append, hnone, List.append_nil, hsame]

end Over

end WebTransport.SendStream

namespace WebTransport.RecvStream

open Support Wrapper

/-! ## Nothing more is read -/

def Event.stops : Event → Bool
  | .stop _ _ => true
  | _ => false

/-- After `stop` nothing is handed over. -/
def StopLaw (Q : Answers Event) : Prop :=
  ∀ log e, Q log e → Seen Event.stops log → e.bytes = []

/-- The end of the stream has been seen, or `stop` has been called. -/
def Over (w : World) : Prop :=
  w.vars.eof = true ∨ Seen Event.stops w.log

section Over

variable {errorFromHttp3 : ErrorFromHttp3} {Q : Answers Event} {i : ℕ}
  {sh sh' : Shared Event Flags} {t t' : Task Op Loc Ret} {ans : Option Event}
  {w w' u : World} {l : Action Op Event Empty} {op : Op} {loc : Loc}
  {v v' : Flags} {beat : Beat Loc Ret}

theorem Over.step (h : (half errorFromHttp3).Step Q w l w') (hw : Over w) : Over w' :=
  hw.imp (eof_of_step h) (Seen.mono h.log_isPrefix)

theorem over_of_left (h : Reachable ((half errorFromHttp3).Step Q) new w)
    (hi : w.tasks[i]? = some t) (ht : t.left = true) : Over w := by
  refine of_left (P := fun sh => sh.vars.eof = true ∨ Seen Event.stops sh.log)
    Over.step ?_ Or.inl h hi ht
  intro sh e _ hcall
  refine Or.inr (seen_append.mpr (Or.inr (seen_singleton.mpr ?_)))
  cases e with
  | stop code ok => rfl
  | _ => rcases hcall with hcall | ⟨hcall, -⟩ <;> cases hcall

theorem bytes_eq_nil_of_over (hQ : StopLaw Q)
    (hreach : Reachable ((half errorFromHttp3).Step Q) new w)
    (h : (half errorFromHttp3).Step Q w l w') (hw : Over w) :
    ∀ e ∈ l.answer, e.bytes = [] := by
  rcases hw with heof | hstops
  · cases h.move with
    | task i ans hi hm =>
        exact bytes_eq_nil_of_taskMove hm (eofHeeded_of_reachable hreach heof i _ hi)
    | python ans hm => exact bytes_eq_nil_of_pythonMove hm
    | _ => exact fun e he => by cases he
  · exact fun e he => hQ _ e (h.2 e he) hstops

/-! ## What a task has in hand -/

/-- A body that is handed nothing keeps what it has in hand, or gives it up. -/
theorem bytes_of_silent_bodyMove
    (h : BodyMove errorFromHttp3 v op loc ans v' beat)
    (hsilent : ∀ e ∈ ans, e.bytes = []) :
    (stage (.call op beat.pc)).bytes = (Stage.body loc).bytes ∨
      (stage (.call op beat.pc)).bytes = [] := by
  cases h with
  | exactReads n buf data hroom =>
      obtain rfl : data = [] := hsilent _ rfl
      exact Or.inl (List.append_nil buf)
  | exactFull | exactPends | exactEnds | storesEof => exact Or.inl rfl
  | endReads n limit buf data l hn hl => exact Or.inr (hsilent _ rfl)
  | chunkReads op buf data max hop => exact Or.inr (hsilent _ rfl)
  | seesEof | chunkEnds => exact Or.inr (deliveredBy_eofAnswer _)
  | tests op ht =>
      right
      rcases afterTest_cases op with h | ⟨limit, -, h⟩ | ⟨n, -, -, h⟩ <;>
        (rw [h]; rfl)
  | endFails n limit buf l e hn hl =>
      cases e with
      | tooLong => exact Or.inr rfl
      | readError e => exact Or.inr (deliveredBy_error (marksEnd_mapReadError e))
  | chunkFails op buf max e hop =>
      exact Or.inr (deliveredBy_error (marksEnd_mapReadError e))
  | exactFails n buf e hroom =>
      exact Or.inr (deliveredBy_error (marksEnd_mapReadError e))
  | waitFails buf e => exact Or.inr (deliveredBy_error (marksEnd_mapSessionError e))
  | endPends | chunkPends | waits | waitEnds => exact Or.inr rfl

theorem bytes_of_silent_taskMove
    (h : TaskMove (half errorFromHttp3) i sh t ans t' sh')
    (hsilent : ∀ e ∈ ans, e.bytes = []) :
    (stage t').bytes = (stage t).bytes ∨ (stage t').bytes = [] := by
  cases h with
  | exit b h => exact Or.inr rfl
  | call op h =>
      cases h with
      | works loc ans v beat hb =>
          exact bytes_of_silent_bodyMove (bodyMove_of_body hb) hsilent
      | suspendedSet | suspendedUnset | returns => exact Or.inl rfl
      | enters ho => exact Or.inr (blank_of_enter op).bytes
      | _ => exact Or.inr rfl

theorem bytes_of_dropMove (h : DropMove (half errorFromHttp3) i sh t t' sh') :
    (stage t').bytes = [] := by
  cases h <;> rfl

/-- In `u` nothing has been taken from the stream since `w`, and what a task has
in hand or has handed over, it had in hand in `w`. -/
structure NothingTaken (w u : World) : Prop where
  consumed : consumed u.log = consumed w.log
  inHand : ∀ (i : ℕ) (t : Task Op Loc Ret), u.tasks[i]? = some t →
    (stage t).bytes ≠ [] → bytesAt w i = (stage t).bytes

theorem NothingTaken.refl (w : World) : NothingTaken w w where
  consumed := rfl
  inHand _ _ hi _ := bytesAt_of_view (getElem?_views hi)

theorem NothingTaken.step (h : (half errorFromHttp3).Step Q u l w')
    (hsilent : ∀ e ∈ l.answer, e.bytes = []) (hu : NothingTaken w u) :
    NothingTaken w w' where
  consumed := by
    have hnone : RecvStream.consumed l.answer.toList = [] := by
      cases hans : l.answer with
      | none => rfl
      | some e => simpa using hsilent e hans
    rw [consumed_of_step h, hnone, List.append_nil, hu.consumed]
  inHand := by
    refine h.forall_tasks (fun op hne => absurd rfl hne) (fun b hne => absurd rfl hne)
      ?_ ?_ (fun i t _ _ _ => id) hu.inHand
    · rintro i ans t t' rfl _ hm ht hne
      rcases bytes_of_silent_taskMove hm hsilent with hsame | hnil
      · rw [hsame] at hne ⊢
        exact ht hne
      · exact absurd hnil hne
    · exact fun i t t' _ _ hm _ hne => absurd (bytes_of_dropMove hm) hne

/-- Once the stream is over nothing more is read. -/
theorem nothingTaken_of_over (hQ : StopLaw Q)
    (hreach : Reachable ((half errorFromHttp3).Step Q) new w)
    (h : Reachable ((half errorFromHttp3).Step Q) w u) (hw : Over w) :
    Over u ∧ NothingTaken w u := by
  have hall : Reachable ((half errorFromHttp3).Step Q) w u ∧ Over u ∧
      NothingTaken w u := by
    refine h.invariant (I := fun u => Reachable ((half errorFromHttp3).Step Q) w u ∧
      Over u ∧ NothingTaken w u) ?_ ⟨Reachable.refl, hw, .refl w⟩
    rintro u l u' hstep ⟨hu, hover, hnone⟩
    exact ⟨hu.tail hstep, hover.step hstep,
      hnone.step hstep (bytes_eq_nil_of_over hQ (hreach.trans hu) hstep hover)⟩
  exact hall.2

theorem bytes_of_delivered (h : delivered t ≠ []) : (stage t).bytes = delivered t := by
  cases t with
  | exit b pc => exact absurd rfl h
  | call op pc => cases pc <;> first | rfl | exact absurd rfl h

end Over

end WebTransport.RecvStream

namespace WebTransport.Streams

open Support Wrapper

/-! ## Both halves are closed when an exit returns -/

/-- When an exit has returned, both halves are over for good: the send half
accepts not a byte more, and an operation on the receive half hands over only
what it had already taken. -/
theorem exit_closes {QS : Answers SendStream.Event} {QR : Answers RecvStream.Event}
    {Gone : List SendStream.Event → Prop} (errorFromHttp3 : ErrorFromHttp3)
    (priority : Int32) (hs : SendStream.OverLaw QS Gone)
    (hr : RecvStream.StopLaw QR) :
    (∀ {w u : SendStream.World} {i : ℕ} {b : Bool},
      Reachable ((SendStream.half errorFromHttp3).Step QS)
          (SendStream.new priority) w →
      w.tasks[i]? = some (.exit b .returned) →
      Reachable ((SendStream.half errorFromHttp3).Step QS) w u →
      SendStream.Over Gone u.log ∧
        SendStream.written u.log = SendStream.written w.log) ∧
    ∀ {w u : RecvStream.World} {i : ℕ} {b : Bool},
      Reachable ((RecvStream.half errorFromHttp3).Step QR) RecvStream.new w →
      w.tasks[i]? = some (.exit b .returned) →
      Reachable ((RecvStream.half errorFromHttp3).Step QR) w u →
      RecvStream.Over u ∧ ∀ j t, u.tasks[j]? = some t →
        RecvStream.delivered t ≠ [] →
        RecvStream.bytesAt w j = RecvStream.delivered t := by
  constructor
  · exact fun hw hi hu =>
      SendStream.written_of_over hs hu (SendStream.over_of_left hs hw hi rfl)
  · intro w u i b hw hi hu
    obtain ⟨hover, hnone⟩ :=
      RecvStream.nothingTaken_of_over hr hw hu (RecvStream.over_of_left hw hi rfl)
    refine ⟨hover, fun j t hj hne => ?_⟩
    have hbytes := RecvStream.bytes_of_delivered hne
    rw [hnone.inHand j t hj (hbytes ▸ hne), hbytes]

/-- An open session on which `reset` fails only on a closed stream. -/
def closingSession (log : List SendStream.Event) (e : SendStream.Event) : Bool :=
  SendStream.openSession log e &&
    match e with
    | .reset _ false => decide (SendStream.Closed log)
    | _ => true

theorem closingSession_overLaw :
    SendStream.OverLaw (fun log e => closingSession log e = true) fun _ => False where
  stays := False.elim
  finish h := by
    simp only [closingSession, SendStream.openSession, Bool.and_true,
      decide_eq_true_eq] at h
    exact Or.inl (by simpa using h)
  reset h := by
    simp only [closingSession, Bool.and_eq_true, decide_eq_true_eq] at h
    exact Or.inl h.2
  silent {log e} h hover := by
    have hclosed : SendStream.Closed log := hover.resolve_right id
    cases e with
    | write data r =>
        simp only [closingSession, Bool.and_true] at h
        rw [SendStream.openSession_closedWriteLaw log data r h hclosed]
        rfl
    | _ => rfl

/-- A finished stream that hands nothing over after `stop`. -/
def stoppedStream (S : List UInt8) (log : List RecvStream.Event)
    (e : RecvStream.Event) : Bool :=
  if RecvStream.Seen RecvStream.Event.stops log then e.bytes = []
  else RecvStream.finishedStream S log e

theorem stoppedStream_stopLaw (S : List UInt8) :
    RecvStream.StopLaw fun log e => stoppedStream S log e = true := by
  intro log e h hseen
  simpa [stoppedStream, hseen] using h

def finishedInFront : SendStream.World :=
  (SendStream.half noCodes).after closingSession (SendStream.new 0)
    [.exit false, .task 0 none, .task 0 none, .call (.write [1]), .task 1 none,
      .task 1 none, .task 0 (some (.finish true)), .task 0 none]

def stoppedInFront : RecvStream.World :=
  (RecvStream.half noCodes).after (stoppedStream [1]) RecvStream.new
    [.exit false, .task 0 none, .task 0 none, .call .anext, .task 1 none,
      .task 1 none, .task 0 (some (.stop 0 true)), .task 0 none]

/-- A write and a read in the line behind a clean exit come to nothing. -/
theorem exit_in_front :
    SendStream.written ((SendStream.half noCodes).after closingSession finishedInFront
        ([.task 1 none, .task 1 none, .task 1 none, .task 1 none,
          .task 1 (some (.write [1] (.ready (.error .closedStream))))])).log = [] ∧
      RecvStream.Over ((RecvStream.half noCodes).after (stoppedStream [1])
        stoppedInFront [.task 1 none, .task 1 none, .task 1 none,
          .task 1 (some (.readChunk 65536 (.ready (.error .closedStream))))]) := by
  obtain ⟨hsend, hrecv⟩ :=
    exit_closes noCodes 0 closingSession_overLaw (stoppedStream_stopLaw [1])
  constructor
  · exact (hsend (w := finishedInFront) (i := 0) (b := false)
      (Half.run_after (by decide)).reachable rfl
      (Half.run_after (by decide)).reachable).2
  · exact (hrecv (w := stoppedInFront) (i := 0) (b := false)
      (Half.run_after (by decide)).reachable rfl
      (Half.run_after (by decide)).reachable).1

end WebTransport.Streams
