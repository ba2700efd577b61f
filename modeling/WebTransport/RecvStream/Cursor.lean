import WebTransport.RecvStream.Model
import WebTransport.Support.Blocks
import WebTransport.Support.Indexed
import WebTransport.Wrapper.Exclusion

/-!
# All reads are views of one byte stream

Four operations read the stream in different ways and share a flag that
remembers its end.  Put one after the other in the order of the mutex, what they
hand over is a prefix of what the peer sent, and whoever reports the end of the
stream does so behind its last byte.
-/

namespace WebTransport.RecvStream

open Support Wrapper

/-! ## What a task has in hand -/

/-- The bytes that a result hands to Python. -/
def deliveredBy : Ret → List UInt8
  | .ok (.bytes data) => data
  | .error (.streamIncompleteReadError _ _ partialBytes) => partialBytes
  | _ => []

def delivered : Task Op Loc Ret → List UInt8
  | .call _ (.done r) => deliveredBy r
  | _ => []

/-- The result reports the end of the stream. -/
def signals : Op → Ret → Bool
  | .read n _, .ok (.bytes data) => decide (n < 0) || (decide (0 < n) && data = [])
  | .readexactly _, .error (.streamIncompleteReadError _ _ _) => true
  | .anext, .error .stopAsyncIteration => true
  | _, _ => false

/-- The result is as long as the operation promises. -/
def FitsRet : Op → Ret → Prop
  | .read n _, .ok (.bytes data) => 0 < n → data.length ≤ n.toInt.toNat
  | .readexactly n, .ok (.bytes data) => data.length = n.toNat
  | _, _ => True

/-- How far the own work of a task has come: it has not begun or is given up,
its body is at a place, or it has a result. -/
inductive Stage
  | idle
  | body (l : Loc)
  | result (r : Ret)

/-- The bytes that a task has taken from the stream and not lost. -/
def Stage.bytes : Stage → List UInt8
  | .body (.call buf) => buf
  | .body (.eofStore r) => deliveredBy r
  | .result r => deliveredBy r
  | _ => []

def Stage.storing : Stage → Bool
  | .body (.eofStore _) => true
  | _ => false

def Stage.calling : Stage → Bool
  | .body (.call _) => true
  | _ => false

/-- The call of a task, and its stage. -/
abbrev View := Call Op × Stage

def stage : Task Op Loc Ret → Stage
  | .call _ pc =>
      match pc with
      | .running l | .suspended l | .interrupted (some l) => .body l
      | .built r | .done r => .result r
      | _ => .idle
  | .exit _ _ => .idle

def view (t : Task Op Loc Ret) : View :=
  (t.called, stage t)

/-- The result of the task reports the end of the stream. -/
def Signals : View → Prop
  | (.op op, .result r) => signals op r = true
  | _ => False

/-- What the task has in hand is as long as the operation allows. -/
def Fits : View → Prop
  | (.op op, .result r) => FitsRet op r
  | (.op op, .body (.eofStore r)) => FitsRet op r
  | (.op (.readexactly n), .body (.call buf)) => buf.length ≤ n.toNat
  | (.op _, .body (.call buf)) => buf = []
  | _ => True

/-- A task that has nothing in hand and has nothing to report. -/
structure Blank (v : View) : Prop where
  bytes : v.2.bytes = []
  storing : v.2.storing = false
  signals : ¬ Signals v
  fits : Fits v

/-! ## The steps of a body -/

section Body

variable {errorFromHttp3 : ErrorFromHttp3} {Q : Answers Event}
  {S : List UInt8} {finished : Prop} {v v' : Flags} {op : Op} {loc : Loc}
  {ans : Option Event} {beat : Beat Loc Ret} {log : List Event}

/-- The exceptions with which the wrapper itself reports the end. -/
def marksEnd : PyErr → Bool
  | .streamIncompleteReadError _ _ _ => true
  | .stopAsyncIteration => true
  | _ => false

theorem marksEnd_mapConnectionError (e : ConnectionError) :
    marksEnd (mapConnectionError errorFromHttp3 e) = false := by
  cases e <;> rfl

theorem marksEnd_mapSessionError (e : SessionError) :
    marksEnd (mapSessionError errorFromHttp3 e) = false := by
  match e with
  | .connectionError e => exact marksEnd_mapConnectionError e
  | .webTransportError (.closed _ _) => rfl
  | .webTransportError (.other _) => rfl
  | .sendDatagramError (.connectionLost e) => exact marksEnd_mapConnectionError e
  | .sendDatagramError .unsupportedByPeer => rfl
  | .sendDatagramError .disabled => rfl
  | .sendDatagramError .tooLarge => rfl

theorem marksEnd_mapReadError (e : ReadError) :
    marksEnd (mapReadError errorFromHttp3 e) = false := by
  cases e with
  | sessionError e => exact marksEnd_mapSessionError e
  | _ => rfl

theorem deliveredBy_error {e : PyErr} (h : marksEnd e = false) :
    deliveredBy (.error e) = [] := by
  cases e <;> first | rfl | cases h

theorem signals_error {e : PyErr} (h : marksEnd e = false) :
    signals op (.error e) = false := by
  cases op <;> cases e <;> first | rfl | cases h

@[simp] theorem deliveredBy_eofAnswer (op : Op) : deliveredBy (eofAnswer op) = [] := by
  cases op <;> rfl

theorem fitsRet_eofAnswer (op : Op) : FitsRet op (eofAnswer op) := by
  cases op <;> simp [eofAnswer, FitsRet]

theorem fitsRet_error (op : Op) (e : PyErr) : FitsRet op (.error e) := by
  cases op <;> trivial

theorem fits_call_nil (op : Op) : Fits (.op op, .body (.call [])) := by
  cases op <;> simp [Fits]

theorem fits_of_bodyMove (hQ : ByteStream Q S finished)
    (hans : ∀ e ∈ ans, Q log e) (hspoils : ¬ Seen Event.spoils log)
    (h : BodyMove errorFromHttp3 v op loc ans v' beat)
    (hfits : Fits (.op op, .body loc)) : Fits (view (.call op beat.pc)) := by
  cases h with
  | seesEof op ht hv => exact fitsRet_eofAnswer op
  | tests op ht =>
      rcases afterTest_cases op with hcall | ⟨limit, rfl, hready⟩ | ⟨n, rfl, -, hready⟩
      · rw [hcall]
        exact fits_call_nil op
      · rw [hready]
        exact fun _ => Nat.zero_le _
      · rw [hready]
        trivial
  | endPends n limit buf l hn hl => rfl
  | endReads n limit buf data l hn hl => exact fun h => absurd h (Int64.lt_asymm hn)
  | endFails => trivial
  | chunkPends op buf max hop => exact fits_call_nil op
  | chunkReads op buf data max hop =>
      obtain ⟨-, hlength, -⟩ := hQ.chunk (hans _ rfl) hspoils
      rcases hop with ⟨n, limit, rfl, -, rfl⟩ | ⟨rfl, -⟩
      · exact fun _ => hlength
      · trivial
  | chunkEnds op buf max hop => exact fitsRet_eofAnswer op
  | chunkFails => exact fitsRet_error _ _
  | exactFull n buf hfull => exact Nat.le_antisymm hfits hfull
  | exactPends n buf hroom => exact hfits
  | exactReads n buf data hroom =>
      obtain ⟨-, hlength, -⟩ := hQ.exact (hans _ rfl) hspoils
      have hroom' : (buf ++ data).length ≤ n.toNat := by
        rw [List.length_append]
        omega
      exact hroom'
  | exactEnds => trivial
  | exactFails => trivial
  | waits => rfl
  | waitEnds => trivial
  | waitFails => trivial
  | storesEof op r => exact hfits

theorem not_readexactly_of_chunk {max : Nat}
    (hop : (∃ n limit, op = .read n limit ∧ ¬ n < 0 ∧ max = n.toInt.toNat) ∨
      (op = .anext ∧ max = 65536)) (n : UInt64) : op ≠ .readexactly n := by
  rcases hop with ⟨_, _, rfl, -⟩ | ⟨rfl, -⟩ <;> simp

theorem eq_nil_of_fits {buf : List UInt8} (hop : ∀ n, op ≠ .readexactly n)
    (hfits : Fits (.op op, .body (.call buf))) : buf = [] := by
  cases op with
  | readexactly n => exact absurd rfl (hop n)
  | _ => exact hfits

/-- A step of a body gains what it takes from the stream, or fails and loses
what it had. -/
theorem bytes_of_bodyMove (h : BodyMove errorFromHttp3 v op loc ans v' beat)
    (hfits : Fits (.op op, .body loc))
    (hspoils : ¬ Seen Event.spoils ans.toList) :
    (stage (.call op beat.pc)).bytes =
        (Stage.body loc).bytes ++ consumed ans.toList ∨
      (Seen Event.fails ans.toList ∧ (stage (.call op beat.pc)).bytes = []) := by
  cases h with
  | seesEof op ht hv => exact Or.inl (deliveredBy_eofAnswer op)
  | tests op ht =>
      left
      rcases afterTest_cases op with h | ⟨limit, -, h⟩ | ⟨n, -, -, h⟩ <;>
        (rw [h]; rfl)
  | endPends n limit buf l hn hl =>
      obtain rfl := eq_nil_of_fits (by simp) hfits
      exact Or.inl rfl
  | endReads n limit buf data l hn hl =>
      obtain rfl := eq_nil_of_fits (by simp) hfits
      refine Or.inl ?_
      rw [Option.toList_some, consumed_singleton]
      rfl
  | endFails n limit buf l e hn hl =>
      cases e with
      | tooLong => exact absurd rfl hspoils
      | readError e => exact Or.inr ⟨rfl, deliveredBy_error (marksEnd_mapReadError e)⟩
  | chunkPends op buf max hop =>
      obtain rfl := eq_nil_of_fits (not_readexactly_of_chunk hop) hfits
      exact Or.inl rfl
  | chunkReads op buf data max hop =>
      obtain rfl := eq_nil_of_fits (not_readexactly_of_chunk hop) hfits
      refine Or.inl ?_
      rw [Option.toList_some, consumed_singleton]
      rfl
  | chunkEnds op buf max hop =>
      obtain rfl := eq_nil_of_fits (not_readexactly_of_chunk hop) hfits
      exact Or.inl (deliveredBy_eofAnswer op)
  | chunkFails op buf max e hop =>
      exact Or.inr ⟨rfl, deliveredBy_error (marksEnd_mapReadError e)⟩
  | exactFull n buf hfull => exact Or.inl (List.append_nil buf).symm
  | exactPends n buf hroom => exact Or.inl (List.append_nil buf).symm
  | exactReads n buf data hroom =>
      refine Or.inl ?_
      rw [Option.toList_some, consumed_singleton]
      rfl
  | exactEnds n buf hroom => exact Or.inl (List.append_nil buf).symm
  | exactFails n buf e hroom =>
      exact Or.inr ⟨rfl, deliveredBy_error (marksEnd_mapReadError e)⟩
  | waits buf =>
      obtain rfl := eq_nil_of_fits (by simp) hfits
      exact Or.inl rfl
  | waitEnds buf code =>
      obtain rfl := eq_nil_of_fits (by simp) hfits
      exact Or.inl rfl
  | waitFails buf e =>
      obtain rfl := eq_nil_of_fits (by simp) hfits
      exact Or.inl (deliveredBy_error (marksEnd_mapSessionError e))
  | storesEof op r => exact Or.inl (List.append_nil _).symm

theorem eof_of_signals (hQ : ByteStream Q S finished)
    (hans : ∀ e ∈ ans, Q log e) (hspoils : ¬ Seen Event.spoils log)
    (h : BodyMove errorFromHttp3 v op loc ans v' beat)
    (hsignals : Signals (view (.call op beat.pc))) :
    v.eof = true ∨ (Stage.body loc).storing = true := by
  cases h with
  | seesEof op ht hv => exact Or.inl hv
  | storesEof op r => exact Or.inr rfl
  | tests op ht =>
      exfalso
      rcases afterTest_cases op with hcall | ⟨limit, rfl, hready⟩ | ⟨n, rfl, -, hready⟩
      · rw [hcall] at hsignals
        exact hsignals
      · rw [hready] at hsignals
        cases hsignals
      · rw [hready] at hsignals
        cases hsignals
  | endFails n limit buf l e hn hl => cases hsignals
  | chunkReads op buf data max hop =>
      exfalso
      obtain ⟨hdata, -, -⟩ := hQ.chunk (hans _ rfl) hspoils
      rcases hop with ⟨n, limit, rfl, hn, -⟩ | ⟨rfl, -⟩
      · simp [view, stage, Beat.pc, Signals, Task.called, signals, hdata, hn]
          at hsignals
      · cases hsignals
  | chunkFails op buf max e hop =>
      have hnot : signals op (.error (mapReadError errorFromHttp3 e)) = false :=
        signals_error (marksEnd_mapReadError e)
      exact absurd hsignals (by simp [view, stage, Beat.pc, Signals, Task.called, hnot])
  | exactFull n buf hfull => cases hsignals
  | exactFails n buf e hroom =>
      have hnot : signals (.readexactly n) (.error (mapReadError errorFromHttp3 e)) =
          false := signals_error (marksEnd_mapReadError e)
      exact absurd hsignals (by simp [view, stage, Beat.pc, Signals, Task.called, hnot])
  | waitEnds buf code => cases hsignals
  | waitFails buf e => cases hsignals
  | _ => cases hsignals

/-- A body sets the flag only at the end of the stream. -/
theorem end_of_storing (hQ : ByteStream Q S finished)
    (hans : ∀ e ∈ ans, Q log e) (hspoils : ¬ Seen Event.spoils log)
    (h : BodyMove errorFromHttp3 v op loc ans v' beat)
    (hstoring : (stage (.call op beat.pc)).storing = true) :
    ¬ Seen Event.fails (log ++ ans.toList) ∧
      consumed log ++ consumed ans.toList = S ∧ finished := by
  have hnot : ∀ {e}, ans = some e → e.succeeds = true → e.fails = false →
      ¬ Seen Event.fails (log ++ ans.toList) := by
    rintro e rfl hsucceeds hfails hseen
    rw [seen_append, Option.toList_some, seen_singleton, hfails] at hseen
    have hbefore : Seen Event.fails log := hseen.resolve_right (by simp)
    rw [hQ.failed (hans e rfl) hspoils hbefore] at hsucceeds
    cases hsucceeds
  cases h with
  | endReads n limit buf data l hn hl =>
      obtain ⟨hall, hfin⟩ := hQ.toEnd (hans _ rfl) hspoils
      exact ⟨hnot rfl rfl rfl, by simpa [Event.bytes] using hall, hfin⟩
  | chunkEnds op buf max hop =>
      obtain ⟨hall, hfin⟩ := hQ.chunkEnd (hans _ rfl) hspoils
      exact ⟨hnot rfl rfl rfl, by simpa [Event.bytes] using hall, hfin⟩
  | exactEnds n buf hroom =>
      obtain ⟨hall, hfin⟩ := hQ.exactEnd (hans _ rfl) hspoils
      exact ⟨hnot rfl rfl rfl, by simpa [Event.bytes] using hall, hfin⟩
  | tests op ht =>
      rcases afterTest_cases op with h | ⟨limit, -, h⟩ | ⟨n, -, -, h⟩ <;>
        (rw [h] at hstoring; cases hstoring)
  | _ => cases hstoring

theorem eof_of_bodyMove (h : BodyMove errorFromHttp3 v op loc ans v' beat) :
    v' = v ∨ (Stage.body loc).storing = true := by
  cases h with
  | storesEof => exact Or.inr rfl
  | _ => exact Or.inl rfl

theorem bytes_eq_nil_or_calling (h : BodyMove errorFromHttp3 v op loc ans v' beat)
    (hcalling : (stage (.call op beat.pc)).calling = true) :
    (Stage.body loc).bytes = [] ∨ (Stage.body loc).calling = true := by
  cases h with
  | tests | seesEof => exact Or.inl rfl
  | storesEof => cases hcalling
  | _ => exact Or.inr rfl

theorem calling_of_fails (h : BodyMove errorFromHttp3 v op loc ans v' beat)
    (hfails : Seen Event.fails ans.toList) :
    (Stage.body loc).calling = true := by
  cases h with
  | seesEof | tests | storesEof => cases hfails
  | _ => rfl

/-- What an answer hands over continues what has been consumed. -/
theorem bytes_of_answer (hQ : ByteStream Q S finished) {e : Event} (he : Q log e)
    (hspoils : ¬ Seen Event.spoils log) :
    e.bytes = [] ∨ (¬ Seen Event.fails log ∧ consumed log ++ e.bytes <+: S) := by
  have hnot : e.succeeds = true → ¬ Seen Event.fails log := by
    intro hsucceeds hfails
    rw [hQ.failed he hspoils hfails] at hsucceeds
    cases hsucceeds
  match e with
  | .readChunk max (.ready (.ok (some data))) =>
      exact Or.inr ⟨hnot rfl, (hQ.chunk he hspoils).2.2⟩
  | .readExact want (.ready (.ok (some data))) =>
      exact Or.inr ⟨hnot rfl, (hQ.exact he hspoils).2.2⟩
  | .readToEnd limit (.ready (.ok data)) =>
      refine Or.inr ⟨hnot rfl, ?_⟩
      have hall : consumed log ++ data = S := (hQ.toEnd he hspoils).1
      exact hall ▸ List.prefix_rfl
  | .readChunk _ .pending | .readChunk _ (.ready (.ok none))
  | .readChunk _ (.ready (.error _)) | .readExact _ .pending
  | .readExact _ (.ready (.ok none)) | .readExact _ (.ready (.error _))
  | .readToEnd _ .pending | .readToEnd _ (.ready (.error _))
  | .receivedReset _ | .stop _ _ | .dropped => exact Or.inl rfl

end Body

/-! ## The cursor -/

def views (w : World) : List View :=
  w.tasks.map view

/-- The bytes that task `i` has taken from the stream and not lost. -/
def bytesAt (w : World) (i : ℕ) : List UInt8 :=
  (views w)[i]?.elim [] fun v => v.2.bytes

/-- The bytes that have been taken from the stream, in the order of the mutex. -/
def received (w : World) : List UInt8 :=
  w.entered.flatMap (bytesAt w)

/-- The tasks agree with one cursor over the bytes `S`. -/
structure OnCursor (S : List UInt8) (finished : Prop) (w : World) : Prop where
  within : received w <+: S
  exact : ¬ Seen Event.fails w.log → received w = consumed w.log
  outside : ∀ i, i ∉ w.entered → bytesAt w i = []
  fits : ∀ (i : ℕ) (v : View), (views w)[i]? = some v → Fits v
  atEnd : (w.vars.eof = true ∨
      ∃ (i : ℕ) (v : View), (views w)[i]? = some v ∧ v.2.storing = true) →
    received w = S ∧ finished
  idle : w.vars.eof = true → ∀ (i : ℕ) (v : View), (views w)[i]? = some v →
    v.2.calling = true → v.2.bytes = []
  signalled : ∀ (i : ℕ) (v : View), (views w)[i]? = some v → Signals v →
    ∃ pre post, w.entered = pre ++ i :: post ∧
      (pre ++ [i]).flatMap (bytesAt w) = S ∧ finished

section Quiet

variable {S : List UInt8} {finished : Prop} {w w' : World} {i : ℕ}

theorem bytesAt_of_view {v : View} (hi : (views w)[i]? = some v) :
    bytesAt w i = v.2.bytes := by
  rw [bytesAt, hi, Option.elim_some]

/-- A step that takes nothing from the stream, and changes views only from blank
to blank. -/
structure Quiet (w w' : World) : Prop where
  views : ∀ j, (views w')[j]? = (views w)[j]? ∨
    (bytesAt w j = [] ∧ ∃ v, (RecvStream.views w')[j]? = some v ∧ Blank v)
  entered : w'.entered = w.entered ∨
    ∃ i, i ∉ w.entered ∧ w'.entered = w.entered ++ [i]
  consumed : consumed w'.log = consumed w.log
  fails : Seen Event.fails w.log → Seen Event.fails w'.log
  vars : w'.vars = w.vars

theorem Quiet.bytesAt_eq (h : Quiet w w') : bytesAt w' = bytesAt w := by
  funext j
  rcases h.views j with hsame | ⟨hnil, v, hv, hblank⟩
  · rw [bytesAt, bytesAt, hsame]
  · rw [hnil, bytesAt_of_view hv, hblank.bytes]

theorem Quiet.received_eq (h : Quiet w w') (hw : OnCursor S finished w) :
    received w' = received w := by
  rw [received, received, h.bytesAt_eq]
  rcases h.entered with heq | ⟨i, hi, heq⟩
  · rw [heq]
  · rw [heq, List.flatMap_append, List.flatMap_singleton, hw.outside i hi,
      List.append_nil]

theorem Quiet.blank_or_before (h : Quiet w w') {j : ℕ} {v : View}
    (hv : (RecvStream.views w')[j]? = some v) :
    Blank v ∨ (RecvStream.views w)[j]? = some v := by
  rcases h.views j with hsame | ⟨-, v', hv', hblank⟩
  · right
    rwa [← hsame]
  · left
    obtain rfl := Option.some.inj (hv.symm.trans hv')
    exact hblank

theorem OnCursor.quiet (hw : OnCursor S finished w) (h : Quiet w w') :
    OnCursor S finished w' where
  within := by
    rw [h.received_eq hw]
    exact hw.within
  exact hnot := by
    rw [h.received_eq hw, h.consumed]
    exact hw.exact fun hseen => hnot (h.fails hseen)
  outside j hj := by
    rw [h.bytesAt_eq]
    refine hw.outside j fun hmem => hj ?_
    rcases h.entered with heq | ⟨i, -, heq⟩ <;> simp [heq, hmem]
  fits j v hv := by
    rcases h.blank_or_before hv with hblank | hbefore
    · exact hblank.fits
    · exact hw.fits j v hbefore
  atEnd := by
    rw [h.received_eq hw, h.vars]
    rintro (heof | ⟨j, v, hv, hstoring⟩)
    · exact hw.atEnd (Or.inl heof)
    · rcases h.blank_or_before hv with hblank | hbefore
      · rw [hblank.storing] at hstoring
        cases hstoring
      · exact hw.atEnd (Or.inr ⟨j, v, hbefore, hstoring⟩)
  idle heof j v hv hcalling := by
    rw [h.vars] at heof
    rcases h.blank_or_before hv with hblank | hbefore
    · exact hblank.bytes
    · exact hw.idle heof j v hbefore hcalling
  signalled j v hv hsignals := by
    have hbefore : (RecvStream.views w)[j]? = some v :=
      (h.blank_or_before hv).resolve_left fun hblank => hblank.signals hsignals
    obtain ⟨pre, post, hsplit, hall, hfin⟩ := hw.signalled j v hbefore hsignals
    rw [h.bytesAt_eq]
    rcases h.entered with heq | ⟨i, -, heq⟩
    · exact ⟨pre, post, by rw [heq, hsplit], hall, hfin⟩
    · exact ⟨pre, post ++ [i], by simp [heq, hsplit], hall, hfin⟩

end Quiet

section Steps

variable {errorFromHttp3 : ErrorFromHttp3} {Q : Answers Event}
  {S : List UInt8} {finished : Prop} {w : World} {i : ℕ} {op : Op} {loc : Loc}
  {ans : Option Event} {v' : Flags} {beat : Beat Loc Ret}

theorem getElem?_views {t : Task Op Loc Ret} (hi : w.tasks[i]? = some t) :
    (views w)[i]? = some (view t) := by
  simp [views, hi]

theorem holds_of_stage {t : Task Op Loc Ret} {l : Loc} (h : stage t = .body l) :
    t.holds = true := by
  cases t with
  | exit b pc => cases h
  | call op pc =>
      cases pc with
      | interrupted l => cases l <;> first | rfl | cases h
      | running | suspended => rfl
      | _ => cases h

theorem eq_of_body (hx : Exclusive w) {j : ℕ} {t : Task Op Loc Ret} {v : View}
    {l : Loc} (hi : w.tasks[i]? = some t) (ht : t.holds = true)
    (hj : (views w)[j]? = some v) (hv : v.2 = .body l) : j = i := by
  obtain ⟨u, hu, rfl⟩ : ∃ u, w.tasks[j]? = some u ∧ view u = v := by
    simpa [views] using hj
  exact hx.eq_of_holds hu hi (holds_of_stage hv) ht

abbrev worked (w : World) (i : ℕ) (ans : Option Event) (v' : Flags)
    (t' : Task Op Loc Ret) : World :=
  { w with
    toShared := { w.toShared.record ans.toList with vars := v' }
    tasks := w.tasks.set i t' }

theorem views_worked {t' : Task Op Loc Ret} :
    views (worked w i ans v' t') = (views w).set i (view t') := by
  simp [views, List.map_set]

theorem forall_views_worked {P : ℕ → View → Prop}
    (hself : P i (view (.call op beat.pc)))
    (hother : ∀ j v, j ≠ i → (views w)[j]? = some v → P j v) :
    ∀ j v, (views (worked w i ans v' (.call op beat.pc)))[j]? = some v → P j v := by
  rw [views_worked]
  exact forall_getElem?_set hself hother

theorem bytesAt_worked (hi : w.tasks[i]? = some (.call op (.running loc))) :
    bytesAt (worked w i ans v' (.call op beat.pc)) =
      Function.update (bytesAt w) i (stage (.call op beat.pc)).bytes := by
  funext j
  rw [bytesAt, views_worked]
  by_cases hji : j = i
  · subst hji
    rw [Function.update_self, getElem?_set_of_eq_some (getElem?_views hi)]
    rfl
  · rw [Function.update_of_ne hji, List.getElem?_set_ne (Ne.symm hji)]
    rfl

theorem entered_split (hin : Entries w)
    (hi : w.tasks[i]? = some (.call op (.running loc))) :
    ∃ before, w.entered = before ++ [i] ∧ i ∉ before := by
  obtain ⟨before, hentered⟩ := List.getLast?_eq_some_iff.mp (hin.last i _ hi rfl)
  exact ⟨before, hentered, hin.not_mem_of_append hi rfl hentered (by simp)⟩

theorem flatMap_bytesAt_worked
    (hi : w.tasks[i]? = some (.call op (.running loc))) {before : List ℕ}
    (hnot : i ∉ before) :
    before.flatMap (bytesAt (worked w i ans v' (.call op beat.pc))) =
      before.flatMap (bytesAt w) := by
  refine List.flatMap_congr fun j hj => ?_
  have hji : j ≠ i := by
    rintro rfl
    exact hnot hj
  rw [bytesAt_worked hi, Function.update_of_ne hji]

theorem received_split (hin : Entries w)
    (hi : w.tasks[i]? = some (.call op (.running loc))) :
    ∃ before, received w = before ++ (Stage.body loc).bytes ∧
      received (worked w i ans v' (.call op beat.pc)) =
        before ++ (stage (.call op beat.pc)).bytes := by
  obtain ⟨before, hentered, hnot⟩ := entered_split hin hi
  have hold : bytesAt w i = (Stage.body loc).bytes :=
    bytesAt_of_view (getElem?_views hi)
  have hself : bytesAt (worked w i ans v' (.call op beat.pc)) i =
      (stage (.call op beat.pc)).bytes := by
    rw [bytesAt_worked hi, Function.update_self]
  have hsame : (worked w i ans v' (.call op beat.pc)).entered = before ++ [i] :=
    hentered
  refine ⟨before.flatMap (bytesAt w), ?_, ?_⟩
  · rw [received, hentered, List.flatMap_append, List.flatMap_singleton, hold]
  · rw [received, hsame, List.flatMap_append, List.flatMap_singleton, hself,
      flatMap_bytesAt_worked hi hnot]

theorem body_of_storing {st : Stage} (h : st.storing = true) :
    ∃ l, st = .body l := by
  cases st with
  | body l => exact ⟨l, rfl⟩
  | _ => cases h

theorem body_of_calling {st : Stage} (h : st.calling = true) :
    ∃ l, st = .body l := by
  cases st with
  | body l => exact ⟨l, rfl⟩
  | _ => cases h

/-- Task `i` makes a step of its body, on a stream that is not spoiled. -/
structure Works (errorFromHttp3 : ErrorFromHttp3) (Q : Answers Event)
    (S : List UInt8) (finished : Prop) (w : World) (i : ℕ) (op : Op) (loc : Loc)
    (ans : Option Event) (v' : Flags) (beat : Beat Loc Ret) : Prop where
  stream : ByteStream Q S finished
  exclusive : Exclusive w
  entries : Entries w
  cursor : OnCursor S finished w
  running : w.tasks[i]? = some (.call op (.running loc))
  answers : ∀ e ∈ ans, Q w.log e
  clean : ¬ Seen Event.spoils w.log
  spoils : ¬ Seen Event.spoils ans.toList
  move : BodyMove errorFromHttp3 w.vars op loc ans v' beat

namespace Works

variable (h : Works errorFromHttp3 Q S finished w i op loc ans v' beat)
include h

theorem view_running : (views w)[i]? = some (.op op, .body loc) :=
  getElem?_views h.running

/-- The step adds what it takes from the stream to what has been received, or
fails and takes back what it had in hand. -/
theorem received_cases :
    received (worked w i ans v' (.call op beat.pc)) =
        received w ++ consumed ans.toList ∨
      (Seen Event.fails ans.toList ∧ (Stage.body loc).calling = true ∧
        received (worked w i ans v' (.call op beat.pc)) ++
          (Stage.body loc).bytes = received w) := by
  have hfits : Fits (.op op, .body loc) := h.cursor.fits i _ h.view_running
  obtain ⟨before, hold, hnew⟩ := received_split h.entries h.running
  rw [hold, hnew]
  rcases bytes_of_bodyMove h.move hfits h.spoils with hgain | ⟨hfails, hlost⟩
  · left
    rw [hgain, List.append_assoc]
  · right
    refine ⟨hfails, calling_of_fails h.move hfails, ?_⟩
    rw [hlost, List.append_nil]

theorem takes : consumed ans.toList = [] ∨
    (received w = consumed w.log ∧ received w ++ consumed ans.toList <+: S) := by
  cases ans with
  | none => exact Or.inl rfl
  | some e =>
      rw [Option.toList_some, consumed_singleton]
      rcases bytes_of_answer h.stream (h.answers e rfl) h.clean with
        hnil | ⟨hfails, hnext⟩
      · exact Or.inl hnil
      · have hall : received w = consumed w.log := h.cursor.exact hfails
        exact Or.inr ⟨hall, hall ▸ hnext⟩

/-- A body that has found the flag set, or is about to set it, has received
everything. -/
theorem atEnd_of_eof
    (heof : w.vars.eof = true ∨ (Stage.body loc).storing = true) :
    (received w = S ∧ finished) ∧
      ((Stage.body loc).calling = true → (Stage.body loc).bytes = []) := by
  rcases heof with hset | hstoring
  · exact ⟨h.cursor.atEnd (Or.inl hset), h.cursor.idle hset i _ h.view_running⟩
  · refine ⟨h.cursor.atEnd (Or.inr ⟨i, _, h.view_running, hstoring⟩), ?_⟩
    intro hcalling
    cases loc with
    | call buf => cases hstoring
    | _ => cases hcalling

theorem atEnd_of_set (hset : v'.eof = true) :
    (received w = S ∧ finished) ∧
      ((Stage.body loc).calling = true → (Stage.body loc).bytes = []) := by
  refine h.atEnd_of_eof ?_
  rcases eof_of_bodyMove h.move with rfl | hstoring
  · exact Or.inl hset
  · exact Or.inr hstoring

theorem full (hfull : received w = S)
    (hidle : (Stage.body loc).calling = true → (Stage.body loc).bytes = []) :
    received (worked w i ans v' (.call op beat.pc)) = S := by
  rcases h.received_cases with hgain | ⟨-, hcalling, hlost⟩
  · have hnil : consumed ans.toList = [] := by
      rcases h.takes with hnil | ⟨-, hnext⟩
      · exact hnil
      · have hlength := hnext.length_le
        rw [hfull, List.length_append] at hlength
        exact List.eq_nil_of_length_eq_zero (by omega)
    rw [hgain, hnil, List.append_nil, hfull]
  · rw [hidle hcalling, List.append_nil] at hlost
    rw [hlost, hfull]

theorem not_body {j : ℕ} {v : View} (hji : j ≠ i) (hj : (views w)[j]? = some v)
    (hv : ∃ l, v.2 = .body l) : False := by
  obtain ⟨l, hl⟩ := hv
  exact hji (eq_of_body h.exclusive h.running rfl hj hl)

theorem within : received (worked w i ans v' (.call op beat.pc)) <+: S := by
  rcases h.received_cases with hgain | ⟨-, -, hlost⟩
  · rw [hgain]
    rcases h.takes with hnil | ⟨-, hnext⟩
    · rw [hnil, List.append_nil]
      exact h.cursor.within
    · exact hnext
  · exact (List.prefix_append _ _).trans (hlost ▸ h.cursor.within)

theorem exact (hfails : ¬ Seen Event.fails (w.log ++ ans.toList)) :
    received (worked w i ans v' (.call op beat.pc)) =
      consumed (w.log ++ ans.toList) := by
  rw [seen_append, not_or] at hfails
  rcases h.received_cases with hgain | ⟨hseen, -⟩
  · rw [hgain, consumed_append, h.cursor.exact hfails.1]
  · exact absurd hseen hfails.2

theorem outside (j : ℕ) (hj : j ∉ w.entered) :
    bytesAt (worked w i ans v' (.call op beat.pc)) j = [] := by
  have hji : j ≠ i := by
    rintro rfl
    exact hj (List.mem_of_getLast? (h.entries.last j _ h.running rfl))
  rw [bytesAt_worked h.running, Function.update_of_ne hji]
  exact h.cursor.outside j hj

theorem atEnd_self (hstoring : (stage (.call op beat.pc)).storing = true) :
    received (worked w i ans v' (.call op beat.pc)) = S ∧ finished := by
  obtain ⟨hfails, hall, hfin⟩ :=
    end_of_storing h.stream h.answers h.clean h.move hstoring
  rw [h.exact hfails, consumed_append]
  exact ⟨hall, hfin⟩

theorem idle_self (hset : v'.eof = true)
    (hcalling : (stage (.call op beat.pc)).calling = true) :
    (stage (.call op beat.pc)).bytes = [] := by
  obtain ⟨⟨hall, -⟩, hidle⟩ := h.atEnd_of_set hset
  have hold : (Stage.body loc).bytes = [] := by
    rcases bytes_eq_nil_or_calling h.move hcalling with hnil | hbefore
    · exact hnil
    · exact hidle hbefore
  obtain ⟨before, hbefore, hafter⟩ :
      ∃ before, received w = before ++ (Stage.body loc).bytes ∧
        received (worked w i ans v' (.call op beat.pc)) =
          before ++ (stage (.call op beat.pc)).bytes :=
    received_split h.entries h.running
  rw [hold, List.append_nil, hall] at hbefore
  rw [h.full hall hidle, hbefore] at hafter
  simpa using hafter

theorem signalled_self (hsignals : Signals (view (.call op beat.pc))) :
    ∃ pre post, w.entered = pre ++ i :: post ∧
      (pre ++ [i]).flatMap (bytesAt (worked w i ans v' (.call op beat.pc))) = S ∧
      finished := by
  obtain ⟨before, hentered, -⟩ := entered_split h.entries h.running
  obtain ⟨⟨hall, hfin⟩, hidle⟩ := h.atEnd_of_eof
    (eof_of_signals h.stream h.answers h.clean h.move hsignals)
  refine ⟨before, [], hentered, ?_, hfin⟩
  rw [← hentered]
  exact h.full hall hidle

theorem signalled_other {j : ℕ} {v : View} (hji : j ≠ i)
    (hj : (views w)[j]? = some v) (hsignals : Signals v) :
    ∃ pre post, w.entered = pre ++ j :: post ∧
      (pre ++ [j]).flatMap (bytesAt (worked w i ans v' (.call op beat.pc))) = S ∧
      finished := by
  obtain ⟨pre, post, hsplit, hall, hfin⟩ := h.cursor.signalled j v hj hsignals
  have hpre : i ∉ pre :=
    h.entries.not_mem_of_append h.running rfl hsplit (by simp)
  have hnot : i ∉ pre ++ [j] := by simpa [hpre] using Ne.symm hji
  refine ⟨pre, post, hsplit, ?_, hfin⟩
  rw [flatMap_bytesAt_worked h.running hnot]
  exact hall

/-- A step of a body keeps all reads on one cursor. -/
theorem onCursor : OnCursor S finished (worked w i ans v' (.call op beat.pc)) where
  within := h.within
  exact := h.exact
  outside := h.outside
  fits := forall_views_worked
    (fits_of_bodyMove h.stream h.answers h.clean h.move
      (h.cursor.fits i _ h.view_running))
    fun j v _ => h.cursor.fits j v
  atEnd := by
    rintro (hset | ⟨j, v, hv, hstoring⟩)
    · obtain ⟨⟨hall, hfin⟩, hidle⟩ := h.atEnd_of_set hset
      exact ⟨h.full hall hidle, hfin⟩
    · revert hstoring
      refine forall_views_worked (P := fun _ v => v.2.storing = true → _)
        h.atEnd_self (fun j v hji hj hstoring => ?_) j v hv
      exact (h.not_body hji hj (body_of_storing hstoring)).elim
  idle hset := forall_views_worked (h.idle_self hset)
    fun j v hji hj hcalling => (h.not_body hji hj (body_of_calling hcalling)).elim
  signalled := forall_views_worked h.signalled_self
    fun j v hji hj => h.signalled_other hji hj

end Works

end Steps

/-! ## The invariant over whole runs -/

section Runs

variable {errorFromHttp3 : ErrorFromHttp3} {Q : Answers Event}
  {S : List UInt8} {finished : Prop} {i : ℕ} {sh sh' : Shared Event Flags}
  {t t' : Task Op Loc Ret} {ans : Option Event} {w w' : World}
  {l : Action Op Event Empty}

theorem Seen.mono {p : Event → Bool} {log log' : List Event} (h : log <+: log')
    (hseen : Seen p log) : Seen p log' := by
  obtain ⟨evs, rfl⟩ := h
  exact seen_append.mpr (Or.inl hseen)

theorem blank_of_idle {v : View} (h : v.2 = .idle) : Blank v := by
  obtain ⟨called, st⟩ := v
  obtain rfl : st = .idle := h
  refine ⟨rfl, rfl, ?_, ?_⟩
  · cases called <;> exact id
  · cases called <;> trivial

theorem blank_of_enter (op : Op) :
    Blank (view (.call op (.running ((half errorFromHttp3).enter op)))) := by
  refine ⟨?_, ?_, id, ?_⟩
  · cases op <;> rfl
  · cases op <;> rfl
  · cases op with
    | waitClosed => rfl
    | _ => trivial

theorem blank_of_closedLocally (op : Op) :
    Blank (view (.call op (.done (half errorFromHttp3).closedLocally))) := by
  refine ⟨rfl, rfl, ?_, fitsRet_error op _⟩
  have hnot : signals op (half errorFromHttp3).closedLocally = false :=
    signals_error rfl
  simp [view, stage, Task.called, Signals, hnot]

/-- What a step outside the bodies does to the list of calls and the flag. -/
structure Idles (sh sh' : Shared Event Flags) : Prop where
  consumed : consumed sh'.log = consumed sh.log
  fails : Seen Event.fails sh.log → Seen Event.fails sh'.log
  vars : sh'.vars = sh.vars

theorem idles_of_eq (hlog : sh'.log = sh.log) (hvars : sh'.vars = sh.vars) :
    Idles sh sh' :=
  ⟨by rw [hlog], by rw [hlog]; exact id, hvars⟩

theorem idles_of_close {e : Event} {code : UInt32}
    (he : e.closeCode = some code) (hlog : sh'.log = sh.log ++ [e])
    (hvars : sh'.vars = sh.vars) : Idles sh sh' := by
  obtain ⟨hbytes, -⟩ := takes_nothing_of_closeCode he
  refine ⟨?_, ?_, hvars⟩
  · rw [hlog, consumed_append, consumed_singleton, hbytes, List.append_nil]
  · rw [hlog, seen_append]
    exact Or.inl

/-- A task moves on without taking anything from the stream: it looks the same,
or it had nothing in hand and still has nothing. -/
def Passes (t t' : Task Op Loc Ret) : Prop :=
  view t' = view t ∨ ((stage t).bytes = [] ∧ Blank (view t'))

/-- A step of a task is a step of its body, or gives its body up, or takes
nothing from the stream. -/
theorem cursor_cases (h : TaskMove (half errorFromHttp3) i sh t ans t' sh') :
    (∃ op loc v' beat, t = .call op (.running loc) ∧ t' = .call op beat.pc ∧
      BodyMove errorFromHttp3 sh.vars op loc ans v' beat ∧
      sh' = { sh.record ans.toList with vars := v' }) ∨
    Seen Event.spoils sh'.log ∨ (Idles sh sh' ∧ Passes t t') := by
  cases h with
  | call op h =>
      cases h with
      | works loc ans v' beat hb =>
          exact Or.inl ⟨op, loc, v', beat, rfl, rfl, bodyMove_of_body hb, rfl⟩
      | letsGo l =>
          cases l with
          | none =>
              exact Or.inr (Or.inr
                ⟨idles_of_eq (List.append_nil _) rfl, Or.inl rfl⟩)
          | some l =>
              refine Or.inr (Or.inl ?_)
              exact seen_append.mpr (Or.inr rfl)
      | enters ho =>
          exact Or.inr (Or.inr ⟨idles_of_eq rfl rfl,
            Or.inr ⟨rfl, blank_of_enter op⟩⟩)
      | closeSends code e he =>
          exact Or.inr (Or.inr ⟨idles_of_close he rfl rfl, Or.inl rfl⟩)
      | closeReturns =>
          exact Or.inr (Or.inr ⟨idles_of_eq rfl rfl,
            Or.inr ⟨rfl, blank_of_closedLocally op⟩⟩)
      | _ => exact Or.inr (Or.inr ⟨idles_of_eq rfl rfl, Or.inl rfl⟩)
  | exit b h =>
      refine Or.inr (Or.inr ⟨?_, Or.inl rfl⟩)
      cases h with
      | sendsClose b e hb he => exact idles_of_close he rfl rfl
      | sendsFinish b e hb he => cases he
      | _ => exact idles_of_eq rfl rfl

theorem cursor_cases_of_dropMove
    (h : DropMove (half errorFromHttp3) i sh t t' sh') :
    Seen Event.spoils sh'.log ∨ (Idles sh sh' ∧ Passes t t') := by
  cases h with
  | callSuspended op l => exact Or.inl (seen_append.mpr (Or.inr rfl))
  | _ => exact Or.inr ⟨idles_of_eq rfl rfl, Or.inl rfl⟩

theorem idles_of_pythonMove {py py' : Python Empty}
    (h : PythonMove (half errorFromHttp3) sh py ans py' sh') : Idles sh sh' := by
  cases h with
  | sends code e he => exact idles_of_close he rfl rfl
  | assignLocks k => exact k.elim
  | assignDefers k => exact k.elim
  | applies k => exact k.elim
  | records k => exact k.elim
  | _ => exact idles_of_eq rfl rfl

theorem OnCursor.passes (hw : OnCursor S finished w)
    (hi : w.tasks[i]? = some t) (hidles : Idles w.toShared sh)
    (hpasses : Passes t t')
    (hentered : sh.entered = w.entered ∨
      ∃ i, i ∉ w.entered ∧ sh.entered = w.entered ++ [i]) :
    OnCursor S finished { w with toShared := sh, tasks := w.tasks.set i t' } := by
  refine hw.quiet
    ⟨fun j => ?_, hentered, hidles.consumed, hidles.fails, hidles.vars⟩
  have hviews : views { w with toShared := sh, tasks := w.tasks.set i t' } =
      (views w).set i (view t') := by
    simp [views, List.map_set]
  rw [hviews]
  by_cases hji : j = i
  · subst hji
    have hview := getElem?_views hi
    rw [getElem?_set_of_eq_some hview, hview]
    rcases hpasses with hsame | ⟨hnil, hblank⟩
    · exact Or.inl (by rw [hsame])
    · exact Or.inr ⟨(bytesAt_of_view hview).trans hnil, _, rfl, hblank⟩
  · exact Or.inl (List.getElem?_set_ne (Ne.symm hji))

theorem OnCursor.spawn (hw : OnCursor S finished w) (ht : stage t = .idle) :
    OnCursor S finished { w with tasks := w.tasks ++ [t] } := by
  refine hw.quiet ⟨fun j => ?_, Or.inl rfl, rfl, id, rfl⟩
  have hviews : views { w with tasks := w.tasks ++ [t] } = views w ++ [view t] := by
    simp [views]
  rw [hviews]
  rcases Nat.lt_trichotomy j (views w).length with hlt | heq | hgt
  · exact Or.inl (List.getElem?_append_left hlt)
  · refine Or.inr ⟨?_, view t, ?_, blank_of_idle ht⟩
    · simp [bytesAt, heq]
    · simp [heq]
  · left
    rw [List.getElem?_eq_none (by simp; omega), List.getElem?_eq_none (by omega)]

theorem onCursor_step (hQ : ByteStream Q S finished) (hx : Exclusive w)
    (hin : Entries w) (h : (half errorFromHttp3).Step Q w l w')
    (hw : Seen Event.spoils w.log ∨ OnCursor S finished w) :
    Seen Event.spoils w'.log ∨ OnCursor S finished w' := by
  by_cases hclean : Seen Event.spoils w.log
  · exact Or.inl (hclean.mono h.log_isPrefix)
  have hw : OnCursor S finished w := hw.resolve_left hclean
  cases h.move with
  | call op => exact Or.inr (hw.spawn rfl)
  | exit b => exact Or.inr (hw.spawn rfl)
  | closeRefused => exact Or.inr hw
  | closeBegins =>
      exact Or.inr (hw.quiet ⟨fun _ => Or.inl rfl, Or.inl rfl, rfl, id, rfl⟩)
  | assigns k => exact k.elim
  | python ans hm =>
      have hidles := idles_of_pythonMove hm
      exact Or.inr (hw.quiet ⟨fun _ => Or.inl rfl, Or.inl hm.entered_eq,
        hidles.consumed, hidles.fails, hidles.vars⟩)
  | task i ans hi hm =>
      rcases cursor_cases hm with ⟨op, loc, v', beat, rfl, rfl, hb, rfl⟩ | hspoils |
        ⟨hidles, hpasses⟩
      · by_cases hspoils : Seen Event.spoils ans.toList
        · exact Or.inl (seen_append.mpr (Or.inr hspoils))
        · have hworks : Works errorFromHttp3 Q S finished w i op loc ans v' beat :=
            ⟨hQ, hx, hin, hw, hi, h.2, hclean, hspoils, hb⟩
          exact Or.inr hworks.onCursor
      · exact Or.inl hspoils
      · refine Or.inr (hw.passes hi hidles hpasses ?_)
        rcases hm.entered_cases with ⟨heq, -⟩ | ⟨heq, hbefore, -⟩
        · exact Or.inl heq
        · exact Or.inr ⟨i, hin.not_mem hi hbefore, heq⟩
  | drop i hi hm =>
      rcases cursor_cases_of_dropMove hm with hspoils | ⟨hidles, hpasses⟩
      · exact Or.inl hspoils
      · exact Or.inr (hw.passes hi hidles hpasses (Or.inl hm.entered_eq.1))

theorem onCursor_new (S : List UInt8) (finished : Prop) :
    OnCursor S finished new where
  within := List.nil_prefix
  exact _ := rfl
  outside i _ := by simp [bytesAt, views, World.init]
  fits i v hv := by simp [views, World.init] at hv
  atEnd := by
    rintro (heof | ⟨i, v, hv, -⟩)
    · cases heof
    · simp [views, World.init] at hv
  idle heof := by cases heof
  signalled i v hv := by simp [views, World.init] at hv

theorem onCursor_of_reachable (hQ : ByteStream Q S finished)
    (h : Reachable ((half errorFromHttp3).Step Q) new w)
    (hclean : ¬ Seen Event.spoils w.log) : OnCursor S finished w := by
  have hboth : Reachable ((half errorFromHttp3).Step Q) new w ∧
      (Seen Event.spoils w.log ∨ OnCursor S finished w) := by
    refine h.invariant
      (I := fun w => Reachable ((half errorFromHttp3).Step Q) new w ∧
        (Seen Event.spoils w.log ∨ OnCursor S finished w)) ?_
      ⟨Reachable.refl, Or.inr (onCursor_new S finished)⟩
    intro w l w' hstep hw
    exact ⟨hw.1.tail hstep, onCursor_step hQ (exclusive_of_reachable hw.1)
      (entries_of_reachable hw.1) hstep hw.2⟩
  exact hboth.2.resolve_left hclean

end Runs

/-! ## What Python sees -/

section Delivery

variable {errorFromHttp3 : ErrorFromHttp3} {Q : Answers Event}
  {S : List UInt8} {finished : Prop} {i : ℕ} {t : Task Op Loc Ret} {w : World}

/-- The bytes that task `i` has handed to Python. -/
def deliveredAt (w : World) (i : ℕ) : List UInt8 :=
  w.tasks[i]?.elim [] delivered

theorem delivered_of_inBody (h : t.inBody = true) : delivered t = [] := by
  cases t with
  | exit b pc => rfl
  | call op pc =>
      cases pc with
      | done r => cases h
      | _ => rfl

theorem delivered_eq_bytes (h : t.inBody = false) :
    delivered t = (stage t).bytes := by
  cases t with
  | exit b pc => rfl
  | call op pc =>
      cases pc with
      | running | suspended | built => cases h
      | interrupted l =>
          cases l with
          | none => rfl
          | some l => cases h
      | _ => rfl

theorem deliveredAt_eq_bytesAt
    (h : ∀ t, w.tasks[i]? = some t → t.inBody = false) :
    deliveredAt w i = bytesAt w i := by
  cases hi : w.tasks[i]? with
  | none => simp [deliveredAt, bytesAt, views, hi]
  | some t =>
      rw [deliveredAt, hi, bytesAt_of_view (getElem?_views hi)]
      exact delivered_eq_bytes (h t hi)

theorem deliveredAt_isPrefix (w : World) (i : ℕ) :
    deliveredAt w i <+: bytesAt w i := by
  by_cases h : ∀ t, w.tasks[i]? = some t → t.inBody = false
  · rw [deliveredAt_eq_bytesAt h]
  · push Not at h
    obtain ⟨t, hi, ht⟩ := h
    rw [deliveredAt, hi, Option.elim_some, delivered_of_inBody (by simpa using ht)]
    exact List.nil_prefix

theorem flatMap_deliveredAt (hin : Entries w) {pre post : List ℕ}
    (hsplit : w.entered = pre ++ post) (hpost : post ≠ []) :
    pre.flatMap (deliveredAt w) = pre.flatMap (bytesAt w) := by
  refine List.flatMap_congr fun j hj => deliveredAt_eq_bytesAt fun t hjt => ?_
  by_contra hbody
  exact hin.not_mem_of_append hjt (by simpa using hbody) hsplit hpost hj

theorem flatMap_deliveredAt_isPrefix (hin : Entries w) :
    w.entered.flatMap (deliveredAt w) <+: received w := by
  rcases List.eq_nil_or_concat w.entered with hnil | ⟨before, i, hsplit⟩
  · rw [hnil]
    exact List.nil_prefix
  · rw [received, hsplit, List.concat_eq_append, List.flatMap_append,
      List.flatMap_append, List.flatMap_singleton, List.flatMap_singleton,
      flatMap_deliveredAt hin (hsplit.trans List.concat_eq_append) (by simp)]
    exact (List.prefix_append_right_inj _).mpr (deliveredAt_isPrefix w i)

/-- All read paths are views of one byte stream.  As long as no future of the
stream was given up halfway, what the operations hand over, in the order of the
mutex, is a prefix of what the peer sends; every result is as long as its
operation promises; and who reports the end of the stream does so behind its
last byte. -/
theorem reads_follow_stream (hQ : ByteStream Q S finished)
    (h : Reachable ((half errorFromHttp3).Step Q) new w)
    (hclean : ¬ Seen Event.spoils w.log) :
    w.entered.flatMap (deliveredAt w) <+: S ∧
    ∀ i op r, w.tasks[i]? = some (.call op (.done r)) →
      FitsRet op r ∧
      (signals op r = true → finished ∧
        ∃ pre post, w.entered = pre ++ i :: post ∧
          (pre ++ [i]).flatMap (deliveredAt w) = S) := by
  have hw : OnCursor S finished w := onCursor_of_reachable hQ h hclean
  have hin : Entries w := entries_of_reachable h
  refine ⟨(flatMap_deliveredAt_isPrefix hin).trans hw.within, ?_⟩
  intro i op r hi
  have hview : (views w)[i]? = some (.op op, .result r) := getElem?_views hi
  refine ⟨hw.fits i _ hview, fun hsignals => ?_⟩
  obtain ⟨pre, post, hsplit, hall, hfin⟩ := hw.signalled i _ hview hsignals
  have hself : deliveredAt w i = bytesAt w i := by
    refine deliveredAt_eq_bytesAt fun t ht => ?_
    rw [hi] at ht
    cases ht
    rfl
  refine ⟨hfin, pre, post, hsplit, ?_⟩
  rw [List.flatMap_append, List.flatMap_singleton, hself,
    flatMap_deliveredAt hin hsplit (by simp)]
  simpa using hall

end Delivery

/-- An exact read that runs past the end, between two other reads. -/
def threeReads : World :=
  after [1, 2, 3] new (startCall (.read 1 none) 0 ++
    [.task 0 (some (.readChunk 1 (.ready (.ok (some [1])))))] ++
    [.task 0 none] ++
    startCall (.readexactly 4) 1 ++
    [.task 1 (some (.readExact 4 (.ready (.ok (some [2, 3])))))] ++
    startCall .anext 2 ++
    [.task 1 (some (.readExact 2 (.ready (.ok none)))), .task 1 none,
      .task 1 none, .task 2 none, .task 2 none, .task 2 none])

theorem threeReads_follow_stream :
    threeReads.entered.flatMap (deliveredAt threeReads) <+: [1, 2, 3] ∧
    ∃ pre post, threeReads.entered = pre ++ 1 :: post ∧
      (pre ++ [1]).flatMap (deliveredAt threeReads) = [1, 2, 3] := by
  obtain ⟨hwithin, hends⟩ :=
    reads_follow_stream (finishedStream_byteStream [1, 2, 3]) (w := threeReads)
      (run_after _ (by decide)).reachable (by decide)
  refine ⟨hwithin, ?_⟩
  have hend := hends 1 (.readexactly 4)
    (.error (newStreamIncompleteReadError 4 [2, 3])) rfl
  exact (hend.2 rfl).2

end WebTransport.RecvStream
