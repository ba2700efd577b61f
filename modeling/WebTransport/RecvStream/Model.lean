import WebTransport.Errors
import WebTransport.Wrapper.Moves

/-!
# The receive half

`RecvStream`: the bodies of its operations with the flag that remembers the end
of the stream, and its exits.  As on the send half the calls on the QUIC stream
are listed with their answers; a suspended future of the stream that is dropped
leaves a mark in the list, because the bytes that such a future has already
taken are lost with it.
-/

namespace WebTransport.RecvStream

open Support Wrapper

/-- The calls on `web_transport_quinn::RecvStream` with their answers.
`read_chunk` is always made in ordered mode; `readExact want` is one request of
`read_exact` for the `want` bytes that are still missing; `stop` fails only on
a closed stream. -/
inductive Event
  | readChunk (max : Nat) (r : Poll (Except ReadError (Option (List UInt8))))
  | readExact (want : Nat) (r : Poll (Except ReadError (Option (List UInt8))))
  | readToEnd (limit : UInt64) (r : Poll (Except ReadToEndError (List UInt8)))
  | receivedReset (r : Poll (Except SessionError (Option UInt32)))
  | stop (code : UInt32) (ok : Bool)
  | dropped

/-! ## The operations -/

inductive Op
  | read (n : Int64) (limit : Option UInt64)
  | readexactly (n : UInt64)
  | anext
  | waitClosed
  deriving DecidableEq, Repr

/-- What an operation hands to Python. -/
inductive Value
  | bytes (data : List UInt8)
  | code (c : Option UInt32)
  deriving DecidableEq, Repr

abbrev Ret := Except PyErr Value

structure Flags where
  eof : Bool
  deriving DecidableEq, Repr

/-- Where a body is: at its test of the flag, at its call on the stream with
what `read_exact` has put into the buffer, or at the store to the flag in front
of its result. -/
inductive Loc
  | eofTest
  | call (buf : List UInt8)
  | eofStore (r : Ret)

/-- The longest buffer that can be allocated, `isize::MAX`. -/
def maxAlloc : Nat := 2 ^ 63 - 1

/-- What Python gets from the panic of a longer allocation. -/
abbrev capacityOverflow : PyErr := .rustPanic "rust future panicked: capacity overflow"

section Bodies

variable (errorFromHttp3 : ErrorFromHttp3)

/-- `guard.read_to_end(limit)`. -/
def readToEnd (limit : UInt64) : Option Event → Option (Beat Loc Ret)
  | some (.readToEnd l r) =>
      if l = limit then
        some (match r with
          | .pending => .pend (.call [])
          | .ready (.ok data) => .more (.eofStore (.ok (.bytes data)))
          | .ready (.error e) =>
              .ready (.error (mapReadToEndError errorFromHttp3 e limit)))
      else none
  | _ => none

/-- `guard.read_chunk(max, true)`, with the answer to give at the end of the
stream. -/
def readChunk (max : Nat) (atEnd : Ret) : Option Event → Option (Beat Loc Ret)
  | some (.readChunk m r) =>
      if m = max then
        some (match r with
          | .pending => .pend (.call [])
          | .ready (.ok (some data)) => .ready (.ok (.bytes data))
          | .ready (.ok none) => .more (.eofStore atEnd)
          | .ready (.error e) => .ready (.error (mapReadError errorFromHttp3 e)))
      else none
  | _ => none

/-- `guard.read_exact(&mut buf)`, which asks for bytes until the buffer is
full. -/
def readExact (n : UInt64) (buf : List UInt8) :
    Option Event → Option (Beat Loc Ret)
  | none => if n.toNat ≤ buf.length then some (.ready (.ok (.bytes buf))) else none
  | some (.readExact want r) =>
      if want = n.toNat - buf.length ∧ want ≠ 0 then
        some (match r with
          | .pending => .pend (.call buf)
          | .ready (.ok (some data)) => .more (.call (buf ++ data))
          | .ready (.ok none) =>
              .more (.eofStore (.error (mapReadExactError errorFromHttp3
                (.finishedEarly buf.length) n buf)))
          | .ready (.error e) =>
              .ready (.error (mapReadExactError errorFromHttp3
                (.readError e) n buf)))
      else none
  | some _ => none

/-- `guard.received_reset()`. -/
def waitClosed : Option Event → Option (Beat Loc Ret)
  | some (.receivedReset r) =>
      some (match r with
        | .pending => .pend (.call [])
        | .ready (.ok code) => .ready (.ok (.code code))
        | .ready (.error e) =>
            .ready (.error (mapSessionError errorFromHttp3 e)))
  | _ => none

/-- The end of the stream as an operation reports it when the flag is set. -/
def eofAnswer : Op → Ret
  | .anext => .error .stopAsyncIteration
  | .readexactly n => .error (newStreamIncompleteReadError n [])
  | _ => .ok (.bytes [])

/-- An operation looks at the flag: `readexactly(0)` does not. -/
def testsEof : Op → Bool
  | .readexactly n => n ≠ 0
  | .waitClosed => false
  | _ => true

theorem testsEof_readexactly {n : UInt64} :
    testsEof (.readexactly n) = true ↔ n ≠ 0 :=
  decide_eq_true_iff

theorem testsEof_of_room {n : UInt64} {k : Nat} (hroom : k < n.toNat) :
    testsEof (.readexactly n) = true := by
  have hne : n ≠ 0 := by
    rintro rfl
    simp at hroom
  exact testsEof_readexactly.mpr hne

/-- What follows the test of the flag when it is not set: `read(0)` returns,
`readexactly` allocates its buffer, and everything else goes to the stream. -/
def afterTest : Op → Beat Loc Ret
  | .read n _ => if n = 0 then .ready (.ok (.bytes [])) else .more (.call [])
  | .readexactly n =>
      if maxAlloc < n.toNat then .ready (.error capacityOverflow)
      else .more (.call [])
  | _ => .more (.call [])

/-- The body of an operation, with the guard in hand. -/
def body (op : Op) (loc : Loc) (v : Flags) (ans : Option Event) :
    Option (Flags × Beat Loc Ret) :=
  match loc, ans with
  | .eofTest, none =>
      some (v, if testsEof op && v.eof then .ready (eofAnswer op)
        else afterTest op)
  | .call buf, ans =>
      match op with
      | .read n limit =>
          if n < 0 then
            (readToEnd errorFromHttp3 (limit.getD (.ofNat (2 ^ 64 - 1))) ans).map
              (v, ·)
          else
            (readChunk errorFromHttp3 n.toInt.toNat (eofAnswer op) ans).map (v, ·)
      | .readexactly n => (readExact errorFromHttp3 n buf ans).map (v, ·)
      | .anext => (readChunk errorFromHttp3 65536 (eofAnswer op) ans).map (v, ·)
      | .waitClosed => (waitClosed errorFromHttp3 ans).map (v, ·)
  | .eofStore r, none => some ({ v with eof := true }, .ready r)
  | _, _ => none

end Bodies

/-- After the test an operation goes to the stream with an empty buffer, unless
it is `read(0)`, or a `readexactly` whose buffer cannot be allocated. -/
theorem afterTest_cases (op : Op) :
    afterTest op = .more (.call []) ∨
    (∃ limit, op = .read 0 limit ∧ afterTest op = .ready (.ok (.bytes []))) ∨
    ∃ n, op = .readexactly n ∧ maxAlloc < n.toNat ∧
      afterTest op = .ready (.error capacityOverflow) := by
  unfold afterTest
  split
  · split
    · rename_i n limit hzero
      subst hzero
      exact Or.inr (Or.inl ⟨limit, rfl, rfl⟩)
    · exact Or.inl rfl
  · split
    · rename_i n hlarge
      exact Or.inr (Or.inr ⟨n, rfl, hlarge, rfl⟩)
    · exact Or.inl rfl
  · exact Or.inl rfl

/-! ## The moves of a body -/

/-- The steps of a body, one for each thing that can happen in it. -/
inductive BodyMove (errorFromHttp3 : ErrorFromHttp3) (v : Flags) :
    Op → Loc → Option Event → Flags → Beat Loc Ret → Prop
  | seesEof (op : Op) (ht : testsEof op = true) (hv : v.eof = true) :
      BodyMove errorFromHttp3 v op .eofTest none v (.ready (eofAnswer op))
  | tests (op : Op) (ht : testsEof op = true → v.eof = false) :
      BodyMove errorFromHttp3 v op .eofTest none v (afterTest op)
  | endPends (n : Int64) (limit : Option UInt64) (buf : List UInt8)
      (l : UInt64) (hn : n < 0) (hl : l = limit.getD (.ofNat (2 ^ 64 - 1))) :
      BodyMove errorFromHttp3 v (.read n limit) (.call buf)
        (some (.readToEnd l .pending)) v (.pend (.call []))
  | endReads (n : Int64) (limit : Option UInt64) (buf data : List UInt8)
      (l : UInt64) (hn : n < 0) (hl : l = limit.getD (.ofNat (2 ^ 64 - 1))) :
      BodyMove errorFromHttp3 v (.read n limit) (.call buf)
        (some (.readToEnd l (.ready (.ok data)))) v
        (.more (.eofStore (.ok (.bytes data))))
  | endFails (n : Int64) (limit : Option UInt64) (buf : List UInt8)
      (l : UInt64) (e : ReadToEndError) (hn : n < 0)
      (hl : l = limit.getD (.ofNat (2 ^ 64 - 1))) :
      BodyMove errorFromHttp3 v (.read n limit) (.call buf)
        (some (.readToEnd l (.ready (.error e)))) v
        (.ready (.error (mapReadToEndError errorFromHttp3 e l)))
  | chunkPends (op : Op) (buf : List UInt8) (max : Nat)
      (hop : (∃ n limit, op = .read n limit ∧ ¬ n < 0 ∧ max = n.toInt.toNat) ∨
        (op = .anext ∧ max = 65536)) :
      BodyMove errorFromHttp3 v op (.call buf)
        (some (.readChunk max .pending)) v (.pend (.call []))
  | chunkReads (op : Op) (buf data : List UInt8) (max : Nat)
      (hop : (∃ n limit, op = .read n limit ∧ ¬ n < 0 ∧ max = n.toInt.toNat) ∨
        (op = .anext ∧ max = 65536)) :
      BodyMove errorFromHttp3 v op (.call buf)
        (some (.readChunk max (.ready (.ok (some data))))) v
        (.ready (.ok (.bytes data)))
  | chunkEnds (op : Op) (buf : List UInt8) (max : Nat)
      (hop : (∃ n limit, op = .read n limit ∧ ¬ n < 0 ∧ max = n.toInt.toNat) ∨
        (op = .anext ∧ max = 65536)) :
      BodyMove errorFromHttp3 v op (.call buf)
        (some (.readChunk max (.ready (.ok none)))) v
        (.more (.eofStore (eofAnswer op)))
  | chunkFails (op : Op) (buf : List UInt8) (max : Nat) (e : ReadError)
      (hop : (∃ n limit, op = .read n limit ∧ ¬ n < 0 ∧ max = n.toInt.toNat) ∨
        (op = .anext ∧ max = 65536)) :
      BodyMove errorFromHttp3 v op (.call buf)
        (some (.readChunk max (.ready (.error e)))) v
        (.ready (.error (mapReadError errorFromHttp3 e)))
  | exactFull (n : UInt64) (buf : List UInt8) (hfull : n.toNat ≤ buf.length) :
      BodyMove errorFromHttp3 v (.readexactly n) (.call buf) none v
        (.ready (.ok (.bytes buf)))
  | exactPends (n : UInt64) (buf : List UInt8) (hroom : buf.length < n.toNat) :
      BodyMove errorFromHttp3 v (.readexactly n) (.call buf)
        (some (.readExact (n.toNat - buf.length) .pending)) v (.pend (.call buf))
  | exactReads (n : UInt64) (buf data : List UInt8)
      (hroom : buf.length < n.toNat) :
      BodyMove errorFromHttp3 v (.readexactly n) (.call buf)
        (some (.readExact (n.toNat - buf.length) (.ready (.ok (some data))))) v
        (.more (.call (buf ++ data)))
  | exactEnds (n : UInt64) (buf : List UInt8) (hroom : buf.length < n.toNat) :
      BodyMove errorFromHttp3 v (.readexactly n) (.call buf)
        (some (.readExact (n.toNat - buf.length) (.ready (.ok none)))) v
        (.more (.eofStore (.error (newStreamIncompleteReadError n buf))))
  | exactFails (n : UInt64) (buf : List UInt8) (e : ReadError)
      (hroom : buf.length < n.toNat) :
      BodyMove errorFromHttp3 v (.readexactly n) (.call buf)
        (some (.readExact (n.toNat - buf.length) (.ready (.error e)))) v
        (.ready (.error (mapReadError errorFromHttp3 e)))
  | waits (buf : List UInt8) :
      BodyMove errorFromHttp3 v .waitClosed (.call buf)
        (some (.receivedReset .pending)) v (.pend (.call []))
  | waitEnds (buf : List UInt8) (code : Option UInt32) :
      BodyMove errorFromHttp3 v .waitClosed (.call buf)
        (some (.receivedReset (.ready (.ok code)))) v (.ready (.ok (.code code)))
  | waitFails (buf : List UInt8) (e : SessionError) :
      BodyMove errorFromHttp3 v .waitClosed (.call buf)
        (some (.receivedReset (.ready (.error e)))) v
        (.ready (.error (mapSessionError errorFromHttp3 e)))
  | storesEof (op : Op) (r : Ret) :
      BodyMove errorFromHttp3 v op (.eofStore r) none { v with eof := true }
        (.ready r)

section Inversion

variable {errorFromHttp3 : ErrorFromHttp3} {v v' : Flags} {op : Op}
  {loc : Loc} {ans : Option Event} {beat : Beat Loc Ret} {buf : List UInt8}

theorem bodyMove_of_readToEnd {n : Int64} {limit : Option UInt64}
    (hn : n < 0)
    (h : readToEnd errorFromHttp3 (limit.getD (.ofNat (2 ^ 64 - 1))) ans =
      some beat) :
    BodyMove errorFromHttp3 v (.read n limit) (.call buf) ans v beat := by
  unfold readToEnd at h
  split at h
  · split at h
    · rename_i r hl
      cases h
      match r with
      | .pending => exact .endPends n limit buf _ hn hl
      | .ready (.ok data) => exact .endReads n limit buf data _ hn hl
      | .ready (.error e) =>
          rw [← hl]
          exact .endFails n limit buf _ e hn hl
    · cases h
  · cases h

theorem bodyMove_of_readChunk {max : Nat}
    (hop : (∃ n limit, op = .read n limit ∧ ¬ n < 0 ∧ max = n.toInt.toNat) ∨
      (op = .anext ∧ max = 65536))
    (h : readChunk errorFromHttp3 max (eofAnswer op) ans = some beat) :
    BodyMove errorFromHttp3 v op (.call buf) ans v beat := by
  unfold readChunk at h
  split at h
  · split at h
    · rename_i r hm
      subst hm
      cases h
      match r with
      | .pending => exact .chunkPends op buf _ hop
      | .ready (.ok (some data)) => exact .chunkReads op buf data _ hop
      | .ready (.ok none) => exact .chunkEnds op buf _ hop
      | .ready (.error e) => exact .chunkFails op buf _ e hop
    · cases h
  · cases h

theorem bodyMove_of_readExact {n : UInt64}
    (h : readExact errorFromHttp3 n buf ans = some beat) :
    BodyMove errorFromHttp3 v (.readexactly n) (.call buf) ans v beat := by
  unfold readExact at h
  split at h
  · split at h
    · cases h
      exact .exactFull n buf (by assumption)
    · cases h
  · split at h
    · rename_i r hwant
      obtain ⟨rfl, hne⟩ := hwant
      have hroom : buf.length < n.toNat := by omega
      cases h
      match r with
      | .pending => exact .exactPends n buf hroom
      | .ready (.ok (some data)) => exact .exactReads n buf data hroom
      | .ready (.ok none) =>
          have htake : mapReadExactError errorFromHttp3
              (.finishedEarly buf.length) n buf =
              newStreamIncompleteReadError n buf := by
            simp [mapReadExactError]
          rw [htake]
          exact .exactEnds n buf hroom
      | .ready (.error e) => exact .exactFails n buf e hroom
    · cases h
  · cases h

theorem bodyMove_of_waitClosed (h : waitClosed errorFromHttp3 ans = some beat) :
    BodyMove errorFromHttp3 v .waitClosed (.call buf) ans v beat := by
  unfold waitClosed at h
  split at h
  · rename_i r
    cases h
    match r with
    | .pending => exact .waits buf
    | .ready (.ok code) => exact .waitEnds buf code
    | .ready (.error e) => exact .waitFails buf e
  · cases h

theorem bodyMove_of_body
    (h : body errorFromHttp3 op loc v ans = some (v', beat)) :
    BodyMove errorFromHttp3 v op loc ans v' beat := by
  unfold body at h
  split at h
  case h_1 =>
    by_cases hv : testsEof op = true ∧ v.eof = true
    · simp only [hv.1, hv.2, Bool.and_self, if_true, Option.some.injEq,
        Prod.mk.injEq] at h
      obtain ⟨rfl, rfl⟩ := h
      exact .seesEof op hv.1 hv.2
    · rw [if_neg (by simpa using hv)] at h
      cases h
      exact .tests op fun ht => by simpa [ht] using hv
  case h_2 buf ans =>
    split at h
    case h_1 n limit =>
      split at h
      · rename_i hn
        obtain ⟨b, hb, heq⟩ := Option.map_eq_some_iff.mp h
        cases heq
        exact bodyMove_of_readToEnd hn hb
      · rename_i hn
        obtain ⟨b, hb, heq⟩ := Option.map_eq_some_iff.mp h
        cases heq
        exact bodyMove_of_readChunk (.inl ⟨_, _, rfl, hn, rfl⟩) hb
    all_goals
      obtain ⟨b, hb, heq⟩ := Option.map_eq_some_iff.mp h
      cases heq
    · exact bodyMove_of_readExact hb
    · exact bodyMove_of_readChunk (.inr ⟨rfl, rfl⟩) hb
    · exact bodyMove_of_waitClosed hb
  case h_3 => cases h; exact .storesEof op _
  case h_4 => cases h

end Inversion

def Event.closeCode : Event → Option UInt32
  | .stop code _ => some code
  | _ => none

/-- `RecvStream` as a half: an exit stops the stream with code `0`, unless it is
clean and the end of the stream has been seen. -/
def half (errorFromHttp3 : ErrorFromHttp3) :
    Half Op Loc Ret Event Flags Empty where
  enter
    | .waitClosed => .call []
    | _ => .eofTest
  body := body errorFromHttp3
  dropped _ _ := [.dropped]
  closedLocally := .error (.streamClosedLocally "stream stopped locally")
  closeCode := Event.closeCode
  exitSkips v := v.eof
  exitCloses := true
  isFinish _ := false
  assign k := k.elim
  isApply k := k.elim
  recordApplied k := k.elim
  body_closeCode op l v e r h := by
    obtain ⟨v', beat⟩ := r
    cases bodyMove_of_body h <;> rfl
  dropped_closeCode op l e h := by
    rw [List.mem_singleton.mp h]
    rfl
  finish_closeCode e h := by cases h
  apply_closeCode k := k.elim

/-- A `RecvStream` with its tasks. -/
abbrev World := Wrapper.World Op Loc Ret Event Flags Empty

/-- `RecvStream::new`. -/
abbrev new : World :=
  .init { eof := false }

/-- `stop`, up to its test of the token. -/
def stop (w : World) : Except PyErr Unit :=
  w.testToken (.streamClosedLocally "stream already closed")

/-! ## Reading the list of calls -/

/-- The bytes that a call hands over.  A `read_to_end` hands over everything it has
taken when it succeeds, and nothing before or when it fails. -/
def Event.bytes : Event → List UInt8
  | .readChunk _ (.ready (.ok (some data))) => data
  | .readExact _ (.ready (.ok (some data))) => data
  | .readToEnd _ (.ready (.ok data)) => data
  | _ => []

/-- A read that succeeds, with bytes or with the end of the stream. -/
def Event.succeeds : Event → Bool
  | .readChunk _ (.ready (.ok _)) => true
  | .readExact _ (.ready (.ok _)) => true
  | .readToEnd _ (.ready (.ok _)) => true
  | _ => false

def Event.fails : Event → Bool
  | .readChunk _ (.ready (.error _)) => true
  | .readExact _ (.ready (.error _)) => true
  | .readToEnd _ (.ready (.error (.readError _))) => true
  | _ => false

/-- A future of the stream is given up with the bytes that it has taken. -/
def Event.spoils : Event → Bool
  | .readToEnd _ (.ready (.error .tooLong)) => true
  | .dropped => true
  | _ => false

/-- `read_to_end`, which takes the chunks in any order. -/
def Event.unordered : Event → Bool
  | .readToEnd _ _ => true
  | _ => false

/-- All the bytes that have been handed over, in order. -/
def consumed (log : List Event) : List UInt8 :=
  log.flatMap Event.bytes

/-- Some call in the list is of the given kind. -/
def Seen (p : Event → Bool) (log : List Event) : Prop :=
  log.any p = true

instance (p : Event → Bool) (log : List Event) : Decidable (Seen p log) :=
  inferInstanceAs (Decidable (_ = _))

section Log

variable {log evs : List Event} {e : Event} {p : Event → Bool}

@[simp] theorem consumed_append :
    consumed (log ++ evs) = consumed log ++ consumed evs := by
  simp [consumed]

@[simp] theorem consumed_singleton : consumed [e] = e.bytes := by
  simp [consumed]

@[simp] theorem consumed_nil : consumed [] = [] := rfl

@[simp] theorem seen_append : Seen p (log ++ evs) ↔ Seen p log ∨ Seen p evs := by
  simp only [Seen, List.any_append, Bool.or_eq_true]

@[simp] theorem seen_singleton : Seen p [e] ↔ p e = true := by
  simp [Seen]

@[simp] theorem not_seen_nil : ¬ Seen p [] := by
  simp [Seen]

end Log

section Growth

variable {errorFromHttp3 : ErrorFromHttp3} {Q : Answers Event} {i : ℕ}
  {sh sh' : Shared Event Flags} {t t' : Task Op Loc Ret} {ans : Option Event}
  {w w' : World} {l : Action Op Event Empty}

theorem takes_nothing_of_closeCode {e : Event} {code : UInt32}
    (he : e.closeCode = some code) : e.bytes = [] ∧ e.fails = false := by
  cases e with
  | stop => exact ⟨rfl, rfl⟩
  | _ => cases he

theorem consumed_of_taskMove
    (h : TaskMove (half errorFromHttp3) i sh t ans t' sh') :
    consumed sh'.log = consumed sh.log ++ consumed ans.toList := by
  cases h with
  | call op h =>
      cases h with
      | letsGo l =>
          cases l <;> simp [Shared.record, Shared.leave, half, Event.bytes]
      | _ => simp [Shared.record, Shared.request, Shared.leave, Shared.enter]
  | exit b h =>
      cases h <;> simp [Shared.record, Shared.request, Shared.leave, Shared.enter]

theorem consumed_of_dropMove (h : DropMove (half errorFromHttp3) i sh t t' sh') :
    consumed sh'.log = consumed sh.log := by
  cases h <;> simp [Shared.record, Shared.leave, half, Event.bytes]

theorem consumed_of_pythonMove {py py' : Python Empty}
    (h : PythonMove (half errorFromHttp3) sh py ans py' sh') :
    consumed sh'.log = consumed sh.log ++ consumed ans.toList := by
  cases h <;> simp [Shared.record, Shared.leave]

theorem consumed_of_step (h : (half errorFromHttp3).Step Q w l w') :
    consumed w'.log = consumed w.log ++ consumed l.answer.toList := by
  cases h.move with
  | python ans hm => exact consumed_of_pythonMove hm
  | task i ans hi hm => exact consumed_of_taskMove hm
  | drop i hi hm => simpa [Action.answer] using consumed_of_dropMove hm
  | _ => simp [Action.answer]

end Growth

/-! ## What is assumed of the QUIC stream -/

/-- The answers of a stream on which the peer sends the bytes `S`.  As long as
no future was given up halfway, a chunk is made of the next bytes, the end is
reported once all of them have been handed over and the peer has finished, and
`read_to_end` hands over all that is left; a read that fails is not followed by
one that succeeds.  Quinn does not keep to the last law after a reset: it reports the
reset once and answers `None` from then on, so nothing that rests on these laws is
said of reads after a `StreamClosedByPeer`. -/
structure ByteStream (Q : Answers Event) (S : List UInt8) (finished : Prop) :
    Prop where
  chunk : ∀ {log max data},
    Q log (.readChunk max (.ready (.ok (some data)))) →
    ¬ Seen Event.spoils log →
    data ≠ [] ∧ data.length ≤ max ∧ consumed log ++ data <+: S
  chunkEnd : ∀ {log max}, Q log (.readChunk max (.ready (.ok none))) →
    ¬ Seen Event.spoils log → consumed log = S ∧ finished
  exact : ∀ {log want data},
    Q log (.readExact want (.ready (.ok (some data)))) →
    ¬ Seen Event.spoils log →
    data ≠ [] ∧ data.length ≤ want ∧ consumed log ++ data <+: S
  exactEnd : ∀ {log want}, Q log (.readExact want (.ready (.ok none))) →
    ¬ Seen Event.spoils log → consumed log = S ∧ finished
  toEnd : ∀ {log limit data}, Q log (.readToEnd limit (.ready (.ok data))) →
    ¬ Seen Event.spoils log → consumed log ++ data = S ∧ finished
  failed : ∀ {log e}, Q log e → ¬ Seen Event.spoils log →
    Seen Event.fails log → e.succeeds = false

/-- The answers of a stream whose peer sends only data and `FIN` on a session
that stays up: an ordered read fails, and only with `IllegalOrderedRead`, once
the stream has been read in unordered mode, and `read_to_end` fails only on its
limit. -/
structure WellBehaved (Q : Answers Event) : Prop where
  chunk : ∀ {log max r}, Q log (.readChunk max r) →
    (Seen Event.unordered log → r = .ready (.error .illegalOrderedRead)) ∧
      ∀ e, r = .ready (.error e) → Seen Event.unordered log
  exact : ∀ {log want r}, Q log (.readExact want r) →
    (Seen Event.unordered log → r = .ready (.error .illegalOrderedRead)) ∧
      ∀ e, r = .ready (.error e) → Seen Event.unordered log
  toEnd : ∀ {log limit e}, Q log (.readToEnd limit (.ready (.error e))) →
    e = .tooLong

/-! ## A QUIC stream for concrete runs -/

/-- A read that returns bytes returns the next ones. -/
def continues (S : List UInt8) (log : List Event) (data : List UInt8)
    (max : Nat) : Bool :=
  !decide (Seen Event.fails log) &&
    (decide (data ≠ []) && decide (data.length ≤ max) &&
      decide (consumed log ++ data <+: S))

def ends (S : List UInt8) (log : List Event) : Bool :=
  !decide (Seen Event.fails log) && decide (consumed log = S)

/-- The answers to an ordered read of up to `max` bytes. -/
def orderedRead (S : List UInt8) (log : List Event) (max : Nat) :
    Poll (Except ReadError (Option (List UInt8))) → Bool
  | .pending => !decide (Seen Event.unordered log)
  | .ready (.ok (some data)) =>
      !decide (Seen Event.unordered log) && continues S log data max
  | .ready (.ok none) => !decide (Seen Event.unordered log) && ends S log
  | .ready (.error e) =>
      decide (Seen Event.unordered log) && e = .illegalOrderedRead

/-- The answers of a stream on which the peer sends `S` and `FIN`. -/
def finishedStream (S : List UInt8) (log : List Event) : Event → Bool
  | .readChunk max r => orderedRead S log max r
  | .readExact want r => orderedRead S log want r
  | .readToEnd _ .pending => true
  | .readToEnd limit (.ready (.ok data)) =>
      !decide (Seen Event.fails log) && (data.length ≤ limit.toNat &&
        (decide (Seen Event.spoils log) || decide (consumed log ++ data = S)))
  | .readToEnd limit (.ready (.error e)) =>
      e = .tooLong && limit.toNat + (consumed log).length < S.length
  | .receivedReset .pending => true
  | .receivedReset (.ready (.ok none)) => decide (consumed log = S)
  | .receivedReset _ => false
  | .stop _ ok => ok = !log.any fun e => e.closeCode.isSome
  | .dropped => true

abbrev FinishedStream (S : List UInt8) : Answers Event :=
  fun log e => finishedStream S log e = true

theorem finishedStream_byteStream (S : List UInt8) :
    ByteStream (FinishedStream S) S True where
  chunk h _ := by
    simp only [FinishedStream, finishedStream, orderedRead, continues,
      Bool.and_eq_true, decide_eq_true_eq] at h
    exact ⟨h.2.2.1.1, h.2.2.1.2, h.2.2.2⟩
  chunkEnd h _ := by
    simp only [FinishedStream, finishedStream, orderedRead, ends,
      Bool.and_eq_true, decide_eq_true_eq] at h
    exact ⟨h.2.2, trivial⟩
  exact h _ := by
    simp only [FinishedStream, finishedStream, orderedRead, continues,
      Bool.and_eq_true, decide_eq_true_eq] at h
    exact ⟨h.2.2.1.1, h.2.2.1.2, h.2.2.2⟩
  exactEnd h _ := by
    simp only [FinishedStream, finishedStream, orderedRead, ends,
      Bool.and_eq_true, decide_eq_true_eq] at h
    exact ⟨h.2.2, trivial⟩
  toEnd h hspoils := by
    simp only [FinishedStream, finishedStream, hspoils, decide_false,
      Bool.false_or, Bool.and_eq_true, decide_eq_true_eq] at h
    exact ⟨h.2.2, trivial⟩
  failed := by
    intro log e h _ hfails
    cases e with
    | readChunk max r =>
        rcases r with _ | (_ | (_ | data)) <;>
          simp_all [FinishedStream, finishedStream, orderedRead, continues, ends,
            Event.succeeds]
    | readExact want r =>
        rcases r with _ | (_ | (_ | data)) <;>
          simp_all [FinishedStream, finishedStream, orderedRead, continues, ends,
            Event.succeeds]
    | readToEnd limit r =>
        rcases r with _ | (_ | data) <;>
          simp_all [FinishedStream, finishedStream, Event.succeeds]
    | _ => rfl

theorem orderedRead_wellBehaved {S : List UInt8} {log : List Event} {max : Nat}
    {r : Poll (Except ReadError (Option (List UInt8)))}
    (h : orderedRead S log max r = true) :
    (Seen Event.unordered log → r = .ready (.error .illegalOrderedRead)) ∧
      ∀ e, r = .ready (.error e) → Seen Event.unordered log := by
  constructor
  · intro hseen
    rcases r with _ | (_ | (_ | data)) <;> simp_all [orderedRead]
  · rintro e rfl
    simp only [orderedRead, Bool.and_eq_true, decide_eq_true_eq] at h
    exact h.1

theorem finishedStream_wellBehaved (S : List UInt8) :
    WellBehaved (FinishedStream S) where
  chunk h := orderedRead_wellBehaved h
  exact h := orderedRead_wellBehaved h
  toEnd h := by
    simp only [FinishedStream, finishedStream, Bool.and_eq_true,
      decide_eq_true_eq] at h
    exact h.1

section Runs

variable {S : List UInt8} {w : World}

abbrev after (S : List UInt8) (w : World) (ls : List (Action Op Event Empty)) :
    World :=
  (half noCodes).after (finishedStream S) w ls

theorem run_after (ls : List (Action Op Event Empty))
    (h : (replay ((half noCodes).tryNext (finishedStream S)) w ls).isSome = true) :
    Run ((half noCodes).Step (FinishedStream S)) w
      (replayTrace ((half noCodes).tryNext (finishedStream S)) w ls)
      (after S w ls) :=
  Half.run_after h

end Runs

def startCall (op : Op) (i : ℕ) : List (Action Op Event Empty) :=
  [.call op, .task i none, .task i none, .task i none]

def waiting : World :=
  after [1] new (startCall (.read 5 none) 0 ++
    [.task 0 (some (.readChunk 5 .pending))])

end WebTransport.RecvStream
