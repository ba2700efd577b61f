import WebTransport.RecvStream.Model
import WebTransport.Wrapper.Results

/-!
# Where a result of the receive half comes from

Every result that Python gets is the answer of a call on the QUIC stream, the
answer for the end of the stream, or one of the exceptions that the wrapper raises
by itself.
-/

namespace WebTransport.RecvStream

open Support Wrapper

/-- The error with which a call that reads has failed. -/
def Event.readError? : Event → Option ReadError
  | .readChunk _ (.ready (.error e)) => some e
  | .readExact _ (.ready (.error e)) => some e
  | .readToEnd _ (.ready (.error (.readError e))) => some e
  | _ => none

/-- Where a result comes from, on a QUIC stream that answers as `Q` allows. -/
inductive Origin (errorFromHttp3 : ErrorFromHttp3) (Q : Answers Event) :
    Op → Ret → Prop
  | closedLocally (op : Op) (msg : String) :
      Origin errorFromHttp3 Q op (.error (.streamClosedLocally msg))
  | bytes (op : Op) (data : List UInt8) :
      Origin errorFromHttp3 Q op (.ok (.bytes data))
  | ended (op : Op) (ht : testsEof op = true) :
      Origin errorFromHttp3 Q op (eofAnswer op)
  | incomplete (n : UInt64) (buf : List UInt8) (hroom : buf.length < n.toNat) :
      Origin errorFromHttp3 Q (.readexactly n)
        (.error (newStreamIncompleteReadError n buf))
  | overflow (n : UInt64) (msg : String) (hn : maxAlloc < n.toNat) :
      Origin errorFromHttp3 Q (.readexactly n) (.error (.rustPanic msg))
  | tooLong (n : Int64) (given : Option UInt64) (hn : n < 0) :
      Origin errorFromHttp3 Q (.read n given) (.error (mapReadToEndError
        errorFromHttp3 .tooLong (given.getD (.ofNat (2 ^ 64 - 1)))))
  | readFailed (op : Op) (log : List Event) (ev : Event) (e : ReadError)
      (hop : op ≠ .waitClosed) (hQ : Q log ev) (hev : ev.readError? = some e) :
      Origin errorFromHttp3 Q op (.error (mapReadError errorFromHttp3 e))
  | waitEnded (log : List Event) (code : Option UInt32)
      (hQ : Q log (.receivedReset (.ready (.ok code)))) :
      Origin errorFromHttp3 Q .waitClosed (.ok (.code code))
  | waitFailed (log : List Event) (e : SessionError)
      (hQ : Q log (.receivedReset (.ready (.error e)))) :
      Origin errorFromHttp3 Q .waitClosed
        (.error (mapSessionError errorFromHttp3 e))

/-- At the store to the flag the result is already known. -/
def OriginAt (errorFromHttp3 : ErrorFromHttp3) (Q : Answers Event) (op : Op) :
    Loc → Prop
  | .eofStore r => Origin errorFromHttp3 Q op r
  | _ => True

section Origin

variable {errorFromHttp3 : ErrorFromHttp3} {Q : Answers Event}

theorem keeps_origin : (half errorFromHttp3).Keeps Q
    (fun _ op l => OriginAt errorFromHttp3 Q op l)
    fun _ op r => Origin errorFromHttp3 Q op r where
  enter _ op := by cases op <;> trivial
  closedLocally _ op := .closedLocally op _
  place_mono _ h := h
  result_mono _ h := h
  body := by
    intro log op l v ans v' beat hb hans hl
    cases bodyMove_of_body hb with
    | seesEof op ht hv => exact .ended op ht
    | tests op ht =>
        rcases afterTest_cases op with heq | ⟨limit, rfl, heq⟩ | ⟨n, rfl, hn, heq⟩
        · rw [heq]
          trivial
        · rw [heq]
          exact .bytes _ []
        · rw [heq]
          exact .overflow n _ hn
    | endReads n limit buf data => exact .bytes _ data
    | endFails n limit buf l e hn hlimit =>
        cases e with
        | tooLong =>
            subst hlimit
            exact .tooLong n limit hn
        | readError e => exact .readFailed _ log _ e (by simp) (hans _ rfl) rfl
    | chunkReads op buf data => exact .bytes op data
    | chunkEnds op buf max hop =>
        refine .ended op ?_
        rcases hop with ⟨n, limit, rfl, -⟩ | ⟨rfl, -⟩ <;> rfl
    | chunkFails op buf max e hop =>
        refine .readFailed op log _ e ?_ (hans _ rfl) rfl
        rcases hop with ⟨n, limit, rfl, -⟩ | ⟨rfl, -⟩ <;> simp
    | exactFull n buf => exact .bytes _ buf
    | exactEnds n buf hroom => exact .incomplete n buf hroom
    | exactFails n buf e => exact .readFailed _ log _ e (by simp) (hans _ rfl) rfl
    | waitEnds buf code => exact .waitEnded log code (hans _ rfl)
    | waitFails buf e => exact .waitFailed log e (hans _ rfl)
    | storesEof op r => exact hl
    | _ => trivial

theorem origin_of_result {w : World} {i : ℕ} {op : Op} {r : Ret}
    (h : Reachable ((half errorFromHttp3).Step Q) new w)
    (hi : w.tasks[i]? = some (.call op (.done r))) :
    Origin errorFromHttp3 Q op r :=
  keeps_origin.result h hi

end Origin

end WebTransport.RecvStream
