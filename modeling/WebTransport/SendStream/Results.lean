import WebTransport.SendStream.Model
import WebTransport.Wrapper.Results

/-!
# Where a result of the send half comes from

Every result that Python gets is the answer of one call on the QUIC stream, or
one of the exceptions for a stream that was closed locally.
-/

namespace WebTransport.SendStream

open Support Wrapper

/-- Where a result comes from, on a QUIC stream that answers as `Q` allows. -/
inductive Origin (errorFromHttp3 : ErrorFromHttp3) (Q : Answers Event) :
    Op → Ret → Prop
  | closedLocally (op : Op) (msg : String) :
      Origin errorFromHttp3 Q op (.error (.streamClosedLocally msg))
  | written (data : List UInt8) : Origin errorFromHttp3 Q (.write data) (.ok .none)
  | accepted (data : List UInt8) (n : ℕ) :
      Origin errorFromHttp3 Q (.writeSome data) (.ok (.count n))
  | writeFailed (op : Op) (log : List Event) (data rest : List UInt8)
      (e : WriteError) (hop : op = .write data ∨ op = .writeSome data)
      (hQ : Q log (.write rest (.ready (.error e)))) :
      Origin errorFromHttp3 Q op (.error (mapWriteError errorFromHttp3 e))
  | finished : Origin errorFromHttp3 Q .finish (.ok .none)
  | waitEnded (log : List Event) (code : Option UInt32)
      (hQ : Q log (.stopped (.ready (.ok code)))) :
      Origin errorFromHttp3 Q .waitClosed (.ok (.code code))
  | waitFailed (log : List Event) (e : SessionError)
      (hQ : Q log (.stopped (.ready (.error e)))) :
      Origin errorFromHttp3 Q .waitClosed
        (.error (mapSessionError errorFromHttp3 e))

section Origin

variable {errorFromHttp3 : ErrorFromHttp3} {Q : Answers Event}

theorem keeps_origin : (half errorFromHttp3).Keeps Q (fun _ _ _ => True)
    fun _ op r => Origin errorFromHttp3 Q op r where
  enter _ _ := trivial
  closedLocally _ op := .closedLocally op _
  place_mono _ _ := trivial
  result_mono _ h := h
  body := by
    intro log op l v ans v' beat hb hans _
    cases bodyMove_of_body hb with
    | writeEnds data => exact .written data
    | writeFails data sent e hne =>
        exact .writeFailed _ log data _ e (Or.inl rfl) (hans _ rfl)
    | someAccepts data sent n => exact .accepted data n
    | someFails data sent e =>
        exact .writeFailed _ log data _ e (Or.inr rfl) (hans _ rfl)
    | finishes => exact .finished
    | finishRefused => exact .closedLocally .finish _
    | waitEnds sent code => exact .waitEnded log code (hans _ rfl)
    | waitFails sent e => exact .waitFailed log e (hans _ rfl)
    | _ => trivial

theorem origin_of_result {priority : Int32} {w : World} {i : ℕ} {op : Op} {r : Ret}
    (h : Reachable ((half errorFromHttp3).Step Q) (new priority) w)
    (hi : w.tasks[i]? = some (.call op (.done r))) :
    Origin errorFromHttp3 Q op r :=
  keeps_origin.result h hi

end Origin

end WebTransport.SendStream
