import Mathlib.Data.List.Basic
import Mathlib.Data.UInt

/-!
# Errors and the exceptions they become

The error values that reach the bindings from the transport, and the Python
exceptions that they are mapped to, with the attributes and the messages that
the exceptions carry.  The text of an error that the bindings only print is
kept as the printed text.  The table that takes an HTTP/3 code back to a
WebTransport code belongs to the transport and is a parameter.
-/

namespace WebTransport

/-! ## Python exceptions -/

/-- The exceptions raised to Python, with their messages and attributes. -/
inductive PyErr
  | sessionError (msg : String)
  | connectError (msg : String)
  | sessionRejected (msg : String) (statusCode : UInt16)
  | sessionClosedByPeer (msg source : String) (code : Option UInt64)
      (reason : String)
  | sessionClosedLocally (msg : String)
  | sessionTimeout (msg : String)
  | protocolError (msg : String)
  | streamClosedByPeer (msg kind : String) (code : UInt32)
  | streamClosedLocally (msg : String)
  | streamTooLongError (msg : String) (limit : UInt64)
  | streamIncompleteReadError (msg : String) (expected : UInt64)
      (partialBytes : List UInt8)
  | datagramTooLargeError (msg : String)
  | datagramNotSupportedError (msg reason : String)
  | valueError (msg : String)
  | stopAsyncIteration
  /-- The `RustPanic` of `pyo3_async_runtimes`, which the awaitable of a future that
  has panicked raises. -/
  | rustPanic (msg : String)
  deriving DecidableEq, Repr

def newSessionClosedByPeer (source : String) (code : Option UInt64)
    (reason : String) : PyErr :=
  let codeStr := match code with
    | some c => s!" (code {c})"
    | none => ""
  let msg :=
    if source = "session" then s!"peer closed session{codeStr}: {reason}"
    else if source = "application" then
      s!"peer application closed session{codeStr}: {reason}"
    else if source = "transport" then s!"transport closed{codeStr}: {reason}"
    else if source = "connection-reset" then "peer sent stateless reset"
    else s!"session closed by peer{codeStr}: {reason}"
  .sessionClosedByPeer msg source code reason

def newStreamClosedByPeer (kind : String) (code : UInt32) : PyErr :=
  .streamClosedByPeer s!"stream {kind} by peer with code {code}" kind code

def newStreamIncompleteReadError (expected : UInt64)
    (partialBytes : List UInt8) : PyErr :=
  let got := partialBytes.length
  .streamIncompleteReadError s!"expected {expected} bytes, got {got} before EOF"
    expected partialBytes

def newSessionRejected (statusCode : UInt16) (msg : String) : PyErr :=
  .sessionRejected msg statusCode

def newDatagramNotSupportedError (reason : String) : PyErr :=
  .datagramNotSupportedError s!"datagrams not available: {reason}" reason

/-! ## Lossy decoding of a close reason -/

/-- The length of the sequence that a leading byte announces, or `0`. -/
def utf8CharWidth (b : UInt8) : Nat :=
  if b < 0x80 then 1
  else if 0xC2 ≤ b ∧ b ≤ 0xDF then 2
  else if 0xE0 ≤ b ∧ b ≤ 0xEF then 3
  else if 0xF0 ≤ b ∧ b ≤ 0xF4 then 4
  else 0

def isContinuation (b : UInt8) : Bool :=
  0x80 ≤ b ∧ b ≤ 0xBF

/-- The second bytes that a three- or four-byte sequence may have. -/
def isSecondByte (first b : UInt8) : Bool :=
  if first = 0xE0 then 0xA0 ≤ b ∧ b ≤ 0xBF
  else if first = 0xED then 0x80 ≤ b ∧ b ≤ 0x9F
  else if first = 0xF0 then 0x90 ≤ b ∧ b ≤ 0xBF
  else if first = 0xF4 then 0x80 ≤ b ∧ b ≤ 0x8F
  else isContinuation b

def low (b : UInt8) (bits : Nat) : Nat :=
  b.toNat % 2 ^ bits

/-- Decode UTF-8 and put one replacement character in the place of every
longest run of bytes that cannot be continued to a valid sequence. -/
def utf8LossyChars : List UInt8 → List Char
  | [] => []
  | b :: rest =>
      match utf8CharWidth b, rest with
      | 1, rest => Char.ofNat b.toNat :: utf8LossyChars rest
      | 2, c :: rest' =>
          if isContinuation c then
            Char.ofNat (low b 5 * 64 + low c 6) :: utf8LossyChars rest'
          else '\uFFFD' :: utf8LossyChars (c :: rest')
      | 3, c :: rest' =>
          if isSecondByte b c then
            match rest' with
            | d :: rest'' =>
                if isContinuation d then
                  Char.ofNat (low b 4 * 4096 + low c 6 * 64 + low d 6) ::
                    utf8LossyChars rest''
                else '\uFFFD' :: utf8LossyChars (d :: rest'')
            | [] => ['\uFFFD']
          else '\uFFFD' :: utf8LossyChars (c :: rest')
      | 4, c :: rest' =>
          if isSecondByte b c then
            match rest' with
            | d :: rest'' =>
                if isContinuation d then
                  match rest'' with
                  | e :: rest''' =>
                      if isContinuation e then
                        Char.ofNat (low b 3 * 262144 + low c 6 * 4096 +
                          low d 6 * 64 + low e 6) :: utf8LossyChars rest'''
                      else '\uFFFD' :: utf8LossyChars (e :: rest''')
                  | [] => ['\uFFFD']
                else '\uFFFD' :: utf8LossyChars (d :: rest'')
            | [] => ['\uFFFD']
          else '\uFFFD' :: utf8LossyChars (c :: rest')
      | _, rest => '\uFFFD' :: utf8LossyChars rest

/-- `String::from_utf8_lossy`. -/
def fromUtf8Lossy (bytes : List UInt8) : String :=
  String.ofList (utf8LossyChars bytes)

example : utf8LossyChars [0x6F, 0xE2, 0x82, 0x6B, 0xC3, 0xBC] =
    ['o', '\uFFFD', 'k', 'ü'] := by decide

/-! ## Error values of the transport -/

/-- `quinn::ConnectionError`. -/
inductive ConnectionError
  | timedOut
  | locallyClosed
  | applicationClosed (errorCode : UInt64) (reason : List UInt8)
  | connectionClosed (errorCode : UInt64) (reason : List UInt8)
  | reset
  | transportError (display : String)
  | versionMismatch
  | cidsExhausted
  deriving DecidableEq, Repr

/-- `quinn::SendDatagramError`. -/
inductive SendDatagramError
  | unsupportedByPeer
  | disabled
  | tooLarge
  | connectionLost (err : ConnectionError)
  deriving DecidableEq, Repr

/-- `web_transport_quinn::WebTransportError`: the case that the bindings tell
apart, and every other case with its text. -/
inductive WebTransportError
  | closed (code : UInt32) (reason : String)
  | other (display : String)
  deriving DecidableEq, Repr

/-- `web_transport_quinn::SessionError`. -/
inductive SessionError
  | connectionError (err : ConnectionError)
  | webTransportError (err : WebTransportError)
  | sendDatagramError (err : SendDatagramError)
  deriving DecidableEq, Repr

/-- `web_transport_quinn::WriteError`. -/
inductive WriteError
  | stopped (code : UInt32)
  | invalidStopped (code : UInt64)
  | sessionError (err : SessionError)
  | closedStream
  deriving DecidableEq, Repr

/-- `web_transport_quinn::ReadError`. -/
inductive ReadError
  | reset (code : UInt32)
  | invalidReset (code : UInt64)
  | sessionError (err : SessionError)
  | closedStream
  | illegalOrderedRead
  deriving DecidableEq, Repr

/-- `web_transport_quinn::ReadToEndError`. -/
inductive ReadToEndError
  | tooLong
  | readError (err : ReadError)
  deriving DecidableEq, Repr

/-- `web_transport_quinn::ReadExactError`. -/
inductive ReadExactError
  | finishedEarly (bytesRead : Nat)
  | readError (err : ReadError)
  deriving DecidableEq, Repr

/-- `web_transport_quinn::ClientError`: an HTTP answer with another status than
the expected one, and every other case with its text. -/
inductive ClientError
  | wrongStatus (status : Option UInt16) (display : String)
  | other (display : String)
  deriving DecidableEq, Repr

/-- `web_transport_quinn::ServerError`. -/
inductive ServerError
  | connection (err : ConnectionError)
  | unexpectedEnd (display : String)
  | writeError (display : String)
  | readError (display : String)
  | settingsError (display : String)
  | connectError (display : String)
  | ioError (display : String)
  | rustls (display : String)
  deriving DecidableEq, Repr

/-! ## Mapping errors to exceptions -/

/-- `web_transport_proto::error_from_http3`, which is not part of the
bindings. -/
abbrev ErrorFromHttp3 := UInt64 → Option UInt32

abbrev noCodes : ErrorFromHttp3 := fun _ => none

section Mapping

variable (errorFromHttp3 : ErrorFromHttp3)

def mapConnectionError : ConnectionError → PyErr
  | .timedOut => .sessionTimeout "session timed out"
  | .locallyClosed => .sessionClosedLocally "session closed locally"
  | .applicationClosed errorCode reason =>
      newSessionClosedByPeer "application"
        ((errorFromHttp3 errorCode).map UInt32.toUInt64) (fromUtf8Lossy reason)
  | .connectionClosed errorCode reason =>
      newSessionClosedByPeer "transport" (some errorCode) (fromUtf8Lossy reason)
  | .reset => newSessionClosedByPeer "connection-reset" none ""
  | .transportError display => .protocolError display
  | .versionMismatch => .protocolError "QUIC version mismatch"
  | .cidsExhausted => .protocolError "connection IDs exhausted"

def mapSendDatagramError : SendDatagramError → PyErr
  | .unsupportedByPeer => newDatagramNotSupportedError "unsupported_by_peer"
  | .disabled => newDatagramNotSupportedError "disabled_locally"
  | .tooLarge => .datagramTooLargeError "datagram too large"
  | .connectionLost err => mapConnectionError errorFromHttp3 err

def mapSessionError : SessionError → PyErr
  | .connectionError err => mapConnectionError errorFromHttp3 err
  | .webTransportError (.closed code reason) =>
      newSessionClosedByPeer "session" (some code.toUInt64) reason
  | .webTransportError (.other display) => .protocolError display
  | .sendDatagramError err => mapSendDatagramError errorFromHttp3 err

def mapWriteError : WriteError → PyErr
  | .stopped code => newStreamClosedByPeer "stop" code
  | .invalidStopped _ =>
      .protocolError "peer sent STOP_SENDING with invalid error code"
  | .sessionError err => mapSessionError errorFromHttp3 err
  -- a local `finish()` or `reset()` came first
  | .closedStream => .streamClosedLocally "stream already closed"

def mapReadError : ReadError → PyErr
  | .reset code => newStreamClosedByPeer "reset" code
  | .invalidReset _ =>
      .protocolError "peer sent RESET_STREAM with invalid error code"
  | .sessionError err => mapSessionError errorFromHttp3 err
  -- a local `stop()` came first
  | .closedStream => .streamClosedLocally "stream already closed"
  | .illegalOrderedRead =>
      .protocolError "illegal ordered read on unordered stream"

def mapReadToEndError (err : ReadToEndError) (limit : UInt64) : PyErr :=
  match err with
  | .tooLong =>
      .streamTooLongError s!"stream data exceeded {limit} byte limit" limit
  | .readError err => mapReadError errorFromHttp3 err

def mapReadExactError (err : ReadExactError) (expected : UInt64)
    (buf : List UInt8) : PyErr :=
  match err with
  | .finishedEarly bytesRead =>
      -- `&buf[..bytes_read]`
      if bytesRead ≤ buf.length then
        newStreamIncompleteReadError expected (buf.take bytesRead)
      else .rustPanic (s!"rust future panicked: range end index {bytesRead} " ++
        s!"out of range for slice of length {buf.length}")
  | .readError err => mapReadError errorFromHttp3 err

def mapServerError : ServerError → PyErr
  | .connection err => mapConnectionError errorFromHttp3 err
  | .unexpectedEnd display
  | .writeError display
  | .readError display
  | .settingsError display
  | .connectError display
  | .ioError display
  | .rustls display => .sessionError display

end Mapping

def mapClientError : ClientError → PyErr
  | .wrongStatus (some status) display => newSessionRejected status display
  | .wrongStatus none display
  | .other display => .connectError display

end WebTransport
