import Mathlib.Data.List.Basic
import Mathlib.Algebra.Group.Nat.Basic

/-!
# The envelope wire format

The API server of `internal/api` talks to its one client over a byte stream. A message is a
msgpack fixed array of three elements: an unsigned 8-bit message type, then the method and
the payload as msgpack binary strings. `readRequest` and `readBin` decode one message,
`writeMessage` and `writeBin` encode one.

Go's `string` and `[]byte` are both `Bytes`. A reader runs on the bytes not yet taken from the
`bufio.Reader` and leaves what it did not consume, also when it fails; a writer appends to a
`Sink`, the bytes handed to the `bufio.Writer` with how many more the transport takes.
-/

namespace ApiServer

abbrev Bytes := List UInt8

/-- The bytes of a Go string literal. -/
def utf8 (s : String) : Bytes := s.toUTF8.data.toList

/-! ## Message types and msgpack markers -/

abbrev MessageType := UInt8

def messageTypeUnknown : MessageType := 0
def messageTypeRequest : MessageType := 1
def messageTypeCallResponse : MessageType := 2
def messageTypeCallError : MessageType := 3
def messageTypeResponse : MessageType := 4
def messageTypeError : MessageType := 5
def messageTypeCall : MessageType := 6

def MessageType.isValid (m : MessageType) : Bool :=
  messageTypeRequest ≤ m && m ≤ messageTypeCall

def messagePackTypeFixedArray3 : UInt8 := 0x93
def messagePackTypeBin8 : UInt8 := 0xC4
def messagePackTypeBin16 : UInt8 := 0xC5
def messagePackTypeBin32 : UInt8 := 0xC6
def messagePackTypeU8 : UInt8 := 0xCC

structure Envelope where
  messageType : MessageType
  method : Bytes
  payload : Bytes
  deriving DecidableEq, Repr

/-! ## Errors -/

/-- What the transport reader returns when the input ends: `io.EOF` before the first byte of a
read, `io.ErrUnexpectedEOF` inside a fixed-size one. -/
inductive ReadError
  | eof
  | unexpectedEOF
  deriving DecidableEq, Repr

/-- The places that wrap `ErrInvalidRequest`, with the values their format strings print. -/
inductive InvalidRequest
  | notFixedArray3 (received : UInt8)
  | notU8 (received : UInt8)
  | unknownMessageType (received : MessageType)
  | methodMismatch (expected received : Bytes)
  | notBin (received : UInt8)
  | shortRead (size read : Nat)
  | notRequest (received : MessageType)
  | notCallReply (received : MessageType)
  | configure (detail : Bytes)
  deriving DecidableEq, Repr

/-- Go `error` values met on the server's paths. `json` is an error of the JSON codec or of
`packagejson.Parse`, `api` one returned by the API layer's `HandleRequest`. -/
inductive ApiError
  | read (e : ReadError)
  | write
  | invalidRequest (e : InvalidRequest)
  | clientError (payload : Bytes)
  | unknownCallback (callback : Bytes)
  | json (detail : Bytes)
  | api (detail : Bytes)
  deriving DecidableEq, Repr

/-- `errors.Is(err, ErrInvalidRequest)`. -/
def ApiError.isInvalidRequest : ApiError → Bool
  | .invalidRequest _ => true
  | _ => false

def ApiError.isReadError : ApiError → Bool
  | .read _ => true
  | _ => false

/-! ## Streams -/

/-- The output: bytes written so far, and how many more the transport takes (`none`: no
limit). Buffering in `bufio.Writer` changes when a failure is seen, not which bytes get out. -/
structure Sink where
  out : Bytes
  room : Option Nat
  deriving DecidableEq, Repr

abbrev Reader := EStateM ApiError Bytes
abbrev Writer := EStateM ApiError Sink

/-- `ReadByte`. -/
def readByte : Reader UInt8 := fun
  | [] => .error (.read .eof) []
  | b :: r => .ok b r

/-- `io.ReadFull` of `n` bytes. -/
def readFull (n : Nat) : Reader Bytes := fun r =>
  if n ≤ r.length then .ok (r.take n) (r.drop n)
  else .error (.read (if r = [] then .eof else .unexpectedEOF)) []

/-- Hand bytes to the writer; past the transport's room the write fails. -/
def put (bs : Bytes) : Writer Unit := fun w =>
  match w.room with
  | none => .ok () { w with out := w.out ++ bs }
  | some n =>
    if bs.length ≤ n then .ok () ⟨w.out ++ bs, some (n - bs.length)⟩
    else .error .write ⟨w.out ++ bs.take n, some 0⟩

/-- `if cond { return ..., err }`. -/
def failIf {σ : Type} (cond : Prop) [Decidable cond] (err : ApiError) : EStateM ApiError σ Unit :=
  if cond then throw err else pure ()

/-- `Flush`: every byte was already handed on by `put`. -/
def flush : Writer Unit := pure ()

/-- `binary.BigEndian` over `width` bytes; the value is cut to the width as Go's
`uint16(length)` and `uint32(length)` do. -/
def bigEndian : Nat → Nat → Bytes
  | 0, _ => []
  | w + 1, x => bigEndian w (x / 256) ++ [UInt8.ofNat x]

def ofBigEndian (bs : Bytes) : Nat := bs.foldl (fun acc b => acc * 256 + b.toNat) 0

/-! ## Decoding -/

/-- `binary.Read` of a big-endian length of `width` bytes. -/
def readSize (width : Nat) : Reader Nat := do
  let bs ← readFull width
  pure (ofBigEndian bs)

/-- The `switch` of `readBin` on the tag byte: the length that follows it. -/
def readBinSize (t : UInt8) : Reader Nat :=
  if t = messagePackTypeBin8 then readSize 1
  else if t = messagePackTypeBin16 then readSize 2
  else if t = messagePackTypeBin32 then readSize 4
  else throw (.invalidRequest (.notBin t))

def readBin : Reader Bytes := do
  let t ← readByte
  let size ← readBinSize t
  let payload ← readFull size
  failIf (payload.length ≠ size) (.invalidRequest (.shortRead size payload.length))
  pure payload

def readRequest (expectedMethod : Bytes) : Reader Envelope := do
  let t ← readByte
  failIf (t ≠ messagePackTypeFixedArray3) (.invalidRequest (.notFixedArray3 t))
  let t ← readByte
  failIf (t ≠ messagePackTypeU8) (.invalidRequest (.notU8 t))
  let messageType : MessageType ← readByte
  failIf (!MessageType.isValid messageType) (.invalidRequest (.unknownMessageType messageType))
  let method ← readBin
  failIf (expectedMethod ≠ [] ∧ method ≠ expectedMethod)
    (.invalidRequest (.methodMismatch expectedMethod method))
  let payload ← readBin
  pure ⟨messageType, method, payload⟩

/-! ## Encoding -/

def writeBin (payload : Bytes) : Writer Unit := do
  let length := payload.length
  if length < 256 then
    put [messagePackTypeBin8]
    put [UInt8.ofNat length]
  else if length < 2 ^ 16 then
    put [messagePackTypeBin16]
    put (bigEndian 2 length)
  else
    put [messagePackTypeBin32]
    put (bigEndian 4 length)
  put payload

def writeMessage (messageType : MessageType) (method payload : Bytes) : Writer Unit := do
  put [messagePackTypeFixedArray3]
  put [messagePackTypeU8]
  put [messageType]
  writeBin method
  writeBin payload
  flush

/-- The bytes `writeBin` writes: the narrowest length tag, the length, the bytes. -/
def encodeBin (payload : Bytes) : Bytes :=
  if payload.length < 256 then messagePackTypeBin8 :: bigEndian 1 payload.length ++ payload
  else if payload.length < 2 ^ 16 then messagePackTypeBin16 :: bigEndian 2 payload.length ++ payload
  else messagePackTypeBin32 :: bigEndian 4 payload.length ++ payload

def encodeMessage (e : Envelope) : Bytes :=
  [messagePackTypeFixedArray3, messagePackTypeU8, e.messageType] ++ encodeBin e.method ++
    encodeBin e.payload

end ApiServer
