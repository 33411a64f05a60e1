import ApiServer.Bridge

/-!
# The request pump

`Server.Run` reads one envelope at a time. A Request is answered through `handleRequest`
with a Response or an Error; anything else, or a failed read or write, ends `Run` with the
error. Each Request's pass of the loop also defers a call that recovers a panic and sends an
Error for that request. Go runs deferred calls when `Run` returns, not when the pass ends, so
they pile up, and on a panic they run newest first (`unwind`): the newest one recovers and
`Run` then returns nil.
-/

namespace ApiServer

/-! ## Handling one request -/

/-- `Server.enableCallback`. -/
def enableCallback (callback : Bytes) : EStateM ApiError Callback Unit := fun enabledCallbacks =>
  match callbackOfName callback with
  | some bit => .ok () (enabledCallbacks ||| bit)
  | none => .error (.unknownCallback callback) enabledCallbacks

/-- What Go's runtime panics with when `handleConfigure` reads the fields of a nil
`params`. -/
def nilDereference : Bytes := utf8 "runtime error: invalid memory address or nil pointer dereference"

/-- `Server.handleConfigure`, over the enabled callbacks. Decoding `null` leaves `params`
nil; both branches on `LogFile` are empty in the source. -/
def handleConfigure (h : Host) (payload : Bytes) (enabledCallbacks : Callback) :
    Outcome (Except ApiError Unit) × Callback :=
  match unmarshalPtr h.json h.json.configureParams payload with
  | .error e => (.done (.error (.invalidRequest (.configure (h.errorText e)))), enabledCallbacks)
  | .ok none => (.panicked nilDereference, enabledCallbacks)
  | .ok (some params) =>
    match params.callbacks.forM enableCallback enabledCallbacks with
    | .ok _ enabled => (.done (.ok ()), enabled)
    | .error e enabled => (.done (.error e), enabled)

/-- `Server.handleRequest`. -/
def handleRequest (h : Host) (method payload : Bytes) (s : Server) :
    Outcome (Except ApiError Bytes) × Server :=
  let s := { s with requestId := s.requestId + 1 }
  if method = utf8 "configure" then
    match handleConfigure h payload s.enabledCallbacks with
    | (.done r, enabledCallbacks) => (.done (r.map fun _ => []), { s with enabledCallbacks })
    | (.panicked v, enabledCallbacks) => (.panicked v, { s with enabledCallbacks })
  else if method = utf8 "echo" then (.done (.ok payload), s)
  else (h.api s.enabledCallbacks s.requestId method payload).exec s

def sendResponse (method result : Bytes) : Writer Unit :=
  writeMessage messageTypeResponse method result

/-- `Server.sendError`, given the text of the error. -/
def sendError (method text : Bytes) : Writer Unit :=
  writeMessage messageTypeError method text

/-! ## The loop -/

/-- The text of `fmt.Errorf("panic handling request: %v\n%s", r, string(stack))`. -/
def panicText (v stack : Bytes) : Bytes :=
  utf8 "panic handling request: " ++ v ++ utf8 "\n" ++ stack

/-- How `Server.Run` ends: it returns an error or nil, or a panic escapes it. -/
inductive RunResult where
  | returned (err : Option ApiError)
  | crashed (v : Bytes)

/-- `Run`'s deferred calls while `v` is panicking, newest first, each holding the method of
its own request. The first recovers `v` and sends an Error; the rest then find no panic. If
the send fails it panics again, and the next one recovers that. -/
def unwind (h : Host) : List Bytes → Bytes → Server → RunResult × Server
  | [], v, s => (.crashed v, s)
  | method :: deferred, v, s =>
    match Server.write (sendError method (panicText v h.stack)) s with
    | .ok _ s => (.returned none, s)
    | .error _ s => unwind h deferred (utf8 "fatal error sending panic response") s

/-- Where one pass of `Run`'s loop leads: round again, with the deferred calls so far, or
out of `Run`. -/
inductive Step where
  | next (deferred : List Bytes)
  | stop (result : RunResult)

/-- One pass of `Run`'s loop. -/
def runStep (h : Host) (deferred : List Bytes) (s : Server) : Step × Server :=
  match Server.read (readRequest []) s with
  | .error e s => (.stop (.returned (some e)), s)
  | .ok env s =>
    if env.messageType = messageTypeRequest then
      match handleRequest h env.method env.payload s with
      | (.panicked v, s) =>
        let (result, s) := unwind h (env.method :: deferred) v s
        (.stop result, s)
      | (.done (.error e), s) =>
        match Server.write (sendError env.method (h.errorText e)) s with
        | .ok _ s => (.next (env.method :: deferred), s)
        | .error e s => (.stop (.returned (some e)), s)
      | (.done (.ok result), s) =>
        match Server.write (sendResponse env.method result) s with
        | .ok _ s => (.next (env.method :: deferred), s)
        | .error e s => (.stop (.returned (some e)), s)
    else (.stop (.returned (some (.invalidRequest (.notRequest env.messageType)))), s)

/-- `Server.Run`, for at most `fuel` passes of its loop; `none` when they run out. -/
def run (h : Host) : Nat → List Bytes → Server → Option (RunResult × Server)
  | 0, _, _ => none
  | fuel + 1, deferred, s =>
    match runStep h deferred s with
    | (.next deferred, s) => run h fuel deferred s
    | (.stop result, s) => some (result, s)

end ApiServer
