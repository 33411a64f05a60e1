import ApiServer.WireSound

/-!
# The server, nested calls and the host bridge

A request's handler may call back into the client mid-request (`Server.call`). What a handler
can do to the connection is a `Prog`: a call with what to do with its reply, or a panic.
`Prog.exec` runs one against the server. The bridge is the nine host operations the server
and its `resolverWrapper` answer by asking the client when the client enabled the callback,
and otherwise from the local file system or resolver.

The JSON codec and the types of the `vfs`, `module` and `packagejson` packages are outside
these files: `Host` carries them. JSON `null` is the one part of decoding modelled here, as
Go's `encoding/json` treats it: it leaves a pointer nil and any other value at its zero value.
-/

namespace ApiServer

/-! ## Callbacks -/

/-- `Callback`, a set of bits in an `int`. -/
abbrev Callback := Nat

def callbackDirectoryExists : Callback := 1 <<< 0
def callbackFileExists : Callback := 1 <<< 1
def callbackGetAccessibleEntries : Callback := 1 <<< 2
def callbackReadFile : Callback := 1 <<< 3
def callbackRealpath : Callback := 1 <<< 4
def callbackResolveModuleName : Callback := 1 <<< 5
def callbackResolveTypeReferenceDirective : Callback := 1 <<< 6
def callbackGetPackageJsonScopeIfApplicable : Callback := 1 <<< 7
def callbackGetPackageScopeForPath : Callback := 1 <<< 8

/-- The cases of `enableCallback`'s `switch`. -/
def callbackNames : List (String × Callback) :=
  [("directoryExists", callbackDirectoryExists), ("fileExists", callbackFileExists),
    ("getAccessibleEntries", callbackGetAccessibleEntries), ("readFile", callbackReadFile),
    ("realpath", callbackRealpath), ("resolveModuleName", callbackResolveModuleName),
    ("resolveTypeReferenceDirective", callbackResolveTypeReferenceDirective),
    ("getPackageJsonScopeIfApplicable", callbackGetPackageJsonScopeIfApplicable),
    ("getPackageScopeForPath", callbackGetPackageScopeForPath)]

def callbackOfName (callback : Bytes) : Option Callback :=
  (callbackNames.find? fun c => utf8 c.1 == callback).map Prod.snd

/-- `Server.CallbackEnabled`. -/
def callbackEnabled (enabledCallbacks callback : Callback) : Bool :=
  enabledCallbacks &&& callback != 0

/-! ## The server -/

/-- The fields of `Server` that change while it runs. -/
structure Server where
  r : Bytes
  w : Sink
  enabledCallbacks : Callback
  requestId : Nat

abbrev ServerM := EStateM ApiError Server

/-- A read on the server's `bufio.Reader`. -/
def Server.read {α : Type} (x : Reader α) : ServerM α := fun s =>
  match x s.r with
  | .ok a r => .ok a { s with r }
  | .error e r => .error e { s with r }

/-- A write on the server's `bufio.Writer`. -/
def Server.write {α : Type} (x : Writer α) : ServerM α := fun s =>
  match x s.w with
  | .ok a w => .ok a { s with w }
  | .error e w => .error e { s with w }

/-- `Server.call`. Its caller has run `json.Marshal` on the payload and passes the result;
the lock on `callbackMu` is modelled in `ApiServer.Mutex`. -/
def Server.call (method : Bytes) (payload : Except ApiError Bytes) : ServerM Bytes := do
  let jsonPayload ← liftExcept payload
  Server.write (writeMessage messageTypeCall method jsonPayload)
  let env ← Server.read (readRequest method)
  failIf (env.messageType ≠ messageTypeCallResponse ∧ env.messageType ≠ messageTypeCallError)
    (.invalidRequest (.notCallReply env.messageType))
  failIf (env.messageType = messageTypeCallError) (.clientError env.payload)
  pure env.payload

/-! ## Handler programs -/

/-- What code running for a request can do to the connection: return, call the client and go
on with the reply, or panic with a value (as `%v` prints it). -/
inductive Prog (α : Type) where
  | pure (a : α)
  | call (method : Bytes) (payload : Except ApiError Bytes) (k : Except ApiError Bytes → Prog α)
  | panic (v : Bytes)

def Prog.bind {α β : Type} : Prog α → (α → Prog β) → Prog β
  | .pure a, f => f a
  | .call m p k, f => .call m p fun r => (k r).bind f
  | .panic v, _ => .panic v

instance : Monad Prog where
  pure := .pure
  bind := Prog.bind

inductive Outcome (α : Type) where
  | done (a : α)
  | panicked (v : Bytes)

def Prog.exec {α : Type} : Prog α → Server → Outcome α × Server
  | .pure a, s => (.done a, s)
  | .panic v, s => (.panicked v, s)
  | .call m p k, s =>
    match Server.call m p s with
    | .ok r s' => (k (.ok r)).exec s'
    | .error e s' => (k (.error e)).exec s'

/-! ## Collaborators -/

inductive JsonValue where
  | null
  | bool (b : Bool)
  | number (text : Bytes)
  | string (s : Bytes)
  | array (items : List JsonValue)
  | object (members : List (Bytes × JsonValue))

/-- `vfs.Entries`. -/
structure Entries where
  files : List Bytes
  directories : List Bytes

/-- `PackageJsonIfApplicable`. -/
structure PackageJsonIfApplicable where
  packageDirectory : Bytes
  directoryExists : Bool
  contents : Bytes

/-- `packagejson.PackageJson`; its fields are what `packagejson.Parse` made of the text. -/
structure PackageJson where
  fields : JsonValue

/-- `packagejson.InfoCacheEntry`. -/
structure InfoCacheEntry where
  packageDirectory : Bytes
  directoryExists : Bool
  contents : Option PackageJson

/-- `module.ResolvedModule`. These files never read its fields; it is kept as the members it
was decoded from, none in its zero value. -/
structure ResolvedModule where
  members : List (Bytes × JsonValue)

/-- `module.ResolvedTypeReferenceDirective`, kept as `ResolvedModule` is. -/
structure ResolvedTypeReferenceDirective where
  members : List (Bytes × JsonValue)

/-- `core.ResolutionMode`. -/
abbrev ResolutionMode := Int

/-- A `module.ResolvedProjectReference`, which the wrapper only passes on; `none` is nil. -/
abbrev ResolvedProjectReference := Option Nat

/-- The values the bridge hands to `json.Marshal`. -/
inductive CallArgs where
  | path (path : Bytes)
  | moduleName (moduleName containingFile : Bytes) (resolutionMode : ResolutionMode)
      (redirectedReference : ResolvedProjectReference)
  | typeReferenceDirective (typeReferenceDirectiveName containingFile : Bytes)
      (resolutionMode : ResolutionMode) (redirectedReference : ResolvedProjectReference)

/-- The local file system, `s.fs`. -/
structure LocalFS where
  directoryExists : Bytes → Bool
  fileExists : Bytes → Bool
  getAccessibleEntries : Bytes → Entries
  readFile : Bytes → Bytes × Bool
  realpath : Bytes → Bytes

/-- The wrapped `module.ResolverInterface`, `r.inner`. -/
structure Resolver where
  getPackageJsonScopeIfApplicable : Bytes → Option InfoCacheEntry
  getPackageScopeForPath : Bytes → Option InfoCacheEntry
  resolveModuleName : Bytes → Bytes → ResolutionMode → ResolvedProjectReference →
    Option ResolvedModule × List Bytes
  resolveTypeReferenceDirective : Bytes → Bytes → ResolutionMode → ResolvedProjectReference →
    Option ResolvedTypeReferenceDirective × List Bytes

/-- `ConfigureParams`. -/
structure ConfigureParams where
  callbacks : List Bytes
  logFile : Bytes

/-- The JSON codec: `json.Marshal`, the text of `json.Unmarshal`, and how a non-null value
fills each Go type. -/
structure JsonCodec where
  marshal : CallArgs → Except ApiError Bytes
  parse : Bytes → Except ApiError JsonValue
  string : JsonValue → Except ApiError Bytes
  entries : JsonValue → Except ApiError Entries
  packageJsonIfApplicable : JsonValue → Except ApiError PackageJsonIfApplicable
  infoCacheEntry : JsonValue → Except ApiError InfoCacheEntry
  resolvedModule : JsonValue → Except ApiError ResolvedModule
  resolvedTypeReferenceDirective : JsonValue → Except ApiError ResolvedTypeReferenceDirective
  configureParams : JsonValue → Except ApiError ConfigureParams

/-- What the server runs against: the local file system and resolver, the JSON codec,
`packagejson.Parse`, the text `Error()` gives for each error, what `debug.Stack()` returns,
and `API.HandleRequest`, which sees the enabled callbacks through the bridge and the request
id through its context. -/
structure Host where
  fs : LocalFS
  inner : Resolver
  json : JsonCodec
  parsePackageJson : Bytes → Except ApiError JsonValue
  errorText : ApiError → Bytes
  stack : Bytes
  api : Callback → Nat → Bytes → Bytes → Prog (Except ApiError Bytes)

/-- `json.Unmarshal` into a value of a type with zero value `zero`. -/
def unmarshalValue {α : Type} (j : JsonCodec) (zero : α) (decode : JsonValue → Except ApiError α)
    (data : Bytes) : Except ApiError α :=
  match j.parse data with
  | .error e => .error e
  | .ok .null => .ok zero
  | .ok v => decode v

/-- `json.Unmarshal` into a pointer. -/
def unmarshalPtr {α : Type} (j : JsonCodec) (decode : JsonValue → Except ApiError α)
    (data : Bytes) : Except ApiError (Option α) :=
  match j.parse data with
  | .error e => .error e
  | .ok .null => .ok none
  | .ok v => (decode v).map some

/-! ## The bridged operations -/

/-- `if err != nil { panic(err) }` after a decode. -/
def orPanic {α : Type} (errorText : ApiError → Bytes) : Except ApiError α → Prog α
  | .ok a => .pure a
  | .error e => .panic (errorText e)

section Bridged

variable (h : Host) (enabledCallbacks : Callback)

/-- The shape shared by seven of the operations: when `callback` is enabled, call the client
with `args`; a failed call panics, a non-empty reply goes to `answer`, which either answers
or (`none`) falls through, like an empty reply, to the local answer. -/
def bridged {α : Type} (callback : Callback) (method : String) (args : CallArgs)
    (answer : Bytes → Prog (Option α)) (localAnswer : α) : Prog α :=
  if callbackEnabled enabledCallbacks callback then
    .call (utf8 method) (h.json.marshal args) fun
      | .error err => .panic (h.errorText err)
      | .ok result =>
        if result.length > 0 then
          Prog.bind (answer result) fun
            | some a => .pure a
            | none => .pure localAnswer
        else .pure localAnswer
  else .pure localAnswer

def directoryExists (path : Bytes) : Prog Bool :=
  bridged h enabledCallbacks callbackDirectoryExists "directoryExists" (.path path)
    (fun result => .pure (some (result == utf8 "true"))) (h.fs.directoryExists path)

def fileExists (path : Bytes) : Prog Bool :=
  bridged h enabledCallbacks callbackFileExists "fileExists" (.path path)
    (fun result => .pure (some (result == utf8 "true"))) (h.fs.fileExists path)

/-- `GetAccessibleEntries` decodes into a pointer and falls through when it stays nil. -/
def getAccessibleEntries (path : Bytes) : Prog Entries :=
  bridged h enabledCallbacks callbackGetAccessibleEntries "getAccessibleEntries" (.path path)
    (fun result => orPanic h.errorText (unmarshalPtr h.json h.json.entries result))
    (h.fs.getAccessibleEntries path)

def realpath (path : Bytes) : Prog Bytes :=
  bridged h enabledCallbacks callbackRealpath "realpath" (.path path)
    (fun result => Prog.bind (orPanic h.errorText (unmarshalValue h.json [] h.json.string result))
      fun s => .pure (some s))
    (h.fs.realpath path)

/-- `ReadFile` keeps its own body: bundled paths never go to the client, and the reply
`null`, byte for byte, means no file. -/
def readFile (path : Bytes) : Prog (Bytes × Bool) :=
  if callbackEnabled enabledCallbacks callbackReadFile && !(utf8 "bundled://").isPrefixOf path then
    .call (utf8 "readFile") (h.json.marshal (.path path)) fun
      | .error err => .panic (h.errorText err)
      | .ok data =>
        if data = utf8 "null" then .pure ([], false)
        else if data.length > 0 then
          Prog.bind (orPanic h.errorText (unmarshalValue h.json [] h.json.string data))
            fun result => .pure (result, true)
        else .pure (h.fs.readFile path)
  else .pure (h.fs.readFile path)

/-- The zero `packagejson.InfoCacheEntry`, what `null` decodes to. -/
def InfoCacheEntry.zero : InfoCacheEntry := ⟨[], false, none⟩

/-- `resolverWrapper.GetPackageJsonScopeIfApplicable` keeps its own body: an empty reply
gives nil, not the inner resolver's answer. -/
def getPackageJsonScopeIfApplicable (path : Bytes) : Prog (Option InfoCacheEntry) :=
  if callbackEnabled enabledCallbacks callbackGetPackageJsonScopeIfApplicable then
    .call (utf8 "getPackageJsonScopeIfApplicable") (h.json.marshal (.path path)) fun
      | .error err => .panic (h.errorText err)
      | .ok result =>
        if result.length > 0 then
          Prog.bind (orPanic h.errorText
              (unmarshalValue h.json ⟨[], false, []⟩ h.json.packageJsonIfApplicable result))
            fun res => Prog.bind (orPanic h.errorText (h.parsePackageJson res.contents))
              fun contents =>
                .pure (some ⟨res.packageDirectory, res.directoryExists, some ⟨contents⟩⟩)
        else .pure none
  else .pure (h.inner.getPackageJsonScopeIfApplicable path)

def getPackageScopeForPath (directory : Bytes) : Prog (Option InfoCacheEntry) :=
  bridged h enabledCallbacks callbackGetPackageScopeForPath "getPackageScopeForPath"
    (.path directory)
    (fun result => Prog.bind
      (orPanic h.errorText (unmarshalValue h.json InfoCacheEntry.zero h.json.infoCacheEntry result))
      fun res => .pure (some (some res)))
    (h.inner.getPackageScopeForPath directory)

def resolveModuleName (moduleName containingFile : Bytes) (resolutionMode : ResolutionMode)
    (redirectedReference : ResolvedProjectReference) : Prog (Option ResolvedModule × List Bytes) :=
  bridged h enabledCallbacks callbackResolveModuleName "resolveModuleName"
    (.moduleName moduleName containingFile resolutionMode redirectedReference)
    (fun result => Prog.bind
      (orPanic h.errorText (unmarshalValue h.json ⟨[]⟩ h.json.resolvedModule result))
      fun res => .pure (some (some res, [])))
    (h.inner.resolveModuleName moduleName containingFile resolutionMode redirectedReference)

def resolveTypeReferenceDirective (typeReferenceDirectiveName containingFile : Bytes)
    (resolutionMode : ResolutionMode) (redirectedReference : ResolvedProjectReference) :
    Prog (Option ResolvedTypeReferenceDirective × List Bytes) :=
  bridged h enabledCallbacks callbackResolveTypeReferenceDirective "resolveTypeReferenceDirective"
    (.typeReferenceDirective typeReferenceDirectiveName containingFile resolutionMode
      redirectedReference)
    (fun result => Prog.bind
      (orPanic h.errorText (unmarshalValue h.json ⟨[]⟩ h.json.resolvedTypeReferenceDirective result))
      fun res => .pure (some (some res, [])))
    (h.inner.resolveTypeReferenceDirective typeReferenceDirectiveName containingFile resolutionMode
      redirectedReference)

end Bridged

end ApiServer
