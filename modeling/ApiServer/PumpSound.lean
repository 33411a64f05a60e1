import ApiServer.BridgeSound
import ApiServer.Pump

/-!
# The pump answers in turn

Every pass of `Run`'s loop reads one top-level envelope. A Request is answered by exactly one
reply for its method, after the handler's Call envelopes and before the next top-level
read; anything else ends `Run` with a read, framing or write error (`run_answers_in_turn`).
A panic is the exception: the newest deferred recover answers it and `Run` returns nil, so
the requests after it are never read (`run_returns_nil_after_panic`). The enabled callbacks
only grow, and only by the names of configure requests (`enabledCallbacks_grow`). A configure
request sets the bits of its names up to the first unknown one even when it then fails, and the
payload `null` panics (`handleConfigure_cases`, `configure_not_atomic_nor_total`). Each
answered Request moves `requestId` on by one, and the `k`-th is handed to the host with the id
`k` past the start (`served_requestId`).
-/

namespace ApiServer

/-! ## Reads and writes on the server -/

theorem read_ok {α : Type} {x : Reader α} {s s' : Server} {a : α}
    (h : Server.read x s = .ok a s') : x s.r = .ok a s'.r ∧ s'.w = s.w ∧ s.StreamsOnly s' := by
  unfold Server.read at h
  rcases hx : x s.r with ⟨a', r⟩ | ⟨e, r⟩ <;> rw [hx] at h <;> cases h
  exact ⟨rfl, rfl, rfl, rfl⟩

theorem read_error {α : Type} {x : Reader α} {s s' : Server} {e : ApiError}
    (h : Server.read x s = .error e s') : x s.r = .error e s'.r ∧ s'.w = s.w ∧ s.StreamsOnly s' := by
  unfold Server.read at h
  rcases hx : x s.r with ⟨a, r⟩ | ⟨e', r⟩ <;> rw [hx] at h <;> cases h
  exact ⟨rfl, rfl, rfl, rfl⟩

theorem write_ok {α : Type} {x : Writer α} {s s' : Server} {a : α}
    (h : Server.write x s = .ok a s') : x s.w = .ok a s'.w ∧ s'.r = s.r ∧ s.StreamsOnly s' := by
  unfold Server.write at h
  rcases hx : x s.w with ⟨a', w⟩ | ⟨e, w⟩ <;> rw [hx] at h <;> cases h
  exact ⟨rfl, rfl, rfl, rfl⟩

theorem write_error {α : Type} {x : Writer α} {s s' : Server} {e : ApiError}
    (h : Server.write x s = .error e s') : x s.w = .error e s'.w ∧ s'.r = s.r ∧ s.StreamsOnly s' := by
  unfold Server.write at h
  rcases hx : x s.w with ⟨a, w⟩ | ⟨e', w⟩ <;> rw [hx] at h <;> cases h
  exact ⟨rfl, rfl, rfl, rfl⟩

theorem put_error_eq {bs : Bytes} {w w' : Sink} {e : ApiError} (h : put bs w = .error e w') :
    e = .write := by
  unfold put at h
  split at h
  · cases h
  · split at h <;> cases h; rfl

theorem readRequest_error_class {e b r : Bytes} {err : ApiError}
    (h : readRequest e b = .error err r) : err.isReadError ∨ err.isInvalidRequest :=
  ((framed_readRequest e b []).2 err r h).imp id And.left

theorem readRequest_consumes {e b r : Bytes} {env : Envelope} (h : readRequest e b = .ok env r) :
    r.length < b.length := by
  obtain ⟨bs, ⟨-, -, -, bm, bp, -, -, rfl⟩, rfl⟩ := isEnvelope_of_readRequest h
  simp only [List.length_append, List.length_cons]
  omega

/-! ## Handling a request -/

theorem handleRequest_echo (h : Host) (payload : Bytes) (s : Server) :
    handleRequest h (utf8 "echo") payload s =
      (.done (.ok payload), { s with requestId := s.requestId + 1 }) := by
  simp only [handleRequest, if_neg (show utf8 "echo" ≠ utf8 "configure" by decide), if_true]

theorem handleRequest_streams (h : Host) (method payload : Bytes) (s : Server) :
    let s' := (handleRequest h method payload s).2
    s'.r <:+ s.r ∧ ∃ calls t, s'.w.out = s.w.out ++ calls ++ t ∧ IsCalls calls ∧
      (t = [] ∨ s'.w.room = some 0) := by
  have hnone : ∀ s' : Server, s'.r = s.r → s'.w = s.w → s'.r <:+ s.r ∧
      ∃ calls t, s'.w.out = s.w.out ++ calls ++ t ∧ IsCalls calls ∧
        (t = [] ∨ s'.w.room = some 0) := fun s' hr hw =>
    ⟨hr ▸ List.suffix_refl _, [], [], by rw [hw]; simp, isCalls_nil, .inl rfl⟩
  unfold handleRequest
  split_ifs
  · dsimp only
    split <;> exact hnone _ rfl rfl
  · exact hnone _ rfl rfl
  · set s₁ : Server := { s with requestId := s.requestId + 1 }
    exact ⟨(exec_frame _ s₁).2, exec_writes_calls _ s₁⟩

theorem handleRequest_api (h : Host) {method : Bytes} (payload : Bytes) (s : Server)
    (hc : method ≠ utf8 "configure") (he : method ≠ utf8 "echo") :
    handleRequest h method payload s =
      (h.api s.enabledCallbacks (s.requestId + 1) method payload).exec
        { s with requestId := s.requestId + 1 } := by
  simp only [handleRequest, if_neg hc, if_neg he]

theorem handleRequest_requestId (h : Host) (method payload : Bytes) (s : Server) :
    (handleRequest h method payload s).2.requestId = s.requestId + 1 := by
  unfold handleRequest
  split_ifs
  · dsimp only
    split <;> rfl
  · rfl
  · exact (exec_frame _ _).1.2

/-! ## One pass of the loop -/

/-- The reply `Run` writes for a request whose handler returned `res`. -/
def replyEnvelope (h : Host) (method : Bytes) : Except ApiError Bytes → Envelope
  | .ok result => ⟨messageTypeResponse, method, result⟩
  | .error e => ⟨messageTypeError, method, h.errorText e⟩

/-- One Request answered: read from the front of the input, handled without a panic while
the handler wrote only Call envelopes, and then its one reply written whole. -/
def Answers (h : Host) (s : Server) (method : Bytes) (s' : Server) : Prop :=
  ∃ payload s₁ res s₂ calls,
    Server.read (readRequest []) s = .ok ⟨messageTypeRequest, method, payload⟩ s₁ ∧
    handleRequest h method payload s₁ = (.done res, s₂) ∧
    (method = utf8 "echo" → res = .ok payload) ∧
    s₂.w.out = s₁.w.out ++ calls ∧ IsCalls calls ∧
    Server.write (put (encodeMessage (replyEnvelope h method res))) s₂ = .ok () s'

/-- How a pass that answers no request ends `Run` with `e` in `s'`: the read fails; the
envelope read is no Request, and nothing is written; or the reply cannot be written. -/
def Stops (h : Host) (s : Server) (e : ApiError) (s' : Server) : Prop :=
  Server.read (readRequest []) s = .error e s' ∨
  (∃ env, Server.read (readRequest []) s = .ok env s' ∧ env.messageType ≠ messageTypeRequest ∧
    e = .invalidRequest (.notRequest env.messageType) ∧ s'.w = s.w) ∨
  ∃ method payload s₁ res s₂ calls t,
    Server.read (readRequest []) s = .ok ⟨messageTypeRequest, method, payload⟩ s₁ ∧
    handleRequest h method payload s₁ = (.done res, s₂) ∧
    s₂.w.out = s₁.w.out ++ calls ++ t ∧ IsCalls calls ∧
    Server.write (put (encodeMessage (replyEnvelope h method res))) s₂ = .error e s'

theorem runStep_done {h : Host} {ds : List Bytes} {s s₁ s₂ : Server} {method payload : Bytes}
    {res : Except ApiError Bytes}
    (hread : Server.read (readRequest []) s = .ok ⟨messageTypeRequest, method, payload⟩ s₁)
    (hh : handleRequest h method payload s₁ = (.done res, s₂)) :
    runStep h ds s =
      match Server.write (put (encodeMessage (replyEnvelope h method res))) s₂ with
      | .ok _ s' => (.next (method :: ds), s')
      | .error e s' => (.stop (.returned (some e)), s') := by
  unfold runStep
  rw [hread]
  dsimp only
  rw [if_pos rfl, hh]
  rcases res with e | result <;> simp only [sendError, sendResponse, writeMessage_eq] <;> rfl

theorem runStep_cases (h : Host) (ds : List Bytes) (s : Server) :
    (∃ method s', runStep h ds s = (.next (method :: ds), s') ∧ Answers h s method s' ∧
      s'.r.length < s.r.length) ∨
    (∃ e s', runStep h ds s = (.stop (.returned (some e)), s') ∧ Stops h s e s' ∧
      (e.isReadError ∨ e.isInvalidRequest ∨ e = .write)) ∨
    ∃ method payload s₁ v s₂,
      Server.read (readRequest []) s = .ok ⟨messageTypeRequest, method, payload⟩ s₁ ∧
      handleRequest h method payload s₁ = (.panicked v, s₂) ∧
      runStep h ds s = (.stop (unwind h (method :: ds) v s₂).1, (unwind h (method :: ds) v s₂).2) := by
  rcases hread : Server.read (readRequest []) s with ⟨⟨k, method, payload⟩, s₁⟩ | ⟨e, s₁⟩
  · obtain ⟨hr₁, hw₁, -⟩ := read_ok hread
    by_cases hk : k = messageTypeRequest
    · subst hk
      obtain ⟨hsuf, calls, t, hout, hcalls, ht⟩ := handleRequest_streams h method payload s₁
      rcases hh : handleRequest h method payload s₁ with ⟨res | v, s₂⟩
      · rw [hh] at hsuf hout ht
        rw [runStep_done hread hh]
        have hecho : method = utf8 "echo" → res = .ok payload := by
          rintro rfl; rw [handleRequest_echo] at hh; cases hh; rfl
        rcases hw : Server.write (put (encodeMessage (replyEnvelope h method res))) s₂
          with ⟨_, s₃⟩ | ⟨e, s₃⟩
        · obtain ⟨hput, hr₃, -⟩ := write_ok hw
          have ht' : t = [] := ht.resolve_right fun hroom => by
            rw [put_full hroom (by simp [encodeMessage])] at hput; cases hput
          subst ht'
          refine .inl ⟨method, s₃, rfl, ⟨payload, s₁, res, s₂, calls, hread, hh, hecho,
            by simpa using hout, hcalls, hw⟩, ?_⟩
          rw [hr₃]
          exact lt_of_le_of_lt hsuf.length_le (readRequest_consumes hr₁)
        · obtain ⟨hput, -, -⟩ := write_error hw
          exact .inr (.inl ⟨e, s₃, rfl, .inr (.inr ⟨method, payload, s₁, res, s₂, calls, t, hread,
            hh, hout, hcalls, hw⟩), .inr (.inr (put_error_eq hput))⟩)
      · exact .inr (.inr ⟨method, payload, s₁, v, s₂, rfl, hh, by
          unfold runStep; rw [hread]; dsimp only; rw [if_pos rfl, hh]⟩)
    · refine .inr (.inl ⟨_, s₁, ?_, .inr (.inl ⟨_, hread, hk, rfl, hw₁⟩), .inr (.inl rfl)⟩)
      unfold runStep; rw [hread]; dsimp only; rw [if_neg hk]
  · obtain ⟨hr, -, -⟩ := read_error hread
    refine .inr (.inl ⟨e, s₁, ?_, .inl hread, (readRequest_error_class hr).elim .inl (.inr ∘ .inl)⟩)
    unfold runStep; rw [hread]

/-! ## Whole runs -/

/-- Requests answered one after another from `s` to `s'`, with their methods oldest first. -/
inductive Served (h : Host) : Server → List Bytes → Server → Prop
  | nil (s : Server) : Served h s [] s
  | answer {s s₁ s₂ : Server} {method : Bytes} {methods : List Bytes} :
      Answers h s method s₁ → Served h s₁ methods s₂ → Served h s (method :: methods) s₂

theorem run_add_fuel (h : Host) : ∀ (fuel k : Nat) (ds : List Bytes) (s : Server)
    (result : RunResult × Server), run h fuel ds s = some result →
    run h (fuel + k) ds s = some result
  | 0, _, _, _, _, hr => by cases hr
  | fuel + 1, k, ds, s, result, hr => by
    rw [Nat.add_right_comm]
    revert hr
    simp only [run]
    split
    · exact run_add_fuel h fuel k _ _ result
    · exact id

theorem answers_requestId {h : Host} {s s' : Server} {method : Bytes}
    (ha : Answers h s method s') : s'.requestId = s.requestId + 1 := by
  obtain ⟨payload, s₁, res, s₂, calls, hread, hh, -, -, -, hw⟩ := ha
  have h₂ := handleRequest_requestId h method payload s₁
  rw [hh] at h₂
  rw [← (read_ok hread).2.2.2, (write_ok hw).2.2.2, h₂]

theorem requestId_of_served {h : Host} {s s₁ : Server} {methods : List Bytes}
    (hs : Served h s methods s₁) : s₁.requestId = s.requestId + methods.length := by
  induction hs with
  | nil => rfl
  | answer ha _ ih => rw [ih, answers_requestId ha, List.length_cons]; omega

theorem Served.split {h : Host} : ∀ {s s₁ : Server} (ms : List Bytes) {ms' : List Bytes},
    Served h s (ms ++ ms') s₁ → ∃ s₂, Served h s ms s₂ ∧ Served h s₂ ms' s₁
  | s, _, [], _, hs => ⟨s, .nil s, hs⟩
  | _, _, _ :: ms, _, hs => by
    cases hs with
    | answer ha hs =>
      obtain ⟨s₂, h₁, h₂⟩ := Served.split ms hs
      exact ⟨s₂, .answer ha h₁, h₂⟩

/-- `requestId` counts the Requests answered, and the `k`-th of a run is handed to the host's
API with the id `k` past the one the run started from: each handler runs with the id one past
the one before. -/
theorem served_requestId {h : Host} {s s₁ : Server} {ms ms' : List Bytes} {method : Bytes}
    (hs : Served h s (ms ++ method :: ms') s₁) :
    s₁.requestId = s.requestId + (ms ++ method :: ms').length ∧
    ∃ s₂ payload s₃, Served h s ms s₂ ∧
      Server.read (readRequest []) s₂ = .ok ⟨messageTypeRequest, method, payload⟩ s₃ ∧
      (method ≠ utf8 "configure" → method ≠ utf8 "echo" →
        handleRequest h method payload s₃ =
          (h.api s₃.enabledCallbacks (s.requestId + ms.length + 1) method payload).exec
            { s₃ with requestId := s.requestId + ms.length + 1 }) := by
  refine ⟨requestId_of_served hs, ?_⟩
  obtain ⟨s₂, h₁, h₂⟩ := Served.split ms hs
  cases h₂ with
  | answer ha _ =>
    obtain ⟨payload, s₃, -, -, -, hread, -⟩ := ha
    have hid : s₃.requestId = s.requestId + ms.length := by
      rw [(read_ok hread).2.2.2, requestId_of_served h₁]
    refine ⟨s₂, payload, s₃, h₁, hread, fun hc he => ?_⟩
    rw [handleRequest_api h payload s₃ hc he, hid]

theorem served_requestId_lint :
    Served sampleHost
      ⟨encodeMessage ⟨messageTypeRequest, utf8 "lint", []⟩, ⟨[], none⟩, 0, 0⟩ ([] ++ [utf8 "lint"])
      ⟨[], ⟨encodeMessage ⟨messageTypeResponse, utf8 "lint", []⟩, none⟩, 0, 1⟩ ∧
    1 = 0 + ([] ++ [utf8 "lint"]).length ∧
    ∃ s₂ payload s₃, Served sampleHost
        ⟨encodeMessage ⟨messageTypeRequest, utf8 "lint", []⟩, ⟨[], none⟩, 0, 0⟩ [] s₂ ∧
      Server.read (readRequest []) s₂ = .ok ⟨messageTypeRequest, utf8 "lint", payload⟩ s₃ ∧
      (utf8 "lint" ≠ utf8 "configure" → utf8 "lint" ≠ utf8 "echo" →
        handleRequest sampleHost (utf8 "lint") payload s₃ =
          (sampleHost.api s₃.enabledCallbacks (0 + ([] : List Bytes).length + 1) (utf8 "lint")
            payload).exec { s₃ with requestId := 0 + ([] : List Bytes).length + 1 }) :=
  have hs : Served sampleHost
      ⟨encodeMessage ⟨messageTypeRequest, utf8 "lint", []⟩, ⟨[], none⟩, 0, 0⟩ ([] ++ [utf8 "lint"])
      ⟨[], ⟨encodeMessage ⟨messageTypeResponse, utf8 "lint", []⟩, none⟩, 0, 1⟩ :=
    .answer ⟨[], ⟨[], ⟨[], none⟩, 0, 0⟩, .ok [], ⟨[], ⟨[], none⟩, 0, 1⟩, [],
      rfl, rfl, fun he => absurd he (by decide), rfl, isCalls_nil, rfl⟩ (.nil _)
  ⟨hs, served_requestId hs⟩

/-! ## A panic ends the run -/

/-- `sampleHost` with an API whose every request panics. -/
def panickyHost : Host := { sampleHost with api := fun _ _ _ _ => .panic (utf8 "boom") }

/-- A panicking request followed by an `echo`: `Run` sends the Error for the first, then
returns nil without reading the `echo`. -/
theorem run_returns_nil_after_panic :
    run panickyHost 3 []
        ⟨encodeMessage ⟨messageTypeRequest, utf8 "lint", []⟩ ++
          encodeMessage ⟨messageTypeRequest, utf8 "echo", utf8 "hello"⟩, ⟨[], none⟩, 0, 0⟩ =
      some (.returned none,
        ⟨encodeMessage ⟨messageTypeRequest, utf8 "echo", utf8 "hello"⟩,
          ⟨encodeMessage ⟨messageTypeError, utf8 "lint", panicText (utf8 "boom") []⟩, none⟩,
          0, 1⟩) := rfl

theorem unwind_ends (h : Host) (ds : List Bytes) (v : Bytes) (s : Server) :
    (unwind h ds v s).2.r = s.r ∧ s.StreamsOnly (unwind h ds v s).2 ∧
      ((unwind h ds v s).1 = .returned none ∨ ∃ v', (unwind h ds v s).1 = .crashed v') := by
  induction ds generalizing v s with
  | nil => exact ⟨rfl, ⟨rfl, rfl⟩, .inr ⟨v, rfl⟩⟩
  | cons method ds ih =>
    unfold unwind
    rcases hw : Server.write (sendError method (panicText v h.stack)) s with ⟨_, s'⟩ | ⟨e, s'⟩
    · obtain ⟨-, hr, hs⟩ := write_ok hw
      exact ⟨hr, hs, .inl rfl⟩
    · obtain ⟨-, hr, hs⟩ := write_error hw
      obtain ⟨hr', hs', hres⟩ := ih (utf8 "fatal error sending panic response") s'
      exact ⟨hr'.trans hr, hs.trans hs', hres⟩

/-! ## Enabled callbacks -/

/-- The bits `handleConfigure`'s loop sets for `callbacks`: those of the names before the
first unknown one. -/
def callbackBits : List Bytes → Callback
  | [] => 0
  | callback :: callbacks =>
    match callbackOfName callback with
    | some bit => bit ||| callbackBits callbacks
    | none => 0

theorem forM_enableCallback (callbacks : List Bytes) (enabledCallbacks : Callback) :
    stateOf (callbacks.forM enableCallback enabledCallbacks) =
      enabledCallbacks ||| callbackBits callbacks := by
  induction callbacks generalizing enabledCallbacks with
  | nil => exact (Nat.or_zero _).symm
  | cons callback callbacks ih =>
    rw [List.forM, bind_apply]
    unfold enableCallback callbackBits
    cases callbackOfName callback with
    | none => exact (Nat.or_zero _).symm
    | some bit => exact (ih _).trans (Nat.or_assoc _ _ _)

theorem testBit_callbackBits {callbacks : List Bytes} {i : Nat}
    (h : (callbackBits callbacks).testBit i) :
    ∃ callback ∈ callbacks, ∃ bit, callbackOfName callback = some bit ∧ bit.testBit i := by
  induction callbacks with
  | nil => simp [callbackBits] at h
  | cons callback callbacks ih =>
    unfold callbackBits at h
    rcases hc : callbackOfName callback with _ | bit <;> rw [hc] at h
    · simp at h
    · rw [Nat.testBit_or, Bool.or_eq_true] at h
      rcases h with h | h
      · exact ⟨callback, List.mem_cons_self _ _, bit, hc, h⟩
      · obtain ⟨c, hc', b, hb, hi⟩ := ih h
        exact ⟨c, List.mem_cons_of_mem _ hc', b, hb, hi⟩

theorem handleConfigure_enabled (h : Host) (payload : Bytes) (enabledCallbacks : Callback) :
    (handleConfigure h payload enabledCallbacks).2 =
      match unmarshalPtr h.json h.json.configureParams payload with
      | .ok (some params) => enabledCallbacks ||| callbackBits params.callbacks
      | _ => enabledCallbacks := by
  unfold handleConfigure
  rcases unmarshalPtr h.json h.json.configureParams payload with e | _ | params
  · rfl
  · rfl
  · dsimp only
    rw [← forM_enableCallback]
    rcases params.callbacks.forM enableCallback enabledCallbacks <;> rfl

theorem handleRequest_enabled (h : Host) (method payload : Bytes) (s : Server) :
    (handleRequest h method payload s).2.enabledCallbacks =
      if method = utf8 "configure" then (handleConfigure h payload s.enabledCallbacks).2
      else s.enabledCallbacks := by
  unfold handleRequest
  split_ifs
  · dsimp only
    split <;> simp_all
  · rfl
  · exact (exec_frame _ _).1.1

/-- The bits a configure request with `payload` lists by name. -/
def Listed (h : Host) (payload : Bytes) (i : Nat) : Prop :=
  ∃ params callback bit, unmarshalPtr h.json h.json.configureParams payload = .ok (some params) ∧
    callback ∈ params.callbacks ∧ callbackOfName callback = some bit ∧ bit.testBit i

/-- From `s` to `s'` no enabled callback is lost, and each one gained is named by a configure
request among `envs`. -/
def Grows (h : Host) (s : Server) (envs : List Envelope) (s' : Server) : Prop :=
  (∀ i, s.enabledCallbacks.testBit i → s'.enabledCallbacks.testBit i) ∧
  ∀ i, s'.enabledCallbacks.testBit i → s.enabledCallbacks.testBit i ∨
    ∃ env ∈ envs, env.messageType = messageTypeRequest ∧ env.method = utf8 "configure" ∧
      Listed h env.payload i

theorem grows_of_enabled {h : Host} {s s' : Server} (envs : List Envelope)
    (hs : s'.enabledCallbacks = s.enabledCallbacks) : Grows h s envs s' :=
  ⟨fun _ hi => hs ▸ hi, fun _ hi => .inl (hs ▸ hi)⟩

theorem Grows.trans {h : Host} {s₁ s₂ s₃ : Server} {envs₁ envs₂ : List Envelope}
    (h₁ : Grows h s₁ envs₁ s₂) (h₂ : Grows h s₂ envs₂ s₃) : Grows h s₁ (envs₁ ++ envs₂) s₃ := by
  refine ⟨fun i hi => h₂.1 i (h₁.1 i hi), fun i hi => ?_⟩
  rcases h₂.2 i hi with hi | ⟨env, henv, hk⟩
  · rcases h₁.2 i hi with hi | ⟨env, henv, hk⟩
    · exact .inl hi
    · exact .inr ⟨env, List.mem_append_left _ henv, hk⟩
  · exact .inr ⟨env, List.mem_append_right _ henv, hk⟩

/-- The top-level envelope a pass of the loop reads from `s`, when the read succeeds. -/
def topEnvelope (s : Server) : List Envelope :=
  match readRequest [] s.r with
  | .ok env _ => [env]
  | .error _ _ => []

theorem grows_handled {h : Host} {s s₁ s' : Server} {method payload : Bytes}
    (hread : Server.read (readRequest []) s = .ok ⟨messageTypeRequest, method, payload⟩ s₁)
    (hs' : (handleRequest h method payload s₁).2.StreamsOnly s') :
    Grows h s (topEnvelope s) s' := by
  obtain ⟨hr, -, hs₁⟩ := read_ok hread
  have hte : topEnvelope s = [⟨messageTypeRequest, method, payload⟩] := by
    unfold topEnvelope; rw [hr]
  have hec := hs'.1.trans (handleRequest_enabled h method payload s₁)
  rw [hs₁.1] at hec
  split_ifs at hec with hm
  · rw [handleConfigure_enabled] at hec
    rcases hu : unmarshalPtr h.json h.json.configureParams payload with e | _ | params <;>
      rw [hu] at hec
    · exact grows_of_enabled _ hec
    · exact grows_of_enabled _ hec
    · rw [hte]
      refine ⟨fun i hi => by rw [hec, Nat.testBit_or, hi, Bool.true_or], fun i hi => ?_⟩
      rw [hec, Nat.testBit_or, Bool.or_eq_true] at hi
      refine hi.imp id fun hi => ?_
      obtain ⟨callback, hc, bit, hb, hbit⟩ := testBit_callbackBits hi
      exact ⟨_, List.mem_singleton_self _, rfl, hm, params, callback, bit, hu, hc, hb, hbit⟩
  · exact grows_of_enabled _ hec

theorem runStep_grows (h : Host) (ds : List Bytes) (s : Server) :
    Grows h s (topEnvelope s) (runStep h ds s).2 := by
  rcases runStep_cases h ds s with ⟨method, s', hstep, hans, -⟩ | ⟨e, s', hstep, hstops, -⟩ |
    ⟨method, payload, s₁, v, s₂, hread, hh, hstep⟩ <;> rw [hstep]
  · obtain ⟨payload, s₁, res, s₂, -, hread, hh, -, -, -, hw⟩ := hans
    exact grows_handled hread (by rw [hh]; exact (write_ok hw).2.2)
  · rcases hstops with hread | ⟨env, hread, -, -, -⟩ |
      ⟨method, payload, s₁, res, s₂, -, -, hread, hh, -, -, hw⟩
    · exact grows_of_enabled _ (read_error hread).2.2.1
    · exact grows_of_enabled _ (read_ok hread).2.2.1
    · exact grows_handled hread (by rw [hh]; exact (write_error hw).2.2)
  · exact grows_handled hread (by rw [hh]; exact (unwind_ends h _ v s₂).2.1)

/-- Passes of `Run`'s loop that go round again, from `(ds, s)` to `(ds', s')`, with the
top-level envelopes they read. -/
inductive Passes (h : Host) : List Bytes → Server → List Envelope → List Bytes → Server → Prop
  | refl (ds : List Bytes) (s : Server) : Passes h ds s [] ds s
  | next {ds ds₁ ds₂ : List Bytes} {s s₁ s₂ : Server} {envs : List Envelope} :
      runStep h ds s = (.next ds₁, s₁) → Passes h ds₁ s₁ envs ds₂ s₂ →
      Passes h ds s (topEnvelope s ++ envs) ds₂ s₂

theorem passes_grow {h : Host} {ds ds' : List Bytes} {s s' : Server} {envs : List Envelope}
    (hp : Passes h ds s envs ds' s') : Grows h s envs s' := by
  induction hp with
  | refl ds s => exact grows_of_enabled _ rfl
  | @next ds ds₁ ds₂ s s₁ s₂ envs hstep _ ih =>
    have h₁ := runStep_grows h ds s
    rw [hstep] at h₁
    exact h₁.trans ih

theorem enableCallback_twice (callback : Bytes) :
    (enableCallback callback >>= fun _ => enableCallback callback) = enableCallback callback := by
  funext enabledCallbacks
  rw [bind_apply]
  unfold enableCallback
  cases callbackOfName callback with
  | none => rfl
  | some bit => simp only [Nat.or_assoc, Nat.or_self]

theorem handleConfigure_twice (h : Host) (payload : Bytes) (enabledCallbacks : Callback) :
    (handleConfigure h payload (handleConfigure h payload enabledCallbacks).2).2 =
      (handleConfigure h payload enabledCallbacks).2 := by
  simp only [handleConfigure_enabled]
  rcases unmarshalPtr h.json h.json.configureParams payload with _ | _ | params
  · rfl
  · rfl
  · simp only [Nat.or_assoc, Nat.or_self]

/-- The enabled callbacks never lose a bit, in any pass of `Run`'s loop (the last one too)
and over any run of passes; each bit gained is named by a configure request read on the way;
and configuring a name, or sending a configure request, twice does what doing it once
does. -/
theorem enabledCallbacks_grow (h : Host) :
    (∀ ds s, Grows h s (topEnvelope s) (runStep h ds s).2) ∧
    (∀ {ds s envs ds' s'}, Passes h ds s envs ds' s' → Grows h s envs s') ∧
    (∀ callback, (enableCallback callback >>= fun _ => enableCallback callback) =
      enableCallback callback) ∧
    ∀ payload enabledCallbacks,
      (handleConfigure h payload (handleConfigure h payload enabledCallbacks).2).2 =
        (handleConfigure h payload enabledCallbacks).2 :=
  ⟨runStep_grows h, passes_grow, enableCallback_twice, handleConfigure_twice h⟩

/-! ## Configure, case by case -/

theorem forM_enableCallback_cases (callbacks : List Bytes) (enabledCallbacks : Callback) :
    ((∀ c ∈ callbacks, (callbackOfName c).isSome) ∧
      callbacks.forM enableCallback enabledCallbacks =
        .ok () (enabledCallbacks ||| callbackBits callbacks)) ∨
    ∃ known u rest, callbacks = known ++ u :: rest ∧ (∀ c ∈ known, (callbackOfName c).isSome) ∧
      callbackOfName u = none ∧
      callbacks.forM enableCallback enabledCallbacks =
        .error (.unknownCallback u) (enabledCallbacks ||| callbackBits known) := by
  induction callbacks generalizing enabledCallbacks with
  | nil => exact .inl ⟨by simp, by rw [callbackBits, Nat.or_zero]; rfl⟩
  | cons callback callbacks ih =>
    rw [List.forM, bind_apply]
    rcases hc : callbackOfName callback with _ | bit
    · refine .inr ⟨[], callback, callbacks, rfl, by simp, hc, ?_⟩
      simp only [enableCallback, hc, callbackBits, Nat.or_zero]
    · simp only [enableCallback, hc]
      rcases ih (enabledCallbacks ||| bit) with ⟨hall, hrun⟩ | ⟨known, u, rest, rfl, hknown, hu, hrun⟩
      · refine .inl ⟨?_, ?_⟩
        · simpa [hc] using hall
        · rw [hrun, callbackBits, hc, Nat.or_assoc]
      · refine .inr ⟨callback :: known, u, rest, rfl, ?_, hu, ?_⟩
        · simpa [hc] using hknown
        · rw [hrun, callbackBits, hc, Nat.or_assoc]

/-- Every way `handleConfigure` ends. A payload that does not decode returns its error, and a
payload that decodes to `null` panics, both with the bits as they were; a decoded list sets the
bits of its names up to the first unknown one, and returns that name's error if there is one. -/
theorem handleConfigure_cases (h : Host) (payload : Bytes) (enabledCallbacks : Callback) :
    (∃ e, unmarshalPtr h.json h.json.configureParams payload = .error e ∧
      handleConfigure h payload enabledCallbacks =
        (.done (.error (.invalidRequest (.configure (h.errorText e)))), enabledCallbacks)) ∨
    (unmarshalPtr h.json h.json.configureParams payload = .ok none ∧
      handleConfigure h payload enabledCallbacks = (.panicked nilDereference, enabledCallbacks)) ∨
    ∃ params, unmarshalPtr h.json h.json.configureParams payload = .ok (some params) ∧
      (((∀ c ∈ params.callbacks, (callbackOfName c).isSome) ∧
        handleConfigure h payload enabledCallbacks =
          (.done (.ok ()), enabledCallbacks ||| callbackBits params.callbacks)) ∨
      ∃ known u rest, params.callbacks = known ++ u :: rest ∧
        (∀ c ∈ known, (callbackOfName c).isSome) ∧ callbackOfName u = none ∧
        handleConfigure h payload enabledCallbacks =
          (.done (.error (.unknownCallback u)), enabledCallbacks ||| callbackBits known)) := by
  unfold handleConfigure
  rcases hu : unmarshalPtr h.json h.json.configureParams payload with e | _ | params
  · exact .inl ⟨e, rfl, rfl⟩
  · exact .inr (.inl ⟨rfl, rfl⟩)
  refine .inr (.inr ⟨params, rfl, ?_⟩)
  rcases forM_enableCallback_cases params.callbacks enabledCallbacks with
    ⟨hall, hrun⟩ | ⟨known, u, rest, hcs, hknown, hu, hrun⟩
  · exact .inl ⟨hall, by dsimp only; rw [hrun]⟩
  · exact .inr ⟨known, u, rest, hcs, hknown, hu, by dsimp only; rw [hrun]⟩

/-- A configure payload that names `fileExists` and then a name the server does not know. -/
def partlyUnknownConfigure : Bytes :=
  utf8 "\x7b\"callbacks\":[\"fileExists\",\"bogus\"]\x7d"

/-- A host whose JSON reads that payload as its object and otherwise knows `null` as
`sampleHost` does. A `ConfigureParams` is read from the strings of an object's one array. -/
def configureHost : Host :=
  { sampleHost with
    json := { sampleHost.json with
      parse := fun b =>
        if b = partlyUnknownConfigure then
          .ok (.object [(utf8 "callbacks",
            .array [.string (utf8 "fileExists"), .string (utf8 "bogus")])])
        else sampleHost.json.parse b
      configureParams := fun
        | .object [(_, .array items)] =>
          .ok ⟨items.filterMap fun | .string s => some s | _ => none, []⟩
        | _ => .error (.json []) } }

/-- Configure is neither total nor atomic: the payload `null` makes `handleConfigure` read the
fields of a nil pointer, and a list with an unknown name after `fileExists` returns the error
with `fileExists` already enabled. -/
theorem configure_not_atomic_nor_total :
    handleConfigure configureHost (utf8 "null") 0 = (.panicked nilDereference, 0) ∧
    handleConfigure configureHost partlyUnknownConfigure 0 =
      (.done (.error (.unknownCallback (utf8 "bogus"))), callbackFileExists) :=
  ⟨rfl, rfl⟩
end ApiServer
