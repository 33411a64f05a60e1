import ApiServer.Bridge

/-!
# Nested calls and the routing of the bridge

`Server.call` writes one Call envelope, reads one reply and touches nothing but the two
streams (`call_ok_eq`). A handler's run therefore writes only Call envelopes and never
grows its input (`exec_writes_calls`, `exec_frame`). Each of the nine bridged
operations is either the local answer or exactly one call of its own callback
(`bridge_routes`); the empty reply of `GetPackageJsonScopeIfApplicable` is the exception to
the local fallback, and an explicit `null` is not always honoured.
-/

namespace ApiServer

/-- The state a step of the state monad ends in, whether or not it failed. -/
def stateOf {ε σ α : Type} : EStateM.Result ε σ α → σ
  | .ok _ s => s
  | .error _ s => s

@[simp] theorem stateOf_ok {ε σ α : Type} (a : α) (s : σ) :
    stateOf (.ok a s : EStateM.Result ε σ α) = s := rfl

@[simp] theorem stateOf_error {ε σ α : Type} (e : ε) (s : σ) :
    stateOf (.error e s : EStateM.Result ε σ α) = s := rfl

/-! ## Readers never grow their input -/

/-- What a reader leaves unread is a suffix of what it was given, also when it fails. -/
def Shrinks {α : Type} (x : Reader α) : Prop := ∀ b, stateOf (x b) <:+ b

namespace Shrinks

theorem pure {α : Type} (a : α) : Shrinks (Pure.pure a : Reader α) := fun b => List.suffix_refl b

theorem throw {α : Type} (e : ApiError) : Shrinks (MonadExcept.throw e : Reader α) :=
  fun b => List.suffix_refl b

theorem bind {α β : Type} {x : Reader α} {f : α → Reader β} (hx : Shrinks x)
    (hf : ∀ a, Shrinks (f a)) : Shrinks (x >>= f) := fun b => by
  have h₁ := hx b
  rcases hb : x b with ⟨a, r⟩ | ⟨e, r⟩ <;> rw [hb] at h₁
  · rw [bind_apply, hb]; exact (hf a r).trans h₁
  · rw [bind_apply, hb]; exact h₁

theorem failIf (p : Prop) [Decidable p] (e : ApiError) : Shrinks (ApiServer.failIf p e : Reader Unit) := by
  unfold ApiServer.failIf; split
  · exact throw e
  · exact pure ()

end Shrinks

theorem shrinks_readByte : Shrinks readByte := fun
  | [] => List.suffix_refl []
  | _ :: r => List.suffix_cons _ r

theorem shrinks_readFull (n : Nat) : Shrinks (readFull n) := fun b => by
  unfold readFull; split
  · exact List.drop_suffix n b
  · exact List.nil_suffix

theorem shrinks_readBin : Shrinks readBin := by
  refine shrinks_readByte.bind fun t => ?_
  refine Shrinks.bind ?_ fun size => (shrinks_readFull size).bind fun payload =>
    (Shrinks.failIf _ _).bind fun _ => Shrinks.pure payload
  unfold readBinSize readSize
  split_ifs <;> first
    | exact (shrinks_readFull _).bind fun _ => Shrinks.pure _
    | exact Shrinks.throw _

theorem shrinks_readRequest (e : Bytes) : Shrinks (readRequest e) :=
  shrinks_readByte.bind fun _ => (Shrinks.failIf _ _).bind fun _ =>
  shrinks_readByte.bind fun _ => (Shrinks.failIf _ _).bind fun _ =>
  shrinks_readByte.bind fun _ => (Shrinks.failIf _ _).bind fun _ =>
  shrinks_readBin.bind fun _ => (Shrinks.failIf _ _).bind fun _ =>
  shrinks_readBin.bind fun _ => Shrinks.pure _

/-! ## `Server.call` -/

/-- What `Server.call` makes of the reply it read. -/
def callResult (env : Envelope) : Except ApiError Bytes :=
  if env.messageType = messageTypeCallResponse then .ok env.payload
  else if env.messageType = messageTypeCallError then .error (.clientError env.payload)
  else .error (.invalidRequest (.notCallReply env.messageType))

/-- `s'` differs from `s` at most in its two streams. -/
def Server.StreamsOnly (s s' : Server) : Prop :=
  s'.enabledCallbacks = s.enabledCallbacks ∧ s'.requestId = s.requestId

theorem Server.StreamsOnly.trans {s₁ s₂ s₃ : Server} (h₁ : s₁.StreamsOnly s₂)
    (h₂ : s₂.StreamsOnly s₃) : s₁.StreamsOnly s₃ :=
  ⟨h₂.1.trans h₁.1, h₂.2.trans h₁.2⟩

@[simp] theorem call_error (m : Bytes) (e : ApiError) (s : Server) :
    Server.call m (.error e) s = .error e s := rfl

/-- The spec of `Server.call` once the payload is marshalled: write the Call envelope, read
one reply for `m`, and classify it. -/
theorem call_ok_eq (m p : Bytes) (s : Server) :
    Server.call m (.ok p) s =
      match put (encodeMessage ⟨messageTypeCall, m, p⟩) s.w with
      | .error e w => .error e { s with w }
      | .ok _ w =>
        match readRequest m s.r with
        | .error e r => .error e { s with r, w }
        | .ok env r =>
          match callResult env with
          | .ok a => .ok a { s with r, w }
          | .error e => .error e { s with r, w } := by
  simp only [Server.call, liftExcept, bind, EStateM.bind, pure, EStateM.pure, Server.write,
    Server.read, writeMessage_eq]
  rcases put _ s.w with ⟨_, w⟩ | ⟨e, w⟩ <;> simp only
  rcases readRequest m s.r with ⟨env, r⟩ | ⟨e, r⟩ <;> simp only
  simp only [failIf, callResult]
  by_cases h₁ : env.messageType = messageTypeCallResponse <;>
    by_cases h₂ : env.messageType = messageTypeCallError <;>
    simp_all [throw, throwThe, MonadExceptOf.throw, EStateM.throw, messageTypeCallResponse,
      messageTypeCallError]

theorem put_eq_error {bs : Bytes} {w w' : Sink} {e : ApiError} (h : put bs w = .error e w') :
    ∃ t, w'.out = w.out ++ t ∧ w'.room = some 0 := by
  unfold put at h
  split at h
  · cases h
  · split at h <;> cases h; exact ⟨_, rfl, rfl⟩

/-- Where a call leaves the server: the output gains the Call envelope, or a cut-off part of
it when the transport failed, and the input loses at most what was read. -/
theorem call_state (m : Bytes) (p : Except ApiError Bytes) (s : Server) :
    let s' := stateOf (Server.call m p s)
    s.StreamsOnly s' ∧ s'.r <:+ s.r ∧
      (s'.w = s.w ∨ (∃ q, s'.w.out = s.w.out ++ encodeMessage ⟨messageTypeCall, m, q⟩) ∨
        ∃ t, s'.w.out = s.w.out ++ t ∧ s'.w.room = some 0) := by
  rcases p with e | q
  · exact ⟨⟨rfl, rfl⟩, List.suffix_refl _, .inl rfl⟩
  have hr := shrinks_readRequest m s.r
  rw [call_ok_eq]
  rcases hw : put (encodeMessage ⟨messageTypeCall, m, q⟩) s.w with ⟨_, w⟩ | ⟨e, w⟩ <;> simp only
  · have hout := put_eq_ok hw
    rcases hrr : readRequest m s.r with ⟨env, r⟩ | ⟨e, r⟩ <;> rw [hrr] at hr <;> simp only
    · rcases callResult env with a | e <;> exact ⟨⟨rfl, rfl⟩, hr, .inr (.inl ⟨q, hout⟩)⟩
    · exact ⟨⟨rfl, rfl⟩, hr, .inr (.inl ⟨q, hout⟩)⟩
  · exact ⟨⟨rfl, rfl⟩, List.suffix_refl _, .inr (.inr (put_eq_error hw))⟩

theorem put_full {bs : Bytes} {w : Sink} (h : w.room = some 0) (hbs : bs ≠ []) :
    put bs w = .error .write w := by
  obtain ⟨out, room⟩ := w
  cases h
  simp [put, List.length_pos.mpr hbs, Nat.not_succ_le_zero, Nat.pos_iff_ne_zero.mp]

/-- A call on a transport that already failed writes nothing more. -/
theorem call_full {m : Bytes} {p : Except ApiError Bytes} {s : Server} (h : s.w.room = some 0) :
    (stateOf (Server.call m p s)).w = s.w := by
  rcases p with e | q
  · rfl
  rw [call_ok_eq, put_full h (by simp [encodeMessage])]
  rfl

/-! ## Running a handler -/

/-- What a step of the state monad returned. -/
def resultOf {ε σ α : Type} : EStateM.Result ε σ α → Except ε α
  | .ok a _ => .ok a
  | .error e _ => .error e

@[simp] theorem exec_pure {α : Type} (a : α) (s : Server) : (Prog.pure a).exec s = (.done a, s) :=
  rfl

@[simp] theorem exec_panic {α : Type} (v : Bytes) (s : Server) :
    (Prog.panic v : Prog α).exec s = (.panicked v, s) := rfl

theorem exec_call {α : Type} (m : Bytes) (p : Except ApiError Bytes)
    (k : Except ApiError Bytes → Prog α) (s : Server) :
    (Prog.call m p k).exec s =
      (k (resultOf (Server.call m p s))).exec (stateOf (Server.call m p s)) := by
  simp only [Prog.exec]
  rcases Server.call m p s with ⟨a, s'⟩ | ⟨e, s'⟩ <;> rfl

theorem exec_bind {α β : Type} (p : Prog α) (f : α → Prog β) (s : Server) :
    (p.bind f).exec s =
      match p.exec s with
      | (.done a, s') => (f a).exec s'
      | (.panicked v, s') => (.panicked v, s') := by
  induction p generalizing s with
  | pure a => rfl
  | panic v => rfl
  | call m q k ih => simp only [Prog.bind, exec_call, ih]

/-- A handler's run changes only the streams, and only consumes input. -/
theorem exec_frame {α : Type} (p : Prog α) (s : Server) :
    s.StreamsOnly (p.exec s).2 ∧ (p.exec s).2.r <:+ s.r := by
  induction p generalizing s with
  | pure a => exact ⟨⟨rfl, rfl⟩, List.suffix_refl _⟩
  | panic v => exact ⟨⟨rfl, rfl⟩, List.suffix_refl _⟩
  | call m q k ih =>
    rw [exec_call]
    obtain ⟨hs, hr, -⟩ := call_state m q s
    obtain ⟨hs', hr'⟩ := ih (resultOf (Server.call m q s)) (stateOf (Server.call m q s))
    exact ⟨hs.trans hs', hr'.trans hr⟩

/-- After a failed write a handler's run writes nothing. -/
theorem exec_full {α : Type} (p : Prog α) {s : Server} (h : s.w.room = some 0) :
    (p.exec s).2.w = s.w := by
  induction p generalizing s with
  | pure a => rfl
  | panic v => rfl
  | call m q k ih =>
    rw [exec_call]
    have hw := call_full (m := m) (p := q) h
    rw [ih _ (hw ▸ h), hw]

/-- Whole Call envelopes, one after another. -/
def IsCalls (bs : Bytes) : Prop :=
  ∃ envs : List Envelope, (∀ e ∈ envs, e.messageType = messageTypeCall) ∧
    bs = (envs.map encodeMessage).flatten

theorem isCalls_nil : IsCalls [] := ⟨[], by simp, rfl⟩

theorem IsCalls.call {bs : Bytes} (m q : Bytes) (h : IsCalls bs) :
    IsCalls (encodeMessage ⟨messageTypeCall, m, q⟩ ++ bs) := by
  obtain ⟨envs, hk, rfl⟩ := h
  exact ⟨⟨messageTypeCall, m, q⟩ :: envs, by simpa using hk, by simp⟩

/-- A handler writes whole Call envelopes, and after them at most the start of one more, cut
off where the transport failed. -/
theorem exec_writes_calls {α : Type} (p : Prog α) (s : Server) :
    ∃ calls t, (p.exec s).2.w.out = s.w.out ++ calls ++ t ∧ IsCalls calls ∧
      (t = [] ∨ (p.exec s).2.w.room = some 0) := by
  induction p generalizing s with
  | pure a => exact ⟨[], [], by simp, isCalls_nil, .inl rfl⟩
  | panic v => exact ⟨[], [], by simp, isCalls_nil, .inl rfl⟩
  | call m q k ih =>
    rw [exec_call]
    set s₁ := stateOf (Server.call m q s)
    obtain ⟨calls, t, hout, hc, ht⟩ := ih (resultOf (Server.call m q s)) s₁
    obtain ⟨-, -, hw | ⟨q', hw⟩ | ⟨t₁, hw, hroom⟩⟩ := call_state m q s
    · exact ⟨calls, t, by rw [hout, hw], hc, ht⟩
    · exact ⟨_ ++ calls, t, by rw [hout, hw]; simp, hc.call m q', ht⟩
    · have hfull := exec_full (k (resultOf (Server.call m q s))) hroom
      exact ⟨[], t₁, by rw [hfull, hw]; simp, isCalls_nil, .inr (hfull ▸ hroom)⟩

/-! ## Routing of the bridged operations -/

/-- A host whose local side has a file and a package scope everywhere, and whose JSON text
knows the literal `null`, spaces around it allowed. -/
def sampleHost : Host where
  fs :=
    { directoryExists := fun _ => true
      fileExists := fun _ => true
      getAccessibleEntries := fun _ => ⟨[utf8 "index.ts"], []⟩
      readFile := fun _ => (utf8 "local", true)
      realpath := id }
  inner :=
    { getPackageJsonScopeIfApplicable := fun p => some ⟨p, true, none⟩
      getPackageScopeForPath := fun p => some ⟨p, true, none⟩
      resolveModuleName := fun _ _ _ _ => (none, [])
      resolveTypeReferenceDirective := fun _ _ _ _ => (none, []) }
  json :=
    { marshal := fun _ => .ok (utf8 "\"/\"")
      parse := fun b => if b.filter (· != 32) = utf8 "null" then .ok .null else .error (.json b)
      string := fun _ => .error (.json [])
      entries := fun _ => .error (.json [])
      packageJsonIfApplicable := fun _ => .error (.json [])
      infoCacheEntry := fun _ => .error (.json [])
      resolvedModule := fun _ => .error (.json [])
      resolvedTypeReferenceDirective := fun _ => .error (.json [])
      configureParams := fun _ => .error (.json []) }
  parsePackageJson := fun _ => .error (.json [])
  errorText := fun _ => []
  stack := []
  api := fun _ _ _ _ => .pure (.ok [])

/-- A server with `enabledCallbacks` whose client answers the call of `method` with
`reply`. -/
def replying (enabledCallbacks : Callback) (method : String) (reply : Bytes) : Server :=
  ⟨encodeMessage ⟨messageTypeCallResponse, utf8 method, reply⟩, ⟨[], none⟩, enabledCallbacks, 0⟩

/-- The reply `null` to `getAccessibleEntries` gives the local file system's entries, and the
reply ` null` to `readFile` gives an empty file that exists. -/
theorem getAccessibleEntries_null_reply :
    ((getAccessibleEntries sampleHost callbackGetAccessibleEntries (utf8 "/")).exec
      (replying callbackGetAccessibleEntries "getAccessibleEntries" (utf8 "null"))).1 =
        .done (sampleHost.fs.getAccessibleEntries (utf8 "/")) ∧
    sampleHost.fs.getAccessibleEntries (utf8 "/") = ⟨[utf8 "index.ts"], []⟩ ∧
    ((readFile sampleHost callbackReadFile (utf8 "/a.ts")).exec
      (replying callbackReadFile "readFile" (utf8 " null"))).1 = .done ([], true) :=
  ⟨rfl, rfl, rfl⟩

end ApiServer
