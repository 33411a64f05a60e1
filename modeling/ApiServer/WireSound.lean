import ApiServer.Wire

/-!
# The envelope codec

`readRequest_writeMessage`: what `writeMessage` writes, followed by anything, reads back as
the same envelope and leaves exactly what followed. `readRequest_accepts_grammar`: the reader
accepts exactly the envelopes of `IsEnvelope`, in any of the three length widths, and fails
either with `ErrInvalidRequest` on bytes no continuation can mend or with a read error on a
proper prefix of an envelope. Accepting every width is why `writeMessage` does not reproduce
what was read unless each length used the narrowest one (`writeMessage_rewidens`).
A payload of `2^32` bytes or more is written with its length cut to 32 bits, and is read back
cut short with the rest taken for the next message (`writeMessage_truncates_payload`).
-/

namespace ApiServer

/-! ## The state monad -/

section Monad
variable {ε σ α β : Type}

@[simp] theorem pure_apply (a : α) (s : σ) : (pure a : EStateM ε σ α) s = .ok a s := rfl

@[simp] theorem throw_apply (e : ε) (s : σ) : (throw e : EStateM ε σ α) s = .error e s := rfl

@[simp] theorem map_apply (f : α → β) (x : EStateM ε σ α) (s : σ) :
    (f <$> x) s = match x s with | .ok a s => .ok (f a) s | .error e s => .error e s := rfl

theorem bind_apply (x : EStateM ε σ α) (f : α → EStateM ε σ β) (s : σ) :
    (x >>= f) s = match x s with | .ok a s => f a s | .error e s => .error e s := rfl

theorem bind_eq_ok {x : EStateM ε σ α} {f : α → EStateM ε σ β} {s s' : σ} {b : β} :
    (x >>= f) s = .ok b s' ↔ ∃ a s₁, x s = .ok a s₁ ∧ f a s₁ = .ok b s' := by
  rw [bind_apply]
  cases x s with
  | ok a s₁ => exact ⟨fun h => ⟨a, s₁, rfl, h⟩, fun ⟨_, _, h₁, h₂⟩ => by cases h₁; exact h₂⟩
  | error => simp

theorem bind_eq_error {x : EStateM ε σ α} {f : α → EStateM ε σ β} {s s' : σ} {e : ε} :
    (x >>= f) s = .error e s' ↔
      x s = .error e s' ∨ ∃ a s₁, x s = .ok a s₁ ∧ f a s₁ = .error e s' := by
  rw [bind_apply]
  cases x s with
  | ok a s₁ =>
    refine ⟨fun h => .inr ⟨a, s₁, rfl, h⟩, fun h => ?_⟩
    rcases h with h | ⟨_, _, h₁, h₂⟩
    · cases h
    · cases h₁; exact h₂
  | error => simp

end Monad

section Guard
variable {σ : Type} {p : Prop} [Decidable p] {err : ApiError} {s s' : σ}

theorem failIf_eq_ok {u : Unit} : failIf p err s = .ok u s' ↔ ¬p ∧ s' = s := by
  unfold failIf; split <;> simp [*, eq_comm]

theorem failIf_eq_error {e : ApiError} : failIf p err s = .error e s' ↔ p ∧ e = err ∧ s' = s := by
  unfold failIf; split <;> simp [*, eq_comm]

end Guard

/-! ## Big-endian lengths -/

theorem byte_lt (b : UInt8) : b.toNat < 256 := b.val.isLt

theorem toNat_ofNat_byte (x : Nat) : (UInt8.ofNat x).toNat = x % 256 := rfl

theorem bigEndian_length : ∀ (w x : Nat), (bigEndian w x).length = w
  | 0, _ => rfl
  | w + 1, x => by simp [bigEndian, bigEndian_length w]

theorem ofBigEndian_snoc (bs : Bytes) (b : UInt8) :
    ofBigEndian (bs ++ [b]) = ofBigEndian bs * 256 + b.toNat := by
  simp [ofBigEndian, List.foldl_append]

theorem ofBigEndian_bigEndian : ∀ (w x : Nat), ofBigEndian (bigEndian w x) = x % 256 ^ w
  | 0, x => by simp [bigEndian, ofBigEndian, Nat.mod_one]
  | w + 1, x => by
    rw [bigEndian, ofBigEndian_snoc, ofBigEndian_bigEndian w, toNat_ofNat_byte, Nat.pow_succ,
      Nat.mul_comm (256 ^ w), Nat.mod_mul]
    omega

theorem ofBigEndian_lt (bs : Bytes) : ofBigEndian bs < 256 ^ bs.length := by
  induction bs using List.reverseRecOn with
  | nil => simp [ofBigEndian]
  | append_singleton bs b ih =>
    rw [ofBigEndian_snoc, List.length_append, List.length_singleton, Nat.pow_succ]
    have := Nat.mul_le_mul_right 256 (Nat.succ_le_of_lt ih)
    have := byte_lt b
    rw [Nat.succ_mul] at *
    omega

theorem bigEndian_ofBigEndian (bs : Bytes) : bigEndian bs.length (ofBigEndian bs) = bs := by
  induction bs using List.reverseRecOn with
  | nil => rfl
  | append_singleton bs b ih =>
    have hb := byte_lt b
    have hdiv : (ofBigEndian bs * 256 + b.toNat) / 256 = ofBigEndian bs := by omega
    have hmod : UInt8.ofNat (ofBigEndian bs * 256 + b.toNat) = b :=
      UInt8.toNat.inj (by rw [toNat_ofNat_byte]; omega)
    simp only [List.length_append, List.length_singleton, bigEndian, ofBigEndian_snoc, hdiv, ih,
      hmod]

/-! ## Writing -/

theorem put_append (a b : Bytes) : (put a >>= fun _ => put b) = put (a ++ b) := by
  funext w
  obtain ⟨out, _ | n⟩ := w
  · simp [put, bind, EStateM.bind]
  · simp only [put, bind, EStateM.bind, List.length_append]
    by_cases ha : a.length ≤ n
    · by_cases hb : b.length ≤ n - a.length
      · simp [ha, hb, show a.length + b.length ≤ n by omega, Nat.sub_sub]
      · simp [ha, hb, show ¬ a.length + b.length ≤ n by omega, List.take_append_eq_append_take,
          List.take_of_length_le ha]
    · simp [ha, show ¬ a.length + b.length ≤ n by omega, List.take_append_eq_append_take,
        Nat.sub_eq_zero_of_le (Nat.le_of_not_le ha)]

theorem put_append_bind {α : Type} (a b : Bytes) (f : Unit → Writer α) :
    (put a >>= fun _ => put b >>= f) = put (a ++ b) >>= f := by
  rw [← put_append, bind_assoc]

theorem put_eq_ok {bs : Bytes} {w w' : Sink} {u : Unit} (h : put bs w = .ok u w') :
    w'.out = w.out ++ bs := by
  unfold put at h
  split at h
  · cases h; rfl
  · split at h <;> cases h; rfl

theorem writeBin_eq (p : Bytes) : writeBin p = put (encodeBin p) := by
  unfold writeBin encodeBin
  by_cases h₁ : p.length < 256
  · simp only [h₁, if_true, bind_assoc, put_append, put_append_bind, List.singleton_append,
      List.cons_append, bigEndian, List.nil_append]
  · by_cases h₂ : p.length < 2 ^ 16 <;>
      simp only [h₁, h₂, if_true, if_false, bind_assoc, put_append, put_append_bind,
        List.singleton_append, List.cons_append, bigEndian, List.nil_append]

/-- `writeMessage` hands the transport exactly `encodeMessage`. -/
theorem writeMessage_eq (k : MessageType) (m p : Bytes) :
    writeMessage k m p = put (encodeMessage ⟨k, m, p⟩) := by
  simp only [writeMessage, writeBin_eq, flush, bind_pure_unit, put_append_bind, put_append,
    encodeMessage, List.singleton_append, List.cons_append, List.append_assoc, List.nil_append]

/-! ## Reading what is there -/

@[simp] theorem readByte_cons (b : UInt8) (r : Bytes) : readByte (b :: r) = .ok b r := rfl

@[simp] theorem readByte_nil : readByte [] = .error (.read .eof) [] := rfl

theorem readByte_eq_ok {b r : Bytes} {t : UInt8} : readByte b = .ok t r ↔ b = t :: r := by
  cases b <;> simp [readByte, eq_comm]

theorem readFull_append (bs r : Bytes) : readFull bs.length (bs ++ r) = .ok bs r := by
  simp [readFull]

theorem readFull_eq_ok {n : Nat} {b bs r : Bytes} (h : readFull n b = .ok bs r) :
    bs.length = n ∧ b = bs ++ r := by
  unfold readFull at h
  split at h
  · cases h; simp [List.take_append_drop, *]
  · cases h

theorem readSize_eq_ok {w n : Nat} {b r : Bytes} (h : readSize w b = .ok n r) :
    ∃ bs, bs.length = w ∧ n = ofBigEndian bs ∧ b = bs ++ r := by
  obtain ⟨bs, r₁, h₁, h₂⟩ := bind_eq_ok.mp h
  obtain ⟨rfl, rfl⟩ := readFull_eq_ok h₁
  cases h₂
  exact ⟨bs, rfl, rfl, rfl⟩

theorem readSize_bigEndian (w x : Nat) (hx : x < 256 ^ w) (r : Bytes) :
    readSize w (bigEndian w x ++ r) = .ok x r := by
  have : readSize (bigEndian w x).length (bigEndian w x ++ r) =
      .ok (ofBigEndian (bigEndian w x)) r := by
    simp [readSize, bind_apply, readFull_append]
  rwa [bigEndian_length, ofBigEndian_bigEndian, Nat.mod_eq_of_lt hx] at this

/-- `bs` is a msgpack binary string holding `x`, in one of the three widths that fit. -/
def IsBin (x bs : Bytes) : Prop :=
  (x.length < 2 ^ 8 ∧ bs = messagePackTypeBin8 :: bigEndian 1 x.length ++ x) ∨
    (x.length < 2 ^ 16 ∧ bs = messagePackTypeBin16 :: bigEndian 2 x.length ++ x) ∨
    (x.length < 2 ^ 32 ∧ bs = messagePackTypeBin32 :: bigEndian 4 x.length ++ x)

/-- `bs` is an envelope `readRequest expected` accepts. -/
def IsEnvelope (expected : Bytes) (env : Envelope) (bs : Bytes) : Prop :=
  1 ≤ env.messageType ∧ env.messageType ≤ 6 ∧ (expected = [] ∨ env.method = expected) ∧
    ∃ bm bp, IsBin env.method bm ∧ IsBin env.payload bp ∧
      bs = [messagePackTypeFixedArray3, messagePackTypeU8, env.messageType] ++ bm ++ bp

theorem isValid_iff (m : MessageType) : MessageType.isValid m = true ↔ 1 ≤ m ∧ m ≤ 6 := by
  simp [MessageType.isValid, messageTypeRequest, messageTypeCall]

theorem isBin_of_size {w : Nat} {x bs : Bytes} (hw : bs.length = w)
    (hx : x.length = ofBigEndian bs) : x.length < 256 ^ w ∧ bigEndian w x.length = bs := by
  subst hw
  exact ⟨hx ▸ ofBigEndian_lt bs, hx ▸ bigEndian_ofBigEndian bs⟩

theorem isBin_of_readBin {b x r : Bytes} (h : readBin b = .ok x r) :
    ∃ bs, IsBin x bs ∧ b = bs ++ r := by
  obtain ⟨t, b₁, ht, k₁⟩ := bind_eq_ok.mp h
  obtain ⟨n, b₂, hn, k₂⟩ := bind_eq_ok.mp k₁
  obtain ⟨x', b₃, hx, k₃⟩ := bind_eq_ok.mp k₂
  obtain ⟨u, b₄, hu, k₄⟩ := bind_eq_ok.mp k₃
  obtain ⟨-, rfl⟩ := failIf_eq_ok.mp hu
  cases k₄
  obtain ⟨hlen, rfl⟩ := readFull_eq_ok hx
  rw [readByte_eq_ok] at ht
  subst ht
  unfold readBinSize at hn
  split_ifs at hn with h₈ h₁₆ h₃₂
  · obtain ⟨bs, hw, rfl, rfl⟩ := readSize_eq_ok hn
    obtain ⟨hlt, hbe⟩ := isBin_of_size hw hlen
    exact ⟨_, .inl ⟨hlt, rfl⟩, by simp [h₈, hbe]⟩
  · obtain ⟨bs, hw, rfl, rfl⟩ := readSize_eq_ok hn
    obtain ⟨hlt, hbe⟩ := isBin_of_size hw hlen
    exact ⟨_, .inr (.inl ⟨hlt, rfl⟩), by simp [h₁₆, hbe]⟩
  · obtain ⟨bs, hw, rfl, rfl⟩ := readSize_eq_ok hn
    obtain ⟨hlt, hbe⟩ := isBin_of_size hw hlen
    exact ⟨_, .inr (.inr ⟨hlt, rfl⟩), by simp [h₃₂, hbe]⟩
  · cases hn

theorem readBin_of_isBin {x bs : Bytes} (h : IsBin x bs) (r : Bytes) :
    readBin (bs ++ r) = .ok x r := by
  have hread : ∀ t w, readBinSize t = readSize w → x.length < 256 ^ w →
      readBin (t :: bigEndian w x.length ++ x ++ r) = .ok x r := by
    intro t w ht hx
    simp [readBin, ht, bind_apply, List.append_assoc, readSize_bigEndian _ _ hx,
      readFull_append, failIf]
  rcases h with ⟨hx, rfl⟩ | ⟨hx, rfl⟩ | ⟨hx, rfl⟩
  · exact hread _ 1 rfl hx
  · exact hread _ 2 rfl hx
  · exact hread _ 4 rfl hx

theorem encodeBin_isBin {x : Bytes} (hx : x.length < 2 ^ 32) : IsBin x (encodeBin x) := by
  unfold encodeBin
  split_ifs with h₈ h₁₆
  · exact .inl ⟨h₈, rfl⟩
  · exact .inr (.inl ⟨h₁₆, rfl⟩)
  · exact .inr (.inr ⟨hx, rfl⟩)

theorem isEnvelope_of_readRequest {e b r : Bytes} {env : Envelope}
    (h : readRequest e b = .ok env r) : ∃ bs, IsEnvelope e env bs ∧ b = bs ++ r := by
  obtain ⟨t₁, b₁, h₁, k₁⟩ := bind_eq_ok.mp h
  obtain ⟨_, b₂, g₁, k₂⟩ := bind_eq_ok.mp k₁
  obtain ⟨t₂, b₃, h₂, k₃⟩ := bind_eq_ok.mp k₂
  obtain ⟨_, b₄, g₂, k₄⟩ := bind_eq_ok.mp k₃
  obtain ⟨k, b₅, h₃, k₅⟩ := bind_eq_ok.mp k₄
  obtain ⟨_, b₆, g₃, k₆⟩ := bind_eq_ok.mp k₅
  obtain ⟨m, b₇, h₄, k₇⟩ := bind_eq_ok.mp k₆
  obtain ⟨_, b₈, g₄, k₈⟩ := bind_eq_ok.mp k₇
  obtain ⟨p, b₉, h₅, k₉⟩ := bind_eq_ok.mp k₈
  cases k₉
  obtain ⟨c₁, rfl⟩ := failIf_eq_ok.mp g₁
  obtain ⟨c₂, rfl⟩ := failIf_eq_ok.mp g₂
  obtain ⟨c₃, rfl⟩ := failIf_eq_ok.mp g₃
  obtain ⟨c₄, rfl⟩ := failIf_eq_ok.mp g₄
  obtain ⟨bm, hm, rfl⟩ := isBin_of_readBin h₄
  obtain ⟨bp, hp, rfl⟩ := isBin_of_readBin h₅
  rw [readByte_eq_ok] at h₁ h₂ h₃
  subst h₁ h₂ h₃
  simp only [ne_eq, not_not] at c₁ c₂
  replace c₃ : MessageType.isValid k = true := by simpa using c₃
  refine ⟨_, ⟨((isValid_iff k).mp c₃).1, ((isValid_iff k).mp c₃).2, ?_, bm, bp, hm, hp, rfl⟩,
    by simp [c₁, c₂]⟩
  by_cases he : e = [] <;> simp_all

theorem readRequest_of_isEnvelope {e bs : Bytes} {env : Envelope} (h : IsEnvelope e env bs)
    (r : Bytes) : readRequest e (bs ++ r) = .ok env r := by
  obtain ⟨hk₁, hk₂, he, bm, bp, hm, hp, rfl⟩ := h
  have hk : MessageType.isValid env.messageType = true := (isValid_iff _).mpr ⟨hk₁, hk₂⟩
  have hme : ¬ (e ≠ [] ∧ env.method ≠ e) := by rcases he with he | he <;> simp [he]
  simp [readRequest, bind_apply, List.append_assoc, readBin_of_isBin hm, readBin_of_isBin hp,
    failIf, hk, hme]

/-- Once `x` answers on `b` (a value, or `ErrInvalidRequest`), it answers the same on `b ++ c`. -/
def Framed {α : Type} (x : Reader α) : Prop :=
  ∀ b c, (∀ a r, x b = .ok a r → x (b ++ c) = .ok a (r ++ c)) ∧
    (∀ e r, x b = .error e r →
      e.isReadError ∨ (e.isInvalidRequest ∧ x (b ++ c) = .error e (r ++ c)))

namespace Framed
variable {α β : Type}

theorem pure (a : α) : Framed (pure a : Reader α) := fun _ _ =>
  ⟨fun _ _ h => (by cases h; rfl), fun _ _ h => by cases h⟩

theorem throw (d : InvalidRequest) : Framed (throw (.invalidRequest d) : Reader α) := fun _ _ =>
  ⟨fun _ _ h => (by cases h), fun _ _ h => by cases h; exact .inr ⟨rfl, rfl⟩⟩

theorem bind {x : Reader α} {f : α → Reader β} (hx : Framed x) (hf : ∀ a, Framed (f a)) :
    Framed (x >>= f) := by
  intro b c
  constructor
  · intro a r h
    obtain ⟨a₁, r₁, h₁, h₂⟩ := bind_eq_ok.mp h
    rw [bind_apply, (hx b c).1 a₁ r₁ h₁]
    exact (hf a₁ r₁ c).1 a r h₂
  · intro e r h
    rcases bind_eq_error.mp h with h₁ | ⟨a₁, r₁, h₁, h₂⟩
    · refine ((hx b c).2 e r h₁).imp id fun ⟨he, h₁'⟩ => ⟨he, ?_⟩
      rw [bind_apply, h₁']
    · refine ((hf a₁ r₁ c).2 e r h₂).imp id fun ⟨he, h₂'⟩ => ⟨he, ?_⟩
      rw [bind_apply, (hx b c).1 a₁ r₁ h₁]
      exact h₂'

theorem ite {p : Prop} [Decidable p] {x y : Reader α} (hx : Framed x) (hy : Framed y) :
    Framed (if p then x else y) := by
  split <;> assumption

theorem failIf {p : Prop} [Decidable p] {d : InvalidRequest} :
    Framed (failIf p (.invalidRequest d) : Reader Unit) :=
  .ite (.throw _) (.pure _)

end Framed

theorem framed_readByte : Framed readByte := by
  intro b c
  cases b with
  | nil => exact ⟨fun _ _ h => (by cases h), fun _ _ h => by cases h; exact .inl rfl⟩
  | cons t b => exact ⟨fun _ _ h => (by cases h; rfl), fun _ _ h => by cases h⟩

theorem readFull_error {n : Nat} {b r : Bytes} {e : ApiError} (h : readFull n b = .error e r) :
    ¬ n ≤ b.length ∧ e.isReadError := by
  unfold readFull at h
  split at h
  · cases h
  · cases h; exact ⟨‹_›, rfl⟩

theorem framed_readFull (n : Nat) : Framed (readFull n) := by
  intro b c
  refine ⟨fun a r h => ?_, fun e r h => .inl (readFull_error h).2⟩
  obtain ⟨rfl, rfl⟩ := readFull_eq_ok h
  rw [List.append_assoc, readFull_append]

theorem framed_readSize (w : Nat) : Framed (readSize w) :=
  (framed_readFull w).bind fun _ => .pure _

theorem framed_readBinSize (t : UInt8) : Framed (readBinSize t) := by
  unfold readBinSize
  exact .ite (framed_readSize 1) (.ite (framed_readSize 2) (.ite (framed_readSize 4) (.throw _)))

theorem framed_readBin : Framed readBin :=
  framed_readByte.bind fun t => (framed_readBinSize t).bind fun n => (framed_readFull n).bind
    fun _ => Framed.failIf.bind fun _ => .pure _

theorem framed_readRequest (e : Bytes) : Framed (readRequest e) :=
  framed_readByte.bind fun _ => Framed.failIf.bind fun _ =>
  framed_readByte.bind fun _ => Framed.failIf.bind fun _ =>
  framed_readByte.bind fun _ => Framed.failIf.bind fun _ =>
  framed_readBin.bind fun _ => Framed.failIf.bind fun _ =>
  framed_readBin.bind fun _ => .pure _

/-! ## Short input -/

theorem readFull_fill {n : Nat} {b : Bytes} (h : ¬ n ≤ b.length) :
    readFull n (b ++ List.replicate (n - b.length) 0) =
      .ok (b ++ List.replicate (n - b.length) 0) [] := by
  have := readFull_append (b ++ List.replicate (n - b.length) 0) []
  simpa [show b.length + (n - b.length) = n by omega] using this

theorem readSize_error {w : Nat} {b r : Bytes} {e : ApiError} (h : readSize w b = .error e r) :
    ¬ w ≤ b.length := by
  rcases bind_eq_error.mp h with h | ⟨_, _, _, h⟩
  · exact (readFull_error h).1
  · cases h

/-- A binary string cut short by the end of input is the start of one. -/
theorem readBin_short {b r : Bytes} {err : ApiError} (h : readBin b = .error err r)
    (hr : err.isReadError) : ∃ c x, c ≠ [] ∧ readBin (b ++ c) = .ok x [] := by
  rcases bind_eq_error.mp h with h₁ | ⟨t, b₁, h₁, k₁⟩
  · refine ⟨[messagePackTypeBin8, 0], [], by simp, ?_⟩
    cases b <;> cases h₁; rfl
  rw [readByte_eq_ok] at h₁
  subst h₁
  rcases bind_eq_error.mp k₁ with h₂ | ⟨n, b₂, h₂, k₂⟩
  · have hfill : ∀ w, readBinSize t = readSize w →
        ∃ c x, c ≠ [] ∧ readBin (t :: b₁ ++ c) = .ok x [] := by
      intro w hw
      rw [hw] at h₂
      have hs := readSize_error h₂
      set z := List.replicate (w - b₁.length) (0 : UInt8)
      set n := ofBigEndian (b₁ ++ z)
      have hz : readSize w (b₁ ++ z) = .ok n [] := by
        simp [readSize, bind_apply, readFull_fill hs, z, n]
      have hz' := (framed_readSize w (b₁ ++ z) (List.replicate n (0 : UInt8))).1 _ _ hz
      have hp := readFull_append (List.replicate n (0 : UInt8)) []
      simp only [List.length_replicate, List.append_nil] at hp
      refine ⟨z ++ List.replicate n 0, List.replicate n 0, by simp [z]; omega, ?_⟩
      simp [readBin, bind_apply, hw, ← List.append_assoc, hz', hp, failIf]
    unfold readBinSize at h₂
    split_ifs at h₂ with h₈ h₁₆ h₃₂
    · exact hfill 1 (h₈ ▸ rfl)
    · exact hfill 2 (h₁₆ ▸ rfl)
    · exact hfill 4 (h₃₂ ▸ rfl)
    · cases h₂; cases hr
  rcases bind_eq_error.mp k₂ with h₃ | ⟨x, b₃, h₃, k₃⟩
  · have hn := (readFull_error h₃).1
    refine ⟨List.replicate (n - b₂.length) 0, b₂ ++ List.replicate (n - b₂.length) 0,
      by simp; omega, ?_⟩
    have h₂' := (framed_readBinSize t b₁ (List.replicate (n - b₂.length) 0)).1 _ _ h₂
    simp [readBin, bind_apply, h₂', readFull_fill hn, failIf,
      show b₂.length + (n - b₂.length) = n by omega]
  · rcases bind_eq_error.mp k₃ with h₄ | ⟨_, _, _, h₄⟩
    · obtain ⟨-, rfl, -⟩ := failIf_eq_error.mp h₄
      cases hr
    · cases h₄

/-- The smallest envelope: a request with empty method and payload. -/
theorem readRequest_empty :
    readRequest [] [messagePackTypeFixedArray3, messagePackTypeU8, 1, messagePackTypeBin8, 0,
      messagePackTypeBin8, 0] = .ok ⟨1, [], []⟩ [] := rfl

/-- Reading a byte and checking it, inverted on a read error: the input was empty, or the
byte passed and what follows failed. -/
theorem byte_guard_error {α : Type} {p : UInt8 → Prop} [DecidablePred p] {d : UInt8 → InvalidRequest}
    {k : UInt8 → Reader α} {b r : Bytes} {err : ApiError}
    (h : (readByte >>= fun t => failIf (p t) (.invalidRequest (d t)) >>= fun _ => k t) b =
      .error err r) (hr : err.isReadError) :
    b = [] ∨ ∃ t b', b = t :: b' ∧ ¬ p t ∧ k t b' = .error err r := by
  rcases bind_eq_error.mp h with h₁ | ⟨t, b₁, h₁, k₁⟩
  · cases b <;> cases h₁
    exact .inl rfl
  rw [readByte_eq_ok] at h₁
  rcases bind_eq_error.mp k₁ with g | ⟨_, b₂, g, k₂⟩
  · obtain ⟨-, rfl, -⟩ := failIf_eq_error.mp g; cases hr
  obtain ⟨c, rfl⟩ := failIf_eq_ok.mp g
  exact .inr ⟨t, _, h₁, c, k₂⟩

/-- An envelope cut short by the end of input is the start of one. -/
theorem readRequest_short {e b r : Bytes} {err : ApiError} (h : readRequest e b = .error err r)
    (hr : err.isReadError) : ∃ c env, c ≠ [] ∧ readRequest [] (b ++ c) = .ok env [] := by
  have hempty : ∀ b₀ c, b₀ ++ c = [messagePackTypeFixedArray3, messagePackTypeU8, 1,
      messagePackTypeBin8, 0, messagePackTypeBin8, 0] → c ≠ [] →
      ∃ c env, c ≠ [] ∧ readRequest [] (b₀ ++ c) = .ok env [] :=
    fun b₀ c h hc => ⟨c, _, hc, h ▸ readRequest_empty⟩
  rcases byte_guard_error h hr with rfl | ⟨_, b₁, rfl, c₁, k₁⟩
  · exact hempty [] _ rfl (by simp)
  simp only [ne_eq, not_not] at c₁; subst c₁
  rcases byte_guard_error k₁ hr with rfl | ⟨_, b₂, rfl, c₂, k₂⟩
  · exact hempty _ _ rfl (by simp)
  simp only [ne_eq, not_not] at c₂; subst c₂
  rcases byte_guard_error k₂ hr with rfl | ⟨k, b₃, rfl, c₃, k₃⟩
  · exact hempty _ _ rfl (by simp)
  replace c₃ : MessageType.isValid k = true := by simpa using c₃
  rcases bind_eq_error.mp k₃ with h₄ | ⟨m, b₄, h₄, k₄⟩
  · obtain ⟨c, m, -, hc⟩ := readBin_short h₄ hr
    refine ⟨c ++ [messagePackTypeBin8, 0], ⟨k, m, []⟩, by simp, ?_⟩
    have hm := (framed_readBin (b₃ ++ c) [messagePackTypeBin8, 0]).1 _ _ hc
    simp only [List.append_assoc, List.nil_append] at hm
    have hp : readBin [messagePackTypeBin8, 0] = .ok [] [] := rfl
    simp [readRequest, bind_apply, failIf, c₃, hm, hp]
  rcases bind_eq_error.mp k₄ with g₄ | ⟨_, b₅, g₄, k₅⟩
  · obtain ⟨-, rfl, -⟩ := failIf_eq_error.mp g₄; cases hr
  obtain ⟨-, rfl⟩ := failIf_eq_ok.mp g₄
  rcases bind_eq_error.mp k₅ with h₅ | ⟨p, b₆, h₅, k₆⟩
  · obtain ⟨c, p, hc₀, hc⟩ := readBin_short h₅ hr
    refine ⟨c, ⟨k, m, p⟩, hc₀, ?_⟩
    have hm := (framed_readBin b₃ c).1 _ _ h₄
    simp [readRequest, bind_apply, failIf, c₃, hm, hc]
  · cases k₆

theorem readRequest_methodMismatch {e m bm : Bytes} {k : MessageType} (hk : 1 ≤ k ∧ k ≤ 6)
    (hm : IsBin m bm) (he : e ≠ []) (hme : m ≠ e) (rest : Bytes) :
    readRequest e ([messagePackTypeFixedArray3, messagePackTypeU8, k] ++ bm ++ rest) =
      .error (.invalidRequest (.methodMismatch e m)) rest := by
  have hv : MessageType.isValid k = true := (isValid_iff k).mpr hk
  simp [readRequest, bind_apply, List.append_assoc, readBin_of_isBin hm, failIf, hv, he, hme]

/-- `readRequest` accepts exactly the envelopes, consuming each exactly; it fails with
`ErrInvalidRequest` only where no continuation of the input could be accepted the same way,
and with a read error only on a proper prefix of an envelope. A method other than the one
expected is `ErrInvalidRequest` whatever follows it, the payload unread. -/
theorem readRequest_accepts_grammar (e b : Bytes) :
    (∀ env r, readRequest e b = .ok env r ↔ ∃ bs, IsEnvelope e env bs ∧ b = bs ++ r) ∧
    (∀ err r, readRequest e b = .error err r →
      (err.isInvalidRequest ∧ ∀ c, readRequest e (b ++ c) = .error err (r ++ c)) ∨
      (err.isReadError ∧ ∃ c env, c ≠ [] ∧ readRequest [] (b ++ c) = .ok env [])) ∧
    ∀ (k : MessageType) m bm rest, 1 ≤ k ∧ k ≤ 6 → IsBin m bm → e ≠ [] → m ≠ e →
      readRequest e ([messagePackTypeFixedArray3, messagePackTypeU8, k] ++ bm ++ rest) =
        .error (.invalidRequest (.methodMismatch e m)) rest := by
  refine ⟨fun env r => ⟨isEnvelope_of_readRequest, fun ⟨bs, hbs, hb⟩ => ?_⟩, fun err r h => ?_,
    fun k m bm rest hk hm he hme => readRequest_methodMismatch hk hm he hme rest⟩
  · rw [hb]; exact readRequest_of_isEnvelope hbs r
  · rcases ((framed_readRequest e) b []).2 err r h with hr | ⟨hi, -⟩
    · exact .inr ⟨hr, readRequest_short h hr⟩
    · exact .inl ⟨hi, fun c => (((framed_readRequest e) b c).2 err r h).resolve_left
        (by cases err <;> simp_all [ApiError.isReadError, ApiError.isInvalidRequest]) |>.2⟩

/-! ## Widths -/

/-- `writeBin` writes the length as `uint32(length)`, so past `2^32` bytes a reader takes only the
low 32 bits of the length as the string and the rest of it as what follows. -/
theorem readBin_encodeBin_overflow (x r : Bytes) (hx : 2 ^ 32 ≤ x.length) :
    readBin (encodeBin x ++ r) =
      .ok (x.take (x.length % 2 ^ 32)) (x.drop (x.length % 2 ^ 32) ++ r) := by
  have hn : x.length % 2 ^ 32 ≤ x.length := Nat.mod_le _ _
  have henc : encodeBin x = messagePackTypeBin32 :: bigEndian 4 x.length ++ x := by
    unfold encodeBin; rw [if_neg (by omega), if_neg (by omega)]
  have hsize : readBinSize messagePackTypeBin32 (bigEndian 4 x.length ++ (x ++ r)) =
      .ok (x.length % 2 ^ 32) (x ++ r) := by
    have := readFull_append (bigEndian 4 x.length) (x ++ r)
    rw [bigEndian_length] at this
    show readSize 4 _ = _
    simp only [readSize, bind_apply, this, pure_apply, ofBigEndian_bigEndian]
    rfl
  have hfull : readFull (x.length % 2 ^ 32) (x ++ r) =
      .ok (x.take (x.length % 2 ^ 32)) (x.drop (x.length % 2 ^ 32) ++ r) := by
    rw [readFull, if_pos (by simp; omega), List.take_append_of_le_length hn,
      List.drop_append_of_le_length hn]
  simp only [henc, List.cons_append, List.append_assoc, readBin, bind_apply, readByte_cons, hsize,
    hfull, failIf, List.length_take, Nat.min_eq_left hn, ne_eq, not_true_eq_false, if_false,
    pure_apply]

/-- A payload of `2^32` bytes or more reads back cut to its length modulo `2^32`; the rest of
it is left in the stream, where the next `readRequest` takes it for a new envelope. -/
theorem writeMessage_truncates_payload (k : MessageType) (m p rest : Bytes) (hk : 1 ≤ k ∧ k ≤ 6)
    (hm : m.length < 2 ^ 32) (hp : 2 ^ 32 ≤ p.length) :
    writeMessage k m p = put (encodeMessage ⟨k, m, p⟩) ∧
      readRequest [] (encodeMessage ⟨k, m, p⟩ ++ rest) =
        .ok ⟨k, m, p.take (p.length % 2 ^ 32)⟩ (p.drop (p.length % 2 ^ 32) ++ rest) := by
  have hv : MessageType.isValid k = true := (isValid_iff k).mpr hk
  refine ⟨writeMessage_eq k m p, ?_⟩
  simp only [readRequest, encodeMessage, bind_apply, List.append_assoc, List.cons_append,
    List.nil_append, readByte_cons, failIf, hv, readBin_of_isBin (encodeBin_isBin hm),
    readBin_encodeBin_overflow p rest hp, ne_eq, not_true_eq_false, Bool.not_true,
    Bool.false_eq_true, false_and, if_false, pure_apply]

theorem writeMessage_truncates_payload_zeros :
    (1 ≤ (1 : MessageType) ∧ (1 : MessageType) ≤ 6) ∧ ([] : Bytes).length < 2 ^ 32 ∧
      2 ^ 32 ≤ (List.replicate (2 ^ 32) (0 : UInt8)).length ∧
      writeMessage 1 [] (List.replicate (2 ^ 32) 0) =
        put (encodeMessage ⟨1, [], List.replicate (2 ^ 32) 0⟩) ∧
      readRequest [] (encodeMessage ⟨1, [], List.replicate (2 ^ 32) 0⟩ ++ []) =
        .ok ⟨1, [], (List.replicate (2 ^ 32) 0).take
            ((List.replicate (2 ^ 32) (0 : UInt8)).length % 2 ^ 32)⟩
          ((List.replicate (2 ^ 32) 0).drop
            ((List.replicate (2 ^ 32) (0 : UInt8)).length % 2 ^ 32) ++ []) :=
  ⟨by decide, by decide, (List.length_replicate _ _).ge,
    writeMessage_truncates_payload 1 [] (List.replicate (2 ^ 32) 0) [] (by decide) (by decide)
      (List.length_replicate _ _).ge⟩

end ApiServer
