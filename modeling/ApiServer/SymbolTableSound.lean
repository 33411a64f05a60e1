import ApiServer.SymbolTable

/-!
# Symbol tables: what a write can reach

A write through a table changes the map that table refers to and no other. So over any run of
`Set` and `Delete`, each map ends with exactly the writes made through the tables that share it.
A run panics only by setting through a nil map (`runWrites_contents`). `Clone` allocates a map
that no earlier table shares, so the copy and the original never see each other's writes
(`clone_isolated`). `Find` returns a stored symbol that satisfies its predicate, whatever order
the runtime ranges in. It returns nil if none does, and its answer depends on the order only
when different symbols satisfy the predicate (`find_range`). Last, no UTF-8 text contains the
byte `0xFE`. So no identifier can collide with an internal symbol name built on
`InternalSymbolNamePrefix` (`utf8_avoids_internalSymbolNames`).
-/

namespace ApiServer

/-! ## Internal symbol names -/

theorem uint8_or_toNat (a b : UInt8) : (a ||| b).toNat = a.toNat ||| b.toNat := BitVec.toNat_or ..

/-- A byte `x &&& m ||| t` is not `0xFE` when `m` and `t` both clear a bit that `0xFE` sets. -/
theorem masked_ne_FE (x m t : UInt8) (i : Nat) (hm : m.toNat.testBit i = false)
    (ht : t.toNat.testBit i = false) (hfe : (0xFE : UInt8).toNat.testBit i = true) :
    x &&& m ||| t ≠ 0xFE := fun h => by
  have := congrArg (fun b : UInt8 => b.toNat.testBit i) h
  simp only [uint8_or_toNat, UInt8.and_toNat, Nat.testBit_or, Nat.testBit_and, hm, ht, hfe,
    Bool.and_false, Bool.or_false] at this
  cases this

/-- A continuation byte `10xxxxxx` is not `0xFE`. -/
theorem continuation_ne_FE (x : UInt8) : (0xFE : UInt8) ≠ x &&& 63 ||| 128 :=
  (masked_ne_FE _ 63 128 6 rfl rfl rfl).symm

theorem FE_not_mem_utf8EncodeChar (c : Char) : (0xFE : UInt8) ∉ String.utf8EncodeChar c := by
  unfold String.utf8EncodeChar
  dsimp only
  split_ifs with h₁ h₂ h₃
  · intro h
    have h' : (254 : Nat) = c.val.toNat % 256 := congrArg UInt8.toNat (List.mem_singleton.mp h)
    have hv : c.val.toNat ≤ 0x7f := by simpa [UInt32.le_def] using h₁
    omega
  all_goals simp only [List.mem_cons, List.mem_singleton, List.not_mem_nil, or_false, not_or]
  · exact ⟨(masked_ne_FE _ 31 192 5 rfl rfl rfl).symm, continuation_ne_FE _⟩
  · exact ⟨(masked_ne_FE _ 15 224 4 rfl rfl rfl).symm, continuation_ne_FE _, continuation_ne_FE _⟩
  · exact ⟨(masked_ne_FE _ 7 240 3 rfl rfl rfl).symm, continuation_ne_FE _, continuation_ne_FE _,
      continuation_ne_FE _⟩

theorem FE_not_mem_utf8 (s : String) : (0xFE : UInt8) ∉ utf8 s := by
  show (0xFE : UInt8) ∉ s.data.flatMap String.utf8EncodeChar
  simp only [List.mem_flatMap, not_exists, not_and]
  exact fun c _ => FE_not_mem_utf8EncodeChar c

theorem prefixed_head : ∀ n ∈ prefixedInternalSymbolNames, n.head? = some 0xFE := by decide

/-- No UTF-8 text holds the byte `0xFE`. So none contains, let alone equals, an internal symbol
name built on `InternalSymbolNamePrefix`, whatever identifier or string it spells. -/
theorem utf8_avoids_internalSymbolNames (s : String) :
    (0xFE : UInt8) ∉ utf8 s ∧ ∀ n ∈ prefixedInternalSymbolNames, ¬ n <:+: utf8 s := by
  refine ⟨FE_not_mem_utf8 s, fun n hn hinf => FE_not_mem_utf8 s (hinf.subset ?_)⟩
  exact List.mem_of_mem_head? (prefixed_head n hn)

/-! ## The heap -/

namespace MapHeap

@[simp] theorem contents_none (H : MapHeap) : H.contents none = ∅ := rfl

theorem contents_update (H : MapHeap) (r : Nat) (f : GoMap → GoMap) (m : MapRef) :
    (H.update r f).contents m = if some r = m then f (H.maps r) else H.contents m := by
  cases m with
  | none => rfl
  | some r' =>
    by_cases h : r = r'
    · subst h; simp [update, contents]
    · simp [update, contents, Function.update_noteq (Ne.symm h), h]

end MapHeap

/-- A write through a table: `Set` or `Delete`. -/
inductive SymbolWrite
  | set (name : Bytes) (symbol : SymbolPtr)
  | delete (name : Bytes)

/-- What a write does to the entries of the map it goes to. -/
def SymbolWrite.apply : SymbolWrite → GoMap → GoMap
  | .set name symbol, m => m.insert name symbol
  | .delete name, m => m.erase name

/-- The method call that makes the write through `t`. -/
def SymbolWrite.run (H : MapHeap) (t : SymbolMap) : SymbolWrite → Except Bytes MapHeap
  | .set name symbol => SymbolMap.set H t name symbol
  | .delete name => .ok (SymbolMap.delete H t name)

/-- Writes made one after another, each through its table; the first panic ends the run. -/
def runWrites (H : MapHeap) : List (SymbolMap × SymbolWrite) → Except Bytes MapHeap
  | [] => .ok H
  | (t, w) :: ws => (w.run H t).bind fun H => runWrites H ws

/-- A write changes the map its table refers to, as `apply` says, and no other. -/
theorem SymbolWrite.run_contents {H H' : MapHeap} {t : SymbolMap} {w : SymbolWrite}
    (h : w.run H t = .ok H') (m : MapRef) :
    H'.contents m = if t.m = m then w.apply (H.contents m) else H.contents m := by
  rcases t with ⟨_ | r⟩ <;> cases w <;> simp only [run, SymbolMap.set, SymbolMap.delete] at h <;>
    cases h
  · by_cases hm : none = m
    · subst hm; rfl
    · rw [if_neg hm]
  all_goals
    rw [MapHeap.contents_update]
    split_ifs with hm <;> first | rfl | (subst hm; rfl)

theorem SymbolWrite.run_eq_error {H : MapHeap} {t : SymbolMap} {w : SymbolWrite} {e : Bytes}
    (h : w.run H t = .error e) :
    e = nilMapAssignment ∧ t = ⟨none⟩ ∧ ∃ name symbol, w = .set name symbol := by
  rcases t with ⟨_ | r⟩ <;> cases w <;> simp only [run, SymbolMap.set, SymbolMap.delete] at h <;>
    cases h
  exact ⟨rfl, rfl, _, _, rfl⟩

theorem runWrites_cons {H H' : MapHeap} {t : SymbolMap} {w : SymbolWrite}
    {ws : List (SymbolMap × SymbolWrite)} (h : runWrites H ((t, w) :: ws) = .ok H') :
    ∃ H₁, w.run H t = .ok H₁ ∧ runWrites H₁ ws = .ok H' := by
  simp only [runWrites] at h
  rcases h₁ : w.run H t with e | H₁ <;> rw [h₁] at h
  · cases h
  · exact ⟨H₁, rfl, h⟩

/-- A run of writes panics exactly when one of them sets through a table over a nil map, and
then with Go's nil map message. Otherwise every map ends with the entries it started with and
the writes made through the tables that share it applied in order, and with no others. -/
theorem runWrites_contents (H : MapHeap) (ws : List (SymbolMap × SymbolWrite)) :
    (∀ e, runWrites H ws = .error e →
      e = nilMapAssignment ∧ ∃ name symbol, (⟨none⟩, SymbolWrite.set name symbol) ∈ ws) ∧
    ((∀ name symbol, ((⟨none⟩ : SymbolMap), SymbolWrite.set name symbol) ∉ ws) →
      ∃ H', runWrites H ws = .ok H') ∧
    ∀ H', runWrites H ws = .ok H' → ∀ m : MapRef,
      H'.contents m = ((ws.filter fun w => decide (w.1.m = m)).map Prod.snd).foldl
        (fun c w => w.apply c) (H.contents m) := by
  induction ws generalizing H with
  | nil => exact ⟨(fun e h => nomatch h), fun _ => ⟨H, rfl⟩, fun H' h m => by cases h; rfl⟩
  | cons tw ws ih =>
    obtain ⟨t, w⟩ := tw
    refine ⟨fun e h => ?_, fun hset => ?_, fun H' h m => ?_⟩
    · simp only [runWrites] at h
      rcases h₁ : w.run H t with e₁ | H₁ <;> rw [h₁] at h
      · cases h
        obtain ⟨he, rfl, name, symbol, rfl⟩ := SymbolWrite.run_eq_error h₁
        exact ⟨he, name, symbol, List.mem_cons_self _ _⟩
      · obtain ⟨he, name, symbol, hmem⟩ := (ih H₁).1 e h
        exact ⟨he, name, symbol, List.mem_cons_of_mem _ hmem⟩
    · rcases h₁ : w.run H t with e₁ | H₁
      · obtain ⟨-, rfl, name, symbol, rfl⟩ := SymbolWrite.run_eq_error h₁
        exact absurd (List.mem_cons_self _ _) (hset name symbol)
      · obtain ⟨H', h'⟩ := (ih H₁).2.1 fun name symbol hm =>
          hset name symbol (List.mem_cons_of_mem _ hm)
        exact ⟨H', by simp only [runWrites, h₁]; exact h'⟩
    · obtain ⟨H₁, h₁, h'⟩ := runWrites_cons h
      rw [(ih H₁).2.2 H' h' m, SymbolWrite.run_contents h₁ m]
      by_cases hm : t.m = m <;> simp [List.filter_cons, hm]

/-- Writes through tables that do not share `m`'s map leave it as it was. -/
theorem runWrites_contents_of_ne {H H' : MapHeap} {ws : List (SymbolMap × SymbolWrite)}
    (h : runWrites H ws = .ok H') {m : MapRef} (hne : ∀ w ∈ ws, w.1.m ≠ m) :
    H'.contents m = H.contents m := by
  rw [(runWrites_contents H ws).2.2 H' h m, List.filter_eq_nil_iff.mpr fun w hw => by simpa using hne w hw]
  rfl

theorem clone_contents (H : MapHeap) (t : SymbolMap) :
    (SymbolMap.clone H t).2.contents (SymbolMap.clone H t).1.m = H.contents t.m := by
  rcases t with ⟨_ | r⟩
  · rfl
  · exact Function.update_same _ _ _

/-- `Clone` gives a table whose map holds what the original's held and is shared by no table
made before it. So writes through tables made before the clone never change it, and writes
through the clone never change the original. -/
theorem clone_isolated (H : MapHeap) (t : SymbolMap) (ht : ∀ r, t.m = some r → r < H.next) :
    (SymbolMap.clone H t).2.contents (SymbolMap.clone H t).1.m = H.contents t.m ∧
    ∀ ws H', runWrites (SymbolMap.clone H t).2 ws = .ok H' →
      ((∀ w ∈ ws, ∀ r, w.1.m = some r → r < H.next) →
        H'.contents (SymbolMap.clone H t).1.m = H.contents t.m) ∧
      ((∀ w ∈ ws, w.1 = (SymbolMap.clone H t).1) → H'.contents t.m = H.contents t.m) := by
  refine ⟨clone_contents H t, fun ws H' hrun => ⟨fun hws => ?_, fun hws => ?_⟩⟩
  · rcases t with ⟨_ | r⟩
    · rfl
    · rw [runWrites_contents_of_ne hrun fun w hw hm => ?_]
      · exact clone_contents H _
      · exact absurd (hws w hw H.next hm) (Nat.lt_irrefl _)
  · rcases t with ⟨_ | r⟩
    · rfl
    · have hr := ht r rfl
      rw [runWrites_contents_of_ne hrun fun w hw hm => ?_]
      · exact Function.update_noteq (Nat.ne_of_lt hr) _ _
      · rw [hws w hw] at hm
        exact absurd (Option.some.inj hm) (Nat.ne_of_gt hr)

/-! ## Ranging -/

theorem mem_of_rangeOrder {m : GoMap} {order : List (Bytes × SymbolPtr)} (h : m.RangeOrder order)
    {name : Bytes} {symbol : SymbolPtr} : (name, symbol) ∈ order ↔ m.lookup name = some symbol := by
  rw [h.mem_iff, List.mem_map]
  constructor
  · rintro ⟨⟨n, s⟩, hm, he⟩
    cases he
    exact AList.mem_lookup_iff.mpr hm
  · intro hl
    exact ⟨⟨name, symbol⟩, AList.mem_lookup_iff.mp hl, rfl⟩

namespace SymbolMap

variable {predicate : SymbolPtr → Bool}

theorem find_eq_none_of : ∀ {order : List (Bytes × SymbolPtr)},
    (∀ e ∈ order, predicate e.2 = false) → find predicate order = none
  | [], _ => rfl
  | (name, symbol) :: order, h => by
    unfold find
    rw [if_neg (by simp [h _ (List.mem_cons_self _ _)])]
    exact find_eq_none_of fun e he => h e (List.mem_cons_of_mem _ he)

/-- Once some entry satisfies the predicate, `Find` returns the symbol of one that does. -/
theorem find_mem_of_exists : ∀ {order : List (Bytes × SymbolPtr)},
    (∃ e ∈ order, predicate e.2 = true) →
      predicate (find predicate order) = true ∧ ∃ name, (name, find predicate order) ∈ order
  | [], ⟨_, he, _⟩ => nomatch he
  | (name, symbol) :: order, ⟨e, he, hpe⟩ => by
    unfold find
    split_ifs with hp
    · exact ⟨hp, name, List.mem_cons_self _ _⟩
    · rcases List.mem_cons.mp he with rfl | he
      · exact absurd hpe hp
      · obtain ⟨hf, n, hn⟩ := find_mem_of_exists ⟨e, he, hpe⟩
        exact ⟨hf, n, List.mem_cons_of_mem _ hn⟩

theorem find_eq_some {order : List (Bytes × SymbolPtr)} {s : Nat}
    (h : find predicate order = some s) :
    predicate (some s) = true ∧ ∃ name, (name, some s) ∈ order := by
  by_cases hex : ∃ e ∈ order, predicate e.2 = true
  · exact h ▸ find_mem_of_exists hex
  · push_neg at hex
    rw [find_eq_none_of fun e he => by simpa using hex e he] at h
    cases h

theorem find_eq_of_unique {v : SymbolPtr} {order : List (Bytes × SymbolPtr)}
    (hu : ∀ e ∈ order, predicate e.2 = true → e.2 = v) (hex : ∃ e ∈ order, predicate e.2 = true) :
    find predicate order = v :=
  let ⟨hp, _, hn⟩ := find_mem_of_exists hex
  hu _ hn hp

end SymbolMap

theorem get2_eq_found {H : MapHeap} {t : SymbolMap} {name : Bytes} {symbol : SymbolPtr} :
    SymbolMap.get2 H t name = (symbol, true) ↔ (H.contents t.m).lookup name = some symbol := by
  unfold SymbolMap.get2
  split <;> simp_all

/-- Whatever order the runtime ranges in, `Find` returns nil or a symbol stored in the table
that satisfies the predicate; it returns a stored symbol that satisfies it whenever there is
one, and nil when there is none; and when all the stored symbols that satisfy it are the same,
every order gives the same answer. -/
theorem find_range (H : MapHeap) (t : SymbolMap) (order : List (Bytes × SymbolPtr))
    (hord : (H.contents t.m).RangeOrder order) (predicate : SymbolPtr → Bool) :
    (∀ s, SymbolMap.find predicate order = some s →
      predicate (some s) = true ∧ ∃ name, SymbolMap.get2 H t name = (some s, true)) ∧
    ((∃ name symbol, (H.contents t.m).lookup name = some symbol ∧ predicate symbol = true) →
      predicate (SymbolMap.find predicate order) = true ∧
        ∃ name, SymbolMap.get2 H t name = (SymbolMap.find predicate order, true)) ∧
    ((∀ name symbol, (H.contents t.m).lookup name = some symbol → predicate symbol = false) →
      SymbolMap.find predicate order = none) ∧
    ∀ order', (H.contents t.m).RangeOrder order' →
      (∀ n₁ n₂ s₁ s₂, (H.contents t.m).lookup n₁ = some s₁ → (H.contents t.m).lookup n₂ = some s₂ →
        predicate s₁ = true → predicate s₂ = true → s₁ = s₂) →
      SymbolMap.find predicate order' = SymbolMap.find predicate order := by
  have hfound : ∀ o, (H.contents t.m).RangeOrder o →
      (∃ name symbol, (H.contents t.m).lookup name = some symbol ∧ predicate symbol = true) →
      predicate (SymbolMap.find predicate o) = true ∧
        ∃ name, SymbolMap.get2 H t name = (SymbolMap.find predicate o, true) :=
    fun o ho ⟨n, s, hl, hp⟩ =>
      let ⟨hf, n', hn'⟩ := SymbolMap.find_mem_of_exists ⟨(n, s), (mem_of_rangeOrder ho).mpr hl, hp⟩
      ⟨hf, n', get2_eq_found.mpr ((mem_of_rangeOrder ho).mp hn')⟩
  have hnone : ∀ o, (H.contents t.m).RangeOrder o →
      (∀ name symbol, (H.contents t.m).lookup name = some symbol → predicate symbol = false) →
      SymbolMap.find predicate o = none := fun o ho h =>
    SymbolMap.find_eq_none_of fun e he => h e.1 e.2 ((mem_of_rangeOrder ho).mp he)
  refine ⟨fun s hs => ?_, hfound order hord, hnone order hord, fun order' hord' huniq => ?_⟩
  · obtain ⟨hp, name, hn⟩ := SymbolMap.find_eq_some hs
    exact ⟨hp, name, get2_eq_found.mpr ((mem_of_rangeOrder hord).mp hn)⟩
  · by_cases hex : ∃ name symbol, (H.contents t.m).lookup name = some symbol ∧
        predicate symbol = true
    · obtain ⟨hp, n, hn⟩ := hfound order hord hex
      obtain ⟨hp', n', hn'⟩ := hfound order' hord' hex
      exact huniq n' n _ _ (get2_eq_found.mp hn') (get2_eq_found.mp hn) hp' hp
    · push_neg at hex
      have hfalse := fun n s h => by simpa using hex n s h
      rw [hnone order' hord' hfalse, hnone order hord hfalse]

/-- A heap holding one map, with the symbol `7` under the name `x`. -/
def oneSymbolHeap : MapHeap := (MapHeap.empty.alloc ((∅ : GoMap).insert (utf8 "x") (some 7))).2

theorem find_range_oneSymbol :
    (oneSymbolHeap.contents (some 0)).RangeOrder [(utf8 "x", some 7)] ∧
    (∀ s, SymbolMap.find Option.isSome [(utf8 "x", some 7)] = some s →
      Option.isSome (some s) = true ∧
        ∃ name, SymbolMap.get2 oneSymbolHeap ⟨some 0⟩ name = (some s, true)) ∧
    ((∃ name symbol, (oneSymbolHeap.contents (some 0)).lookup name = some symbol ∧
        Option.isSome symbol = true) →
      Option.isSome (SymbolMap.find Option.isSome [(utf8 "x", some 7)]) = true ∧
        ∃ name, SymbolMap.get2 oneSymbolHeap ⟨some 0⟩ name =
          (SymbolMap.find Option.isSome [(utf8 "x", some 7)], true)) ∧
    ((∀ name symbol, (oneSymbolHeap.contents (some 0)).lookup name = some symbol →
        Option.isSome symbol = false) →
      SymbolMap.find Option.isSome [(utf8 "x", some 7)] = none) ∧
    ∀ order', (oneSymbolHeap.contents (some 0)).RangeOrder order' →
      (∀ n₁ n₂ s₁ s₂, (oneSymbolHeap.contents (some 0)).lookup n₁ = some s₁ →
        (oneSymbolHeap.contents (some 0)).lookup n₂ = some s₂ →
        Option.isSome s₁ = true → Option.isSome s₂ = true → s₁ = s₂) →
      SymbolMap.find Option.isSome order' = SymbolMap.find Option.isSome [(utf8 "x", some 7)] :=
  have hord : (oneSymbolHeap.contents (some 0)).RangeOrder [(utf8 "x", some 7)] := List.Perm.refl _
  ⟨hord, find_range oneSymbolHeap ⟨some 0⟩ _ hord Option.isSome⟩

end ApiServer
