import ApiServer.DiagnosticsSound
import Mathlib.Logic.Relation

/-!
# What the diagnostic walk keeps

`diagnosticMaps.addDiagnostic` walks `MessageChain` and `RelatedInformation` depth first. It
enters a diagnostic in the reverse map on the way down and records it in the map by id on the
way up. `Walked` names what the two maps keep while it runs. Every entered diagnostic not on
the stack of unfinished calls has its children entered and its id recorded. Every id an entry
names is some diagnostic's id. Every entry's `Id` is its key. A call keeps this
(`addDiagnostic_walked`), so from such maps it enters everything reachable from its argument
(`addDiagnostic_enters_reachable`). Whatever ids collide (`addDiagnostic_reuses_parent_id`),
`GetDiagnostics` lists strictly increasing `Id`s, and no id it returns in a chain is dangling
(`getDiagnostics_ids_resolve`).
-/

namespace ApiServer

/-! ## What the walk keeps -/

/-- The diagnostics `MessageChain` and `RelatedInformation` point to. -/
def DiagGraph.children (g : DiagGraph) (p : Ptr) : List Ptr :=
  (g.node p).messageChain ++ (g.node p).relatedInformation

/-- `q` is reached from `p` through `MessageChain` and `RelatedInformation`. -/
def DiagGraph.Reaches (g : DiagGraph) : Ptr → Ptr → Prop :=
  Relation.ReflTransGen fun p c => c ∈ g.children p

/-- What the maps keep while the walk runs. `stack` holds the diagnostics whose calls have
entered them and not yet returned: the only ones whose children may be missing, and whose id
may not be recorded yet. -/
structure Walked (g : DiagGraph) (stack : List Ptr) (d : DiagnosticMaps) : Prop where
  stack_entered : ∀ q ∈ stack, q ∈ d.diagnosticReverseMap
  closed : ∀ q ∈ d.diagnosticReverseMap, q ∉ stack →
    ∀ c ∈ g.children q, c ∈ d.diagnosticReverseMap
  recorded : ∀ q i, d.diagnosticReverseMap.lookup q = some i → q ∉ stack →
    i ∈ d.diagnosticMapById
  refs : ∀ k v, d.diagnosticMapById.lookup k = some v →
    ∀ j ∈ v.messageChain ++ v.relatedInformation, ∃ q, d.diagnosticReverseMap.lookup q = some j
  keyed : ∀ k v, d.diagnosticMapById.lookup k = some v → v.id = k

theorem walked_empty (g : DiagGraph) : Walked g [] DiagnosticMaps.empty :=
  ⟨by simp, by simp [DiagnosticMaps.empty], by simp [DiagnosticMaps.empty],
    by simp [DiagnosticMaps.empty], by simp [DiagnosticMaps.empty]⟩

theorem mem_of_lookup_eq_some {α : Type} {β : α → Type} [DecidableEq α] {m : AList β} {a : α}
    {b : β a} (h : m.lookup a = some b) : a ∈ m :=
  AList.lookup_isSome.mp (by rw [h]; rfl)

theorem mem_of_extends {d d' : DiagnosticMaps} (h : d.Extends d') {q : Ptr}
    (hq : q ∈ d.diagnosticReverseMap) : q ∈ d'.diagnosticReverseMap := by
  obtain ⟨i, hi⟩ := Option.isSome_iff_exists.mp (AList.lookup_isSome.mpr hq)
  exact mem_of_lookup_eq_some (h q i hi)

theorem entered_append {d₁ d₂ : DiagnosticMaps} {l₁ l₂ : List Ptr} (hext : d₁.Extends d₂)
    (h₁ : ∀ c ∈ l₁, c ∈ d₁.diagnosticReverseMap) (h₂ : ∀ c ∈ l₂, c ∈ d₂.diagnosticReverseMap) :
    ∀ c ∈ l₁ ++ l₂, c ∈ d₂.diagnosticReverseMap := fun c hc =>
  (List.mem_append.mp hc).elim (fun hc => mem_of_extends hext (h₁ c hc)) (h₂ c)

theorem Walked.enter {g : DiagGraph} {S : List Ptr} {d : DiagnosticMaps} {p : Ptr}
    {i : DiagnosticId} (hw : Walked g S d) (hp : d.diagnosticReverseMap.lookup p = none) :
    Walked g (p :: S) { d with diagnosticReverseMap := d.diagnosticReverseMap.insert p i } := by
  have hext := DiagnosticMaps.extends_insert (i := i) hp
  refine ⟨?_, ?_, ?_, fun k v hv j hj => ?_, hw.keyed⟩
  · intro q hq
    rcases List.mem_cons.mp hq with rfl | hq
    · exact (AList.mem_insert _).mpr (.inl rfl)
    · exact mem_of_extends hext (hw.stack_entered q hq)
  · intro q hq hqS c hc
    simp only [List.mem_cons, not_or] at hqS
    have hq' : q ∈ d.diagnosticReverseMap := ((AList.mem_insert _).mp hq).resolve_left hqS.1
    exact mem_of_extends hext (hw.closed q hq' hqS.2 c hc)
  · intro q j hq hqS
    simp only [List.mem_cons, not_or] at hqS
    rw [AList.lookup_insert_ne hqS.1] at hq
    exact hw.recorded q j hq hqS.2
  · obtain ⟨q, hq⟩ := hw.refs k v hv j hj
    exact ⟨q, hext q j hq⟩

theorem Walked.record {g : DiagGraph} {S : List Ptr} {d : DiagnosticMaps} {p : Ptr}
    {id : DiagnosticId} {v : Diagnostic} (hw : Walked g (p :: S) d)
    (hp : d.diagnosticReverseMap.lookup p = some id) (hid : v.id = id)
    (hc : ∀ c ∈ g.children p, c ∈ d.diagnosticReverseMap)
    (hv : ∀ j ∈ v.messageChain ++ v.relatedInformation,
      ∃ q, d.diagnosticReverseMap.lookup q = some j) :
    Walked g S { d with diagnosticMapById := d.diagnosticMapById.insert id v } := by
  refine ⟨fun q hq => hw.stack_entered q (List.mem_cons_of_mem p hq), fun q hq hqS => ?_,
    fun q j hq hqS => ?_, fun k v' hk => ?_, fun k v' hk => ?_⟩
  · by_cases hqp : q = p
    · exact hqp ▸ hc
    · exact hw.closed q hq (by simp [hqp, hqS])
  · refine (AList.mem_insert _).mpr ?_
    by_cases hqp : q = p
    · subst hqp; rw [hp] at hq; exact .inl (Option.some.inj hq).symm
    · exact .inr (hw.recorded q j hq (by simp [hqp, hqS]))
  · by_cases hkid : k = id
    · subst hkid; rw [AList.lookup_insert] at hk; cases hk; exact hv
    · rw [AList.lookup_insert_ne hkid] at hk; exact hw.refs k v' hk
  · by_cases hkid : k = id
    · subst hkid; rw [AList.lookup_insert] at hk; cases hk; exact hid
    · rw [AList.lookup_insert_ne hkid] at hk; exact hw.keyed k v' hk

section Walk

variable (g : DiagGraph)

theorem mapM_walked {fuel : Nat}
    (hf : ∀ p S d i d', Walked g S d → (addDiagnostic g fuel p).run d = some (i, d') →
      Walked g S d' ∧ d'.diagnosticReverseMap.lookup p = some i) :
    ∀ (l : List Ptr) S d is d', Walked g S d →
      (l.mapM (addDiagnostic g fuel)).run d = some (is, d') →
      Walked g S d' ∧ (∀ c ∈ l, c ∈ d'.diagnosticReverseMap) ∧
        ∀ j ∈ is, ∃ q, d'.diagnosticReverseMap.lookup q = some j
  | [], _, _, _, _, hw, h => by cases h; exact ⟨hw, by simp, by simp⟩
  | c :: l, S, d, is, d', hw, h => by
    rw [List.mapM_cons] at h
    obtain ⟨j, d₁, h₁, h⟩ := DiagM.bind_run_eq_some h
    obtain ⟨is', d₂, h₂, h⟩ := DiagM.bind_run_eq_some h
    cases h
    obtain ⟨hw₁, hc⟩ := hf c S d j d₁ hw h₁
    obtain ⟨hw₂, hl, his⟩ := mapM_walked hf l S d₁ _ _ hw₁ h₂
    have hext := DiagM.Keeps.mapM (addDiagnostic_keeps g fuel) l d₁ _ h₂
    refine ⟨hw₂, fun x hx => ?_, fun x hx => ?_⟩
    · rcases List.mem_cons.mp hx with rfl | hx
      · exact mem_of_lookup_eq_some (hext x j hc)
      · exact hl x hx
    · rcases List.mem_cons.mp hx with rfl | hx
      · exact ⟨c, hext c _ hc⟩
      · exact his x hx

/-- A call keeps the invariant and returns the id the reverse map gives its diagnostic. -/
theorem addDiagnostic_walked : ∀ fuel p S d i d', Walked g S d →
    (addDiagnostic g fuel p).run d = some (i, d') →
    Walked g S d' ∧ d'.diagnosticReverseMap.lookup p = some i
  | 0, _, _, _, _, _, _, h => nomatch h
  | fuel + 1, p, S, d, i, d', hw, h => by
    rcases hl : d.diagnosticReverseMap.lookup p with _ | j
    · rw [addDiagnostic, DiagM.run_get_bind] at h
      simp only [hl] at h
      rw [DiagM.run_set_bind] at h
      obtain ⟨mc, d₁, h₁, h⟩ := DiagM.bind_run_eq_some h
      obtain ⟨ri, d₂, h₂, h⟩ := DiagM.bind_run_eq_some h
      cases h
      have hrec := mapM_walked g (addDiagnostic_walked fuel)
      obtain ⟨hw₁, hc₁, hmc⟩ := hrec _ _ _ _ _ (hw.enter hl) h₁
      obtain ⟨hw₂, hc₂, hri⟩ := hrec _ _ _ _ _ hw₁ h₂
      have hk₁ := DiagM.Keeps.mapM (addDiagnostic_keeps g fuel) _ _ _ h₁
      have hk₂ := DiagM.Keeps.mapM (addDiagnostic_keeps g fuel) _ _ _ h₂
      have hp := hk₂ p _ (hk₁ p _ (AList.lookup_insert _))
      refine ⟨hw₂.record hp rfl (entered_append hk₂ hc₁ hc₂) (fun j hj => ?_), hp⟩
      rcases List.mem_append.mp hj with hj | hj
      · obtain ⟨q, hq⟩ := hmc j hj
        exact ⟨q, hk₂ q j hq⟩
      · exact hri j hj
    · rw [addDiagnostic_found g hl] at h
      cases h
      exact ⟨hw, hl⟩

theorem run_discard_eq_some {α : Type} {x : DiagM α} {d d' : DiagnosticMaps} {u : PUnit}
    (h : (discard x).run d = some (u, d')) : ∃ a, x.run d = some (a, d') := by
  change ((fun _ => ()) <$> x).run d = _ at h
  rw [StateT.run_map] at h
  obtain ⟨⟨a, d₁⟩, h₁, h₂⟩ := Option.map_eq_some'.mp h
  cases h₂
  exact ⟨a, h₁⟩

theorem forM_walked {fuel : Nat} : ∀ (l : List Ptr) d u d', Walked g [] d →
    (l.forM fun p => discard (addDiagnostic g fuel p)).run d = some (u, d') →
    Walked g [] d' ∧ d.Extends d' ∧ ∀ p ∈ l, p ∈ d'.diagnosticReverseMap
  | [], _, _, _, hw, h => by cases h; exact ⟨hw, fun _ _ => id, by simp⟩
  | p :: l, d, u, d', hw, h => by
    rw [List.forM] at h
    obtain ⟨_, d₁, h₁, h₂⟩ := DiagM.bind_run_eq_some h
    obtain ⟨i, h₁⟩ := run_discard_eq_some h₁
    obtain ⟨hw₁, hp⟩ := addDiagnostic_walked g fuel p [] d i d₁ hw h₁
    obtain ⟨hw₂, hext, hl⟩ := forM_walked l d₁ u d' hw₁ h₂
    refine ⟨hw₂, (addDiagnostic_keeps g fuel p d _ h₁).trans hext, fun x hx => ?_⟩
    rcases List.mem_cons.mp hx with rfl | hx
    · exact mem_of_lookup_eq_some (hext x i hp)
    · exact hl x hx

theorem forM_files_walked {F : List Ptr × List Ptr → DiagM PUnit}
    (hF : ∀ f d u d', Walked g [] d → (F f).run d = some (u, d') →
      Walked g [] d' ∧ d.Extends d' ∧ ∀ p ∈ f.1 ++ f.2, p ∈ d'.diagnosticReverseMap) :
    ∀ (files : List (List Ptr × List Ptr)) d u d', Walked g [] d →
      (files.forM F).run d = some (u, d') →
      Walked g [] d' ∧ d.Extends d' ∧ ∀ f ∈ files, ∀ p ∈ f.1 ++ f.2, p ∈ d'.diagnosticReverseMap
  | [], _, _, _, hw, h => by cases h; exact ⟨hw, fun _ _ => id, by simp⟩
  | f :: files, d, u, d', hw, h => by
    rw [List.forM] at h
    obtain ⟨_, d₁, h₁, h₂⟩ := DiagM.bind_run_eq_some h
    obtain ⟨hw₁, hext₁, hf⟩ := hF f d _ d₁ hw h₁
    obtain ⟨hw₂, hext₂, hfiles⟩ := forM_files_walked hF files d₁ u d' hw₁ h₂
    refine ⟨hw₂, hext₁.trans hext₂, fun f' hf' p hp => ?_⟩
    rcases List.mem_cons.mp hf' with rfl | hf'
    · exact mem_of_extends hext₂ (hf p hp)
    · exact hfiles f' hf' p hp

theorem addDiagnostics_walked {fuel : Nat} {sourceFiles : List (List Ptr × List Ptr)}
    {u : PUnit} {d : DiagnosticMaps}
    (hrun : (LanguageService.addDiagnostics g fuel sourceFiles).run DiagnosticMaps.empty =
      some (u, d)) :
    Walked g [] d ∧ ∀ f ∈ sourceFiles, ∀ p ∈ f.1 ++ f.2, p ∈ d.diagnosticReverseMap := by
  obtain ⟨hw, -, hroots⟩ := forM_files_walked g (fun f d u d' hw h => by
    obtain ⟨syntactic, semantic⟩ := f
    obtain ⟨_, d₁, h₁, h₂⟩ := DiagM.bind_run_eq_some h
    obtain ⟨hw₁, hext₁, hs⟩ := forM_walked g syntactic d _ d₁ hw h₁
    obtain ⟨hw₂, hext₂, hs'⟩ := forM_walked g semantic d₁ _ d' hw₁ h₂
    exact ⟨hw₂, hext₁.trans hext₂, entered_append hext₂ hs hs'⟩) sourceFiles _ _ _
    (walked_empty g) hrun
  exact ⟨hw, hroots⟩

end Walk

/-! ## What `GetDiagnostics` returns -/

theorem mem_getDiagnostics {d : DiagnosticMaps} {e : Diagnostic} :
    e ∈ d.getDiagnostics ↔ ∃ k, d.diagnosticMapById.lookup k = some e := by
  rw [DiagnosticMaps.getDiagnostics, (List.perm_insertionSort _ _).mem_iff, List.mem_map]
  constructor
  · rintro ⟨⟨k, v⟩, hm, rfl⟩
    exact ⟨k, AList.mem_lookup_iff.mpr hm⟩
  · rintro ⟨k, hk⟩
    exact ⟨⟨k, e⟩, AList.mem_lookup_iff.mp hk, rfl⟩

theorem Walked.entry_of_lookup {g : DiagGraph} {d : DiagnosticMaps} (hw : Walked g [] d)
    {q : Ptr} {i : DiagnosticId} (hq : d.diagnosticReverseMap.lookup q = some i) :
    ∃ e ∈ d.getDiagnostics, e.id = i := by
  obtain ⟨v, hv⟩ := Option.isSome_iff_exists.mp
    (AList.lookup_isSome.mpr (hw.recorded q i hq (List.not_mem_nil q)))
  exact ⟨v, mem_getDiagnostics.mpr ⟨i, hv⟩, hw.keyed i v hv⟩

theorem Walked.getDiagnostics_refs {g : DiagGraph} {d : DiagnosticMaps} (hw : Walked g [] d) :
    ∀ e ∈ d.getDiagnostics, ∀ j ∈ e.messageChain ++ e.relatedInformation,
      ∃ e' ∈ d.getDiagnostics, e'.id = j := by
  intro e he j hj
  obtain ⟨k, hk⟩ := mem_getDiagnostics.mp he
  obtain ⟨q, hq⟩ := hw.refs k e hk j hj
  exact hw.entry_of_lookup hq

theorem getDiagnostics_sorted {d : DiagnosticMaps}
    (hk : ∀ k v, d.diagnosticMapById.lookup k = some v → v.id = k) :
    (d.getDiagnostics.map Diagnostic.id).Sorted (· < ·) := by
  have : IsTotal Diagnostic fun a b => a.id ≤ b.id := ⟨fun a b => le_total a.id b.id⟩
  have : IsTrans Diagnostic fun a b => a.id ≤ b.id := ⟨fun _ _ _ => le_trans⟩
  refine List.Sorted.lt_of_le (List.pairwise_map.mpr (List.sorted_insertionSort _ _)) ?_
  have hkeys : (d.diagnosticMapById.entries.map Sigma.snd).map Diagnostic.id =
      d.diagnosticMapById.keys := by
    rw [List.map_map]
    exact List.map_congr_left fun s hs => hk s.1 s.2 (AList.mem_lookup_iff.mpr hs)
  rw [DiagnosticMaps.getDiagnostics, ((List.perm_insertionSort _ _).map _).nodup_iff, hkeys]
  exact d.diagnosticMapById.keys_nodup

theorem Walked.reaches {g : DiagGraph} {d : DiagnosticMaps} (hw : Walked g [] d) {p q : Ptr}
    (hp : p ∈ d.diagnosticReverseMap) (h : g.Reaches p q) : q ∈ d.diagnosticReverseMap := by
  induction h with
  | refl => exact hp
  | tail _ hc ih => exact hw.closed _ ih (List.not_mem_nil _) _ hc

/-- From maps that keep the walk's invariant (the empty ones, or those a top-level call left),
`addDiagnostic` with enough fuel returns the id it enters for its diagnostic, enters every
diagnostic reachable from it, and leaves maps that keep the invariant: every entered
diagnostic's id is a key of `diagnosticMapById`. -/
theorem addDiagnostic_enters_reachable (g : DiagGraph) (p : Ptr) (d : DiagnosticMaps)
    (hw : Walked g [] d) :
    ∃ i d', (∀ fuel, unvisited g d < fuel → (addDiagnostic g fuel p).run d = some (i, d')) ∧
      d'.diagnosticReverseMap.lookup p = some i ∧
      (∀ q, g.Reaches p q → q ∈ d'.diagnosticReverseMap) ∧ Walked g [] d' := by
  obtain ⟨⟨i, d'⟩, hr⟩ := addDiagnostic_total g (unvisited g d + 1) p d (Nat.lt_succ_self _)
  obtain ⟨hw', hp⟩ := addDiagnostic_walked g _ p [] d i d' hw hr
  exact ⟨i, d', fun fuel hfuel => addDiagnostic_mono g hfuel p d _ hr, hp,
    fun q hq => hw'.reaches (mem_of_lookup_eq_some hp) hq, hw'⟩

theorem addDiagnostic_enters_reachable_chained :
    Walked chainedPair [] DiagnosticMaps.empty ∧
      ∃ i d', (∀ fuel, unvisited chainedPair DiagnosticMaps.empty < fuel →
          (addDiagnostic chainedPair fuel 0).run DiagnosticMaps.empty = some (i, d')) ∧
        d'.diagnosticReverseMap.lookup 0 = some i ∧
        (∀ q, chainedPair.Reaches 0 q → q ∈ d'.diagnosticReverseMap) ∧ Walked chainedPair [] d' :=
  ⟨walked_empty _, addDiagnostic_enters_reachable chainedPair 0 _ (walked_empty _)⟩

/-- `GetDiagnostics` lists its entries by strictly increasing `Id`, and every id an entry's
`MessageChain` or `RelatedInformation` names is the `Id` of a listed entry. Every diagnostic
reachable from a source file's diagnostics has, in the maps the loop leaves, an id that is the
`Id` of a listed entry. -/
theorem getDiagnostics_ids_resolve (g : DiagGraph) {fuel : Nat} (h : g.nodes.length < fuel)
    (sourceFiles : List (List Ptr × List Ptr)) :
    ∃ L d, (LanguageService.addDiagnostics g fuel sourceFiles).run DiagnosticMaps.empty =
        some (⟨⟩, d) ∧ LanguageService.getDiagnostics g fuel sourceFiles = some L ∧
      (L.map Diagnostic.id).Sorted (· < ·) ∧
      (∀ e ∈ L, ∀ j ∈ e.messageChain ++ e.relatedInformation, ∃ e' ∈ L, e'.id = j) ∧
      ∀ f ∈ sourceFiles, ∀ p ∈ f.1 ++ f.2, ∀ q, g.Reaches p q →
        ∃ e ∈ L, d.diagnosticReverseMap.lookup q = some e.id := by
  obtain ⟨L, hL⟩ := Option.isSome_iff_exists.mp (getDiagnostics_isSome g h sourceFiles)
  obtain ⟨⟨⟨⟩, d⟩, hrun, hL'⟩ := Option.bind_eq_some.mp hL
  cases hL'
  obtain ⟨hw, hroots⟩ := addDiagnostics_walked g hrun
  refine ⟨_, d, hrun, hL, getDiagnostics_sorted hw.keyed, hw.getDiagnostics_refs,
    fun f hf p hp q hq => ?_⟩
  obtain ⟨i, hi⟩ := Option.isSome_iff_exists.mp
    (AList.lookup_isSome.mpr (hw.reaches (hroots f hf p hp) hq))
  obtain ⟨e, he, rfl⟩ := hw.entry_of_lookup hi
  exact ⟨e, he, hi⟩

theorem getDiagnostics_ids_resolve_chained :
    chainedPair.nodes.length < 3 ∧
      ∃ L d, (LanguageService.addDiagnostics chainedPair 3 [([0], [])]).run DiagnosticMaps.empty =
          some (⟨⟩, d) ∧ LanguageService.getDiagnostics chainedPair 3 [([0], [])] = some L ∧
        (L.map Diagnostic.id).Sorted (· < ·) ∧
        (∀ e ∈ L, ∀ j ∈ e.messageChain ++ e.relatedInformation, ∃ e' ∈ L, e'.id = j) ∧
        ∀ f ∈ [([0], [])], ∀ p ∈ f.1 ++ f.2, ∀ q, chainedPair.Reaches p q →
          ∃ e ∈ L, d.diagnosticReverseMap.lookup q = some e.id :=
  ⟨by decide, getDiagnostics_ids_resolve chainedPair (by decide) [([0], [])]⟩

end ApiServer
