import ApiServer.Diagnostics
import Mathlib.Data.List.GetD

/-!
# `addDiagnostic` terminates

The recursion of `diagnosticMaps.addDiagnostic` follows `MessageChain` and
`RelatedInformation`, which may form cycles, from any starting maps. It still terminates. The
measure is `unvisited`, the number of the heap's diagnostics not yet in the reverse map. A call
that does not return at once enters its node in the reverse map before it visits the children,
which lowers the measure by one on the way down. A whole call never raises it. So fuel above the
measure gives a result, and the same result for any such fuel (`addDiagnostic_terminates`).
`LanguageService.GetDiagnostics` therefore always returns (`getDiagnostics_isSome`).

The proofs go through four relations on `DiagM` computations, each with its lemmas for `bind`
and `mapM`: `Le` (more fuel), `Keeps` (the reverse map only grows), `Total` (a result below
the fuel) and `Always` (a result from every state).
-/

namespace ApiServer

/-! ## The measure -/

/-- The heap's diagnostics not yet in the reverse map. -/
def unvisited (g : DiagGraph) (d : DiagnosticMaps) : Nat :=
  (List.range g.nodes.length).countP fun p => (d.diagnosticReverseMap.lookup p).isNone

/-- `d'`'s reverse map keeps every entry of `d`'s. -/
def DiagnosticMaps.Extends (d d' : DiagnosticMaps) : Prop :=
  ∀ p i, d.diagnosticReverseMap.lookup p = some i → d'.diagnosticReverseMap.lookup p = some i

theorem DiagnosticMaps.Extends.trans {d₁ d₂ d₃ : DiagnosticMaps} (h₁ : d₁.Extends d₂)
    (h₂ : d₂.Extends d₃) : d₁.Extends d₃ :=
  fun p i h => h₂ p i (h₁ p i h)

theorem DiagnosticMaps.extends_insert {d : DiagnosticMaps} {p : Ptr} {i : DiagnosticId}
    (h : d.diagnosticReverseMap.lookup p = none) :
    d.Extends { d with diagnosticReverseMap := d.diagnosticReverseMap.insert p i } := by
  intro q j hq
  have hne : q ≠ p := by rintro rfl; rw [h] at hq; cases hq
  exact (AList.lookup_insert_ne hne).trans hq

/-- A predicate that implies another, and fails somewhere the other holds, counts less. -/
theorem countP_lt_countP {α : Type} {p q : α → Bool} {l : List α} (hle : ∀ x, p x → q x)
    {x : α} (hx : x ∈ l) (hq : q x) (hp : ¬ p x) : l.countP p < l.countP q := by
  rw [List.countP_eq_length_filter, List.countP_eq_length_filter]
  have hsub := List.monotone_filter_right l hle
  exact lt_of_le_of_ne hsub.length_le fun h =>
    hp (List.of_mem_filter (hsub.eq_of_length h ▸ List.mem_filter.mpr ⟨hx, hq⟩))

theorem unvisited_le {g : DiagGraph} {d d' : DiagnosticMaps} (h : d.Extends d') :
    unvisited g d' ≤ unvisited g d := by
  refine List.countP_mono_left fun q _ hq => ?_
  cases hl : d.diagnosticReverseMap.lookup q with
  | none => rfl
  | some i => simp [h q i hl] at hq

theorem unvisited_le_length (g : DiagGraph) (d : DiagnosticMaps) :
    unvisited g d ≤ g.nodes.length :=
  (List.countP_le_length _).trans_eq (List.length_range _)

/-- Entering a node of the heap that is not in the reverse map lowers the measure. -/
theorem unvisited_insert_lt {g : DiagGraph} {d : DiagnosticMaps} {p : Ptr} {i : DiagnosticId}
    (hp : p < g.nodes.length) (h : d.diagnosticReverseMap.lookup p = none) :
    unvisited g { d with diagnosticReverseMap := d.diagnosticReverseMap.insert p i } <
      unvisited g d :=
  countP_lt_countP (fun q hq => by simp at hq ⊢; exact hq.2) (List.mem_range.mpr hp)
    (by simp [h]) (by simp)

/-- A pointer past the heap reads the zero diagnostic, which has no children. -/
theorem DiagGraph.node_of_le {g : DiagGraph} {p : Ptr} (h : g.nodes.length ≤ p) :
    g.node p = default :=
  List.getD_eq_default _ _ h

/-! ## Relations on `DiagM` computations -/

namespace DiagM

variable {α β : Type}

/-- `y` gives what `x` gives wherever `x` gives something: `y` is `x` with more fuel. -/
def Le (x y : DiagM α) : Prop := ∀ d r, x.run d = some r → y.run d = some r

/-- Whatever `x` gives, it gives in a state whose reverse map keeps the entries it found. -/
def Keeps (x : DiagM α) : Prop := ∀ d r, x.run d = some r → d.Extends r.2

/-- `x` gives something from every state whose measure is below `fuel`. -/
def Total (g : DiagGraph) (fuel : Nat) (x : DiagM α) : Prop :=
  ∀ d, unvisited g d < fuel → ∃ r, x.run d = some r

/-- `x` gives something from every state. -/
def Always (x : DiagM α) : Prop := ∀ d, ∃ r, x.run d = some r

@[simp] theorem run_get_bind (f : DiagnosticMaps → DiagM α) (d : DiagnosticMaps) :
    (get >>= f).run d = (f d).run d := rfl

@[simp] theorem run_set_bind (d' : DiagnosticMaps) (f : PUnit → DiagM α) (d : DiagnosticMaps) :
    (set d' >>= f).run d = (f ()).run d' := rfl

theorem bind_run_eq_some {x : DiagM α} {f : α → DiagM β} {d : DiagnosticMaps}
    {r : β × DiagnosticMaps} (h : (x >>= f).run d = some r) :
    ∃ a d', x.run d = some (a, d') ∧ (f a).run d' = some r := by
  rw [StateT.run_bind] at h
  obtain ⟨⟨a, d'⟩, h₁, h₂⟩ := Option.bind_eq_some.mp h
  exact ⟨a, d', h₁, h₂⟩

theorem Le.bind {x y : DiagM α} {f f' : α → DiagM β} (hx : Le x y) (hf : ∀ a, Le (f a) (f' a)) :
    Le (x >>= f) (y >>= f') := fun d r h => by
  obtain ⟨a, d', h₁, h₂⟩ := bind_run_eq_some h
  rw [StateT.run_bind, hx d _ h₁]
  exact hf a d' r h₂

theorem Keeps.bind {x : DiagM α} {f : α → DiagM β} (hx : Keeps x) (hf : ∀ a, Keeps (f a)) :
    Keeps (x >>= f) := fun d r h => by
  obtain ⟨a, d', h₁, h₂⟩ := bind_run_eq_some h
  exact (hx d _ h₁).trans (hf a d' r h₂)

theorem Total.bind {g : DiagGraph} {fuel : Nat} {x : DiagM α} {f : α → DiagM β}
    (hx : Total g fuel x) (hk : Keeps x) (hf : ∀ a, Total g fuel (f a)) :
    Total g fuel (x >>= f) := fun d hd => by
  obtain ⟨⟨a, d'⟩, h₁⟩ := hx d hd
  obtain ⟨r, h₂⟩ := hf a d' (lt_of_le_of_lt (unvisited_le (hk d _ h₁)) hd)
  exact ⟨r, by rw [StateT.run_bind, h₁]; exact h₂⟩

theorem Always.bind {x : DiagM α} {f : α → DiagM β} (hx : Always x) (hf : ∀ a, Always (f a)) :
    Always (x >>= f) := fun d => by
  obtain ⟨⟨a, d'⟩, h₁⟩ := hx d
  obtain ⟨r, h₂⟩ := hf a d'
  exact ⟨r, by rw [StateT.run_bind, h₁]; exact h₂⟩

theorem Keeps.pure (a : α) : Keeps (pure a : DiagM α) := fun _ _ h => by
  cases h; exact fun _ _ => id

theorem Total.pure {g : DiagGraph} {fuel : Nat} (a : α) : Total g fuel (pure a : DiagM α) :=
  fun _ _ => ⟨_, rfl⟩

/-- Recording a node in the map by id keeps the reverse map. -/
theorem keeps_record (f : DiagnosticMaps → DiagnosticMaps)
    (hf : ∀ d, (f d).diagnosticReverseMap = d.diagnosticReverseMap) (a : α) :
    Keeps (modify f >>= fun _ => pure a) := fun d r h => by
  cases h
  exact fun p i hp => (hf d).symm ▸ hp

theorem Always.discard {x : DiagM α} (hx : Always x) : Always (discard x) := fun d => by
  obtain ⟨⟨a, d'⟩, h⟩ := hx d
  exact ⟨((), d'), by show StateT.run ((fun _ => ()) <$> x) d = _; rw [StateT.run_map, h]; rfl⟩

theorem Always.forM {f : α → DiagM PUnit} (h : ∀ a, Always (f a)) :
    ∀ l : List α, Always (l.forM f)
  | [] => fun _ => ⟨_, rfl⟩
  | a :: l => (h a).bind fun _ => Always.forM h l

section MapM

variable {f f' : Ptr → DiagM α}

theorem Le.mapM (h : ∀ p, Le (f p) (f' p)) : ∀ l : List Ptr, Le (l.mapM f) (l.mapM f')
  | [] => fun _ _ => id
  | p :: l => by
    rw [List.mapM_cons, List.mapM_cons]
    exact (h p).bind fun _ => (Le.mapM h l).bind fun _ _ _ => id

theorem Keeps.mapM (h : ∀ p, Keeps (f p)) : ∀ l : List Ptr, Keeps (l.mapM f)
  | [] => Keeps.pure []
  | p :: l => by
    rw [List.mapM_cons]
    exact (h p).bind fun _ => (Keeps.mapM h l).bind fun _ => Keeps.pure _

theorem Total.mapM {g : DiagGraph} {fuel : Nat} (h : ∀ p, Total g fuel (f p))
    (hk : ∀ p, Keeps (f p)) : ∀ l : List Ptr, Total g fuel (l.mapM f)
  | [] => Total.pure []
  | p :: l => by
    rw [List.mapM_cons]
    exact (h p).bind (hk p) fun _ =>
      (Total.mapM h hk l).bind (Keeps.mapM hk l) fun _ => Total.pure _

end MapM

end DiagM

/-! ## `addDiagnostic` -/

section AddDiagnostic

variable (g : DiagGraph)

/-- A call with fuel left returns at once the id it finds in the reverse map. -/
theorem addDiagnostic_found {fuel : Nat} {p : Ptr} {d : DiagnosticMaps} {i : DiagnosticId}
    (h : d.diagnosticReverseMap.lookup p = some i) :
    (addDiagnostic g (fuel + 1) p).run d = some (i, d) := by
  simp [addDiagnostic, h]

/-- A call never takes an entry out of the reverse map or changes one. -/
theorem addDiagnostic_keeps : ∀ fuel p, DiagM.Keeps (addDiagnostic g fuel p)
  | 0, _ => fun _ _ h => nomatch h
  | fuel + 1, p => fun d r h => by
    rcases hl : d.diagnosticReverseMap.lookup p with _ | i
    · rw [addDiagnostic, DiagM.run_get_bind] at h
      simp only [hl] at h
      rw [DiagM.run_set_bind] at h
      have hk := DiagM.Keeps.mapM (addDiagnostic_keeps fuel)
      exact (DiagnosticMaps.extends_insert hl).trans (((hk _).bind fun _ => (hk _).bind fun _ =>
        DiagM.keeps_record _ (fun _ => by rfl) _) _ _ h)
    · rw [addDiagnostic_found g hl] at h
      cases h
      exact fun _ _ => id

/-- One more unit of fuel changes no result. -/
theorem addDiagnostic_le_succ :
    ∀ fuel p, DiagM.Le (addDiagnostic g fuel p) (addDiagnostic g (fuel + 1) p)
  | 0, _ => fun _ _ h => nomatch h
  | fuel + 1, p => fun d r h => by
    rcases hl : d.diagnosticReverseMap.lookup p with _ | i
    · rw [addDiagnostic, DiagM.run_get_bind] at h ⊢
      simp only [hl] at h ⊢
      rw [DiagM.run_set_bind] at h ⊢
      have hle := DiagM.Le.mapM (addDiagnostic_le_succ fuel)
      exact ((hle _).bind fun _ => (hle _).bind fun _ _ _ => id) _ _ h
    · rwa [addDiagnostic_found g hl] at h ⊢

theorem addDiagnostic_mono {fuel fuel' : Nat} (h : fuel ≤ fuel') (p : Ptr) :
    DiagM.Le (addDiagnostic g fuel p) (addDiagnostic g fuel' p) := by
  induction h with
  | refl => exact fun _ _ => id
  | step _ ih => exact fun d r h => addDiagnostic_le_succ g _ p d r (ih d r h)

/-- Fuel above the measure gives a result: a call that does not return at once enters its node
before its children, so they run from a state whose measure is below their fuel. -/
theorem addDiagnostic_total : ∀ fuel p, DiagM.Total g fuel (addDiagnostic g fuel p)
  | 0, _ => fun _ hd => absurd hd (Nat.not_lt_zero _)
  | fuel + 1, p => fun d hd => by
    rcases hl : d.diagnosticReverseMap.lookup p with _ | i
    · rw [addDiagnostic, DiagM.run_get_bind]
      simp only [hl]
      rw [DiagM.run_set_bind]
      by_cases hp : p < g.nodes.length
      · have hd₁ := unvisited_insert_lt (i := d.diagnosticMapById.entries.length + 1) hp hl
        have ht := DiagM.Total.mapM (addDiagnostic_total fuel) (addDiagnostic_keeps g fuel)
        have hk := DiagM.Keeps.mapM (addDiagnostic_keeps g fuel)
        exact ((ht _).bind (hk _) fun _ => (ht _).bind (hk _) fun _ _ _ => ⟨_, rfl⟩) _ (by omega)
      · rw [DiagGraph.node_of_le (not_lt.mp hp)]
        exact ⟨_, rfl⟩
    · exact ⟨_, addDiagnostic_found g hl⟩

end AddDiagnostic

/-- `addDiagnostic` terminates on any heap of diagnostics, cycles included, from any starting
maps. Entering a node of the heap lowers the measure, and a whole call never raises it. Fuel
above the measure gives a result, the same for every such fuel. -/
theorem addDiagnostic_terminates (g : DiagGraph) :
    (∀ p i (d : DiagnosticMaps), p < g.nodes.length → d.diagnosticReverseMap.lookup p = none →
      unvisited g { d with diagnosticReverseMap := d.diagnosticReverseMap.insert p i } <
        unvisited g d) ∧
    (∀ fuel p d r, (addDiagnostic g fuel p).run d = some r → unvisited g r.2 ≤ unvisited g d) ∧
    ∀ p d, ∃ r, ∀ fuel, unvisited g d < fuel → (addDiagnostic g fuel p).run d = some r := by
  refine ⟨fun _ _ _ => unvisited_insert_lt, fun fuel p d r h =>
    unvisited_le (addDiagnostic_keeps g fuel p d r h), fun p d => ?_⟩
  obtain ⟨r, hr⟩ := addDiagnostic_total g (unvisited g d + 1) p d (Nat.lt_succ_self _)
  exact ⟨r, fun fuel hfuel => addDiagnostic_mono g hfuel p d r hr⟩

/-- With more fuel than the heap has diagnostics, `LanguageService.GetDiagnostics` returns, for
any source files. -/
theorem getDiagnostics_isSome (g : DiagGraph) {fuel : Nat} (h : g.nodes.length < fuel)
    (sourceFiles : List (List Ptr × List Ptr)) :
    (LanguageService.getDiagnostics g fuel sourceFiles).isSome := by
  have hadd : ∀ p, DiagM.Always (discard (addDiagnostic g fuel p)) := fun p =>
    DiagM.Always.discard fun d => addDiagnostic_total g fuel p d
      (lt_of_le_of_lt (unvisited_le_length g d) h)
  obtain ⟨⟨_, d⟩, hr⟩ := DiagM.Always.forM (fun (files : List Ptr × List Ptr) =>
    (DiagM.Always.forM hadd files.1).bind fun _ => DiagM.Always.forM hadd files.2)
    sourceFiles DiagnosticMaps.empty
  unfold LanguageService.getDiagnostics LanguageService.addDiagnostics
  rw [hr]
  rfl

end ApiServer
