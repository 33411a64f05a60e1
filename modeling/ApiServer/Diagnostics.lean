import ApiServer.Wire
import Mathlib.Data.List.AList
import Mathlib.Data.List.Sort

/-!
# Diagnostic ids

`LanguageService.GetDiagnostics` numbers every diagnostic reachable from the program's
diagnostics through `MessageChain` and `RelatedInformation`. `diagnosticMaps.addDiagnostic`
takes the id `len(diagnosticMapById) + 1` and enters the node in the reverse map before its
children, but enters it in the map by id only after them: a child therefore takes its
parent's id (`addDiagnostic_reuses_parent_id`).

Pointers are indices into the list of nodes of a `DiagGraph`; the recursion runs on fuel.
-/

namespace ApiServer

/-- A pointer to an `ast.Diagnostic`. -/
abbrev Ptr := Nat

/-- `DiagnosticId`. -/
abbrev DiagnosticId := Nat

/-- The parts of an `*ast.Diagnostic` that `addDiagnostic` reads. -/
structure AstDiagnostic where
  fileName : Bytes
  pos : Int
  «end» : Int
  code : Int
  category : Bytes
  message : Bytes
  messageChain : List Ptr
  relatedInformation : List Ptr
  deriving Inhabited

/-- A finite heap of diagnostics whose pointers stay inside it. -/
structure DiagGraph where
  nodes : List AstDiagnostic
  closed : ∀ n ∈ nodes, ∀ c ∈ n.messageChain ++ n.relatedInformation, c < nodes.length

def DiagGraph.node (g : DiagGraph) (p : Ptr) : AstDiagnostic := g.nodes.getD p default

/-- `ls.Diagnostic`; `ReportsUnnecessary`, `ReportsDeprecated` and `SkippedOnNoEmit` are
never set. -/
structure Diagnostic where
  id : DiagnosticId
  fileName : Bytes
  pos : Int
  «end» : Int
  code : Int
  category : Bytes
  message : Bytes
  messageChain : List DiagnosticId
  relatedInformation : List DiagnosticId

/-- `diagnosticMaps`. -/
structure DiagnosticMaps where
  diagnosticMapById : AList fun _ : DiagnosticId => Diagnostic
  diagnosticReverseMap : AList fun _ : Ptr => DiagnosticId

def DiagnosticMaps.empty : DiagnosticMaps := ⟨∅, ∅⟩

abbrev DiagM := StateT DiagnosticMaps Option

/-- `diagnosticMaps.addDiagnostic`, with `fuel` bounding the depth of its recursion. -/
def addDiagnostic (g : DiagGraph) : Nat → Ptr → DiagM DiagnosticId
  | 0, _ => failure
  | fuel + 1, diagnostic => do
    let d ← get
    match d.diagnosticReverseMap.lookup diagnostic with
    | some i => pure i
    | none =>
      let id := d.diagnosticMapById.entries.length + 1
      let node := g.node diagnostic
      set { d with diagnosticReverseMap := d.diagnosticReverseMap.insert diagnostic id }
      let messageChain ← node.messageChain.mapM (addDiagnostic g fuel)
      let relatedInformation ← node.relatedInformation.mapM (addDiagnostic g fuel)
      modify fun d => { d with
        diagnosticMapById := d.diagnosticMapById.insert id
          ⟨id, node.fileName, node.pos, node.«end», node.code, node.category, node.message,
            messageChain, relatedInformation⟩ }
      pure id

/-- `diagnosticMaps.GetDiagnostics`: the entries by increasing id. The ids are the map's
keys, so any sort gives this order. -/
def DiagnosticMaps.getDiagnostics (d : DiagnosticMaps) : List Diagnostic :=
  (d.diagnosticMapById.entries.map Sigma.snd).insertionSort fun a b => a.id ≤ b.id

/-- The loop of `LanguageService.GetDiagnostics` over the source files, given each file's
syntactic and semantic diagnostics. -/
def LanguageService.addDiagnostics (g : DiagGraph) (fuel : Nat)
    (sourceFiles : List (List Ptr × List Ptr)) : DiagM PUnit :=
  sourceFiles.forM fun (syntactic, semantic) => do
    syntactic.forM fun diagnostic => discard (addDiagnostic g fuel diagnostic)
    semantic.forM fun diagnostic => discard (addDiagnostic g fuel diagnostic)

/-- `LanguageService.GetDiagnostics`. -/
def LanguageService.getDiagnostics (g : DiagGraph) (fuel : Nat)
    (sourceFiles : List (List Ptr × List Ptr)) : Option (List Diagnostic) := do
  let (_, d) ← (LanguageService.addDiagnostics g fuel sourceFiles).run DiagnosticMaps.empty
  pure d.getDiagnostics

/-- Two diagnostics of `a.ts`, the first chaining to the second. -/
def chainedPair : DiagGraph :=
  ⟨[⟨utf8 "a.ts", 0, 1, 1, utf8 "error", utf8 "outer", [1], []⟩,
    ⟨utf8 "a.ts", 0, 1, 2, utf8 "error", utf8 "inner", [], []⟩], by decide⟩

/-- The chained diagnostic takes its parent's id 1, and the parent's entry, whose chain now
names itself, overwrites it: two diagnostics are reachable and one is returned. -/
theorem addDiagnostic_reuses_parent_id :
    ((addDiagnostic chainedPair 3 0).run DiagnosticMaps.empty).map (fun x =>
        (x.2.diagnosticReverseMap.lookup 0, x.2.diagnosticReverseMap.lookup 1)) =
      some (some 1, some 1) ∧
    (LanguageService.getDiagnostics chainedPair 3 [([0], [])]).map
        (List.map fun d => (d.id, d.message, d.messageChain)) =
      some [(1, utf8 "outer", [1])] := by
  decide

end ApiServer
