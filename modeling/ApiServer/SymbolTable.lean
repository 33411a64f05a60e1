import ApiServer.Wire
import Mathlib.Data.List.AList
import Mathlib.Logic.Function.Basic

/-!
# Symbol tables

`ast.SymbolTable` in its one implementation `SymbolMap`, a wrapper around a Go
`map[string]*Symbol`. Go maps are references. So the model keeps every map allocated so far in a
`MapHeap`, and a `SymbolMap` holds a reference to one of them, or a nil map.
`NewSymbolTableFromMap` wraps the caller's map and shares it. `Clone` allocates a shallow copy
and keeps a nil map nil. Writing to a nil map panics, and reading one reads nothing.

Ranging over a map visits its entries in an order the runtime picks anew each time. The
methods that range (`Find`, `Iter`, `Keys`, `Values`, `Each`) take that order as an argument.
`RangeOrder` says which orders the runtime may pick.

Symbols are kept by identity only: a `*Symbol` is a number, or nil.
-/

namespace ApiServer

/-- A `*Symbol`; `none` is nil. -/
abbrev SymbolPtr := Option Nat

/-- The entries of a Go `map[string]*Symbol`. -/
abbrev GoMap := AList fun _ : Bytes => SymbolPtr

/-- A Go map value: nil, or a reference to an allocated map. -/
abbrev MapRef := Option Nat

/-- The maps allocated so far: `maps r` is the map `r` refers to, and `next` the reference the
next allocation gets. -/
structure MapHeap where
  maps : Nat → GoMap
  next : Nat

def MapHeap.empty : MapHeap := ⟨fun _ => ∅, 0⟩

/-- What a map value holds; a nil map holds nothing. -/
def MapHeap.contents (H : MapHeap) : MapRef → GoMap
  | none => ∅
  | some r => H.maps r

/-- `make(map[string]*Symbol)`, or a copy of an existing map: a fresh reference. -/
def MapHeap.alloc (H : MapHeap) (m : GoMap) : Nat × MapHeap :=
  (H.next, ⟨Function.update H.maps H.next m, H.next + 1⟩)

/-- A write through the reference `r`. -/
def MapHeap.update (H : MapHeap) (r : Nat) (f : GoMap → GoMap) : MapHeap :=
  ⟨Function.update H.maps r (f (H.maps r)), H.next⟩

/-- `SymbolMap`: the map it wraps. -/
structure SymbolMap where
  m : MapRef
  deriving DecidableEq

/-! ## Constructors -/

def newSymbolTable (H : MapHeap) : SymbolMap × MapHeap :=
  let (r, H) := H.alloc ∅
  (⟨some r⟩, H)

/-- `NewSymbolTableWithCapacity`: the capacity only sizes the allocation. -/
def newSymbolTableWithCapacity (H : MapHeap) (_capacity : Int) : SymbolMap × MapHeap :=
  newSymbolTable H

def newSymbolTableFromMap (m : MapRef) : SymbolMap := ⟨m⟩

/-! ## Methods -/

/-- What `panic` says on `m[k] = v` with `m` nil. -/
def nilMapAssignment : Bytes := utf8 "assignment to entry in nil map"

namespace SymbolMap

def get (H : MapHeap) (t : SymbolMap) (name : Bytes) : SymbolPtr :=
  ((H.contents t.m).lookup name).getD none

def get2 (H : MapHeap) (t : SymbolMap) (name : Bytes) : SymbolPtr × Bool :=
  match (H.contents t.m).lookup name with
  | some symbol => (symbol, true)
  | none => (none, false)

/-- `Set`; on a nil map it panics. -/
def set (H : MapHeap) (t : SymbolMap) (name : Bytes) (symbol : SymbolPtr) :
    Except Bytes MapHeap :=
  match t.m with
  | none => .error nilMapAssignment
  | some r => .ok (H.update r (·.insert name symbol))

/-- `Delete`; on a nil map it does nothing. -/
def delete (H : MapHeap) (t : SymbolMap) (name : Bytes) : MapHeap :=
  match t.m with
  | none => H
  | some r => H.update r (·.erase name)

def len (H : MapHeap) (t : SymbolMap) : Nat :=
  (H.contents t.m).entries.length

/-- `Clone`: `maps.Clone` copies the entries into a fresh map, and returns nil for nil. -/
def clone (H : MapHeap) (t : SymbolMap) : SymbolMap × MapHeap :=
  match t.m with
  | none => (⟨none⟩, H)
  | some r =>
    let (r', H) := H.alloc (H.maps r)
    (⟨some r'⟩, H)

/-- `Find`, ranging over the map in `order`. -/
def find (predicate : SymbolPtr → Bool) : List (Bytes × SymbolPtr) → SymbolPtr
  | [] => none
  | (_, symbol) :: order => if predicate symbol then symbol else find predicate order

/-- `Iter()` called with `yield`, ranging in `order`: it stops once `yield` says false. -/
def iter {σ : Type} (yield : Bytes → SymbolPtr → StateM σ Bool) :
    List (Bytes × SymbolPtr) → StateM σ Unit
  | [] => pure ()
  | (name, symbol) :: order => do
    if ← yield name symbol then iter yield order

def keys {σ : Type} (yield : Bytes → StateM σ Bool) : List (Bytes × SymbolPtr) → StateM σ Unit
  | [] => pure ()
  | (name, _) :: order => do
    if ← yield name then keys yield order

def values {σ : Type} (yield : SymbolPtr → StateM σ Bool) :
    List (Bytes × SymbolPtr) → StateM σ Unit
  | [] => pure ()
  | (_, symbol) :: order => do
    if ← yield symbol then values yield order

def each {σ : Type} (fn : Bytes → SymbolPtr → StateM σ Unit) :
    List (Bytes × SymbolPtr) → StateM σ Unit
  | [] => pure ()
  | (name, symbol) :: order => do
    fn name symbol
    each fn order

end SymbolMap

/-- The orders the runtime may range over a map in: each entry once. -/
def GoMap.RangeOrder (m : GoMap) (order : List (Bytes × SymbolPtr)) : Prop :=
  order.Perm (m.entries.map fun e => (e.1, e.2))

/-! ## Internal symbol names -/

/-- `InternalSymbolNamePrefix`, the byte `0xFE`, which is not valid UTF-8. -/
def internalSymbolNamePrefix : Bytes := [0xFE]

def internalSymbolNameCall : Bytes := internalSymbolNamePrefix ++ utf8 "call"
def internalSymbolNameConstructor : Bytes := internalSymbolNamePrefix ++ utf8 "constructor"
def internalSymbolNameNew : Bytes := internalSymbolNamePrefix ++ utf8 "new"
def internalSymbolNameIndex : Bytes := internalSymbolNamePrefix ++ utf8 "index"
def internalSymbolNameExportStar : Bytes := internalSymbolNamePrefix ++ utf8 "export"
def internalSymbolNameGlobal : Bytes := internalSymbolNamePrefix ++ utf8 "global"
def internalSymbolNameMissing : Bytes := internalSymbolNamePrefix ++ utf8 "missing"
def internalSymbolNameType : Bytes := internalSymbolNamePrefix ++ utf8 "type"
def internalSymbolNameObject : Bytes := internalSymbolNamePrefix ++ utf8 "object"
def internalSymbolNameJSXAttributes : Bytes := internalSymbolNamePrefix ++ utf8 "jsxAttributes"
def internalSymbolNameClass : Bytes := internalSymbolNamePrefix ++ utf8 "class"
def internalSymbolNameFunction : Bytes := internalSymbolNamePrefix ++ utf8 "function"
def internalSymbolNameComputed : Bytes := internalSymbolNamePrefix ++ utf8 "computed"
def internalSymbolNameResolving : Bytes := internalSymbolNamePrefix ++ utf8 "resolving"
def internalSymbolNameInstantiationExpression : Bytes :=
  internalSymbolNamePrefix ++ utf8 "instantiationExpression"
def internalSymbolNameImportAttributes : Bytes :=
  internalSymbolNamePrefix ++ utf8 "importAttributes"
def internalSymbolNameExportEquals : Bytes := utf8 "export="
def internalSymbolNameDefault : Bytes := utf8 "default"
def internalSymbolNameThis : Bytes := utf8 "this"
def internalSymbolNameModuleExports : Bytes := utf8 "module.exports"

/-- The sixteen names built on `InternalSymbolNamePrefix`. -/
def prefixedInternalSymbolNames : List Bytes :=
  [internalSymbolNameCall, internalSymbolNameConstructor, internalSymbolNameNew,
    internalSymbolNameIndex, internalSymbolNameExportStar, internalSymbolNameGlobal,
    internalSymbolNameMissing, internalSymbolNameType, internalSymbolNameObject,
    internalSymbolNameJSXAttributes, internalSymbolNameClass, internalSymbolNameFunction,
    internalSymbolNameComputed, internalSymbolNameResolving,
    internalSymbolNameInstantiationExpression, internalSymbolNameImportAttributes]

end ApiServer
