import Std.Data.TreeMap
import Unroll.Symbol

/-!
The type table. Symbols are never removed and never move, so an index once issued stays good.
Declared symbols are found by name, and a container that was interned is found by its parts. Both
look-ups scan the entries themselves: there is no index beside them that could fall out of step.
-/

namespace Unroll

/-- How a symbol came into the table. -/
inductive Origin where
  /-- By a declaration, which another declaration of the same name may replace. -/
  | declared
  /-- As the one symbol of a container. Its name is for display and is not looked up. -/
  | interned
deriving DecidableEq, Inhabited

structure Entry where
  symbol : Symbol
  origin : Origin
deriving DecidableEq, Inhabited

structure Table where
  entries : Array Entry
deriving DecidableEq

/-- Types bound to the indices of generic parameters. -/
abbrev Bindings := Std.TreeMap Nat TypeId

namespace Table

/-- The table of the predeclared types, each at the index of its id. -/
def initial : Table :=
  ⟨(TypeId.builtinNames.map fun name => ⟨{ name }, .declared⟩).toArray⟩

instance : Inhabited Table := ⟨initial⟩

def size (t : Table) : Nat := t.entries.size

/-- The symbol an id refers to. Flags play no part. -/
def symbol? (t : Table) (ty : TypeId) : Option Symbol := (t.entries[ty.index]?).map (·.symbol)

def kind? (t : Table) (ty : TypeId) : Option SymbolKind := (t.symbol? ty).map (·.kind)

/-- A type as users write it: its wrappers in front of its name. -/
def describe (t : Table) (ty : TypeId) : String :=
  let wrappers := (if ty.isOption then "?" else "") ++ (if ty.isResult then "!" else "")
  wrappers ++ match t.symbol? ty with
    | some s => s.name
    | none => "<unknown type #" ++ toString ty.index ++ ">"

/-! ## Declarations -/

def findType? (t : Table) (name : String) : Option TypeId :=
  (t.entries.findIdx? fun e => e.origin == .declared && e.symbol.name == name).map TypeId.ofIndex

/-- The id that the next new symbol gets. -/
def nextId (t : Table) : TypeId := .ofIndex t.size

def push (t : Table) (e : Entry) : Table := ⟨t.entries.push e⟩

/-- Declares a symbol. A name declared before keeps its id and takes the new symbol. -/
def declare (t : Table) (s : Symbol) : TypeId × Table :=
  match t.findType? s.name with
  | some ty => (ty, ⟨t.entries.setIfInBounds ty.index ⟨s, .declared⟩⟩)
  | none => (t.nextId, t.push ⟨s, .declared⟩)

def declareStruct (t : Table) (name : String) (decl : StructDecl) : TypeId × Table :=
  t.declare { name, kind := .struct decl }

def declareAlias (t : Table) (name : String) (parent : TypeId) : TypeId × Table :=
  t.declare { name, kind := .aliasOf parent }

def declareEnum (t : Table) (name : String) (values : List String) : TypeId × Table :=
  t.declare { name, kind := .enum values }

/-- Declares a generic parameter. The id returned is marked generic. -/
def declareGenericParam (t : Table) (name : String) : TypeId × Table :=
  let (ty, t) := t.declare { name, kind := .genericParam }
  (ty.set .generic, t)

/-- Adds a method behind those the symbol has, if there is such a symbol. -/
def addMethod? (t : Table) (ty : TypeId) (m : Method) : Option Table :=
  (t.entries[ty.index]?).map fun e =>
    ⟨t.entries.setIfInBounds ty.index
      { e with symbol := { e.symbol with methods := e.symbol.methods ++ [m] } }⟩

/-! ## Containers -/

/-- The name of a container with these parts, as types are written in source. -/
def containerName (t : Table) : Container → String
  | .array elem => "[]" ++ t.describe elem
  | .fixedArray elem size => "[" ++ toString size ++ "]" ++ t.describe elem
  | .map key value => "map[" ++ t.describe key ++ "]" ++ t.describe value

/-- A container's id at an index: generic if a part of it is. -/
def containerId (c : Container) (i : Nat) : TypeId :=
  if c.isGeneric then (TypeId.ofIndex i).set .generic else .ofIndex i

def interned? (t : Table) (c : Container) : Option TypeId :=
  (t.entries.findIdx? fun e => e.origin == .interned && e.symbol.kind == .container c).map
    (containerId c)

/-- The id of a container, which is added to the table when it is met first. -/
def intern (t : Table) (c : Container) : TypeId × Table :=
  match t.interned? c with
  | some ty => (ty, t)
  | none =>
    (containerId c t.size, t.push ⟨{ name := t.containerName c, kind := .container c }, .interned⟩)

/-- The ids of the interned containers of one kind that mention a generic parameter, in the order in
which they were interned. -/
def genericContainersOf (t : Table) (kind : Container.Kind) : List TypeId :=
  t.entries.toList.zipIdx.filterMap fun (e, i) =>
    match e.origin, e.symbol.kind with
    | .interned, .container c =>
      if c.kind = kind ∧ c.isGeneric then some (containerId c i) else none
    | _, _ => none

/-- The ids of all interned containers that mention a generic parameter: the arrays, then the fixed
arrays, then the maps. -/
def genericContainers (t : Table) : List TypeId :=
  [.array, .fixedArray, .map].flatMap t.genericContainersOf

/-! ## Aliases -/

/-- How many aliases are followed before the search gives up. Aliases may form a cycle. -/
def aliasLimit : Nat := 64

/-- Follows at most `n` aliases. Wrappers met on the way add up. -/
def unaliasWithin (t : Table) : Nat → TypeId → TypeId
  | 0, ty => ty
  | n + 1, ty =>
    match t.kind? ty with
    | some (.aliasOf parent) => t.unaliasWithin n (parent.wrappedLike ty)
    | _ => ty

def unalias (t : Table) (ty : TypeId) : TypeId := t.unaliasWithin aliasLimit ty

def finalSymbol? (t : Table) (ty : TypeId) : Option Symbol := t.symbol? (t.unalias ty)

/-- A byte of a string, an element of an array, a value of a map, and `void` for a type without
elements. -/
def valueType (t : Table) (ty : TypeId) : TypeId :=
  let ty := t.unalias ty
  if ty.index == TypeId.string.index then .u8
  else ((t.symbol? ty).bind (·.container?)).elim .void (·.valueType)

/-! ## Embedded structs

The search for a field goes level by level and in order of declaration within a level, so a field
declared nearer to the surface hides the ones below it. Embeddings may form a cycle; no index is
visited twice. -/

/-- Every index that a search from these embeds can meet. -/
def embedIndices (t : Table) (embeds : List TypeId) : List Nat :=
  (embeds ++ t.entries.toList.flatMap (·.symbol.embeds)).map (·.index)

/-- Searches a queue of embeds, none of which is visited unless its index is still in `unseen`. -/
def searchEmbeds (t : Table) (name : String) (unseen : List Nat) : List TypeId → Option Field
  | [] => none
  | ty :: queue =>
    if h : ty.index ∈ unseen then
      have : (unseen.filter (· != ty.index)).length < unseen.length :=
        List.length_filter_lt_length_iff_exists.2 ⟨_, h, by simp⟩
      match t.finalSymbol? ty with
      | none => t.searchEmbeds name (unseen.filter (· != ty.index)) queue
      | some s =>
        match s.findField? name with
        | some f => some f
        | none => t.searchEmbeds name (unseen.filter (· != ty.index)) (queue ++ s.embeds)
    else t.searchEmbeds name unseen queue
termination_by queue => (unseen.length, queue.length)

/-- The field of that name: the symbol's own, or else the nearest one among its embeds. -/
def findField? (t : Table) (s : Symbol) (name : String) : Option Field :=
  s.findField? name <|> t.searchEmbeds name (t.embedIndices s.embeds) s.embeds

/-! ## Substitution -/

/-- Substitution through at most `depth` nested containers, and `none` if there are more. -/
def substituteWithin (subs : Bindings) : Nat → Table → TypeId → Option (TypeId × Table)
  | 0, _, _ => none
  | depth + 1, t, ty =>
    if subs.isEmpty || !ty.isGeneric then some (ty, t) else
    match t.kind? ty with
    | some .genericParam => some ((subs[ty.index]?).elim ty (·.wrappedLike ty), t)
    | some (.container (.array elem)) => do
      let (elem, t) ← substituteWithin subs depth t elem
      let (id, t) := t.intern (.array elem)
      return (id.wrappedLike ty, t)
    | some (.container (.fixedArray elem size)) => do
      let (elem, t) ← substituteWithin subs depth t elem
      let (id, t) := t.intern (.fixedArray elem size)
      return (id.wrappedLike ty, t)
    | some (.container (.map key value)) => do
      let (key, t) ← substituteWithin subs depth t key
      let (value, t) ← substituteWithin subs depth t value
      let (id, t) := t.intern (.map key value)
      return (id.wrappedLike ty, t)
    | _ => some (ty, t)

/-- Replaces each bound generic parameter inside `ty`, interning the containers this makes. A
container that contains itself has no answer. -/
def substitute (t : Table) (subs : Bindings) (ty : TypeId) : Option (TypeId × Table) :=
  substituteWithin subs (TypeId.capacity + 1) t ty

end Table

end Unroll
