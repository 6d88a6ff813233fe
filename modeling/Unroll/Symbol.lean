import Unroll.TypeId

/-! Symbols: what a type table knows about each of its types. -/

namespace Unroll

structure Field where
  name : String
  typ : TypeId := .void
  isMut : Bool := false
  isPub : Bool := false
  isShared : Bool := false
  isAtomic : Bool := false
  attrs : List String := []
deriving DecidableEq, Inhabited

structure Param where
  name : String
  typ : TypeId := .void
deriving DecidableEq, Inhabited

structure Method where
  name : String
  params : List Param := []
  returnType : TypeId := .void
  attrs : List String := []
deriving DecidableEq, Inhabited

/-- A type built from other types. Containers with the same parts are the same type. -/
inductive Container where
  | array (elem : TypeId)
  | fixedArray (elem : TypeId) (size : Nat)
  | map (key value : TypeId)
deriving DecidableEq, Inhabited

/-- What a container is, whatever its parts are. -/
inductive Container.Kind where
  | array
  | fixedArray
  | map
deriving DecidableEq

namespace Container

def kind : Container → Kind
  | array _ => .array
  | fixedArray _ _ => .fixedArray
  | map _ _ => .map

def parts : Container → List TypeId
  | array elem => [elem]
  | fixedArray elem _ => [elem]
  | map key value => [key, value]

/-- The type of what indexing yields: the element, or the value of a map. -/
def valueType : Container → TypeId
  | array elem => elem
  | fixedArray elem _ => elem
  | map _ value => value

def isGeneric (c : Container) : Bool := c.parts.any (·.isGeneric)

end Container

structure StructDecl where
  fields : List Field := []
  /-- The generic parameters the struct is declared over. -/
  generics : List TypeId := []
  /-- Structs whose fields are found through this one, in order of declaration. -/
  embeds : List TypeId := []
deriving DecidableEq, Inhabited

inductive SymbolKind where
  | builtin
  | struct (decl : StructDecl)
  | genericParam
  | container (shape : Container)
  | aliasOf (parent : TypeId)
  | enum (values : List String)
deriving DecidableEq, Inhabited

structure Symbol where
  name : String
  kind : SymbolKind := .builtin
  methods : List Method := []
deriving DecidableEq, Inhabited

namespace Symbol

def struct? (s : Symbol) : Option StructDecl :=
  match s.kind with
  | .struct decl => some decl
  | _ => none

def container? (s : Symbol) : Option Container :=
  match s.kind with
  | .container shape => some shape
  | _ => none

/-- The first field of that name declared by the struct itself. -/
def findField? (s : Symbol) (name : String) : Option Field :=
  s.struct?.bind fun decl => decl.fields.find? (·.name == name)

/-- The first method of that name. -/
def findMethod? (s : Symbol) (name : String) : Option Method := s.methods.find? (·.name == name)

def embeds (s : Symbol) : List TypeId := s.struct?.elim [] (·.embeds)

def isArray (s : Symbol) : Bool :=
  match s.kind with
  | .container (.array _) | .container (.fixedArray _ _) => true
  | _ => false

def isMap (s : Symbol) : Bool :=
  match s.kind with
  | .container (.map _ _) => true
  | _ => false

def isAlias (s : Symbol) : Bool :=
  match s.kind with
  | .aliasOf _ => true
  | _ => false

def isEnum (s : Symbol) : Bool :=
  match s.kind with
  | .enum _ => true
  | _ => false

def isStruct (s : Symbol) : Bool := s.struct?.isSome

def isGenericStruct (s : Symbol) : Bool := s.struct?.any (!·.generics.isEmpty)

end Symbol

end Unroll
