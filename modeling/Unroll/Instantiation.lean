import Unroll.Table

/-!
Instantiations of a generic function: which type each generic parameter stands for, and for each
generic container of the table the concrete container it becomes.
-/

namespace Unroll

structure Instantiation where
  /-- The file the generic code was read from. -/
  file : String := ""
  bindings : Bindings := {}
  containers : Bindings := {}

namespace Instantiation

def bind (s : Instantiation) (param ty : TypeId) : Instantiation :=
  { s with bindings := s.bindings.insert param.index ty }

/-- Binds parameters to arguments in order, as far as both lists reach. -/
def bindAll (s : Instantiation) (params args : List TypeId) : Instantiation :=
  (params.zip args).foldl (fun s p => s.bind p.1 p.2) s

def binding? (s : Instantiation) (param : TypeId) : Option TypeId := s.bindings[param.index]?

/-- Forgets all bindings and containers. -/
def clear (s : Instantiation) : Instantiation := { file := s.file }

/-- Records what one generic container becomes, unless it stays as it is. -/
def instantiateContainer (s : Instantiation) (t : Table) (generic : TypeId) :
    Option (Instantiation × Table) := do
  let (concrete, t) ← t.substitute s.bindings generic
  if concrete.index == generic.index then return (s, t)
  return ({ s with containers := s.containers.insert generic.index concrete }, t)

/-- Records what the listed containers become, one after another. -/
def instantiateInOrder (s : Instantiation) (t : Table) : List TypeId →
    Option (Instantiation × Table)
  | [] => some (s, t)
  | generic :: rest => do
    let (s, t) ← s.instantiateContainer t generic
    s.instantiateInOrder t rest

/-- Substitutes the bindings in every generic container of the table: `none` only if one contains
itself. Any other order of the containers would do as well. -/
def instantiate (s : Instantiation) (t : Table) : Option (Instantiation × Table) :=
  { s with containers := {} }.instantiateInOrder t t.genericContainers

/-- The concrete type that a generic type stands for, wrapped as `ty` is. Types that the
instantiation says nothing about stay as they are. -/
def unwrap (s : Instantiation) (ty : TypeId) : TypeId :=
  if ty.isGeneric then
    (s.bindings[ty.index]? <|> s.containers[ty.index]?).elim ty (·.wrappedLike ty)
  else ty

end Instantiation

end Unroll
