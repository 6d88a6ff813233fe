import Unroll.Span
import Unroll.TypeId

/-! Variables and the identifiers that refer to them. -/

namespace Unroll

/-- How a variable came to be bound, which decides where its type is looked up. -/
inductive BindingKind where
  /-- A parameter whose declared type mentions a generic parameter. -/
  | genericParam
  /-- A local variable whose type depends on the instantiation. -/
  | genericVar
  /-- A variable narrowed to the variant that the enclosing loop is at. -/
  | smartcast
  /-- The key of a loop over a value of generic type. -/
  | keyVar
  /-- The value of a loop over a value of generic type. -/
  | valueVar
  /-- The field that the enclosing loop is at. -/
  | fieldVar
  | other
deriving DecidableEq, Inhabited

namespace BindingKind

def isLoopVar : BindingKind → Bool
  | keyVar | valueVar => true
  | _ => false

/-- Whether the type of such a variable is known only during compile-time resolution. -/
def isStatic (k : BindingKind) : Bool := k != other

end BindingKind

structure Variable where
  name : String
  typ : TypeId := .void
  kind : BindingKind := .other
  /-- The types the variable was narrowed to, oldest first. -/
  casts : List TypeId := []
  /-- The option of the variable's type was removed by a check. -/
  isUnwrapped : Bool := false
  pos : Span := {}
deriving DecidableEq, Inhabited

def Variable.lastCast? (v : Variable) : Option TypeId := v.casts.getLast?

/-- A use of a name. It need not be resolved to a variable, and it keeps the name as written. -/
structure Ident where
  name : String
  binding : Option Variable := none
  /-- The use stands for something known at compile time. -/
  isStatic : Bool := false
deriving DecidableEq, Inhabited

namespace Ident

def ofVariable (v : Variable) : Ident := ⟨v.name, some v, v.kind.isStatic⟩

def kind (x : Ident) : BindingKind := x.binding.elim .other (·.kind)

end Ident

end Unroll
