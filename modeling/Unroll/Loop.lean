import Unroll.Expr.Basic
import Unroll.Symbol

/-!
Compile-time loops. A loop over the variants, fields, methods and so on of a type is unrolled: its
body is resolved once for each member, with the member recorded in the active context.
-/

namespace Unroll

/-- What is known about the enclosing loops. Each category of loop has its own slots, which a nested
loop of the same category takes over. -/
structure Context where
  /-- Zero outside of all loops. -/
  loopId : UInt32 := 0
  insideLoop : Bool := false
  variantVar : Option String := none
  fieldVar : Option String := none
  fieldType : TypeId := .void
  field : Option Field := none
  enumVar : Option String := none
  attrVar : Option String := none
  methodVar : Option String := none
  method : Option Method := none
  methodReturnType : TypeId := .void
  methodParamVar : Option String := none
deriving DecidableEq, Inhabited

namespace Context

/-- A name for something generated inside the loop, different for each time the loop is entered. -/
def uniqueName (ctx : Context) (base : String) : String := base ++ "_" ++ toString ctx.loopId

/-- Whether `base.field` asks for the type of a loop variable: `var.typ`. -/
def isTypeSelector (ctx : Context) (base : Expr) (field : String) : Bool :=
  ctx.insideLoop && field == "typ" && base.ident?.any fun x =>
    [ctx.enumVar, ctx.variantVar, ctx.fieldVar, ctx.methodVar].contains (some x.name)

/-- Whether `base` is the variable of the enclosing field loop. -/
def isFieldSelector (ctx : Context) (base : Expr) : Bool :=
  base.ident?.any fun x => ctx.fieldVar == some x.name

/-- The members of a field variable that are true or false. -/
def fieldProperties : List String :=
  ["is_mut", "is_pub", "is_shared", "is_atomic", "is_option", "is_array", "is_map", "is_chan",
   "is_struct", "is_alias", "is_enum"]

/-- Whether `base.field` asks for such a member of the field variable. -/
def isFieldProperty (ctx : Context) (base : Expr) (field : String) : Bool :=
  ctx.isFieldSelector base && fieldProperties.contains field

end Context

/-- One iteration of a compile-time loop: its variable and the member it is at. -/
inductive Loop where
  | variant (var : String)
  | field (var : String) (field : Field)
  | enumValue (var : String)
  | attr (var : String)
  | method (var : String) (method : Method)
  | methodParam (var : String)
deriving DecidableEq

namespace Loop

def var : Loop → String
  | variant v | field v _ | enumValue v | attr v | method v _ | methodParam v => v

def category : Loop → String
  | variant _ => "variant"
  | field _ _ => "field"
  | enumValue _ => "enum value"
  | attr _ => "attribute"
  | method _ _ => "method"
  | methodParam _ => "method parameter"

/-- Records the iteration in a context. The slots of other categories keep what they hold. -/
def apply (l : Loop) (id : UInt32) (ctx : Context) : Context :=
  let ctx := { ctx with loopId := id, insideLoop := true }
  match l with
  | variant v => { ctx with variantVar := some v }
  | field v f => { ctx with fieldVar := some v, fieldType := f.typ, field := some f }
  | enumValue v => { ctx with enumVar := some v }
  | attr v => { ctx with attrVar := some v }
  | method v m =>
      { ctx with methodVar := some v, methodReturnType := m.returnType, method := some m }
  | methodParam v => { ctx with methodParamVar := some v }

end Loop

/-! ## Saved contexts -/

/-- Contexts put aside while inner loops run, innermost first. -/
abbrev ContextStack := List Context

namespace ContextStack

def push (s : ContextStack) (ctx : Context) : ContextStack := ctx :: s

/-- The context saved last, and the stack without it. -/
def pop? : ContextStack → Option (Context × ContextStack)
  | [] => none
  | ctx :: s => some (ctx, s)

def depth (s : ContextStack) : Nat := s.length

def top? (s : ContextStack) : Option Context := s.head?

end ContextStack

end Unroll
