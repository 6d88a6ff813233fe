import Unroll.Expr.Printer
import Unroll.Resolver.Basic
import Unroll.ResolveError

/-!
The types of expressions inside generic code, as far as they depend on the instantiation and on the
enclosing compile-time loops. `void` stands for "not known here".
-/

namespace Unroll.Resolver

/-! ## Which expressions depend on compile-time knowledge -/

def isStatic : Expr → Bool
  | .ident x _ => x.isStatic
  | .index object _ _ => object.staticIdent?.isSome
  | .selector base _ _ _ => base.staticIdent?.isSome
  | .binary left _ right _ => isStatic left || isStatic right
  | .group inner _ => isStatic inner
  | .spliceField .. | .spliceCall .. => true
  | _ => false

def bindingKind : Expr → BindingKind
  | .ident x _ => x.kind
  | .index object _ _ => bindingKind object
  | .binary left _ _ _ => bindingKind left
  | .group inner _ => bindingKind inner
  | _ => .other

def isGenericParamVar (e : Expr) : Bool := e.ident?.any (·.kind == .genericParam)

def isGenericExpr : Expr → Bool
  | .call _ _ typeArgs _ => !typeArgs.isEmpty
  | e@(.ident ..) => isGenericParamVar e
  | .index object _ _ => isGenericParamVar object
  | .spliceField receiver _ _ _ => isGenericParamVar receiver
  | .cast _ ty _ => ty.isGeneric
  | _ => false

/-! ## Types of variables and members -/

variable (r : Resolver)

def unwrap (ty : TypeId) : TypeId := r.instantiation.unwrap ty

/-- The type of a variable by the way it was bound. -/
def variableType (v : Variable) : TypeId :=
  match v.kind with
  | .genericParam => v.typ
  | .genericVar =>
      (v.lastCast? <|> r.typeMap.getKey? (.genericVar v.name v.pos.start)).getD v.typ
  | .smartcast =>
      let ty := (r.context.variantVar.bind fun x => r.typeMap.getKey? (.selector x)).getD v.typ
      if v.isUnwrapped then ty.clear .option else ty
  | .keyVar | .valueVar => (r.typeMap.getKey? (.var v.name)).getD .void
  | .fieldVar => r.context.fieldType
  | .other => .void

/-- The type that `name.typ` stands for inside a loop. -/
def loopVarType (name : String) : TypeId :=
  if r.context.variantVar == some name || r.context.methodParamVar == some name then
    (r.typeMap.getKey? (.selector name)).getD .void
  else r.context.fieldType

/-- The type of `receiver.$(field)`: that of the current field where `field` is its name. -/
def spliceFieldType (field : Expr) (default : TypeId) : TypeId :=
  match field with
  | .selector base "name" _ _ =>
      if r.context.isFieldSelector base then r.unwrap r.context.fieldType else default
  | _ => default

/-- The type of `receiver.$method(…)`: what the method that the enclosing loop is at returns. -/
def spliceCallType (receiverType : TypeId) (methodSpan : Span) : Except ResolveError TypeId :=
  let name := r.context.method.elim "" (·.name)
  let receiver := r.unwrap receiverType
  match (r.table.symbol? receiver).bind (·.findMethod? name) with
  | some m => .ok m.returnType
  | none => .error (.methodNotFound name (r.table.describe receiver) r.instantiation.file
      methodSpan.extent)

/-- The field of the receiver that the enclosing field loop is at. -/
def spliceFieldDecl (receiver : Expr) (receiverType : TypeId) : Except ResolveError Field :=
  let name := r.context.field.elim "" (·.name)
  match (r.table.finalSymbol? (r.unwrap receiverType)).bind (r.table.findField? · name) with
  | some f => .ok f
  | none => .error (.fieldNotFound receiver.text name r.instantiation.file receiver.span.extent)

/-- The value of a true-or-false member of the field variable. -/
def fieldProperty? (name : String) : Option Bool :=
  r.context.field.bind fun f =>
    let ty := r.unwrap r.context.fieldType
    let final := r.table.finalSymbol? ty
    match name with
    | "is_mut" => some f.isMut
    | "is_pub" => some f.isPub
    | "is_shared" => some f.isShared
    | "is_atomic" => some f.isAtomic
    | "is_option" => some ty.isOption
    | "is_array" => some (final.any (·.isArray))
    | "is_map" => some (final.any (·.isMap))
    | "is_chan" => some false
    | "is_struct" => some (final.any (·.isStruct))
    | "is_alias" => some ((r.table.symbol? ty).any (·.isAlias))
    | "is_enum" => some (final.any (·.isEnum))
    | _ => none

/-! ## Types of expressions -/

/-- The type of an expression, `void` where compile-time knowledge does not give one. -/
def getType : Expr → Except ResolveError TypeId
  | .ident x _ => .ok (x.binding.elim .void r.variableType)
  | .spliceField _ _ field _ => .ok (r.spliceFieldType field .void)
  | .selector base field _ _ => .ok <|
      match base.ident? with
      | some x => if r.context.isTypeSelector base field then r.loopVarType x.name else .void
      | none => .void
  | .spliceCall _ receiverType _ methodSpan _ => r.spliceCallType receiverType methodSpan
  | .index object _ _ =>
      if isStatic object then do return r.table.valueType (r.unwrap (← getType object))
      else .ok .void
  | _ => .ok .void

/-- The declared type of a field selected from a variable whose type is a generic struct. -/
def genericFieldType? (base : Expr) (field : String) : Except ResolveError (Option TypeId) :=
  if base.staticIdent?.isSome then do
    let ty ← r.getType base
    match r.table.finalSymbol? (r.unwrap ty) with
    | some s =>
        if s.isGenericStruct then
          return ((s.findField? field).map (·.typ)).filter (!·.isVoid)
        else return none
    | none => return none
  else .ok none

/-- The type of an expression as far as its leftmost operand gives one, and else `default`. -/
def getTypeD (default : TypeId) : Expr → Except ResolveError TypeId
  | e@(.ident x _) =>
      if x.isStatic then do
        let ty ← r.getType e
        return if ty.isVoid then default else ty
      else .ok default
  | .selector base field _ _ => do return (← r.genericFieldType? base field).getD default
  | .group inner _ => getTypeD default inner
  | .binary left op _ _ => if op.isArithmetic then getTypeD default left else .ok default
  | _ => .ok default

/-- The type of an expression that depends on compile-time knowledge, and `default` for any other
and where the type is not known. -/
def getStaticTypeD (default : TypeId) (e : Expr) : Except ResolveError TypeId :=
  if isStatic e then do
    let ty ← r.getType e
    return if ty.isVoid then default else ty
  else .ok default

end Unroll.Resolver
