import Unroll.Binding

/-!
Expressions. Every node carries the source range it was read from; the constructors that join
subexpressions compute that range from the ranges of their parts.
-/

namespace Unroll

inductive BinaryOp where
  | add | sub | mul | div | mod
  | eq | ne | lt | gt | le | ge
  | and | or
deriving DecidableEq

namespace BinaryOp

def symbol : BinaryOp → String
  | add => "+"
  | sub => "-"
  | mul => "*"
  | div => "/"
  | mod => "%"
  | eq => "=="
  | ne => "!="
  | lt => "<"
  | gt => ">"
  | le => "<="
  | ge => ">="
  | and => "&&"
  | or => "||"

def isArithmetic : BinaryOp → Bool
  | add | sub | mul | div | mod => true
  | _ => false

end BinaryOp

inductive Expr where
  | int (value : Int) (span : Span)
  | float (value : Float) (span : Span)
  | bool (value : Bool) (span : Span)
  | string (value : String) (span : Span)
  | ident (id : Ident) (span : Span)
  /-- `base.field` -/
  | selector (base : Expr) (field : String) (fieldSpan : Span) (span : Span)
  /-- `receiver.$(field)`: the member that a compile-time expression names. -/
  | spliceField (receiver : Expr) (receiverType : TypeId) (field : Expr) (span : Span)
  /-- `receiver.$method(args)`: a call of the method that the enclosing loop is at. -/
  | spliceCall (receiver : Expr) (receiverType : TypeId) (args : List Expr) (methodSpan : Span)
      (span : Span)
  | call (name : String) (args : List Expr) (typeArgs : List TypeId) (span : Span)
  | index (object : Expr) (index : Expr) (span : Span)
  | group (inner : Expr) (span : Span)
  | binary (left : Expr) (op : BinaryOp) (right : Expr) (span : Span)
  | cast (operand : Expr) (typ : TypeId) (span : Span)
deriving Inhabited

namespace Expr

def span : Expr → Span
  | int _ s | float _ s | bool _ s | string _ s | ident _ s | selector _ _ _ s
  | spliceField _ _ _ s | spliceCall _ _ _ _ s | call _ _ _ s | index _ _ s | group _ s
  | binary _ _ _ s | cast _ _ s => s

def withSpan (s : Span) : Expr → Expr
  | int v _ => int v s
  | float v _ => float v s
  | bool v _ => bool v s
  | string v _ => string v s
  | ident x _ => ident x s
  | selector base field fieldSpan _ => selector base field fieldSpan s
  | spliceField receiver ty field _ => spliceField receiver ty field s
  | spliceCall receiver ty args methodSpan _ => spliceCall receiver ty args methodSpan s
  | call name args typeArgs _ => call name args typeArgs s
  | index object i _ => index object i s
  | group inner _ => group inner s
  | binary left op right _ => binary left op right s
  | cast operand ty _ => cast operand ty s

/-! ## Constructors that compute the range -/

def mkSelector (base : Expr) (field : String) (fieldSpan : Span) : Expr :=
  selector base field fieldSpan (base.span.through fieldSpan)

def mkSpliceField (receiver : Expr) (receiverType : TypeId) (field : Expr) : Expr :=
  spliceField receiver receiverType field (receiver.span.through field.span)

def mkSpliceCall (receiver : Expr) (receiverType : TypeId) (args : List Expr)
    (methodSpan : Span) : Expr :=
  spliceCall receiver receiverType args methodSpan (receiver.span.through methodSpan)

def mkIndex (object i : Expr) : Expr := index object i (object.span.through i.span)

def mkGroup (inner : Expr) : Expr := group inner inner.span

def mkBinary (left : Expr) (op : BinaryOp) (right : Expr) : Expr :=
  binary left op right (left.span.through right.span)

def mkCast (operand : Expr) (ty : TypeId) : Expr := cast operand ty operand.span

/-! ## Views -/

def ident? : Expr → Option Ident
  | ident x _ => some x
  | _ => none

/-- The identifier that an expression is, if it is one known at compile time. -/
def staticIdent? (e : Expr) : Option Ident := e.ident?.filter (·.isStatic)

end Expr

end Unroll
