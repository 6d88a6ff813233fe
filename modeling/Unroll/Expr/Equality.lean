import Unroll.Expr.Basic

/-!
Structural equality of expressions, ranges included. Floats are compared as numbers, so an
expression that holds a NaN differs from itself.
-/

namespace Unroll.Expr

mutual

def beq : Expr → Expr → Bool
  | int v s, int w t => v == w && s == t
  | float v s, float w t => v == w && s == t
  | bool v s, bool w t => v == w && s == t
  | string v s, string w t => v == w && s == t
  | ident x s, ident y t => x == y && s == t
  | selector e f fs s, selector e' f' fs' t => beq e e' && f == f' && fs == fs' && s == t
  | spliceField e ty f s, spliceField e' ty' f' t => beq e e' && ty == ty' && beq f f' && s == t
  | spliceCall e ty as ms s, spliceCall e' ty' bs ms' t =>
      beq e e' && ty == ty' && beqList as bs && ms == ms' && s == t
  | call n as tys s, call n' bs tys' t => n == n' && beqList as bs && tys == tys' && s == t
  | index e i s, index e' i' t => beq e e' && beq i i' && s == t
  | group e s, group e' t => beq e e' && s == t
  | binary l o r s, binary l' o' r' t => beq l l' && o == o' && beq r r' && s == t
  | cast e ty s, cast e' ty' t => beq e e' && ty == ty' && s == t
  | _, _ => false

def beqList : List Expr → List Expr → Bool
  | [], [] => true
  | a :: as, b :: bs => beq a b && beqList as bs
  | _, _ => false

end

instance : BEq Expr := ⟨beq⟩

end Unroll.Expr
