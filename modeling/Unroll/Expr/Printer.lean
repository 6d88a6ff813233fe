import Unroll.Decimal
import Unroll.Expr.Basic
import Unroll.Text

/-! The source form of expressions, as diagnostics quote it. -/

namespace Unroll.Expr

mutual

/-- The expression on one line. No table is at hand to name types, so only the number of type
arguments and the cast itself are shown. -/
def text : Expr → String
  | int v _ => toString v
  | float v _ => Decimal.floatText v
  | bool v _ => if v then "true" else "false"
  | string v _ => Text.quote v
  | ident x _ => x.name
  | selector e field _ _ => text e ++ "." ++ field
  | spliceField e _ field _ => text e ++ ".$(" ++ text field ++ ")"
  | spliceCall e _ args _ _ => text e ++ ".$method(" ++ ", ".intercalate (texts args) ++ ")"
  | call name args tys _ =>
      let types := if tys.isEmpty then "" else "[" ++ toString tys.length ++ " types]"
      name ++ types ++ "(" ++ ", ".intercalate (texts args) ++ ")"
  | index e i _ => text e ++ "[" ++ text i ++ "]"
  | group e _ => "(" ++ text e ++ ")"
  | binary l op r _ => text l ++ " " ++ op.symbol ++ " " ++ text r
  | cast e _ _ => "cast(" ++ text e ++ ")"

def texts : List Expr → List String
  | [] => []
  | e :: es => text e :: texts es

end

end Unroll.Expr
