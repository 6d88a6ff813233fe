import Unroll.Span

/-! Why a type cannot be resolved, and how it is explained. -/

namespace Unroll

inductive ResolveError where
  /-- The receiver's type has no method of the name that the enclosing loop is at. -/
  | methodNotFound (method receiver : String) (file : String) (extent : Extent)
  /-- Neither the type of `expr` nor a struct it embeds has the field. -/
  | fieldNotFound (expr field : String) (file : String) (extent : Extent)
deriving DecidableEq

namespace ResolveError

def file : ResolveError → String
  | methodNotFound _ _ file _ | fieldNotFound _ _ file _ => file

def extent : ResolveError → Extent
  | methodNotFound _ _ _ extent | fieldNotFound _ _ _ extent => extent

def code : ResolveError → String
  | methodNotFound .. => "E2201"
  | fieldNotFound .. => "E2202"

def message : ResolveError → String
  | methodNotFound method receiver _ _ =>
      "could not find method `" ++ method ++ "` on `" ++ receiver ++
        "` during compile-time resolution"
  | fieldNotFound expr field _ _ => "`" ++ expr ++ "` has no field named `" ++ field ++ "`"

/-- The text under the marked source range. -/
def label : ResolveError → String
  | methodNotFound method _ _ _ => "no method `" ++ method ++ "` on this receiver"
  | fieldNotFound _ field _ _ => "field `" ++ field ++ "` is not declared here"

def help? : ResolveError → Option String
  | methodNotFound .. => some ("the method bound by the enclosing compile-time method loop " ++
      "must exist on the receiver type")
  | fieldNotFound .. => none

end ResolveError

end Unroll
