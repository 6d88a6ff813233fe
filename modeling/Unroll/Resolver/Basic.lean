import Unroll.Instantiation
import Unroll.Loop
import Unroll.TypeMap

/-!
The state of a resolver and the operations that change it. Entering a loop saves the active context
and leaving it brings the saved one back; recorded types and the loop counter are not rolled back.
-/

namespace Unroll

/-- What to do when a context is to be restored and none is saved. -/
inductive UnderflowPolicy where
  | ignore
  | abort
deriving DecidableEq, Inhabited

/-- The policy a setting asks for. Only `1` and `true`, in any case, ask for strictness. -/
def UnderflowPolicy.ofSetting : Option String → UnderflowPolicy
  | some value => if value == "1" || value.toLower == "true" then .abort else .ignore
  | none => .ignore

/-- A context was to be restored and none was saved. -/
inductive StackFault where
  | underflow
deriving DecidableEq

def StackFault.message : StackFault → String
  | underflow => "comptime context stack underflow: pop without matching push"

structure Resolver where
  table : Table
  instantiation : Instantiation
  context : Context := {}
  saved : ContextStack := []
  typeMap : TypeMap := {}
  policy : UnderflowPolicy := .ignore
  /-- The last loop id handed out. -/
  loopCounter : UInt32 := 0

namespace Resolver

/-- Saves the active context, which also stays active. -/
def push (r : Resolver) : Resolver := { r with saved := r.saved.push r.context }

/-- Makes the context saved last the active one. -/
def pop (r : Resolver) : Except StackFault Resolver :=
  match r.saved.pop?, r.policy with
  | some (context, saved), _ => .ok { r with context, saved }
  | none, .ignore => .ok r
  | none, .abort => .error .underflow

/-- The next loop id. Ids are never zero. -/
def nextLoopId (r : Resolver) : UInt32 × Resolver :=
  let id := max (r.loopCounter + 1) 1
  (id, { r with loopCounter := id })

def modifyContext (r : Resolver) (f : Context → Context) : Resolver :=
  { r with context := f r.context }

def modifyTypeMap (r : Resolver) (f : TypeMap → TypeMap) : Resolver :=
  { r with typeMap := f r.typeMap }

/-- Enters an iteration of a loop under a new loop id. -/
def enter (r : Resolver) (l : Loop) : Resolver :=
  let (id, r) := r.push.nextLoopId
  r.modifyContext (l.apply id)

/-- Leaves the loop entered last. -/
def leave (r : Resolver) : Except StackFault Resolver := r.pop

/-- Runs `body` inside an iteration of a loop. The loop is left however the body ends: its answer
may itself tell of a failure. -/
def withLoop {α : Type} (r : Resolver) (l : Loop)
    (body : Resolver → Except StackFault (α × Resolver)) : Except StackFault (α × Resolver) := do
  let (answer, r) ← body (r.enter l)
  return (answer, ← r.leave)

end Resolver

end Unroll
