import Std.Data.TreeMap
import Unroll.TypeId

/-!
Types recorded while loops are unrolled. They are kept under text keys, so a key written by hand and
one made from its parts reach the same entry.
-/

namespace Unroll

/-- What a recorded type belongs to. -/
inductive TypeMapKey where
  | var (name : String)
  /-- A local variable of generic type, told apart by the offset of its declaration. -/
  | genericVar (name : String) (pos : Nat)
  /-- The type of a loop variable: `var.typ`. -/
  | selector (var : String)
deriving DecidableEq

def TypeMapKey.render : TypeMapKey → String
  | var name => name
  | genericVar name pos => "t." ++ name ++ "." ++ toString pos
  | selector v => v ++ ".typ"

structure TypeMap where
  entries : Std.TreeMap String TypeId := {}

namespace TypeMap

def get? (m : TypeMap) (key : String) : Option TypeId := m.entries[key]?

def getKey? (m : TypeMap) (key : TypeMapKey) : Option TypeId := m.get? key.render

def contains (m : TypeMap) (key : String) : Bool := m.entries.contains key

def insert (m : TypeMap) (key : String) (ty : TypeId) : TypeMap := ⟨m.entries.insert key ty⟩

def insertKey (m : TypeMap) (key : TypeMapKey) (ty : TypeId) : TypeMap := m.insert key.render ty

def erase (m : TypeMap) (key : String) : TypeMap := ⟨m.entries.erase key⟩

def size (m : TypeMap) : Nat := m.entries.size

def isEmpty (m : TypeMap) : Bool := m.entries.isEmpty

/-- All entries in the order of their keys. -/
def toList (m : TypeMap) : List (String × TypeId) := m.entries.toList

end TypeMap

end Unroll
