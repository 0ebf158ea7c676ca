import AgentKernel.Lib.Value

/-! Values that are more than documents: tuples, frozen sets, members of text enumerations and
dataclass instances, and what `asdict` makes of them. -/
namespace AgentKernel.Lib

inductive PyValue where
  | none
  | bool (b : Bool)
  | int (i : Int)
  | float (repr : String)
  | str (s : String)
  /-- A member of a `StrEnum`. -/
  | member (enumeration value : String)
  | list (items : List PyValue)
  | tuple (items : List PyValue)
  | frozenset (items : List PyValue)
  | dict (items : List (String × PyValue))
  /-- An instance of a dataclass, its fields in order. -/
  | record (cls : String) (fields : List (String × PyValue))
  /-- Anything else; a copy of it counts as the same. -/
  | object (repr : String)

/-- A dictionary and the fields of an instance. -/
abbrev PyDict := List (String × PyValue)

namespace PyValue

/-- `bool(value)`; instances and other objects are true. -/
def truth : PyValue → Bool
  | .none => false
  | .bool b => b
  | .int i => i ≠ 0
  | .float repr => repr ≠ "0.0" ∧ repr ≠ "-0.0"
  | .str s | .member _ s => s ≠ ""
  | .list items | .tuple items | .frozenset items => !items.isEmpty
  | .dict items => !items.isEmpty
  | .record _ _ | .object _ => true

mutual

/-- `_asdict_inner`: instances become dictionaries, inside lists, tuples and dictionaries
too. -/
def asdictInner : PyValue → PyValue
  | .list items => .list (asdictItems items)
  | .tuple items => .tuple (asdictItems items)
  | .dict items => .dict (asdictEntries items)
  | .record _ fields => .dict (asdictEntries fields)
  | .none => .none
  | .bool b => .bool b
  | .int i => .int i
  | .float repr => .float repr
  | .str s => .str s
  | .member enumeration value => .member enumeration value
  | .frozenset items => .frozenset items
  | .object repr => .object repr

def asdictItems : List PyValue → List PyValue
  | [] => []
  | v :: rest => v.asdictInner :: asdictItems rest

def asdictEntries : PyDict → PyDict
  | [] => []
  | (k, v) :: rest => (k, v.asdictInner) :: asdictEntries rest

end

end PyValue
end AgentKernel.Lib
