import Mathlib.Data.List.Sort
import AgentKernel.Lib.Text

/-! Dynamic values: what a payload of type `dict[str, Any]` can hold, and the texts
and truth values the interpreter and its `json` module give them. -/
namespace AgentKernel.Lib

namespace JsonText

/-- `sys.get_int_max_str_digits()`: a longer number has no text, and no text is read as one. -/
def intMaxStrDigits : Nat := 4300

def digits (i : Int) : List Char := Nat.toDigits 10 i.natAbs

end JsonText

/-- A JSON value, or an object JSON has no form for. A float is carried as its
shortest text, an object as its `repr`. -/
inductive Value where
  | none
  | bool (b : Bool)
  | int (i : Int)
  | float (repr : String)
  | str (s : String)
  | list (items : List Value)
  | dict (items : List (String × Value))
  | object (repr : String)

/-- A dictionary payload, its entries in insertion order. -/
abbrev Payload := List (String × Value)

/-- A text, or `None`. -/
def optionalText : Option String → Value
  | some s => .str s
  | none => .none

namespace Value

/-- `dict.get` with the default `None`. -/
def field (p : Payload) (key : String) : Value := (p.lookup key).getD .none

/-- `value if isinstance(value, str)`. -/
def str? : Value → Option String
  | .str s => some s
  | _ => Option.none

@[simp] theorem str?_optionalText (s : Option String) : (optionalText s).str? = s := by
  cases s <;> rfl

/-- `value if isinstance(value, dict)`. -/
def dict? : Value → Option Payload
  | .dict items => some items
  | _ => Option.none

/-- Why `json.dumps` has no text for a value. -/
inductive Unwritable where
  | object
  | tooManyDigits
  deriving DecidableEq, Repr

mutual

/-- What `json.dumps` stops at: the first value it has no text for. -/
def unwritable : Value → Option Unwritable
  | .int i => if JsonText.intMaxStrDigits < (JsonText.digits i).length then some .tooManyDigits else Option.none
  | .list items => unwritableItems items
  | .dict items => unwritableEntries items
  | .object _ => some .object
  | _ => Option.none

def unwritableItems : List Value → Option Unwritable
  | [] => Option.none
  | v :: rest => v.unwritable.or (unwritableItems rest)

def unwritableEntries : List (String × Value) → Option Unwritable
  | [] => Option.none
  | (_, v) :: rest => v.unwritable.or (unwritableEntries rest)

end

/-- Whether `json.dumps` has a text for the value; it raises otherwise. -/
def serialisable (v : Value) : Bool := v.unwritable.isNone

theorem serialisable_iff {v : Value} : v.serialisable = true ↔ v.unwritable = Option.none :=
  Option.isNone_iff_eq_none

theorem unwritableEntries_eq_none_iff {items : List (String × Value)} :
    unwritableEntries items = Option.none ↔ ∀ e ∈ items, e.2.unwritable = Option.none := by
  induction items with
  | nil => simp [unwritableEntries]
  | cons e rest ih =>
    obtain ⟨k, v⟩ := e
    rw [unwritableEntries, Option.or_eq_none_iff, ih, List.forall_mem_cons]

/-! ### Truth -/

/-- `bool(value)`; an object answers for itself, and may raise. -/
def truth {ε : Type} (boolOf : String → Except ε Bool) : Value → Except ε Bool
  | .none => .ok false
  | .bool b => .ok b
  | .int i => .ok (i ≠ 0)
  | .float repr => .ok (repr ≠ "0.0" ∧ repr ≠ "-0.0")
  | .str s => .ok (s ≠ "")
  | .list items => .ok !items.isEmpty
  | .dict items => .ok !items.isEmpty
  | .object repr => boolOf repr

/-- `bool(value)` where no object says that it is false. -/
def truthy (v : Value) : Bool := (v.truth Except.error).toOption.getD true

theorem truthy_str (s : String) : truthy (.str s) ↔ s ≠ "" := by
  by_cases hs : s = "" <;> simp [truthy, truth, Except.toOption, hs]

/-! ### Texts -/

mutual

/-- `repr(value)`. -/
def repr : Value → String
  | .none => "None"
  | .bool b => if b then "True" else "False"
  | .int i => toString i
  | .float repr => repr
  | .str s => Text.quoted s
  | .list items => "[" ++ ", ".intercalate (reprItems items) ++ "]"
  | .dict items => "\x7b" ++ ", ".intercalate (reprEntries items) ++ "\x7d"
  | .object repr => repr

def reprItems : List Value → List String
  | [] => []
  | v :: rest => v.repr :: reprItems rest

def reprEntries : List (String × Value) → List String
  | [] => []
  | (k, v) :: rest => (Text.quoted k ++ ": " ++ v.repr) :: reprEntries rest

end

/-- `str(value)`. -/
def text : Value → String
  | .str s => s
  | v => v.repr

/-- The fields of an object in the order of their names, as `sort_keys` writes them. -/
def sortedFields (fields : List (String × String)) : List (String × String) :=
  fields.insertionSort (fun a b => a.1 ≤ b.1)

mutual

/-- `json.dumps(value, sort_keys=True, separators=(",", ":"))` of a serialisable
value. -/
def json : Value → String
  | .none => "null"
  | .bool b => if b then "true" else "false"
  | .int i => toString i
  | .float repr =>
    if repr = "inf" then "Infinity" else if repr = "-inf" then "-Infinity"
    else if repr = "nan" then "NaN" else repr
  | .str s => Text.jsonString s
  | .list items => "[" ++ ",".intercalate (jsonItems items) ++ "]"
  | .dict items =>
    "\x7b" ++ ",".intercalate ((sortedFields (jsonEntries items)).map
      (fun e => Text.jsonString e.1 ++ ":" ++ e.2)) ++ "\x7d"
  | .object repr => repr

def jsonItems : List Value → List String
  | [] => []
  | v :: rest => v.json :: jsonItems rest

def jsonEntries : List (String × Value) → List (String × String)
  | [] => []
  | (k, v) :: rest => (k, v.json) :: jsonEntries rest

end

/-! ### Documents up to the order of their keys

Two dictionaries are equal when they hold the same entries, in whatever order; sorted
by key they are the same document. -/

/-- The entries of a dictionary in the order of their keys. -/
def sortedEntries (items : Payload) : Payload := items.insertionSort (fun a b => a.1 ≤ b.1)

mutual

/-- The document with the entries of every dictionary sorted, which is the document
`json.dumps(value, sort_keys=True)` writes. -/
def sortKeys : Value → Value
  | .list items => .list (sortKeysItems items)
  | .dict items => .dict (sortedEntries (sortKeysEntries items))
  | .none => .none
  | .bool b => .bool b
  | .int i => .int i
  | .float repr => .float repr
  | .str s => .str s
  | .object repr => .object repr

def sortKeysItems : List Value → List Value
  | [] => []
  | v :: rest => v.sortKeys :: sortKeysItems rest

def sortKeysEntries : Payload → Payload
  | [] => []
  | (k, v) :: rest => (k, v.sortKeys) :: sortKeysEntries rest

end

theorem sortKeysEntries_eq_map (items : Payload) :
    sortKeysEntries items = items.map (fun e => (e.1, e.2.sortKeys)) := by
  induction items with
  | nil => rfl
  | cons e rest ih => rw [sortKeysEntries, List.map_cons, ih]

/-- Sorting looks at the keys only. -/
theorem sortKeysEntries_sortedEntries (items : Payload) :
    sortKeysEntries (sortedEntries items) = sortedEntries (sortKeysEntries items) := by
  rw [sortKeysEntries_eq_map, sortKeysEntries_eq_map, sortedEntries, sortedEntries]
  exact List.map_insertionSort _ _ _ _ (fun _ _ _ _ => Iff.rfl)

theorem sortedEntries_idem (items : Payload) :
    sortedEntries (sortedEntries items) = sortedEntries items := by
  have htotal : Std.Total (fun a b : String × Value => a.1 ≤ b.1) :=
    ⟨fun a b => String.le_total a.1 b.1⟩
  have htrans : IsTrans (String × Value) (fun a b => a.1 ≤ b.1) :=
    ⟨fun _ _ _ hab hbc => String.le_trans hab hbc⟩
  exact (List.pairwise_insertionSort _ items).insertionSort_eq

mutual

/-- Sorted or not, a document has a text. -/
theorem unwritable_sortKeys (v : Value) :
    v.sortKeys.unwritable = Option.none ↔ v.unwritable = Option.none := by
  cases v with
  | list items => rw [sortKeys, unwritable, unwritable, unwritableItems_sortKeys items]
  | dict items =>
    have hperm := List.perm_insertionSort (fun a b : String × Value => a.1 ≤ b.1) (sortKeysEntries items)
    rw [sortKeys, unwritable, unwritable, ← unwritableEntries_sortKeys items,
      unwritableEntries_eq_none_iff, unwritableEntries_eq_none_iff]
    exact forall_congr' (fun e => imp_congr_left hperm.mem_iff)
  | _ => exact Iff.rfl

theorem unwritableItems_sortKeys (items : List Value) :
    unwritableItems (sortKeysItems items) = Option.none ↔ unwritableItems items = Option.none := by
  cases items with
  | nil => exact Iff.rfl
  | cons v rest =>
    rw [sortKeysItems, unwritableItems, unwritableItems, Option.or_eq_none_iff,
      Option.or_eq_none_iff, unwritable_sortKeys v, unwritableItems_sortKeys rest]

theorem unwritableEntries_sortKeys (items : Payload) :
    unwritableEntries (sortKeysEntries items) = Option.none ↔ unwritableEntries items = Option.none := by
  cases items with
  | nil => exact Iff.rfl
  | cons e rest =>
    obtain ⟨k, v⟩ := e
    rw [sortKeysEntries, unwritableEntries, unwritableEntries, Option.or_eq_none_iff,
      Option.or_eq_none_iff, unwritable_sortKeys v, unwritableEntries_sortKeys rest]

end

mutual

/-- A sorted document is its own sorted form. -/
theorem sortKeys_sortKeys (v : Value) : v.sortKeys.sortKeys = v.sortKeys := by
  cases v with
  | list items => rw [sortKeys, sortKeys, sortKeysItems_idem items]
  | dict items =>
    rw [sortKeys, sortKeys, sortKeysEntries_sortedEntries, sortKeysEntries_idem items,
      sortedEntries_idem]
  | _ => rfl

theorem sortKeysItems_idem (items : List Value) :
    sortKeysItems (sortKeysItems items) = sortKeysItems items := by
  cases items with
  | nil => rfl
  | cons v rest => rw [sortKeysItems, sortKeysItems, sortKeys_sortKeys v, sortKeysItems_idem rest]

theorem sortKeysEntries_idem (items : Payload) :
    sortKeysEntries (sortKeysEntries items) = sortKeysEntries items := by
  cases items with
  | nil => rfl
  | cons e rest =>
    obtain ⟨k, v⟩ := e
    rw [sortKeysEntries, sortKeysEntries, sortKeys_sortKeys v, sortKeysEntries_idem rest]

end

/-- A payload with all its dictionaries sorted. -/
def sortPayload (items : Payload) : Payload := sortedEntries (sortKeysEntries items)

theorem serialisable_sortPayload (items : Payload) :
    (dict (sortPayload items)).serialisable = (dict items).serialisable := by
  rw [Bool.eq_iff_iff, serialisable_iff, serialisable_iff]
  exact unwritable_sortKeys (.dict items)

theorem sortPayload_idem (items : Payload) : sortPayload (sortPayload items) = sortPayload items := by
  rw [sortPayload, sortPayload, sortKeysEntries_sortedEntries, sortKeysEntries_idem,
    sortedEntries_idem]

end Value
end AgentKernel.Lib
