import Mathlib.Data.List.Dedup
import AgentKernel.Lib.Value

/-! JSON documents whose strings keep their characters, and lists of texts in order.

`json.dumps` with `ensure_ascii=False` escapes only what it must. A set of texts sorted
into a list is in strict order and has the members of the set (`sortedSet_sorted`,
`mem_sortedSet`), and the first text among values is the one nothing before it hides
(`findSome?_nonEmpty`). -/
namespace AgentKernel.Lib

namespace Text

/-- One character of a JSON string without `ensure_ascii`. -/
def jsonPlainChar (c : Char) : List Char :=
  if c = '"' ∨ c = '\\' then ['\\', c]
  else if c = '\n' then ['\\', 'n']
  else if c = '\r' then ['\\', 'r']
  else if c = '\t' then ['\\', 't']
  else if c = '\x08' then ['\\', 'b']
  else if c = '\x0c' then ['\\', 'f']
  else if c.toNat < 0x20 then ['\\', 'u'] ++ hexPadded 4 c.toNat
  else [c]

def jsonPlainString (s : String) : String :=
  String.ofList ('"' :: s.toList.flatMap jsonPlainChar ++ ['"'])

/-- The texts in order, each once. -/
def Sorted (texts : List String) : Prop := texts.Pairwise (· < ·)

/-- `sorted(set(texts))`. -/
def sortedSet (texts : List String) : List String := texts.dedup.insertionSort (· ≤ ·)

theorem mem_sortedSet {texts : List String} {s : String} : s ∈ sortedSet texts ↔ s ∈ texts := by
  rw [sortedSet, List.mem_insertionSort, List.mem_dedup]

theorem sortedSet_sorted (texts : List String) : Sorted (sortedSet texts) := by
  have htotal : Std.Total (fun a b : String => a ≤ b) := ⟨String.le_total⟩
  have htrans : IsTrans String (fun a b => a ≤ b) := ⟨fun _ _ _ => String.le_trans⟩
  have hle : (sortedSet texts).Pairwise (· ≤ ·) := List.pairwise_insertionSort _ _
  have hnodup : (sortedSet texts).Nodup :=
    (List.perm_insertionSort _ _).nodup_iff.mpr (List.nodup_dedup texts)
  refine (hle.and hnodup).imp (fun {x y} h => ?_)
  by_contra hlt
  exact h.2 (String.le_antisymm h.1 (String.not_lt.mp hlt))

/-- Texts in order are known by their members. -/
theorem Sorted.ext {texts texts' : List String} (h : Sorted texts) (h' : Sorted texts')
    (hmem : ∀ s, s ∈ texts ↔ s ∈ texts') : texts = texts' := by
  have hnodup : ∀ {l : List String}, Sorted l → l.Nodup := by
    intro l hl
    refine hl.imp (fun {a b} hlt heq => ?_)
    subst heq
    exact String.lt_irrefl a hlt
  have hperm := (List.perm_ext_iff_of_nodup (hnodup h) (hnodup h')).mpr hmem
  refine hperm.eq_of_pairwise ?_ h h'
  intro a b _ _ hab hba
  exact absurd (String.lt_trans hab hba) (String.lt_irrefl a)

end Text

namespace Value

mutual

/-- `json.dumps(value, ensure_ascii=False, sort_keys=True, separators=(",", ":"))` of a
serialisable value. -/
def jsonPlain : Value → String
  | .none => "null"
  | .bool b => if b then "true" else "false"
  | .int i => toString i
  | .float repr =>
    if repr = "inf" then "Infinity" else if repr = "-inf" then "-Infinity"
    else if repr = "nan" then "NaN" else repr
  | .str s => Text.jsonPlainString s
  | .list items => "[" ++ ",".intercalate (jsonPlainItems items) ++ "]"
  | .dict items =>
    "\x7b" ++ ",".intercalate ((sortedFields (jsonPlainEntries items)).map
      (fun e => Text.jsonPlainString e.1 ++ ":" ++ e.2)) ++ "\x7d"
  | .object repr => repr

def jsonPlainItems : List Value → List String
  | [] => []
  | v :: rest => v.jsonPlain :: jsonPlainItems rest

def jsonPlainEntries : List (String × Value) → List (String × String)
  | [] => []
  | (k, v) :: rest => (k, v.jsonPlain) :: jsonPlainEntries rest

end

/-! ### Texts among values -/

/-- A text with something in it. -/
def nonEmpty? : Value → Option String
  | .str s => if s = "" then Option.none else some s
  | _ => Option.none

theorem nonEmpty?_eq_some {v : Value} {s : String} : v.nonEmpty? = some s ↔ v = .str s ∧ s ≠ "" := by
  cases v with
  | str t =>
    unfold nonEmpty?
    by_cases ht : t = ""
    · simp only [ht, if_true, reduceCtorEq, str.injEq, false_iff, not_and, not_not]
      exact fun h => h.symm
    · simp only [ht, if_false, Option.some.injEq, str.injEq]
      exact ⟨fun h => ⟨h, h ▸ ht⟩, fun h => h.1⟩
  | none | bool | int | float | list | dict | object => simp [nonEmpty?]

/-- The first of the values that is a text with something in it. -/
def FirstText (values : List Value) (s : String) : Prop :=
  ∃ front rest, values = front ++ .str s :: rest ∧ s ≠ "" ∧ ∀ v ∈ front, v.nonEmpty? = Option.none

theorem findSome?_nonEmpty {values : List Value} {s : String} :
    values.findSome? nonEmpty? = some s ↔ FirstText values s := by
  rw [List.findSome?_eq_some_iff]
  constructor
  · intro h
    obtain ⟨front, v, rest, hsplit, hv, hfront⟩ := h
    obtain ⟨rfl, hs⟩ := nonEmpty?_eq_some.mp hv
    exact ⟨front, rest, hsplit, hs, hfront⟩
  · intro h
    obtain ⟨front, rest, hsplit, hs, hfront⟩ := h
    exact ⟨front, .str s, rest, hsplit, nonEmpty?_eq_some.mpr ⟨rfl, hs⟩, hfront⟩

end Value
end AgentKernel.Lib
