import Mathlib.Data.List.TakeWhile
import AgentKernel.Lib.JsonText

/-! Numbers as decimal texts.

`str` writes a number that is not too long; `int` reads a text of decimal digits of any script back.
The tables are those of Unicode 15. -/
namespace AgentKernel.Lib.Decimal
open JsonText

/-- The zeros of the decimal digits; the other nine follow each of them. -/
def zeros : List Nat :=
  [0x30, 0x660, 0x6f0, 0x7c0, 0x966, 0x9e6, 0xa66, 0xae6, 0xb66, 0xbe6, 0xc66, 0xce6, 0xd66, 0xde6,
    0xe50, 0xed0, 0xf20, 0x1040, 0x1090, 0x17e0, 0x1810, 0x1946, 0x19d0, 0x1a80, 0x1a90, 0x1b50,
    0x1bb0, 0x1c40, 0x1c50, 0xa620, 0xa8d0, 0xa900, 0xa9d0, 0xa9f0, 0xaa50, 0xabf0, 0xff10, 0x104a0,
    0x10d30, 0x11066, 0x110f0, 0x11136, 0x111d0, 0x112f0, 0x11450, 0x114d0, 0x11650, 0x116c0,
    0x11730, 0x118e0, 0x11950, 0x11c50, 0x11d50, 0x11da0, 0x11f50, 0x16a60, 0x16ac0, 0x16b50,
    0x1d7ce, 0x1d7d8, 0x1d7e2, 0x1d7ec, 0x1d7f6, 0x1e140, 0x1e2f0, 0x1e4f0, 0x1e950, 0x1fbf0]

/-- Digits that are not decimal, such as superscripts: first and last of each range. -/
def otherDigits : List (Nat × Nat) :=
  [(0xb2, 0xb3), (0xb9, 0xb9), (0x1369, 0x1371), (0x19da, 0x19da), (0x2070, 0x2070), (0x2074, 0x2079),
    (0x2080, 0x2089), (0x2460, 0x2468), (0x2474, 0x247c), (0x2488, 0x2490), (0x24ea, 0x24ea),
    (0x24f5, 0x24fd), (0x24ff, 0x24ff), (0x2776, 0x277e), (0x2780, 0x2788), (0x278a, 0x2792),
    (0x10a40, 0x10a43), (0x10e60, 0x10e68), (0x11052, 0x1105a), (0x1f100, 0x1f10a)]

/-- `unicodedata.decimal`. -/
def value (c : Char) : Option Nat :=
  (zeros.find? (fun z => z ≤ c.toNat ∧ c.toNat < z + 10)).map (c.toNat - ·)

def isDigitChar (c : Char) : Bool :=
  (value c).isSome || otherDigits.any (fun r => r.1 ≤ c.toNat ∧ c.toNat ≤ r.2)

/-- `str.isdigit`. -/
def isDigit (s : String) : Bool := !s.toList.isEmpty && s.toList.all isDigitChar

/-- `str(i)`, or the message of its `ValueError`. -/
def str (i : Int) : Except String String :=
  if intMaxStrDigits < (digits i).length then
    .error "Exceeds the limit (4300 digits) for integer string conversion; use sys.set_int_max_str_digits() to increase the limit"
  else .ok (toString i)

/-- `int(s)` of a text without signs, blanks and underscores, or the message of its `ValueError`. -/
def int (s : String) : Except String Int :=
  let scanned := s.toList.takeWhile (fun c => (value c).isSome)
  if intMaxStrDigits < scanned.length then
    .error ("Exceeds the limit (4300 digits) for integer string conversion: value has " ++
      toString scanned.length ++ " digits; use sys.set_int_max_str_digits() to increase the limit")
  else if scanned = [] ∨ scanned ≠ s.toList then
    .error ("invalid literal for int() with base 10: " ++
      String.ofList ((Text.quoted s).toList.take 200))
  else .ok (scanned.foldl (fun n c => 10 * n + (value c).getD 0) 0 : Nat)

/-! ### Reading back what was written -/

theorem value_of_isDigit {c : Char} (h : c.isDigit = true) : value c = some (c.toNat - '0'.toNat) := by
  obtain ⟨hlow, hhigh⟩ := Char.isDigit_iff_toNat.mp h
  have hrange : 0x30 ≤ c.toNat ∧ c.toNat < 0x30 + 10 := ⟨hlow, Nat.lt_succ_of_le hhigh⟩
  rw [value, zeros, List.find?_cons, decide_eq_true hrange]
  rfl

theorem isDigit_of_forall {s : String} (hs : s ≠ "") (h : ∀ c ∈ s.toList, c.isDigit = true) :
    isDigit s = true := by
  have hall : s.toList.all isDigitChar = true := by
    rw [List.all_eq_true]
    intro c hc
    rw [isDigitChar, value_of_isDigit (h c hc)]
    rfl
  have hne : s.toList.isEmpty = false := by
    rw [List.isEmpty_eq_false_iff]
    exact fun hnil => hs (String.toList_eq_nil_iff.mp hnil)
  rw [isDigit, hall, hne]
  rfl

/-- ASCII digits read as they do elsewhere. -/
theorem foldl_value {cs : List Char} (h : ∀ c ∈ cs, c.isDigit = true) (n : Nat) :
    cs.foldl (fun n c => 10 * n + (value c).getD 0) n = Nat.ofDigitChars 10 cs n := by
  induction cs generalizing n with
  | nil => rfl
  | cons c rest ih =>
    rw [List.foldl_cons, Nat.ofDigitChars_cons, value_of_isDigit (h c List.mem_cons_self)]
    exact ih (fun d hd => h d (List.mem_cons_of_mem c hd)) _

theorem toList_natural {i : Int} (h : 0 ≤ i) : (toString i).toList = digits i := by
  rw [Int.toString_eq_repr, Int.repr_eq_if, if_pos h, digits]
  have hnat : i.toNat = i.natAbs := by omega
  simp [Nat.repr, hnat]

theorem isDigit_natural {i : Int} (h : 0 ≤ i) : isDigit (toString i) = true := by
  have hlist := toList_natural h
  refine isDigit_of_forall ?_ ?_
  · intro hempty
    rw [hempty] at hlist
    exact Nat.toDigits_ne_nil hlist.symm
  · rw [hlist]
    exact fun c hc => isDigit_of_mem_digits hc

/-- **Round trip** of a number that can be written at all. -/
theorem int_natural {i : Int} (h : 0 ≤ i) (hdigits : (digits i).length ≤ intMaxStrDigits) :
    int (toString i) = .ok i := by
  have hascii : ∀ c ∈ digits i, c.isDigit = true := fun c hc => isDigit_of_mem_digits hc
  have hscanned : (digits i).takeWhile (fun c => (value c).isSome) = digits i := by
    rw [List.takeWhile_eq_self_iff]
    intro c hc
    rw [value_of_isDigit (hascii c hc)]
    rfl
  have hvalue : (Nat.ofDigitChars 10 (digits i) 0 : Int) = i := by
    rw [digits, Nat.ofDigitChars_ten_toDigits]
    omega
  have hne : digits i ≠ [] := Nat.toDigits_ne_nil
  rw [int, toList_natural h, hscanned]
  simp only [foldl_value hascii, hvalue]
  rw [if_neg (by omega), if_neg (by simp [hne])]

/-- A superscript is a digit and no number. -/
example : isDigit "7²" = true ∧ (int "7²").toOption = none ∧ (int "٣٤").toOption = some 34 := by
  decide +kernel

theorem str_short {i : Int} (hdigits : (digits i).length ≤ intMaxStrDigits) : str i = .ok (toString i) := by
  rw [str, if_neg (by omega)]

theorem str_ok {i : Int} {text : String} (h : str i = .ok text) : text = toString i := by
  rw [str] at h
  split at h
  · cases h
  · exact (Except.ok.inj h).symm

end AgentKernel.Lib.Decimal
