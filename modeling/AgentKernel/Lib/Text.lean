import Mathlib.Data.List.Infix

/-! Text: the string operations a Python program calls, on the characters of a
string, and what joining texts with a separator keeps apart. Numbers are written
without colons, so a number joined last can be read back. -/
namespace AgentKernel.Lib.Text

/-- `a or b` on optional texts: the empty text counts as absent. -/
def orElse (a b : Option String) : Option String :=
  match a with
  | some s => if s = "" then b else some s
  | none => b

theorem orElse_none_iff {a : Option String} {s : String} : orElse a none = some s ↔ a = some s ∧ s ≠ "" := by
  unfold orElse
  cases a with
  | none => simp
  | some t =>
    simp only [Option.some.injEq]
    constructor
    · intro h
      split at h
      · cases h
      · rename_i hne
        cases h
        exact ⟨rfl, hne⟩
    · intro h
      obtain ⟨rfl, hne⟩ := h
      rw [if_neg hne]

/-- `str.startswith`. -/
def startsWith (s pre : String) : Bool := pre.toList.isPrefixOf s.toList

/-- `needle in s`. -/
def contains (s needle : String) : Bool := decide (needle.toList <:+: s.toList)

/-- The characters `str.lower` writes for one character. Only what can reach ASCII
is spelled out: every other character keeps itself, which no comparison with an
ASCII text can tell from its lower case. -/
def lowerChar (c : Char) : List Char :=
  if c = '\u212A' then ['k']
  else if c = '\u0130' then ['i', '\u0307']
  else [c.toLower]

def lower (s : String) : String := String.ofList (s.toList.flatMap lowerChar)

/-- The characters `str.strip` removes. -/
def isSpace (c : Char) : Bool :=
  c ∈ ['\t', '\n', '\x0b', '\x0c', '\r', '\x1c', '\x1d', '\x1e', '\x1f', ' ', '\u0085', '\u00a0',
    '\u1680', '\u2000', '\u2001', '\u2002', '\u2003', '\u2004', '\u2005', '\u2006', '\u2007',
    '\u2008', '\u2009', '\u200a', '\u2028', '\u2029', '\u202f', '\u205f', '\u3000']

def strip (s : String) : String :=
  String.ofList (((s.toList.dropWhile isSpace).reverse.dropWhile isSpace).reverse)

/-- `str.removeprefix`. -/
def dropFront (s pre : String) : String :=
  if startsWith s pre then String.ofList (s.toList.drop pre.toList.length) else s

theorem startsWith_iff {s pre : String} : startsWith s pre = true ↔ ∃ rest, s = pre ++ rest := by
  rw [startsWith, List.isPrefixOf_iff_prefix]
  constructor
  · rintro ⟨rest, hrest⟩
    refine ⟨String.ofList rest, String.toList_inj.mp ?_⟩
    rw [String.toList_append, String.toList_ofList, hrest]
  · rintro ⟨rest, rfl⟩
    exact ⟨rest.toList, String.toList_append.symm⟩

theorem dropFront_append (pre rest : String) : dropFront (pre ++ rest) pre = rest := by
  have hstarts : startsWith (pre ++ rest) pre = true := startsWith_iff.mpr ⟨rest, rfl⟩
  rw [dropFront, if_pos hstarts, String.toList_append, List.drop_left, String.ofList_toList]

/-- `str.split` at one character. -/
def split (sep : Char) (s : String) : List String := (s.toList.splitOn sep).map String.ofList

/-- `str.rpartition` at one character: what precedes its last occurrence, the occurrence and what
follows it, or the whole text in the last place. -/
def rpartition (sep : Char) (s : String) : String × String × String :=
  match s.toList.reverse.dropWhile (· ≠ sep) with
  | [] => ("", "", s)
  | _ :: head =>
    (String.ofList head.reverse, String.singleton sep,
      String.ofList (s.toList.reverse.takeWhile (· ≠ sep)).reverse)

/-! ### Quoting -/

/-- At least `width` hexadecimal digits. -/
def hexPadded (width n : Nat) : List Char :=
  List.replicate (width - (Nat.toDigits 16 n).length) '0' ++ Nat.toDigits 16 n

/-- One character inside the quotes of a `repr`. Characters beyond Latin-1 are taken
as printable. -/
def quotedChar (quote c : Char) : List Char :=
  if c = quote ∨ c = '\\' then ['\\', c]
  else if c = '\n' then ['\\', 'n']
  else if c = '\r' then ['\\', 'r']
  else if c = '\t' then ['\\', 't']
  else if c.toNat < 0x20 ∨ (0x7f ≤ c.toNat ∧ c.toNat ≤ 0xa0) ∨ c.toNat = 0xad then
    ['\\', 'x'] ++ hexPadded 2 c.toNat
  else [c]

/-- `repr` of a text: single quotes, unless only double ones need no escape. -/
def quoted (s : String) : String :=
  let quote := if '\'' ∈ s.toList ∧ '"' ∉ s.toList then '"' else '\''
  String.ofList (quote :: s.toList.flatMap (quotedChar quote) ++ [quote])

/-- One character of a JSON string with `ensure_ascii`. -/
def jsonChar (c : Char) : List Char :=
  if c = '"' ∨ c = '\\' then ['\\', c]
  else if c = '\n' then ['\\', 'n']
  else if c = '\r' then ['\\', 'r']
  else if c = '\t' then ['\\', 't']
  else if c = '\x08' then ['\\', 'b']
  else if c = '\x0c' then ['\\', 'f']
  else if 0x20 ≤ c.toNat ∧ c.toNat ≤ 0x7e then [c]
  else if c.toNat < 0x10000 then ['\\', 'u'] ++ hexPadded 4 c.toNat
  else
    ['\\', 'u'] ++ hexPadded 4 (0xd800 + (c.toNat - 0x10000) / 0x400) ++
      (['\\', 'u'] ++ hexPadded 4 (0xdc00 + (c.toNat - 0x10000) % 0x400))

def jsonString (s : String) : String :=
  String.ofList ('"' :: s.toList.flatMap jsonChar ++ ['"'])

/-! ### Joining with a separator -/

/-- What follows the last separator can be told apart from what precedes it. -/
theorem append_separator_inj {sep : Char} {a b x y : List Char} (hx : sep ∉ x) (hy : sep ∉ y)
    (h : a ++ sep :: x = b ++ sep :: y) : a = b ∧ x = y := by
  rcases List.append_eq_append_iff.mp h with ⟨c, hb, hc⟩ | ⟨c, ha, hc⟩
  · cases c with
    | nil => exact ⟨by simpa using hb.symm, (List.cons.inj hc).2⟩
    | cons d rest =>
      have hx' : x = rest ++ sep :: y := (List.cons.inj hc).2
      exact absurd (by simp [hx']) hx
  · cases c with
    | nil => exact ⟨by simpa using ha, (List.cons.inj hc).2.symm⟩
    | cons d rest =>
      have hy' : y = rest ++ sep :: x := (List.cons.inj hc).2
      exact absurd (by simp [hy']) hy

/-- What precedes the first separator can be told apart from what follows it. -/
theorem prepend_separator_inj {sep : Char} {a b x y : List Char} (ha : sep ∉ a) (hb : sep ∉ b)
    (h : a ++ sep :: x = b ++ sep :: y) : a = b ∧ x = y := by
  have hreverse : x.reverse ++ sep :: a.reverse = y.reverse ++ sep :: b.reverse := by
    simpa using congrArg List.reverse h
  obtain ⟨hx, ha⟩ := append_separator_inj (by simpa using ha) (by simpa using hb) hreverse
  exact ⟨List.reverse_injective ha, List.reverse_injective hx⟩

/-- Two texts agree in what precedes their last colon and in what follows it. -/
theorem joined_eq_iff {a b x y : String} (hx : ':' ∉ x.toList) (hy : ':' ∉ y.toList) :
    a ++ ":" ++ x = b ++ ":" ++ y ↔ a = b ∧ x = y := by
  constructor
  · intro h
    have hlist : a.toList ++ ':' :: x.toList = b.toList ++ ':' :: y.toList := by
      simpa using congrArg String.toList h
    obtain ⟨hab, hxy⟩ := append_separator_inj hx hy hlist
    exact ⟨String.toList_inj.mp hab, String.toList_inj.mp hxy⟩
  · intro hparts
    obtain ⟨rfl, rfl⟩ := hparts
    rfl

/-- A text is split where a text without the separator was joined to it. -/
theorem rpartition_joined {sep : Char} {a x : String} (hx : sep ∉ x.toList) :
    rpartition sep (a ++ String.singleton sep ++ x) = (a, String.singleton sep, x) := by
  have hreverse : (a ++ String.singleton sep ++ x).toList.reverse =
      x.toList.reverse ++ sep :: a.toList.reverse := by simp
  have hfree : ∀ c ∈ x.toList.reverse, decide (c ≠ sep) = true := by
    intro c hc
    rw [decide_eq_true_iff]
    intro heq
    exact hx (heq ▸ List.mem_reverse.mp hc)
  rw [rpartition, hreverse, List.dropWhile_append_of_pos hfree, List.takeWhile_append_of_pos hfree]
  simp

/-- What the three parts are joined to again. -/
theorem rpartition_append {sep : Char} {s a x : String}
    (h : rpartition sep s = (a, String.singleton sep, x)) : s = a ++ String.singleton sep ++ x := by
  rw [rpartition] at h
  cases hdrop : s.toList.reverse.dropWhile (· ≠ sep) with
  | nil =>
    rw [hdrop] at h
    have hsep := congrArg (fun r : String × String × String => r.2.1.toList) h
    simp at hsep
  | cons c head =>
    rw [hdrop] at h
    obtain ⟨rfl, -, rfl⟩ : _ ∧ _ ∧ _ := by simpa only [Prod.mk.injEq] using h
    have hc : c = sep := by
      have hhead := List.head?_dropWhile_not (fun c => decide (c ≠ sep)) s.toList.reverse
      rw [hdrop] at hhead
      simpa using hhead
    have hsplit := List.takeWhile_append_dropWhile (p := fun c => decide (c ≠ sep)) (l := s.toList.reverse)
    rw [hdrop, hc] at hsplit
    refine String.toList_inj.mp ?_
    have hreverse := congrArg List.reverse hsplit
    simpa using hreverse.symm

/-! ### Decimal texts -/

theorem natText_isDigit {n : Nat} {c : Char} (h : c ∈ n.repr.toList) : c.isDigit := by
  have hmem : c ∈ Nat.toDigits 10 n := by simpa [Nat.repr] using h
  exact Nat.isDigit_of_mem_toDigits (by decide) (by decide) hmem

theorem natText_injective {m n : Nat} (h : m.repr = n.repr) : m = n := by
  have hdigits : Nat.toDigits 10 m = Nat.toDigits 10 n := by
    simpa [Nat.repr] using congrArg String.toList h
  calc
    m = Nat.ofDigitChars 10 (Nat.toDigits 10 m) 0 := Nat.ofDigitChars_ten_toDigits.symm
    _ = Nat.ofDigitChars 10 (Nat.toDigits 10 n) 0 := by rw [hdigits]
    _ = n := Nat.ofDigitChars_ten_toDigits

theorem natText_no_minus (m n : Nat) : m.repr ≠ "-" ++ n.repr := by
  intro h
  have hmem : '-' ∈ m.repr.toList := by
    rw [h, String.toList_append]
    exact List.mem_append_left _ (by decide)
  have hdigit := natText_isDigit hmem
  revert hdigit
  decide

theorem intText_no_colon (i : Int) : ':' ∉ (toString i).toList := by
  have hdigits : ∀ n : Nat, ':' ∉ n.repr.toList := by
    intro n h
    have hdigit := natText_isDigit h
    revert hdigit
    decide
  rw [Int.toString_eq_repr, Int.repr_eq_if]
  split
  · exact hdigits _
  · simpa using hdigits _

theorem intText_injective {m n : Int} (h : toString m = toString n) : m = n := by
  rw [Int.toString_eq_repr, Int.toString_eq_repr, Int.repr_eq_if, Int.repr_eq_if] at h
  split at h
  · split at h
    · have := natText_injective h
      omega
    · exact absurd h (natText_no_minus _ _)
  · split at h
    · exact absurd h.symm (natText_no_minus _ _)
    · have := natText_injective (String.append_right_inj "-" |>.mp h)
      omega

/-! ### The SQL `LIKE` operator -/

inductive LikeToken where
  | any
  | one
  | char (c : Char)
  /-- A dangling escape character: the pattern matches nothing. -/
  | never

/-- A pattern read with an escape character. -/
def likeTokens (escape : Char) : List Char → List LikeToken
  | [] => []
  | [c] => if c = escape then [.never] else if c = '%' then [.any] else if c = '_' then [.one] else [.char c]
  | c :: d :: rest =>
    if c = escape then .char d :: likeTokens escape rest
    else if c = '%' then .any :: likeTokens escape (d :: rest)
    else if c = '_' then .one :: likeTokens escape (d :: rest)
    else .char c :: likeTokens escape (d :: rest)

/-- Matching is case-insensitive on ASCII letters only. -/
def likeMatch : List LikeToken → List Char → Bool
  | [], s => s.isEmpty
  | .any :: rest, s => s.tails.any (likeMatch rest)
  | .one :: rest, s => match s with
    | [] => false
    | _ :: s => likeMatch rest s
  | .char c :: rest, s => match s with
    | [] => false
    | d :: s => c.toLower == d.toLower && likeMatch rest s
  | .never :: _, _ => false

/-- SQL functions read a text as a C string: up to the first NUL. -/
def cString (s : String) : List Char := s.toList.takeWhile (· ≠ '\x00')

/-- The longest pattern in bytes, NULs and what follows them included. -/
def likePatternLimit : Nat := 50000

def tooComplex (pattern : String) : Bool := likePatternLimit < pattern.utf8ByteSize

/-- Whether a text matches a pattern that is not too complex. -/
def like (escape : Char) (pattern s : String) : Bool :=
  likeMatch (likeTokens escape (cString pattern)) (cString s)

end AgentKernel.Lib.Text
