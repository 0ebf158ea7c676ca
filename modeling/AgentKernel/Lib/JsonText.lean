import AgentKernel.Lib.Value
import AgentKernel.Lib.Dict

/-! JSON texts: what `json.dumps` writes and `json.loads` reads.

A document that holds no float and no number of too many digits is read back as it was
written, with the entries of every dictionary in the order of their keys
(`loads_dumps`). Each kind of text is read off the front of any other text that cannot
continue it: a character (`readChar_jsonChar`), a string (`readString_jsonString`), a
number (`readNumber_int`), a document (`readValue_write`). -/
namespace AgentKernel.Lib.JsonText

/-! ### Writing -/

/-- `str(i)`. -/
def intText (i : Int) : List Char := if i < 0 then '-' :: digits i else digits i

def floatText (repr : String) : String :=
  if repr = "inf" then "Infinity" else if repr = "-inf" then "-Infinity"
  else if repr = "nan" then "NaN" else repr

def stringText (s : List Char) : List Char := '"' :: s.flatMap Text.jsonChar ++ ['"']

mutual

/-- A document with a gap after every comma and colon. -/
def write (gap : List Char) : Value → List Char
  | .none => ['n', 'u', 'l', 'l']
  | .bool b => if b then ['t', 'r', 'u', 'e'] else ['f', 'a', 'l', 's', 'e']
  | .int i => intText i
  | .float repr => (floatText repr).toList
  | .str s => stringText s.toList
  | .list [] => ['[', ']']
  | .list (v :: rest) => '[' :: write gap v ++ writeItems gap rest
  | .dict [] => ['\x7b', '\x7d']
  | .dict ((k, v) :: rest) =>
    '\x7b' :: stringText k.toList ++ ':' :: gap ++ write gap v ++ writeEntries gap rest
  | .object repr => repr.toList

/-- The items after the first, and the end of the list. -/
def writeItems (gap : List Char) : List Value → List Char
  | [] => [']']
  | v :: rest => ',' :: gap ++ write gap v ++ writeItems gap rest

/-- The entries after the first, and the end of the dictionary. -/
def writeEntries (gap : List Char) : Payload → List Char
  | [] => ['\x7d']
  | (k, v) :: rest =>
    ',' :: gap ++ stringText k.toList ++ ':' :: gap ++ write gap v ++ writeEntries gap rest

end

/-! ### Reading characters -/

def hexVal (c : Char) : Option Nat :=
  if c.isDigit then some (c.toNat - 48)
  else if 97 ≤ c.toNat ∧ c.toNat ≤ 102 then some (c.toNat - 87)
  else if 65 ≤ c.toNat ∧ c.toNat ≤ 70 then some (c.toNat - 55)
  else none

/-- Four hexadecimal digits. -/
def readHex : List Char → Option (Nat × List Char)
  | a :: b :: c :: d :: rest => do
    let a ← hexVal a
    let b ← hexVal b
    let c ← hexVal c
    let d ← hexVal d
    some (4096 * a + 256 * b + 16 * c + d, rest)
  | _ => none

/-- The character of two halves of a code, if the second is one. -/
def pairChar (high low : Nat) (rest : List Char) : Option (Char × List Char) :=
  if 0xdc00 ≤ low ∧ low ≤ 0xdfff then
    some (Char.ofNat (0x10000 + (high - 0xd800) * 0x400 + (low - 0xdc00)), rest)
  else none

/-- The character of a code. A half of a code beyond the first plane needs the other half
right after it; on its own it is no character. -/
def codeChar (code : Nat) (rest : List Char) : Option (Char × List Char) :=
  if 0xd800 ≤ code ∧ code ≤ 0xdbff then
    if rest.take 2 = ['\\', 'u'] then (readHex (rest.drop 2)).bind (fun r => pairChar code r.1 r.2)
    else none
  else if 0xdc00 ≤ code ∧ code ≤ 0xdfff then none
  else some (Char.ofNat code, rest)

/-- What follows `\u`. -/
def readCode (cs : List Char) : Option (Char × List Char) :=
  (readHex cs).bind (fun r => codeChar r.1 r.2)

def unescape (c : Char) : Option Char :=
  [('"', '"'), ('\\', '\\'), ('/', '/'), ('b', '\x08'), ('f', '\x0c'), ('n', '\n'), ('r', '\r'),
    ('t', '\t')].lookup c

/-- One character of a string. -/
def readChar : List Char → Option (Char × List Char)
  | [] => none
  | c :: rest =>
    if c = '\\' then
      match rest with
      | [] => none
      | e :: rest => if e = 'u' then readCode rest else (unescape e).map (fun c => (c, rest))
    else if c.toNat < 0x20 then none
    else some (c, rest)

/-- The characters up to the closing quote. -/
def readString : Nat → List Char → Option (List Char × List Char)
  | 0, _ => none
  | n + 1, cs =>
    if cs.head? = some '"' then some ([], cs.tail)
    else do
      let (c, rest) ← readChar cs
      let (s, rest) ← readString n rest
      some (c :: s, rest)

theorem hexVal_digitChar : ∀ d < 16, hexVal d.digitChar = some d := by decide

/-- A code below `0x10000` has four digits. -/
theorem hexPadded_four {n : Nat} (h : n < 0x10000) : Text.hexPadded 4 n =
    [(n / 4096).digitChar, (n / 256 % 16).digitChar, (n / 16 % 16).digitChar, (n % 16).digitChar] := by
  unfold Text.hexPadded
  by_cases h₁ : n < 16
  · rw [Nat.toDigits_of_lt_base h₁, Nat.div_eq_of_lt (by omega : n < 4096),
      Nat.div_eq_of_lt (by omega : n < 256), Nat.div_eq_of_lt h₁, Nat.mod_eq_of_lt h₁]
    rfl
  rw [Nat.toDigits_of_base_le (by decide) (by omega)]
  by_cases h₂ : n < 256
  · rw [Nat.toDigits_of_lt_base (by omega), Nat.div_eq_of_lt (by omega : n < 4096),
      Nat.div_eq_of_lt h₂, Nat.mod_eq_of_lt (by omega : n / 16 < 16)]
    rfl
  rw [Nat.toDigits_of_base_le (by decide) (by omega), Nat.div_div_eq_div_mul]
  by_cases h₃ : n < 4096
  · rw [Nat.toDigits_of_lt_base (by omega), Nat.div_eq_of_lt h₃,
      Nat.mod_eq_of_lt (by omega : n / 256 < 16)]
    rfl
  rw [Nat.toDigits_of_base_le (by decide) (by omega), Nat.div_div_eq_div_mul,
    Nat.toDigits_of_lt_base (by omega)]
  rfl

theorem readHex_hexPadded {n : Nat} (h : n < 0x10000) (rest : List Char) :
    readHex (Text.hexPadded 4 n ++ rest) = some (n, rest) := by
  rw [hexPadded_four h]
  show (do
    let a ← hexVal (n / 4096).digitChar
    let b ← hexVal (n / 256 % 16).digitChar
    let c ← hexVal (n / 16 % 16).digitChar
    let d ← hexVal (n % 16).digitChar
    some (4096 * a + 256 * b + 16 * c + d, rest)) = _
  rw [hexVal_digitChar _ (by omega), hexVal_digitChar _ (by omega), hexVal_digitChar _ (by omega),
    hexVal_digitChar _ (by omega)]
  show some (4096 * (n / 4096) + 256 * (n / 256 % 16) + 16 * (n / 16 % 16) + n % 16, rest) = _
  rw [show 4096 * (n / 4096) + 256 * (n / 256 % 16) + 16 * (n / 16 % 16) + n % 16 = n by omega]

/-- Of the first plane the surrogates are no characters. -/
theorem toNat_not_surrogate (c : Char) : ¬ (0xd800 ≤ c.toNat ∧ c.toNat ≤ 0xdfff) := by
  intro h
  rcases c.valid with hlow | hhigh
  · have hlow' : c.toNat < 0xd800 := hlow
    omega
  · have hhigh' : 0xdfff < c.toNat := hhigh.1
    omega

theorem toNat_lt (c : Char) : c.toNat < 0x110000 := by
  rcases c.valid with hlow | hhigh
  · have hlow' : c.toNat < 0xd800 := hlow
    omega
  · exact hhigh.2

theorem readCode_plane {c : Char} (h : c.toNat < 0x10000) (rest : List Char) :
    readCode (Text.hexPadded 4 c.toNat ++ rest) = some (c, rest) := by
  have hnot := toNat_not_surrogate c
  rw [readCode, readHex_hexPadded h, Option.bind_some, codeChar, if_neg (by omega),
    if_neg (by omega), Char.ofNat_toNat]

theorem codeChar_high {code : Nat} (h : 0xd800 ≤ code ∧ code ≤ 0xdbff) (rest : List Char) :
    codeChar code ('\\' :: 'u' :: rest) = (readHex rest).bind (fun r => pairChar code r.1 r.2) := by
  rw [codeChar, if_pos h, List.take_succ_cons, List.take_succ_cons, List.take_zero, if_pos rfl,
    List.drop_succ_cons, List.drop_succ_cons, List.drop_zero]

theorem readCode_pair {c : Char} (h : 0x10000 ≤ c.toNat) (rest : List Char) :
    readCode (Text.hexPadded 4 (0xd800 + (c.toNat - 0x10000) / 0x400) ++
      ('\\' :: 'u' :: Text.hexPadded 4 (0xdc00 + (c.toNat - 0x10000) % 0x400) ++ rest)) =
      some (c, rest) := by
  have hlt := toNat_lt c
  rw [readCode, readHex_hexPadded (by omega), Option.bind_some, List.cons_append,
    List.cons_append, codeChar_high (by omega), readHex_hexPadded (by omega), Option.bind_some,
    pairChar, if_pos (by omega)]
  have hcode : 0x10000 + (0xd800 + (c.toNat - 0x10000) / 0x400 - 0xd800) * 0x400 +
      (0xdc00 + (c.toNat - 0x10000) % 0x400 - 0xdc00) = c.toNat := by omega
  rw [hcode, Char.ofNat_toNat]

/-- Every character is read back. -/
theorem readChar_jsonChar (c : Char) (rest : List Char) :
    readChar (Text.jsonChar c ++ rest) = some (c, rest) := by
  unfold Text.jsonChar
  split
  · rename_i h
    rcases h with rfl | rfl <;> rfl
  iterate 5
    split
    · rename_i h
      subst h
      rfl
  rename_i hquote _ _ _ _ _
  split
  · -- A printable character stands for itself.
    rename_i h
    show (if c = '\\' then _ else if c.toNat < 0x20 then none else some (c, rest)) = _
    rw [if_neg (fun he => hquote (.inr he)), if_neg (by omega)]
  split
  · rename_i h
    exact readCode_plane h rest
  · rename_i h
    have hpair := readCode_pair (by omega : 0x10000 ≤ c.toNat) rest
    rw [List.append_assoc, List.append_assoc]
    exact hpair

/-- No character is written with a quote in front. -/
theorem head_jsonChar (c : Char) (rest : List Char) :
    (Text.jsonChar c ++ rest).head? ≠ some '"' := by
  have hescape : ∀ more : List Char, ('\\' :: more).head? ≠ some '"' := by
    intro more h
    exact absurd (Option.some.inj h) (by decide)
  unfold Text.jsonChar
  split
  · exact hescape _
  rename_i hquote
  iterate 5
    split
    · exact hescape _
  split
  · intro h
    exact hquote (.inl (Option.some.inj h))
  split
  · exact hescape _
  · exact hescape _

theorem jsonChar_ne_nil (c : Char) : Text.jsonChar c ≠ [] := by
  intro h
  have hread := readChar_jsonChar c []
  rw [h] at hread
  cases hread

theorem readString_flatMap (s rest : List Char) {n : Nat} (hn : s.length < n) :
    readString n (s.flatMap Text.jsonChar ++ '"' :: rest) = some (s, rest) := by
  induction s generalizing n with
  | nil =>
    obtain ⟨n, rfl⟩ : ∃ m, n = m + 1 := ⟨n - 1, by omega⟩
    rfl
  | cons c s ih =>
    obtain ⟨n, rfl⟩ : ∃ m, n = m + 1 := ⟨n - 1, by omega⟩
    rw [List.flatMap_cons, List.append_assoc, readString, if_neg (head_jsonChar c _),
      readChar_jsonChar c]
    have hn' : s.length < n := by simpa using hn
    show (readString n (s.flatMap Text.jsonChar ++ '"' :: rest)).bind _ = _
    rw [ih hn']
    rfl

theorem length_le_flatMap (s : List Char) : s.length ≤ (s.flatMap Text.jsonChar).length := by
  induction s with
  | nil => exact Nat.le_refl 0
  | cons c s ih =>
    have hpos := List.length_pos_iff.mpr (jsonChar_ne_nil c)
    rw [List.flatMap_cons, List.length_append, List.length_cons]
    omega

/-- Every string is read back. -/
theorem readString_stringText (s rest : List Char) {n : Nat} (hn : (stringText s).length ≤ n + 1) :
    readString n ((stringText s).tail ++ rest) = some (s, rest) := by
  have hle := length_le_flatMap s
  have hlength : (stringText s).length = (s.flatMap Text.jsonChar).length + 2 := by
    simp [stringText]
  show readString n (s.flatMap Text.jsonChar ++ ['"'] ++ rest) = _
  rw [List.append_assoc]
  exact readString_flatMap s rest (by omega)

/-! ### Reading numbers -/

/-- An optional minus. -/
def readSign (cs : List Char) : List Char × List Char :=
  if cs.head? = some '-' then (['-'], cs.tail) else ([], cs)

/-- Digits without a leading zero. -/
def readNatural : List Char → Option (List Char × List Char)
  | [] => none
  | c :: rest =>
    if c = '0' then some (['0'], rest)
    else if c.isDigit then some (c :: rest.takeWhile Char.isDigit, rest.dropWhile Char.isDigit)
    else none

/-- The text after a mark, if it begins with a digit. -/
def readDigits (mark cs unread : List Char) : List Char × List Char :=
  if cs.head?.any Char.isDigit then (mark ++ cs.takeWhile Char.isDigit, cs.dropWhile Char.isDigit)
  else ([], unread)

def readFraction (cs : List Char) : List Char × List Char :=
  if cs.head? = some '.' then readDigits ['.'] cs.tail cs else ([], cs)

def readExponent (cs : List Char) : List Char × List Char :=
  if cs.head? = some 'e' ∨ cs.head? = some 'E' then
    if cs.tail.head? = some '+' ∨ cs.tail.head? = some '-' then
      readDigits (cs.take 2) (cs.drop 2) cs
    else readDigits (cs.take 1) (cs.drop 1) cs
  else ([], cs)

/-- `floatOf` is the shortest text of the float a literal stands for. -/
def readNumber (floatOf : List Char → String) (cs : List Char) : Option (Value × List Char) := do
  let sign := readSign cs
  let natural ← readNatural sign.2
  let fraction := readFraction natural.2
  let exponent := readExponent fraction.2
  if fraction.1 = [] ∧ exponent.1 = [] then
    if intMaxStrDigits < natural.1.length then none
    else
      let n : Int := Nat.ofDigitChars 10 natural.1 0
      some (.int (if sign.1 = [] then n else -n), natural.2)
  else some (.float (floatOf (sign.1 ++ natural.1 ++ fraction.1 ++ exponent.1)), exponent.2)

/-- A text that can stand after a document. -/
def Ended (cs : List Char) : Prop := ∀ c, cs.head? = some c → c ∈ [',', ']', '\x7d']

theorem ended_nil : Ended [] := fun _ h => nomatch h

theorem ended_cons {c : Char} (h : c ∈ [',', ']', '\x7d']) (rest : List Char) : Ended (c :: rest) := by
  intro d hd
  obtain rfl : c = d := by simpa using hd
  exact h

theorem Ended.ne {cs : List Char} (h : Ended cs) {c : Char} (hc : c ∉ [',', ']', '\x7d']) :
    cs.head? ≠ some c := fun hhead => hc (h c hhead)

theorem Ended.span_digits {cs : List Char} (h : Ended cs) {ds : List Char} (hds : ∀ c ∈ ds, c.isDigit) :
    (ds ++ cs).takeWhile Char.isDigit = ds ∧ (ds ++ cs).dropWhile Char.isDigit = cs := by
  have htake : cs.takeWhile Char.isDigit = [] ∧ cs.dropWhile Char.isDigit = cs := by
    cases cs with
    | nil => exact ⟨rfl, rfl⟩
    | cons c rest =>
      have hc : c.isDigit = false := by
        have hmem := h c rfl
        simp only [List.mem_cons, List.not_mem_nil, or_false] at hmem
        rcases hmem with rfl | rfl | rfl <;> rfl
      simp [hc]
  constructor
  · rw [List.takeWhile_append_of_pos (by simpa using hds), htake.1, List.append_nil]
  · rw [List.dropWhile_append_of_pos (by simpa using hds), htake.2]

theorem isDigit_of_mem_digits {i : Int} {c : Char} (h : c ∈ digits i) : c.isDigit :=
  Nat.isDigit_of_mem_toDigits (by decide) (by decide) h

/-- Only zero begins with a zero. -/
theorem head_toDigits {n : Nat} (hn : 0 < n) : (Nat.toDigits 10 n).head? ≠ some '0' := by
  induction n using Nat.strong_induction_on with
  | _ n ih =>
    by_cases hlt : n < 10
    · rw [Nat.toDigits_of_lt_base hlt]
      intro h
      have hzero := Nat.digitChar_eq_zero.mp (Option.some.inj h)
      omega
    · have hfront := ih (n / 10) (by omega) (by omega)
      rw [Nat.toDigits_of_base_le (by decide) (by omega), List.head?_append]
      cases hhead : (Nat.toDigits 10 (n / 10)).head? with
      | none => exact absurd (List.head?_eq_none_iff.mp hhead) Nat.toDigits_ne_nil
      | some c =>
        rw [hhead] at hfront
        exact hfront

theorem readNatural_digits (i : Int) {rest : List Char} (h : Ended rest) :
    readNatural (digits i ++ rest) = some (digits i, rest) := by
  by_cases hzero : i.natAbs = 0
  · have hdigits : digits i = ['0'] := by
      rw [digits, hzero]
      rfl
    rw [hdigits]
    rfl
  · have hhead := head_toDigits (Nat.pos_of_ne_zero hzero)
    have hall : ∀ c ∈ digits i, c.isDigit := fun c hc => isDigit_of_mem_digits hc
    cases hdigits : digits i with
    | nil => exact absurd hdigits Nat.toDigits_ne_nil
    | cons c ds =>
      rw [show Nat.toDigits 10 i.natAbs = c :: ds from hdigits] at hhead
      rw [hdigits] at hall
      obtain ⟨htake, hdrop⟩ := h.span_digits (fun d hd => hall d (List.mem_cons_of_mem c hd))
      rw [List.cons_append, readNatural, if_neg (fun hc => hhead (congrArg some hc)),
        if_pos (hall c List.mem_cons_self), htake, hdrop]

theorem readFraction_ended {rest : List Char} (h : Ended rest) : readFraction rest = ([], rest) :=
  if_neg (h.ne (by decide))

theorem readExponent_ended {rest : List Char} (h : Ended rest) : readExponent rest = ([], rest) :=
  if_neg (not_or.mpr ⟨h.ne (by decide), h.ne (by decide)⟩)

/-- Every number is read back, unless it has too many digits. -/
theorem readNumber_int (floatOf : List Char → String) {i : Int} (hi : (digits i).length ≤ intMaxStrDigits)
    {rest : List Char} (h : Ended rest) :
    readNumber floatOf (intText i ++ rest) = some (.int i, rest) := by
  have hvalue : (Nat.ofDigitChars 10 (digits i) 0 : Int) = i.natAbs :=
    congrArg Nat.cast Nat.ofDigitChars_ten_toDigits
  have hsign : readSign (intText i ++ rest) = (if i < 0 then ['-'] else [], digits i ++ rest) := by
    unfold intText
    by_cases hneg : i < 0
    · rw [if_pos hneg, if_pos hneg]
      rfl
    · rw [if_neg hneg, if_neg hneg]
      refine if_neg (fun hhead => ?_)
      cases hdigits : digits i with
      | nil => exact absurd hdigits Nat.toDigits_ne_nil
      | cons c ds =>
        have hc : c.isDigit := isDigit_of_mem_digits (hdigits ▸ List.mem_cons_self)
        rw [hdigits] at hhead
        rw [Option.some.inj hhead] at hc
        exact absurd hc (by decide)
  unfold readNumber
  rw [hsign]
  show (readNatural (digits i ++ rest)).bind _ = _
  rw [readNatural_digits i h, Option.bind_some]
  simp only [readFraction_ended h, readExponent_ended h, true_and, if_true]
  rw [if_neg (by omega), hvalue]
  congr 3
  by_cases hneg : i < 0
  · rw [if_pos hneg, if_neg (by decide)]
    omega
  · rw [if_neg hneg, if_pos rfl]
    omega

/-! ### Reading documents -/

def isGap (c : Char) : Bool := c ∈ [' ', '\t', '\n', '\r']

def skip (cs : List Char) : List Char := cs.dropWhile isGap

def constants : List (List Char × Value) :=
  [(['n', 'u', 'l', 'l'], .none), (['t', 'r', 'u', 'e'], .bool true),
   (['f', 'a', 'l', 's', 'e'], .bool false), (['N', 'a', 'N'], .float "nan"),
   (['I', 'n', 'f', 'i', 'n', 'i', 't', 'y'], .float "inf"),
   (['-', 'I', 'n', 'f', 'i', 'n', 'i', 't', 'y'], .float "-inf")]

def readConstant (cs : List Char) : Option (Value × List Char) :=
  constants.findSome? (fun w =>
    if w.1.isPrefixOf cs then some (w.2, cs.drop w.1.length) else none)

/-- The key of an entry and its colon. -/
def readKey (n : Nat) (cs : List Char) : Option (String × List Char) :=
  if cs.head? = some '"' then
    (readString n cs.tail).bind (fun r =>
      let rest := skip r.2
      if rest.head? = some ':' then some (String.ofList r.1, skip rest.tail) else none)
  else none

/-- A dictionary from pairs: the last value of a key is the one that stays. -/
def lastEntries (pairs : Payload) : Payload := pairs.foldl (fun d e => setEntry e.1 e.2 d) []

section
variable (floatOf : List Char → String)

mutual

/-- A document off the front of a text, which is at most so long. -/
def readValue : Nat → List Char → Option (Value × List Char)
  | 0, _ => none
  | n + 1, cs =>
    if cs.head? = some '"' then
      (readString n cs.tail).map (fun r => (.str (String.ofList r.1), r.2))
    else if cs.head? = some '\x7b' then
      let rest := skip cs.tail
      if rest.head? = some '\x7d' then some (.dict [], rest.tail)
      else (readKey n rest).bind (fun k => (readValue n k.2).bind (fun v =>
        (readEntries n v.2).map (fun r => (.dict (lastEntries ((k.1, v.1) :: r.1)), r.2))))
    else if cs.head? = some '[' then
      let rest := skip cs.tail
      if rest.head? = some ']' then some (.list [], rest.tail)
      else (readValue n rest).bind (fun v => (readItems n v.2).map (fun r => (.list (v.1 :: r.1), r.2)))
    else (readConstant cs).or (readNumber floatOf cs)

/-- The items after one that was read, and the end of the list. -/
def readItems : Nat → List Char → Option (List Value × List Char)
  | 0, _ => none
  | n + 1, cs =>
    let rest := skip cs
    if rest.head? = some ']' then some ([], rest.tail)
    else if rest.head? = some ',' then
      (readValue n (skip rest.tail)).bind (fun v => (readItems n v.2).map (fun r => (v.1 :: r.1, r.2)))
    else none

/-- The entries after one that was read, and the end of the dictionary. -/
def readEntries : Nat → List Char → Option (Payload × List Char)
  | 0, _ => none
  | n + 1, cs =>
    let rest := skip cs
    if rest.head? = some '\x7d' then some ([], rest.tail)
    else if rest.head? = some ',' then
      (readKey n (skip rest.tail)).bind (fun k => (readValue n k.2).bind (fun v =>
        (readEntries n v.2).map (fun r => ((k.1, v.1) :: r.1, r.2))))
    else none

end

/-- `json.loads`. -/
def loads (s : String) : Option Value :=
  (readValue floatOf s.toList.length (skip s.toList)).bind (fun r =>
    if skip r.2 = [] then some r.1 else none)

end

/-! ### Documents that are read back -/

mutual

/-- No float, no object, no number of too many digits, and no key twice. -/
def Plain : Value → Prop
  | .none | .bool _ | .str _ => True
  | .int i => (digits i).length ≤ intMaxStrDigits
  | .float _ | .object _ => False
  | .list items => PlainItems items
  | .dict items => (items.map Prod.fst).Nodup ∧ PlainEntries items

def PlainItems : List Value → Prop
  | [] => True
  | v :: rest => Plain v ∧ PlainItems rest

def PlainEntries : Payload → Prop
  | [] => True
  | (_, v) :: rest => Plain v ∧ PlainEntries rest

end

theorem lastEntries_eq_self {pairs : Payload} (h : (pairs.map Prod.fst).Nodup) :
    lastEntries pairs = pairs := by
  have hfold : ∀ (done : Payload), (done.map Prod.fst ++ pairs.map Prod.fst).Nodup →
      pairs.foldl (fun d e => setEntry e.1 e.2 d) done = done ++ pairs := by
    induction pairs with
    | nil => exact fun done _ => (List.append_nil done).symm
    | cons e rest ih =>
      intro done hdone
      have hnew : e.1 ∉ done.map Prod.fst := by
        intro hmem
        exact (List.nodup_append.mp hdone).2.2 _ hmem _ List.mem_cons_self rfl
      rw [List.foldl_cons, Dict.setEntry_new hnew, ih (List.nodup_cons.mp h).2, List.append_assoc]
      · rfl
      · rw [List.map_append, List.append_assoc]
        exact hdone
  exact hfold [] h

theorem skip_of_not_gap {c : Char} (h : isGap c = false) (rest : List Char) :
    skip (c :: rest) = c :: rest := List.dropWhile_cons_of_neg (by simp [h])

/-- A gap in front of a text without one. -/
theorem skip_gap {gap cs : List Char} (hgap : ∀ c ∈ gap, isGap c = true) (hcs : skip cs = cs) :
    skip (gap ++ cs) = cs := by
  unfold skip
  rw [List.dropWhile_append_of_pos hgap]
  exact hcs

/-- A number begins with a digit, after its sign. -/
theorem intText_cases (i : Int) : ∃ d ds, d.isDigit = true ∧
    (intText i = d :: ds ∨ intText i = '-' :: d :: ds) := by
  cases hdigits : digits i with
  | nil => exact absurd hdigits Nat.toDigits_ne_nil
  | cons d ds =>
    refine ⟨d, ds, isDigit_of_mem_digits (hdigits ▸ List.mem_cons_self), ?_⟩
    unfold intText
    rw [hdigits]
    by_cases hneg : i < 0
    · rw [if_pos hneg]
      exact .inr rfl
    · rw [if_neg hneg]
      exact .inl rfl

theorem ne_of_isDigit {d c : Char} (hd : d.isDigit = true) (hc : c.isDigit = false) : d ≠ c := by
  intro h
  rw [h, hc] at hd
  cases hd

theorem readConstant_int (i : Int) (rest : List Char) : readConstant (intText i ++ rest) = none := by
  obtain ⟨d, ds, hd, htext⟩ := intText_cases i
  have hne : ∀ c : Char, c.isDigit = false → c ≠ d := fun c hc => (ne_of_isDigit hd hc).symm
  unfold readConstant constants
  rcases htext with htext | htext
  · rw [htext]
    simp [hne 'n', hne 't', hne 'f', hne 'N', hne 'I', hne '-']
  · rw [htext]
    simp [hne 'I']

section
variable {gap : List Char}

/-- How a document can begin. -/
def Opens (c : Char) : Prop := isGap c = false ∧ c ∉ [',', ':', ']', '\x7d']

instance (c : Char) : Decidable (Opens c) := inferInstanceAs (Decidable (_ ∧ _))

variable (gap) in
theorem write_opens {v : Value} (hv : Plain v) : ∃ c more, write gap v = c :: more ∧ Opens c := by
  cases v with
  | none => exact ⟨_, _, rfl, by decide⟩
  | bool b =>
    cases b
    · exact ⟨_, _, rfl, by decide⟩
    · exact ⟨_, _, rfl, by decide⟩
  | int i =>
    obtain ⟨d, ds, hd, htext | htext⟩ := intText_cases i
    · have hne : ∀ c : Char, c.isDigit = false → d ≠ c := fun c => ne_of_isDigit hd
      refine ⟨d, ds, htext, ?_, ?_⟩
      · simp [isGap, hne ' ', hne '\t', hne '\n', hne '\r']
      · simp [hne ',', hne ':', hne ']', hne '\x7d']
    · exact ⟨_, _, htext, by decide⟩
  | float repr => exact hv.elim
  | str s => exact ⟨_, _, rfl, by decide⟩
  | list items =>
    cases items with
    | nil => exact ⟨_, _, rfl, by decide⟩
    | cons v rest => exact ⟨_, _, rfl, by decide⟩
  | dict items =>
    cases items with
    | nil => exact ⟨_, _, rfl, by decide⟩
    | cons e rest => exact ⟨_, _, rfl, by decide⟩
  | object repr => exact hv.elim

variable (gap) in
theorem skip_write {v : Value} (hv : Plain v) (rest : List Char) :
    skip (write gap v ++ rest) = write gap v ++ rest := by
  obtain ⟨c, more, htext, hgap, _⟩ := write_opens gap hv
  rw [htext]
  exact skip_of_not_gap hgap _

theorem head_write {v : Value} (hv : Plain v) (rest : List Char) {c : Char}
    (hc : c ∈ [',', ':', ']', '\x7d']) : (write gap v ++ rest).head? ≠ some c := by
  obtain ⟨d, more, htext, _, hd⟩ := write_opens gap hv
  rw [htext]
  intro h
  exact hd (Option.some.inj h ▸ hc)

/-- Every key is read back. -/
theorem readKey_stringText {n : Nat} (k : String) (hn : (stringText k.toList).length ≤ n + 1)
    (hgap : ∀ c ∈ gap, isGap c = true) {cs : List Char} (hcs : skip cs = cs) :
    readKey n (stringText k.toList ++ (':' :: (gap ++ cs))) = some (k, cs) := by
  have hhead : (stringText k.toList ++ (':' :: (gap ++ cs))).head? = some '"' := rfl
  have htail : (stringText k.toList ++ (':' :: (gap ++ cs))).tail =
      (stringText k.toList).tail ++ (':' :: (gap ++ cs)) := rfl
  rw [readKey, if_pos hhead, htail, readString_stringText _ _ hn, Option.bind_some]
  show (if (skip (':' :: (gap ++ cs))).head? = some ':' then
    some (String.ofList k.toList, skip (skip (':' :: (gap ++ cs))).tail) else none) = _
  rw [skip_of_not_gap (by decide), List.head?_cons, if_pos rfl, List.tail_cons, skip_gap hgap hcs, String.ofList_toList]

variable (gap) in
theorem ended_writeItems (items : List Value) (rest : List Char) :
    Ended (writeItems gap items ++ rest) := by
  cases items with
  | nil => exact ended_cons (by decide) _
  | cons v items => exact ended_cons (by decide) _

variable (gap) in
theorem ended_writeEntries (items : Payload) (rest : List Char) :
    Ended (writeEntries gap items ++ rest) := by
  cases items with
  | nil => exact ended_cons (by decide) _
  | cons e items => exact ended_cons (by decide) _

variable (floatOf : List Char → String)

/-- A list that is not closed at once. -/
theorem readValue_list {n : Nat} {cs : List Char} (hcs : skip cs = cs) (hopen : cs.head? ≠ some ']') :
    readValue floatOf (n + 1) ('[' :: cs) =
      (readValue floatOf n cs).bind (fun v =>
        (readItems floatOf n v.2).map (fun r => (.list (v.1 :: r.1), r.2))) := by
  have hread : readValue floatOf (n + 1) ('[' :: cs) =
      if (skip cs).head? = some ']' then some (.list [], (skip cs).tail)
      else (readValue floatOf n (skip cs)).bind (fun v =>
        (readItems floatOf n v.2).map (fun r => (.list (v.1 :: r.1), r.2))) := rfl
  rw [hread, hcs, if_neg hopen]

/-- A dictionary that is not closed at once. -/
theorem readValue_dict {n : Nat} {cs : List Char} (hcs : skip cs = cs) (hopen : cs.head? ≠ some '\x7d') :
    readValue floatOf (n + 1) ('\x7b' :: cs) =
      (readKey n cs).bind (fun k => (readValue floatOf n k.2).bind (fun v =>
        (readEntries floatOf n v.2).map (fun r =>
          (.dict (lastEntries ((k.1, v.1) :: r.1)), r.2)))) := by
  have hread : readValue floatOf (n + 1) ('\x7b' :: cs) =
      if (skip cs).head? = some '\x7d' then some (.dict [], (skip cs).tail)
      else (readKey n (skip cs)).bind (fun k => (readValue floatOf n k.2).bind (fun v =>
        (readEntries floatOf n v.2).map (fun r =>
          (.dict (lastEntries ((k.1, v.1) :: r.1)), r.2)))) := rfl
  rw [hread, hcs, if_neg hopen]

theorem readItems_comma (n : Nat) (cs : List Char) :
    readItems floatOf (n + 1) (',' :: cs) =
      (readValue floatOf n (skip cs)).bind (fun v =>
        (readItems floatOf n v.2).map (fun r => (v.1 :: r.1, r.2))) := rfl

theorem readEntries_comma (n : Nat) (cs : List Char) :
    readEntries floatOf (n + 1) (',' :: cs) =
      (readKey n (skip cs)).bind (fun k => (readValue floatOf n k.2).bind (fun v =>
        (readEntries floatOf n v.2).map (fun r => ((k.1, v.1) :: r.1, r.2)))) := rfl

theorem skip_stringText (s cs : List Char) : skip (stringText s ++ cs) = stringText s ++ cs :=
  skip_of_not_gap (by decide) _

mutual

/-- **A document is read back** off the front of any text that can follow it. -/
theorem readValue_write (hgap : ∀ c ∈ gap, isGap c = true) {v : Value} (hv : Plain v)
    {n : Nat} (hn : (write gap v).length ≤ n) {rest : List Char} (hrest : Ended rest) :
    readValue floatOf n (write gap v ++ rest) = some (v, rest) := by
  obtain ⟨n, rfl⟩ : ∃ m, n = m + 1 := by
    obtain ⟨c, more, htext, _⟩ := write_opens gap hv
    rw [htext, List.length_cons] at hn
    exact ⟨n - 1, by omega⟩
  cases v with
  | none => rfl
  | bool b =>
    cases b
    · rfl
    · rfl
  | int i =>
    obtain ⟨d, ds, hd, htext⟩ := intText_cases i
    have hhead : ∀ c, c ≠ '-' → c.isDigit = false → (intText i ++ rest).head? ≠ some c := by
      intro c hminus hc h
      rcases htext with htext | htext
      · rw [htext] at h
        exact ne_of_isDigit hd hc (Option.some.inj h)
      · rw [htext] at h
        exact hminus (Option.some.inj h).symm
    rw [write, readValue, if_neg (hhead _ (by decide) (by decide)),
      if_neg (hhead _ (by decide) (by decide)), if_neg (hhead _ (by decide) (by decide)),
      readConstant_int, Option.none_or]
    exact readNumber_int floatOf hv hrest
  | float repr => exact hv.elim
  | str s =>
    have hstring := readString_stringText s.toList rest hn
    show (readString n ((stringText s.toList).tail ++ rest)).map _ = _
    rw [hstring, Option.map_some, String.ofList_toList]
  | list items =>
    cases items with
    | nil => rfl
    | cons v items =>
      obtain ⟨hv, hitems⟩ := hv
      rw [write, List.cons_append, List.length_cons, List.length_append] at hn
      have hvalue := readValue_write hgap hv (n := n) (by omega)
        (ended_writeItems gap items rest)
      have htail := readItems_write hgap hitems (n := n) (by omega) rest
      rw [write, List.cons_append, List.cons_append, List.append_assoc,
        readValue_list floatOf (skip_write gap hv _) (head_write hv _ (by decide)), hvalue,
        Option.bind_some, htail]
      rfl
  | dict items =>
    cases items with
    | nil => rfl
    | cons e items =>
      obtain ⟨k, v⟩ := e
      obtain ⟨hkeys, hv, hitems⟩ := hv
      simp only [write, List.cons_append, List.length_cons, List.length_append] at hn
      have hvalue := readValue_write hgap hv (n := n) (by omega)
        (ended_writeEntries gap items rest)
      have htail := readEntries_write hgap hitems (n := n) (by omega) rest
      have hkey := readKey_stringText (n := n) k (by omega) hgap
        (skip_write gap hv (writeEntries gap items ++ rest))
      simp only [write, List.cons_append, List.append_assoc]
      rw [readValue_dict floatOf (skip_stringText _ _) (by simp [stringText]), hkey, Option.bind_some,
        hvalue, Option.bind_some, htail, Option.map_some, lastEntries_eq_self hkeys]
  | object repr => exact hv.elim

theorem readItems_write (hgap : ∀ c ∈ gap, isGap c = true) {items : List Value}
    (hitems : PlainItems items) {n : Nat} (hn : (writeItems gap items).length ≤ n) (rest : List Char) :
    readItems floatOf n (writeItems gap items ++ rest) = some (items, rest) := by
  cases items with
  | nil =>
    obtain ⟨n, rfl⟩ : ∃ m, n = m + 1 := ⟨n - 1, by simp [writeItems] at hn; omega⟩
    rfl
  | cons v items =>
    obtain ⟨hv, hitems⟩ := hitems
    simp only [writeItems, List.cons_append, List.length_cons, List.length_append] at hn
    obtain ⟨n, rfl⟩ : ∃ m, n = m + 1 := ⟨n - 1, by omega⟩
    have hvalue := readValue_write hgap hv (n := n) (by omega)
      (ended_writeItems gap items rest)
    have htail := readItems_write hgap hitems (n := n) (by omega) rest
    simp only [writeItems, List.cons_append, List.append_assoc]
    rw [readItems_comma, skip_gap hgap (skip_write gap hv _), hvalue, Option.bind_some, htail]
    rfl

theorem readEntries_write (hgap : ∀ c ∈ gap, isGap c = true) {items : Payload}
    (hitems : PlainEntries items) {n : Nat} (hn : (writeEntries gap items).length ≤ n)
    (rest : List Char) :
    readEntries floatOf n (writeEntries gap items ++ rest) = some (items, rest) := by
  cases items with
  | nil =>
    obtain ⟨n, rfl⟩ : ∃ m, n = m + 1 := ⟨n - 1, by simp [writeEntries] at hn; omega⟩
    rfl
  | cons e items =>
    obtain ⟨k, v⟩ := e
    obtain ⟨hv, hitems⟩ := hitems
    simp only [writeEntries, List.cons_append, List.length_cons, List.length_append] at hn
    obtain ⟨n, rfl⟩ : ∃ m, n = m + 1 := ⟨n - 1, by omega⟩
    have hvalue := readValue_write hgap hv (n := n) (by omega)
      (ended_writeEntries gap items rest)
    have htail := readEntries_write hgap hitems (n := n) (by omega) rest
    have hkey := readKey_stringText (n := n) k (by omega) hgap
      (skip_write gap hv (writeEntries gap items ++ rest))
    simp only [writeEntries, List.cons_append, List.append_assoc]
    rw [readEntries_comma, skip_gap hgap (skip_stringText _ _), hkey, Option.bind_some, hvalue,
      Option.bind_some, htail]
    rfl

end

end

/-! ### A document and its text -/

mutual

/-- No number has too many digits for a text. -/
def withinDigits : Value → Bool
  | .int i => (digits i).length ≤ intMaxStrDigits
  | .list items => withinDigitsItems items
  | .dict items => withinDigitsEntries items
  | _ => true

def withinDigitsItems : List Value → Bool
  | [] => true
  | v :: rest => withinDigits v && withinDigitsItems rest

def withinDigitsEntries : Payload → Bool
  | [] => true
  | (_, v) :: rest => withinDigits v && withinDigitsEntries rest

end

/-- `json.dumps(value, sort_keys=True)` of a serialisable value, unless a number is too
long. -/
def dumps (v : Value) : Option String :=
  if withinDigits v then some (String.ofList (write [' '] v.sortKeys)) else none

mutual

theorem Plain.withinDigits {v : Value} (hv : Plain v) : withinDigits v = true := by
  cases v with
  | none | bool | str => rfl
  | int i => exact decide_eq_true hv
  | float | object => exact hv.elim
  | list items => exact PlainItems.withinDigits hv
  | dict items => exact PlainEntries.withinDigits hv.2

theorem PlainItems.withinDigits {items : List Value} (h : PlainItems items) :
    withinDigitsItems items = true := by
  cases items with
  | nil => rfl
  | cons v rest => exact Bool.and_eq_true_iff.mpr ⟨h.1.withinDigits, PlainItems.withinDigits h.2⟩

theorem PlainEntries.withinDigits {items : Payload} (h : PlainEntries items) :
    withinDigitsEntries items = true := by
  cases items with
  | nil => rfl
  | cons e rest =>
    obtain ⟨k, v⟩ := e
    exact Bool.and_eq_true_iff.mpr ⟨h.1.withinDigits, PlainEntries.withinDigits h.2⟩

end

theorem plainEntries_iff {items : Payload} : PlainEntries items ↔ ∀ e ∈ items, Plain e.2 := by
  induction items with
  | nil => simp [PlainEntries]
  | cons e rest ih =>
    obtain ⟨k, v⟩ := e
    simp [PlainEntries, ih]

theorem keys_sortKeysEntries (items : Payload) :
    (Value.sortKeysEntries items).map Prod.fst = items.map Prod.fst := by
  rw [Value.sortKeysEntries_eq_map, List.map_map]
  rfl

theorem sortedEntries_perm (items : Payload) : (Value.sortedEntries items).Perm items :=
  List.perm_insertionSort _ items

mutual

theorem Plain.sortKeys {v : Value} (hv : Plain v) : Plain v.sortKeys := by
  cases v with
  | none | bool | str => trivial
  | int i => exact hv
  | float | object => exact hv.elim
  | list items => exact PlainItems.sortKeys hv
  | dict items =>
    have hperm := sortedEntries_perm (Value.sortKeysEntries items)
    refine ⟨?_, ?_⟩
    · rw [(hperm.map Prod.fst).nodup_iff, keys_sortKeysEntries]
      exact hv.1
    · have hsorted := plainEntries_iff.mp (PlainEntries.sortKeys hv.2)
      exact plainEntries_iff.mpr (fun e he => hsorted e (hperm.mem_iff.mp he))

theorem PlainItems.sortKeys {items : List Value} (h : PlainItems items) :
    PlainItems (Value.sortKeysItems items) := by
  cases items with
  | nil => trivial
  | cons v rest => exact ⟨h.1.sortKeys, PlainItems.sortKeys h.2⟩

theorem PlainEntries.sortKeys {items : Payload} (h : PlainEntries items) :
    PlainEntries (Value.sortKeysEntries items) := by
  cases items with
  | nil => trivial
  | cons e rest =>
    obtain ⟨k, v⟩ := e
    exact ⟨h.1.sortKeys, PlainEntries.sortKeys h.2⟩

end

/-- `json.dumps(value)` of a serialisable value without too long a number. -/
def text (v : Value) : String := String.ofList (write [' '] v)

/-- **The text of a document is read back** as the document. -/
theorem loads_text (floatOf : List Char → String) {v : Value} (hv : Plain v) :
    loads floatOf (text v) = some v := by
  have hskip := skip_write [' '] hv []
  have hgap : ∀ c ∈ [' '], isGap c = true := by
    intro c hc
    rw [List.mem_singleton.mp hc]
    rfl
  have hread := readValue_write floatOf hgap hv (Nat.le_refl _) ended_nil
  rw [List.append_nil] at hskip hread
  rw [loads, text, String.toList_ofList, hskip, hread]
  rfl

/-- Written with sorted keys, it is read back sorted. -/
theorem loads_dumps (floatOf : List Char → String) {v : Value} (hv : Plain v) :
    ∃ text, dumps v = some text ∧ loads floatOf text = some v.sortKeys :=
  ⟨text v.sortKeys, if_pos hv.withinDigits, loads_text floatOf hv.sortKeys⟩

/-- A key finds the same value in the sorted document, sorted. -/
theorem lookup_sortPayload {items : Payload} (h : (items.map Prod.fst).Nodup) (key : String) :
    (Value.sortPayload items).lookup key = (items.lookup key).map Value.sortKeys := by
  have hperm := sortedEntries_perm (Value.sortKeysEntries items)
  have hentries : ((Value.sortKeysEntries items).map Prod.fst).Nodup := by
    rw [keys_sortKeysEntries]
    exact h
  have hsorted : ((Value.sortPayload items).map Prod.fst).Nodup :=
    (hperm.map Prod.fst).nodup_iff.mpr hentries
  have hsame : (Value.sortPayload items).lookup key = (Value.sortKeysEntries items).lookup key := by
    refine Option.ext (fun v => ?_)
    rw [← Dict.mem_iff_lookup hsorted, ← Dict.mem_iff_lookup hentries]
    exact hperm.mem_iff
  rw [hsame, Value.sortKeysEntries_eq_map, Dict.lookup_map]

theorem field_sortPayload {items : Payload} (h : (items.map Prod.fst).Nodup) (key : String) :
    Value.field (Value.sortPayload items) key = (Value.field items key).sortKeys := by
  rw [Value.field, Value.field, lookup_sortPayload h]
  cases items.lookup key with
  | none => rfl
  | some v => rfl

end AgentKernel.Lib.JsonText
