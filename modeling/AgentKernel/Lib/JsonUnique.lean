import AgentKernel.Lib.Json
import AgentKernel.Lib.JsonText

/-! JSON texts tell documents apart.

A sorted JSON text is the text of the sorted document, whichever characters its strings
escape (`Writer.toList_eq`). No such text is the beginning of another one that goes on as
a list or a dictionary does, so each document is read off the front of its text
(`text_prefixFree`). So two documents have one sorted text exactly when they are equal up
to the order of their keys (`json_inj`, `jsonPlain_inj`), which is when their dictionaries
hold the same values under the same keys (`sortKeys_dict_eq_iff`). -/
namespace AgentKernel.Lib.JsonText

/-- What is said of all characters of a list is checked one by one. -/
theorem forall_chars {l : List Char} {p : Char → Prop} [DecidablePred p]
    (h : l.all (fun c => decide (p c)) = true) : ∀ c ∈ l, p c :=
  fun c hc => of_decide_eq_true (List.all_eq_true.mp h c hc)

/-! ### Texts no other text begins with -/

/-- Whatever follows a text of the family, the text and what follows can be told apart. -/
def PrefixFree {α : Type} (text : α → List Char) : Prop :=
  ∀ ⦃a b : α⦄ ⦃r r' : List Char⦄, text a ++ r = text b ++ r' → a = b ∧ r = r'

/-- How the characters of a string are written. -/
structure CharCode where
  encode : Char → List Char
  prefixFree : PrefixFree encode
  noQuote : ∀ c rest, (encode c ++ rest).head? ≠ some '"'

/-- What can be read back is prefix-free. -/
theorem prefixFree_of_read {encode : Char → List Char}
    (h : ∀ c rest, readChar (encode c ++ rest) = some (c, rest)) : PrefixFree encode := by
  intro c d r r' htext
  have hread : some (c, r) = some (d, r') := by rw [← h c r, ← h d r', htext]
  cases hread
  exact ⟨rfl, rfl⟩

theorem readChar_jsonPlainChar (c : Char) (rest : List Char) :
    readChar (Text.jsonPlainChar c ++ rest) = some (c, rest) := by
  unfold Text.jsonPlainChar
  split
  · rename_i h
    rcases h with rfl | rfl <;> rfl
  rename_i hescaped
  iterate 5
    split
    · rename_i h
      subst h
      rfl
  split
  · rename_i h
    exact readCode_plane (by omega) rest
  · rename_i h
    show (if c = '\\' then _ else if c.toNat < 0x20 then none else some (c, rest)) = _
    rw [if_neg (fun hc => hescaped (.inr hc)), if_neg h]

theorem head_jsonPlainChar (c : Char) (rest : List Char) :
    (Text.jsonPlainChar c ++ rest).head? ≠ some '"' := by
  unfold Text.jsonPlainChar
  split
  · exact fun h => nomatch h
  rename_i hescaped
  iterate 5
    split
    · exact fun h => nomatch h
  split
  · exact fun h => nomatch h
  · intro h
    exact hescaped (.inl (Option.some.inj h))

/-- Strings with ASCII characters only. -/
def CharCode.ascii : CharCode where
  encode := Text.jsonChar
  prefixFree := prefixFree_of_read readChar_jsonChar
  noQuote := head_jsonChar

/-- Strings that keep their characters. -/
def CharCode.plain : CharCode where
  encode := Text.jsonPlainChar
  prefixFree := prefixFree_of_read readChar_jsonPlainChar
  noQuote := head_jsonPlainChar

/-! ### The text of a document -/

namespace CharCode
variable (code : CharCode)

def string (s : String) : List Char := '"' :: s.toList.flatMap code.encode ++ ['"']

mutual

/-- A document without gaps, its dictionaries in the order they have. -/
def text : Value → List Char
  | .none => ['n', 'u', 'l', 'l']
  | .bool b => if b then ['t', 'r', 'u', 'e'] else ['f', 'a', 'l', 's', 'e']
  | .int i => intText i
  | .float repr => (floatText repr).toList
  | .str s => code.string s
  | .list [] => ['[', ']']
  | .list (v :: rest) => '[' :: text v ++ textItems rest
  | .dict [] => ['\x7b', '\x7d']
  | .dict ((k, v) :: rest) => '\x7b' :: code.string k ++ ':' :: text v ++ textEntries rest
  | .object repr => repr.toList

/-- The items after the first, and the end of the list. -/
def textItems : List Value → List Char
  | [] => [']']
  | v :: rest => ',' :: text v ++ textItems rest

/-- The entries after the first, and the end of the dictionary. -/
def textEntries : Payload → List Char
  | [] => ['\x7d']
  | (k, v) :: rest => ',' :: code.string k ++ ':' :: text v ++ textEntries rest

end

theorem flatMap_encode_inj {s t r r' : List Char}
    (h : s.flatMap code.encode ++ '"' :: r = t.flatMap code.encode ++ '"' :: r') :
    s = t ∧ r = r' := by
  -- Neither string ends before the other: its quote would begin a character.
  have hquote : ∀ (c : Char) (rest more : List Char), '"' :: more ≠ code.encode c ++ rest :=
    fun c rest more h => code.noQuote c rest (h ▸ rfl)
  induction s generalizing t with
  | nil =>
    cases t with
    | nil => exact ⟨rfl, (List.cons.inj h).2⟩
    | cons d t =>
      rw [List.flatMap_cons, List.append_assoc] at h
      exact absurd h (hquote _ _ _)
  | cons c s ih =>
    cases t with
    | nil =>
      rw [List.flatMap_cons, List.append_assoc] at h
      exact absurd h.symm (hquote _ _ _)
    | cons d t =>
      rw [List.flatMap_cons, List.flatMap_cons, List.append_assoc, List.append_assoc] at h
      obtain ⟨rfl, hrest⟩ := code.prefixFree h
      obtain ⟨rfl, hr⟩ := ih hrest
      exact ⟨rfl, hr⟩

theorem string_prefixFree : PrefixFree code.string := by
  intro s t r r' h
  simp only [string, List.cons_append, List.append_assoc, List.cons.injEq, true_and,
    List.nil_append] at h
  obtain ⟨hst, hr⟩ := code.flatMap_encode_inj h
  exact ⟨String.toList_inj.mp hst, hr⟩

end CharCode

/-! ### JSON values -/

/-- A text floats have: a name, or digits with a point or an exponent. -/
def FloatRepr (repr : String) : Prop :=
  repr ∈ ["inf", "-inf", "nan"] ∨
    (∀ c ∈ repr.toList, c ∈ "0123456789.e+-".toList) ∧ ∃ c ∈ repr.toList, c = '.' ∨ c = 'e'

mutual

/-- A value JSON has a form for, its dictionaries with one entry for each key. -/
def IsJson : Value → Prop
  | .float repr => FloatRepr repr
  | .list items => IsJsonItems items
  | .dict items => (items.map Prod.fst).Nodup ∧ IsJsonEntries items
  | .object _ => False
  | _ => True

def IsJsonItems : List Value → Prop
  | [] => True
  | v :: rest => IsJson v ∧ IsJsonItems rest

def IsJsonEntries : Payload → Prop
  | [] => True
  | (_, v) :: rest => IsJson v ∧ IsJsonEntries rest

end

/-- A value whose text has no other text inside. -/
def isScalar : Value → Bool
  | .none | .bool _ | .int _ | .float _ => true
  | _ => false

/-! ### Scalars are read back -/

def intOf : List Char → Int
  | '-' :: ds => -(Nat.ofDigitChars 10 ds 0)
  | ds => Nat.ofDigitChars 10 ds 0

def reprOf (cs : List Char) : String :=
  if cs = "Infinity".toList then "inf" else if cs = "-Infinity".toList then "-inf"
  else if cs = "NaN".toList then "nan" else String.ofList cs

/-- The characters that no text of another scalar has where a float has one. -/
def floatMarks : List Char := ['.', 'e', 'I', 'N']

def scalarOf (cs : List Char) : Value :=
  if cs.head? = some 'n' then .none
  else if cs.head? = some 't' then .bool true
  else if cs.head? = some 'f' then .bool false
  else if cs.any (· ∈ floatMarks) then .float (reprOf cs)
  else .int (intOf cs)

theorem intOf_intText (i : Int) : intOf (intText i) = i := by
  have hvalue : (Nat.ofDigitChars 10 (digits i) 0 : Int) = i.natAbs :=
    congrArg Nat.cast Nat.ofDigitChars_ten_toDigits
  unfold intText
  split
  · show -(Nat.ofDigitChars 10 (digits i) 0 : Int) = i
    rw [hvalue]
    omega
  · have hread : intOf (digits i) = Nat.ofDigitChars 10 (digits i) 0 := by
      unfold intOf
      split
      · rename_i hdigits
        have hdigit : '-'.isDigit = true := isDigit_of_mem_digits (hdigits ▸ List.mem_cons_self)
        exact absurd hdigit (by decide)
      · rfl
    rw [hread, hvalue]
    omega

/-- A character of a whole number. -/
def isNumeral (c : Char) : Bool := c.isDigit || c == '-'

theorem mem_intText {i : Int} {c : Char} (h : c ∈ intText i) : isNumeral c = true := by
  have hdigit : ∀ d ∈ digits i, isNumeral d = true := by
    intro d hd
    exact Bool.or_eq_true_iff.mpr (.inl (isDigit_of_mem_digits hd))
  unfold intText at h
  split at h
  · rcases List.mem_cons.mp h with rfl | hc
    · rfl
    · exact hdigit c hc
  · exact hdigit c h

/-- A float's text is its own, or one of three names. -/
theorem floatText_cases {repr : String} (h : FloatRepr repr) :
    (repr, floatText repr) ∈ [("inf", "Infinity"), ("-inf", "-Infinity"), ("nan", "NaN")] ∨
      floatText repr = repr ∧ (∀ c ∈ repr.toList, c ∈ "0123456789.e+-".toList) ∧
        ∃ c ∈ repr.toList, c = '.' ∨ c = 'e' := by
  rcases h with hname | hdigits
  · refine .inl ?_
    simp only [List.mem_cons, List.not_mem_nil, or_false] at hname
    rcases hname with rfl | rfl | rfl
    · exact .head _
    · exact .tail _ (.head _)
    · exact .tail _ (.tail _ (.head _))
  · have hne : ∀ name : String, 'n' ∈ name.toList → repr ≠ name := by
      intro name hn heq
      exact absurd (hdigits.1 'n' (heq ▸ hn)) (by decide)
    refine .inr ⟨?_, hdigits⟩
    rw [floatText, if_neg (hne _ (by decide)), if_neg (hne _ (by decide)),
      if_neg (hne _ (by decide))]

theorem reprOf_floatText {repr : String} (h : FloatRepr repr) :
    reprOf (floatText repr).toList = repr := by
  rcases floatText_cases h with hname | ⟨htext, hchars, _⟩
  · simp only [List.mem_cons, List.not_mem_nil, or_false, Prod.mk.injEq] at hname
    rcases hname with ⟨rfl, htext⟩ | ⟨rfl, htext⟩ | ⟨rfl, htext⟩
    all_goals
      rw [htext]
      rfl
  · have hne : ∀ name : String, 'N' ∈ name.toList ∨ 'I' ∈ name.toList →
        repr.toList ≠ name.toList := by
      intro name hmem heq
      rcases hmem with hn | hi
      · exact absurd (hchars 'N' (heq ▸ hn)) (by decide)
      · exact absurd (hchars 'I' (heq ▸ hi)) (by decide)
    rw [htext, reprOf, if_neg (hne _ (by decide)), if_neg (hne _ (by decide)),
      if_neg (hne _ (by decide)), String.ofList_toList]

theorem mem_floatText {repr : String} (h : FloatRepr repr) {c : Char}
    (hc : c ∈ (floatText repr).toList) : c ∈ "0123456789.e+-InfityNa".toList := by
  rcases floatText_cases h with hname | ⟨htext, hchars, _⟩
  · simp only [List.mem_cons, List.not_mem_nil, or_false, Prod.mk.injEq] at hname
    rcases hname with ⟨_, htext⟩ | ⟨_, htext⟩ | ⟨_, htext⟩
    all_goals
      rw [htext] at hc
      exact forall_chars (by decide) c hc
  · rw [htext] at hc
    exact List.mem_append_left "InfityNa".toList (hchars c hc)

/-- No float begins as a constant does. -/
theorem head_floatText {repr : String} (h : FloatRepr repr) {c : Char} (hc : c ∈ ['n', 't', 'f']) :
    (floatText repr).toList.head? ≠ some c := by
  rcases floatText_cases h with hname | ⟨htext, hchars, _⟩
  · simp only [List.mem_cons, List.not_mem_nil, or_false, Prod.mk.injEq] at hname
    rcases hname with ⟨_, htext⟩ | ⟨_, htext⟩ | ⟨_, htext⟩
    all_goals
      rw [htext]
      exact forall_chars (p := fun c => _ ≠ some c) (by decide) c hc
  · intro hhead
    rw [htext] at hhead
    have hnone : ∀ c ∈ ['n', 't', 'f'], c ∉ "0123456789.e+-".toList := forall_chars (by decide)
    exact hnone c hc (hchars c (List.mem_of_mem_head? hhead))

theorem any_floatText {repr : String} (h : FloatRepr repr) :
    (floatText repr).toList.any (· ∈ floatMarks) = true := by
  rcases floatText_cases h with hname | ⟨htext, _, c, hmem, hc⟩
  · simp only [List.mem_cons, List.not_mem_nil, or_false, Prod.mk.injEq] at hname
    rcases hname with ⟨_, htext⟩ | ⟨_, htext⟩ | ⟨_, htext⟩
    all_goals
      rw [htext]
      decide
  · rw [htext]
    refine List.any_eq_true.mpr ⟨c, hmem, ?_⟩
    rcases hc with rfl | rfl <;> decide

variable (code : CharCode)

theorem scalarOf_text {v : Value} (hv : IsJson v) (hs : isScalar v = true) :
    scalarOf (code.text v) = v := by
  cases v with
  | none => rfl
  | bool b => cases b <;> rfl
  | int i =>
    have hhead : ∀ c : Char, isNumeral c = false → (intText i).head? ≠ some c := by
      intro c hc hhead
      rw [mem_intText (List.mem_of_mem_head? hhead)] at hc
      cases hc
    have hmarks : ¬ (intText i).any (· ∈ floatMarks) = true := by
      intro hany
      obtain ⟨c, hmem, hc⟩ := List.any_eq_true.mp hany
      have hnone : ∀ c ∈ floatMarks, isNumeral c = false := forall_chars (by decide)
      have hmark := hnone c (of_decide_eq_true hc)
      rw [mem_intText hmem] at hmark
      cases hmark
    rw [CharCode.text, scalarOf, if_neg (hhead _ (by decide)), if_neg (hhead _ (by decide)),
      if_neg (hhead _ (by decide)), if_neg hmarks, intOf_intText]
  | float repr =>
    rw [CharCode.text, scalarOf, if_neg (head_floatText hv (by decide)),
      if_neg (head_floatText hv (by decide)), if_neg (head_floatText hv (by decide)),
      if_pos (any_floatText hv), reprOf_floatText hv]
  | str | list | dict | object => cases hs

/-! ### Documents are read off their texts -/

/-- The characters that open or close something. -/
def marks : List Char := [',', ']', '\x7d', '"', '[', '\x7b']

/-- A scalar's text opens and closes nothing. -/
theorem scalar_text {v : Value} (hv : IsJson v) (hs : isScalar v = true) :
    code.text v ≠ [] ∧ ∀ c ∈ code.text v, c ∉ marks := by
  cases v with
  | none =>
    rw [CharCode.text]
    exact ⟨by decide, forall_chars (by decide)⟩
  | bool b =>
    rw [CharCode.text]
    cases b
    · exact ⟨by decide, forall_chars (by decide)⟩
    · exact ⟨by decide, forall_chars (by decide)⟩
  | int i =>
    refine ⟨?_, ?_⟩
    · obtain ⟨d, ds, _, htext | htext⟩ := intText_cases i
      · rw [CharCode.text, htext]
        exact List.cons_ne_nil _ _
      · rw [CharCode.text, htext]
        exact List.cons_ne_nil _ _
    · intro c hc hmark
      have hnone : ∀ c ∈ marks, isNumeral c = false := forall_chars (by decide)
      have hnot := hnone c hmark
      rw [mem_intText hc] at hnot
      cases hnot
  | float repr =>
    refine ⟨?_, ?_⟩
    · intro hnil
      have hany := any_floatText hv
      rw [show (floatText repr).toList = [] from hnil] at hany
      cases hany
    · intro c hc
      exact forall_chars (p := fun c => c ∉ marks) (by decide) c (mem_floatText hv hc)
  | str | list | dict | object => cases hs

/-- The character that opens a string, a list or a dictionary. -/
def opener : Value → Option Char
  | .str _ => some '"'
  | .list _ => some '['
  | .dict _ => some '\x7b'
  | _ => none

def openers : List Char := ['"', '[', '\x7b']

/-- The first character says what kind of document it is. -/
theorem head_text {v : Value} (hv : IsJson v) (rest : List Char) :
    (code.text v ++ rest).head?.filter (· ∈ openers) = opener v := by
  by_cases hs : isScalar v = true
  · obtain ⟨hne, hmarks⟩ := scalar_text code hv hs
    have hnone : opener v = none := by
      cases v with
      | none | bool | int | float => rfl
      | str | list | dict | object => cases hs
    have hsub : ∀ c ∈ openers, c ∈ marks := forall_chars (by decide)
    cases htext : code.text v with
    | nil => exact absurd htext hne
    | cons c cs =>
      have hc : c ∉ openers := fun h => hmarks c (htext ▸ List.mem_cons_self) (hsub c h)
      rw [hnone, List.cons_append, List.head?_cons]
      simp [hc]
  · cases v with
    | none | bool | int | float => exact absurd rfl hs
    | str s => rfl
    | list items =>
      cases items with
      | nil => rfl
      | cons v items => rfl
    | dict items =>
      cases items with
      | nil => rfl
      | cons e items => rfl
    | object repr => exact hv.elim

theorem head_text_ne {v : Value} (hv : IsJson v) (rest : List Char) {c : Char}
    (hc : c ∈ [',', ']', '\x7d']) : (code.text v ++ rest).head? ≠ some c := by
  have hnone : ∀ d ∈ [',', ']', '\x7d'], d ∉ openers ∧ d ∈ marks := forall_chars (by decide)
  obtain ⟨hopen, hmark⟩ := hnone c hc
  by_cases hs : isScalar v = true
  · obtain ⟨hne, hmarks⟩ := scalar_text code hv hs
    cases htext : code.text v with
    | nil => exact absurd htext hne
    | cons d ds =>
      intro h
      exact hmarks d (htext ▸ List.mem_cons_self) (Option.some.inj h ▸ hmark)
  · intro h
    have hopener := head_text code hv rest
    rw [h] at hopener
    have hfilter : (some c).filter (· ∈ openers) = none := by simp [hopen]
    rw [hfilter] at hopener
    cases v with
    | none | bool | int | float => exact absurd rfl hs
    | str | list | dict => cases hopener
    | object repr => exact hv.elim

/-- A scalar ends where something else goes on. -/
theorem scalar_unique {v w : Value} (hv : IsJson v) (hw : IsJson w) (hs : isScalar v = true)
    {r r' : List Char} (hr : Ended r) (hr' : Ended r')
    (h : code.text v ++ r = code.text w ++ r') : v = w ∧ r = r' := by
  have hopener : opener v = opener w := by
    rw [← head_text code hv r, ← head_text code hw r', h]
  have hsw : isScalar w = true := by
    cases w with
    | none | bool | int | float => rfl
    | object repr => exact hw.elim
    | str | list | dict =>
      cases v with
      | none | bool | int | float => cases hopener
      | str | list | dict | object => cases hs
  have hspan : ∀ {u : Value} {t : List Char}, IsJson u → isScalar u = true → Ended t →
      (code.text u ++ t).takeWhile (· ∉ marks) = code.text u ∧
        (code.text u ++ t).dropWhile (· ∉ marks) = t := by
    intro u t hu hsu ht
    have hall : ∀ c ∈ code.text u, decide (c ∉ marks) = true :=
      fun c hc => decide_eq_true ((scalar_text code hu hsu).2 c hc)
    have hstop : t.takeWhile (· ∉ marks) = [] ∧ t.dropWhile (· ∉ marks) = t := by
      cases t with
      | nil => exact ⟨rfl, rfl⟩
      | cons c t =>
        have hsub : ∀ c ∈ [',', ']', '\x7d'], c ∈ marks := forall_chars (by decide)
        have hc : c ∈ marks := hsub c (ht c rfl)
        simp [hc]
    rw [List.takeWhile_append_of_pos hall, List.dropWhile_append_of_pos hall, hstop.1, hstop.2,
      List.append_nil]
    exact ⟨rfl, rfl⟩
  obtain ⟨htake, hdrop⟩ := hspan hv hs hr
  obtain ⟨htake', hdrop'⟩ := hspan hw hsw hr'
  refine ⟨?_, ?_⟩
  · calc
      v = scalarOf (code.text v) := (scalarOf_text code hv hs).symm
      _ = scalarOf (code.text w) := by rw [← htake, h, htake']
      _ = w := scalarOf_text code hw hsw
  · rw [← hdrop, h, hdrop']

theorem ended_textItems (items : List Value) (rest : List Char) :
    Ended (code.textItems items ++ rest) := by
  cases items with
  | nil => exact ended_cons (by decide) _
  | cons v items => exact ended_cons (by decide) _

theorem ended_textEntries (items : Payload) (rest : List Char) :
    Ended (code.textEntries items ++ rest) := by
  cases items with
  | nil => exact ended_cons (by decide) _
  | cons e items => exact ended_cons (by decide) _

mutual

/-- **A document is read off the front of its text**, whatever can follow it. -/
theorem text_unique {v w : Value} (hv : IsJson v) (hw : IsJson w) {r r' : List Char}
    (hr : Ended r) (hr' : Ended r') (h : code.text v ++ r = code.text w ++ r') :
    v = w ∧ r = r' := by
  have hopener : opener v = opener w := by
    rw [← head_text code hv r, ← head_text code hw r', h]
  cases v with
  | none | bool | int | float => exact scalar_unique code hv hw rfl hr hr' h
  | str s =>
    cases w with
    | str t =>
      obtain ⟨rfl, hrest⟩ := code.string_prefixFree h
      exact ⟨rfl, hrest⟩
    | none | bool | int | float | list | dict | object => exact absurd hopener (by simp [opener])
  | list items =>
    cases w with
    | list items' =>
      cases items with
      | nil =>
        cases items' with
        | nil => exact ⟨rfl, (List.cons.inj (List.cons.inj h).2).2⟩
        | cons w rest' =>
          rw [CharCode.text, CharCode.text, List.cons_append, List.cons_append,
            List.append_assoc] at h
          exact absurd (congrArg List.head? (List.cons.inj h).2).symm
            (head_text_ne code hw.1 _ (by decide))
      | cons v rest =>
        cases items' with
        | nil =>
          rw [CharCode.text, CharCode.text, List.cons_append, List.cons_append,
            List.append_assoc] at h
          exact absurd (congrArg List.head? (List.cons.inj h).2)
            (head_text_ne code hv.1 _ (by decide))
        | cons w rest' =>
          rw [CharCode.text, CharCode.text, List.cons_append, List.cons_append, List.append_assoc,
            List.append_assoc] at h
          obtain ⟨rfl, htail⟩ := text_unique hv.1 hw.1 (ended_textItems code rest r)
            (ended_textItems code rest' r') (List.cons.inj h).2
          obtain ⟨rfl, hrest⟩ := textItems_unique hv.2 hw.2 htail
          exact ⟨rfl, hrest⟩
    | none | bool | int | float | str | dict | object => exact absurd hopener (by simp [opener])
  | dict items =>
    cases w with
    | dict items' =>
      cases items with
      | nil =>
        cases items' with
        | nil => exact ⟨rfl, (List.cons.inj (List.cons.inj h).2).2⟩
        | cons e rest' => exact absurd (List.cons.inj (List.cons.inj h).2).1 (by decide)
      | cons e rest =>
        cases items' with
        | nil => exact absurd (List.cons.inj (List.cons.inj h).2).1 (by decide)
        | cons e' rest' =>
          obtain ⟨k, v⟩ := e
          obtain ⟨k', w⟩ := e'
          simp only [CharCode.text, List.cons_append, List.append_assoc, List.cons.injEq,
            true_and] at h
          obtain ⟨rfl, hvalue⟩ := code.string_prefixFree h
          obtain ⟨rfl, htail⟩ := text_unique hv.2.1 hw.2.1 (ended_textEntries code rest r)
            (ended_textEntries code rest' r') (List.cons.inj hvalue).2
          obtain ⟨rfl, hrest⟩ := textEntries_unique hv.2.2 hw.2.2 htail
          exact ⟨rfl, hrest⟩
    | none | bool | int | float | str | list | object => exact absurd hopener (by simp [opener])
  | object repr => exact hv.elim

theorem textItems_unique {items items' : List Value} (hv : IsJsonItems items)
    (hw : IsJsonItems items') {r r' : List Char}
    (h : code.textItems items ++ r = code.textItems items' ++ r') : items = items' ∧ r = r' := by
  cases items with
  | nil =>
    cases items' with
    | nil => exact ⟨rfl, (List.cons.inj h).2⟩
    | cons w rest' => exact absurd (List.cons.inj h).1 (by decide)
  | cons v rest =>
    cases items' with
    | nil => exact absurd (List.cons.inj h).1 (by decide)
    | cons w rest' =>
      rw [CharCode.textItems, CharCode.textItems, List.cons_append, List.cons_append,
        List.append_assoc, List.append_assoc] at h
      obtain ⟨rfl, htail⟩ := text_unique hv.1 hw.1 (ended_textItems code rest r)
        (ended_textItems code rest' r') (List.cons.inj h).2
      obtain ⟨rfl, hrest⟩ := textItems_unique hv.2 hw.2 htail
      exact ⟨rfl, hrest⟩

theorem textEntries_unique {items items' : Payload} (hv : IsJsonEntries items)
    (hw : IsJsonEntries items') {r r' : List Char}
    (h : code.textEntries items ++ r = code.textEntries items' ++ r') :
    items = items' ∧ r = r' := by
  cases items with
  | nil =>
    cases items' with
    | nil => exact ⟨rfl, (List.cons.inj h).2⟩
    | cons e rest' => exact absurd (List.cons.inj h).1 (by decide)
  | cons e rest =>
    cases items' with
    | nil => exact absurd (List.cons.inj h).1 (by decide)
    | cons e' rest' =>
      obtain ⟨k, v⟩ := e
      obtain ⟨k', w⟩ := e'
      simp only [CharCode.textEntries, List.cons_append, List.append_assoc, List.cons.injEq,
        true_and] at h
      obtain ⟨rfl, hvalue⟩ := code.string_prefixFree h
      obtain ⟨rfl, htail⟩ := text_unique hv.1 hw.1 (ended_textEntries code rest r)
        (ended_textEntries code rest' r') (List.cons.inj hvalue).2
      obtain ⟨rfl, hrest⟩ := textEntries_unique hv.2 hw.2 htail
      exact ⟨rfl, hrest⟩

end

/-! ### The sorted text -/

theorem text_list (items : List Value) :
    code.text (.list items) = '[' :: [','].intercalate (items.map code.text) ++ [']'] := by
  cases items with
  | nil => rfl
  | cons v rest =>
    have htail : ∀ (v : Value) (rest : List Value),
        code.text v ++ code.textItems rest =
          [','].intercalate ((v :: rest).map code.text) ++ [']'] := by
      intro v rest
      induction rest generalizing v with
      | nil => simp [CharCode.textItems]
      | cons w rest ih =>
        rw [CharCode.textItems, List.cons_append, ih w, List.map_cons, List.map_cons, List.map_cons,
          List.intercalate_cons_cons]
        simp
    rw [CharCode.text, List.cons_append, List.cons_append, htail]

/-- The text of an entry. -/
def CharCode.textEntry (e : String × Value) : List Char := code.string e.1 ++ ':' :: code.text e.2

theorem text_dict (items : Payload) :
    code.text (.dict items) =
      '\x7b' :: [','].intercalate (items.map code.textEntry) ++ ['\x7d'] := by
  cases items with
  | nil => rfl
  | cons e rest =>
    have htail : ∀ (e : String × Value) (rest : Payload),
        code.textEntry e ++ code.textEntries rest =
          [','].intercalate ((e :: rest).map code.textEntry) ++ ['\x7d'] := by
      intro e rest
      induction rest generalizing e with
      | nil => simp [CharCode.textEntries]
      | cons e' rest ih =>
        have hentries : code.textEntries (e' :: rest) =
            ',' :: (code.textEntry e' ++ code.textEntries rest) := by
          simp [CharCode.textEntries, CharCode.textEntry]
        rw [hentries, ih e', List.map_cons, List.map_cons, List.map_cons,
          List.intercalate_cons_cons]
        simp
    have htext : code.text (.dict (e :: rest)) =
        '\x7b' :: (code.textEntry e ++ code.textEntries rest) := by
      simp [CharCode.text, CharCode.textEntry]
    rw [htext, htail, List.cons_append]

/-- A function that writes documents with the entries of every dictionary sorted. -/
structure Writer (f : Value → String) : Prop where
  scalar : ∀ v, isScalar v = true → (f v).toList = code.text v
  str : ∀ s, (f (.str s)).toList = code.string s
  object : ∀ repr, f (.object repr) = repr
  list : ∀ items, f (.list items) = "[" ++ ",".intercalate (items.map f) ++ "]"
  dict : ∀ items, f (.dict items) =
    "\x7b" ++ ",".intercalate ((Value.sortedEntries items).map
      (fun e => String.ofList (code.string e.1) ++ ":" ++ f e.2)) ++ "\x7d"

section
variable {code} {f : Value → String}

mutual

/-- The sorted text is the text of the sorted document. -/
theorem Writer.toList_eq (h : Writer code f) (v : Value) : (f v).toList = code.text v.sortKeys := by
  cases v with
  | none | bool | int | float => exact h.scalar _ rfl
  | str s => exact h.str s
  | object repr =>
    rw [h.object]
    rfl
  | list items =>
    have hitems := h.toList_items items
    rw [h.list, Value.sortKeys, text_list, String.toList_append, String.toList_append,
      String.toList_intercalate, List.map_map, ← hitems]
    rfl
  | dict items =>
    have hentries := h.toList_entries items
    have hmap : ((Value.sortedEntries items).map
          (fun e => String.ofList (code.string e.1) ++ ":" ++ f e.2)).map String.toList =
        (Value.sortedEntries (Value.sortKeysEntries items)).map code.textEntry := by
      rw [← Value.sortKeysEntries_sortedEntries, Value.sortKeysEntries_eq_map, List.map_map,
        List.map_map]
      refine List.map_congr_left (fun e he => ?_)
      have hvalue := hentries e ((sortedEntries_perm items).mem_iff.mp he)
      simp [CharCode.textEntry, hvalue]
    rw [h.dict, Value.sortKeys, text_dict, String.toList_append, String.toList_append,
      String.toList_intercalate, hmap]
    rfl

theorem Writer.toList_items (h : Writer code f) (items : List Value) :
    items.map (String.toList ∘ f) = (Value.sortKeysItems items).map code.text := by
  cases items with
  | nil => rfl
  | cons v rest =>
    rw [List.map_cons, Value.sortKeysItems, List.map_cons, ← h.toList_eq v,
      ← h.toList_items rest]
    rfl

theorem Writer.toList_entries (h : Writer code f) (items : Payload) :
    ∀ e ∈ items, (f e.2).toList = code.text e.2.sortKeys := by
  cases items with
  | nil => exact fun e he => nomatch he
  | cons e rest =>
    obtain ⟨k, v⟩ := e
    intro e he
    rcases List.mem_cons.mp he with rfl | he
    · exact h.toList_eq v
    · exact h.toList_entries rest e he

end

end

theorem toList_toString (i : Int) : (toString i).toList = intText i := by
  have hnat : ∀ n : Nat, n.repr.toList = Nat.toDigits 10 n := by simp [Nat.repr]
  unfold intText digits
  rw [Int.toString_eq_repr, Int.repr_eq_if]
  split
  · rw [if_neg (by omega), hnat]
    congr 1
    omega
  · rw [if_pos (by omega), String.toList_append, hnat]
    have habs : (-i).toNat = i.natAbs := by omega
    rw [habs]
    rfl

theorem jsonItems_eq_map (items : List Value) : Value.jsonItems items = items.map Value.json := by
  induction items with
  | nil => rfl
  | cons v rest ih => rw [Value.jsonItems, List.map_cons, ih]

theorem jsonEntries_eq_map (items : Payload) :
    Value.jsonEntries items = items.map (fun e => (e.1, e.2.json)) := by
  induction items with
  | nil => rfl
  | cons e rest ih => rw [Value.jsonEntries, List.map_cons, ih]

theorem jsonPlainItems_eq_map (items : List Value) :
    Value.jsonPlainItems items = items.map Value.jsonPlain := by
  induction items with
  | nil => rfl
  | cons v rest ih => rw [Value.jsonPlainItems, List.map_cons, ih]

theorem jsonPlainEntries_eq_map (items : Payload) :
    Value.jsonPlainEntries items = items.map (fun e => (e.1, e.2.jsonPlain)) := by
  induction items with
  | nil => rfl
  | cons e rest ih => rw [Value.jsonPlainEntries, List.map_cons, ih]

/-- Sorting the texts of the entries is sorting the entries. -/
theorem sortedFields_map (f : Value → String) (items : Payload) :
    Value.sortedFields (items.map (fun e => (e.1, f e.2))) =
      (Value.sortedEntries items).map (fun e => (e.1, f e.2)) := by
  rw [Value.sortedFields, Value.sortedEntries]
  have hsort := List.map_insertionSort (fun a b : String × Value => a.1 ≤ b.1)
    (fun a b : String × String => a.1 ≤ b.1) (fun e => (e.1, f e.2)) items
    (fun _ _ _ _ => Iff.rfl)
  exact hsort.symm

theorem json_writer : Writer .ascii Value.json where
  scalar v hs := by
    cases v with
    | none => rfl
    | bool b => cases b <;> rfl
    | int i => exact toList_toString i
    | float repr => rfl
    | str | list | dict | object => cases hs
  str s := String.toList_ofList
  object _ := rfl
  list items := by rw [Value.json, jsonItems_eq_map]
  dict items := by
    rw [Value.json, jsonEntries_eq_map, sortedFields_map, List.map_map]
    rfl

theorem jsonPlain_writer : Writer .plain Value.jsonPlain where
  scalar v hs := by
    cases v with
    | none => rfl
    | bool b => cases b <;> rfl
    | int i => exact toList_toString i
    | float repr => rfl
    | str | list | dict | object => cases hs
  str s := String.toList_ofList
  object _ := rfl
  list items := by rw [Value.jsonPlain, jsonPlainItems_eq_map]
  dict items := by
    rw [Value.jsonPlain, jsonPlainEntries_eq_map, sortedFields_map, List.map_map]
    rfl

theorem isJsonEntries_iff {items : Payload} : IsJsonEntries items ↔ ∀ e ∈ items, IsJson e.2 := by
  induction items with
  | nil => simp [IsJsonEntries]
  | cons e rest ih =>
    obtain ⟨k, v⟩ := e
    simp [IsJsonEntries, ih]

mutual

theorem IsJson.sortKeys {v : Value} (hv : IsJson v) : IsJson v.sortKeys := by
  cases v with
  | none | bool | str | int => trivial
  | float repr => exact hv
  | object => exact hv.elim
  | list items => exact IsJsonItems.sortKeys hv
  | dict items =>
    have hperm := sortedEntries_perm (Value.sortKeysEntries items)
    refine ⟨?_, ?_⟩
    · rw [(hperm.map Prod.fst).nodup_iff, keys_sortKeysEntries]
      exact hv.1
    · have hsorted := isJsonEntries_iff.mp (IsJsonEntries.sortKeys hv.2)
      exact isJsonEntries_iff.mpr (fun e he => hsorted e (hperm.mem_iff.mp he))

theorem IsJsonItems.sortKeys {items : List Value} (h : IsJsonItems items) :
    IsJsonItems (Value.sortKeysItems items) := by
  cases items with
  | nil => trivial
  | cons v rest => exact ⟨h.1.sortKeys, IsJsonItems.sortKeys h.2⟩

theorem IsJsonEntries.sortKeys {items : Payload} (h : IsJsonEntries items) :
    IsJsonEntries (Value.sortKeysEntries items) := by
  cases items with
  | nil => trivial
  | cons e rest =>
    obtain ⟨k, v⟩ := e
    exact ⟨h.1.sortKeys, IsJsonEntries.sortKeys h.2⟩

end

/-- **A sorted text tells documents apart**, up to the order of their keys. -/
theorem Writer.inj {code : CharCode} {f : Value → String} (h : Writer code f) {v w : Value}
    (hv : IsJson v) (hw : IsJson w) : f v = f w ↔ v.sortKeys = w.sortKeys := by
  rw [← String.toList_inj, h.toList_eq, h.toList_eq]
  constructor
  · intro htext
    exact (text_unique code hv.sortKeys hw.sortKeys ended_nil ended_nil
      (congrArg (· ++ []) htext)).1
  · intro hsorted
    rw [hsorted]

theorem json_inj {v w : Value} (hv : IsJson v) (hw : IsJson w) :
    v.json = w.json ↔ v.sortKeys = w.sortKeys := json_writer.inj hv hw

theorem jsonPlain_inj {v w : Value} (hv : IsJson v) (hw : IsJson w) :
    v.jsonPlain = w.jsonPlain ↔ v.sortKeys = w.sortKeys := jsonPlain_writer.inj hv hw

/-- Two dictionaries are equal up to the order of keys, theirs and those inside, exactly
when they hold such values under the same keys. -/
theorem sortKeys_dict_eq_iff {items items' : Payload} (h : (items.map Prod.fst).Nodup)
    (h' : (items'.map Prod.fst).Nodup) :
    (Value.dict items).sortKeys = (Value.dict items').sortKeys ↔
      ∀ key, (items.lookup key).map Value.sortKeys = (items'.lookup key).map Value.sortKeys := by
  have hkeys : ∀ {l : Payload}, (l.map Prod.fst).Nodup → ((Value.sortPayload l).map Prod.fst).Nodup := by
    intro l hl
    rw [Value.sortPayload, ((sortedEntries_perm _).map Prod.fst).nodup_iff, keys_sortKeysEntries]
    exact hl
  have hsort : ∀ l : Payload, (Value.dict l).sortKeys = .dict (Value.sortPayload l) := fun l => by
    rw [Value.sortKeys, Value.sortPayload]
  rw [hsort, hsort, Value.dict.injEq]
  constructor
  · intro hsorted key
    rw [← lookup_sortPayload h, ← lookup_sortPayload h', hsorted]
  · intro hlookup
    have htotal : Std.Total (fun a b : String × Value => a.1 ≤ b.1) :=
      ⟨fun a b => String.le_total a.1 b.1⟩
    have htrans : IsTrans (String × Value) (fun a b => a.1 ≤ b.1) :=
      ⟨fun _ _ _ hab hbc => String.le_trans hab hbc⟩
    have hmem : ∀ e, e ∈ Value.sortPayload items ↔ e ∈ Value.sortPayload items' := by
      intro e
      rw [Dict.mem_iff_lookup (hkeys h), Dict.mem_iff_lookup (hkeys h'), lookup_sortPayload h,
        lookup_sortPayload h', hlookup]
    have hperm : (Value.sortPayload items).Perm (Value.sortPayload items') :=
      (List.perm_ext_iff_of_nodup (hkeys h).of_map (hkeys h').of_map).mpr hmem
    refine hperm.eq_of_pairwise ?_ (List.pairwise_insertionSort _ _) (List.pairwise_insertionSort _ _)
    intro a b ha hb hab hba
    obtain ⟨k, v⟩ := a
    obtain ⟨k', v'⟩ := b
    obtain rfl : k = k' := String.le_antisymm hab hba
    have hv := (Dict.mem_iff_lookup (hkeys h) k v).mp ha
    rw [(Dict.mem_iff_lookup (hkeys h) k v').mp ((hmem _).mpr hb)] at hv
    rw [Option.some.inj hv]

end AgentKernel.Lib.JsonText
