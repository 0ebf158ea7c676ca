import Mathlib.Data.List.Nodup

/-! Insertion-ordered dictionaries.

The entries stand in the order their keys were first set; setting a present key
replaces the value in place, deleting a key and setting it again moves it to the
end. The keys of a `Dict` are distinct by construction. -/
namespace AgentKernel.Lib

/-- Replace the value of a present key in place, or add the entry at the end. -/
def setEntry {κ ν : Type} [DecidableEq κ] (k : κ) (v : ν) : List (κ × ν) → List (κ × ν)
  | [] => [(k, v)]
  | e :: rest => if e.1 = k then (k, v) :: rest else e :: setEntry k v rest

structure Dict (κ ν : Type) where
  entries : List (κ × ν)
  nodup : (entries.map Prod.fst).Nodup

namespace Dict
variable {κ ν : Type}

def empty : Dict κ ν := ⟨[], List.nodup_nil⟩

def keys (d : Dict κ ν) : List κ := d.entries.map Prod.fst

def size (d : Dict κ ν) : Nat := d.entries.length

def values (d : Dict κ ν) : List ν := d.entries.map Prod.snd

/-- Every value stands under the key it carries. -/
def Keyed (key : ν → κ) (d : Dict κ ν) : Prop := ∀ e ∈ d.entries, key e.2 = e.1

theorem keyed_empty (key : ν → κ) : Keyed key (empty : Dict κ ν) := fun _ h => absurd h List.not_mem_nil

theorem keys_nodup (d : Dict κ ν) : d.keys.Nodup := d.nodup

theorem length_keys (d : Dict κ ν) : d.keys.length = d.size := List.length_map ..

theorem ext_entries {d d' : Dict κ ν} (h : d.entries = d'.entries) : d = d' := by
  cases d
  cases d'
  subst h
  rfl

/-- Read every value through a function. -/
def map {μ : Type} (f : ν → μ) (d : Dict κ ν) : Dict κ μ where
  entries := d.entries.map (fun e => (e.1, f e.2))
  nodup := by
    rw [List.map_map]
    exact d.nodup

@[simp] theorem keys_map {μ : Type} (f : ν → μ) (d : Dict κ ν) : (d.map f).keys = d.keys := by
  unfold keys map
  rw [List.map_map]
  rfl

@[simp] theorem size_map {μ : Type} (f : ν → μ) (d : Dict κ ν) : (d.map f).size = d.size :=
  List.length_map ..

variable [DecidableEq κ]

def get? (d : Dict κ ν) (k : κ) : Option ν := d.entries.lookup k

theorem setEntry_keys (k : κ) (v : ν) (l : List (κ × ν)) :
    (setEntry k v l).map Prod.fst =
      if k ∈ l.map Prod.fst then l.map Prod.fst else l.map Prod.fst ++ [k] := by
  induction l with
  | nil => simp [setEntry]
  | cons e rest ih =>
    by_cases he : e.1 = k
    · simp [setEntry, he]
    · have hk : k ≠ e.1 := fun h => he h.symm
      simp only [setEntry, he, if_false, List.map_cons, ih, List.mem_cons, hk, false_or]
      split <;> simp

theorem setEntry_new {k : κ} {v : ν} {l : List (κ × ν)} (h : k ∉ l.map Prod.fst) :
    setEntry k v l = l ++ [(k, v)] := by
  induction l with
  | nil => rfl
  | cons e rest ih =>
    obtain ⟨hne, hrest⟩ := not_or.mp (mt List.mem_cons.mpr h)
    rw [setEntry, if_neg (fun he => hne he.symm), ih hrest]
    rfl

def set (d : Dict κ ν) (k : κ) (v : ν) : Dict κ ν where
  entries := setEntry k v d.entries
  nodup := by
    rw [setEntry_keys]
    split
    · exact d.nodup
    · rename_i h
      refine List.nodup_append.mpr ⟨d.nodup, List.nodup_singleton k, ?_⟩
      intro a ha b hb hab
      rw [List.mem_singleton.mp hb] at hab
      exact h (hab ▸ ha)

/-- Delete a key, if it is there. -/
def erase (d : Dict κ ν) (k : κ) : Dict κ ν where
  entries := d.entries.filter (fun e => e.1 ≠ k)
  nodup := d.nodup.sublist (List.filter_sublist.map Prod.fst)

theorem keys_set (d : Dict κ ν) (k : κ) (v : ν) :
    (d.set k v).keys = if k ∈ d.keys then d.keys else d.keys ++ [k] :=
  setEntry_keys k v d.entries

theorem lookup_setEntry (k k' : κ) (v : ν) (l : List (κ × ν)) :
    (setEntry k v l).lookup k' = if k' = k then some v else l.lookup k' := by
  induction l with
  | nil =>
    by_cases h : k' = k
    · simp [setEntry, h]
    · simp [setEntry, List.lookup_cons, h, beq_eq_false_iff_ne.mpr h]
  | cons e rest ih =>
    obtain ⟨a, b⟩ := e
    by_cases ha : a = k
    · subst ha
      by_cases h : k' = a
      · simp [setEntry, h]
      · simp [setEntry, List.lookup_cons, h, beq_eq_false_iff_ne.mpr h]
    · by_cases h : k' = a
      · subst h
        simp [setEntry, ha]
      · simp only [setEntry, ha, if_false, List.lookup_cons, beq_eq_false_iff_ne.mpr h, ih]

/-- Reading after a write. -/
theorem get?_set (d : Dict κ ν) (k k' : κ) (v : ν) :
    (d.set k v).get? k' = if k' = k then some v else d.get? k' :=
  lookup_setEntry k k' v d.entries

/-- What is found after a write was written or was there. -/
theorem get?_set_some {d : Dict κ ν} {k k' : κ} {v u : ν} (h : (d.set k v).get? k' = some u) :
    (k' = k ∧ u = v) ∨ (k' ≠ k ∧ d.get? k' = some u) := by
  rw [get?_set] at h
  split at h
  case isTrue hk => exact .inl ⟨hk, (Option.some.inj h).symm⟩
  case isFalse hk => exact .inr ⟨hk, h⟩

theorem get?_eq_none_iff (d : Dict κ ν) (k : κ) : d.get? k = none ↔ k ∉ d.keys := by
  unfold get? keys
  induction d.entries with
  | nil => simp
  | cons e rest ih =>
    obtain ⟨a, b⟩ := e
    by_cases h : k = a
    · simp [h]
    · simp [List.lookup_cons, beq_eq_false_iff_ne.mpr h, ih, h]

theorem lookup_filter_ne (k k' : κ) (l : List (κ × ν)) :
    (l.filter (fun e => e.1 ≠ k)).lookup k' = if k' = k then none else l.lookup k' := by
  induction l with
  | nil => simp
  | cons e rest ih =>
    obtain ⟨a, b⟩ := e
    by_cases ha : a = k
    · subst ha
      by_cases h : k' = a
      · simpa [h] using ih
      · simpa [List.lookup_cons, h, beq_eq_false_iff_ne.mpr h] using ih
    · by_cases h : k' = a
      · subst h
        simp [ha]
      · simp only [ne_eq, ha, not_false_eq_true, decide_true, List.filter_cons_of_pos,
          List.lookup_cons,
          beq_eq_false_iff_ne.mpr h]
        exact ih

theorem get?_erase (d : Dict κ ν) (k k' : κ) :
    (d.erase k).get? k' = if k' = k then none else d.get? k' :=
  lookup_filter_ne k k' d.entries

theorem keys_erase (d : Dict κ ν) (k : κ) : (d.erase k).keys = d.keys.filter (fun a => a ≠ k) := by
  unfold keys erase
  rw [List.filter_map]
  rfl

/-- Deleting the first key leaves the others. -/
theorem keys_erase_head {d : Dict κ ν} {k : κ} {rest : List κ} (h : d.keys = k :: rest) :
    (d.erase k).keys = rest := by
  have hnodup := d.keys_nodup
  rw [h, List.nodup_cons] at hnodup
  rw [keys_erase, h, List.filter_cons_of_neg (by simp)]
  refine List.filter_eq_self.mpr (fun a ha => ?_)
  have hne : a ≠ k := fun hak => hnodup.1 (hak ▸ ha)
  simpa using hne

/-- A fresh key grows the dictionary by one, a present one not at all. -/
theorem size_set (d : Dict κ ν) (k : κ) (v : ν) :
    (d.set k v).size = if k ∈ d.keys then d.size else d.size + 1 := by
  rw [← length_keys, keys_set, ← length_keys]
  split <;> simp

/-! ### Values that carry their key -/

theorem mem_setEntry {k : κ} {v : ν} {l : List (κ × ν)} {e : κ × ν} (h : e ∈ setEntry k v l) :
    e = (k, v) ∨ e ∈ l := by
  induction l with
  | nil => exact .inl (List.mem_singleton.mp h)
  | cons a rest ih =>
    unfold setEntry at h
    split at h
    · rcases List.mem_cons.mp h with h | h
      · exact .inl h
      · exact .inr (List.mem_cons_of_mem a h)
    · rcases List.mem_cons.mp h with rfl | h
      · exact .inr List.mem_cons_self
      · exact (ih h).imp_right (List.mem_cons_of_mem a)

theorem Keyed.set {key : ν → κ} {d : Dict κ ν} (h : Keyed key d) {k : κ} {v : ν} (hv : key v = k) :
    Keyed key (d.set k v) := by
  intro e he
  rcases mem_setEntry he with rfl | he
  · exact hv
  · exact h e he

theorem Keyed.key_get {key : ν → κ} {d : Dict κ ν} (h : Keyed key d) {k : κ} {v : ν}
    (hget : d.get? k = some v) : key v = k := by
  obtain ⟨l₁, l₂, hentries, _⟩ := List.lookup_eq_some_iff.mp hget
  exact h (k, v) (by rw [hentries]; simp)

theorem lookup_keyed {key : ν → κ} {l : List (κ × ν)} (h : ∀ e ∈ l, key e.2 = e.1) (k : κ) :
    (l.map Prod.snd).find? (fun v => key v = k) = l.lookup k := by
  induction l with
  | nil => rfl
  | cons e rest ih =>
    obtain ⟨a, v⟩ := e
    have hkey : key v = a := h (a, v) List.mem_cons_self
    have hrest := ih (fun e he => h e (List.mem_cons_of_mem _ he))
    by_cases hk : a = k
    · subst hk
      simp [hkey]
    · have hne : k ≠ a := fun h => hk h.symm
      rw [List.map_cons, List.find?_cons_of_neg (by simpa [hkey] using hk), hrest, List.lookup_cons,
        beq_eq_false_iff_ne.mpr hne]

/-- Among such values, the one with a key is the one under it. -/
theorem Keyed.find?_values {key : ν → κ} {d : Dict κ ν} (h : Keyed key d) (k : κ) :
    d.values.find? (fun v => key v = k) = d.get? k := lookup_keyed h k

/-! ### Changing a value in place -/

/-- What a change under a key makes of an entry. -/
def modifyEntry (k : κ) (f : ν → ν) (e : κ × ν) : κ × ν := if e.1 = k then (e.1, f e.2) else e

theorem modifyEntry_fst (k : κ) (f : ν → ν) : Prod.fst ∘ modifyEntry k f = Prod.fst := by
  funext e
  simp only [Function.comp_apply, modifyEntry]
  split <;> rfl

/-- Change the value under a key, if it is there. -/
def modify (d : Dict κ ν) (k : κ) (f : ν → ν) : Dict κ ν where
  entries := d.entries.map (modifyEntry k f)
  nodup := by
    rw [List.map_map, modifyEntry_fst]
    exact d.nodup

theorem lookup_modifyEntry (k k' : κ) (f : ν → ν) (l : List (κ × ν)) :
    (l.map (modifyEntry k f)).lookup k' = if k' = k then (l.lookup k').map f else l.lookup k' := by
  induction l with
  | nil => simp
  | cons e rest ih =>
    obtain ⟨a, v⟩ := e
    by_cases ha : a = k
    · subst ha
      by_cases h : k' = a
      · simp [modifyEntry, h]
      · simpa [modifyEntry, List.lookup_cons, beq_eq_false_iff_ne.mpr h, h] using ih
    · by_cases h : k' = a
      · subst h
        simp [modifyEntry, ha]
      · simpa [modifyEntry, List.lookup_cons, beq_eq_false_iff_ne.mpr h, ha] using ih

theorem get?_modify (d : Dict κ ν) (k k' : κ) (f : ν → ν) :
    (d.modify k f).get? k' = if k' = k then (d.get? k').map f else d.get? k' :=
  lookup_modifyEntry k k' f d.entries

theorem mem_keys_iff (d : Dict κ ν) (k : κ) : k ∈ d.keys ↔ ∃ v, d.get? k = some v := by
  rw [← Option.ne_none_iff_exists', Ne, get?_eq_none_iff, not_not]

theorem mem_iff_lookup {l : List (κ × ν)} (hnodup : (l.map Prod.fst).Nodup) (k : κ) (v : ν) :
    (k, v) ∈ l ↔ l.lookup k = some v := by
  induction l with
  | nil => simp
  | cons e rest ih =>
    obtain ⟨a, b⟩ := e
    rw [List.map_cons, List.nodup_cons] at hnodup
    by_cases h : k = a
    · subst h
      have habsent : (k, v) ∉ rest := fun hmem => hnodup.1 (List.mem_map.mpr ⟨(k, v), hmem, rfl⟩)
      simp [habsent, eq_comm]
    · simp [List.lookup_cons, beq_eq_false_iff_ne.mpr h, h, ih hnodup.2]

theorem mem_entries_iff (d : Dict κ ν) (k : κ) (v : ν) : (k, v) ∈ d.entries ↔ d.get? k = some v :=
  mem_iff_lookup d.nodup k v

/-- A change that leaves the value as it is. -/
theorem modify_eq_self {d : Dict κ ν} {k : κ} {f : ν → ν} (h : ∀ v, d.get? k = some v → f v = v) :
    d.modify k f = d := by
  refine ext_entries ?_
  refine (List.map_congr_left (fun e he => ?_)).trans (List.map_id _)
  unfold modifyEntry
  split
  · rename_i hkey
    have hget : d.get? k = some e.2 := (mem_entries_iff d k e.2).mp (hkey ▸ he)
    rw [h e.2 hget]
    rfl
  · rfl

/-! ### Reading every value through a function -/

section Map
variable {μ : Type}

theorem lookup_map (f : ν → μ) (l : List (κ × ν)) (k : κ) :
    (l.map (fun e => (e.1, f e.2))).lookup k = (l.lookup k).map f := by
  induction l with
  | nil => rfl
  | cons e rest ih =>
    obtain ⟨a, v⟩ := e
    by_cases h : k = a
    · simp [h]
    · simpa [List.lookup_cons, beq_eq_false_iff_ne.mpr h] using ih

@[simp] theorem get?_map (f : ν → μ) (d : Dict κ ν) (k : κ) : (d.map f).get? k = (d.get? k).map f :=
  lookup_map f d.entries k

theorem setEntry_map (f : ν → μ) (k : κ) (v : ν) (l : List (κ × ν)) :
    (setEntry k v l).map (fun e => (e.1, f e.2)) =
      setEntry k (f v) (l.map (fun e => (e.1, f e.2))) := by
  induction l with
  | nil => rfl
  | cons e rest ih =>
    simp only [setEntry, List.map_cons]
    split
    · rfl
    · rw [List.map_cons, ih]

theorem map_set (f : ν → μ) (d : Dict κ ν) (k : κ) (v : ν) :
    (d.set k v).map f = (d.map f).set k (f v) :=
  ext_entries (setEntry_map f k v d.entries)

theorem map_erase (f : ν → μ) (d : Dict κ ν) (k : κ) : (d.erase k).map f = (d.map f).erase k := by
  refine ext_entries ?_
  simp only [erase, map, List.filter_map]
  rfl

/-- A change that shows in the reading as another one. -/
theorem map_modify {f : ν → μ} {g : ν → ν} {g' : μ → μ} (h : ∀ v, f (g v) = g' (f v)) (d : Dict κ ν)
    (k : κ) : (d.modify k g).map f = (d.map f).modify k g' := by
  refine ext_entries ?_
  unfold modify map
  simp only [List.map_map]
  refine List.map_congr_left (fun e _ => ?_)
  simp only [Function.comp_apply, modifyEntry]
  split <;> simp [h]

/-- A change the reading does not show. -/
theorem map_modify_of_eq {f : ν → μ} {g : ν → ν} (h : ∀ v, f (g v) = f v) (d : Dict κ ν) (k : κ) :
    (d.modify k g).map f = d.map f := by
  refine ext_entries ?_
  unfold modify map
  simp only [List.map_map]
  refine List.map_congr_left (fun e _ => ?_)
  simp only [Function.comp_apply, modifyEntry]
  split <;> simp [h]

end Map

end Dict
end AgentKernel.Lib
