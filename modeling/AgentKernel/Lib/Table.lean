import Mathlib.Data.List.Nodup

/-! Tables with a primary key.

Rows are kept in insertion order and no two of them share a key: an insertion
that would break this is refused, and an update cannot touch the key. -/
namespace AgentKernel.Lib

structure Table (ρ κ : Type) (key : ρ → κ) where
  rows : List ρ
  unique : (rows.map key).Nodup

namespace Table
variable {ρ κ : Type} {key : ρ → κ}

def empty : Table ρ κ key := ⟨[], List.nodup_nil⟩

variable [DecidableEq κ]

/-- The row with this key. -/
def select (t : Table ρ κ key) (k : κ) : Option ρ := t.rows.find? (fun r => key r = k)

theorem select_eq_none_iff (t : Table ρ κ key) (k : κ) :
    t.select k = none ↔ k ∉ t.rows.map key := by
  simp [select]

/-- Every row is the one of its key. -/
theorem select_of_mem (t : Table ρ κ key) {r : ρ} (h : r ∈ t.rows) : t.select (key r) = some r := by
  have hunique := t.unique
  rw [List.Nodup, List.pairwise_map] at hunique
  obtain ⟨before, after, hsplit⟩ := List.append_of_mem h
  refine List.find?_eq_some_iff_append.mpr ⟨by simp, before, after, hsplit, fun a ha => ?_⟩
  rw [hsplit, List.pairwise_append] at hunique
  simpa using hunique.2.2 a ha r List.mem_cons_self

/-- Add a row, unless its key is taken. -/
def insert (t : Table ρ κ key) (r : ρ) : Option (Table ρ κ key) :=
  if h : t.select (key r) = none then
    some
      { rows := t.rows ++ [r]
        unique := by
          rw [List.map_append, List.map_singleton]
          refine List.nodup_append.mpr ⟨t.unique, List.nodup_singleton _, ?_⟩
          intro a ha b hb hab
          rw [List.mem_singleton.mp hb] at hab
          exact (t.select_eq_none_iff _).mp h (hab ▸ ha) }
  else none

theorem insert_of_select {t : Table ρ κ key} {r : ρ} (h : t.select (key r) = none) :
    ∃ t', t.insert r = some t' ∧ t'.rows = t.rows ++ [r] := by
  simp [insert, h]

theorem rows_insert {t t' : Table ρ κ key} {r : ρ} (h : t.insert r = some t') :
    t.select (key r) = none ∧ t'.rows = t.rows ++ [r] := by
  unfold insert at h
  split at h
  · rename_i hnone
    exact ⟨hnone, (Option.some.inj h) ▸ rfl⟩
  · cases h

/-- After an insertion the new key reads the new row and the others read what
they read before. -/
theorem select_insert {t t' : Table ρ κ key} {r : ρ} (h : t.insert r = some t') (k : κ) :
    t'.select k = if k = key r then some r else t.select k := by
  obtain ⟨hnone, hrows⟩ := rows_insert h
  have hsplit : t'.select k = (t.select k).or ([r].find? (fun r => key r = k)) := by
    simp [select, hrows, List.find?_append]
  rw [hsplit]
  by_cases hk : k = key r
  · subst hk
    simp [hnone]
  · have hne : key r ≠ k := fun he => hk he.symm
    simp [hk, hne]

/-- The number of rows with this key. -/
def rowcount (t : Table ρ κ key) (k : κ) : Nat := (t.rows.filter (fun r => key r = k)).length

/-- Rewrite the row with this key, leaving its key alone. -/
def update (t : Table ρ κ key) (k : κ) (f : ρ → ρ) (hf : ∀ r, key (f r) = key r) :
    Table ρ κ key where
  rows := t.rows.map (fun r => if key r = k then f r else r)
  unique := by
    have hkeys : (t.rows.map (fun r => if key r = k then f r else r)).map key = t.rows.map key := by
      rw [List.map_map]
      refine List.map_congr_left (fun r _ => ?_)
      simp only [Function.comp_apply]
      split
      · exact hf r
      · rfl
    rw [hkeys]
    exact t.unique

theorem select_update (t : Table ρ κ key) (k : κ) (f : ρ → ρ) (hf : ∀ r, key (f r) = key r)
    (k' : κ) :
    (t.update k f hf).select k' = if k' = k then (t.select k).map f else t.select k' := by
  unfold select update
  simp only
  induction t.rows with
  | nil => simp
  | cons r rest ih =>
    by_cases hr : key r = k
    · by_cases hk : k' = k
      · simp [hr, hk, hf]
      · have hne : k ≠ k' := fun h => hk h.symm
        simpa [hr, hk, hf, hne] using ih
    · by_cases hk : k' = k
      · subst hk
        simpa [hr] using ih
      · by_cases hk' : key r = k'
        · simp [hk, hk']
        · simpa [hr, hk, hk'] using ih

theorem filter_key_of_find {key : ρ → κ} {rows : List ρ} {k : κ} {r : ρ}
    (hu : (rows.map key).Nodup) (h : rows.find? (fun r => key r = k) = some r) :
    rows.filter (fun r => key r = k) = [r] := by
  induction rows with
  | nil => simp at h
  | cons a rest ih =>
    rw [List.map_cons, List.nodup_cons] at hu
    by_cases ha : key a = k
    · have hrest : rest.filter (fun r => key r = k) = [] := by
        rw [List.filter_eq_nil_iff]
        intro b hb hkey
        have hkb : key b = k := by simpa using hkey
        exact hu.1 (List.mem_map.mpr ⟨b, hb, hkb.trans ha.symm⟩)
      simp only [List.find?_cons, ha, decide_true, Option.some.injEq] at h
      subst h
      simp [ha, hrest]
    · simp only [List.find?_cons, ha, decide_false] at h
      simpa [ha] using ih hu.2 h

/-- A present key has exactly one row. -/
theorem rowcount_of_select {t : Table ρ κ key} {k : κ} {r : ρ} (h : t.select k = some r) :
    t.rowcount k = 1 := by
  unfold rowcount
  rw [filter_key_of_find t.unique h]
  rfl

end Table
end AgentKernel.Lib
