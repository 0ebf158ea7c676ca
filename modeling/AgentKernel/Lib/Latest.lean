import Mathlib.Data.List.Infix
import Mathlib.Order.Lattice

/-! Reading the latest record of an owner out of a store that is keyed otherwise.

Records are written one after the other under a key, and a store keeps the last record
of each key. Each record also has an owner, and a reader wants the last record of an
owner. It gets it exactly when no owner's last record is shadowed: written over, under its
key, by a record of another owner (`reads_last_iff`). -/
namespace AgentKernel.Lib

section Last
variable {W : Type}

theorem findRev?_append_singleton (p : W → Bool) (ws : List W) (w : W) :
    (ws ++ [w]).findRev? p = if p w then some w else ws.findRev? p := by
  rw [List.findRev?_eq_find?_reverse, List.findRev?_eq_find?_reverse, List.reverse_append]
  simp only [List.reverse_singleton, List.singleton_append, List.find?_cons]
  cases p w <;> rfl

/-- What is found is followed by nothing of its kind. -/
theorem findRev?_eq_some_iff {p : W → Bool} {ws : List W} {w : W} :
    ws.findRev? p = some w ↔ p w ∧ ∃ a b, ws = a ++ w :: b ∧ ∀ u ∈ b, p u = false := by
  rw [List.findRev?_eq_find?_reverse, List.find?_eq_some_iff_append]
  refine and_congr_right (fun _ => ⟨?_, ?_⟩)
  · intro ⟨pre, post, hsplit, hpre⟩
    refine ⟨post.reverse, pre.reverse, ?_, fun u hu => by simpa using hpre u (by simpa using hu)⟩
    simpa using congrArg List.reverse hsplit
  · intro ⟨a, b, hsplit, hb⟩
    exact ⟨b.reverse, a.reverse, by simp [hsplit], fun u hu => by simpa using hb u (by simpa using hu)⟩

end Last

section Owners
variable {W κ ω τ : Type} (key : W → κ) (owner : W → ω) (time : W → τ)

/-- Every record that no later record of its owner follows keeps its key: nothing is
written under it later. -/
def Unshadowed : List W → Prop
  | [] => True
  | w :: rest => ((∃ u ∈ rest, owner u = owner w) ∨ ∀ u ∈ rest, key u ≠ key w) ∧ Unshadowed rest

instance decidableUnshadowed [DecidableEq κ] [DecidableEq ω] :
    (ws : List W) → Decidable (Unshadowed key owner ws)
  | [] => .isTrue trivial
  | w :: rest =>
    have := decidableUnshadowed rest
    inferInstanceAs (Decidable
      (((∃ u ∈ rest, owner u = owner w) ∨ ∀ u ∈ rest, key u ≠ key w) ∧ Unshadowed key owner rest))

variable {key owner time}

/-- No owner's last record is followed by another record under its key. -/
theorem unshadowed_iff {ws : List W} :
    Unshadowed key owner ws ↔
      ∀ a w b, ws = a ++ w :: b → (∀ u ∈ b, owner u ≠ owner w) → ∀ u ∈ b, key u ≠ key w := by
  induction ws with
  | nil => simp [Unshadowed]
  | cons first rest ih =>
    constructor
    · intro ⟨hfirst, hrest⟩ a w b hsplit howner
      cases a with
      | nil =>
        obtain ⟨rfl, rfl⟩ := List.cons.inj hsplit
        obtain ⟨u, hu, hsame⟩ | hkeys := hfirst
        · exact absurd hsame (howner u hu)
        · exact hkeys
      | cons a₀ a => exact ih.mp hrest a w b (List.cons.inj hsplit).2 howner
    · intro h
      refine ⟨?_, ih.mpr (fun a w b hsplit => h (first :: a) w b (by rw [hsplit]; rfl))⟩
      by_cases hmore : ∃ u ∈ rest, owner u = owner first
      · exact .inl hmore
      · exact .inr (h [] first rest rfl (fun u hu hsame => hmore ⟨u, hu, hsame⟩))

variable [DecidableEq κ] [DecidableEq ω] [LinearOrder τ]

variable (key owner) in
def lastOfKey (ws : List W) (k : κ) : Option W := ws.findRev? (fun w => key w = k)

variable (key owner) in
def lastOfOwner (ws : List W) (r : ω) : Option W := ws.findRev? (fun w => owner w = r)

/-- A record that another one follows under its key is not the last of its key. -/
theorem lastOfKey_ne_of_later {ws a b : List W} {w u : W}
    (ordered : ws.Pairwise (fun a b => time a < time b)) (hsplit : ws = a ++ w :: b) (hu : u ∈ b)
    (hkey : key u = key w) : lastOfKey key ws (key w) ≠ some w := by
  intro h
  rw [lastOfKey, List.findRev?_eq_find?_reverse, hsplit, List.reverse_append, List.reverse_cons,
    List.append_assoc, List.find?_append] at h
  cases hfound : b.reverse.find? (fun x => key x = key w) with
  | none => exact absurd (by simpa using hkey) (List.find?_eq_none.mp hfound u (by simpa using hu))
  | some x =>
    rw [hfound] at h
    cases Option.some.inj h
    -- So `w` itself stands after `w`.
    have hmem : w ∈ b := by simpa using List.mem_of_find?_eq_some hfound
    rw [hsplit, List.pairwise_append] at ordered
    exact lt_irrefl _ ((List.pairwise_cons.mp ordered.2.1).1 w hmem)

/-- A reader that picks, among the records held, one of the owner's that was written last. -/
structure Picks (owner : W → ω) (time : W → τ) (held : List W) (pick : ω → Option W) : Prop where
  latest : ∀ r w, pick r = some w →
    w ∈ held ∧ owner w = r ∧ ∀ u ∈ held, owner u = r → time u ≤ time w
  complete : ∀ r, pick r = none → ∀ u ∈ held, owner u ≠ r

/-- **The reader of a store that keeps the last record of each key gets every owner's last
record exactly when none is shadowed.** -/
theorem reads_last_iff {ws held : List W} {pick : ω → Option W}
    (ordered : ws.Pairwise (fun a b => time a < time b))
    (kept : ∀ w, w ∈ held ↔ lastOfKey key ws (key w) = some w)
    (picks : Picks owner time held pick) :
    (∀ r, pick r = lastOfOwner owner ws r) ↔ Unshadowed key owner ws := by
  have hheld : ∀ u ∈ held, u ∈ ws := by
    intro u hu
    obtain ⟨-, a, b, rfl, -⟩ := findRev?_eq_some_iff.mp ((kept u).mp hu)
    simp
  rw [unshadowed_iff]
  constructor
  · intro h a w b hsplit howner u hu hkey
    have hlast : lastOfOwner owner ws (owner w) = some w :=
      findRev?_eq_some_iff.mpr ⟨by simp, a, b, hsplit, by simpa using howner⟩
    have hw := (kept w).mp (picks.latest _ w ((h (owner w)).trans hlast)).1
    exact absurd hw (lastOfKey_ne_of_later ordered hsplit hu hkey)
  · intro h r
    cases hlast : lastOfOwner owner ws r with
    | none =>
      cases hpick : pick r with
      | none => rfl
      | some u =>
        obtain ⟨hu, howner, -⟩ := picks.latest r u hpick
        have hnone := List.find?_eq_none.mp ((List.findRev?_eq_find?_reverse).symm.trans hlast)
        exact absurd (by simpa using howner) (hnone u (List.mem_reverse.mpr (hheld u hu)))
    | some w =>
      obtain ⟨howner, a, b, hsplit, hlater⟩ := findRev?_eq_some_iff.mp hlast
      have hr : owner w = r := by simpa using howner
      have hothers : ∀ u ∈ b, owner u ≠ owner w := by simpa [hr] using hlater
      have hw : w ∈ held := (kept w).mpr (findRev?_eq_some_iff.mpr
        ⟨by simp, a, b, hsplit, by simpa using h a w b hsplit hothers⟩)
      obtain ⟨u, hpick⟩ := Option.ne_none_iff_exists'.mp
        (fun hnone => picks.complete r hnone w hw hr)
      obtain ⟨hu, howner, hlatest⟩ := picks.latest r u hpick
      have hmem := hsplit ▸ hheld u hu
      have hle := hlatest w hw hr
      rw [hsplit, List.pairwise_append] at ordered
      rcases List.mem_append.mp hmem with hmem | hmem
      · exact absurd (ordered.2.2 u hmem w List.mem_cons_self) (not_lt.mpr hle)
      · rcases List.mem_cons.mp hmem with rfl | hmem
        · exact hpick
        · exact absurd (howner.trans hr.symm) (hothers u hmem)

end Owners
end AgentKernel.Lib
