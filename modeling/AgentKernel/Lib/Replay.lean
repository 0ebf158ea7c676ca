import Mathlib.Data.List.Sort
import Mathlib.Order.Lattice
import Mathlib.Algebra.Order.Group.Int
import AgentKernel.Lib.Run

/-! Resumable replay of an indexed log.

The items of a log carry strictly increasing positive indices. A replay folds the
items that are kept, up to a bound; its state remembers the index of the last item it
took (`cursor`). Resuming from that state on the items after the cursor gives the
replay up to the larger bound, although the cursor stays behind the bound whenever
the last items were not kept (`resume_replay`). -/
namespace AgentKernel.Lib

/-- Strictly increasing, positive indices. -/
structure Indexed {ε : Type} (idx : ε → Int) (l : List ε) : Prop where
  sorted : l.Pairwise (fun a b => idx a < idx b)
  positive : ∀ x ∈ l, 0 < idx x

/-- The largest index, zero for the empty log. -/
def lastIndex {ε : Type} (idx : ε → Int) (l : List ε) : Int := (l.getLast?.map idx).getD 0

section
variable {ε : Type} {idx : ε → Int} {l : List ε}

theorem Indexed.nil : Indexed idx [] := ⟨List.Pairwise.nil, fun _ h => nomatch h⟩

theorem Indexed.le_lastIndex (h : Indexed idx l) {x : ε} (hx : x ∈ l) : idx x ≤ lastIndex idx l := by
  rcases List.eq_nil_or_concat l with rfl | ⟨front, y, rfl⟩
  · cases hx
  · rw [List.concat_eq_append] at h hx ⊢
    have hlast : lastIndex idx (front ++ [y]) = idx y := by simp [lastIndex]
    rw [hlast]
    rcases List.mem_append.mp hx with hx | hx
    · exact Int.le_of_lt ((List.pairwise_append.mp h.sorted).2.2 x hx y (List.mem_singleton_self y))
    · rw [List.mem_singleton.mp hx]

theorem Indexed.lastIndex_nonneg (h : Indexed idx l) : 0 ≤ lastIndex idx l := by
  rcases List.eq_nil_or_concat l with rfl | ⟨front, y, rfl⟩
  · exact Int.le_refl 0
  · rw [List.concat_eq_append] at h ⊢
    have hlast : lastIndex idx (front ++ [y]) = idx y := by simp [lastIndex]
    rw [hlast]
    exact Int.le_of_lt (h.positive y (by simp))

theorem lastIndex_append_le {more : List ε} (h : ∀ x ∈ more, lastIndex idx l < idx x) :
    lastIndex idx l ≤ lastIndex idx (l ++ more) := by
  rcases List.eq_nil_or_concat more with rfl | ⟨front, y, rfl⟩
  · rw [List.append_nil]
  · have hlast : lastIndex idx (l ++ (front ++ [y])) = idx y := by simp [lastIndex]
    rw [List.concat_eq_append, hlast]
    exact Int.le_of_lt (h y (by simp))

/-- In a sorted log the items up to a bound come first. -/
theorem takeWhile_le_eq_filter (h : l.Pairwise (fun a b => idx a < idx b)) (t : Int) :
    l.takeWhile (fun x => idx x ≤ t) = l.filter (fun x => idx x ≤ t) := by
  induction l with
  | nil => rfl
  | cons a rest ih =>
    obtain ⟨ha, hrest⟩ := List.pairwise_cons.mp h
    by_cases hat : idx a ≤ t
    · rw [List.takeWhile_cons_of_pos (by simpa using hat), List.filter_cons_of_pos (by simpa using hat),
        ih hrest]
    · rw [List.takeWhile_cons_of_neg (by simpa using hat), List.filter_cons_of_neg (by simpa using hat)]
      refine (List.filter_eq_nil_iff.mpr (fun x hx => ?_)).symm
      have hlt := ha x hx
      simp only [decide_eq_true_eq]
      omega

variable (idx) in
/-- The items of the log that are kept, up to a bound. -/
def upTo (keep : ε → Bool) (l : List ε) (bound : Int) : List ε :=
  l.filter (fun x => keep x && decide (idx x ≤ bound))

/-- A larger bound adds the items between the bounds at the end. -/
theorem upTo_split {keep : ε → Bool} (h : l.Pairwise (fun a b => idx a < idx b)) {a b : Int}
    (hab : a ≤ b) :
    upTo idx keep l b = upTo idx keep l a ++
      l.filter (fun x => keep x && decide (a < idx x) && decide (idx x ≤ b)) := by
  induction l with
  | nil => rfl
  | cons x rest ih =>
    obtain ⟨hx, hrest⟩ := List.pairwise_cons.mp h
    have ih := ih hrest
    unfold upTo at ih ⊢
    by_cases hxa : idx x ≤ a
    · have hnot : ¬ a < idx x := by omega
      have hxb : idx x ≤ b := by omega
      simp only [List.filter_cons, hxa, hxb, hnot, decide_true, decide_false, Bool.and_true,
        Bool.and_false, Bool.false_eq_true, if_false, ih]
      cases keep x <;> rfl
    · -- Everything from here on is above the smaller bound.
      have hempty : rest.filter (fun x => keep x && decide (idx x ≤ a)) = [] := by
        refine List.filter_eq_nil_iff.mpr (fun y hy => ?_)
        have hlt := hx y hy
        have hya : ¬ idx y ≤ a := by omega
        simp [hya]
      have hlt : a < idx x := by omega
      simp only [List.filter_cons, hxa, hlt, decide_true, decide_false, Bool.and_true, Bool.and_false,
        Bool.false_eq_true, if_false, hempty, List.nil_append, ih]

/-- New items beyond the bound do not matter. -/
theorem upTo_append {keep : ε → Bool} {more : List ε} {bound : Int}
    (h : ∀ x ∈ more, bound < idx x) : upTo idx keep (l ++ more) bound = upTo idx keep l bound := by
  unfold upTo
  rw [List.filter_append]
  have hnone : more.filter (fun x => keep x && decide (idx x ≤ bound)) = [] := by
    refine List.filter_eq_nil_iff.mpr (fun x hx => ?_)
    have hlt := h x hx
    have hnot : ¬ idx x ≤ bound := by omega
    simp [hnot]
  rw [hnone, List.append_nil]

/-- Bounds past the end of the log are all the same. -/
theorem upTo_lastIndex {keep : ε → Bool} (h : Indexed idx l) (t : Int) :
    upTo idx keep l (min t (lastIndex idx l)) = upTo idx keep l t := by
  unfold upTo
  refine List.filter_congr (fun x hx => ?_)
  have hle := h.le_lastIndex hx
  congr 1
  rw [decide_eq_decide]
  omega

end

/-! ### Replaying -/

/-- A fold that remembers the index of the last item it took. -/
structure Replayer (ε σ : Type) where
  idx : ε → Int
  keep : ε → Bool
  step : σ → ε → σ
  cursor : σ → Int
  start : σ
  cursor_step : ∀ s x, cursor (step s x) = idx x
  cursor_start : cursor start = 0

namespace Replayer
variable {ε σ : Type} (R : Replayer ε σ) {l : List ε}

/-- The replay of the kept items up to a bound. -/
def replay (l : List ε) (bound : Int) : σ := run R.step R.start (upTo R.idx R.keep l bound)

/-- The kept items after the cursor and up to a bound, taken from a given state. -/
def resume (s : σ) (l : List ε) (t : Int) : σ :=
  run R.step s (((l.filter (fun x => R.cursor s < R.idx x)).takeWhile (fun x => R.idx x ≤ t)).filter
    R.keep)

/-- The cursor is the index of the last item taken. -/
theorem cursor_run (s : σ) (xs : List ε) :
    R.cursor (run R.step s xs) = (xs.getLast?.map R.idx).getD (R.cursor s) := by
  rcases List.eq_nil_or_concat xs with rfl | ⟨front, x, rfl⟩
  · rfl
  · rw [List.concat_eq_append, run_append]
    simp [R.cursor_step]

/-- No kept item up to the bound is after the cursor. -/
theorem le_cursor_replay (h : Indexed R.idx l) {bound : Int} {x : ε} (hx : x ∈ l)
    (hkeep : R.keep x = true) (hle : R.idx x ≤ bound) : R.idx x ≤ R.cursor (R.replay l bound) := by
  have hmem : x ∈ upTo R.idx R.keep l bound := List.mem_filter.mpr ⟨hx, by simp [hkeep, hle]⟩
  have hindexed : Indexed R.idx (upTo R.idx R.keep l bound) :=
    ⟨h.sorted.filter _, fun y hy => h.positive y (List.mem_of_mem_filter hy)⟩
  rw [replay, R.cursor_run, R.cursor_start]
  exact hindexed.le_lastIndex hmem

theorem cursor_replay_le {bound : Int} (hbound : 0 ≤ bound) : R.cursor (R.replay l bound) ≤ bound := by
  rw [replay, R.cursor_run, R.cursor_start]
  cases hlast : (upTo R.idx R.keep l bound).getLast? with
  | none => exact hbound
  | some x =>
    have hx := List.mem_filter.mp (List.mem_of_getLast? hlast)
    simp only [Bool.and_eq_true, decide_eq_true_eq] at hx
    exact hx.2.2

theorem cursor_replay_nonneg (h : Indexed R.idx l) (bound : Int) : 0 ≤ R.cursor (R.replay l bound) := by
  rw [replay, R.cursor_run, R.cursor_start]
  cases hlast : (upTo R.idx R.keep l bound).getLast? with
  | none => exact Int.le_refl 0
  | some x =>
    exact Int.le_of_lt (h.positive x (List.mem_of_mem_filter (List.mem_of_getLast? hlast)))

/-- Up to its last index a log is replayed as a whole. -/
theorem replay_lastIndex (h : Indexed R.idx l) :
    R.replay l (lastIndex R.idx l) = run R.step R.start (l.filter R.keep) := by
  have hall : upTo R.idx R.keep l (lastIndex R.idx l) = l.filter R.keep := by
    refine List.filter_congr (fun x hx => ?_)
    simp [h.le_lastIndex hx]
  rw [replay, hall]

/-- A replay is complete when no kept item is left after its cursor. -/
theorem replay_complete_iff (h : Indexed R.idx l) {reached : Int} (hpos : 0 ≤ reached) :
    R.replay l reached = R.replay l (lastIndex R.idx l) ↔
      ∀ x ∈ l, R.keep x = true → R.idx x ≤ R.cursor (R.replay l reached) := by
  constructor
  · intro hsame x hx hkeep
    rw [hsame]
    exact R.le_cursor_replay h hx hkeep (h.le_lastIndex hx)
  · intro hdone
    have hle := R.cursor_replay_le (l := l) hpos
    have hitems : upTo R.idx R.keep l reached = upTo R.idx R.keep l (lastIndex R.idx l) := by
      refine List.filter_congr (fun x hx => ?_)
      have hlast := h.le_lastIndex hx
      cases hkeep : R.keep x with
      | false => rfl
      | true =>
        have hbefore := hdone x hx hkeep
        have hreached : R.idx x ≤ reached := by omega
        simp [hreached, hlast]
    rw [replay, replay, hitems]

/-- The replay of the whole log is at its end when the last item is kept. -/
theorem cursor_replay_eq_iff (h : Indexed R.idx l) :
    R.cursor (R.replay l (lastIndex R.idx l)) = lastIndex R.idx l ↔
      ∀ x, l.getLast? = some x → R.keep x = true := by
  have hall : upTo R.idx R.keep l (lastIndex R.idx l) = l.filter R.keep := by
    refine List.filter_congr (fun x hx => ?_)
    simp [h.le_lastIndex hx]
  constructor
  · intro hend x hx
    have hlast : lastIndex R.idx l = R.idx x := by simp [lastIndex, hx]
    rw [replay, R.cursor_run, R.cursor_start, hall, hlast] at hend
    cases hkept : (l.filter R.keep).getLast? with
    | none =>
      rw [hkept] at hend
      have hpos := h.positive x (List.mem_of_getLast? hx)
      have hzero : (0 : Int) = R.idx x := hend
      omega
    | some y =>
      rw [hkept] at hend
      obtain ⟨hy, hkeep⟩ := List.mem_filter.mp (List.mem_of_getLast? hkept)
      have hsame : R.idx y = R.idx x := hend
      -- No two items of the log have one index.
      have hxy : y = x := by
        obtain ⟨i, hi, rfl⟩ := List.mem_iff_getElem.mp hy
        obtain ⟨k, hk, rfl⟩ := List.mem_iff_getElem.mp (List.mem_of_getLast? hx)
        have hsorted := List.pairwise_iff_getElem.mp h.sorted
        rcases Nat.lt_trichotomy i k with hlt | rfl | hlt
        · have hless := hsorted i k hi hk hlt
          omega
        · rfl
        · have hless := hsorted k i hk hi hlt
          omega
      rw [← hxy]
      exact hkeep
  · intro hkeep
    apply Int.le_antisymm (R.cursor_replay_le h.lastIndex_nonneg)
    cases hlast : l.getLast? with
    | none =>
      rw [List.getLast?_eq_none_iff.mp hlast]
      exact Int.le_of_eq R.cursor_start.symm
    | some x =>
      have hx := List.mem_of_getLast? hlast
      have hidx : lastIndex R.idx l = R.idx x := by simp [lastIndex, hlast]
      have hle := R.le_cursor_replay h hx (hkeep x hlast) (h.le_lastIndex hx)
      omega

/-- **Resuming a replay.** From the state up to one bound, the items after its cursor
and up to another bound give the replay up to the larger of the two. -/
theorem resume_replay (h : Indexed R.idx l) {reached : Int} (hpos : 0 ≤ reached)
    (hend : reached ≤ lastIndex R.idx l) (t : Int) :
    R.resume (R.replay l reached) l t = R.replay l (max reached (min t (lastIndex R.idx l))) := by
  have hle := R.cursor_replay_le (l := l) hpos
  have hitems : ((l.filter (fun x => R.cursor (R.replay l reached) < R.idx x)).takeWhile
        (fun x => R.idx x ≤ t)).filter R.keep =
      l.filter (fun x => R.keep x && decide (reached < R.idx x) && decide (R.idx x ≤ t)) := by
    rw [takeWhile_le_eq_filter (h.sorted.filter _), List.filter_filter, List.filter_filter]
    refine List.filter_congr (fun x hx => ?_)
    cases hkeep : R.keep x with
    | false => simp
    | true =>
      -- A kept item is after the cursor exactly when it is after the bound reached.
      have hcursor : R.cursor (R.replay l reached) < R.idx x ↔ reached < R.idx x := by
        constructor
        · intro hlt
          by_contra hnot
          have hc : R.idx x ≤ R.cursor (R.replay l reached) := R.le_cursor_replay h hx hkeep (by omega)
          omega
        · intro hlt
          omega
      simp only [Bool.true_and, hcursor]
      exact Bool.and_comm _ _
  unfold resume
  rw [hitems]
  by_cases ht : reached ≤ t
  · have hmax : max reached (min t (lastIndex R.idx l)) = min t (lastIndex R.idx l) := by omega
    rw [hmax, replay, replay, upTo_lastIndex h t, upTo_split h.sorted ht, run_append]
  · have hmax : max reached (min t (lastIndex R.idx l)) = reached := by omega
    have hnone : l.filter (fun x => R.keep x && decide (reached < R.idx x) && decide (R.idx x ≤ t)) =
        [] := by
      refine List.filter_eq_nil_iff.mpr (fun x _ => ?_)
      by_cases hlt : reached < R.idx x
      · have hnot : ¬ R.idx x ≤ t := by omega
        simp [hnot]
      · simp [hlt]
    rw [hmax, hnone, run_nil]

/-- Nothing is up to zero. -/
theorem replay_zero (h : Indexed R.idx l) : R.replay l 0 = R.start := by
  have hnone : upTo R.idx R.keep l 0 = [] := by
    refine List.filter_eq_nil_iff.mpr (fun x hx => ?_)
    have hpos := h.positive x hx
    have hnot : ¬ R.idx x ≤ 0 := by omega
    simp [hnot]
  rw [replay, hnone, run_nil]

/-- Items beyond the bound leave a replay as it is. -/
theorem replay_append {more : List ε} {bound : Int} (h : ∀ x ∈ more, bound < R.idx x) :
    R.replay (l ++ more) bound = R.replay l bound := by
  rw [replay, replay, upTo_append h]

end Replayer
end AgentKernel.Lib
