import AgentKernel.Lib.Run
import Mathlib.Data.List.DropRight

/-! Caches that forget in the order of entry.

A key that is stored enters unless it is among the `capacity` keys that entered last, and
these are what the cache keeps (`rtake_enter`): storing a key again does not renew it. -/
namespace AgentKernel.Lib.Fifo
variable {κ : Type} [DecidableEq κ]

def enter (capacity : Nat) (entries : List κ) (k : κ) : List κ :=
  if k ∈ entries.rtake capacity then entries else entries ++ [k]

/-- The keys as they entered while they were stored in this order. -/
def entries (capacity : Nat) (stored : List κ) : List κ := run (enter capacity) [] stored

/-- The key is one of the last to have entered. -/
def Kept (capacity : Nat) (stored : List κ) (k : κ) : Prop := k ∈ (entries capacity stored).rtake capacity

instance (capacity : Nat) (stored : List κ) (k : κ) : Decidable (Kept capacity stored k) :=
  inferInstanceAs (Decidable (_ ∈ _))

theorem entries_append_singleton (capacity : Nat) (stored : List κ) (k : κ) :
    entries capacity (stored ++ [k]) = enter capacity (entries capacity stored) k := by
  unfold entries
  rw [run_append]
  rfl

theorem length_rtake_le {α : Type} (l : List α) (n : Nat) : (l.rtake n).length ≤ n := by
  rw [List.rtake, List.length_drop]
  omega

theorem rtake_of_length_le {α : Type} {l : List α} {n : Nat} (h : l.length ≤ n) : l.rtake n = l := by
  rw [List.rtake, Nat.sub_eq_zero_of_le h, List.drop_zero]

/-- What is cut off before another key comes would be cut off after it. -/
theorem rtake_append_singleton {α : Type} (l : List α) (n : Nat) (a : α) :
    (l.rtake n ++ [a]).rtake n = (l ++ [a]).rtake n := by
  rcases Nat.le_total l.length n with hshort | hlong
  · rw [rtake_of_length_le hshort]
  · unfold List.rtake
    simp only [List.length_append, List.length_drop, List.length_singleton]
    rcases Nat.eq_zero_or_pos n with rfl | hpos
    · simp
    · rw [List.drop_append_of_le_length (by simp; omega), List.drop_append_of_le_length (by omega),
        List.drop_drop]
      congr 2
      omega

/-- **The keys that are kept** after one more is stored. -/
theorem rtake_enter (capacity : Nat) (es : List κ) (k : κ) :
    (enter capacity es k).rtake capacity =
      (if k ∈ es.rtake capacity then es.rtake capacity else es.rtake capacity ++ [k]).rtake capacity := by
  unfold enter
  split
  · exact (rtake_of_length_le (length_rtake_le es capacity)).symm
  · exact (rtake_append_singleton es capacity k).symm

end AgentKernel.Lib.Fifo
