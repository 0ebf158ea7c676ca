import AgentKernel.Lib.Search

/-! The search finds a shortest path.

A depth is given to every node that is met: none to the root, one more than its predecessor's
to any other. The queue is in the order of the depths and spans two of them at most, and an edge
out of an expanded node leads at most one deeper. So when the target heads the queue, no path to
it is shorter than its depth, which is the length of the path read back. -/
namespace AgentKernel.Lib.Search
variable {ν : Type}

/-- A path than which none is shorter. -/
def IsShortest (edges : List (ν × ν)) (u : ν) (path : List (ν × ν)) (v : ν) : Prop :=
  IsPath edges u path v ∧ ∀ other, IsPath edges u other v → path.length ≤ other.length

/-- The loop has ended. -/
def Halted (target : ν) (s : Search ν) : Prop := s.queue = [] ∨ ∃ rest, s.queue = target :: rest

variable [DecidableEq ν] {edges : List (ν × ν)}

/-! ### The end of the loop -/

/-- **As many rounds as there are edges and one more end the loop.** -/
theorem rounds_halted (edges : List (ν × ν)) {root : ν} (target : ν) :
    ∀ (n : Nat) (s : Search ν), Sound edges root s →
    edges.length + 1 + s.queue.length ≤ n + s.parent.size → Halted target (rounds edges target n s) := by
  intro n
  induction n with
  | zero =>
    intro s hs hbound
    have hsize := hs.size_le
    have hempty : s.queue.length = 0 := by omega
    exact .inl (List.length_eq_zero_iff.mp hempty)
  | succ n ih =>
    intro s hs hbound
    unfold rounds
    cases hqueue : s.queue with
    | nil => exact .inl hqueue
    | cons current rest =>
      simp only
      by_cases htarget : current = target
      · rw [if_pos htarget]
        exact .inr ⟨rest, htarget ▸ hqueue⟩
      · rw [if_neg htarget]
        obtain ⟨hsound, hgrows, -⟩ := expand_spec (hs.pop hqueue) (hs.queued current (by simp [hqueue]))
        refine ih _ hsound ?_
        have hcount := hgrows.count
        rw [hqueue, List.length_cons] at hbound
        simp only at hcount
        omega

/-! ### The layers -/

/-- The depths while nodes of a level are expanded. The edges out of the node being expanded may
still lead to nodes that are not met. -/
structure Layered (edges : List (ν × ν)) (root : ν) (depth : ν → Nat) (level : Nat) (expanding : Option ν)
    (s : Search ν) : Prop where
  rooted : depth root = 0
  parent : ∀ u v, s.parent.get? v = some (some u) → u ∈ s.parent.keys ∧ depth v = depth u + 1
  ordered : s.queue.Pairwise (fun a b => depth a ≤ depth b)
  queued : ∀ q ∈ s.queue, level ≤ depth q
  met : ∀ u ∈ s.parent.keys, depth u ≤ level + 1
  left : ∀ u ∈ s.parent.keys, u ∉ s.queue → depth u ≤ level
  closed : ∀ u ∈ s.parent.keys, u ∉ s.queue → expanding ≠ some u →
    ∀ w, (u, w) ∈ edges → w ∈ s.parent.keys ∧ depth w ≤ depth u + 1

theorem layered_start (root : ν) : Layered edges root (fun _ => 0) 0 none (start root) where
  rooted := rfl
  parent := by
    intro u v h
    have hget : (Dict.empty.set root (none : Option ν)).get? v = some (some u) := h
    rw [Dict.get?_set] at hget
    split at hget <;> cases hget
  ordered := List.pairwise_singleton _ _
  queued := fun _ _ => Nat.le_refl 0
  met := fun _ _ => Nat.zero_le _
  left := fun _ _ _ => Nat.le_refl 0
  closed := fun u hu hleft => absurd (List.mem_singleton.mpr (mem_start.mp hu)) hleft

/-- The head of the queue opens its own level. -/
theorem Layered.pop {root current : ν} {rest : List ν} {depth : ν → Nat} {level : Nat} {s : Search ν}
    (h : Layered edges root depth level none s) (hqueue : s.queue = current :: rest) :
    Layered edges root depth (depth current) (some current) { s with queue := rest } := by
  have hordered := h.ordered
  rw [hqueue, List.pairwise_cons] at hordered
  have hlevel : level ≤ depth current := h.queued current (by simp [hqueue])
  refine ⟨h.rooted, h.parent, hordered.2, hordered.1, fun u hu => ?_, fun u hu hleft => ?_,
    fun u hu hleft hother w hw => ?_⟩
  · exact Nat.le_trans (h.met u hu) (by omega)
  · by_cases hu' : u = current
    · exact Nat.le_of_eq (congrArg depth hu')
    · exact Nat.le_trans (h.left u hu (by simpa [hqueue, hu'] using hleft)) hlevel
  · have hu' : u ≠ current := fun heq => hother (by rw [heq])
    exact h.closed u hu (by simpa [hqueue, hu'] using hleft) (by simp) w hw

/-- A node met for the first time is one deeper than the node that is expanded. -/
theorem Layered.meet {root current : ν} {depth : ν → Nat} {s : Search ν} (hs : Sound edges root s)
    (hcurrent : current ∈ s.parent.keys)
    (h : Layered edges root depth (depth current) (some current) s) (e : ν × ν) :
    ∃ depth' : ν → Nat, depth' current = depth current ∧
      Layered edges root depth' (depth current) (some current) (meet current s e) := by
  unfold Search.meet
  split
  · exact ⟨depth, rfl, h⟩
  next hmeet =>
    have hnew := (not_or.mp hmeet).2
    have hkeys : (s.parent.set e.2 (some current)).keys = s.parent.keys ++ [e.2] := by
      rw [Dict.keys_set, if_neg hnew]
    -- The depths of the nodes met before stay.
    have hold : ∀ u ∈ s.parent.keys, Function.update depth e.2 (depth current + 1) u = depth u := by
      intro u hu
      have hne : u ≠ e.2 := by
        rintro rfl
        exact hnew hu
      exact Function.update_of_ne hne ..
    have hfresh : Function.update depth e.2 (depth current + 1) e.2 = depth current + 1 :=
      Function.update_self ..
    have hroot : root ∈ s.parent.keys := (s.parent.mem_keys_iff root).mpr ⟨_, hs.rooted⟩
    refine ⟨Function.update depth e.2 (depth current + 1), hold current hcurrent, ?_⟩
    refine ⟨?_, ?_, ?_, ?_, ?_, ?_, ?_⟩
    · rw [hold root hroot, h.rooted]
    · intro u v hparent
      have hget : (s.parent.set e.2 (some current)).get? v = some (some u) := hparent
      show u ∈ (s.parent.set e.2 (some current)).keys ∧ _
      rw [hkeys]
      rw [Dict.get?_set] at hget
      split at hget
      next heq =>
        cases hget
        rw [heq, hfresh, hold current hcurrent]
        exact ⟨List.mem_append_left _ hcurrent, rfl⟩
      next hne =>
        obtain ⟨hu, hdepth⟩ := h.parent u v hget
        rw [hold u hu, hold v ((s.parent.mem_keys_iff v).mpr ⟨_, hget⟩)]
        exact ⟨List.mem_append_left _ hu, hdepth⟩
    · show (s.queue ++ [e.2]).Pairwise _
      rw [List.pairwise_append]
      refine ⟨h.ordered.imp_of_mem ?_, List.pairwise_singleton _ _, ?_⟩
      · intro a b ha hb hab
        rw [hold a (hs.queued a ha), hold b (hs.queued b hb)]
        exact hab
      · intro a ha b hb
        rw [List.mem_singleton.mp hb, hfresh, hold a (hs.queued a ha)]
        exact h.met a (hs.queued a ha)
    · intro q hq
      rcases List.mem_append.mp hq with hq | hq
      · rw [hold q (hs.queued q hq)]
        exact h.queued q hq
      · rw [List.mem_singleton.mp hq, hfresh]
        exact Nat.le_succ _
    · intro u hu
      rcases List.mem_append.mp (hkeys ▸ hu) with hu | hu
      · rw [hold u hu]
        exact h.met u hu
      · rw [List.mem_singleton.mp hu]
        exact Nat.le_of_eq hfresh
    · intro u hu hleft
      obtain ⟨hleft, hne⟩ := not_or.mp (fun h => hleft (List.mem_append.mpr h))
      rcases List.mem_append.mp (hkeys ▸ hu) with hu | hu
      · rw [hold u hu]
        exact h.left u hu hleft
      · exact absurd hu hne
    · intro u hu hleft hother w hw
      obtain ⟨hleft, hne⟩ := not_or.mp (fun h => hleft (List.mem_append.mpr h))
      show w ∈ (s.parent.set e.2 (some current)).keys ∧ _
      rw [hkeys]
      rcases List.mem_append.mp (hkeys ▸ hu) with hu | hu
      · obtain ⟨hw, hdepth⟩ := h.closed u hu hleft hother w hw
        rw [hold u hu, hold w hw]
        exact ⟨List.mem_append_left _ hw, hdepth⟩
      · exact absurd hu hne

/-- Expanding the head of the queue closes it. -/
theorem Layered.expand {root current : ν} {depth : ν → Nat} {s : Search ν} (hs : Sound edges root s)
    (hcurrent : current ∈ s.parent.keys)
    (h : Layered edges root depth (depth current) (some current) s) :
    ∃ (depth' : ν → Nat) (level : Nat), Layered edges root depth' level none (expand edges current s) := by
  have hpart : ∀ part : List (ν × ν), (∀ e ∈ part, e ∈ edges) → ∀ (s : Search ν) (depth : ν → Nat),
      Sound edges root s → current ∈ s.parent.keys →
      Layered edges root depth (depth current) (some current) s →
      ∃ depth' : ν → Nat,
        Layered edges root depth' (depth' current) (some current) (part.foldl (Search.meet current) s) := by
    intro part
    induction part with
    | nil => exact fun _ s depth _ _ h => ⟨depth, h⟩
    | cons e rest ih =>
      intro hpart s depth hs hcur h
      obtain ⟨depth₁, hsame, h₁⟩ := h.meet hs hcur e
      rw [← hsame] at h₁
      exact ih (fun e' he' => hpart e' (List.mem_cons_of_mem e he')) _ depth₁
        (hs.meet hcur (hpart e List.mem_cons_self)) ((grows_meet current s e).kept current hcur) h₁
  obtain ⟨depth', h'⟩ := hpart edges (fun _ he => he) s depth hs hcurrent h
  obtain ⟨-, hgrows, hmet⟩ := expand_spec hs hcurrent
  refine ⟨depth', depth' current, h'.rooted, h'.parent, h'.ordered, h'.queued, h'.met, h'.left, ?_⟩
  intro u hu hleft _ w hw
  by_cases hu' : u = current
  · subst hu'
    exact ⟨hmet w hw, h'.met w (hmet w hw)⟩
  · exact h'.closed u hu hleft (fun heq => hu' (Option.some.inj heq).symm) w hw

theorem rounds_layered (edges : List (ν × ν)) {root : ν} (target : ν) :
    ∀ (n : Nat) (s : Search ν), Sound edges root s →
    (∃ (depth : ν → Nat) (level : Nat), Layered edges root depth level none s) →
    ∃ (depth : ν → Nat) (level : Nat), Layered edges root depth level none (rounds edges target n s) := by
  intro n
  induction n with
  | zero => exact fun s _ h => h
  | succ n ih =>
    intro s hs h
    unfold rounds
    cases hqueue : s.queue with
    | nil => exact h
    | cons current rest =>
      simp only
      by_cases htarget : current = target
      · rw [if_pos htarget]
        exact h
      · rw [if_neg htarget]
        obtain ⟨depth, level, hlayered⟩ := h
        have hcurrent := hs.queued current (by simp [hqueue])
        exact ih _ (expand_spec (hs.pop hqueue) hcurrent).1
          ((hlayered.pop hqueue).expand (hs.pop hqueue) hcurrent)

/-! ### Paths and depths -/

/-- A path leads to a node that is met at its depth or less, or past the queue. -/
theorem Layered.reach {root u v : ν} {depth : ν → Nat} {level : Nat} {s : Search ν}
    (h : Layered edges root depth level none s) {path : List (ν × ν)} (hpath : IsPath edges u path v)
    (hu : u ∈ s.parent.keys) :
    (v ∈ s.parent.keys ∧ depth v ≤ depth u + path.length) ∨
      ∃ q ∈ s.queue, depth q ≤ depth u + path.length := by
  induction path generalizing u with
  | nil =>
    obtain rfl : u = v := hpath
    exact .inl ⟨hu, Nat.le_refl _⟩
  | cons e rest ih =>
    obtain ⟨hedge, rfl, hrest⟩ := hpath
    by_cases hleft : e.1 ∈ s.queue
    · exact .inr ⟨e.1, hleft, Nat.le_add_right ..⟩
    · obtain ⟨hw, hdepth⟩ := h.closed e.1 hu hleft (by simp) e.2 hedge
      rw [List.length_cons]
      rcases ih hrest hw with ⟨hv, hle⟩ | ⟨q, hq, hle⟩
      · exact .inl ⟨hv, by omega⟩
      · exact .inr ⟨q, hq, by omega⟩

/-- The edges back to the root are as many as the depth. -/
theorem Layered.back_length {root v : ν} {depth : ν → Nat} {level : Nat} {s : Search ν}
    (h : Layered edges root depth level none s) (fuel : Nat) (hv : v ∈ s.parent.keys) :
    (back s root fuel v).length ≤ depth v := by
  induction fuel generalizing v with
  | zero => exact Nat.zero_le _
  | succ fuel ih =>
    unfold back
    split
    · exact Nat.zero_le _
    · split
      next edge previous hedge hparent =>
        obtain ⟨hu, hdepth⟩ := h.parent previous v hparent
        rw [List.length_cons, hdepth]
        exact Nat.succ_le_succ (ih hu)
      · exact Nat.zero_le _

/-- **No path is shorter than the one found.** -/
theorem resolve_isShortest {root target : ν} (h : Reachable edges root target) :
    IsShortest edges root (resolve edges root target) target := by
  refine ⟨resolve_isPath h, fun other hother => ?_⟩
  have hsound := (rounds_spec edges target (edges.length + 1) (start root) (sound_start root)
    (fun u hu hleft => absurd (List.mem_singleton.mpr (mem_start.mp hu)) hleft) (Nat.le_refl _)).1
  have hhalted := rounds_halted edges target (edges.length + 1) (start root) (sound_start root)
    (Nat.le_refl _)
  obtain ⟨depth, level, hlayered⟩ := rounds_layered edges target (edges.length + 1) (start root)
    (sound_start root) ⟨_, _, layered_start root⟩
  unfold resolve
  simp only
  split
  · exact Nat.zero_le _
  next htarget =>
    have hroot := (Dict.mem_keys_iff _ root).mpr ⟨_, hsound.rooted⟩
    rw [List.length_reverse]
    refine Nat.le_trans (hlayered.back_length _ (not_not.mp htarget)) ?_
    have hreach := hlayered.reach hother hroot
    rw [hlayered.rooted, Nat.zero_add] at hreach
    rcases hreach with ⟨-, hle⟩ | ⟨q, hq, hle⟩
    · exact hle
    · -- The target heads the queue, so nothing on it is less deep.
      rcases hhalted with hempty | ⟨rest, hqueue⟩
      · rw [hempty] at hq
        cases hq
      · have hordered := hlayered.ordered
        rw [hqueue, List.pairwise_cons] at hordered
        rw [hqueue] at hq
        rcases List.mem_cons.mp hq with rfl | hq
        · exact hle
        · exact Nat.le_trans (hordered.1 q hq) hle

end AgentKernel.Lib.Search
