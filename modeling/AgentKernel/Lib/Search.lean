import AgentKernel.Lib.Dict
import Mathlib.Data.List.Perm.Subperm
import Mathlib.Logic.Relation

/-! Breadth-first search for a path in a directed graph.

The graph is a list of edges, in the order they are looked at. The search keeps a queue of
nodes to expand, the predecessor of every node it has met and the edge it met it by; the
path is read back from the target. The search finds a path exactly when there is one
(`resolve_ne_nil_iff`), and what it finds is a path (`resolve_isPath`). As many rounds as
there are nodes are enough, so the search needs no bound from outside. -/
namespace AgentKernel.Lib

structure Search (ν : Type) where
  queue : List ν
  parent : Dict ν (Option ν)
  edgeTo : Dict ν (ν × ν)

namespace Search
variable {ν : Type} [DecidableEq ν] (edges : List (ν × ν))

def start (root : ν) : Search ν :=
  { queue := [root], parent := Dict.empty.set root none, edgeTo := Dict.empty }

/-- An edge out of the current node leads to a node that is met for the first time, or is
passed over. -/
def meet (current : ν) (s : Search ν) (edge : ν × ν) : Search ν :=
  if edge.1 ≠ current ∨ edge.2 ∈ s.parent.keys then s
  else
    { queue := s.queue ++ [edge.2]
      parent := s.parent.set edge.2 (some current)
      edgeTo := s.edgeTo.set edge.2 edge }

def expand (current : ν) (s : Search ν) : Search ν := edges.foldl (meet current) s

/-- A number of rounds; the search stops at the target or when the queue is empty. -/
def rounds (target : ν) : Nat → Search ν → Search ν
  | 0, s => s
  | n + 1, s =>
    match s.queue with
    | [] => s
    | current :: rest =>
      if current = target then s
      else rounds target n (expand edges current { s with queue := rest })

/-- The edges back to the root. -/
def back (s : Search ν) (root : ν) : Nat → ν → List (ν × ν)
  | 0, _ => []
  | n + 1, node =>
    if node = root then []
    else
      match s.edgeTo.get? node, s.parent.get? node with
      | some edge, some (some previous) => edge :: back s root n previous
      | _, _ => []

/-- The path from the root to the target; none is the empty one. -/
def resolve (root target : ν) : List (ν × ν) :=
  let s := rounds edges target (edges.length + 1) (start root)
  if target ∉ s.parent.keys then [] else (back s root s.parent.size target).reverse

/-! ### Paths -/

/-- Edges of the graph, one after the other. -/
def IsPath : ν → List (ν × ν) → ν → Prop
  | u, [], v => u = v
  | u, edge :: rest, v => edge ∈ edges ∧ edge.1 = u ∧ IsPath edge.2 rest v

/-- There is a path. -/
def Reachable (u v : ν) : Prop := Relation.ReflTransGen (fun a b => (a, b) ∈ edges) u v

variable {edges}

omit [DecidableEq ν] in
theorem isPath_append {u v w : ν} {path : List (ν × ν)} (h : IsPath edges u path v)
    (hedge : (v, w) ∈ edges) : IsPath edges u (path ++ [(v, w)]) w := by
  induction path generalizing u with
  | nil =>
    obtain rfl : u = v := h
    exact ⟨hedge, rfl, rfl⟩
  | cons edge rest ih => exact ⟨h.1, h.2.1, ih h.2.2⟩

omit [DecidableEq ν] in
theorem IsPath.reachable {u v : ν} {path : List (ν × ν)} (h : IsPath edges u path v) :
    Reachable edges u v := by
  induction path generalizing u with
  | nil => exact (show u = v from h) ▸ .refl
  | cons edge rest ih =>
    obtain ⟨hmem, rfl, hrest⟩ := h
    exact .head hmem (ih hrest)

/-! ### What is met -/

/-- A node met after so many edges. -/
inductive Trail (s : Search ν) (root : ν) : Nat → ν → Prop
  | root : Trail s root 0 root
  | step {n : Nat} {u v : ν} (parent : s.parent.get? v = some (some u))
      (edge : s.edgeTo.get? v = some (u, v)) (rest : Trail s root n u) : Trail s root (n + 1) v

/-- What the search knows is true. -/
structure Sound (edges : List (ν × ν)) (root : ν) (s : Search ν) : Prop where
  rooted : s.parent.get? root = some none
  trail : ∀ v ∈ s.parent.keys, ∃ n, n < s.parent.size ∧ Trail s root n v
  edge : ∀ v e, s.edgeTo.get? v = some e → e ∈ edges
  queued : ∀ v ∈ s.queue, v ∈ s.parent.keys
  /-- Every node met was met over an edge, the root apart. -/
  targets : ∀ v ∈ s.parent.keys, v = root ∨ v ∈ edges.map Prod.snd

/-- Meeting a new node leaves the trails to the others alone. -/
theorem Trail.meet {s : Search ν} {root v w : ν} {n : Nat} {a : Option ν} {e : ν × ν}
    (hnew : w ∉ s.parent.keys) (h : Trail s root n v) (queue : List ν) :
    Trail ⟨queue, s.parent.set w a, s.edgeTo.set w e⟩ root n v := by
  induction h with
  | root => exact .root
  | @step n u v parent edge rest ih =>
    have hne : v ≠ w := by
      rintro rfl
      exact hnew ((s.parent.mem_keys_iff v).mpr ⟨_, parent⟩)
    refine .step ?_ ?_ ih
    · show (s.parent.set w a).get? v = _
      rw [Dict.get?_set, if_neg hne, parent]
    · show (s.edgeTo.set w e).get? v = _
      rw [Dict.get?_set, if_neg hne, edge]

/-- Trails do not depend on the queue. -/
theorem Trail.requeue {s : Search ν} {root v : ν} {n : Nat} (h : Trail s root n v)
    (queue : List ν) : Trail { s with queue := queue } root n v := by
  induction h with
  | root => exact .root
  | step parent edge rest ih => exact .step parent edge ih

theorem mem_start {root v : ν} : v ∈ (start root).parent.keys ↔ v = root := List.mem_singleton

theorem sound_start (root : ν) : Sound edges root (start root) where
  rooted := by
    show (Dict.empty.set root none).get? root = _
    rw [Dict.get?_set, if_pos rfl]
  trail := by
    intro v hv
    rw [mem_start.mp hv]
    exact ⟨0, Nat.zero_lt_one, .root⟩
  edge := fun v e h => by cases h
  queued := fun v hv => mem_start.mpr (List.mem_singleton.mp hv)
  targets := fun v hv => .inl (mem_start.mp hv)

theorem Sound.meet {root current : ν} {s : Search ν} (h : Sound edges root s)
    (hcurrent : current ∈ s.parent.keys) {e : ν × ν} (he : e ∈ edges) :
    Sound edges root (meet current s e) := by
  unfold Search.meet
  split
  · exact h
  next hmeet =>
    obtain ⟨hsource, hnew⟩ := not_or.mp hmeet
    obtain rfl : e.1 = current := not_not.mp hsource
    have hkeys : (s.parent.set e.2 (some e.1)).keys = s.parent.keys ++ [e.2] := by
      rw [Dict.keys_set, if_neg hnew]
    have hsize : (s.parent.set e.2 (some e.1)).size = s.parent.size + 1 := by
      rw [← Dict.length_keys, hkeys, List.length_append, Dict.length_keys]
      rfl
    refine ⟨?_, ?_, ?_, ?_, ?_⟩
    · show (s.parent.set e.2 _).get? root = _
      have hne : root ≠ e.2 := fun hroot =>
        hnew (hroot ▸ (s.parent.mem_keys_iff root).mpr ⟨_, h.rooted⟩)
      rw [Dict.get?_set, if_neg hne, h.rooted]
    · intro v hv
      show ∃ n, n < (s.parent.set e.2 (some e.1)).size ∧ _
      rw [hsize]
      rcases List.mem_append.mp (hkeys ▸ hv) with hold | hv
      · obtain ⟨n, hn, htrail⟩ := h.trail v hold
        exact ⟨n, Nat.lt_succ_of_lt hn, htrail.meet hnew _⟩
      · obtain rfl := List.mem_singleton.mp hv
        obtain ⟨n, hn, htrail⟩ := h.trail e.1 hcurrent
        refine ⟨n + 1, Nat.succ_lt_succ hn, .step ?_ ?_ (htrail.meet hnew _)⟩
        · show (s.parent.set e.2 _).get? e.2 = _
          rw [Dict.get?_set, if_pos rfl]
        · show (s.edgeTo.set e.2 e).get? e.2 = _
          rw [Dict.get?_set, if_pos rfl]
    · intro v e' he'
      have hget : (s.edgeTo.set e.2 e).get? v = some e' := he'
      rw [Dict.get?_set] at hget
      split at hget
      · exact Option.some.inj hget ▸ he
      · exact h.edge v e' hget
    · intro v hv
      show v ∈ (s.parent.set e.2 _).keys
      rw [hkeys]
      rcases List.mem_append.mp hv with hv | hv
      · exact List.mem_append_left _ (h.queued v hv)
      · exact List.mem_append_right _ hv
    · intro v hv
      rcases List.mem_append.mp (hkeys ▸ hv) with hold | hv
      · exact h.targets v hold
      · exact .inr (List.mem_map.mpr ⟨e, he, (List.mem_singleton.mp hv).symm⟩)

/-- What a part of the search leaves and adds. -/
structure Grows (s s' : Search ν) : Prop where
  kept : ∀ v ∈ s.parent.keys, v ∈ s'.parent.keys
  queued : ∀ v ∈ s.queue, v ∈ s'.queue
  fresh : ∀ v ∈ s'.parent.keys, v ∈ s.parent.keys ∨ v ∈ s'.queue
  count : s'.parent.size + s.queue.length = s.parent.size + s'.queue.length

theorem grows_meet (current : ν) (s : Search ν) (e : ν × ν) : Grows s (meet current s e) := by
  unfold meet
  split
  · exact ⟨fun _ h => h, fun _ h => h, fun _ h => .inl h, rfl⟩
  next hmeet =>
    have hnew := (not_or.mp hmeet).2
    have hkeys : (s.parent.set e.2 (some current)).keys = s.parent.keys ++ [e.2] := by
      rw [Dict.keys_set, if_neg hnew]
    refine ⟨fun v hv => ?_, fun v hv => List.mem_append_left _ hv, fun v hv => ?_, ?_⟩
    · exact hkeys ▸ List.mem_append_left _ hv
    · exact (List.mem_append.mp (hkeys ▸ hv)).imp_right (List.mem_append_right _)
    · show (s.parent.set e.2 _).size + _ = _
      rw [← Dict.length_keys, hkeys]
      simp only [List.length_append, List.length_singleton, Dict.length_keys]
      omega

omit [DecidableEq ν] in
theorem Grows.trans {s s' s'' : Search ν} (h : Grows s s') (h' : Grows s' s'') : Grows s s'' where
  kept := fun v hv => h'.kept v (h.kept v hv)
  queued := fun v hv => h'.queued v (h.queued v hv)
  fresh := fun v hv => (h'.fresh v hv).elim (fun hmid => (h.fresh v hmid).imp_right (h'.queued v)) .inr
  count := by
    have := h.count
    have := h'.count
    omega

/-- Expanding a node meets all it has edges to. -/
theorem expand_spec {root current : ν} {s : Search ν} (h : Sound edges root s)
    (hcurrent : current ∈ s.parent.keys) :
    Sound edges root (expand edges current s) ∧ Grows s (expand edges current s) ∧
      ∀ w, (current, w) ∈ edges → w ∈ (expand edges current s).parent.keys := by
  suffices hpart : ∀ part : List (ν × ν), (∀ e ∈ part, e ∈ edges) → ∀ s : Search ν,
      Sound edges root s → current ∈ s.parent.keys →
      Sound edges root (part.foldl (meet current) s) ∧ Grows s (part.foldl (meet current) s) ∧
        ∀ w, (current, w) ∈ part → w ∈ (part.foldl (meet current) s).parent.keys from
    hpart edges (fun _ he => he) s h hcurrent
  intro part
  induction part with
  | nil =>
    exact fun _ s hs _ =>
      ⟨hs, ⟨fun _ h => h, fun _ h => h, fun _ h => .inl h, rfl⟩, fun _ hw => by cases hw⟩
  | cons e rest ih =>
    intro hpart s hs hcur
    have hgrows := grows_meet current s e
    obtain ⟨hsound, hrest, hmet⟩ := ih (fun e' he' => hpart e' (List.mem_cons_of_mem e he')) _
      (hs.meet hcur (hpart e List.mem_cons_self)) (hgrows.kept current hcur)
    refine ⟨hsound, hgrows.trans hrest, fun w hw => ?_⟩
    rcases List.mem_cons.mp hw with hw | hw
    · refine hrest.kept w ?_
      obtain rfl := hw
      unfold meet
      by_cases hold : w ∈ s.parent.keys
      · simp [hold]
      · simp [hold, Dict.keys_set]
    · exact hmet w hw

/-! ### The rounds -/

/-- Every node that left the queue has been expanded. -/
def Closed (edges : List (ν × ν)) (s : Search ν) : Prop :=
  ∀ u ∈ s.parent.keys, u ∉ s.queue → ∀ w, (u, w) ∈ edges → w ∈ s.parent.keys

/-- No more nodes are met than there are edges, the root apart. -/
theorem Sound.size_le {root : ν} {s : Search ν} (h : Sound edges root s) :
    s.parent.size ≤ edges.length + 1 := by
  have hsub : s.parent.keys ⊆ root :: edges.map Prod.snd := fun v hv =>
    List.mem_cons.mpr (h.targets v hv)
  have hle := (List.subperm_of_subset s.parent.keys_nodup hsub).length_le
  rwa [Dict.length_keys, List.length_cons, List.length_map] at hle

/-- Taking a node from the queue keeps what is known. -/
theorem Sound.pop {root current : ν} {rest : List ν} {s : Search ν} (h : Sound edges root s)
    (hqueue : s.queue = current :: rest) : Sound edges root { s with queue := rest } :=
  ⟨h.rooted, fun v hv => (h.trail v hv).imp (fun _ ht => ⟨ht.1, ht.2.requeue rest⟩), h.edge,
    fun v hv => h.queued v (by simp [hqueue, hv]), h.targets⟩

/-- **The rounds meet the target or everything there is to meet.** -/
theorem rounds_spec (edges : List (ν × ν)) {root : ν} (target : ν) :
    ∀ (n : Nat) (s : Search ν), Sound edges root s →
    Closed edges s → edges.length + 1 + s.queue.length ≤ n + s.parent.size →
    Sound edges root (rounds edges target n s) ∧
      (target ∈ (rounds edges target n s).parent.keys ∨
        ∀ u ∈ (rounds edges target n s).parent.keys, ∀ w, (u, w) ∈ edges →
          w ∈ (rounds edges target n s).parent.keys) := by
  intro n
  induction n with
  | zero =>
    intro s hs hclosed hbound
    have hsize := hs.size_le
    have hempty : s.queue = [] := List.length_eq_zero_iff.mp (by omega)
    exact ⟨hs, .inr (fun u hu => hclosed u hu (by simp [hempty]))⟩
  | succ n ih =>
    intro s hs hclosed hbound
    unfold rounds
    cases hqueue : s.queue with
    | nil => exact ⟨hs, .inr (fun u hu => hclosed u hu (by simp [hqueue]))⟩
    | cons current rest =>
      have hcurrent : current ∈ s.parent.keys := hs.queued current (by simp [hqueue])
      simp only
      by_cases htarget : current = target
      · rw [if_pos htarget]
        exact ⟨hs, .inl (htarget ▸ hcurrent)⟩
      · rw [if_neg htarget]
        obtain ⟨hsound, hgrows, hmet⟩ := expand_spec (hs.pop hqueue) hcurrent
        refine ih _ hsound ?_ ?_
        · intro u hu hleft w hw
          rcases hgrows.fresh u hu with hold | hqueued
          · by_cases hu' : u = current
            · exact hmet w (hu' ▸ hw)
            · refine hgrows.kept w (hclosed u hold ?_ w hw)
              rw [hqueue, List.mem_cons]
              rintro (h | h)
              · exact hu' h
              · exact hleft (hgrows.queued u h)
          · exact absurd hqueued hleft
        · have hcount := hgrows.count
          rw [hqueue, List.length_cons] at hbound
          simp only at hcount
          omega

/-! ### The path -/

theorem back_isPath {root : ν} {s : Search ν} (h : Sound edges root s) {v : ν} {n : Nat}
    (htrail : Trail s root n v) {fuel : Nat} (hfuel : n < fuel) :
    IsPath edges root (back s root fuel v).reverse v ∧ (v ≠ root → back s root fuel v ≠ []) := by
  induction htrail generalizing fuel with
  | root =>
    cases fuel with
    | zero => exact absurd hfuel (Nat.not_lt_zero _)
    | succ fuel => simp [back, IsPath]
  | @step n u v hparent hedge rest ih =>
    cases fuel with
    | zero => exact absurd hfuel (Nat.not_lt_zero _)
    | succ fuel =>
      have hne : v ≠ root := by
        rintro rfl
        rw [h.rooted] at hparent
        cases hparent
      rw [back, if_neg hne, hedge, hparent]
      refine ⟨?_, fun _ => List.cons_ne_nil _ _⟩
      rw [List.reverse_cons]
      exact isPath_append (ih (Nat.lt_of_succ_lt_succ hfuel)).1 (h.edge v _ hedge)

omit [DecidableEq ν] in
theorem mem_of_reachable {root target : ν} {keys : List ν} (hroot : root ∈ keys)
    (hclosed : ∀ u ∈ keys, ∀ w, (u, w) ∈ edges → w ∈ keys) (h : Reachable edges root target) :
    target ∈ keys := by
  induction h with
  | refl => exact hroot
  | tail _ hstep ih => exact hclosed _ ih _ hstep

theorem resolve_spec (edges : List (ν × ν)) (root target : ν) :
    (Reachable edges root target ∧ IsPath edges root (resolve edges root target) target ∧
        (target ≠ root → resolve edges root target ≠ [])) ∨
      (¬ Reachable edges root target ∧ resolve edges root target = []) := by
  obtain ⟨hsound, hmet⟩ := rounds_spec edges target (edges.length + 1)
    (start root) (sound_start root)
    (fun u hu hleft => absurd (List.mem_singleton.mpr (mem_start.mp hu)) hleft) (Nat.le_refl _)
  unfold resolve
  by_cases htarget : target ∈ (rounds edges target (edges.length + 1) (start root)).parent.keys
  · rw [if_neg (not_not.mpr htarget)]
    obtain ⟨n, hn, htrail⟩ := hsound.trail target htarget
    obtain ⟨hpath, hne⟩ := back_isPath hsound htrail hn
    exact .inl ⟨hpath.reachable, hpath, fun h => by simpa using hne h⟩
  · rw [if_pos htarget]
    refine .inr ⟨fun hreach => htarget ?_, rfl⟩
    have hclosed := hmet.resolve_left htarget
    have hroot := ((rounds edges target (edges.length + 1) (start root)).parent.mem_keys_iff root).mpr
      ⟨_, hsound.rooted⟩
    exact mem_of_reachable hroot hclosed hreach

/-- **A path is found exactly when there is one.** -/
theorem resolve_ne_nil_iff (edges : List (ν × ν)) {root target : ν} (h : target ≠ root) :
    resolve edges root target ≠ [] ↔ Reachable edges root target := by
  rcases resolve_spec edges root target with ⟨hreach, -, hne⟩ | ⟨hreach, hnil⟩
  · exact iff_of_true (hne h) hreach
  · exact iff_of_false (not_not.mpr hnil) hreach

/-- **What is found is a path.** -/
theorem resolve_isPath {root target : ν} (h : Reachable edges root target) :
    IsPath edges root (resolve edges root target) target := by
  rcases resolve_spec edges root target with ⟨-, hpath, -⟩ | ⟨hreach, -⟩
  · exact hpath
  · exact absurd h hreach

end Search
end AgentKernel.Lib
