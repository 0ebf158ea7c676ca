import Mathlib.Data.Option.Basic
import AgentKernel.Lib.Run

/-! Replicas of a shared log that are also written to directly.

An entry of a key is opened, at a first state, and then marked with states, and it may be
opened again. A writer changes its own replica at once and adds the change to the log; a
reader replays over its replica what it has not yet read of the log. The replay is
additive: an opening does nothing to an entry that is there (`absorb`), where the writer
started it again (`Touch.state`). What a replica and the rest of the log have to do with each
other is `Synced`, kept by every step; so every reader reports the state the last change
left exactly when no opening is hidden by an earlier mark (`Synced.report`,
`report_none_iff`). -/
namespace AgentKernel.Lib.Replica

variable {S : Type}

/-- A change of one entry. -/
inductive Touch (S : Type) where
  | opened
  | marked (state : S)

def Touch.mark? : Touch S → Option S
  | .opened => none
  | .marked state => some state

section
variable (first : S)

/-- The state a change leaves. -/
def Touch.state : Touch S → S
  | .opened => first
  | .marked state => state

/-- A change, read from the log. -/
def absorb (entry : Option S) : Touch S → Option S
  | .opened => entry.or (some first)
  | .marked state => entry.map (fun _ => state)

/-- The state the last change left. -/
def lastState (log : List (Touch S)) : Option S := log.getLast?.map (Touch.state first)

end

/-- The state of the last mark. -/
def lastMark (log : List (Touch S)) : Option S := (log.filterMap Touch.mark?).getLast?

/-- The last change is a mark, or its opening finds the entry marked with nothing but the
first state. -/
def Unhidden (first : S) (log : List (Touch S)) : Prop :=
  log.getLast? = some .opened → (lastMark log).getD first = first

/-- Nothing is marked before it is opened. -/
def Started : List (Touch S) → Prop
  | .marked _ :: _ => False
  | _ => True

theorem Started.append {a b : List (Touch S)} (h : Started a) (hne : a ≠ []) : Started (a ++ b) := by
  cases a with
  | nil => exact absurd rfl hne
  | cons t rest =>
    cases t with
    | opened => exact trivial
    | marked state => exact h.elim

theorem lastMark_append_opened (log : List (Touch S)) : lastMark (log ++ [.opened]) = lastMark log := by
  simp [lastMark, Touch.mark?]

theorem lastMark_append_marked (log : List (Touch S)) (state : S) :
    lastMark (log ++ [.marked state]) = some state := by
  simp [lastMark, Touch.mark?]

theorem lastMark_append (a b : List (Touch S)) : lastMark (a ++ b) = (lastMark b).or (lastMark a) := by
  unfold lastMark
  rw [List.filterMap_append, List.getLast?_append]

/-- A log that ends in a mark. -/
theorem lastMark_of_getLast {log : List (Touch S)} {state : S} (h : log.getLast? = some (.marked state)) :
    lastMark log = some state := by
  rcases List.eq_nil_or_concat log with rfl | ⟨front, t, rfl⟩
  · cases h
  · rw [List.concat_eq_append, List.getLast?_append] at h
    obtain rfl : t = .marked state := by simpa using h
    rw [List.concat_eq_append, lastMark_append_marked]

/-! ### Replays -/

/-- Over an entry that is there only the marks count. -/
theorem run_absorb_some (first : S) (state : S) (log : List (Touch S)) :
    run (absorb first) (some state) log = some ((lastMark log).getD state) := by
  induction log generalizing state with
  | nil => rfl
  | cons t rest ih =>
    cases t with
    | opened => exact ih state
    | marked next =>
      have hlast : lastMark (.marked next :: rest) = (lastMark rest).or (some next) :=
        lastMark_append [.marked next] rest
      rw [run_cons, absorb, Option.map_some, ih next, hlast]
      cases lastMark rest <;> rfl

/-- A replay from nothing keeps the last mark. -/
theorem run_absorb_none (first : S) {log : List (Touch S)} (h : Started log) (hne : log ≠ []) :
    run (absorb first) none log = some ((lastMark log).getD first) := by
  cases log with
  | nil => exact absurd rfl hne
  | cons t rest =>
    cases t with
    | opened => exact run_absorb_some first first rest
    | marked state => exact h.elim

/-- **Who reads the whole log reports the last state exactly when no opening is hidden.** -/
theorem report_none_iff (first : S) {log : List (Touch S)} (h : Started log) :
    run (absorb first) none log = lastState first log ↔ Unhidden first log := by
  rcases List.eq_nil_or_concat log with rfl | ⟨front, t, rfl⟩
  · simp [lastState, Unhidden]
  · rw [run_absorb_none first h (by simp), lastState, Unhidden, List.concat_eq_append,
      List.getLast?_append, List.getLast?_singleton, Option.some_or]
    cases t with
    | opened => simp [Touch.state]
    | marked state => simp [lastMark_append_marked, Touch.state]

/-! ### Replicas -/

/-- A replica, what it has read of the log, and what it has not. -/
structure Synced (first : S) (seen unseen : List (Touch S)) (entry : Option S) : Prop where
  started : Started (seen ++ unseen)
  present : seen ≠ [] → entry.isSome = true
  known : entry.isSome = true → seen ++ unseen ≠ []
  /-- Without a mark to come, the entry is as the last mark left it, or was opened again. -/
  state : ∀ state, entry = some state → lastMark unseen = none →
    state = (lastMark (seen ++ unseen)).getD first ∨
      state = first ∧ (seen ++ unseen).getLast? = some .opened

variable {first : S} {seen unseen : List (Touch S)} {entry : Option S}

/-- A new replica. -/
theorem synced_none (h : Started unseen) : Synced first [] unseen none where
  started := h
  present := fun hne => absurd rfl hne
  known := fun hsome => nomatch hsome
  state := fun _ hsome => nomatch hsome

/-- Somebody else's change. -/
theorem Synced.append (h : Synced first seen unseen entry) (t : Touch S)
    (hstarted : Started (seen ++ (unseen ++ [t]))) : Synced first seen (unseen ++ [t]) entry where
  started := hstarted
  present := h.present
  known := by
    intro _
    simp
  state := by
    intro state hentry hmarks
    cases t with
    | marked next =>
      rw [lastMark_append_marked] at hmarks
      cases hmarks
    | opened =>
      rw [lastMark_append_opened] at hmarks
      rw [← List.append_assoc, lastMark_append_opened, List.getLast?_append, List.getLast?_singleton,
        Option.some_or]
      rcases h.state state hentry hmarks with hlast | ⟨hfirst, _⟩
      · exact .inl hlast
      · exact .inr ⟨hfirst, rfl⟩

/-- A change of the replica's own. -/
theorem synced_write (t : Touch S) (hstarted : Started (seen ++ (unseen ++ [t]))) :
    Synced first seen (unseen ++ [t]) (some (t.state first)) where
  started := hstarted
  present := fun _ => rfl
  known := by
    intro _
    simp
  state := by
    intro state hentry hmarks
    cases t with
    | marked next =>
      rw [lastMark_append_marked] at hmarks
      cases hmarks
    | opened =>
      obtain rfl : first = state := Option.some.inj hentry
      right
      rw [← List.append_assoc, List.getLast?_append]
      exact ⟨rfl, rfl⟩

/-- What a reader reports, of an entry that is there or to come. -/
theorem Synced.run_absorb (h : Synced first seen unseen entry) (hne : seen ++ unseen ≠ []) :
    ∃ state, run (absorb first) entry unseen = some state ∧
      (state = (lastMark (seen ++ unseen)).getD first ∨
        state = first ∧ (seen ++ unseen).getLast? = some .opened) := by
  cases hentry : entry with
  | none =>
    have hseen : seen = [] := by
      by_contra hseen
      have hpresent := h.present hseen
      rw [hentry] at hpresent
      cases hpresent
    subst hseen
    exact ⟨_, run_absorb_none first h.started hne, .inl rfl⟩
  | some state =>
    refine ⟨_, run_absorb_some first state unseen, ?_⟩
    cases hmarks : lastMark unseen with
    | some mark =>
      left
      rw [lastMark_append, hmarks, Option.some_or]
      rfl
    | none => exact h.state state hentry hmarks

/-- A reader has read the whole log. -/
theorem Synced.read (h : Synced first seen unseen entry) :
    Synced first (seen ++ unseen) [] (run (absorb first) entry unseen) := by
  have hall : (seen ++ unseen) ++ [] = seen ++ unseen := List.append_nil _
  by_cases hne : seen ++ unseen = []
  · obtain ⟨rfl, rfl⟩ := List.append_eq_nil_iff.mp hne
    have hnone : entry = none := by
      cases hentry : entry with
      | none => rfl
      | some state => exact absurd rfl (h.known (by rw [hentry]; rfl))
    subst hnone
    exact synced_none trivial
  · obtain ⟨state, hreport, hstate⟩ := h.run_absorb hne
    rw [hreport]
    refine ⟨hall.symm ▸ h.started, fun _ => rfl, fun _ => hall.symm ▸ hne, ?_⟩
    intro state' hstate' _
    obtain rfl : state = state' := Option.some.inj hstate'
    rw [hall]
    exact hstate

/-- **Every reader reports the last state, where no opening is hidden.** -/
theorem Synced.report (h : Synced first seen unseen entry) (hunhidden : Unhidden first (seen ++ unseen)) :
    run (absorb first) entry unseen = lastState first (seen ++ unseen) := by
  by_cases hne : seen ++ unseen = []
  · obtain ⟨rfl, rfl⟩ := List.append_eq_nil_iff.mp hne
    cases hentry : entry with
    | none => rfl
    | some state => exact absurd rfl (h.known (by rw [hentry]; rfl))
  · obtain ⟨state, hreport, hstate⟩ := h.run_absorb hne
    rw [hreport, lastState]
    cases hlast : (seen ++ unseen).getLast? with
    | none => exact absurd (List.getLast?_eq_none_iff.mp hlast) hne
    | some t =>
      rw [Option.map_some, Option.some.injEq]
      cases t with
      | opened =>
        rcases hstate with hmark | ⟨hfirst, _⟩
        · exact hmark.trans (hunhidden hlast)
        · exact hfirst
      | marked mark =>
        rcases hstate with hmark | ⟨_, hopened⟩
        · rw [hmark, lastMark_of_getLast hlast]
          rfl
        · rw [hlast] at hopened
          cases hopened

/-! ### Many entries in one log -/

section
variable {E : Type} {touch : E → Option (Touch S)}

/-- Only an entry that is there is marked. -/
theorem started_extend {log : List E} (h : Started (log.filterMap touch)) (e : E)
    (hmark : ∀ t, touch e = some t → t.mark?.isSome = true → log.filterMap touch ≠ []) :
    Started ((log ++ [e]).filterMap touch) := by
  rw [List.filterMap_append]
  cases htouch : touch e with
  | none =>
    rw [List.filterMap_cons_none htouch, List.filterMap_nil, List.append_nil]
    exact h
  | some t =>
    rw [List.filterMap_cons_some htouch, List.filterMap_nil]
    by_cases hempty : log.filterMap touch = []
    · rw [hempty, List.nil_append]
      cases t with
      | opened => trivial
      | marked state => exact absurd hempty (hmark _ htouch rfl)
    · exact h.append hempty

/-- A change of this entry, the replica's own or somebody else's, or one of another. -/
theorem synced_extend {log later : List E}
    (h : Synced first (log.filterMap touch) (later.filterMap touch) entry) {e : E} {entry' : Option S}
    (hstarted : Started ((log ++ (later ++ [e])).filterMap touch))
    (htouched : ∀ t, touch e = some t → entry' = entry ∨ entry' = some (t.state first))
    (hother : touch e = none → entry' = entry) :
    Synced first (log.filterMap touch) ((later ++ [e]).filterMap touch) entry' := by
  rw [List.filterMap_append, List.filterMap_append] at hstarted
  rw [List.filterMap_append]
  cases htouch : touch e with
  | none =>
    rw [List.filterMap_cons_none htouch, List.filterMap_nil, List.append_nil, hother htouch]
    exact h
  | some t =>
    rw [List.filterMap_cons_some htouch, List.filterMap_nil] at hstarted ⊢
    rcases htouched t htouch with rfl | rfl
    · exact h.append t hstarted
    · exact synced_write t hstarted

end

/-- An entry of a replica that reads changes of many entries. -/
theorem entry_run {R E : Type} {next : R → E → R} (entry : R → Option S) {touch : E → Option (Touch S)}
    {first : S} {P : E → Prop}
    (step : ∀ r e, P e → entry (next r e) = (touch e).elim (entry r) (absorb first (entry r)))
    (r : R) (es : List E) (hes : ∀ e ∈ es, P e) :
    entry (run next r es) = run (absorb first) (entry r) (es.filterMap touch) := by
  induction es generalizing r with
  | nil => rfl
  | cons e rest ih =>
    rw [run_cons, ih (next r e) (fun e' he' => hes e' (List.mem_cons_of_mem e he')),
      step r e (hes e List.mem_cons_self)]
    cases htouch : touch e with
    | none => rw [List.filterMap_cons_none htouch, Option.elim_none]
    | some t => rw [List.filterMap_cons_some htouch, Option.elim_some, run_cons]

/-! ### Sets -/

/-- A replica of a set that is only added to: what it has read is in it, and what is in it
is in the log. -/
structure Grown {E A : Type} (name : E → Option A) (seen unseen : List E) (held : A → Prop) : Prop where
  read : ∀ e ∈ seen, ∀ a, name e = some a → held a
  known : ∀ a, held a → ∃ e ∈ seen ++ unseen, name e = some a

section
variable {E A : Type} {name : E → Option A} {earlier later : List E} {held : A → Prop}

theorem grown_none (later : List E) (hnone : ∀ a, ¬ held a) : Grown name [] later held where
  read := fun _ h => absurd h List.not_mem_nil
  known := fun a h => absurd h (hnone a)

/-- A change of the replica's own, or somebody else's. -/
theorem Grown.append (h : Grown name earlier later held) (e : E) {held' : A → Prop}
    (hgrows : ∀ a, held a → held' a) (hown : ∀ a, held' a → held a ∨ name e = some a) :
    Grown name earlier (later ++ [e]) held' where
  read := fun e' he' a ha => hgrows a (h.read e' he' a ha)
  known := by
    intro a ha
    rcases hown a ha with ha | ha
    · obtain ⟨e', he', hname⟩ := h.known a ha
      rcases List.mem_append.mp he' with he' | he'
      · exact ⟨e', List.mem_append_left _ he', hname⟩
      · exact ⟨e', List.mem_append_right _ (List.mem_append_left _ he'), hname⟩
    · exact ⟨e, by simp, ha⟩

/-- A reader has read the whole log. -/
theorem Grown.reading (h : Grown name earlier later held) {held' : A → Prop}
    (hadds : ∀ a, held' a ↔ held a ∨ ∃ e ∈ later, name e = some a) :
    Grown name (earlier ++ later) [] held' where
  read := by
    intro e he a ha
    rcases List.mem_append.mp he with he | he
    · exact (hadds a).mpr (.inl (h.read e he a ha))
    · exact (hadds a).mpr (.inr ⟨e, he, ha⟩)
  known := by
    intro a ha
    rw [List.append_nil]
    rcases (hadds a).mp ha with ha | ⟨e, he, hname⟩
    · exact h.known a ha
    · exact ⟨e, List.mem_append_right _ he, hname⟩

/-- What a replica holds after reading. -/
theorem held_run {R : Type} {next : R → E → R} (holds : R → A → Prop)
    (step : ∀ r e a, holds (next r e) a ↔ holds r a ∨ name e = some a) (r : R) (es : List E) (a : A) :
    holds (run next r es) a ↔ holds r a ∨ ∃ e ∈ es, name e = some a := by
  induction es generalizing r with
  | nil => simp
  | cons e rest ih => rw [run_cons, ih, step, or_assoc, List.exists_mem_cons_iff]

/-- **What a reader holds is what the log names.** -/
theorem Grown.iff_named (h : Grown name earlier [] held) (a : A) :
    held a ↔ ∃ e ∈ earlier, name e = some a := by
  constructor
  · intro ha
    have hknown := h.known a ha
    rwa [List.append_nil] at hknown
  · rintro ⟨e, he, hname⟩
    exact h.read e he a hname

end

end AgentKernel.Lib.Replica
