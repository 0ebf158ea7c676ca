import AgentKernel.Lib.Linearizable

/-! Sessions that take one lock each.

A transaction that needs no second lock once it has one never waits while it holds it
(`Orderly.finishes_holder`). So nobody waits for ever: from every state that such sessions
reach, each open transaction can be brought to its end by steps of the sessions, without
breaking any of them off (`run_finishes`). -/
namespace AgentKernel.Lib

/-- The transaction, which has this lock or none, needs no second one. -/
def Tx.OneLock {ε δ κ α : Type} : Tx ε δ κ α → Option κ → Prop
  | .commit _, _ => True
  | .rollback _, _ => True
  | .statement needs _ next, held => ∀ d,
      (held ≠ none → needs d = none ∨ needs d = held) ∧ (next d).OneLock (held.or (needs d))
  | .draw next, held => ∀ n, (next n).OneLock held

theorem Tx.OneLock.exec {ε δ κ α β : Type} {needs : δ → Option κ} {f : δ → Except ε (β × δ)}
    {k : β → Tx ε δ κ α} {held : Option κ} (hneeds : held ≠ none → ∀ d, needs d = none ∨ needs d = held)
    (hk : ∀ b d, (k b).OneLock (held.or (needs d))) : (Tx.exec needs f k).OneLock held := by
  intro d
  refine ⟨fun hheld => hneeds hheld d, ?_⟩
  show (Tx.after k (f d)).OneLock _
  cases f d with
  | ok r => exact hk r.1 d
  | error e => exact trivial

section
variable {ι ε δ κ γ α : Type} [DecidableEq ι] {program : γ → Tx ε δ κ α}

/-- What a session holds is this lock, or nothing. -/
def Server.Holds (s : Server ι ε δ κ γ α) (i : ι) (held : Option κ) : Prop :=
  ∀ k, s.holder k = some i ↔ held = some k

/-- A session has ended, its locks are free and the others are where they were. -/
structure Server.Left (s s' : Server ι ε δ κ γ α) (i : ι) : Prop where
  ended : s'.sessions i = none
  others : ∀ j, j ≠ i → s'.sessions j = s.sessions j
  holder : ∀ k, s'.holder k = if s.holder k = some i then none else s.holder k

theorem Server.left_close (s : Server ι ε δ κ γ α) (i : ι) (hist : History ι ε δ γ α) :
    s.Left (s.close i hist) i :=
  ⟨Function.update_self .., fun _ hne => Function.update_of_ne hne .., fun _ => rfl⟩

/-- Every session has one lock at most and will need no second; finitely many are open. -/
structure Orderly (s : Server ι ε δ κ γ α) : Prop where
  busy : ∀ i o, s.sessions i = some o → ∃ held, s.Holds i held ∧ o.rest.OneLock held
  idle : ∀ i, s.sessions i = none → s.Holds i none
  finite : ∃ l : List ι, ∀ i, s.sessions i ≠ none → i ∈ l

namespace Orderly
variable {s : Server ι ε δ κ γ α}

/-- A session that ends lets go of what it had, and nothing else changes. -/
theorem close (h : Orderly s) (i : ι) (hist : History ι ε δ γ α) : Orderly (s.close i hist) where
  busy := by
    intro j o ho
    obtain ⟨hne, ho⟩ := Disciplined.others_close ho
    obtain ⟨held, hheld, hone⟩ := h.busy j o ho
    refine ⟨held, fun k => ?_, hone⟩
    rw [← hheld k]
    exact iff_of_eq (congrFun (Disciplined.holder_close hne hist) k)
  idle := by
    intro j hj k
    by_cases hne : j = i
    · subst hne
      simp only [Server.close, reduceCtorEq, iff_false]
      split
      · simp
      · rename_i hk
        exact hk
    · have hidle : Function.update s.sessions i none j = none := hj
      rw [Function.update_of_ne hne] at hidle
      rw [← h.idle j hidle k]
      exact iff_of_eq (congrFun (Disciplined.holder_close hne hist) k)
  finite := by
    obtain ⟨l, hl⟩ := h.finite
    refine ⟨l, fun j hj => hl j (fun hnone => hj ?_)⟩
    show Function.update s.sessions i none j = none
    by_cases hne : j = i
    · rw [hne, Function.update_self]
    · rw [Function.update_of_ne hne, hnone]

/-- A session that goes on with a lock of its own. -/
theorem move (h : Orderly s) {i : ι} {o : Session ε δ κ γ α} {drawn : Nat} {holder : κ → Option ι}
    {held : Option κ} (hheld : ∀ k, holder k = some i ↔ held = some k)
    (hothers : ∀ j, j ≠ i → (fun k => holder k = some j) = fun k => s.holder k = some j)
    (hone : o.rest.OneLock held) :
    Orderly ⟨s.history, drawn, holder, Function.update s.sessions i (some o)⟩ where
  busy := by
    intro j o' ho'
    by_cases hne : j = i
    · subst hne
      have ho' : Function.update s.sessions j (some o) j = some o' := ho'
      rw [Function.update_self, Option.some.injEq] at ho'
      subst ho'
      exact ⟨held, hheld, hone⟩
    · have ho' : Function.update s.sessions i (some o) j = some o' := ho'
      rw [Function.update_of_ne hne] at ho'
      obtain ⟨held', hheld', hone'⟩ := h.busy j o' ho'
      refine ⟨held', fun k => ?_, hone'⟩
      rw [← hheld' k]
      exact iff_of_eq (congrFun (hothers j hne) k)
  idle := by
    intro j hj k
    have hj : Function.update s.sessions i (some o) j = none := hj
    by_cases hne : j = i
    · rw [hne, Function.update_self] at hj
      cases hj
    · rw [Function.update_of_ne hne] at hj
      rw [← h.idle j hj k]
      exact iff_of_eq (congrFun (hothers j hne) k)
  finite := by
    obtain ⟨l, hl⟩ := h.finite
    refine ⟨i :: l, fun j hj => ?_⟩
    have hj : Function.update s.sessions i (some o) j ≠ none := hj
    by_cases hne : j = i
    · rw [hne]
      exact List.mem_cons_self
    · rw [Function.update_of_ne hne] at hj
      exact List.mem_cons_of_mem _ (hl j hj)

variable [DecidableEq κ]

omit [DecidableEq ι] in
/-- The lock a session has after a statement for which it was free. -/
theorem holds_locked {i : ι} {held need : Option κ} (hheld : s.Holds i held)
    (hone : held ≠ none → need = none ∨ need = held) (k : κ) :
    s.locked i need k = some i ↔ held.or need = some k := by
  rw [Disciplined.holds_locked, hheld k]
  cases held with
  | none => simp
  | some k' =>
    rcases hone (by simp) with hneed | hneed <;> simp [hneed]

theorem next (hprogram : ∀ call, (program call).OneLock none) (h : Orderly s) (step : SessionStep ι γ) :
    Orderly (s.next program step) := by
  cases step with
  | start i call =>
    simp only [Server.next]
    cases hi : s.sessions i with
    | some o => exact h
    | none => exact h.move (h.idle i hi) (fun _ _ => rfl) (hprogram call)
  | abort i => exact h.close i _
  | advance i =>
    simp only [Server.next]
    cases hi : s.sessions i with
    | none => exact h
    | some o =>
      obtain ⟨held, hheld, hone⟩ := h.busy i o hi
      simp only [Option.map_some, Option.getD_some, Server.advance]
      cases hrest : o.rest with
      | commit a => exact h.close i _
      | rollback e => exact h.close i _
      | statement needs write cont =>
        rw [hrest] at hone
        obtain ⟨hneeds, hcont⟩ := hone (o.redo s.current)
        dsimp only
        split
        · rename_i hfree
          exact h.move (holds_locked hheld hneeds) (fun j hne => Disciplined.others_locked hne hfree) hcont
        · exact h
      | draw cont =>
        rw [hrest] at hone
        exact h.move hheld (fun _ _ => rfl) (hone s.drawn)

end Orderly

variable [DecidableEq κ]

/-- **A session that has its lock comes to its end by its own steps.** -/
theorem Orderly.finishes_holder (program : γ → Tx ε δ κ α) (t : Tx ε δ κ α) (s : Server ι ε δ κ γ α)
    {i : ι} {o : Session ε δ κ γ α}
    (ho : s.sessions i = some o) (ht : o.rest = t) {lock : κ} (hheld : s.Holds i (some lock))
    (hone : t.OneLock (some lock)) :
    ∃ n, s.Left (run (Server.next program) s (List.replicate n (.advance i))) i := by
  induction t generalizing s o with
  | commit a =>
    refine ⟨1, ?_⟩
    simp only [List.replicate, run_cons, run_nil, Server.next, ho, Option.map_some, Option.getD_some,
      Server.advance, ht]
    exact s.left_close i _
  | rollback e =>
    refine ⟨1, ?_⟩
    simp only [List.replicate, run_cons, run_nil, Server.next, ho, Option.map_some, Option.getD_some,
      Server.advance, ht]
    exact s.left_close i _
  | statement needs write cont ih =>
    obtain ⟨hneeds, hcont⟩ := hone (o.redo s.current)
    have hneeds := hneeds (by simp)
    have hfree : (needs (o.redo s.current)).all (s.free i) = true := by
      rcases hneeds with hneed | hneed
      · rw [hneed]
        rfl
      · rw [hneed, Option.all_some, Server.free, (hheld lock).mpr rfl, Option.all_some, decide_eq_true_eq]
    have hholder : s.locked i (needs (o.redo s.current)) = s.holder := by
      rcases hneeds with hneed | hneed
      · rw [hneed]
        rfl
      · rw [hneed, Server.locked, Function.update_eq_self_iff]
        exact ((hheld lock).mpr rfl).symm
    have hstep : s.next program (.advance i) =
        { s with sessions := Function.update s.sessions i
                  (some { o with redo := fun d => write (o.redo s.current) (o.redo d)
                                 rest := cont (o.redo s.current) }) } := by
      simp only [Server.next, ho, Option.map_some, Option.getD_some, Server.advance, ht, hfree, if_true,
        hholder]
    obtain ⟨n, hended, hothers, hfinal⟩ := ih (o.redo s.current) (s.next program (.advance i))
      (o := { o with redo := fun d => write (o.redo s.current) (o.redo d), rest := cont (o.redo s.current) })
      (by rw [hstep]; exact Function.update_self ..) rfl (by rw [hstep]; exact hheld)
      hcont
    refine ⟨n + 1, hended, fun j hne => ?_, fun k => ?_⟩
    · rw [List.replicate_succ, run_cons, hothers j hne, hstep]
      exact Function.update_of_ne hne ..
    · rw [List.replicate_succ, run_cons, hfinal k, hstep]
  | draw cont ih =>
    have hstep : s.next program (.advance i) =
        { s with
          drawn := s.drawn + 1
          sessions := Function.update s.sessions i
            (some { o with drew := o.drew ++ [s.drawn], rest := cont s.drawn }) } := by
      simp only [Server.next, ho, Option.map_some, Option.getD_some, Server.advance, ht]
    obtain ⟨n, hended, hothers, hfinal⟩ := ih s.drawn (s.next program (.advance i))
      (o := { o with drew := o.drew ++ [s.drawn], rest := cont s.drawn })
      (by rw [hstep]; exact Function.update_self ..) rfl (by rw [hstep]; exact hheld) (hone s.drawn)
    refine ⟨n + 1, hended, fun j hne => ?_, fun k => ?_⟩
    · rw [List.replicate_succ, run_cons, hothers j hne, hstep]
      exact Function.update_of_ne hne ..
    · rw [List.replicate_succ, run_cons, hfinal k, hstep]

/-- The sessions other than this one, brought to their ends as far as they hold anything. -/
theorem Orderly.cleared (hprogram : ∀ call, (program call).OneLock none) (i : ι) (l : List ι)
    {s : Server ι ε δ κ γ α} (h : Orderly s) (hl : ∀ k j, s.holder k = some j → j = i ∨ j ∈ l) :
    ∃ steps : List (SessionStep ι γ), (∀ step ∈ steps, ∃ j, step = .advance j) ∧
      (run (Server.next program) s steps).sessions i = s.sessions i ∧
      ∀ k j, (run (Server.next program) s steps).holder k = some j → j = i := by
  induction l generalizing s with
  | nil =>
    refine ⟨[], fun _ hstep => (nomatch hstep), rfl, fun k j hk => ?_⟩
    rcases hl k j hk with hj | hj
    · exact hj
    · cases hj
  | cons j rest ih =>
    have hskip : (∀ k, s.holder k ≠ some j) ∨ j = i → ∀ k j', s.holder k = some j' → j' = i ∨ j' ∈ rest := by
      intro hj k j' hk
      rcases hl k j' hk with hi | hmem
      · exact .inl hi
      · rcases List.mem_cons.mp hmem with rfl | hmem
        · rcases hj with hnone | hi
          · exact absurd hk (hnone k)
          · exact .inl hi
        · exact .inr hmem
    by_cases hji : j = i
    · exact ih h (hskip (.inr hji))
    · cases hsession : s.sessions j with
      | none =>
        have hidle := h.idle j hsession
        exact ih h (hskip (.inl fun k hk => nomatch (hidle k).mp hk))
      | some o =>
        obtain ⟨held, hheld, hone⟩ := h.busy j o hsession
        cases held with
        | none => exact ih h (hskip (.inl fun k hk => nomatch (hheld k).mp hk))
        | some lock =>
          obtain ⟨n, hleft⟩ := Orderly.finishes_holder program _ s hsession rfl hheld hone
          have horderly : Orderly (run (Server.next program) s (List.replicate n (.advance j))) :=
            run_invariant (fun _ step hs => hs.next hprogram step) h _
          obtain ⟨steps, hsteps, hsame, hclear⟩ := ih horderly (by
            intro k j' hk
            rw [hleft.holder] at hk
            split at hk
            · cases hk
            · rename_i hnot
              rcases hl k j' hk with hi | hmem
              · exact .inl hi
              · rcases List.mem_cons.mp hmem with rfl | hmem
                · exact absurd hk hnot
                · exact .inr hmem)
          refine ⟨List.replicate n (.advance j) ++ steps, ?_, ?_, ?_⟩
          · intro step hstep
            rcases List.mem_append.mp hstep with hstep | hstep
            · exact ⟨j, List.eq_of_mem_replicate hstep⟩
            · exact hsteps step hstep
          · rw [run_append, hsame, hleft.others i (Ne.symm hji)]
          · rw [run_append]
            exact hclear

/-- **Nobody waits for ever**: whatever the sessions have done, each open transaction can be
brought to its end by steps of the sessions alone. -/
theorem run_finishes (hprogram : ∀ call, (program call).OneLock none) (d : δ)
    (steps : List (SessionStep ι γ)) (i : ι) :
    ∃ more : List (SessionStep ι γ), (∀ step ∈ more, ∃ j, step = .advance j) ∧
      (run (Server.next program) (.init d : Server ι ε δ κ γ α) (steps ++ more)).sessions i = none ∧
      ∀ o ∈ (run (Server.next program) (.init d : Server ι ε δ κ γ α) steps).sessions i,
        ∃ e ∈ (run (Server.next program) (.init d : Server ι ε δ κ γ α) (steps ++ more)).history.entries,
          e.session = i ∧ e.call = o.call ∧ e.since = o.since := by
  have horderly : Orderly (run (Server.next program) (.init d : Server ι ε δ κ γ α) steps) := by
    refine run_invariant (I := Orderly) (fun _ step hs => hs.next hprogram step) ?_ steps
    exact ⟨fun _ _ ho => (nomatch ho), fun _ _ _ => by simp [Server.init], [], fun _ ho => absurd rfl ho⟩
  obtain ⟨l, hl⟩ := horderly.finite
  cases hsession : (run (Server.next program) (.init d : Server ι ε δ κ γ α) steps).sessions i with
  | none =>
    refine ⟨[], fun _ hstep => (nomatch hstep), ?_, fun o ho => (nomatch ho)⟩
    rw [List.append_nil, hsession]
  | some o =>
    obtain ⟨others, hothers, hsame, hclear⟩ := horderly.cleared hprogram i l (by
      intro k j hk
      refine .inr (hl j (fun hnone => ?_))
      exact nomatch (horderly.idle j hnone k).mp hk)
    obtain ⟨n, hhistory, hended⟩ := Server.finishes program o.rest _ (hsame.trans hsession) rfl hclear
    refine ⟨others ++ List.replicate n (.advance i), ?_, ?_, ?_⟩
    · intro step hstep
      rcases List.mem_append.mp hstep with hstep | hstep
      · exact hothers step hstep
      · exact ⟨i, List.eq_of_mem_replicate hstep⟩
    · rw [run_append, run_append, hended]
    · intro o' ho'
      obtain rfl := Option.some.inj ho'
      rw [run_append, run_append, hhistory]
      exact History.entry_of_ended _ i _ _ _

end
end AgentKernel.Lib
