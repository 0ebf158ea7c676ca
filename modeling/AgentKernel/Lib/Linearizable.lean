import AgentKernel.Lib.Sessions

/-! What the callers of sessions see.

A session that meets no lock of another ends as its transaction does alone
(`Server.finishes`). Beside others, a history is linearizable when every call took effect
at one moment while it ran, as the object would answer it then, and nothing else had an
effect; transactions that end so one by one make such histories (`run_linearizable`). -/
namespace AgentKernel.Lib

/-! ### A transaction alone -/

section
variable {ι ε δ κ γ α : Type}

/-- How a transaction ends when no other commits meanwhile. -/
def Tx.alone : Tx ε δ κ α → Nat → (δ → δ) → δ → Except ε α × δ
  | .commit a, _, redo, d => (.ok a, redo d)
  | .rollback e, _, _, d => (.error e, d)
  | .statement _ write next, n, redo, d =>
    (next (redo d)).alone n (fun d' => write (redo d) (redo d')) d
  | .draw next, n, redo, d => (next n).alone (n + 1) redo d

/-- The history after a transaction has ended so. -/
def History.ended (h : History ι ε δ γ α) (i : ι) (call : γ) (since : Nat) :
    Except ε α × δ → History ι ε δ γ α
  | (.ok a, d) => h.commit i call since a d
  | (.error e, _) => h.raise i call since e

/-- The end of a transaction leaves its entry. -/
theorem History.entry_of_ended (h : History ι ε δ γ α) (i : ι) (call : γ) (since : Nat)
    (result : Except ε α × δ) :
    ∃ e ∈ (h.ended i call since result).entries, e.session = i ∧ e.call = call ∧ e.since = since := by
  obtain ⟨outcome, d⟩ := result
  cases outcome <;> exact ⟨_, List.mem_append_right _ (List.mem_singleton.mpr rfl), rfl, rfl, rfl⟩

variable [DecidableEq ι] [DecidableEq κ] (program : γ → Tx ε δ κ α)

/-- **A session that meets no lock of another ends as it would alone.** -/
theorem Server.finishes (t : Tx ε δ κ α) (s : Server ι ε δ κ γ α) {i : ι} {o : Session ε δ κ γ α}
    (ho : s.sessions i = some o) (ht : o.rest = t) (hlocks : ∀ k j, s.holder k = some j → j = i) :
    ∃ n, (run (Server.next program) s (List.replicate n (.advance i))).history =
        s.history.ended i o.call o.since (t.alone s.drawn o.redo s.current) ∧
      (run (Server.next program) s (List.replicate n (.advance i))).sessions i = none := by
  induction t generalizing s o with
  | commit a =>
    refine ⟨1, ?_, ?_⟩
    · simp only [List.replicate, run_cons, run_nil, Server.next, ho, Option.map_some, Option.getD_some,
        Server.advance, ht, Server.close, Tx.alone, History.ended]
    · simp only [List.replicate, run_cons, run_nil, Server.next, ho, Option.map_some, Option.getD_some,
        Server.advance, ht, Server.close, Function.update_self]
  | rollback e =>
    refine ⟨1, ?_, ?_⟩
    · simp only [List.replicate, run_cons, run_nil, Server.next, ho, Option.map_some, Option.getD_some,
        Server.advance, ht, Server.close, Tx.alone, History.ended]
    · simp only [List.replicate, run_cons, run_nil, Server.next, ho, Option.map_some, Option.getD_some,
        Server.advance, ht, Server.close, Function.update_self]
  | statement needs write next ih =>
    have hfree : (needs (o.redo s.current)).all (s.free i) = true := by
      cases needs (o.redo s.current) with
      | none => rfl
      | some k =>
        rw [Option.all_some, Server.free]
        cases hk : s.holder k with
        | none => rfl
        | some j => simp [hlocks k j hk]
    have hstep : s.next program (.advance i) =
        { s with
          holder := s.locked i (needs (o.redo s.current))
          sessions := Function.update s.sessions i
            (some { o with redo := fun d => write (o.redo s.current) (o.redo d)
                           rest := next (o.redo s.current) }) } := by
      simp only [Server.next, ho, Option.map_some, Option.getD_some, Server.advance, ht, hfree, if_true]
    obtain ⟨n, hhist, hend⟩ := ih (o.redo s.current) (s.next program (.advance i))
      (o := { o with redo := fun d => write (o.redo s.current) (o.redo d), rest := next (o.redo s.current) })
      (by rw [hstep]; exact Function.update_self ..) rfl (by
        intro k j hk
        rw [hstep] at hk
        by_contra hj
        exact hj (hlocks k j ((congrFun (Disciplined.others_locked hj hfree) k).mp hk)))
    refine ⟨n + 1, ?_, ?_⟩
    · rw [List.replicate_succ, run_cons, hhist, hstep]
      rfl
    · rw [List.replicate_succ, run_cons, hend]
  | draw next ih =>
    have hstep : s.next program (.advance i) =
        { s with
          drawn := s.drawn + 1
          sessions := Function.update s.sessions i
            (some { o with drew := o.drew ++ [s.drawn], rest := next s.drawn }) } := by
      simp only [Server.next, ho, Option.map_some, Option.getD_some, Server.advance, ht]
    obtain ⟨n, hhist, hend⟩ := ih s.drawn (s.next program (.advance i))
      (o := { o with drew := o.drew ++ [s.drawn], rest := next s.drawn })
      (by rw [hstep]; exact Function.update_self ..) rfl (by rw [hstep]; exact hlocks)
    refine ⟨n + 1, ?_, ?_⟩
    · rw [List.replicate_succ, run_cons, hhist, hstep]
      rfl
    · rw [List.replicate_succ, run_cons, hend]

end

/-! ### Linearizability -/

section
variable {ι ε δ κ γ α τ : Type} (view : δ → τ) (answer : τ → γ → Except ε α × τ) (foreign : ε → Prop)

/-- The call took effect at one moment while it ran: it made the version that follows, or it
found its answer in a version and changed nothing, or it failed for a reason of the server's. -/
def Entry.Explained (vs : List δ) (e : Entry ι ε γ α) : Prop :=
  (∃ d d', vs[e.upto]? = some d ∧ vs[e.upto + 1]? = some d' ∧
      answer (view d) e.call = (e.outcome, view d')) ∨
    (∃ m d, e.since ≤ m ∧ m ≤ e.upto ∧ vs[m]? = some d ∧ answer (view d) e.call = (e.outcome, view d)) ∨
    ∃ err, e.outcome = .error err ∧ foreign err

/-- Every call took effect at one moment, and nothing else ever had an effect. -/
structure Linearizable (h : History ι ε δ γ α) : Prop where
  began : ∀ e ∈ h.entries, e.since ≤ e.upto
  answered : ∀ e ∈ h.entries, e.Explained view answer foreign h.versions.all
  changed : ∀ (m : Nat) d d', h.versions.all[m]? = some d → h.versions.all[m + 1]? = some d' →
    view d' = view d ∨ ∃ e ∈ h.entries, e.upto = m ∧ answer (view d) e.call = (e.outcome, view d')

/-- A commit that takes effect now, or found its answer before and changes nothing. -/
def CommitsLinear (call : γ) (a : α) (seen : Versions δ) (d : δ) : Prop :=
  answer (view seen.current) call = (.ok a, view d) ∨
    view d = view seen.current ∧ ∃ d₀ ∈ seen.all, answer (view d₀) call = (.ok a, view d₀)

def RaisesLinear (call : γ) (e : ε) (seen : Versions δ) : Prop :=
  foreign e ∨ ∃ d₀ ∈ seen.all, answer (view d₀) call = (.error e, view d₀)

theorem Versions.length_all (vs : Versions δ) : vs.all.length = vs.older.length + 1 := by
  simp [Versions.all]

theorem Versions.get_current (vs : Versions δ) : vs.all[vs.older.length]? = some vs.current := by
  simp [Versions.all]

/-- A version seen since a moment was current at that moment or later. -/
theorem Versions.get_of_mem_since {vs : Versions δ} {n : Nat} (h : n ≤ vs.older.length) {d : δ}
    (hd : d ∈ (vs.since n).all) : ∃ m, n ≤ m ∧ m ≤ vs.older.length ∧ vs.all[m]? = some d := by
  have hall : (vs.since n).all = vs.all.drop n := by
    simp only [Versions.since, Versions.all, List.drop_append_of_le_length h]
  rw [hall] at hd
  obtain ⟨m, hm, hget⟩ := List.mem_iff_getElem.mp hd
  have hlt := hm
  rw [List.length_drop, Versions.length_all] at hlt
  refine ⟨n + m, by omega, by omega, ?_⟩
  rw [← List.getElem?_drop, List.getElem?_eq_getElem hm, hget]

theorem Entry.Explained.mono {view : δ → τ} {answer : τ → γ → Except ε α × τ} {foreign : ε → Prop}
    {e : Entry ι ε γ α} {vs : List δ} (h : e.Explained view answer foreign vs) (more : List δ) :
    e.Explained view answer foreign (vs ++ more) := by
  have hmore : ∀ (m : Nat) (d : δ), vs[m]? = some d → (vs ++ more)[m]? = some d := by
    intro m d hd
    obtain ⟨hm, _⟩ := List.getElem?_eq_some_iff.mp hd
    rw [List.getElem?_append_left hm, hd]
  rcases h with ⟨d, d', hd, hd', ha⟩ | ⟨m, d, hge, hle, hd, ha⟩ | herr
  · exact .inl ⟨d, d', hmore _ _ hd, hmore _ _ hd', ha⟩
  · exact .inr (.inl ⟨m, d, hge, hle, hmore _ _ hd, ha⟩)
  · exact .inr (.inr herr)

namespace Linearizable
variable {view answer foreign} {h : History ι ε δ γ α}

theorem start (d : δ) : Linearizable view answer foreign (.start d : History ι ε δ γ α) := by
  refine ⟨fun _ he => (nomatch he), fun _ he => (nomatch he), ?_⟩
  intro m d' d'' _ hd
  simp [History.start, Versions.all] at hd

theorem commit (hlin : Linearizable view answer foreign h) {i : ι} {call : γ} {since : Nat} {a : α} {d : δ}
    (hle : since ≤ h.versions.older.length)
    (hc : CommitsLinear view answer call a (h.versions.since since) d) :
    Linearizable view answer foreign (h.commit i call since a d) := by
  have hall : (h.commit i call since a d).versions.all = h.versions.all ++ [d] := rfl
  have hlen := h.versions.length_all
  have hcur : (h.versions.all ++ [d])[h.versions.older.length]? = some h.versions.current := by
    rw [List.getElem?_append_left (by omega), h.versions.get_current]
  have hnew : (h.versions.all ++ [d])[h.versions.older.length + 1]? = some d := by
    rw [← hlen, List.getElem?_concat_length]
  refine ⟨?_, ?_, ?_⟩
  · intro e he
    rcases List.mem_append.mp he with he | he
    · exact hlin.began e he
    · rw [List.mem_singleton.mp he]
      exact hle
  · intro e he
    rw [hall]
    rcases List.mem_append.mp he with he | he
    · exact (hlin.answered e he).mono [d]
    · rw [List.mem_singleton.mp he]
      rcases hc with ha | ⟨_, d₀, hd₀, ha⟩
      · exact .inl ⟨h.versions.current, d, hcur, hnew, ha⟩
      · obtain ⟨m, hge, hm, hget⟩ := Versions.get_of_mem_since hle hd₀
        refine .inr (.inl ⟨m, d₀, hge, hm, ?_, ha⟩)
        rw [List.getElem?_append_left (by omega), hget]
  · intro m d₁ d₂ hd₁ hd₂
    rw [hall] at hd₁ hd₂
    rcases Nat.lt_trichotomy m h.versions.older.length with hm | hm | hm
    · rw [List.getElem?_append_left (by omega)] at hd₁ hd₂
      rcases hlin.changed m d₁ d₂ hd₁ hd₂ with hsame | ⟨e, he, hupto, ha⟩
      · exact .inl hsame
      · exact .inr ⟨e, List.mem_append_left _ he, hupto, ha⟩
    · subst hm
      obtain rfl := Option.some.inj (hcur.symm.trans hd₁)
      obtain rfl := Option.some.inj (hnew.symm.trans hd₂)
      rcases hc with ha | ⟨hsame, _⟩
      · exact .inr ⟨_, List.mem_append_right _ (List.mem_singleton.mpr rfl), rfl, ha⟩
      · exact .inl hsame
    · have hout : (h.versions.all ++ [d])[m + 1]? = none := by
        rw [List.getElem?_eq_none]
        simp only [List.length_append, List.length_singleton]
        omega
      rw [hout] at hd₂
      cases hd₂

theorem raise (hlin : Linearizable view answer foreign h) {i : ι} {call : γ} {since : Nat} {e : ε}
    (hle : since ≤ h.versions.older.length)
    (hr : RaisesLinear view answer foreign call e (h.versions.since since)) :
    Linearizable view answer foreign (h.raise i call since e) := by
  refine ⟨?_, ?_, ?_⟩
  · intro e' he
    rcases List.mem_append.mp he with he | he
    · exact hlin.began e' he
    · rw [List.mem_singleton.mp he]
      exact hle
  · intro e' he
    rcases List.mem_append.mp he with he | he
    · exact hlin.answered e' he
    · rw [List.mem_singleton.mp he]
      rcases hr with hforeign | ⟨d₀, hd₀, ha⟩
      · exact .inr (.inr ⟨e, rfl, hforeign⟩)
      · obtain ⟨m, hge, hm, hget⟩ := Versions.get_of_mem_since hle hd₀
        exact .inr (.inl ⟨m, d₀, hge, hm, hget, ha⟩)
  · intro m d₁ d₂ hd₁ hd₂
    rcases hlin.changed m d₁ d₂ hd₁ hd₂ with hsame | ⟨e', he', hupto, ha⟩
    · exact .inl hsame
    · exact .inr ⟨e', List.mem_append_left _ he', hupto, ha⟩

end Linearizable

/-- **Programs whose ends are linear make linearizable histories.** -/
theorem run_linearizable [DecidableEq ι] [DecidableEq κ] {D : Discipline δ κ} {program : γ → Tx ε δ κ α}
    (hprogram : SoundProgram D (fun call _ => CommitsLinear view answer call)
      (RaisesLinear view answer foreign) program) {d : δ} (hfresh : ∀ n, 1 ≤ n → D.Fresh n d)
    (steps : List (SessionStep ι γ)) :
    Linearizable view answer foreign (run (Server.next program) (.init d) steps).history :=
  run_rule hprogram hfresh (Linearizable.start d) (fun _ _ _ _ _ _ _ h hle hc => h.commit hle hc)
    (fun _ _ _ _ _ h hle hr => h.raise hle hr) steps

end
end AgentKernel.Lib
