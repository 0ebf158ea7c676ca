import Mathlib.Logic.Function.Basic
import AgentKernel.Lib.Run

/-! Transactions of several sessions on one database.

A transaction is the statements it sends (`Tx`). A statement reads what is committed with
the transaction's own writes on top; it may need a lock first and then waits while another
session has it. The numbers of a sequence are drawn at once and never given back. What a
transaction wrote is committed at its end, all of it or nothing, and its locks go with it.
The sessions take their steps in any order and may break off at any step.

A transaction is verified alone (`Discipline.Sound`): what holds when it commits or raises,
if all the others do meanwhile is what they owe. `run_rule` carries this to every run:
what each sound end of a transaction keeps of the history, every run keeps. -/
namespace AgentKernel.Lib

/-- What a transaction has still to do. -/
inductive Tx (ε δ κ α : Type) where
  | commit (a : α)
  | rollback (e : ε)
  /-- From what the statement reads: the lock it needs, what it writes, how to go on. -/
  | statement (needs : δ → Option κ) (write : δ → δ → δ) (next : δ → Tx ε δ κ α)
  /-- The next number of the sequence. -/
  | draw (next : Nat → Tx ε δ κ α)

section
variable {ε δ κ α β : Type}

/-- What a statement leaves of a database; a failed one leaves it as it was. -/
def Tx.effect (f : δ → Except ε (β × δ)) (d : δ) : δ :=
  match f d with
  | .ok r => r.2
  | .error _ => d

/-- The transaction goes on with what a statement returned, or is rolled back. -/
def Tx.after (k : β → Tx ε δ κ α) : Except ε (β × δ) → Tx ε δ κ α
  | .ok r => k r.1
  | .error e => .rollback e

/-- Execute a statement that may fail. -/
def Tx.exec (needs : δ → Option κ) (f : δ → Except ε (β × δ)) (k : β → Tx ε δ κ α) : Tx ε δ κ α :=
  .statement needs (fun _ => Tx.effect f) (fun d => Tx.after k (f d))

theorem Tx.effect_ok {f : δ → Except ε (β × δ)} {d d' : δ} {b : β} (h : f d = .ok (b, d')) :
    Tx.effect f d = d' := by
  simp only [Tx.effect, h]

end

/-- The databases that have been committed, the newest apart. -/
structure Versions (δ : Type) where
  older : List δ
  current : δ

namespace Versions
variable {δ : Type}

def all (vs : Versions δ) : List δ := vs.older ++ [vs.current]

def push (vs : Versions δ) (d : δ) : Versions δ := ⟨vs.all, d⟩

/-- Without the first of them. -/
def since (vs : Versions δ) (n : Nat) : Versions δ := ⟨vs.older.drop n, vs.current⟩

theorem current_mem (vs : Versions δ) : vs.current ∈ vs.all :=
  List.mem_append_right _ (List.mem_singleton.mpr rfl)

@[simp] theorem current_push (vs : Versions δ) (d : δ) : (vs.push d).current = d := rfl

@[simp] theorem older_push (vs : Versions δ) (d : δ) : (vs.push d).older = vs.older ++ [vs.current] := rfl

@[simp] theorem current_since (vs : Versions δ) (n : Nat) : (vs.since n).current = vs.current := rfl

theorem since_push {vs : Versions δ} {n : Nat} (h : n ≤ vs.older.length) (d : δ) :
    (vs.push d).since n = (vs.since n).push d := by
  simp only [since, push, all, List.drop_append_of_le_length h]

theorem since_all (vs : Versions δ) : vs.since vs.older.length = ⟨[], vs.current⟩ := by
  simp [since]

end Versions

/-- A transaction that has ended: the versions it ran beside and how it ended. -/
structure Entry (ι ε γ α : Type) where
  session : ι
  call : γ
  since : Nat
  upto : Nat
  outcome : Except ε α

structure History (ι ε δ γ α : Type) where
  versions : Versions δ
  entries : List (Entry ι ε γ α)

namespace History
variable {ι ε δ γ α : Type}

def start (d : δ) : History ι ε δ γ α := ⟨⟨[], d⟩, []⟩

/-- A transaction commits a new version. -/
def commit (h : History ι ε δ γ α) (i : ι) (call : γ) (since : Nat) (a : α) (d : δ) : History ι ε δ γ α :=
  ⟨h.versions.push d, h.entries ++ [⟨i, call, since, h.versions.older.length, .ok a⟩]⟩

/-- A transaction raises and is rolled back. -/
def raise (h : History ι ε δ γ α) (i : ι) (call : γ) (since : Nat) (e : ε) : History ι ε δ γ α :=
  ⟨h.versions, h.entries ++ [⟨i, call, since, h.versions.older.length, .error e⟩]⟩

end History

/-- An open transaction: its call, how many versions there were when it began, the numbers it
has drawn, what it wrote and what is left of it. -/
structure Session (ε δ κ γ α : Type) where
  call : γ
  since : Nat
  drew : List Nat
  redo : δ → δ
  rest : Tx ε δ κ α

structure Server (ι ε δ κ γ α : Type) where
  history : History ι ε δ γ α
  drawn : Nat
  holder : κ → Option ι
  sessions : ι → Option (Session ε δ κ γ α)

inductive SessionStep (ι γ : Type) where
  | start (i : ι) (call : γ)
  | advance (i : ι)
  | abort (i : ι)

namespace Server
variable {ι ε δ κ γ α : Type} [DecidableEq ι]

def init (d : δ) : Server ι ε δ κ γ α := ⟨.start d, 1, fun _ => none, fun _ => none⟩

def current (s : Server ι ε δ κ γ α) : δ := s.history.versions.current

/-- Nobody else has the lock. -/
def free (s : Server ι ε δ κ γ α) (i : ι) (k : κ) : Bool := (s.holder k).all (fun j => j = i)

/-- The transaction of a session ends. -/
def close (s : Server ι ε δ κ γ α) (i : ι) (h : History ι ε δ γ α) : Server ι ε δ κ γ α where
  history := h
  drawn := s.drawn
  holder := fun k => if s.holder k = some i then none else s.holder k
  sessions := Function.update s.sessions i none

variable [DecidableEq κ]

/-- The session has the lock that a statement needs. -/
def locked (s : Server ι ε δ κ γ α) (i : ι) : Option κ → κ → Option ι
  | some k => Function.update s.holder k (some i)
  | none => s.holder

/-- One statement of a session, or the end of its transaction. -/
def advance (s : Server ι ε δ κ γ α) (i : ι) (o : Session ε δ κ γ α) : Server ι ε δ κ γ α :=
  match o.rest with
  | .commit a => s.close i (s.history.commit i o.call o.since a (o.redo s.current))
  | .rollback e => s.close i (s.history.raise i o.call o.since e)
  | .statement needs write next =>
    let view := o.redo s.current
    if (needs view).all (s.free i) then
      { s with
        holder := s.locked i (needs view)
        sessions := Function.update s.sessions i
          (some { o with redo := fun d => write view (o.redo d), rest := next view }) }
    else s
  | .draw next =>
    { s with
      drawn := s.drawn + 1
      sessions := Function.update s.sessions i
        (some { o with drew := o.drew ++ [s.drawn], rest := next s.drawn }) }

def next (program : γ → Tx ε δ κ α) (s : Server ι ε δ κ γ α) : SessionStep ι γ → Server ι ε δ κ γ α
  | .start i call =>
    if (s.sessions i).isSome then s
    else { s with sessions := Function.update s.sessions i
                    (some ⟨call, s.history.versions.older.length, [], id, program call⟩) }
  | .advance i => ((s.sessions i).map (s.advance i)).getD s
  | .abort i => s.close i s.history

end Server

/-! ### What a transaction may rely on -/

/-- What the sessions owe each other. A lock guards a part of the database; some things only
grow; a number nobody has used is fresh. -/
structure Discipline (δ κ : Type) where
  Same : κ → δ → δ → Prop
  Grows : δ → δ → Prop
  Fresh : Nat → δ → Prop
  same_refl : ∀ k d, Same k d d
  same_trans : ∀ k d d' d'', Same k d d' → Same k d' d'' → Same k d d''
  grows_refl : ∀ d, Grows d d
  grows_trans : ∀ d d' d'', Grows d d' → Grows d' d'' → Grows d d''

namespace Discipline
variable {ε δ κ α : Type} (D : Discipline δ κ)

/-- What a transaction with these locks and numbers sees the others do. -/
structure Relies (locks : κ → Prop) (drew : List Nat) (d d' : δ) : Prop where
  same : ∀ k, locks k → D.Same k d d'
  fresh : ∀ n ∈ drew, D.Fresh n d → D.Fresh n d'
  grows : D.Grows d d'

/-- What it owes them for it. -/
structure Owes (locks : κ → Prop) (drew : List Nat) (d d' : δ) : Prop where
  same : ∀ k, ¬ locks k → D.Same k d d'
  fresh : ∀ n, n ∉ drew → D.Fresh n d → D.Fresh n d'
  grows : D.Grows d d'

/-- The others have committed. -/
inductive Interfered (locks : κ → Prop) (drew : List Nat) : Versions δ → Versions δ → Prop where
  | refl (vs : Versions δ) : Interfered locks drew vs vs
  | push {vs vs' : Versions δ} {d : δ} (h : Interfered locks drew vs vs')
      (hd : D.Relies locks drew vs'.current d) : Interfered locks drew vs (vs'.push d)

/-- The transaction, wherever it stands, commits or raises as it should. -/
def Sound (Q : List Nat → α → Versions δ → δ → Prop) (E : ε → Versions δ → Prop) :
    Tx ε δ κ α → (κ → Prop) → List Nat → (δ → δ) → Versions δ → Prop
  | .commit a, locks, drew, redo, seen => ∀ seen', D.Interfered locks drew seen seen' →
      Q drew a seen' (redo seen'.current) ∧ D.Owes locks drew seen'.current (redo seen'.current)
  | .rollback e, locks, drew, _, seen => ∀ seen', D.Interfered locks drew seen seen' → E e seen'
  | .statement needs write next, locks, drew, redo, seen =>
      ∀ seen', D.Interfered locks drew seen seen' →
        Sound Q E (next (redo seen'.current))
          (fun k => locks k ∨ needs (redo seen'.current) = some k) drew
          (fun d => write (redo seen'.current) (redo d)) seen'
  | .draw next, locks, drew, redo, seen =>
      ∀ seen', D.Interfered locks drew seen seen' → ∀ n, D.Fresh n seen'.current →
        Sound Q E (next n) locks (drew ++ [n]) redo seen'

variable {D} {locks : κ → Prop} {drew : List Nat}

theorem Interfered.trans {vs vs' vs'' : Versions δ} (h : D.Interfered locks drew vs vs')
    (h' : D.Interfered locks drew vs' vs'') : D.Interfered locks drew vs vs'' := by
  induction h' with
  | refl => exact h
  | push _ hd ih => exact .push ih hd

/-- Whatever the others do, they do it within what is relied on. -/
theorem Interfered.relies {vs vs' : Versions δ} (h : D.Interfered locks drew vs vs') :
    D.Relies locks drew vs.current vs'.current := by
  induction h with
  | refl => exact ⟨fun k _ => D.same_refl k _, fun _ _ hn => hn, D.grows_refl _⟩
  | push _ hd ih =>
    exact ⟨fun k hk => D.same_trans k _ _ _ (ih.same k hk) (hd.same k hk),
      fun n hn hfresh => hd.fresh n hn (ih.fresh n hn hfresh), D.grows_trans _ _ _ ih.grows hd.grows⟩

/-- Nothing that has been committed is forgotten. -/
theorem Interfered.mem {vs vs' : Versions δ} (h : D.Interfered locks drew vs vs') {d : δ}
    (hd : d ∈ vs.all) : d ∈ vs'.all := by
  induction h with
  | refl => exact hd
  | push _ _ ih => exact List.mem_append_left _ ih

/-- A sound transaction stays sound while the others commit. -/
theorem Sound.interfered {Q : List Nat → α → Versions δ → δ → Prop} {E : ε → Versions δ → Prop}
    {t : Tx ε δ κ α} {redo : δ → δ} {vs vs' : Versions δ} (h : D.Sound Q E t locks drew redo vs)
    (hi : D.Interfered locks drew vs vs') : D.Sound Q E t locks drew redo vs' := by
  cases t with
  | commit a => exact fun seen hs => h seen (hi.trans hs)
  | rollback e => exact fun seen hs => h seen (hi.trans hs)
  | statement needs write next => exact fun seen hs => h seen (hi.trans hs)
  | draw next => exact fun seen hs => h seen (hi.trans hs)

/-- A statement that may fail: what follows it is sound after either end. -/
theorem Sound.exec {β : Type} {Q : List Nat → α → Versions δ → δ → Prop} {E : ε → Versions δ → Prop}
    {needs : δ → Option κ} {f : δ → Except ε (β × δ)} {k : β → Tx ε δ κ α} {redo : δ → δ}
    {seen : Versions δ}
    (hok : ∀ seen' b d, D.Interfered locks drew seen seen' → f (redo seen'.current) = .ok (b, d) →
      D.Sound Q E (k b) (fun k => locks k ∨ needs (redo seen'.current) = some k) drew
        (fun d => Tx.effect f (redo d)) seen')
    (herr : ∀ seen' e, D.Interfered locks drew seen seen' → f (redo seen'.current) = .error e →
      ∀ seen'', D.Interfered (fun k => locks k ∨ needs (redo seen'.current) = some k) drew seen' seen'' →
        E e seen'') :
    D.Sound Q E (Tx.exec needs f k) locks drew redo seen := by
  intro seen' hi
  show D.Sound Q E (Tx.after k (f (redo seen'.current))) _ _ _ _
  cases hf : f (redo seen'.current) with
  | ok r => exact hok seen' r.1 r.2 hi hf
  | error e => exact herr seen' e hi hf

end Discipline

/-! ### Every run -/

section
variable {ι ε δ κ γ α : Type} [DecidableEq ι] (D : Discipline δ κ)
  (Q : γ → List Nat → α → Versions δ → δ → Prop) (E : γ → ε → Versions δ → Prop)
  (J : History ι ε δ γ α → Prop)

/-- Every open transaction is sound from where it stands, and no number is drawn twice. -/
structure Disciplined (s : Server ι ε δ κ γ α) : Prop where
  history : J s.history
  sound : ∀ i o, s.sessions i = some o → D.Sound (Q o.call) (E o.call) o.rest
    (fun k => s.holder k = some i) o.drew o.redo (s.history.versions.since o.since)
  began : ∀ i o, s.sessions i = some o → o.since ≤ s.history.versions.older.length
  drawn : ∀ i o, s.sessions i = some o → ∀ n ∈ o.drew, n < s.drawn
  apart : ∀ i j o o', i ≠ j → s.sessions i = some o → s.sessions j = some o' → ∀ n ∈ o.drew, n ∉ o'.drew
  fresh : ∀ n, s.drawn ≤ n → D.Fresh n s.current
  holding : ∀ i k, s.holder k = some i → s.sessions i ≠ none

variable {D Q E J} {s : Server ι ε δ κ γ α}

namespace Disciplined

/-- The others after a transaction has ended. -/
theorem others_close {i j : ι} {o : Session ε δ κ γ α} {h : History ι ε δ γ α}
    (ho : (s.close i h).sessions j = some o) : j ≠ i ∧ s.sessions j = some o := by
  simp only [Server.close, Function.update_apply] at ho
  split at ho
  · cases ho
  · rename_i hne
    exact ⟨hne, ho⟩

/-- No lock outlives its transaction. -/
theorem holding_close (h : ∀ i k, s.holder k = some i → s.sessions i ≠ none) (i : ι)
    (hist : History ι ε δ γ α) :
    ∀ j k, (s.close i hist).holder k = some j → (s.close i hist).sessions j ≠ none := by
  intro j k hk
  simp only [Server.close] at hk ⊢
  split at hk
  · cases hk
  · rename_i hi
    have hne : j ≠ i := fun hji => hi (hji ▸ hk)
    rw [Function.update_of_ne hne]
    exact h j k hk

theorem holder_close {i j : ι} (hne : j ≠ i) (h : History ι ε δ γ α) :
    (fun k => (s.close i h).holder k = some j) = fun k => s.holder k = some j := by
  funext k
  simp only [Server.close]
  split
  · rename_i hk
    rw [hk]
    simp [hne.symm]
  · rfl

/-- A transaction that ends without a new version leaves the others as they were. -/
theorem close (h : Disciplined D Q E J s) (i : ι) {hist : History ι ε δ γ α}
    (hversions : hist.versions = s.history.versions) (hJ : J hist) :
    Disciplined D Q E J (s.close i hist) where
  history := hJ
  sound := by
    intro j o ho
    obtain ⟨hne, ho⟩ := others_close ho
    rw [holder_close hne]
    show D.Sound _ _ _ _ _ _ (hist.versions.since o.since)
    rw [hversions]
    exact h.sound j o ho
  began := by
    intro j o ho
    show o.since ≤ hist.versions.older.length
    rw [hversions]
    exact h.began j o (others_close ho).2
  drawn := fun j o ho => h.drawn j o (others_close ho).2
  apart := fun j k o o' hne ho ho' => h.apart j k o o' hne (others_close ho).2 (others_close ho').2
  fresh := by
    intro n hn
    show D.Fresh n hist.versions.current
    rw [hversions]
    exact h.fresh n hn
  holding := holding_close h.holding i hist

/-- What a committing session owes is what each of the others relies on. -/
theorem commit (h : Disciplined D Q E J s) {i : ι} {o : Session ε δ κ γ α}
    (ho : s.sessions i = some o) {d : δ} (howes : D.Owes (fun k => s.holder k = some i) o.drew s.current d)
    {a : α} (hJ : J (s.history.commit i o.call o.since a d)) :
    Disciplined D Q E J (s.close i (s.history.commit i o.call o.since a d)) where
  history := hJ
  sound := by
    intro j o' ho'
    obtain ⟨hne, ho'⟩ := others_close ho'
    have hrelies : D.Relies (fun k => s.holder k = some j) o'.drew s.current d := by
      refine ⟨fun k hk => howes.same k ?_, fun n hn => howes.fresh n ?_, howes.grows⟩
      · intro hi
        rw [hi] at hk
        exact hne (Option.some.inj hk).symm
      · exact h.apart j i o' o hne ho' ho n hn
    rw [holder_close hne]
    show D.Sound _ _ _ _ _ _ ((s.history.versions.push d).since o'.since)
    rw [Versions.since_push (h.began j o' ho')]
    exact (h.sound j o' ho').interfered (.push (.refl _) hrelies)
  began := by
    intro j o' ho'
    have hle := h.began j o' (others_close ho').2
    show o'.since ≤ (s.history.versions.push d).older.length
    rw [Versions.older_push, List.length_append]
    omega
  drawn := fun j o' ho' => h.drawn j o' (others_close ho').2
  apart := fun j k o' o'' hne ho' ho'' => h.apart j k o' o'' hne (others_close ho').2 (others_close ho'').2
  fresh := by
    intro n hn
    refine howes.fresh n (fun hmem => ?_) (h.fresh n hn)
    exact absurd (h.drawn i o ho n hmem) (Nat.not_lt.mpr hn)
  holding := holding_close h.holding i _

/-- A session that goes on changes nothing for the others. -/
theorem move (h : Disciplined D Q E J s) {i : ι} {o : Session ε δ κ γ α} {holder : κ → Option ι} {drawn : Nat}
    (hdrawn : s.drawn ≤ drawn)
    (hothers : ∀ j, j ≠ i → (fun k => holder k = some j) = fun k => s.holder k = some j)
    (hsound : D.Sound (Q o.call) (E o.call) o.rest (fun k => holder k = some i) o.drew o.redo
      (s.history.versions.since o.since))
    (hbegan : o.since ≤ s.history.versions.older.length) (hbelow : ∀ n ∈ o.drew, n < drawn)
    (hapart : ∀ j o', j ≠ i → s.sessions j = some o' → ∀ n ∈ o.drew, n ∉ o'.drew) :
    Disciplined D Q E J ⟨s.history, drawn, holder, Function.update s.sessions i (some o)⟩ where
  history := h.history
  sound := by
    intro j o' ho'
    simp only [Function.update_apply] at ho'
    split at ho'
    · rename_i heq
      cases ho'
      rw [heq]
      exact hsound
    · rename_i hne
      show D.Sound _ _ _ (fun k => holder k = some j) _ _ _
      rw [hothers j hne]
      exact h.sound j o' ho'
  began := by
    intro j o' ho'
    simp only [Function.update_apply] at ho'
    split at ho'
    · cases ho'
      exact hbegan
    · exact h.began j o' ho'
  drawn := by
    intro j o' ho' n hn
    simp only [Function.update_apply] at ho'
    split at ho'
    · cases ho'
      exact hbelow n hn
    · exact Nat.lt_of_lt_of_le (h.drawn j o' ho' n hn) hdrawn
  apart := by
    intro j k o' o'' hne ho' ho'' n hn hn'
    simp only [Function.update_apply] at ho' ho''
    split at ho'
    · cases ho'
      split at ho''
      · rename_i hj hk
        exact hne (hj.trans hk.symm)
      · rename_i hk
        exact hapart k o'' hk ho'' n hn hn'
    · rename_i hj
      split at ho''
      · cases ho''
        exact hapart j o' hj ho' n hn' hn
      · exact h.apart j k o' o'' hne ho' ho'' n hn hn'
  fresh := fun n hn => h.fresh n (Nat.le_trans hdrawn hn)
  holding := by
    intro j k hk
    by_cases hj : j = i
    · rw [hj]
      simp
    · show Function.update s.sessions i (some o) j ≠ none
      rw [Function.update_of_ne hj]
      exact h.holding j k ((congrFun (hothers j hj) k).mp hk)

end Disciplined

/-- Every transaction of a program is sound when it begins. -/
def SoundProgram (D : Discipline δ κ) (Q : γ → List Nat → α → Versions δ → δ → Prop)
    (E : γ → ε → Versions δ → Prop) (program : γ → Tx ε δ κ α) : Prop :=
  ∀ call d, D.Sound (Q call) (E call) (program call) (fun _ => False) [] id ⟨[], d⟩

namespace Disciplined
variable {program : γ → Tx ε δ κ α}

theorem start (h : Disciplined D Q E J s) (hprogram : SoundProgram D Q E program) {i : ι}
    (hidle : s.sessions i = none) (call : γ) :
    Disciplined D Q E J
      ⟨s.history, s.drawn, s.holder, Function.update s.sessions i
        (some ⟨call, s.history.versions.older.length, [], id, program call⟩)⟩ := by
  have hlocks : (fun k => s.holder k = some i) = fun _ => False := by
    funext k
    exact eq_false (fun hk => h.holding i k hk hidle)
  refine h.move (Nat.le_refl _) (fun _ _ => rfl) ?_ (Nat.le_refl _) (fun _ hn => nomatch hn)
    (fun _ _ _ _ _ hn => nomatch hn)
  rw [hlocks, Versions.since_all]
  exact hprogram call s.current

variable [DecidableEq κ]

omit [DecidableEq ι] in
/-- The lock is added to those of its session. -/
theorem holds_locked {i : ι} {need : Option κ} {k : κ} :
    s.locked i need k = some i ↔ s.holder k = some i ∨ need = some k := by
  cases need with
  | none => simp [Server.locked]
  | some k' =>
    simp only [Server.locked, Function.update_apply, Option.some.injEq]
    split
    · rename_i hk
      simp [hk]
    · rename_i hk
      simp [Ne.symm hk]

/-- A lock that is free is nobody else's. -/
theorem others_locked {i j : ι} (hne : j ≠ i) {need : Option κ} (hfree : need.all (s.free i) = true) :
    (fun k => s.locked i need k = some j) = fun k => s.holder k = some j := by
  funext k
  cases need with
  | none => rfl
  | some k' =>
    simp only [Server.locked, Function.update_apply]
    split
    · rename_i hk
      rw [Option.all_some, Server.free] at hfree
      cases hholder : s.holder k' with
      | none => simp [hk, hholder, hne.symm]
      | some l =>
        rw [hholder, Option.all_some, decide_eq_true_eq] at hfree
        simp [hk, hholder, hfree, hne.symm]
    · rfl

/-- **One step.** -/
theorem next (hprogram : SoundProgram D Q E program)
    (hcommit : ∀ h i call since drew a d, J h → since ≤ h.versions.older.length →
      Q call drew a (h.versions.since since) d → J (h.commit i call since a d))
    (hraise : ∀ h i call since e, J h → since ≤ h.versions.older.length →
      E call e (h.versions.since since) → J (h.raise i call since e))
    (h : Disciplined D Q E J s) (step : SessionStep ι γ) :
    Disciplined D Q E J (s.next program step) := by
  cases step with
  | start i call =>
    simp only [Server.next]
    cases hi : s.sessions i with
    | some o => exact h
    | none => exact h.start hprogram hi call
  | abort i => exact h.close i rfl h.history
  | advance i =>
    simp only [Server.next]
    cases hi : s.sessions i with
    | none => exact h
    | some o =>
      have hsound := h.sound i o hi
      have hbegan := h.began i o hi
      simp only [Option.map_some, Option.getD_some, Server.advance]
      cases hrest : o.rest with
      | commit a =>
        rw [hrest] at hsound
        obtain ⟨hQ, howes⟩ := hsound _ (.refl _)
        exact h.commit hi howes (hcommit _ i _ _ _ a _ h.history hbegan hQ)
      | rollback e =>
        rw [hrest] at hsound
        exact h.close i rfl (hraise _ i _ _ e h.history hbegan (hsound _ (.refl _)))
      | statement needs write cont =>
        rw [hrest] at hsound
        dsimp only
        split
        · rename_i hfree
          refine h.move (Nat.le_refl _) (fun j hne => others_locked hne hfree) ?_ hbegan
            (h.drawn i o hi) (fun j o' hne ho' => h.apart i j o o' hne.symm hi ho')
          simp only [holds_locked]
          exact hsound _ (.refl _)
        · exact h
      | draw cont =>
        rw [hrest] at hsound
        refine h.move (Nat.le_succ _) (fun _ _ => rfl) ?_ hbegan ?_ ?_
        · exact hsound _ (.refl _) s.drawn (h.fresh s.drawn (Nat.le_refl _))
        · intro n hn
          rcases List.mem_append.mp hn with hn | hn
          · exact Nat.lt_succ_of_lt (h.drawn i o hi n hn)
          · rw [List.mem_singleton.mp hn]
            exact Nat.lt_succ_self _
        · intro j o' hne ho' n hn hn'
          rcases List.mem_append.mp hn with hn | hn
          · exact h.apart i j o o' hne.symm hi ho' n hn hn'
          · rw [List.mem_singleton.mp hn] at hn'
            exact Nat.lt_irrefl _ (h.drawn j o' ho' _ hn')

end Disciplined

variable [DecidableEq κ]

/-- **The rule.** What every sound end of a transaction keeps of the history, every run of
the sessions keeps. -/
theorem run_rule {program : γ → Tx ε δ κ α} (hprogram : SoundProgram D Q E program) {d : δ}
    (hfresh : ∀ n, 1 ≤ n → D.Fresh n d) (hstart : J (.start d))
    (hcommit : ∀ h i call since drew a d, J h → since ≤ h.versions.older.length →
      Q call drew a (h.versions.since since) d → J (h.commit i call since a d))
    (hraise : ∀ h i call since e, J h → since ≤ h.versions.older.length →
      E call e (h.versions.since since) → J (h.raise i call since e)) (steps : List (SessionStep ι γ)) :
    J (run (Server.next program) (.init d) steps).history := by
  refine (run_invariant (I := Disciplined D Q E J)
    (fun s step hs => hs.next hprogram hcommit hraise step) ?_ steps).history
  exact ⟨hstart, fun _ _ ho => (nomatch ho), fun _ _ ho => (nomatch ho), fun _ _ ho => (nomatch ho),
    fun _ _ _ _ _ ho => (nomatch ho), hfresh, fun _ _ hk => (nomatch hk)⟩

end

end AgentKernel.Lib
