import AgentKernel.Lib.Run
import AgentKernel.Lib.Threads
import Mathlib.Data.List.Perm.Basic

/-! The read connections of the SQLite pool.

Any number of threads read through the pool, each with a connection of its own, and others
close it. A thread takes a connection off the queue, tries it, works with it, and on its way
out looks at `_closed` to see whether the connection goes back to the queue or is closed. No
connection is ever in two hands (`read_exclusively`), and a thread waits only while all that
are not lost are in use (`waits_for_use`). A connection is lost when it fails its trial. The
look at `_closed` and the return to the queue are two steps: once a pool has been emptied with
nobody between the two, it stays empty (`closed_for_good`), and who waits then waits for ever. -/
namespace AgentKernel.Persistence
open Lib

namespace ConnectionPool

/-! ### Threads -/

/-- A thread inside `with pool.read_connection()`. -/
inductive Reader where
  /-- At `_read_pool.get()`. -/
  | waiting
  /-- At `SELECT 1`. -/
  | probing (conn : Nat)
  | using (conn : Nat)
  /-- `release_read` found the pool open. -/
  | returning (conn : Nat)
  /-- `release_read` found the pool closed. -/
  | closing (conn : Nat)
  | done
  deriving DecidableEq, Repr

/-- A thread inside `close_all`. -/
inductive Closer where
  | called
  /-- It set `_closed`, and closes the write connection. -/
  | writing
  /-- At `get_nowait()`. -/
  | draining
  | popped (conn : Nat)
  | done
  deriving DecidableEq, Repr

/-- The connections a thread has its hands on. -/
def Reader.held : Reader → List Nat
  | .probing c | .using c | .returning c | .closing c => [c]
  | .waiting | .done => []

def Closer.held : Closer → List Nat
  | .popped c => [c]
  | _ => []

end ConnectionPool

/-- `SQLiteConnectionPool`, and the threads that are in its methods. -/
structure ConnectionPool where
  /-- `_read_pool`. -/
  idle : List Nat
  closed : Bool := false
  writeOpen : Bool := true
  /-- The read connections that were closed. -/
  shut : List Nat := []
  /-- The read connections that are open and that nobody refers to any more. -/
  lost : List Nat := []
  readers : List ConnectionPool.Reader := []
  closers : List ConnectionPool.Closer := []
  deriving DecidableEq

namespace ConnectionPool

/-- A pool of so many read connections. -/
def start (readPoolSize : Nat) : ConnectionPool := { idle := List.range (max readPoolSize 1) }

/-- `release_read` looks at `_closed`. -/
def Reader.release (c : Nat) (closed : Bool) : Reader := if closed then .closing c else .returning c

theorem Reader.held_release (c : Nat) (closed : Bool) : (Reader.release c closed).held = [c] := by
  rw [Reader.release]
  split <;> rfl

/-- A connection is closed, unless closing it raises, which is dropped. -/
def close (s : ConnectionPool) (c : Nat) (fault : Bool) : ConnectionPool :=
  if fault then { s with lost := c :: s.lost } else { s with shut := c :: s.shut }

/-- The next step of a reader. -/
def stepReader (s : ConnectionPool) (i : Nat) (fault : Bool) : Reader → ConnectionPool
  | .waiting =>
    match s.idle with
    | [] => s
    | c :: rest => { s with idle := rest, readers := s.readers.set i (.probing c) }
  | .probing c =>
    -- An error of the trial leaves `acquire_read`, and nobody returns the connection.
    if fault then { s with lost := c :: s.lost, readers := s.readers.set i .done }
    else { s with readers := s.readers.set i (.using c) }
  | .using c => { s with readers := s.readers.set i (.release c s.closed) }
  | .returning c => { s with idle := s.idle ++ [c], readers := s.readers.set i .done }
  | .closing c => { s with readers := s.readers.set i .done }.close c fault
  | .done => s

/-- The next step of a thread that closes the pool. -/
def stepCloser (s : ConnectionPool) (j : Nat) (fault : Bool) : Closer → ConnectionPool
  | .called =>
    if s.closed then { s with closers := s.closers.set j .done }
    else { s with closed := true, closers := s.closers.set j .writing }
  | .writing => { s with writeOpen := fault, closers := s.closers.set j .draining }
  | .draining =>
    match s.idle with
    | [] => { s with closers := s.closers.set j .done }
    | c :: rest => { s with idle := rest, closers := s.closers.set j (.popped c) }
  | .popped c => { s with closers := s.closers.set j .draining }.close c fault
  | .done => s

inductive Label where
  | read
  | closeAll
  | reader (i : Nat) (fault : Bool)
  | closer (j : Nat) (fault : Bool)

def next (s : ConnectionPool) : Label → ConnectionPool
  | .read => { s with readers := s.readers ++ [.waiting] }
  | .closeAll => { s with closers := s.closers ++ [.called] }
  | .reader i fault =>
    match s.readers[i]? with
    | some r => s.stepReader i fault r
    | none => s
  | .closer j fault =>
    match s.closers[j]? with
    | some k => s.stepCloser j fault k
    | none => s

/-! ### Where the connections are -/

/-- Every place a read connection can be at. -/
def places (s : ConnectionPool) : List Nat :=
  s.idle ++ s.readers.flatMap Reader.held ++ s.closers.flatMap Closer.held ++ s.shut ++ s.lost

section
variable (p : Nat → Bool) {s : ConnectionPool} {i : Nat} {r : Reader} {k : Closer}

theorem countP_places (s : ConnectionPool) :
    s.places.countP p = s.idle.countP p + (s.readers.flatMap Reader.held).countP p +
      (s.closers.flatMap Closer.held).countP p + s.shut.countP p + s.lost.countP p := by
  simp only [places, List.countP_append]

theorem countP_stepReader (h : s.readers[i]? = some r) (fault : Bool) :
    (s.stepReader i fault r).places.countP p = s.places.countP p := by
  have hset := fun b => countP_held_set Reader.held p h b
  cases r with
  | waiting =>
    rw [stepReader]
    cases hidle : s.idle with
    | nil => rfl
    | cons c rest =>
      have := hset (.probing c)
      simp only [countP_places, hidle, Reader.held, List.countP_cons, List.countP_nil] at this ⊢
      omega
  | probing c =>
    rw [stepReader]
    split
    · have := hset .done
      simp only [countP_places, Reader.held, List.countP_cons, List.countP_nil] at this ⊢
      omega
    · have := hset (.using c)
      simp only [countP_places, Reader.held, List.countP_cons, List.countP_nil] at this ⊢
      omega
  | «using» c =>
    have := hset (.release c s.closed)
    rw [Reader.held_release] at this
    simp only [Reader.held] at this
    simp only [stepReader, countP_places]
    omega
  | returning c =>
    have := hset .done
    simp only [stepReader, countP_places, Reader.held, List.countP_append, List.countP_nil] at this ⊢
    omega
  | closing c =>
    have := hset .done
    rw [stepReader, close]
    split <;> simp only [countP_places, Reader.held, List.countP_cons, List.countP_nil] at this ⊢ <;> omega
  | done => rfl

theorem countP_stepCloser (h : s.closers[i]? = some k) (fault : Bool) :
    (s.stepCloser i fault k).places.countP p = s.places.countP p := by
  have hset := fun b => countP_held_set Closer.held p h b
  cases k with
  | called =>
    rw [stepCloser]
    split
    · have := hset .done
      simp only [countP_places, Closer.held] at this ⊢
      omega
    · have := hset .writing
      simp only [countP_places, Closer.held] at this ⊢
      omega
  | writing =>
    have := hset .draining
    simp only [stepCloser, countP_places, Closer.held] at this ⊢
    omega
  | draining =>
    rw [stepCloser]
    cases hidle : s.idle with
    | nil =>
      have := hset .done
      simp only [countP_places, hidle, Closer.held] at this ⊢
      omega
    | cons c rest =>
      have := hset (.popped c)
      simp only [countP_places, hidle, Closer.held, List.countP_cons, List.countP_nil] at this ⊢
      omega
  | popped c =>
    have := hset .draining
    rw [stepCloser, close]
    split <;> simp only [countP_places, Closer.held, List.countP_cons, List.countP_nil] at this ⊢ <;> omega
  | done => rfl

/-- No step makes a connection or loses sight of one. -/
theorem countP_next (s : ConnectionPool) (l : Label) : (s.next l).places.countP p = s.places.countP p := by
  cases l with
  | read => simp [next, countP_places, Reader.held]
  | closeAll => simp [next, countP_places, Closer.held]
  | reader i fault =>
    simp only [next]
    cases h : s.readers[i]? with
    | none => rfl
    | some r => exact countP_stepReader p h fault
  | closer j fault =>
    simp only [next]
    cases h : s.closers[j]? with
    | none => rfl
    | some k => exact countP_stepCloser p h fault

end

/-- In every run each connection of the pool is in exactly one place. -/
theorem places_perm (readPoolSize : Nat) (labels : List Label) :
    (run next (start readPoolSize) labels).places.Perm (List.range (max readPoolSize 1)) := by
  rw [List.perm_iff_count]
  intro c
  rw [List.count_eq_countP, List.count_eq_countP]
  refine run_invariant (I := fun s => s.places.countP (· == c) = _)
    (fun s l h => (countP_next (· == c) s l).trans h) ?_ labels
  simp [start, places]

/-! ### Readers among themselves -/

/-- A connection a reader has its hands on is nowhere else. -/
structure Exclusive (s : ConnectionPool) : Prop where
  one : ∀ (i j : Nat) (a b : Reader) (c : Nat), s.readers[i]? = some a → s.readers[j]? = some b →
    c ∈ a.held → c ∈ b.held → i = j
  apart : ∀ r ∈ s.readers, ∀ c ∈ r.held,
    c ∉ s.idle ∧ c ∉ s.shut ∧ c ∉ s.lost ∧ ∀ k ∈ s.closers, c ∉ k.held

theorem exclusive_of_nodup {s : ConnectionPool} (h : s.places.Nodup) : Exclusive s := by
  simp only [places, List.nodup_append'] at h
  obtain ⟨⟨⟨⟨-, hreaders, hidle⟩, -, hclosers⟩, -, hshut⟩, -, hlost⟩ := h
  refine ⟨fun i j a b c ha hb hca hcb => eq_of_mem_held hreaders ha hb hca hcb, fun r hr c hc => ?_⟩
  have hheld : c ∈ s.readers.flatMap Reader.held := List.mem_flatMap_of_mem hr hc
  refine ⟨fun hc' => hidle hc' hheld, fun hc' => hshut ?_ hc', fun hc' => hlost ?_ hc', ?_⟩
  · simp only [List.mem_append, hheld, or_true, true_or]
  · simp only [List.mem_append, hheld, or_true, true_or]
  · intro k hk hc'
    exact hclosers (List.mem_append_right _ hheld) (List.mem_flatMap_of_mem hk hc')

/-- While the pool is open nothing has been closed, and nobody is about to. -/
structure Untouched (s : ConnectionPool) : Prop where
  shut : s.shut = []
  readers : ∀ r ∈ s.readers, ∀ c, r ≠ .closing c
  closers : ∀ k ∈ s.closers, k = .called

/-- `Untouched` as long as the pool is open. -/
def Opened (s : ConnectionPool) : Prop := s.closed = false → Untouched s

theorem opened_stepReader {s : ConnectionPool} {i : Nat} {r : Reader} (h : Opened s)
    (hr : s.readers[i]? = some r) (fault : Bool) : Opened (s.stepReader i fault r) := by
  have hset : ∀ {l : List Reader} {b : Reader}, (∀ r ∈ l, ∀ c, r ≠ .closing c) → (∀ c, b ≠ .closing c) →
      ∀ r ∈ l.set i b, ∀ c, r ≠ .closing c := by
    intro l b hl hb r hr
    rcases List.mem_or_eq_of_mem_set hr with hr | rfl
    · exact hl r hr
    · exact hb
  cases r with
  | waiting =>
    rw [stepReader]
    split
    · exact h
    · exact fun hopen => ⟨(h hopen).shut, hset (h hopen).readers (fun c hc => nomatch hc), (h hopen).closers⟩
  | probing c =>
    rw [stepReader]
    split
    · exact fun hopen => ⟨(h hopen).shut, hset (h hopen).readers (fun c hc => nomatch hc), (h hopen).closers⟩
    · exact fun hopen => ⟨(h hopen).shut, hset (h hopen).readers (fun c hc => nomatch hc), (h hopen).closers⟩
  | «using» c =>
    intro hopen
    have hclosed : s.closed = false := hopen
    refine ⟨(h hclosed).shut, hset (h hclosed).readers ?_, (h hclosed).closers⟩
    rw [hclosed]
    exact fun c' hc => nomatch hc
  | returning c =>
    exact fun hopen => ⟨(h hopen).shut, hset (h hopen).readers (fun c hc => nomatch hc), (h hopen).closers⟩
  | closing c =>
    intro hopen
    have hclosed : s.closed = false := by
      rw [stepReader, close] at hopen
      split at hopen <;> exact hopen
    exact absurd rfl ((h hclosed).readers _ (List.mem_of_getElem? hr) c)
  | done => exact h

theorem opened_stepCloser {s : ConnectionPool} {j : Nat} {k : Closer} (h : Opened s)
    (hk : s.closers[j]? = some k) (fault : Bool) : Opened (s.stepCloser j fault k) := by
  cases k with
  | called =>
    rw [stepCloser]
    split
    · next hclosed => exact fun hopen => absurd hopen (by simp [hclosed])
    · exact fun hopen => nomatch hopen
  | writing => exact fun hopen => nomatch (h hopen).closers _ (List.mem_of_getElem? hk)
  | draining =>
    intro hopen
    have hclosed : s.closed = false := by
      rw [stepCloser] at hopen
      split at hopen <;> exact hopen
    exact nomatch (h hclosed).closers _ (List.mem_of_getElem? hk)
  | popped c =>
    intro hopen
    have hclosed : s.closed = false := by
      rw [stepCloser, close] at hopen
      split at hopen <;> exact hopen
    exact nomatch (h hclosed).closers _ (List.mem_of_getElem? hk)
  | done => exact h

theorem opened_next {s : ConnectionPool} (h : Opened s) (l : Label) : Opened (s.next l) := by
  cases l with
  | read =>
    intro hopen
    refine ⟨(h hopen).shut, fun r hr c => ?_, (h hopen).closers⟩
    rcases List.mem_append.mp hr with hr | hr
    · exact (h hopen).readers r hr c
    · rw [List.mem_singleton.mp hr]
      exact fun hc => nomatch hc
  | closeAll =>
    intro hopen
    refine ⟨(h hopen).shut, (h hopen).readers, fun k hk => ?_⟩
    rcases List.mem_append.mp hk with hk | hk
    · exact (h hopen).closers k hk
    · exact List.mem_singleton.mp hk
  | reader i fault =>
    simp only [next]
    cases hr : s.readers[i]? with
    | none => exact h
    | some r => exact opened_stepReader h hr fault
  | closer j fault =>
    simp only [next]
    cases hk : s.closers[j]? with
    | none => exact h
    | some k => exact opened_stepCloser h hk fault

theorem opened_start (readPoolSize : Nat) : Opened (start readPoolSize) := by
  intro _
  refine ⟨rfl, ?_, ?_⟩
  · intro r hr
    cases hr
  · intro k hk
    cases hk

/-- A thread that waits for a connection while the pool is open: all that are not lost are in use. -/
def WaitsForUse (readPoolSize : Nat) (s : ConnectionPool) : Prop :=
  s.closed = false → s.idle = [] →
    (s.readers.flatMap Reader.held).length + s.lost.length = max readPoolSize 1

/-- **However many threads read through the pool, close it and fail**: no two of them have their
hands on one connection, and while the pool is open its queue is empty only when every connection
that is not lost is in some reader's hands. -/
theorem read_exclusively (readPoolSize : Nat) (labels : List Label) :
    Exclusive (run next (start readPoolSize) labels) ∧
      WaitsForUse readPoolSize (run next (start readPoolSize) labels) := by
  have hperm := places_perm readPoolSize labels
  refine ⟨exclusive_of_nodup (hperm.nodup_iff.mpr List.nodup_range), fun hopen hidle => ?_⟩
  have hopened : Opened (run next (start readPoolSize) labels) :=
    run_invariant (I := Opened) (fun _ l h => opened_next h l) (opened_start readPoolSize) labels
  obtain ⟨hshut, -, hclosers⟩ := hopened hopen
  have hnone : (run next (start readPoolSize) labels).closers.flatMap Closer.held = [] := by
    rw [List.flatMap_eq_nil_iff]
    intro k hk
    rw [hclosers k hk]
    rfl
  have hlength := hperm.length_eq
  simp only [places, hidle, hshut, hnone, List.nil_append, List.append_nil, List.length_append,
    List.length_range] at hlength
  exact hlength

/-! ### After the pool has been emptied -/

/-- The pool is closed, its queue is empty, and nobody is on the way to fill it again. -/
structure Emptied (s : ConnectionPool) : Prop where
  closed : s.closed = true
  idle : s.idle = []
  readers : ∀ r ∈ s.readers, ∀ c, r ≠ .returning c

theorem Emptied.stepReader {s : ConnectionPool} {i : Nat} {r : Reader} (h : Emptied s)
    (hr : s.readers[i]? = some r) (fault : Bool) : Emptied (s.stepReader i fault r) := by
  have hset : ∀ {b : Reader}, (∀ c, b ≠ .returning c) → ∀ r ∈ s.readers.set i b, ∀ c, r ≠ .returning c := by
    intro b hb r hr
    rcases List.mem_or_eq_of_mem_set hr with hr | rfl
    · exact h.readers r hr
    · exact hb
  cases r with
  | waiting =>
    rw [ConnectionPool.stepReader, h.idle]
    exact h
  | probing c =>
    rw [ConnectionPool.stepReader]
    split
    · exact ⟨h.closed, h.idle, hset (fun c hc => nomatch hc)⟩
    · exact ⟨h.closed, h.idle, hset (fun c hc => nomatch hc)⟩
  | «using» c =>
    refine ⟨h.closed, h.idle, hset ?_⟩
    rw [h.closed]
    exact fun c' hc => nomatch hc
  | returning c => exact absurd rfl (h.readers _ (List.mem_of_getElem? hr) c)
  | closing c =>
    rw [ConnectionPool.stepReader, close]
    split
    · exact ⟨h.closed, h.idle, hset (fun c hc => nomatch hc)⟩
    · exact ⟨h.closed, h.idle, hset (fun c hc => nomatch hc)⟩
  | done => exact h

theorem Emptied.stepCloser {s : ConnectionPool} {j : Nat} {k : Closer} (h : Emptied s) (fault : Bool) :
    Emptied (s.stepCloser j fault k) := by
  cases k with
  | called =>
    rw [ConnectionPool.stepCloser, if_pos h.closed]
    exact ⟨h.closed, h.idle, h.readers⟩
  | writing => exact ⟨h.closed, h.idle, h.readers⟩
  | draining =>
    rw [ConnectionPool.stepCloser]
    split
    · exact ⟨h.closed, h.idle, h.readers⟩
    · next hidle => exact absurd (hidle.symm.trans h.idle) (List.cons_ne_nil _ _)
  | popped c =>
    rw [ConnectionPool.stepCloser, close]
    split
    · exact ⟨h.closed, h.idle, h.readers⟩
    · exact ⟨h.closed, h.idle, h.readers⟩
  | done => exact h

theorem Emptied.next {s : ConnectionPool} (h : Emptied s) (l : Label) : Emptied (s.next l) := by
  cases l with
  | read =>
    refine ⟨h.closed, h.idle, fun r hr c => ?_⟩
    rcases List.mem_append.mp hr with hr | hr
    · exact h.readers r hr c
    · rw [List.mem_singleton.mp hr]
      exact fun hc => nomatch hc
  | closeAll => exact ⟨h.closed, h.idle, h.readers⟩
  | reader i fault =>
    simp only [ConnectionPool.next]
    cases hr : s.readers[i]? with
    | none => exact h
    | some r => exact h.stepReader hr fault
  | closer j fault =>
    simp only [ConnectionPool.next]
    cases hk : s.closers[j]? with
    | none => exact h
    | some k => exact h.stepCloser fault

theorem readers_stepReader (s : ConnectionPool) {i j : Nat} (hne : i ≠ j) (fault : Bool) (r : Reader) :
    (s.stepReader i fault r).readers[j]? = s.readers[j]? := by
  cases r with
  | waiting =>
    rw [stepReader]
    split
    · rfl
    · exact List.getElem?_set_ne hne
  | probing c =>
    rw [stepReader]
    split <;> exact List.getElem?_set_ne hne
  | «using» c => exact List.getElem?_set_ne hne
  | returning c => exact List.getElem?_set_ne hne
  | closing c =>
    rw [stepReader, close]
    split <;> exact List.getElem?_set_ne hne
  | done => rfl

theorem readers_stepCloser (s : ConnectionPool) (j : Nat) (fault : Bool) (k : Closer) :
    (s.stepCloser j fault k).readers = s.readers := by
  cases k with
  | called =>
    rw [stepCloser]
    split <;> rfl
  | writing => rfl
  | draining =>
    rw [stepCloser]
    split <;> rfl
  | popped c =>
    rw [stepCloser, close]
    split <;> rfl
  | done => rfl

/-- While the queue stays empty nobody who waits gets on. -/
theorem Emptied.waiting_next {s : ConnectionPool} (h : Emptied s) {i : Nat}
    (hwait : s.readers[i]? = some .waiting) (l : Label) : (s.next l).readers[i]? = some .waiting := by
  cases l with
  | read =>
    obtain ⟨hi, -⟩ := List.getElem?_eq_some_iff.mp hwait
    exact (List.getElem?_append_left hi).trans hwait
  | closeAll => exact hwait
  | reader j fault =>
    simp only [ConnectionPool.next]
    by_cases hji : j = i
    · subst hji
      simp only [hwait, ConnectionPool.stepReader, h.idle]
    · cases s.readers[j]? with
      | none => exact hwait
      | some r => exact (readers_stepReader s hji fault r).trans hwait
  | closer j fault =>
    simp only [ConnectionPool.next]
    cases s.closers[j]? with
    | none => exact hwait
    | some k =>
      rw [readers_stepCloser]
      exact hwait

/-- No thread has its hands on a read connection. -/
def AtRest (s : ConnectionPool) : Prop :=
  s.readers.flatMap Reader.held = [] ∧ s.closers.flatMap Closer.held = []

/-- Nobody gets a connection any more, and those that come back are closed. -/
structure StaysEmpty (readPoolSize : Nat) (s s' : ConnectionPool) : Prop where
  idle : s'.idle = []
  waiting : ∀ i : Nat, s.readers[i]? = some Reader.waiting → s'.readers[i]? = some Reader.waiting
  shut : AtRest s' → (s'.shut ++ s'.lost).Perm (List.range (max readPoolSize 1))

/-- **A pool that was emptied with nobody on the way to fill it again stays empty, whatever comes
later**: who waits for a connection waits for ever, and once no thread has its hands on one, every
read connection is closed or lost. -/
theorem closed_for_good (readPoolSize : Nat) (before after : List Label)
    (hemptied : Emptied (run next (start readPoolSize) before)) :
    StaysEmpty readPoolSize (run next (start readPoolSize) before)
      (run next (start readPoolSize) (before ++ after)) := by
  rw [run_append]
  have hafter := fun (i : Nat) hwait => run_invariant
    (I := fun s : ConnectionPool => Emptied s ∧ s.readers[i]? = some Reader.waiting)
    (fun _ l h => ⟨h.1.next l, h.1.waiting_next h.2 l⟩) ⟨hemptied, hwait⟩ after
  have hidle := (run_invariant (I := Emptied) (fun _ l h => h.next l) hemptied after).idle
  refine ⟨hidle, fun i hwait => (hafter i hwait).2, fun ⟨hreaders, hclosers⟩ => ?_⟩
  have hperm := places_perm readPoolSize (before ++ after)
  rw [run_append, places, hidle, hreaders, hclosers] at hperm
  exact hperm

/-- One connection: a thread reads and returns it, the pool is closed, and another comes to read. -/
def lateReader : List Label :=
  [.read, .reader 0 false, .reader 0 false, .reader 0 false, .reader 0 false, .closeAll, .closer 0 false,
    .closer 0 false, .closer 0 false, .closer 0 false, .closer 0 false, .read]

theorem lateReader_emptied : Emptied (run next (start 1) lateReader) where
  closed := rfl
  idle := rfl
  readers := by
    intro r hr c
    have hr' : r ∈ [Reader.done, Reader.waiting] := hr
    simp only [List.mem_cons, List.not_mem_nil, or_false] at hr'
    rcases hr' with rfl | rfl
    · exact fun h => nomatch h
    · exact fun h => nomatch h

theorem late_reader_waits :
    (run next (start 1) (lateReader ++ [.reader 1 false, .read, .reader 2 false])).readers[1]? =
      some Reader.waiting :=
  (closed_for_good 1 lateReader [.reader 1 false, .read, .reader 2 false] lateReader_emptied).waiting 1 rfl

/-- A connection that goes back to the queue after the pool was emptied is left open. -/
example :
    let s := run next (start 1) [.read, .reader 0 false, .reader 0 false, .reader 0 false, .closeAll,
      .closer 0 false, .closer 0 false, .closer 0 false, .reader 0 false]
    s.closed = true ∧ s.idle = [0] ∧ s.shut = [] := by decide

end ConnectionPool
end AgentKernel.Persistence
