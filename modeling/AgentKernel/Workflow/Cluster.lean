import AgentKernel.Turns.Keys
import AgentKernel.Workflow.Decisions

/-! Several instances of the workflow.

Instances live in workers; those of one worker share its engine and its projections, and
all of them share the event log and the decision deduper. Where look-ups are orderly,
`run_turn` is invoked once at most for a commit of a run at an offset
(`rounds_deduplicated`). Fingerprints join free texts with colons, so different commits may
have the same one (`fingerprint_eq_iff`), unless the ids of their runs have no colon. -/
namespace AgentKernel.Workflow
open Lib Dedupe Turns Events Projection Reconcile

/-! ### Instances and workers -/

/-- A worker process, with what its instances share among themselves. -/
structure Worker (σ : Type) where
  kernel : Kernel σ
  engine : System σ
  projections : Dict String RunProjection := Dict.empty

structure Instance where
  worker : Nat
  actor : Actor := {}

/-- The workers and instances, and the event log and the decision deduper of all. -/
structure Cluster (σ : Type) where
  journal : Journal
  fingerprints : List String := []
  workers : List (Worker σ)
  instances : List Instance
  calls : List Status := []
  /-- The instance of each call. -/
  owners : List Nat := []
  trace : List (Tagged Nat Note) := []
  /-- What `run_turn` was invoked for. -/
  rounds : List Processing := []

namespace Cluster
variable {σ : Type}

/-- Nothing was called yet. -/
def fresh (journal : Journal) (workers : List (Kernel σ × σ)) (instances : List Nat) : Cluster σ :=
  { journal := journal
    workers := workers.map (fun worker =>
      { kernel := worker.1, engine := { store := worker.2, turns := [], trace := [] } })
    instances := instances.map (fun worker => { worker := worker }) }

/-- What an instance finds. -/
def bring (c : Cluster σ) (worker : Worker σ) (a : Actor) : World σ :=
  { services :=
      { journal := c.journal
        projections := worker.projections
        fingerprints := c.fingerprints }
    process := { actor := a, engine := worker.engine }
    calls := c.calls
    trace := c.trace }

/-- What an instance leaves behind. -/
def keep (c : Cluster σ) (m : Nat) (here : Instance) (worker : Worker σ) (w : World σ)
    (started : Option Processing) : Cluster σ :=
  { journal := w.services.journal
    fingerprints := w.services.fingerprints
    workers := c.workers.set here.worker
      { worker with engine := w.process.engine, projections := w.services.projections }
    instances := c.instances.set m { here with actor := w.process.actor }
    calls := w.calls
    owners := c.owners ++ List.replicate (w.calls.length - c.calls.length) m
    trace := w.trace
    rounds := c.rounds ++ started.toList }

/-- An instance answers and continues its own calls only. One that continued as new just
stops; the next instance is another one. -/
def allows (c : Cluster σ) (m : Nat) : Label → Bool
  | .serve i _ | .resume i _ => c.owners[i]? = some m
  | .restart => false
  | .call _ | .runTurn _ | .turn _ => true

/-- An instance takes a step. -/
def step (c : Cluster σ) (move : Nat × Label) : Cluster σ :=
  match c.instances[move.1]? with
  | none => c
  | some here =>
    match c.workers[here.worker]? with
    | none => c
    | some worker =>
      if c.allows move.1 move.2 then
        c.keep move.1 here worker ((c.bring worker here.actor).step worker.kernel move.2)
          ((c.bring worker here.actor).startsTurn move.2)
      else c

/-- The look-ups that keep decision rounds apart: nobody else stands between the look-up and
the mark of the fingerprint, and no other commit was marked with it. -/
def Orderly (c : Cluster σ) (move : Nat × Label) : Prop :=
  match move.2 with
  | .serve i _ => NoRace c.calls i ∧ NoClash c.calls c.trace i
  | _ => True

instance (c : Cluster σ) : (move : Nat × Label) → Decidable (c.Orderly move)
  | (_, .serve i _) => inferInstanceAs (Decidable (NoRace c.calls i ∧ NoClash c.calls c.trace i))
  | (_, .call _) | (_, .resume _ _) | (_, .runTurn _) | (_, .turn _) | (_, .restart) => .isTrue trivial

theorem Orderly.serve {c : Cluster σ} {move : Nat × Label} (h : c.Orderly move) {i : Nat} {b : Behaviour}
    (hl : move.2 = .serve i b) : NoRace c.calls i ∧ NoClash c.calls c.trace i := by
  unfold Orderly at h
  rw [hl] at h
  exact h

structure Deduplicated (c : Cluster σ) : Prop where
  once : ∀ triple, c.rounds.countP (fun q => q.triple = triple) ≤ 1
  own : SuppressedByOwn c.trace

def Counted (c : Cluster σ) : Prop :=
  Workflow.Counted c.fingerprints c.calls (markedIn c.trace) c.rounds

variable {c : Cluster σ}

theorem orderly_step {move : Nat × Label} (horderly : c.Orderly move) (h : c.Counted ∧ SuppressedByOwn c.trace) :
    (c.step move).Counted ∧ SuppressedByOwn (c.step move).trace := by
  unfold step
  split
  · exact h
  · rename_i here hinstance
    split
    · exact h
    · rename_i worker hworker
      split
      · rename_i hallowed
        have hcounted : (c.bring worker here.actor).Counted c.rounds := h.1
        have hl : move.2 ≠ .restart := by
          intro hl
          rw [hl] at hallowed
          cases hallowed
        exact ⟨hcounted.step hl (fun i b hl => (horderly.serve hl).1),
          suppressed_step h.2 hcounted (fun i b hl => (horderly.serve hl).2)⟩
      · exact h

/-- A commit of a run at an offset has one fingerprint. -/
theorem fingerprint_of_triple {q q' : Processing} (h : q.triple = q'.triple) : q.fingerprint = q'.fingerprint := by
  simp only [Processing.triple, Prod.mk.injEq] at h
  obtain ⟨hrun, hcommit, hoffset⟩ := h
  unfold Processing.fingerprint
  rw [hrun, hcommit, hoffset]

theorem Counted.once (h : c.Counted) (triple : String × String × Int) :
    c.rounds.countP (fun q => q.triple = triple) ≤ 1 := by
  rcases Nat.eq_zero_or_pos (c.rounds.countP (fun q => q.triple = triple)) with hnone | hsome
  · omega
  · obtain ⟨q, -, hq⟩ := List.countP_pos_iff.mp hsome
    have htriple : q.triple = triple := of_decide_eq_true hq
    have hle : c.rounds.countP (fun q => q.triple = triple) ≤ c.rounds.countP (·.isAt q.fingerprint) := by
      refine List.countP_mono_left (fun q' _ hq' => ?_)
      have hsame : q'.triple = triple := of_decide_eq_true hq'
      exact decide_eq_true (fingerprint_of_triple (hsame.trans htriple.symm))
    have hcleared := h.cleared q.fingerprint
    have hsingle := h.single q.fingerprint
    omega

/-- **Decision rounds are deduplicated where look-ups are orderly.** For any number of
workers and instances over one event log and one deduper, and every interleaving of their
calls in which a fingerprint is looked up only while no other call is between its look-up
and its mark, and no other commit was marked with it: in every state reached, `run_turn`
was invoked once at most for a commit of a run at an offset, and what was turned away had
been marked for the same commit of the same run at the same offset. -/
theorem rounds_deduplicated (journal : Journal) (workers : List (Kernel σ × σ)) (instances : List Nat)
    (moves : List (Nat × Label)) (h : Along Cluster.step Orderly (fresh journal workers instances) moves) :
    (run Cluster.step (fresh journal workers instances) moves).Deduplicated := by
  have hfresh : (fresh journal workers instances).Counted ∧
      SuppressedByOwn (fresh journal workers instances).trace := by
    refine ⟨⟨fun f => ⟨nofun, fun h => absurd h (Nat.lt_irrefl 0)⟩, fun f => Nat.zero_le 1, fun f => Nat.le_refl 0⟩, ?_⟩
    exact preceded_nil _
  obtain ⟨hcounted, hown⟩ := run_invariant_along
    (I := fun c : Cluster σ => c.Counted ∧ SuppressedByOwn c.trace)
    (fun c move hmove hc => orderly_step hmove hc) hfresh moves h
  exact ⟨hcounted.once, hown⟩

end Cluster

/-! ### Fingerprints -/

/-- Two commits share a fingerprint when their run and commit ids read the same joined. -/
theorem fingerprint_eq_iff {q q' : Processing} : q.fingerprint = q'.fingerprint ↔
    runAction q.commit.runId q.commit.commitId = runAction q'.commit.runId q'.commit.commitId ∧
      q.offset = q'.offset :=
  legacy_eq_legacy_iff

/-- **Runs without a colon in their ids never clash.** -/
theorem triple_of_fingerprint {q q' : Processing} (hq : ':' ∉ q.commit.runId.toList)
    (hq' : ':' ∉ q'.commit.runId.toList) (h : q.fingerprint = q'.fingerprint) : q.triple = q'.triple := by
  obtain ⟨hjoined, hoffset⟩ := fingerprint_eq_iff.mp h
  have hlist : q.commit.runId.toList ++ ':' :: q.commit.commitId.toList =
      q'.commit.runId.toList ++ ':' :: q'.commit.commitId.toList := by
    simpa [runAction] using congrArg String.toList hjoined
  obtain ⟨hrun, hcommit⟩ := Text.prepend_separator_inj hq hq' hlist
  unfold Processing.triple
  rw [String.toList_inj.mp hrun, String.toList_inj.mp hcommit, hoffset]

namespace Sample

/-- Two instances in one worker. -/
def pair : Cluster InMemoryDedupeStore := Cluster.fresh Journal.empty [(kernel, Dict.empty)] [0, 0]

/-- An instance makes a call and takes it to the look-up of its fingerprint. -/
def arriving (m i : Nat) (commit : ActionCommit) : List (Nat × Label) :=
  ((.call (.processActionCommit commit)) :: awaits i 2).map (m, ·)

/-- A commit is appended by its writer. -/
def appending (i : Nat) (commit : ActionCommit) : List (Nat × Label) :=
  (.call (.write commit) :: awaits i 1).map (0, ·)

/-- A commit is delivered to one instance, and to the other when the first is through. -/
def redelivered : List (Nat × Label) :=
  appending 0 actionCommit ++ arriving 0 1 actionCommit ++ (awaits 1 2).map (0, ·) ++
    arriving 1 2 actionCommit ++ (awaits 2 2).map (1, ·)

/-- It is delivered to both before either has marked it. -/
def racing : List (Nat × Label) :=
  appending 0 actionCommit ++ arriving 0 1 actionCommit ++ arriving 1 2 actionCommit ++
    [(0, .serve 1 {}), (1, .serve 2 {}), (0, .resume 1 {}), (1, .resume 2 {})] ++
    (awaits 1 1).map (0, ·) ++ (awaits 2 1).map (1, ·)

/-- Two commits whose ids read the same joined. -/
def colliding : List (Nat × Label) :=
  let one := { actionCommit with runId := "a:b", commitId := "c" }
  let other := { actionCommit with runId := "a", commitId := "b:c" }
  appending 0 one ++ appending 1 other ++ arriving 0 2 one ++ (awaits 2 2).map (0, ·) ++
    arriving 1 3 other ++ [(1, .serve 3 {})]

end Sample

/-- A commit that is delivered again when its round was marked is decided once. -/
theorem redelivered_commit_decided_once :
    (run Cluster.step Sample.pair Sample.redelivered).rounds.length = 1 ∧
      (run Cluster.step Sample.pair Sample.redelivered).Deduplicated :=
  ⟨by decide, Cluster.rounds_deduplicated Journal.empty [(Sample.kernel, Dict.empty)] [0, 0]
    Sample.redelivered (by decide)⟩

/-- A commit whose second delivery is looked up before the first is marked is decided twice,
and a commit whose ids join to the same text as another's is not decided at all. -/
theorem rounds_not_deduplicated :
    ¬ (run Cluster.step Sample.pair Sample.racing).Deduplicated ∧
      ¬ (run Cluster.step Sample.pair Sample.colliding).Deduplicated := by
  constructor
  · intro h
    have honce := h.once ("run", "run.ready", 1)
    have htwice : (run Cluster.step Sample.pair Sample.racing).rounds.countP
        (fun q => q.triple = ("run", "run.ready", 1)) = 2 := by decide
    omega
  · intro h
    have hsuppressed : ((run Cluster.step Sample.pair Sample.colliding).trace.filterMap
        (fun o => o.what.suppressed?)).map Processing.triple = [("a", "b:c", 1)] := by decide
    have hmarked : (markedIn (run Cluster.step Sample.pair Sample.colliding).trace).map
        Processing.triple = [("a:b", "c", 1)] := by decide
    have hmem := List.mem_singleton_self ("a", "b:c", (1 : Int))
    rw [← hsuppressed] at hmem
    obtain ⟨q, hq, htriple⟩ := List.mem_map.mp hmem
    obtain ⟨o, ho, hsome⟩ := List.mem_filterMap.mp hq
    obtain ⟨q', hq', hsame⟩ := h.own.marked ho hsome
    have hmem' : q'.triple ∈ (markedIn (run Cluster.step Sample.pair Sample.colliding).trace).map
        Processing.triple := List.mem_map.mpr ⟨q', hq', rfl⟩
    rw [hmarked, hsame, htriple] at hmem'
    exact absurd hmem' (by decide)

end AgentKernel.Workflow
