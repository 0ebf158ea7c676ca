import AgentKernel.Lib.Text
import AgentKernel.Contracts

/-! The identity of a turn and its two dispatch keys.

A dispatch is deduplicated under its policy key, which ends in a hash of what is
dispatched, and under the key shape used before the policy, which ends in the
offset the turn is based on. Both join free-form texts with colons, and only the
part after the last colon is known to hold none. So two keys are equal exactly when
the texts before the last colon are and the last parts are (`legacy_eq_legacy_iff`,
`generate_eq_generate_iff`, `legacy_eq_generate_iff`), which keeps the two keys of
one turn apart (`legacy_ne_generate`) but not the runs and actions of two turns. -/
namespace AgentKernel.Turns
open Lib

inductive TurnTriggerType where
  | start
  | signal
  | childJoin
  | recoveryResume
  deriving DecidableEq, Repr

def TurnTriggerType.text : TurnTriggerType → String
  | .start => "start"
  | .signal => "signal"
  | .childJoin => "child_join"
  | .recoveryResume => "recovery_resume"

structure TurnInput where
  runId : String
  throughOffset : Int
  basedOnOffset : Int
  triggerType : TurnTriggerType
  history : List Value := []

/-! ### The content hash -/

/-- A hash function whose digest is written in hexadecimal, as `sha256().hexdigest()`
is. Nothing else about it is assumed. -/
structure Digest where
  hexdigest : String → String
  hex : ∀ s, ∀ c ∈ (hexdigest s).toList, c ∈ "0123456789abcdef".toList

theorem Digest.no_colon (H : Digest) (s : String) : ':' ∉ (H.hexdigest s).toList := by
  intro h
  have := H.hex s _ h
  revert this
  decide

namespace IdempotencyKeyPolicy

mutual

def canonicalizeJson : Value → Value
  | .dict items => .dict (canonicalizeEntries items)
  | .list items => .list (canonicalizeItems items)
  | .object repr => .str repr
  | v => v

def canonicalizeItems : List Value → List Value
  | [] => []
  | v :: rest => canonicalizeJson v :: canonicalizeItems rest

def canonicalizeEntries : List (String × Value) → List (String × Value)
  | [] => []
  | (k, v) :: rest => (k, canonicalizeJson v) :: canonicalizeEntries rest

end

/-- The document the content hash is taken of. -/
def hashPayload (action : Action) (snapshotHash : String) : Value :=
  .dict
    [("action_type", .str action.actionType),
     ("input_json", canonicalizeJson (.dict (action.inputJson.getD []))),
     ("policy_tags", .list (action.policyTags.map .str)),
     ("effect_class", .str action.effectClass.text),
     ("snapshot_hash", .str snapshotHash)]

def contentHash (H : Digest) (action : Action) (snapshotHash : String) : String :=
  H.hexdigest (hashPayload action snapshotHash).json

def generate (H : Digest) (runId : String) (action : Action) (snapshotHash : String) : String :=
  "dispatch:" ++ runId ++ ":" ++ action.actionId ++ ":" ++ contentHash H action snapshotHash

end IdempotencyKeyPolicy

open IdempotencyKeyPolicy

def legacyDispatchDedupeKey (runId actionId : String) (basedOnOffset : Int) : String :=
  runId ++ ":" ++ actionId ++ ":" ++ toString basedOnOffset

/-! ### Turn identity -/

structure TurnIdentity where
  decisionRef : String
  decisionFingerprint : String
  intentCommitRef : String
  dispatchDedupeKey : String
  deriving DecidableEq, Repr

def buildTurnIdentity (H : Digest) (input : TurnInput) (action : Action)
    (snapshotHash : Option String) : TurnIdentity :=
  { decisionRef := "decision:" ++ input.runId ++ ":" ++ toString input.basedOnOffset
    decisionFingerprint :=
      input.runId ++ ":" ++ input.triggerType.text ++ ":" ++ action.actionId ++ ":" ++
        toString input.basedOnOffset
    intentCommitRef := "intent:" ++ action.actionId ++ ":" ++ toString input.throughOffset
    dispatchDedupeKey :=
      match snapshotHash with
      | some hash => generate H input.runId action hash
      | none => legacyDispatchDedupeKey input.runId action.actionId input.basedOnOffset }

/-! ### What the keys keep apart -/

/-- The part both keys share, before their last colon. -/
def runAction (runId actionId : String) : String := runId ++ ":" ++ actionId

theorem contentHash_no_colon (H : Digest) (action : Action) (snapshotHash : String) :
    ':' ∉ (contentHash H action snapshotHash).toList :=
  H.no_colon _

theorem generate_joined (H : Digest) (runId : String) (action : Action) (snapshotHash : String) :
    generate H runId action snapshotHash =
      ("dispatch:" ++ runAction runId action.actionId) ++ ":" ++
        contentHash H action snapshotHash := by
  simp only [generate, runAction, String.append_assoc]

theorem legacy_joined (runId actionId : String) (offset : Int) :
    legacyDispatchDedupeKey runId actionId offset =
      runAction runId actionId ++ ":" ++ toString offset := rfl

theorem legacy_eq_legacy_iff {r r' a a' : String} {o o' : Int} :
    legacyDispatchDedupeKey r a o = legacyDispatchDedupeKey r' a' o' ↔
      runAction r a = runAction r' a' ∧ o = o' := by
  rw [legacy_joined, legacy_joined, Text.joined_eq_iff (Text.intText_no_colon o) (Text.intText_no_colon o')]
  exact and_congr_right (fun _ => ⟨Text.intText_injective, congrArg _⟩)

theorem generate_eq_generate_iff {H : Digest} {r r' : String} {action action' : Action}
    {h h' : String} :
    generate H r action h = generate H r' action' h' ↔
      runAction r action.actionId = runAction r' action'.actionId ∧
        contentHash H action h = contentHash H action' h' := by
  rw [generate_joined, generate_joined,
    Text.joined_eq_iff (contentHash_no_colon H action h) (contentHash_no_colon H action' h'),
    String.append_right_inj]

theorem legacy_eq_generate_iff {H : Digest} {r r' a : String} {o : Int} {action : Action}
    {h : String} :
    legacyDispatchDedupeKey r a o = generate H r' action h ↔
      runAction r a = "dispatch:" ++ runAction r' action.actionId ∧
        toString o = contentHash H action h := by
  rw [legacy_joined, generate_joined,
    Text.joined_eq_iff (Text.intText_no_colon o) (contentHash_no_colon H action h)]

theorem ne_dispatch_append (s : String) : s ≠ "dispatch:" ++ s := by
  intro h
  have hlength := congrArg String.length h
  rw [String.length_append] at hlength
  have hpositive : 0 < "dispatch:".length := by decide
  omega

/-- The two keys of one turn differ: the policy key is longer before its last colon. -/
theorem legacy_ne_generate (H : Digest) (runId : String) (action : Action) (snapshotHash : String)
    (offset : Int) :
    legacyDispatchDedupeKey runId action.actionId offset ≠
      generate H runId action snapshotHash := by
  intro h
  exact ne_dispatch_append _ (legacy_eq_generate_iff.mp h).1

end AgentKernel.Turns
