import Mathlib.Data.List.Forall2
import AgentKernel.Contracts
import AgentKernel.Lib.JsonText

/-! Actions read from a model's text.

`JSONModeOutputParser.parse` reads an array of objects that a language model wrote, so every field
may hold any JSON value. A list or an object where a name is expected is asked for membership in a
frozen set, and raises there instead of being skipped; an `action_id` that is not a string and a
`timeout_ms` of `true` pass. `parse_well_typed_iff` says that these are the only ways in which the
parser fails to return one well typed action for each item that describes one. -/
namespace AgentKernel.Cognitive
open Lib
open Value (field)

/-! ### The parser -/

/-- What `Action(...)` is given. Its types are not checked, so `action_id` and `timeout_ms` are
whatever the item held. -/
structure ParsedAction where
  actionId : Value
  runId : String
  actionType : String
  effectClass : String
  inputJson : Option Payload
  interactionTarget : Option String
  timeoutMs : Value

def validEffectClasses : List String :=
  ["read_only", "idempotent_write", "compensatable_write", "irreversible_write"]

def validInteractionTargets : List String :=
  ["agent_peer", "it_service", "data_system", "tool_executor", "human_actor", "event_stream"]

/-- `value if value in names else None`, for a frozen set of strings. Looking a value up asks for
its hash, which lists and dictionaries do not have. -/
def memberOf (names : List String) : Value → Except PyError (Option String)
  | .str s => .ok (if s ∈ names then some s else none)
  | .list _ => .error ⟨.typeError, "unhashable type: 'list'"⟩
  | .dict _ => .error ⟨.typeError, "unhashable type: 'dict'"⟩
  | _ => .ok none

/-- `action_type`, if it is a string and not empty. -/
def actionType? (fields : Payload) : Option String :=
  (field fields "action_type").str?.filter (· ≠ "")

/-- `timeout_ms`, if `isinstance(timeout_ms, int)` and positive; `True` is both. -/
def keptTimeout : Value → Value
  | .int i => if i ≤ 0 then .none else .int i
  | .bool b => if b then .bool true else .none
  | _ => .none

/-- `item.get("action_id") or f"act-{uuid.uuid4().hex}"`. -/
def keptActionId (hex : String) (v : Value) : Value :=
  if v.truthy then v else .str ("act-" ++ hex)

/-- The action of an item whose type and effect class passed. -/
def buildAction (hex runId actionType effectClass : String) (fields : Payload) :
    Except PyError ParsedAction := do
  let interactionTarget ← memberOf validInteractionTargets (field fields "interaction_target")
  return {
    actionId := keptActionId hex (field fields "action_id")
    runId := runId
    actionType := actionType
    effectClass := effectClass
    inputJson := (field fields "input_json").dict?
    interactionTarget := interactionTarget
    timeoutMs := keptTimeout (field fields "timeout_ms") }

/-- `_parse_item`; `hex` is the identifier drawn for it, should one be needed. -/
def parseItem (hex runId : String) (item : Value) : Except PyError (Option ParsedAction) :=
  match item with
  | .dict fields =>
    match actionType? fields with
    | none => .ok none
    | some actionType => do
      match ← memberOf validEffectClasses (field fields "effect_class") with
      | none => return none
      | some effectClass => some <$> buildAction hex runId actionType effectClass fields
  | _ => .ok none

/-- The loop over the array. -/
def parseItems (hex : Nat → String) (runId : String) :
    Nat → List Value → Except PyError (List ParsedAction)
  | _, [] => .ok []
  | idx, item :: rest => do
    let action ← parseItem (hex idx) runId item
    let actions ← parseItems hex runId (idx + 1) rest
    return action.toList ++ actions

/-- `json.loads`: a value, or `JSONDecodeError`. -/
abbrev Loads := String → Option Value

/-- The items of the array that the text holds; a text that is empty, is no JSON or holds something
else has none. -/
def arrayItems (loads : Loads) (rawText : Option String) : List Value :=
  let raw := Text.strip (rawText.getD "")
  if raw = "" then []
  else
    match loads raw with
    | some (.list items) => items
    | _ => []

/-- `JSONModeOutputParser.parse`. -/
def parse (loads : Loads) (hex : Nat → String) (rawText : Option String) (runId : String) :
    Except PyError (List ParsedAction) :=
  let raw := Text.strip (rawText.getD "")
  if raw = "" then .ok []
  else
    match loads raw with
    | some (.list items) => parseItems hex runId 0 items
    | _ => .ok []

/-! ### What is asked of it -/

/-- Lists and dictionaries have no hash. -/
def hashable : Value → Bool
  | .list _ | .dict _ => false
  | _ => true

def nameIn (names : List String) (v : Value) : Option String := v.str?.filter (· ∈ names)

/-- The array items that describe an action: objects with a type and a valid effect class. -/
def isAction : Value → Bool
  | .dict fields =>
    (actionType? fields).isSome && (nameIn validEffectClasses (field fields "effect_class")).isSome
  | _ => false

/-- An action is the item's, and of the types its class declares. -/
structure ActionOf (runId : String) (item : Value) (action : ParsedAction) : Prop where
  item : ∃ fields, item = .dict fields ∧
    field fields "action_type" = .str action.actionType ∧
    field fields "effect_class" = .str action.effectClass ∧
    action.inputJson = (field fields "input_json").dict?
  actionId : ∃ id, action.actionId = .str id ∧ id ≠ ""
  runId : action.runId = runId
  actionType : action.actionType ≠ ""
  effectClass : action.effectClass ∈ validEffectClasses
  interactionTarget : ∀ target ∈ action.interactionTarget, target ∈ validInteractionTargets
  timeoutMs : action.timeoutMs = .none ∨ ∃ n : Int, 0 < n ∧ action.timeoutMs = .int n

/-- `parse` returns, and what it returns are the actions of the items that describe one, in
order. -/
def ParsesWell (loads : Loads) (hex : Nat → String) (rawText : Option String) (runId : String) :
    Prop :=
  ∃ actions, parse loads hex rawText runId = .ok actions ∧
    List.Forall₂ (ActionOf runId) ((arrayItems loads rawText).filter isAction) actions

/-! ### One item -/

/-- The fields of an item with a type and a valid effect class are ones the parser is right
about. -/
structure FieldsFit (fields : Payload) : Prop where
  interactionTarget : hashable (field fields "interaction_target")
  timeoutMs : field fields "timeout_ms" ≠ .bool true
  actionId : (field fields "action_id").truthy → ∃ id, field fields "action_id" = .str id

/-- The parser is right about the item: the effect class of an object with a type has a hash, and
the fields of one that describes an action fit. -/
def ItemFits : Value → Prop
  | .dict fields => (actionType? fields).isSome →
    hashable (field fields "effect_class") ∧
      ((nameIn validEffectClasses (field fields "effect_class")).isSome → FieldsFit fields)
  | _ => True

theorem memberOf_hashable (names : List String) {v : Value} (h : hashable v) :
    memberOf names v = .ok (nameIn names v) := by
  cases v with
  | str s => by_cases hs : s ∈ names <;> simp [memberOf, nameIn, Value.str?, Option.filter, hs]
  | list items => cases h
  | dict items => cases h
  | _ => rfl

theorem memberOf_ok {names : List String} {v : Value} {found : Option String}
    (h : memberOf names v = .ok found) : hashable v ∧ found = nameIn names v := by
  have hv : hashable v := by
    cases v with
    | list items => cases h
    | dict items => cases h
    | _ => rfl
  rw [memberOf_hashable names hv] at h
  cases h
  exact ⟨hv, rfl⟩

theorem nameIn_eq_some {names : List String} {v : Value} {s : String} :
    nameIn names v = some s ↔ v = .str s ∧ s ∈ names := by
  cases v <;> simp [nameIn, Value.str?]

theorem actionType?_eq_some {fields : Payload} {s : String} :
    actionType? fields = some s ↔ field fields "action_type" = .str s ∧ s ≠ "" := by
  rw [actionType?]
  cases field fields "action_type" <;> simp [Value.str?]

theorem keptTimeout_fits {v : Value} :
    (keptTimeout v = .none ∨ ∃ n : Int, 0 < n ∧ keptTimeout v = .int n) ↔ v ≠ .bool true := by
  cases v with
  | int i =>
    by_cases hi : i ≤ 0
    · simp [keptTimeout, hi]
    · have hpos : 0 < i := by omega
      simp [keptTimeout, hi, hpos]
  | bool b => cases b <;> simp [keptTimeout]
  | _ => simp [keptTimeout]

theorem keptActionId_fits {hex : String} {v : Value} :
    (∃ id, keptActionId hex v = .str id ∧ id ≠ "") ↔ (v.truthy → ∃ id, v = .str id) := by
  by_cases hv : v.truthy
  · rw [keptActionId, if_pos hv]
    constructor
    · rintro ⟨id, rfl, -⟩ -
      exact ⟨id, rfl⟩
    · intro h
      obtain ⟨id, rfl⟩ := h hv
      exact ⟨id, rfl, (Value.truthy_str id).mp hv⟩
  · rw [keptActionId, if_neg hv]
    constructor
    · intro _ h
      exact absurd h hv
    · intro _
      exact ⟨"act-" ++ hex, rfl, by simp⟩

section
variable {hex runId : String} {fields : Payload} {actionType effectClass : String}
  (htype : actionType? fields = some actionType)
  (hclass : nameIn validEffectClasses (field fields "effect_class") = some effectClass)

include htype hclass

/-- What is built for an item that describes an action is right exactly when its fields fit. -/
theorem buildAction_fits :
    (∃ action, buildAction hex runId actionType effectClass fields = .ok action ∧
      ActionOf runId (.dict fields) action) ↔ FieldsFit fields := by
  obtain ⟨htext, hne⟩ := actionType?_eq_some.mp htype
  obtain ⟨hname, hvalid⟩ := nameIn_eq_some.mp hclass
  constructor
  · rintro ⟨action, hbuilt, haction⟩
    cases hmember : memberOf validInteractionTargets (field fields "interaction_target") with
    | error e => simp [buildAction, hmember] at hbuilt
    | ok target =>
      simp only [buildAction, hmember] at hbuilt
      cases hbuilt
      exact ⟨(memberOf_ok hmember).1, keptTimeout_fits.mp haction.timeoutMs,
        keptActionId_fits.mp haction.actionId⟩
  · intro h
    simp only [buildAction, memberOf_hashable _ h.interactionTarget]
    refine ⟨_, rfl, ?_⟩
    exact {
      item := ⟨fields, rfl, htext, hname, rfl⟩
      actionId := keptActionId_fits.mpr h.actionId
      runId := rfl
      actionType := hne
      effectClass := hvalid
      interactionTarget := by
        intro target htarget
        exact (nameIn_eq_some.mp htarget).2
      timeoutMs := keptTimeout_fits.mpr h.timeoutMs }

end

/-- The parser skips an item or builds an action of it, as it should. -/
def ReadAs (runId : String) (item : Value) (result : Except PyError (Option ParsedAction)) : Prop :=
  if isAction item then ∃ action, result = .ok (some action) ∧ ActionOf runId item action
  else result = .ok none

theorem map_some_eq_ok {built : Except PyError ParsedAction} {found : Option ParsedAction} :
    (some <$> built) = Except.ok found ↔ ∃ action, built = .ok action ∧ found = some action := by
  cases built with
  | error e => simp
  | ok action =>
    constructor
    · intro h
      cases h
      exact ⟨action, rfl, rfl⟩
    · rintro ⟨_, h, rfl⟩
      cases h
      rfl

theorem parseItem_fits (hex runId : String) (item : Value) :
    ReadAs runId item (parseItem hex runId item) ↔ ItemFits item := by
  cases item with
  | dict fields =>
    cases htype : actionType? fields with
    | none => simp [ReadAs, isAction, ItemFits, parseItem, htype]
    | some actionType =>
      cases hmember : memberOf validEffectClasses (field fields "effect_class") with
      | error e =>
        have hv : ¬ hashable (field fields "effect_class") := by
          intro hv
          rw [memberOf_hashable _ hv] at hmember
          cases hmember
        simp [ReadAs, ItemFits, parseItem, htype, hmember, hv, bind, Except.bind]
      | ok found =>
        obtain ⟨hv, rfl⟩ := memberOf_ok hmember
        cases hclass : nameIn validEffectClasses (field fields "effect_class") with
        | none =>
          simp [ReadAs, isAction, ItemFits, parseItem, htype, hmember, hv, hclass, bind, Except.bind,
            pure, Except.pure]
        | some effectClass =>
          have hread : parseItem hex runId (.dict fields) =
              some <$> buildAction hex runId actionType effectClass fields := by
            simp only [parseItem, htype, hmember, hclass, bind, Except.bind]
          rw [ReadAs, if_pos (by simp [isAction, htype, hclass]), hread]
          simp only [ItemFits, htype, hclass, hv, Option.isSome_some, true_and, forall_const,
            map_some_eq_ok, Option.some.injEq]
          rw [← buildAction_fits htype hclass]
          constructor
          · rintro ⟨action, ⟨_, hbuilt, rfl⟩, haction⟩
            exact ⟨action, hbuilt, haction⟩
          · rintro ⟨action, hbuilt, haction⟩
            exact ⟨action, ⟨action, hbuilt, rfl⟩, haction⟩
  | _ => simp [ReadAs, isAction, ItemFits, parseItem]

/-- What is not skipped describes an action, and the other way round. -/
theorem isSome_of_parseItem {hex runId : String} {item : Value} {found : Option ParsedAction}
    (h : parseItem hex runId item = .ok found) : found.isSome = isAction item := by
  cases item with
  | dict fields =>
    cases htype : actionType? fields with
    | none =>
      simp only [parseItem, htype] at h
      cases h
      simp [isAction, htype]
    | some actionType =>
      cases hmember : memberOf validEffectClasses (field fields "effect_class") with
      | error e => simp [parseItem, htype, hmember, bind, Except.bind] at h
      | ok name =>
        obtain ⟨-, rfl⟩ := memberOf_ok hmember
        cases hclass : nameIn validEffectClasses (field fields "effect_class") with
        | none =>
          simp only [parseItem, htype, hmember, hclass, bind, Except.bind] at h
          cases h
          simp [isAction, hclass]
        | some effectClass =>
          simp only [parseItem, htype, hmember, hclass, bind, Except.bind] at h
          obtain ⟨action, -, rfl⟩ := map_some_eq_ok.mp h
          simp [isAction, htype, hclass]
  | _ =>
    cases h
    rfl

/-! ### The array -/

/-- The loop returns the actions of the items that describe one, in order. -/
def ReadAll (runId : String) (items : List Value) (result : Except PyError (List ParsedAction)) :
    Prop :=
  ∃ actions, result = .ok actions ∧
    List.Forall₂ (ActionOf runId) (items.filter isAction) actions

theorem parseItems_cons {hex : Nat → String} {runId : String} {idx : Nat} {item : Value}
    {rest : List Value} {actions : List ParsedAction} :
    parseItems hex runId idx (item :: rest) = .ok actions ↔
      ∃ found later, parseItem (hex idx) runId item = .ok found ∧
        parseItems hex runId (idx + 1) rest = .ok later ∧ actions = found.toList ++ later := by
  rw [parseItems]
  cases parseItem (hex idx) runId item with
  | error e => simp [bind, Except.bind]
  | ok found =>
    cases parseItems hex runId (idx + 1) rest with
    | error e => simp [bind, Except.bind]
    | ok later => simp [pure, Except.pure, bind, Except.bind, eq_comm]

/-- One turn of the loop: the item is read as it should, and so are the others. -/
theorem readAll_cons {hex : Nat → String} {runId : String} {idx : Nat} {item : Value}
    {rest : List Value} :
    ReadAll runId (item :: rest) (parseItems hex runId idx (item :: rest)) ↔
      ReadAs runId item (parseItem (hex idx) runId item) ∧
        ReadAll runId rest (parseItems hex runId (idx + 1) rest) := by
  constructor
  · rintro ⟨actions, hread, hactions⟩
    obtain ⟨found, later, hitem, hlater, rfl⟩ := parseItems_cons.mp hread
    have hsome := isSome_of_parseItem hitem
    by_cases haction : isAction item
    · rw [haction] at hsome
      obtain ⟨action, rfl⟩ := Option.isSome_iff_exists.mp hsome
      rw [List.filter_cons_of_pos haction] at hactions
      cases hactions with
      | cons hhead htail =>
        refine ⟨?_, later, hlater, htail⟩
        rw [ReadAs, if_pos haction]
        exact ⟨action, hitem, hhead⟩
    · rw [Bool.not_eq_true] at haction
      rw [haction, Option.isSome_eq_false_iff, Option.isNone_iff_eq_none] at hsome
      subst hsome
      rw [List.filter_cons_of_neg (by simp [haction])] at hactions
      refine ⟨?_, later, hlater, hactions⟩
      rw [ReadAs, if_neg (by simp [haction])]
      exact hitem
  · rintro ⟨hitem, later, hlater, htail⟩
    by_cases haction : isAction item
    · rw [ReadAs, if_pos haction] at hitem
      obtain ⟨action, hitem, hhead⟩ := hitem
      refine ⟨_, parseItems_cons.mpr ⟨some action, later, hitem, hlater, rfl⟩, ?_⟩
      rw [List.filter_cons_of_pos haction]
      exact .cons hhead htail
    · rw [ReadAs, if_neg haction] at hitem
      refine ⟨_, parseItems_cons.mpr ⟨none, later, hitem, hlater, rfl⟩, ?_⟩
      rw [List.filter_cons_of_neg haction]
      exact htail

theorem parseItems_fits (hex : Nat → String) (runId : String) (items : List Value) :
    ∀ idx, ReadAll runId items (parseItems hex runId idx items) ↔ ∀ item ∈ items, ItemFits item := by
  induction items with
  | nil =>
    intro idx
    constructor
    · intro _ item hitem
      cases hitem
    · intro _
      exact ⟨[], rfl, .nil⟩
  | cons item rest ih =>
    intro idx
    rw [readAll_cons, parseItem_fits, ih (idx + 1), List.forall_mem_cons]

/-- Past the decoding, `parse` is the loop. -/
theorem parse_eq (loads : Loads) (hex : Nat → String) (rawText : Option String) (runId : String) :
    parse loads hex rawText runId = parseItems hex runId 0 (arrayItems loads rawText) := by
  rw [parse, arrayItems]
  by_cases hraw : Text.strip (rawText.getD "") = ""
  · simp only [hraw, if_true]
    rfl
  · simp only [hraw, if_false]
    cases loads (Text.strip (rawText.getD "")) with
    | none => rfl
    | some v => cases v <;> rfl

/-- **When model output is parsed as promised.** `parse` returns one well typed action for each item
that describes one, and nothing else, exactly if every object with a type has an effect class
that is neither a list nor an object, and every item that describes an action has an interaction
target that is neither, a `timeout_ms` that is not `true` and an `action_id` that is a string or
falsy. -/
theorem parse_well_typed_iff (loads : Loads) (hex : Nat → String) (rawText : Option String)
    (runId : String) :
    ParsesWell loads hex rawText runId ↔ ∀ item ∈ arrayItems loads rawText, ItemFits item := by
  rw [ParsesWell, parse_eq]
  exact parseItems_fits hex runId (arrayItems loads rawText) 0

/-- An item whose effect class is given as a list, as read by `json.loads`. -/
def listedEffectClass : String :=
  "[\x7b\"action_type\": \"search\", \"effect_class\": [\"read_only\"]\x7d]"

theorem listed_effect_class_raises :
    ¬ ParsesWell (JsonText.loads String.ofList) (fun _ => "0") (some listedEffectClass) "run" := by
  have hraised : parse (JsonText.loads String.ofList) (fun _ => "0") (some listedEffectClass) "run" =
      .error ⟨.typeError, "unhashable type: 'list'"⟩ := by rfl
  rintro ⟨actions, hparse, -⟩
  rw [hraised] at hparse
  cases hparse

end AgentKernel.Cognitive
