import AgentKernel.Lib.JsonUnique
import AgentKernel.Capabilities.Snapshot

/-! Which turns share a dispatch key.

The key of a turn ends in a hash of what its action does and of the snapshot it runs
under, and the snapshot's hash covers the run id. Where the hash tells JSON texts apart,
two turns share a key exactly when they agree in all of it (`generate_eq_iff`): the run
and the action, however colons divide them, the input up to the order of its keys, and
the snapshot's input with its binding lists as sets of names. -/
namespace AgentKernel.Capabilities
open Lib Turns Turns.IdempotencyKeyPolicy
open Lib.JsonText (IsJson IsJsonItems IsJsonEntries)

/-! ### What two turns share -/

/-- The same names, whatever their order and number. -/
def SameNames (names names' : List String) : Prop := ∀ name, name ≠ "" → (name ∈ names ↔ name ∈ names')

/-- Equal snapshot inputs, their binding lists taken as sets of names, apart from the
reference that may move under one content hash. -/
structure SameSnapshotInput (i i' : CapabilitySnapshotInput) : Prop where
  runId : i.runId = i'.runId
  basedOnOffset : i.basedOnOffset = i'.basedOnOffset
  tenantPolicyRef : i.tenantPolicyRef = i'.tenantPolicyRef
  permissionMode : i.permissionMode = i'.permissionMode
  toolBindings : SameNames i.toolBindings i'.toolBindings
  mcpBindings : SameNames i.mcpBindings i'.mcpBindings
  skillBindings : SameNames i.skillBindings i'.skillBindings
  featureFlags : SameNames i.featureFlags i'.featureFlags
  contextContentHash : i.contextContentHash = i'.contextContentHash
  budgetRef : i.budgetRef = i'.budgetRef
  quotaRef : i.quotaRef = i'.quotaRef
  sessionMode : i.sessionMode = i'.sessionMode
  approvalState : i.approvalState = i'.approvalState
  declarativeBundleDigest : i.declarativeBundleDigest = i'.declarativeBundleDigest
  peerRunBindings : SameNames i.peerRunBindings i'.peerRunBindings

/-- What an action is given, `None` being the empty object. -/
def inputOf (action : Action) : Value := .dict (action.inputJson.getD [])

/-- Actions that do the same, their inputs equal up to the order of keys. -/
structure SameAction (action action' : Action) : Prop where
  actionId : action.actionId = action'.actionId
  actionType : action.actionType = action'.actionType
  effectClass : action.effectClass = action'.effectClass
  policyTags : action.policyTags = action'.policyTags
  input : (inputOf action).sortKeys = (inputOf action').sortKeys

/-! ### The documents that are hashed -/

mutual

/-- A JSON value is its own canonical form. -/
theorem canonicalizeJson_eq_self {v : Value} (hv : IsJson v) : canonicalizeJson v = v := by
  cases v with
  | none | bool | int | float | str => rfl
  | list items => rw [canonicalizeJson, canonicalizeItems_eq_self hv]
  | dict items => rw [canonicalizeJson, canonicalizeEntries_eq_self hv.2]
  | object => exact hv.elim

theorem canonicalizeItems_eq_self {items : List Value} (h : IsJsonItems items) :
    canonicalizeItems items = items := by
  cases items with
  | nil => rfl
  | cons v rest =>
    rw [canonicalizeItems, canonicalizeJson_eq_self h.1, canonicalizeItems_eq_self h.2]

theorem canonicalizeEntries_eq_self {items : Payload} (h : IsJsonEntries items) :
    canonicalizeEntries items = items := by
  cases items with
  | nil => rfl
  | cons e rest =>
    obtain ⟨k, v⟩ := e
    rw [canonicalizeEntries, canonicalizeJson_eq_self h.1, canonicalizeEntries_eq_self h.2]

end

theorem isJsonItems_texts (texts : List String) : IsJsonItems (texts.map .str) := by
  induction texts with
  | nil => trivial
  | cons s rest ih => exact ⟨trivial, ih⟩

theorem sortKeysItems_texts (texts : List String) :
    Value.sortKeysItems (texts.map .str) = texts.map .str := by
  induction texts with
  | nil => rfl
  | cons s rest ih => rw [List.map_cons, Value.sortKeysItems, ih, Value.sortKeys]

theorem texts_inj {texts texts' : List String} :
    texts.map Value.str = texts'.map Value.str ↔ texts = texts' :=
  List.map_inj_right (fun _ _ h => Value.str.inj h)

/-- A dictionary is its keys and what it holds under them. -/
theorem eq_map_lookup {items : Payload} (hnodup : (items.map Prod.fst).Nodup) :
    items = (items.map Prod.fst).map (fun key => (key, (items.lookup key).getD .none)) := by
  rw [List.map_map]
  refine (List.map_id items).symm.trans (List.map_congr_left (fun e he => ?_))
  have hlookup := (Dict.mem_iff_lookup hnodup e.1 e.2).mp he
  rw [Function.comp_apply, hlookup]
  rfl

/-- Documents with one list of keys are equal up to key order exactly when their values are. -/
theorem sortKeys_dict_eq_iff_entries {keys : List String} (hnodup : keys.Nodup)
    {items items' : Payload} (hkeys : items.map Prod.fst = keys) (hkeys' : items'.map Prod.fst = keys) :
    (Value.dict items).sortKeys = (Value.dict items').sortKeys ↔
      Value.sortKeysEntries items = Value.sortKeysEntries items' := by
  constructor
  · intro h
    have hlookup : ∀ key, (Value.sortKeysEntries items).lookup key =
        (Value.sortKeysEntries items').lookup key := by
      intro key
      rw [Value.sortKeysEntries_eq_map, Value.sortKeysEntries_eq_map, Dict.lookup_map,
        Dict.lookup_map]
      exact (JsonText.sortKeys_dict_eq_iff (hkeys ▸ hnodup) (hkeys' ▸ hnodup)).mp h key
    have hmap : ∀ {l : Payload}, l.map Prod.fst = keys → Value.sortKeysEntries l =
        keys.map (fun key => (key, ((Value.sortKeysEntries l).lookup key).getD .none)) := by
      intro l hl
      have hsorted := (JsonText.keys_sortKeysEntries l).trans hl
      have hentries := eq_map_lookup (hsorted ▸ hnodup)
      rw [hsorted] at hentries
      exact hentries
    rw [hmap hkeys, hmap hkeys']
    exact List.map_congr_left (fun key _ => by rw [hlookup key])
  · intro h
    rw [Value.sortKeys, Value.sortKeys, h]

/-! ### The snapshot's hash -/

theorem normalizeStringList_eq_iff {names names' : List String} :
    normalizeStringList names = normalizeStringList names' ↔ SameNames names names' := by
  have hmem : ∀ (l : List String) (name : String),
      name ∈ normalizeStringList l ↔ name ∈ l ∧ name ≠ "" := by
    intro l name
    rw [normalizeStringList, Text.mem_sortedSet, List.mem_filter, decide_eq_true_eq]
  constructor
  · intro h name hne
    have hname := hmem names name
    rw [h, hmem names' name] at hname
    simpa [hne] using hname.symm
  · intro h
    refine (normalizeStringList_sorted names).ext (normalizeStringList_sorted names') ?_
    intro name
    rw [hmem, hmem]
    exact and_congr_left (h name)

theorem sortKeys_textOrNone (s : Option String) : (textOrNone s).sortKeys = textOrNone s := by
  cases s with
  | none => rfl
  | some s => rfl

theorem textOrNone_inj {s s' : Option String} : textOrNone s = textOrNone s' ↔ s = s' := by
  cases s with
  | none => cases s' <;> simp [textOrNone]
  | some t => cases s' <;> simp [textOrNone]

def bundleKeys : List String := ["bundle_ref", "semantics_version", "content_hash", "compile_hash"]

theorem normalizeBundleDigest_inj {digest digest' : Option DeclarativeBundleDigest} :
    (normalizeBundleDigest digest).sortKeys = (normalizeBundleDigest digest').sortKeys ↔
      digest = digest' := by
  cases digest with
  | none =>
    cases digest' with
    | none => simp
    | some d' => simp [normalizeBundleDigest, Value.sortKeys]
  | some d =>
    cases digest' with
    | none => simp [normalizeBundleDigest, Value.sortKeys]
    | some d' =>
      have hnodup : bundleKeys.Nodup := by decide
      refine (sortKeys_dict_eq_iff_entries hnodup rfl rfl).trans ?_
      cases d
      cases d'
      simp [Value.sortKeysEntries, Value.sortKeys]

theorem sortKeys_textList (names : List String) : (textList names).sortKeys = textList names := by
  rw [textList, Value.sortKeys, sortKeysItems_texts]

theorem textList_inj {names names' : List String} :
    textList names = textList names' ↔ names = names' := by
  rw [textList, textList, Value.list.injEq, texts_inj]

def payloadKeys : List String :=
  ["snapshot_schema_version", "run_id", "based_on_offset", "tenant_policy_ref", "permission_mode",
   "tool_bindings", "mcp_bindings", "skill_bindings", "feature_flags", "context_content_hash",
   "budget_ref", "quota_ref", "session_mode", "approval_state", "declarative_bundle_digest",
   "peer_run_bindings"]

theorem payloadKeys_nodup : payloadKeys.Nodup := by decide

theorem canonicalPayload_keys (i : CapabilitySnapshotInput) :
    (canonicalPayload i).map Prod.fst = payloadKeys := rfl

/-- The document of a snapshot says what its input says. -/
theorem canonicalPayload_eq_iff {i i' : CapabilitySnapshotInput} :
    (Value.dict (canonicalPayload i)).sortKeys = (Value.dict (canonicalPayload i')).sortKeys ↔
      SameSnapshotInput i i' := by
  refine (sortKeys_dict_eq_iff_entries payloadKeys_nodup (canonicalPayload_keys i)
    (canonicalPayload_keys i')).trans ?_
  simp only [canonicalPayload, Value.sortKeysEntries, sortKeys_textList, sortKeys_textOrNone,
    Value.sortKeys, List.cons.injEq, Prod.mk.injEq, true_and, and_true, Value.str.injEq,
    Value.int.injEq, textList_inj, textOrNone_inj, normalizeStringList_eq_iff,
    normalizeBundleDigest_inj]
  constructor
  · intro h
    obtain ⟨h1, h2, h3, h4, h5, h6, h7, h8, h9, h10, h11, h12, h13, h14, h15⟩ := h
    exact ⟨h1, h2, h3, h4, h5, h6, h7, h8, h9, h10, h11, h12, h13, h14, h15⟩
  · intro h
    exact ⟨h.runId, h.basedOnOffset, h.tenantPolicyRef, h.permissionMode, h.toolBindings,
      h.mcpBindings, h.skillBindings, h.featureFlags, h.contextContentHash, h.budgetRef, h.quotaRef,
      h.sessionMode, h.approvalState, h.declarativeBundleDigest, h.peerRunBindings⟩

theorem canonicalPayload_isJson (i : CapabilitySnapshotInput) : IsJson (.dict (canonicalPayload i)) := by
  have hlist : ∀ names, IsJson (textList names) := isJsonItems_texts
  have htext : ∀ s, IsJson (textOrNone s) := by
    intro s
    cases s <;> trivial
  have hdigest : IsJson (normalizeBundleDigest i.declarativeBundleDigest) := by
    cases i.declarativeBundleDigest with
    | none => trivial
    | some digest =>
      have hnodup : bundleKeys.Nodup := by decide
      exact ⟨hnodup, trivial, trivial, trivial, trivial, trivial⟩
  exact ⟨payloadKeys_nodup, trivial, trivial, trivial, trivial, trivial, hlist _, hlist _, hlist _, hlist _,
    htext _, htext _, htext _, htext _, htext _, hdigest, hlist _, trivial⟩

/-! ### The content hash -/

def hashKeys : List String := ["action_type", "input_json", "policy_tags", "effect_class", "snapshot_hash"]

theorem hashKeys_nodup : hashKeys.Nodup := by decide

theorem effectClass_text_inj {e e' : EffectClass} : e.text = e'.text ↔ e = e' := by
  cases e <;> cases e' <;> decide

/-- The document of a dispatch says what its action does, and under which hash. -/
theorem hashPayload_eq_iff {action action' : Action} (hinput : IsJson (inputOf action))
    (hinput' : IsJson (inputOf action')) {snapshotHash snapshotHash' : String} :
    (hashPayload action snapshotHash).sortKeys = (hashPayload action' snapshotHash').sortKeys ↔
      action.actionType = action'.actionType ∧
      (inputOf action).sortKeys = (inputOf action').sortKeys ∧
      action.policyTags = action'.policyTags ∧ action.effectClass = action'.effectClass ∧
      snapshotHash = snapshotHash' := by
  refine (sortKeys_dict_eq_iff_entries hashKeys_nodup rfl rfl).trans ?_
  rw [← inputOf, ← inputOf, canonicalizeJson_eq_self hinput, canonicalizeJson_eq_self hinput']
  generalize inputOf action = input
  generalize inputOf action' = input'
  simp only [Value.sortKeysEntries, Value.sortKeys, sortKeysItems_texts, List.cons.injEq,
    Prod.mk.injEq, true_and, and_true, Value.str.injEq, Value.list.injEq, texts_inj,
    effectClass_text_inj]

theorem hashPayload_isJson {action : Action} (hinput : IsJson (inputOf action)) (snapshotHash : String) :
    IsJson (hashPayload action snapshotHash) := by
  have hcanonical : IsJson (canonicalizeJson (inputOf action)) := by
    rw [canonicalizeJson_eq_self hinput]
    exact hinput
  exact ⟨hashKeys_nodup, trivial, hcanonical, isJsonItems_texts _, trivial, trivial, trivial⟩

/-! ### The key -/

/-- A text `json.dumps` writes of a JSON value, escaping other characters or not. -/
def IsJsonText (text : String) : Prop := ∃ v, IsJson v ∧ (text = v.json ∨ text = v.jsonPlain)

/-- No two JSON texts have one digest. -/
def NoCollision (H : Digest) : Prop :=
  ∀ text text', IsJsonText text → IsJsonText text' → H.hexdigest text = H.hexdigest text' →
    text = text'

theorem contentHash_eq_iff {H : Digest} (hH : NoCollision H) {action action' : Action}
    (hinput : IsJson (inputOf action)) (hinput' : IsJson (inputOf action'))
    {snapshotHash snapshotHash' : String} :
    contentHash H action snapshotHash = contentHash H action' snapshotHash' ↔
      (hashPayload action snapshotHash).sortKeys = (hashPayload action' snapshotHash').sortKeys := by
  have hjson := hashPayload_isJson hinput snapshotHash
  have hjson' := hashPayload_isJson hinput' snapshotHash'
  rw [← JsonText.json_inj hjson hjson']
  constructor
  · intro h
    exact hH _ _ ⟨_, hjson, .inl rfl⟩ ⟨_, hjson', .inl rfl⟩ h
  · intro h
    rw [contentHash, contentHash, h]

theorem buildStableSha256_eq_iff {H : Digest} (hH : NoCollision H) {i i' : CapabilitySnapshotInput} :
    buildStableSha256 H (canonicalPayload i) = buildStableSha256 H (canonicalPayload i') ↔
      SameSnapshotInput i i' := by
  have hjson := canonicalPayload_isJson i
  have hjson' := canonicalPayload_isJson i'
  rw [← canonicalPayload_eq_iff, ← JsonText.jsonPlain_inj hjson hjson']
  constructor
  · intro h
    exact hH _ _ ⟨_, hjson, .inr rfl⟩ ⟨_, hjson', .inr rfl⟩ h
  · intro h
    rw [buildStableSha256, buildStableSha256, h]

theorem build_snapshotHash {H : Digest} {now : String} {i : CapabilitySnapshotInput}
    {snapshot : CapabilitySnapshot} (h : build H now i = .ok snapshot) :
    snapshot.snapshotHash = buildStableSha256 H (canonicalPayload i) := by
  unfold build at h
  cases hvalid : validateInput i with
  | error e =>
    rw [hvalid] at h
    cases h
  | ok u =>
    rw [hvalid] at h
    cases h
    rfl

/-- The run and the action are known from the key once the run is. -/
theorem runAction_inj {runId actionId actionId' : String}
    (h : runAction runId actionId = runAction runId actionId') : actionId = actionId' :=
  (String.append_right_inj _).mp h

/-- **Which turns share a dispatch key.** Two turns whose snapshots were built for their runs
have one key exactly when they do the same in the same run under the same snapshot input. -/
theorem generate_eq_iff {H : Digest} (hH : NoCollision H) {now now' : String}
    {i i' : CapabilitySnapshotInput} {snapshot snapshot' : CapabilitySnapshot}
    (hbuild : build H now i = .ok snapshot) (hbuild' : build H now' i' = .ok snapshot')
    {action action' : Action} (hinput : IsJson (inputOf action)) (hinput' : IsJson (inputOf action')) :
    generate H i.runId action snapshot.snapshotHash = generate H i'.runId action' snapshot'.snapshotHash ↔
      SameAction action action' ∧ SameSnapshotInput i i' := by
  rw [generate_eq_generate_iff, contentHash_eq_iff hH hinput hinput',
    hashPayload_eq_iff hinput hinput', build_snapshotHash hbuild, build_snapshotHash hbuild',
    buildStableSha256_eq_iff hH]
  constructor
  · intro h
    obtain ⟨hrun, htype, hsame, htags, heffect, hsnapshot⟩ := h
    -- The run is in the snapshot's document, so the colons of the key need not be told apart.
    rw [hsnapshot.runId] at hrun
    exact ⟨⟨runAction_inj hrun, htype, heffect, htags, hsame⟩, hsnapshot⟩
  · intro h
    obtain ⟨haction, hsnapshot⟩ := h
    rw [hsnapshot.runId, haction.actionId]
    exact ⟨rfl, haction.actionType, haction.input, haction.policyTags, haction.effectClass, hsnapshot⟩

namespace KeySample
open Lib.JsonText (CharCode)

/-- The text of the snapshot input below, for a run. -/
def snapshotText (runId : String) : String :=
  "\x7b\"approval_state\":null,\"based_on_offset\":1,\"budget_ref\":null," ++
  "\"context_content_hash\":\"c1\",\"declarative_bundle_digest\":null,\"feature_flags\":[]," ++
  "\"mcp_bindings\":[],\"peer_run_bindings\":[],\"permission_mode\":\"strict\"," ++
  "\"quota_ref\":null,\"run_id\":\"" ++ runId ++ "\",\"session_mode\":null," ++
  "\"skill_bindings\":[],\"snapshot_schema_version\":\"1\"," ++
  "\"tenant_policy_ref\":\"policy:default\",\"tool_bindings\":[\"read\",\"write\"]\x7d"

/-- The text of what the actions below do, under a snapshot's hash. -/
def contentText (snapshotHash : String) : String :=
  "\x7b\"action_type\":\"tool_call\",\"effect_class\":\"read_only\"," ++
  "\"input_json\":\x7b\"path\":\"/tmp\",\"retries\":2\x7d,\"policy_tags\":[]," ++
  "\"snapshot_hash\":\"" ++ snapshotHash ++ "\"\x7d"

def snapshotHashRA : String := "7ac7564ba61b09254f1640faa46f9f9b61f465ebfc170a5b0f40130c0c3ab2ef"
def contentHashRA : String := "67be1e35c370f78971bb741ce4db13f4670192103a3f991a0596a55e0bd2f28d"
def snapshotHashR : String := "4c125e9e801687ce130c5d912bb5ffd6abdcb92d4c50ce24ab1a41aa825bf6c0"
def contentHashR : String := "3fd206ec37c7896db070a5ce7ef6a6dbf05af6376dbc7bcdd72f6613d32f69f5"

/-- The SHA-256 digests of the four texts. -/
def known : List (String × String) :=
  [(snapshotText "r:a", snapshotHashRA), (contentText snapshotHashRA, contentHashRA),
   (snapshotText "r", snapshotHashR), (contentText snapshotHashR, contentHashR)]

theorem known_digests : ∀ e ∈ known,
    e.2.toList.length = 64 ∧ ∀ c ∈ e.2.toList, c ∈ "0123456789abcdef".toList := by
  have hall : ∀ e ∈ known, e.2.toList.length = 64 ∧
      e.2.toList.all (fun c => decide (c ∈ "0123456789abcdef".toList)) = true := by decide +kernel
  intro e he
  exact ⟨(hall e he).1, JsonText.forall_chars (hall e he).2⟩

theorem mem_known {text d : String} (h : known.lookup text = some d) : (text, d) ∈ known := by
  obtain ⟨front, rest, hknown, _⟩ := List.lookup_eq_some_iff.mp h
  exact hknown ▸ List.mem_append_right _ List.mem_cons_self

/-- Each character in unary. -/
def unary : CharCode where
  encode c := List.replicate c.toNat '1' ++ ['0']
  prefixFree := by
    intro c d r r' h
    have hsplit : ∀ (n : Nat) (more : List Char),
        (List.replicate n '1' ++ ['0'] ++ more).takeWhile (· = '1') = List.replicate n '1' := by
      intro n more
      rw [List.append_assoc, List.takeWhile_append_of_pos (by simp)]
      simp
    have hones : List.replicate c.toNat '1' = List.replicate d.toNat '1' := by
      rw [← hsplit c.toNat r, h, hsplit]
    have hcode : c.toNat = d.toNat := by simpa using congrArg List.length hones
    obtain rfl : c = d := by rw [← Char.ofNat_toNat c, hcode, Char.ofNat_toNat]
    exact ⟨rfl, List.append_cancel_left h⟩
  noQuote := by
    intro c rest h
    cases hcode : c.toNat with
    | zero =>
      rw [hcode] at h
      cases h
    | succ n =>
      rw [hcode] at h
      cases h

/-- A digest of any other text, longer than SHA-256 has. -/
def longDigest (text : String) : String :=
  String.ofList (List.replicate 65 '0' ++ text.toList.flatMap unary.encode)

theorem longDigest_inj {text text' : String} (h : longDigest text = longDigest text') : text = text' := by
  have hlist := List.append_cancel_left (String.ofList_injective h)
  exact String.toList_inj.mp (unary.flatMap_encode_inj (congrArg (· ++ ['"']) hlist)).1

/-- A hash with the digests SHA-256 has of the four texts. -/
def digest : Digest where
  hexdigest text := (known.lookup text).getD (longDigest text)
  hex text c hc := by
    cases hlookup : known.lookup text with
    | none =>
      rw [hlookup, Option.getD_none, longDigest, String.toList_ofList, List.mem_append,
        List.mem_flatMap] at hc
      rcases hc with hzero | ⟨d, _, hunary⟩
      · rw [List.eq_of_mem_replicate hzero]
        decide
      · rcases List.mem_append.mp hunary with hone | hzero
        · rw [List.eq_of_mem_replicate hone]
          decide
        · rw [List.mem_singleton.mp hzero]
          decide
    | some d =>
      rw [hlookup, Option.getD_some] at hc
      exact (known_digests _ (mem_known hlookup)).2 c hc

theorem digest_noCollision : NoCollision digest := by
  intro text text' _ _ h
  have hlong : ∀ s : String, 65 ≤ (longDigest s).toList.length := by
    intro s
    rw [longDigest, String.toList_ofList, List.length_append, List.length_replicate]
    omega
  have hvalue : ∀ s : String, digest.hexdigest s = (known.lookup s).getD (longDigest s) := fun _ => rfl
  rw [hvalue, hvalue] at h
  cases hlookup : known.lookup text with
  | none =>
    cases hlookup' : known.lookup text' with
    | none =>
      rw [hlookup, hlookup'] at h
      exact longDigest_inj h
    | some d' =>
      rw [hlookup, hlookup', Option.getD_none, Option.getD_some] at h
      have hd : d'.toList.length = 64 := (known_digests _ (mem_known hlookup')).1
      have hlong := hlong text
      rw [h] at hlong
      omega
  | some d =>
    cases hlookup' : known.lookup text' with
    | none =>
      rw [hlookup, hlookup', Option.getD_none, Option.getD_some] at h
      have hd : d.toList.length = 64 := (known_digests _ (mem_known hlookup)).1
      have hlong := hlong text'
      rw [← h] at hlong
      omega
    | some d' =>
      have hdistinct : ∀ e ∈ known, ∀ e' ∈ known, e.2 = e'.2 → e.1 = e'.1 := by decide +kernel
      rw [hlookup, hlookup', Option.getD_some, Option.getD_some] at h
      exact hdistinct _ (mem_known hlookup) _ (mem_known hlookup') h

/-- The snapshot input of a run. -/
def input (runId : String) : CapabilitySnapshotInput :=
  { runId := runId
    basedOnOffset := 1
    tenantPolicyRef := "policy:default"
    permissionMode := "strict"
    toolBindings := ["read", "write"]
    contextContentHash := some "c1" }

/-- The same input as a replay may assemble it: a tool named twice, in another order, and
the context under another reference. -/
def replayed : CapabilitySnapshotInput :=
  { input "r:a" with
    toolBindings := ["write", "", "read", "write"]
    contextBindingRef := some "context" }

def action (runId actionId : String) : Action :=
  { actionId := actionId
    runId := runId
    actionType := "tool_call"
    effectClass := .readOnly
    inputJson := some [("path", .str "/tmp"), ("retries", .int 2)] }

/-- The action with the keys of its input in another order. -/
def reordered : Action :=
  { action "r:a" "b" with inputJson := some [("retries", .int 2), ("path", .str "/tmp")] }

end KeySample

/-- A replay has the key of the turn it replays. A turn whose run and action read the same
when they are joined has another one. -/
theorem generate_replayed :
    ∃ snapshot replay other,
      build KeySample.digest "" (KeySample.input "r:a") = .ok snapshot ∧
      build KeySample.digest "" KeySample.replayed = .ok replay ∧
      build KeySample.digest "" (KeySample.input "r") = .ok other ∧
      generate KeySample.digest "r:a" (KeySample.action "r:a" "b") snapshot.snapshotHash =
        "dispatch:r:a:b:67be1e35c370f78971bb741ce4db13f4670192103a3f991a0596a55e0bd2f28d" ∧
      generate KeySample.digest "r:a" (KeySample.action "r:a" "b") snapshot.snapshotHash =
        generate KeySample.digest "r:a" KeySample.reordered replay.snapshotHash ∧
      generate KeySample.digest "r:a" (KeySample.action "r:a" "b") snapshot.snapshotHash ≠
        generate KeySample.digest "r" (KeySample.action "r" "a:b") other.snapshotHash := by
  obtain ⟨snapshot, hbuild⟩ : ∃ s, build KeySample.digest "" (KeySample.input "r:a") = .ok s := ⟨_, rfl⟩
  obtain ⟨replay, hreplay⟩ : ∃ s, build KeySample.digest "" KeySample.replayed = .ok s := ⟨_, rfl⟩
  obtain ⟨other, hother⟩ : ∃ s, build KeySample.digest "" (KeySample.input "r") = .ok s := ⟨_, rfl⟩
  have hinput : IsJson (inputOf (KeySample.action "r:a" "b")) := ⟨by decide, trivial, trivial, trivial⟩
  have hother' : IsJson (inputOf (KeySample.action "r" "a:b")) := ⟨by decide, trivial, trivial, trivial⟩
  have hreordered : IsJson (inputOf KeySample.reordered) := ⟨by decide, trivial, trivial, trivial⟩
  have htools : SameNames ["read", "write"] ["write", "", "read", "write"] := by
    intro name hne
    simpa [hne] using fun h : name = "write" => Or.inr h
  refine ⟨snapshot, replay, other, hbuild, hreplay, hother, ?_, ?_, ?_⟩
  · rw [build_snapshotHash hbuild]
    decide +kernel
  · refine (generate_eq_iff KeySample.digest_noCollision hbuild hreplay hinput hreordered).mpr ?_
    exact ⟨⟨rfl, rfl, rfl, rfl, rfl⟩, rfl, rfl, rfl, rfl, htools, fun _ _ => Iff.rfl,
      fun _ _ => Iff.rfl, fun _ _ => Iff.rfl, rfl, rfl, rfl, rfl, rfl, rfl, fun _ _ => Iff.rfl⟩
  · intro h
    have hsame := (generate_eq_iff KeySample.digest_noCollision hbuild hother hinput
      hother').mp h
    exact absurd hsame.1.actionId (by decide)

end AgentKernel.Capabilities
