import Mathlib.Data.List.TakeWhile
import AgentKernel.Persistence.SqlDedupe

/-! Dedupe stores that count the records of a run.

`count_by_run` compares keys with the run id, in memory by `startswith` and in SQLite by a `LIKE`
pattern, which ends at a NUL and must not be too long. A `CountingStore` is what the two have in
common: the ledger, the keys it holds as a list, which of them count for a run, and the runs it can
count for. -/
namespace AgentKernel.Persistence
open Lib Dedupe

/-! ### The pattern of a run -/

/-- The characters of a text behind their escapes. -/
def escaped (text : List Char) : List Char :=
  text.flatMap (fun c => if c ∈ ['\\', '%', '_'] then ['\\', c] else [c])

theorem escaped_cons (c : Char) (text : List Char) :
    escaped (c :: text) = (if c ∈ ['\\', '%', '_'] then ['\\', c] else [c]) ++ escaped text :=
  List.flatMap_cons

theorem toList_likePattern (runId : String) :
    (TableIn.likePattern runId).toList = escaped runId.toList ++ [':', '%'] := by
  simp [TableIn.likePattern, escaped]

/-- A text behind its escapes is matched literally. -/
theorem likeTokens_escaped (text rest : List Char) :
    Text.likeTokens '\\' (escaped text ++ rest) = text.map .char ++ Text.likeTokens '\\' rest := by
  induction text with
  | nil => rfl
  | cons c text ih =>
    rw [escaped_cons, List.append_assoc, List.map_cons, List.cons_append, ← ih]
    by_cases hspecial : c ∈ ['\\', '%', '_']
    · rw [if_pos hspecial]
      simp [Text.likeTokens]
    · rw [if_neg hspecial]
      simp only [List.mem_cons, List.not_mem_nil, or_false, not_or] at hspecial
      cases escaped text ++ rest with
      | nil => simp [Text.likeTokens, hspecial]
      | cons next others => simp [Text.likeTokens, hspecial]

/-- A NUL of the text ends the pattern in its middle. -/
theorem takeWhile_escaped (text rest : List Char) :
    (escaped text ++ rest).takeWhile (· ≠ '\x00') =
      if '\x00' ∈ text then escaped (text.takeWhile (· ≠ '\x00'))
      else escaped text ++ rest.takeWhile (· ≠ '\x00') := by
  induction text with
  | nil => simp [escaped]
  | cons c text ih =>
    by_cases hnul : c = '\x00'
    · subst hnul
      simp [escaped]
    · have hmem : '\x00' ∈ c :: text ↔ '\x00' ∈ text := by simp [Ne.symm hnul]
      have htake : (c :: text).takeWhile (· ≠ '\x00') = c :: text.takeWhile (· ≠ '\x00') := by
        simp [hnul]
      rw [htake, escaped_cons, escaped_cons, List.append_assoc]
      simp only [hmem]
      by_cases hspecial : c ∈ ['\\', '%', '_']
      · simp only [if_pos hspecial, List.cons_append, List.nil_append]
        rw [List.takeWhile_cons_of_pos (by decide), List.takeWhile_cons_of_pos (by simpa using hnul), ih]
        split <;> rfl
      · simp only [if_neg hspecial, List.cons_append, List.nil_append]
        rw [List.takeWhile_cons_of_pos (by simpa using hnul), ih]
        split <;> rfl

theorem likeMatch_any (s : List Char) : Text.likeMatch [.any] s = true := by
  rw [Text.likeMatch, List.any_eq_true]
  exact ⟨[], (List.mem_tails _ _).mpr List.nil_suffix, rfl⟩

theorem likeMatch_prefix (text s : List Char) :
    Text.likeMatch (text.map .char ++ [.any]) s = true ↔
      text.map Char.toLower <+: s.map Char.toLower := by
  induction text generalizing s with
  | nil => exact iff_of_true (likeMatch_any s) List.nil_prefix
  | cons c text ih =>
    cases s with
    | nil => simp [Text.likeMatch]
    | cons d s => simp [Text.likeMatch, ih, List.cons_prefix_cons]

theorem likeMatch_whole (text s : List Char) :
    Text.likeMatch (text.map .char) s = true ↔ text.map Char.toLower = s.map Char.toLower := by
  induction text generalizing s with
  | nil => cases s <;> simp [Text.likeMatch]
  | cons c text ih =>
    cases s with
    | nil => simp [Text.likeMatch]
    | cons d s => simp [Text.likeMatch, ih]

theorem toLower_nul {c : Char} : c.toLower = '\x00' ↔ c = '\x00' := by
  constructor
  · intro h
    unfold Char.toLower at h
    split at h
    · rename_i hupper
      have hval : c.val + 32 = 0 := congrArg Char.val h
      have hhigh := UInt32.le_iff_toNat_le.mp hupper.2
      have hnat := congrArg UInt32.toNat hval
      rw [UInt32.toNat_add] at hnat
      have hbound : c.val.toNat ≤ 90 := hhigh
      have hzero : (c.val.toNat + 32) % 2 ^ 32 = 0 := hnat
      omega
    · exact h
  · rintro rfl
    rfl

/-- A text without NUL stands before the first NUL of another, or nowhere at its start. -/
theorem prefix_cString {text : List Char} (h : '\x00' ∉ text) (s : List Char) :
    text.map Char.toLower <+: (s.takeWhile (· ≠ '\x00')).map Char.toLower ↔
      text.map Char.toLower <+: s.map Char.toLower := by
  induction text generalizing s with
  | nil => exact iff_of_true List.nil_prefix List.nil_prefix
  | cons c text ih =>
    obtain ⟨hc, htext⟩ := not_or.mp (fun hor => h (List.mem_cons.mpr hor))
    cases s with
    | nil => rfl
    | cons d s =>
      by_cases hd : d = '\x00'
      · subst hd
        have hne : c.toLower ≠ '\x00' := fun heq => hc (toLower_nul.mp heq).symm
        have hlower : Char.toLower '\x00' = '\x00' := rfl
        simp [List.cons_prefix_cons, hne, hlower]
      · rw [List.takeWhile_cons_of_pos (by simpa using hd)]
        simp only [List.map_cons, List.cons_prefix_cons, ih htext]

/-- **The pattern of a run** finds the keys that start with the run id and a colon, up to the case
of ASCII letters. A run id with a NUL finds the keys that are the same up to the first NUL. -/
theorem like_likePattern (runId key : String) :
    Text.like '\\' (TableIn.likePattern runId) key = true ↔
      if '\x00' ∈ runId.toList then
        (Text.cString runId).map Char.toLower = (Text.cString key).map Char.toLower
      else (runId ++ ":").toList.map Char.toLower <+: key.toList.map Char.toLower := by
  have hpattern : Text.cString (TableIn.likePattern runId) =
      if '\x00' ∈ runId.toList then escaped (Text.cString runId)
      else escaped runId.toList ++ [':', '%'] := by
    rw [Text.cString, toList_likePattern, takeWhile_escaped]
    rfl
  have htokens : Text.likeTokens '\\' [':', '%'] = [.char ':', .any] := by simp [Text.likeTokens]
  rw [Text.like, hpattern]
  split
  · have hwhole := likeTokens_escaped (Text.cString runId) []
    rw [List.append_nil] at hwhole
    rw [hwhole, show Text.likeTokens '\\' [] = [] from rfl, List.append_nil]
    exact likeMatch_whole _ _
  · rename_i hnul
    rw [likeTokens_escaped, htokens,
      show runId.toList.map Text.LikeToken.char ++ [.char ':', .any] =
        (runId ++ ":").toList.map Text.LikeToken.char ++ [.any] by simp, likeMatch_prefix]
    exact prefix_cString (by simpa using hnul) key.toList

/-- Of two run ids that are alike up to a NUL, one finds the keys of the other. -/
example : Text.like '\\' (TableIn.likePattern "r\x00x") "r\x00y:act:1" = true := by decide +kernel

/-- A key that goes on from the run id is found. -/
theorem like_own (runId rest : String) :
    Text.like '\\' (TableIn.likePattern runId) (runId ++ ":" ++ rest) = true := by
  rw [like_likePattern]
  split
  · rename_i hnul
    have hsame : Text.cString (runId ++ ":" ++ rest) = Text.cString runId := by
      have hshort : (runId.toList.takeWhile (· ≠ '\x00')).length ≠ runId.toList.length := by
        intro hlen
        have hself := (List.takeWhile_prefix (l := runId.toList) (· ≠ '\x00')).eq_of_length hlen
        simpa using List.takeWhile_eq_self_iff.mp hself _ hnul
      rw [Text.cString, Text.cString, String.append_assoc, String.toList_append, List.takeWhile_append,
        if_neg hshort]
    rw [hsame]
  · simp

/-! ### Counting stores -/

/-- New records only with attempt numbers the store can hold. -/
def holding (holds : Int → Prop) : Domain where
  reserve := fun L e _ => L e.dispatchIdempotencyKey = none → holds e.attemptSeq
  mark := fun _ _ _ _ _ => True
  get := fun _ => True

structure CountingStore where
  State : Type
  port : DedupeStorePort State
  view : State → Ledger
  Inv : State → Prop
  /-- The attempt numbers that a new record can have. -/
  holds : Int → Prop
  keeps : Keeps port False (holding holds) Inv view
  /-- A record that cannot be held is an error, and changes nothing. -/
  refuses : ∀ (e : IdempotencyEnvelope) peer s, Inv s → view s e.dispatchIdempotencyKey = none →
    ¬ holds e.attemptSeq → ∃ err s', port.reserveAndDispatch e peer s = .error err s' ∧
      view s' = view s ∧ Inv s'
  keys : State → List String
  keys_nodup : ∀ s, (keys s).Nodup
  mem_keys : ∀ s key, key ∈ keys s ↔ view s key ≠ none
  /-- Whether a key counts for a run. -/
  counts : String → String → Bool
  counts_own : ∀ runId rest, counts runId (runId ++ ":" ++ rest) = true
  /-- The runs whose keys can be looked for. -/
  countable : String → Prop
  countByRun : ∀ runId s, Inv s → keys s = [] ∨ countable runId →
    (port.countByRun runId).outcome s = .ok (some ((keys s).countP (counts runId)))
  raises : ∀ runId s, Inv s → keys s ≠ [] → ¬ countable runId →
    ∃ e, (port.countByRun runId).outcome s = .error e

/-- `InMemoryDedupeStore`. -/
def CountingStore.inMemory : CountingStore where
  State := InMemoryDedupeStore
  port := InMemoryDedupeStore.port
  view := InMemoryDedupeStore.view
  Inv := fun _ => True
  holds := fun _ => True
  keeps := fun c s _ hs => InMemoryDedupeStore.methods_keep.keeps c s (c.within_all _) hs
  refuses := fun _ _ _ _ _ hnot => absurd trivial hnot
  keys := Dict.keys
  keys_nodup := Dict.keys_nodup
  mem_keys := fun s key => by
    rw [InMemoryDedupeStore.view, ne_eq, Dict.get?_eq_none_iff, not_not]
  counts := fun runId key => Text.startsWith key runId
  counts_own := fun runId rest => by
    rw [Text.startsWith, List.isPrefixOf_iff_prefix]
    simp
  countable := fun _ => True
  countByRun := fun _ _ _ _ => rfl
  raises := fun _ _ _ _ hnot => absurd trivial hnot

/-- The count, or the error of a pattern that is too long. -/
theorem sqlite_countByRun (runId : String) (d : DedupeTable) :
    (SQLiteDedupeStore.port.countByRun runId).outcome (Conn.idle d []) =
      if d.rows ≠ [] ∧ Text.tooComplex (TableIn.likePattern runId) = true then
        .error TableIn.patternTooComplex
      else .ok (some ((d.rows.map DedupeRecord.dispatchIdempotencyKey).countP
        (fun key => Text.like '\\' (TableIn.likePattern runId) key))) := by
  have hport : SQLiteDedupeStore.port.countByRun runId =
      some <$> Conn.exec busy (sqliteTable.countLike (TableIn.likePattern runId)) := rfl
  have hexec := Conn.exec_idle busy (sqliteTable.countLike (TableIn.likePattern runId)) d
  have hwhere : sqliteTable.countLike (TableIn.likePattern runId) d =
      if d.rows ≠ [] ∧ Text.tooComplex (TableIn.likePattern runId) = true then
        .error TableIn.patternTooComplex
      else .ok ((d.rows.filter (fun r =>
        Text.like '\\' (TableIn.likePattern runId) r.dispatchIdempotencyKey)).length, d) := by
    unfold TableIn.countLike TableIn.whereLike
    by_cases hlong : d.rows ≠ [] ∧ Text.tooComplex (TableIn.likePattern runId) = true
    · rw [if_pos hlong]
      rw [if_pos (show (sqliteTable.table d).rows ≠ [] ∧ _ from hlong)]
      rfl
    · rw [if_neg hlong]
      rw [if_neg (show ¬ ((sqliteTable.table d).rows ≠ [] ∧ _) from hlong)]
      rfl
  rw [hport, Call.outcome_map]
  by_cases hlong : d.rows ≠ [] ∧ Text.tooComplex (TableIn.likePattern runId) = true
  · rw [if_pos hlong] at hwhere ⊢
    rw [hwhere] at hexec
    rw [(Call.outcome_error hexec).1]
    rfl
  · rw [if_neg hlong] at hwhere ⊢
    rw [hwhere] at hexec
    rw [(Call.outcome_ok hexec).1, List.countP_map, ← List.countP_eq_length_filter]
    rfl

/-- `SQLiteDedupeStore` on a connection that works. -/
def CountingStore.sqlite : CountingStore where
  State := Conn DedupeTable
  port := SQLiteDedupeStore.port
  view := sqliteTable.view
  Inv := Reliable
  holds := FitsInt64
  keeps := sqliteTable.methods_exact.keeps
  refuses := fun e peer s hs hfree hnot => by
    obtain ⟨d, rfl⟩ := hs
    exact ⟨TableIn.overflow, Conn.idle d [], Conn.transaction_idle_error busy _
      (sqliteTable.reserveBody_overflow hfree hnot .dispatched
        (Text.orElse peer e.peerOperationId)), rfl, ⟨d, rfl⟩⟩
  keys := fun c => c.committed.rows.map DedupeRecord.dispatchIdempotencyKey
  keys_nodup := fun c => c.committed.unique
  mem_keys := fun c key => by
    show key ∈ _ ↔ c.committed.select key ≠ none
    rw [ne_eq, Table.select_eq_none_iff, not_not]
  counts := fun runId key => Text.like '\\' (TableIn.likePattern runId) key
  counts_own := like_own
  countable := fun runId => Text.tooComplex (TableIn.likePattern runId) = false
  countByRun := fun runId s hs hcount => by
    obtain ⟨d, rfl⟩ := hs
    have hshort : ¬ (d.rows ≠ [] ∧ Text.tooComplex (TableIn.likePattern runId) = true) := by
      rintro ⟨hrows, hlong⟩
      rcases hcount with hnil | hshort
      · exact hrows (List.map_eq_nil_iff.mp hnil)
      · rw [hshort] at hlong
        cases hlong
    rw [sqlite_countByRun, if_neg hshort]
    rfl
  raises := fun runId s hs hkeys hlong => by
    obtain ⟨d, rfl⟩ := hs
    rw [sqlite_countByRun, if_pos ⟨fun hnil => hkeys (List.map_eq_nil_iff.mpr hnil), Bool.eq_true_of_not_eq_false hlong⟩]
    exact ⟨_, rfl⟩

/-! ### What the calls of a turn do -/

/-- A mark adds no key and takes none away. -/
theorem Ledger.marked_present {L : Ledger} {m : Mark} {key : String} {peer ack : Option String}
    (k : String) : (L.marked (L.mark m key peer ack)).2 k ≠ none ↔ L k ≠ none := by
  unfold Ledger.mark
  cases hr : L key with
  | none => exact Iff.rfl
  | some r =>
    dsimp only
    split
    · show (L.put key (r.moved m.target peer ack)) k ≠ none ↔ _
      rw [Ledger.put_apply]
      split
      case isTrue hk => simp [hk, hr]
      case isFalse => exact Iff.rfl
    · exact Iff.rfl

namespace CountingStore
variable {S : CountingStore} {s : S.State}

theorem get_eval (hs : S.Inv s) (key : String) :
    ∃ s', S.port.get key s = .ok (S.view s key) s' ∧ S.view s' = S.view s ∧ S.Inv s' :=
  S.keeps.eval_ok (fun _ _ h => LedgerAnswer.record.inj h) (c := .get key) rfl trivial hs rfl

/-- A reservation of a present key is refused and changes nothing. -/
theorem reserve_present (hs : S.Inv s) {e : IdempotencyEnvelope} {r : DedupeRecord}
    (h : S.view s e.dispatchIdempotencyKey = some r) (peer : Option String) :
    ∃ s', S.port.reserveAndDispatch e peer s = .ok (.duplicateOf r) s' ∧ S.view s' = S.view s ∧
      S.Inv s' := by
  have hwithin : (LedgerCall.reserveAndDispatch e peer).Within (holding S.holds) (S.view s) := by
    intro hnone
    rw [h] at hnone
    cases hnone
  have heval := S.keeps.eval_ok (fun _ _ h => LedgerAnswer.reservation.inj h)
    (c := .reserveAndDispatch e peer) (s := s) rfl hwithin hs rfl
  rwa [Ledger.reserve_present h] at heval

/-- A new key that can be held is reserved. -/
theorem reserve_absent (hs : S.Inv s) {e : IdempotencyEnvelope}
    (h : S.view s e.dispatchIdempotencyKey = none) (hholds : S.holds e.attemptSeq)
    (peer : Option String) :
    ∃ s', S.port.reserveAndDispatch e peer s = .ok .granted s' ∧
      S.view s' = (S.view s).put e.dispatchIdempotencyKey
        (e.record .dispatched (Text.orElse peer e.peerOperationId)) ∧ S.Inv s' := by
  have hwithin : (LedgerCall.reserveAndDispatch e peer).Within (holding S.holds) (S.view s) :=
    fun _ => hholds
  have heval := S.keeps.eval_ok (fun _ _ h => LedgerAnswer.reservation.inj h)
    (c := .reserveAndDispatch e peer) (s := s) rfl hwithin hs rfl
  simpa only [Ledger.reserve, h] using heval

/-- The store works and holds these keys. -/
def Holding (S : CountingStore) (keys : String → Prop) (s : S.State) : Prop :=
  S.Inv s ∧ ∀ key, S.view s key ≠ none ↔ keys key

theorem preserves_of_mark {keys : String → Prop} {x : Call PyError S.State Unit}
    {c : LedgerCall} (hx : perform S.port c = (fun _ => LedgerAnswer.done) <$> x)
    (hwithin : ∀ L, c.Within (holding S.holds) L)
    (hkeys : ∀ (L : Ledger) k, (L.answer c).2 k ≠ none ↔ L k ≠ none) :
    Call.Preserves (Holding S keys) x := by
  intro s hs
  obtain ⟨hinv, heq | ⟨hfalse, -⟩⟩ := S.keeps c s (hwithin _) hs.1
  · rw [hx, Call.after_map] at hinv heq
    refine ⟨hinv, fun key => ?_⟩
    rw [show S.view (x.after s) = ((S.view s).answer c).2 from congrArg Prod.snd heq, hkeys]
    exact hs.2 key
  · exact hfalse.elim

theorem preserves_markAcknowledged {keys : String → Prop} (key : String) :
    Call.Preserves (Holding S keys) (S.port.markAcknowledged key none) :=
  preserves_of_mark (c := .markAcknowledged key none) rfl (fun _ => trivial)
    (fun _ k => Ledger.marked_present k)

theorem preserves_markUnknownEffect {keys : String → Prop} (key : String) :
    Call.Preserves (Holding S keys) (S.port.markUnknownEffect key) :=
  preserves_of_mark (c := .markUnknownEffect key) rfl (fun _ => trivial)
    (fun _ k => Ledger.marked_present k)

end CountingStore

end AgentKernel.Persistence
