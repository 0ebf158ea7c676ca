import AgentKernel.Lib.Progress
import AgentKernel.Persistence.PgDedupe

/-! The dedupe store over PostgreSQL, called from many sessions.

The statements of a call, with the locks the server takes for them: an insertion waits for
whoever has inserted the key and not yet committed, `FOR UPDATE` and an update lock the
row. Between two statements of a call the other sessions may commit.

Alone a call is the method (`alone_eq_perform`). Beside others every history of the store is
linearizable to the ledger (`run_linearizable_ledger`), so of all the sessions that reserve
a key exactly one is told that it may dispatch (`granted_once`). -/
namespace AgentKernel.Persistence.PostgresDedupeStore
open Lib Dedupe

abbrev DedupeTx := Tx PyError DedupeTable String LedgerAnswer

variable (server : PgServer)

/-- The lock on the row of a key, if there is one. -/
def rowLock (key : String) (t : DedupeTable) : Option String :=
  if (t.select key).isSome then some key else none

/-- An insertion locks the key it takes; a conflict takes no lock. -/
def insertLock (key : String) (t : DedupeTable) : Option String :=
  if (t.select key).isSome then none else some key

/-- `_get_row` on the connection of the transaction. -/
def getRowTx (key : String) (forUpdate : Bool) (k : Option DedupeRecord → DedupeTx) : DedupeTx :=
  Tx.exec (fun t => if forUpdate then rowLock key t else none) (server.selectRow key) k

/-- `_row_to_record` of a row that may be missing. -/
def duplicateTx : Option DedupeRecord → DedupeTx
  | some existing => .commit (.reservation (.duplicateOf existing))
  | none => .rollback ⟨.typeError, "'NoneType' object is not subscriptable"⟩

/-- `_reserve_impl` and `_reserve_and_dispatch_impl`. -/
def reserveTx (envelope : IdempotencyEnvelope) (state : DedupeState) (peerOperationId : Option String) :
    DedupeTx :=
  Tx.exec (insertLock envelope.dispatchIdempotencyKey)
    (server.insertOnConflict (envelope.record state peerOperationId)) (fun inserted =>
      if inserted then .commit (.reservation .granted)
      else getRowTx server envelope.dispatchIdempotencyKey false duplicateTx)

/-- What `_transition_impl` does with the row it read for update. -/
def moveTx (m : Mark) (key : String) (peerOperationId externalAckRef : Option String) :
    Option DedupeRecord → DedupeTx
  | none => .rollback (unknownKey key)
  | some row =>
    if row.state ∈ m.allowed then
      Tx.exec (rowLock key) (server.updateRow key m.target (Text.orElse peerOperationId row.peerOperationId)
        (Text.orElse externalAckRef row.externalAckRef)) (fun _ => .commit .done)
    else .rollback (cannotTransition row.state m.target)

/-- `_transition_impl`. -/
def transitionTx (m : Mark) (key : String) (peerOperationId externalAckRef : Option String) : DedupeTx :=
  getRowTx server key true (moveTx server m key peerOperationId externalAckRef)

def program : LedgerCall → DedupeTx
  | .reserve e => reserveTx server e .reserved e.peerOperationId
  | .reserveAndDispatch e peer => reserveTx server e .dispatched (Text.orElse peer e.peerOperationId)
  | .markDispatched k peer => transitionTx server .dispatched k peer none
  | .markAcknowledged k ack => transitionTx server .acknowledged k none ack
  | .markSucceeded k ack => transitionTx server .succeeded k none ack
  | .markUnknownEffect k => transitionTx server .unknownEffect k none none
  | .get k => getRowTx server k false (fun row => .commit (.record row))

/-! ### What the sessions owe each other -/

/-- A lock guards its row, and a row that is there stays there. -/
def rows : Discipline DedupeTable String where
  Same := fun key t t' => t'.select key = t.select key
  Grows := fun t t' => ∀ key, (t.select key).isSome = true → (t'.select key).isSome = true
  Fresh := fun _ _ => True
  same_refl := fun _ _ => rfl
  same_trans := fun _ _ _ _ h h' => h'.trans h
  grows_refl := fun _ _ h => h
  grows_trans := fun _ _ _ h h' key hk => h' key (h key hk)

/-- A commit that changed nothing owes nothing. -/
theorem owes_refl (locks : String → Prop) (drew : List Nat) (t : DedupeTable) :
    rows.Owes locks drew t t :=
  ⟨fun _ _ => rfl, fun _ _ h => h, fun _ h => h⟩

/-! ### The statements again at the commit -/

variable {server}

theorem selectRow_cases (server : PgServer) (key : String) (t : DedupeTable) :
    server.selectRow key t = .ok (t.select key, t) ∨
      ∃ e, Foreign e ∧ server.selectRow key t = .error e := by
  unfold PgServer.selectRow
  split
  · exact .inl rfl
  · exact .inr ⟨_, (by decide), rfl⟩

theorem effect_selectRow (key : String) (t : DedupeTable) : Tx.effect (server.selectRow key) t = t := by
  rcases selectRow_cases server key t with h | ⟨e, _, h⟩
  · exact Tx.effect_ok h
  · simp only [Tx.effect, h]

/-- An insertion fails, finds the key taken, or makes its row. -/
theorem insertOnConflict_cases (server : PgServer) (r : DedupeRecord) (t : DedupeTable) :
    (∃ e, Foreign e ∧ server.insertOnConflict r t = .error e) ∨
      ((t.select r.dispatchIdempotencyKey).isSome = true ∧ server.insertOnConflict r t = .ok (false, t)) ∨
        ∃ t', t.select r.dispatchIdempotencyKey = none ∧ t.insert r = some t' ∧
          server.insertOnConflict r t = .ok (true, t') := by
  unfold PgServer.insertOnConflict
  split
  · exact .inl ⟨_, (by decide), rfl⟩
  · split
    · cases hsel : t.select r.dispatchIdempotencyKey with
      | some row =>
        have hins : t.insert r = none := by simp [Table.insert, hsel]
        rw [hins]
        exact .inr (.inl ⟨rfl, rfl⟩)
      | none =>
        obtain ⟨t', hins, _⟩ := Table.insert_of_select hsel
        simp only [hins]
        split
        · exact .inr (.inr ⟨t', trivial, rfl, rfl⟩)
        · exact .inl ⟨_, (by decide), rfl⟩
    · exact .inl ⟨_, (by decide), rfl⟩

/-- Whether the server takes the parameters of a row does not depend on the table. -/
theorem insertOnConflict_again {r : DedupeRecord} {t t' : DedupeTable}
    (h : server.insertOnConflict r t = .ok (true, t')) {t₁ : DedupeTable}
    (hnone : t₁.select r.dispatchIdempotencyKey = none) :
    ∃ t₁', t₁.insert r = some t₁' ∧ server.insertOnConflict r t₁ = .ok (true, t₁') := by
  obtain ⟨t₁', hins, _⟩ := Table.insert_of_select hnone
  refine ⟨t₁', hins, ?_⟩
  unfold PgServer.insertOnConflict at h ⊢
  rw [hins]
  split at h
  · cases h
  · rename_i hfits
    rw [if_neg hfits]
    split at h
    · rename_i hencodes
      rw [if_pos hencodes]
      by_cases hindex : server.indexable r.dispatchIdempotencyKey = true
      · exact if_pos hindex
      · simp only [hindex] at h
        cases hins' : t.insert r <;> rw [hins'] at h <;> cases h
    · cases h

theorem effect_insertOnConflict_present {r : DedupeRecord} {t : DedupeTable}
    (h : (t.select r.dispatchIdempotencyKey).isSome = true) :
    Tx.effect (server.insertOnConflict r) t = t := by
  rcases insertOnConflict_cases server r t with ⟨e, _, he⟩ | ⟨_, hok⟩ | ⟨_, hnone, _⟩
  · simp only [Tx.effect, he]
  · exact Tx.effect_ok hok
  · rw [hnone] at h
    cases h

theorem updateRow_cases (server : PgServer) (key : String) (state : DedupeState) (peer ack : Option String) :
    (∀ t, ∃ e, Foreign e ∧ server.updateRow key state peer ack t = .error e) ∨
      ∀ t, server.updateRow key state peer ack t =
        .ok ((), t.update key (updatedColumns state peer ack) updatedColumns_key) := by
  unfold PgServer.updateRow
  split
  · exact .inr (fun _ => rfl)
  · exact .inl (fun _ => ⟨_, (by decide), rfl⟩)

/-! ### Each call is linear -/

/-- How a call ends: as the ledger answers it at one moment, or with an error of the server. -/
abbrev EndsLinear (call : LedgerCall) (tx : DedupeTx) (locks : String → Prop)
    (redo : DedupeTable → DedupeTable) (seen : Versions DedupeTable) : Prop :=
  rows.Sound (fun _ => CommitsLinear ledger Ledger.answer call)
    (RaisesLinear ledger Ledger.answer Foreign call) tx locks [] redo seen

/-- A read row is the row of the version read, and the transaction has written nothing. -/
theorem getRowTx_linear {call : LedgerCall} {key : String} {forUpdate : Bool}
    {k : Option DedupeRecord → DedupeTx} {locks : String → Prop} {redo : DedupeTable → DedupeTable}
    {seen : Versions DedupeTable}
    (hredo : ∀ seen', rows.Interfered locks [] seen seen' → redo seen'.current = seen'.current)
    (hk : ∀ seen', rows.Interfered locks [] seen seen' →
      EndsLinear call (k (ledger seen'.current key))
        (fun k => locks k ∨ (if forUpdate then rowLock key seen'.current else none) = some k) redo seen') :
    EndsLinear call (getRowTx server key forUpdate k) locks redo seen := by
  refine Discipline.Sound.exec ?_ ?_
  · intro seen' row t hi hok
    have hread : (fun t => Tx.effect (server.selectRow key) (redo t)) = redo :=
      funext (fun t => effect_selectRow key (redo t))
    rw [hread, hredo seen' hi]
    rw [hredo seen' hi] at hok
    rcases selectRow_cases server key seen'.current with h | ⟨e, _, h⟩
    · rw [h] at hok
      cases hok
      exact hk seen' hi
    · rw [h] at hok
      cases hok
  · intro seen' e hi herr seen'' _
    rcases selectRow_cases server key (redo seen'.current) with h | ⟨e', hforeign, h⟩
    · rw [h] at herr
      cases herr
    · rw [h] at herr
      cases herr
      exact .inl hforeign

/-- A key that has been seen keeps its row while others commit. -/
theorem present_of_interfered {locks : String → Prop} {seen seen' : Versions DedupeTable}
    (hi : rows.Interfered locks [] seen seen') {key : String}
    (h : (seen.current.select key).isSome = true) : (seen'.current.select key).isSome = true :=
  hi.relies.grows key h

/-- A locked row stays as it is while others commit. -/
theorem select_of_interfered {locks : String → Prop} {seen seen' : Versions DedupeTable}
    (hi : rows.Interfered locks [] seen seen') {key : String} (h : locks key) :
    seen'.current.select key = seen.current.select key :=
  hi.relies.same key h

theorem reserveTx_linear {call : LedgerCall} {e : IdempotencyEnvelope} {state : DedupeState}
    {peer : Option String}
    (hanswer : ∀ L : Ledger, L.answer call = Ledger.reserved (L.reserve e state peer)) (t : DedupeTable) :
    EndsLinear call (reserveTx server e state peer) (fun _ => False) id ⟨[], t⟩ := by
  have hkey : (e.record state peer).dispatchIdempotencyKey = e.dispatchIdempotencyKey := rfl
  refine Discipline.Sound.exec ?_ ?_
  · intro seen inserted t' _ hok
    rcases insertOnConflict_cases server (e.record state peer) seen.current with
      ⟨err, _, herr⟩ | ⟨hpresent, hdup⟩ | ⟨t₁, hnone, _, hins⟩
    · rw [id_eq, herr] at hok
      cases hok
    · -- The key is taken and stays so: the row it has when it is read is the answer.
      rw [id_eq, hdup] at hok
      cases hok
      rw [if_neg (by decide)]
      refine getRowTx_linear ?_ ?_
      · intro seen' hi
        exact effect_insertOnConflict_present (present_of_interfered hi hpresent)
      · intro seen' hi
        have hthere := present_of_interfered hi hpresent
        obtain ⟨row, hrow⟩ := Option.isSome_iff_exists.mp hthere
        have hledger : ledger seen'.current e.dispatchIdempotencyKey = some row := hrow
        rw [hledger]
        intro seen'' hi'
        have hsame : Tx.effect (server.insertOnConflict (e.record state peer)) seen''.current =
          seen''.current := effect_insertOnConflict_present (present_of_interfered hi' hthere)
        simp only [id_eq, hsame]
        refine ⟨.inr ⟨rfl, seen'.current, hi'.mem (Versions.current_mem _), ?_⟩, owes_refl _ _ _⟩
        rw [hanswer, Ledger.reserve_present hledger]
        rfl
    · -- The key is free and locked until the commit.
      rw [id_eq, hins] at hok
      cases hok
      rw [if_pos rfl]
      intro seen' hi
      have hlock : insertLock e.dispatchIdempotencyKey seen.current = some e.dispatchIdempotencyKey := by
        rw [insertLock, if_neg (by rw [← hkey, hnone]; simp)]
      have hnone' : seen'.current.select (e.record state peer).dispatchIdempotencyKey = none := by
        rw [← hnone]
        exact select_of_interfered hi (.inr hlock)
      obtain ⟨t₂, hins₂, hok₂⟩ := insertOnConflict_again hins hnone'
      have heffect : Tx.effect (server.insertOnConflict (e.record state peer)) (id seen'.current) = t₂ :=
        Tx.effect_ok hok₂
      simp only [heffect]
      refine ⟨.inl ?_, ⟨?_, fun _ _ h => h, ?_⟩⟩
      · have hfree : ledger seen'.current e.dispatchIdempotencyKey = none := hnone'
        simp only [hanswer, Ledger.reserve, hfree]
        refine congrArg (Prod.mk _) (funext fun key => ?_)
        show (ledger seen'.current).put e.dispatchIdempotencyKey (e.record state peer) key = _
        rw [Ledger.put_apply]
        exact (Table.select_insert hins₂ key).symm
      · intro key hnot
        show t₂.select key = _
        rw [Table.select_insert hins₂, if_neg]
        intro heq
        exact hnot (.inr (hlock.trans (congrArg some heq.symm)))
      · intro key hthere
        show (t₂.select key).isSome = true
        rw [Table.select_insert hins₂]
        split
        · rfl
        · exact hthere
  · intro seen err _ herr seen' _
    rcases insertOnConflict_cases server (e.record state peer) seen.current with
      ⟨err', hforeign, h⟩ | ⟨_, h⟩ | ⟨_, _, _, h⟩
    · rw [id_eq, h] at herr
      cases herr
      exact .inl hforeign
    · rw [id_eq, h] at herr
      cases herr
    · rw [id_eq, h] at herr
      cases herr

/-- The row after the update is the row moved. -/
theorem select_moved {t : DedupeTable} {key : String} {row : DedupeRecord} (h : t.select key = some row)
    (m : Mark) (peer ack : Option String) (key' : String) :
    (t.update key (updatedColumns m.target (Text.orElse peer row.peerOperationId)
      (Text.orElse ack row.externalAckRef)) updatedColumns_key).select key' =
        if key' = key then some (row.moved m.target peer ack) else t.select key' := by
  rw [Table.select_update, h]
  rfl

theorem transitionTx_linear {call : LedgerCall} {m : Mark} {key : String} {peer ack : Option String}
    (hanswer : ∀ L : Ledger, L.answer call = L.marked (L.mark m key peer ack)) (t : DedupeTable) :
    EndsLinear call (transitionTx server m key peer ack) (fun _ => False) id ⟨[], t⟩ := by
  refine getRowTx_linear (fun _ _ => rfl) ?_
  intro seen _
  rw [if_pos rfl]
  cases hrow : ledger seen.current key with
  | none =>
    intro seen' hi
    refine .inr ⟨seen.current, hi.mem (Versions.current_mem _), ?_⟩
    simp only [hanswer, Ledger.mark, hrow]
    rfl
  | some row =>
    have hselect : seen.current.select key = some row := hrow
    have hlock : rowLock key seen.current = some key := by
      rw [rowLock, if_pos (by rw [hselect]; rfl)]
    simp only [moveTx]
    split
    · rename_i hallowed
      rcases updateRow_cases server key m.target (Text.orElse peer row.peerOperationId)
        (Text.orElse ack row.externalAckRef) with hfails | htakes
      · refine Discipline.Sound.exec ?_ ?_
        · intro seen' _ t' _ hok
          obtain ⟨e, _, herr⟩ := hfails (id seen'.current)
          rw [herr] at hok
          cases hok
        · intro seen' e _ herr seen'' _
          obtain ⟨e', hforeign, herr'⟩ := hfails (id seen'.current)
          rw [herr'] at herr
          cases herr
          exact .inl hforeign
      · refine Discipline.Sound.exec ?_ ?_
        · intro seen' _ t' hi hok seen'' hi'
          -- The row is locked from the read on.
          have hthen := select_of_interfered hi (.inr hlock)
          have hnow := (select_of_interfered hi' (.inl (.inr hlock))).trans hthen
          rw [hselect] at hnow
          have hledger : ledger seen''.current key = some row := hnow
          have heffect := Tx.effect_ok (htakes seen''.current)
          have hmoved := select_moved hnow m peer ack
          simp only [id_eq, heffect]
          refine ⟨.inl ?_, ⟨?_, fun _ _ h => h, ?_⟩⟩
          · simp only [hanswer, Ledger.mark, hledger, hallowed, if_true]
            refine congrArg (Prod.mk _) (funext fun key' => ?_)
            show (ledger seen''.current).put key (row.moved m.target peer ack) key' = _
            rw [Ledger.put_apply]
            exact (hmoved key').symm
          · intro key' hnot
            refine (hmoved key').trans (if_neg (fun heq => ?_))
            exact hnot (.inl (.inr (hlock.trans (congrArg some heq.symm))))
          · intro key' hthere
            rw [hmoved]
            split
            · rfl
            · exact hthere
        · intro seen' e _ herr
          rw [htakes] at herr
          cases herr
    · rename_i hdenied
      intro seen' hi
      refine .inr ⟨seen.current, hi.mem (Versions.current_mem _), ?_⟩
      simp only [hanswer, Ledger.mark, hrow, hdenied, if_false]
      rfl

theorem program_linear (call : LedgerCall) (t : DedupeTable) :
    EndsLinear call (program server call) (fun _ => False) id ⟨[], t⟩ := by
  cases call with
  | reserve e => exact reserveTx_linear (fun _ => rfl) t
  | reserveAndDispatch e peer => exact reserveTx_linear (fun _ => rfl) t
  | markDispatched k peer => exact transitionTx_linear (fun _ => rfl) t
  | markAcknowledged k ack => exact transitionTx_linear (fun _ => rfl) t
  | markSucceeded k ack => exact transitionTx_linear (fun _ => rfl) t
  | markUnknownEffect k => exact transitionTx_linear (fun _ => rfl) t
  | get k =>
    refine getRowTx_linear (fun _ _ => rfl) ?_
    intro seen _ seen' hi
    exact ⟨.inr ⟨rfl, seen.current, hi.mem (Versions.current_mem _), rfl⟩, owes_refl _ _ _⟩

/-! ### Alone -/

theorem alone_exec {β : Type} (needs : DedupeTable → Option String)
    (f : DedupeTable → Except PyError (β × DedupeTable)) (k : β → DedupeTx) (n : Nat)
    (redo : DedupeTable → DedupeTable) (t : DedupeTable) :
    (Tx.exec needs f k).alone n redo t =
      (Tx.after k (f (redo t))).alone n (fun t' => Tx.effect f (redo t')) t := rfl

/-- What a call returned or raised, and the table it left committed. -/
def ended {α : Type} (x : Call PyError (Conn DedupeTable) α) (c : Conn DedupeTable) :
    Except PyError α × DedupeTable :=
  (x.outcome c, (x.after c).committed)

theorem ended_map {α β : Type} (f : α → β) (x : Call PyError (Conn DedupeTable) α) (c : Conn DedupeTable) :
    ended (f <$> x : Call _ _ _) c = ((ended x c).1.map f, (ended x c).2) := by
  rw [ended, Call.outcome_map, Call.after_map]
  rfl

theorem ended_ok {α : Type} {x : Call PyError (Conn DedupeTable) α} {c c' : Conn DedupeTable} {a : α}
    (h : x c = .ok a c') : ended x c = (.ok a, c'.committed) := by
  rw [ended, (Call.outcome_ok h).1, (Call.outcome_ok h).2]

theorem ended_error {α : Type} {x : Call PyError (Conn DedupeTable) α} {c c' : Conn DedupeTable}
    {e : PyError} (h : x c = .error e c') : ended x c = (.error e, c'.committed) := by
  rw [ended, (Call.outcome_error h).1, (Call.outcome_error h).2]

theorem reserveTx_alone (e : IdempotencyEnvelope) (state : DedupeState) (peer : Option String) (n : Nat)
    (t : DedupeTable) :
    (reserveTx server e state peer).alone n id t =
      ended (LedgerAnswer.reservation <$> reserveAs server e state peer) (Conn.idle t []) := by
  rw [reserveTx, alone_exec, id_eq, ended_map]
  rcases insertOnConflict_cases server (e.record state peer) t with
    ⟨err, _, h⟩ | ⟨hpresent, h⟩ | ⟨t', _, _, h⟩
  · have hbody : reserveBody server e state peer ⟨t, some t, []⟩ = .error err ⟨t, some t, []⟩ := by
      simp only [reserveBody, Call.bind_apply, Conn.exec_open, h]
    rw [h, reserveAs, ended_error (Conn.transaction_idle_error connectionLost false hbody)]
    rfl
  · have heffect := @effect_insertOnConflict_present server _ _ hpresent
    obtain ⟨row, hrow⟩ := Option.isSome_iff_exists.mp hpresent
    have hselect : t.select e.dispatchIdempotencyKey = some row := hrow
    rw [h, Tx.after, if_neg Bool.false_ne_true, getRowTx, alone_exec, id_eq, heffect]
    rcases selectRow_cases server e.dispatchIdempotencyKey t with hsel | ⟨err, _, hsel⟩
    · have hbody : reserveBody server e state peer ⟨t, some t, []⟩ =
          .ok (.commit (.duplicateOf row)) ⟨t, some t, []⟩ := by
        simp only [reserveBody, Call.bind_apply, Conn.exec_open, h, getRow, hsel, hselect, rowToRecord,
          Call.pure_apply]
      rw [hsel, hselect, reserveAs, ended_ok (Conn.transaction_idle connectionLost false hbody)]
      simp only [Tx.after, duplicateTx, Tx.alone, id_eq, heffect, effect_selectRow]
      rfl
    · have hbody : reserveBody server e state peer ⟨t, some t, []⟩ = .error err ⟨t, some t, []⟩ := by
        simp only [reserveBody, Call.bind_apply, Conn.exec_open, h, getRow, hsel]
      rw [hsel, reserveAs, ended_error (Conn.transaction_idle_error connectionLost false hbody)]
      rfl
  · have hbody : reserveBody server e state peer ⟨t, some t, []⟩ =
        .ok (.commit .granted) ⟨t, some t', []⟩ := by
      simp only [reserveBody, Call.bind_apply, Conn.exec_open, h, Call.pure_apply]
    rw [h, reserveAs, ended_ok (Conn.transaction_idle connectionLost false hbody), Tx.after, if_pos rfl]
    simp only [Tx.alone, id_eq, Tx.effect_ok h]
    rfl

theorem transitionTx_alone (m : Mark) (key : String) (peer ack : Option String) (n : Nat)
    (t : DedupeTable) :
    (transitionTx server m key peer ack).alone n id t =
      ended ((fun _ => LedgerAnswer.done) <$> transition server m key peer ack) (Conn.idle t []) := by
  rw [transitionTx, getRowTx, alone_exec, id_eq, ended_map, transition]
  rcases selectRow_cases server key t with hsel | ⟨err, _, hsel⟩
  · rw [hsel, Tx.after]
    cases hrow : t.select key with
    | none =>
      have hbody : transitionBody server m key peer ack ⟨t, some t, []⟩ =
          .error (unknownKey key) ⟨t, some t, []⟩ := by
        simp only [transitionBody, Call.bind_apply, getRow, Conn.exec_open, hsel, hrow, Call.throw_apply]
      rw [ended_error (Conn.transaction_idle_error connectionLost false hbody)]
      rfl
    | some row =>
      simp only [moveTx]
      by_cases hallowed : row.state ∈ m.allowed
      · rw [if_pos hallowed, alone_exec]
        have hread := @effect_selectRow server key t
        rcases updateRow_cases server key m.target (Text.orElse peer row.peerOperationId)
          (Text.orElse ack row.externalAckRef) with hfails | htakes
        · obtain ⟨e, _, herr⟩ := hfails t
          have hbody : transitionBody server m key peer ack ⟨t, some t, []⟩ = .error e ⟨t, some t, []⟩ := by
            simp only [transitionBody, Call.bind_apply, getRow, Conn.exec_open, hsel, hrow, hallowed,
              if_true, herr]
          rw [ended_error (Conn.transaction_idle_error connectionLost false hbody), id_eq, hread, herr]
          rfl
        · have hbody : transitionBody server m key peer ack ⟨t, some t, []⟩ = .ok (.commit ())
              ⟨t, some (t.update key (updatedColumns m.target (Text.orElse peer row.peerOperationId)
                (Text.orElse ack row.externalAckRef)) updatedColumns_key), []⟩ := by
            simp only [transitionBody, Call.bind_apply, getRow, Conn.exec_open, hsel, hrow, hallowed,
              if_true, htakes, Call.pure_apply]
          rw [ended_ok (Conn.transaction_idle connectionLost false hbody), id_eq, hread, htakes]
          simp only [Tx.after, Tx.alone, id_eq, hread, Tx.effect_ok (htakes t)]
          rfl
      · have hbody : transitionBody server m key peer ack ⟨t, some t, []⟩ =
            .error (cannotTransition row.state m.target) ⟨t, some t, []⟩ := by
          simp only [transitionBody, Call.bind_apply, getRow, Conn.exec_open, hsel, hrow, hallowed,
            if_false, Call.throw_apply]
        rw [if_neg hallowed, ended_error (Conn.transaction_idle_error connectionLost false hbody)]
        rfl
  · have hbody : transitionBody server m key peer ack ⟨t, some t, []⟩ = .error err ⟨t, some t, []⟩ := by
      simp only [transitionBody, Call.bind_apply, getRow, Conn.exec_open, hsel]
    rw [hsel, ended_error (Conn.transaction_idle_error connectionLost false hbody)]
    rfl

/-- **Alone, the transaction of a call is the method.** -/
theorem alone_eq_perform (call : LedgerCall) (n : Nat) (t : DedupeTable) :
    (program server call).alone n id t = ended (perform (port server) call) (Conn.idle t []) := by
  cases call with
  | reserve e => exact reserveTx_alone e _ _ n t
  | reserveAndDispatch e peer => exact reserveTx_alone e _ _ n t
  | markDispatched k peer => exact transitionTx_alone _ k _ _ n t
  | markAcknowledged k ack => exact transitionTx_alone _ k _ _ n t
  | markSucceeded k ack => exact transitionTx_alone _ k _ _ n t
  | markUnknownEffect k => exact transitionTx_alone _ k _ _ n t
  | get k =>
    show (getRowTx server k false _).alone n id t = ended (LedgerAnswer.record <$> getRow server k) _
    rw [getRowTx, alone_exec, id_eq, ended_map]
    have hexec := Conn.exec_idle connectionLost (server.selectRow k) t
    rcases selectRow_cases server k t with hsel | ⟨err, _, hsel⟩
    · rw [hsel] at hexec ⊢
      rw [getRow, ended_ok hexec]
      simp only [Tx.after, Tx.alone, id_eq, effect_selectRow]
      rfl
    · rw [hsel] at hexec ⊢
      rw [getRow, ended_error hexec]
      rfl

/-! ### Every run -/

section
variable {ι : Type} [DecidableEq ι]

/-- The store with no rows, and no session at work on it. -/
abbrev emptyServer : Server ι PyError DedupeTable String LedgerCall LedgerAnswer := .init Table.empty

/-- **Whatever the order of their statements, the calls of any number of sessions are
linearizable**: each took effect at one moment while it ran, as the ledger answers it then. -/
theorem run_linearizable_ledger (server : PgServer) (steps : List (SessionStep ι LedgerCall)) :
    Linearizable ledger Ledger.answer Foreign
      (run (Server.next (program server)) emptyServer steps).history :=
  run_linearizable ledger Ledger.answer Foreign program_linear (fun _ _ => trivial) steps

/-- The key a call reserves. -/
def reservedKey : LedgerCall → Option String
  | .reserve e => some e.dispatchIdempotencyKey
  | .reserveAndDispatch e _ => some e.dispatchIdempotencyKey
  | _ => none

/-- The record a reservation makes when it is accepted. -/
def madeRecord : LedgerCall → Option DedupeRecord
  | .reserve e => some (e.record .reserved e.peerOperationId)
  | .reserveAndDispatch e peer => some (e.record .dispatched (Text.orElse peer e.peerOperationId))
  | _ => none

/-- A session was told that its reservation of the key is accepted. -/
def Grants (key : String) (e : Entry ι PyError LedgerCall LedgerAnswer) : Prop :=
  reservedKey e.call = some key ∧ e.outcome = .ok (.reservation .granted)

instance (key : String) (e : Entry ι PyError LedgerCall LedgerAnswer) : Decidable (Grants key e) :=
  inferInstanceAs (Decidable (_ ∧ _))

/-- A reservation that is granted makes the record; a mark makes none. -/
theorem reserve_presence (L : Ledger) (e : IdempotencyEnvelope) (state : DedupeState)
    (peer : Option String) (key : String) :
    ((L.reserve e state peer).1 = .granted ∧ e.dispatchIdempotencyKey = key →
        L key = none ∧ ((L.reserve e state peer).2 key).isSome = true) ∧
      (¬ ((L.reserve e state peer).1 = .granted ∧ e.dispatchIdempotencyKey = key) →
        ((L.reserve e state peer).2 key).isSome = (L key).isSome) := by
  cases hfound : L e.dispatchIdempotencyKey with
  | some row =>
    rw [Ledger.reserve_present hfound]
    refine ⟨fun h => ?_, fun _ => rfl⟩
    cases h.1
  | none =>
    simp only [Ledger.reserve, hfound, Ledger.put_apply, true_and]
    refine ⟨?_, ?_⟩
    · rintro rfl
      exact ⟨hfound, by simp⟩
    · intro hne
      rw [if_neg (Ne.symm hne)]

theorem marked_presence (L : Ledger) (m : Mark) (key : String) (peer ack : Option String) (key' : String) :
    ((L.marked (L.mark m key peer ack)).2 key').isSome = (L key').isSome := by
  cases hfound : L key with
  | none =>
    simp only [Ledger.mark, hfound]
    rfl
  | some row =>
    by_cases hallowed : row.state ∈ m.allowed
    · simp only [Ledger.mark, hfound, hallowed, if_true, Ledger.marked, Ledger.put_apply]
      split
      · rename_i heq
        rw [heq, hfound]
        rfl
      · rfl
    · simp only [Ledger.mark, hfound, hallowed, if_false]
      rfl

/-- A key is present after a call exactly when it was before, or the call was granted it. -/
theorem answer_presence {L L' : Ledger} {call : LedgerCall} {a : LedgerAnswer}
    (h : L.answer call = (.ok a, L')) (key : String) :
    (reservedKey call = some key ∧ a = .reservation .granted → L key = none ∧ (L' key).isSome = true) ∧
      (¬ (reservedKey call = some key ∧ a = .reservation .granted) → (L' key).isSome = (L key).isSome) := by
  have hreserve : ∀ e state peer, Ledger.reserved (L.reserve e state peer) = (.ok a, L') →
      reservedKey call = some e.dispatchIdempotencyKey →
        (reservedKey call = some key ∧ a = .reservation .granted → L key = none ∧ (L' key).isSome = true) ∧
          (¬ (reservedKey call = some key ∧ a = .reservation .granted) →
            (L' key).isSome = (L key).isSome) := by
    intro e state peer heq hkey
    obtain ⟨hmade, hkept⟩ := reserve_presence L e state peer key
    obtain ⟨ha, rfl⟩ := Prod.mk.inj heq
    obtain rfl := Except.ok.inj ha
    rw [hkey, Option.some.injEq, LedgerAnswer.reservation.injEq]
    exact ⟨fun hg => hmade hg.symm, fun hg => hkept (fun hg' => hg hg'.symm)⟩
  have hmark : ∀ m key' peer ack, L.marked (L.mark m key' peer ack) = (.ok a, L') →
      reservedKey call = none →
        (reservedKey call = some key ∧ a = .reservation .granted → L key = none ∧ (L' key).isSome = true) ∧
          (¬ (reservedKey call = some key ∧ a = .reservation .granted) →
            (L' key).isSome = (L key).isSome) := by
    intro m key' peer ack heq hnone
    have hsame := marked_presence L m key' peer ack key
    rw [heq] at hsame
    refine ⟨fun hgrant => ?_, fun _ => hsame⟩
    rw [hnone] at hgrant
    cases hgrant.1
  cases call with
  | reserve e => exact hreserve e _ _ h rfl
  | reserveAndDispatch e peer => exact hreserve e _ _ h rfl
  | markDispatched k peer => exact hmark _ k _ _ h rfl
  | markAcknowledged k ack => exact hmark _ k _ _ h rfl
  | markSucceeded k ack => exact hmark _ k _ _ h rfl
  | markUnknownEffect k => exact hmark _ k _ _ h rfl
  | get k =>
    obtain ⟨ha, rfl⟩ := Prod.mk.inj h
    obtain rfl := Except.ok.inj ha
    exact ⟨fun hgrant => (nomatch hgrant.2), fun _ => rfl⟩

/-- A reservation that is granted leaves the record it makes. -/
theorem answer_granted {L L' : Ledger} {call : LedgerCall} {key : String}
    (h : L.answer call = (.ok (.reservation .granted), L')) (hkey : reservedKey call = some key) :
    ∃ made, madeRecord call = some made ∧ L' key = some made := by
  have hreserve : ∀ (e : IdempotencyEnvelope) state peer,
      Ledger.reserved (L.reserve e state peer) = (.ok (.reservation .granted), L') →
        e.dispatchIdempotencyKey = key → L' key = some (e.record state peer) := by
    intro e state peer heq hekey
    obtain ⟨ha, rfl⟩ := Prod.mk.inj heq
    have hgranted : (L.reserve e state peer).1 = .granted :=
      LedgerAnswer.reservation.inj (Except.ok.inj ha)
    cases hfound : L e.dispatchIdempotencyKey with
    | some row =>
      rw [Ledger.reserve_present hfound] at hgranted
      cases hgranted
    | none =>
      have hmakes : (L.reserve e state peer).2 =
          L.put e.dispatchIdempotencyKey (e.record state peer) := by
        simp only [Ledger.reserve, hfound]
      rw [hmakes, ← hekey, Ledger.put_apply, if_pos rfl]
  cases call with
  | reserve e => exact ⟨_, rfl, hreserve e _ _ h (Option.some.inj hkey)⟩
  | reserveAndDispatch e peer => exact ⟨_, rfl, hreserve e _ _ h (Option.some.inj hkey)⟩
  | markDispatched k peer => cases hkey
  | markAcknowledged k ack => cases hkey
  | markSucceeded k ack => cases hkey
  | markUnknownEffect k => cases hkey
  | get k => cases hkey

/-- The key is granted as often as it has a record, and the record is what the call it was
granted to has made, moved forward by marks. -/
structure GrantedOnce (key : String) (h : History ι PyError DedupeTable LedgerCall LedgerAnswer) : Prop where
  count : h.entries.countP (fun e => decide (Grants key e)) =
    if (ledger h.versions.current key).isSome then 1 else 0
  owner : ∀ e ∈ h.entries, Grants key e → ∃ made r, madeRecord e.call = some made ∧
    ledger h.versions.current key = some r ∧ Relation.ReflTransGen RecordAdvances made r

omit [DecidableEq ι] in
theorem GrantedOnce.commit {key : String} {h : History ι PyError DedupeTable LedgerCall LedgerAnswer}
    (hg : GrantedOnce key h) {i : ι} {call : LedgerCall} {since : Nat} {a : LedgerAnswer} {t : DedupeTable}
    (hcommit : CommitsLinear ledger Ledger.answer call a (h.versions.since since) t) :
    GrantedOnce key (h.commit i call since a t) := by
  have hforward : (ledger h.versions.current).Forward (ledger t) := by
    rcases hcommit with hanswer | ⟨hview, _⟩
    · have hmoves := (ledger h.versions.current).answer_forward call
      rw [Versions.current_since] at hanswer
      rwa [hanswer] at hmoves
    · rw [hview, Versions.current_since]
      exact Ledger.forward_refl _
  by_cases hgrants : reservedKey call = some key ∧ a = .reservation .granted
  · -- only a reservation that takes effect now is granted
    have hanswer : (ledger h.versions.current).answer call = (.ok a, ledger t) := by
      rcases hcommit with hanswer | ⟨_, t₀, _, hanswer⟩
      · rwa [Versions.current_since] at hanswer
      · obtain ⟨hnone, hsome⟩ := (answer_presence hanswer key).1 hgrants
        rw [hnone] at hsome
        cases hsome
    obtain ⟨hnone, hsome⟩ := (answer_presence hanswer key).1 hgrants
    have hentry : Grants key (⟨i, call, since, h.versions.older.length, .ok a⟩ : Entry ι _ _ _) :=
      ⟨hgrants.1, congrArg Except.ok hgrants.2⟩
    refine ⟨?_, fun e he hge => ?_⟩
    · simp only [History.commit, Versions.current_push, List.countP_append, hg.count, List.countP_singleton]
      simp [hentry, hnone, hsome]
    · rcases List.mem_append.mp he with he | he
      · obtain ⟨made, r, _, hr, _⟩ := hg.owner e he hge
        rw [hnone] at hr
        cases hr
      · rw [List.mem_singleton.mp he]
        obtain ⟨hkey, rfl⟩ := hgrants
        obtain ⟨made, hmade, hr⟩ := answer_granted hanswer hkey
        exact ⟨made, made, hmade, hr, .refl⟩
  · have hentry : ¬ Grants key (⟨i, call, since, h.versions.older.length, .ok a⟩ : Entry ι _ _ _) :=
      fun hge => hgrants ⟨hge.1, Except.ok.inj hge.2⟩
    have hsame : (ledger t key).isSome = (ledger h.versions.current key).isSome := by
      rcases hcommit with hanswer | ⟨hview, _⟩
      · exact (answer_presence hanswer key).2 hgrants
      · rw [hview, Versions.current_since]
    refine ⟨?_, fun e he hge => ?_⟩
    · simp only [History.commit, Versions.current_push, List.countP_append, hg.count, List.countP_singleton]
      simp [hentry, hsame]
    · rcases List.mem_append.mp he with he | he
      · obtain ⟨made, r, hmade, hr, hmoved⟩ := hg.owner e he hge
        obtain ⟨r', hr', hadvances⟩ := hforward key r hr
        exact ⟨made, r', hmade, hr', hmoved.tail hadvances⟩
      · rw [List.mem_singleton.mp he] at hge
        exact absurd hge hentry

omit [DecidableEq ι] in
theorem GrantedOnce.raise {key : String} {h : History ι PyError DedupeTable LedgerCall LedgerAnswer}
    (hg : GrantedOnce key h) (i : ι) (call : LedgerCall) (since : Nat) (e : PyError) :
    GrantedOnce key (h.raise i call since e) := by
  have hentry : ¬ Grants key (⟨i, call, since, h.versions.older.length, .error e⟩ : Entry ι _ _ _) :=
    fun hge => nomatch hge.2
  refine ⟨Eq.trans ?_ hg.count, fun entry he hge => ?_⟩
  · simp [History.raise, hentry]
  · rcases List.mem_append.mp he with he | he
    · exact hg.owner entry he hge
    · rw [List.mem_singleton.mp he] at hge
      exact absurd hge hentry

theorem rowLock_eq (key : String) (t : DedupeTable) : rowLock key t = none ∨ rowLock key t = some key := by
  unfold rowLock
  split
  · exact .inr rfl
  · exact .inl rfl

theorem getRowTx_oneLock {key : String} {forUpdate : Bool} {k : Option DedupeRecord → DedupeTx}
    (hk : ∀ row held, (held = none ∨ held = some key) → (k row).OneLock held) :
    (getRowTx server key forUpdate k).OneLock none := by
  refine .exec (fun h => absurd rfl h) (fun row t => hk row _ ?_)
  rw [Option.none_or]
  split
  · exact rowLock_eq key t
  · exact .inl rfl

theorem duplicateTx_oneLock (row : Option DedupeRecord) (held : Option String) :
    (duplicateTx row).OneLock held := by
  cases row <;> exact trivial

theorem reserveTx_oneLock (e : IdempotencyEnvelope) (state : DedupeState) (peer : Option String) :
    (reserveTx server e state peer).OneLock none := by
  intro t
  refine ⟨fun h => absurd rfl h, ?_⟩
  dsimp only
  rcases insertOnConflict_cases server (e.record state peer) t with
    ⟨err, _, h⟩ | ⟨hpresent, h⟩ | ⟨t', _, _, h⟩
  · rw [h]
    exact trivial
  · have hfree : insertLock e.dispatchIdempotencyKey t = none := if_pos hpresent
    rw [h, hfree, Option.none_or, Tx.after, if_neg Bool.false_ne_true]
    exact getRowTx_oneLock (fun row held _ => duplicateTx_oneLock row held)
  · rw [h, Tx.after, if_pos rfl]
    exact trivial

theorem transitionTx_oneLock (m : Mark) (key : String) (peer ack : Option String) :
    (transitionTx server m key peer ack).OneLock none := by
  refine getRowTx_oneLock (fun row held hheld => ?_)
  cases row with
  | none => exact trivial
  | some row =>
    simp only [moveTx]
    split
    · refine .exec (fun hne t => ?_) (fun _ _ => trivial)
      rcases hheld with rfl | rfl
      · exact absurd rfl hne
      · exact rowLock_eq key t
    · exact trivial

theorem program_oneLock (call : LedgerCall) : (program server call).OneLock none := by
  cases call with
  | reserve e => exact reserveTx_oneLock e _ _
  | reserveAndDispatch e peer => exact reserveTx_oneLock e _ _
  | markDispatched k peer => exact transitionTx_oneLock _ k _ _
  | markAcknowledged k ack => exact transitionTx_oneLock _ k _ _
  | markSucceeded k ack => exact transitionTx_oneLock _ k _ _
  | markUnknownEffect k => exact transitionTx_oneLock _ k _ _
  | get k => exact getRowTx_oneLock (fun _ _ _ => trivial)

/-- **No call waits for ever**: whatever the sessions have done, each call can be brought to
its end by steps of the sessions alone. -/
theorem calls_finish (server : PgServer) (steps : List (SessionStep ι LedgerCall)) (i : ι) :
    ∃ more : List (SessionStep ι LedgerCall), (∀ step ∈ more, ∃ j, step = .advance j) ∧
      (run (Server.next (program server)) emptyServer (steps ++ more)).sessions i = none ∧
      ∀ o ∈ (run (Server.next (program server)) emptyServer steps).sessions i,
        ∃ e ∈ (run (Server.next (program server)) emptyServer (steps ++ more)).history.entries,
          e.session = i ∧ e.call = o.call ∧ e.since = o.since :=
  run_finishes (fun _ => program_oneLock _) _ steps i

/-- **A call that meets no lock ends as the method does on a connection of its own.** -/
theorem call_alone (server : PgServer) (s : Server ι PyError DedupeTable String LedgerCall LedgerAnswer)
    {i : ι} (hidle : s.sessions i = none) (hlocks : ∀ k, s.holder k = none) (call : LedgerCall) :
    ∃ n, (run (Server.next (program server)) s (.start i call :: List.replicate n (.advance i))).history =
      s.history.ended i call s.history.versions.older.length
        (ended (perform (port server) call) (Conn.idle s.current [])) := by
  have hstart : s.next (program server) (.start i call) =
      { s with sessions := Function.update s.sessions i
                (some ⟨call, s.history.versions.older.length, [], id, program server call⟩) } := by
    rw [Server.next, hidle]
    rfl
  obtain ⟨n, hhistory, _⟩ := Server.finishes (program server) (program server call)
    (s.next (program server) (.start i call))
    (o := ⟨call, s.history.versions.older.length, [], id, program server call⟩)
    (by rw [hstart]; exact Function.update_self ..) rfl (fun k j hk => by
      rw [hstart] at hk
      exact absurd ((hlocks k).symm.trans hk).symm (Option.some_ne_none j))
  refine ⟨n, ?_⟩
  rw [run_cons, hhistory, hstart, alone_eq_perform]
  rfl

end

end AgentKernel.Persistence.PostgresDedupeStore
