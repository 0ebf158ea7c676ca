import Mathlib.Logic.Function.Basic
import Mathlib.Logic.Relation
import AgentKernel.Lib.Run
import AgentKernel.Dedupe.Store

/-! The dispatch ledger.

What a dedupe store is for: a partial function from keys to records on which a
call either answers or is refused. A store is a *view* away from it. `Keeps` says
that a store answers as the ledger does whenever it answers, and changes nothing
when it raises; a store that may also fail for reasons of its own keeps the ledger
all the same. The ledger only moves forward (`answer_advances`), so every store
that keeps it does. -/
namespace AgentKernel.Dedupe
open Lib

/-! ### The calls -/

/-- The calls that read or move one record. -/
inductive LedgerCall where
  | reserve (envelope : IdempotencyEnvelope)
  | reserveAndDispatch (envelope : IdempotencyEnvelope) (peerOperationId : Option String)
  | markDispatched (key : String) (peerOperationId : Option String)
  | markAcknowledged (key : String) (externalAckRef : Option String)
  | markSucceeded (key : String) (externalAckRef : Option String)
  | markUnknownEffect (key : String)
  | get (key : String)
  deriving DecidableEq, Repr

inductive LedgerAnswer where
  | reservation (r : DedupeReservation)
  | done
  | record (r : Option DedupeRecord)
  deriving DecidableEq, Repr

/-- One call on a store. -/
def perform {σ : Type} (S : DedupeStorePort σ) : LedgerCall → Call PyError σ LedgerAnswer
  | .reserve e => .reservation <$> S.reserve e
  | .reserveAndDispatch e peer => .reservation <$> S.reserveAndDispatch e peer
  | .markDispatched k peer => (fun _ => .done) <$> S.markDispatched k peer
  | .markAcknowledged k ack => (fun _ => .done) <$> S.markAcknowledged k ack
  | .markSucceeded k ack => (fun _ => .done) <$> S.markSucceeded k ack
  | .markUnknownEffect k => (fun _ => .done) <$> S.markUnknownEffect k
  | .get k => .record <$> S.get k

/-- A store after a sequence of calls, whatever each of them returned or raised. -/
def afterCalls {σ : Type} (S : DedupeStorePort σ) : σ → List LedgerCall → σ :=
  run (fun s c => (perform S c).after s)

/-! ### The ledger -/

abbrev Ledger := String → Option DedupeRecord

namespace Ledger

def put (L : Ledger) (key : String) (r : DedupeRecord) : Ledger := Function.update L key (some r)

theorem put_apply (L : Ledger) (key : String) (r : DedupeRecord) (key' : String) :
    L.put key r key' = if key' = key then some r else L key' :=
  Function.update_apply ..

def reserve (L : Ledger) (envelope : IdempotencyEnvelope) (state : DedupeState)
    (peerOperationId : Option String) : DedupeReservation × Ledger :=
  match L envelope.dispatchIdempotencyKey with
  | some existing => (.duplicateOf existing, L)
  | none => (.granted, L.put envelope.dispatchIdempotencyKey (envelope.record state peerOperationId))

/-- The ledger with the record moved, or why it cannot be. -/
def mark (L : Ledger) (m : Mark) (key : String) (peerOperationId externalAckRef : Option String) :
    Except PyError Ledger :=
  match L key with
  | none => .error (unknownKey key)
  | some r =>
    if r.state ∈ m.allowed then .ok (L.put key (r.moved m.target peerOperationId externalAckRef))
    else .error (cannotTransition r.state m.target)

def reserved (r : DedupeReservation × Ledger) : Except PyError LedgerAnswer × Ledger :=
  (.ok (.reservation r.1), r.2)

def marked (L : Ledger) : Except PyError Ledger → Except PyError LedgerAnswer × Ledger
  | .ok L' => (.ok .done, L')
  | .error e => (.error e, L)

/-- What the ledger answers to a call, and the ledger after it. -/
def answer (L : Ledger) : LedgerCall → Except PyError LedgerAnswer × Ledger
  | .reserve e => reserved (L.reserve e .reserved e.peerOperationId)
  | .reserveAndDispatch e peer =>
    reserved (L.reserve e .dispatched (Text.orElse peer e.peerOperationId))
  | .markDispatched k peer => L.marked (L.mark .dispatched k peer none)
  | .markAcknowledged k ack => L.marked (L.mark .acknowledged k none ack)
  | .markSucceeded k ack => L.marked (L.mark .succeeded k none ack)
  | .markUnknownEffect k => L.marked (L.mark .unknownEffect k none none)
  | .get k => (.ok (.record (L k)), L)

end Ledger

/-! ### Moving forward -/

/-- One move of the state machine, or none. -/
inductive Advances : DedupeState → DedupeState → Prop where
  | stay (s : DedupeState) : Advances s s
  | dispatch : Advances .reserved .dispatched
  | acknowledge : Advances .dispatched .acknowledged
  | succeed : Advances .acknowledged .succeeded
  | lose : Advances .dispatched .unknownEffect

/-- A text that is there and not empty. -/
def Present (s : Option String) : Prop := ∃ t, s = some t ∧ t ≠ ""

theorem present_orElse {s : Option String} (h : Present s) (t : Option String) :
    Present (Text.orElse t s) := by
  unfold Text.orElse
  split
  · split
    · exact h
    · rename_i hne
      exact ⟨_, rfl, hne⟩
  · exact h

/-- What a call may do to a record that is already there. -/
structure RecordAdvances (r r' : DedupeRecord) : Prop where
  key : r'.dispatchIdempotencyKey = r.dispatchIdempotencyKey
  fingerprint : r'.operationFingerprint = r.operationFingerprint
  attempt : r'.attemptSeq = r.attemptSeq
  state : Advances r.state r'.state
  peer : Present r.peerOperationId → Present r'.peerOperationId
  ack : Present r.externalAckRef → Present r'.externalAckRef

theorem RecordAdvances.refl (r : DedupeRecord) : RecordAdvances r r :=
  ⟨rfl, rfl, rfl, .stay _, id, id⟩

/-- Every mark moves along an edge of the machine. -/
structure Mark.Legal (m : Mark) : Prop where
  advances : ∀ s ∈ m.allowed, Advances s m.target

/-- A mark from a state to the next one, allowed again in its target. -/
theorem Mark.legal_of {s t : DedupeState} (h : Advances s t) : (⟨[s, t], t⟩ : Mark).Legal := by
  constructor
  intro u hu
  rcases List.mem_cons.mp hu with rfl | hu
  · exact h
  · rw [List.mem_singleton.mp hu]
    exact .stay _

theorem moved_advances {m : Mark} (hm : m.Legal) {r : DedupeRecord} (h : r.state ∈ m.allowed)
    (peer ack : Option String) : RecordAdvances r (r.moved m.target peer ack) where
  key := rfl
  fingerprint := rfl
  attempt := rfl
  state := hm.advances r.state h
  peer := fun hp => present_orElse hp peer
  ack := fun hp => present_orElse hp ack

/-- Every record that is there stays there and moves forward. -/
def Ledger.Forward (L L' : Ledger) : Prop :=
  ∀ key r, L key = some r → ∃ r', L' key = some r' ∧ RecordAdvances r r'

theorem Ledger.forward_refl (L : Ledger) : L.Forward L :=
  fun _ r h => ⟨r, h, .refl r⟩

theorem Ledger.put_new_forward {L : Ledger} {key : String} (h : L key = none) (r : DedupeRecord) :
    L.Forward (L.put key r) := by
  intro key' r' hr'
  have hne : key' ≠ key := by
    intro he
    rw [he, h] at hr'
    cases hr'
  exact ⟨r', by rw [Ledger.put_apply, if_neg hne]; exact hr', .refl r'⟩

theorem Ledger.put_moved_forward {L : Ledger} {key : String} {r r' : DedupeRecord}
    (h : L key = some r) (hr : RecordAdvances r r') : L.Forward (L.put key r') := by
  intro key' old hold
  by_cases hk : key' = key
  · subst hk
    rw [h] at hold
    cases hold
    exact ⟨r', by rw [Ledger.put_apply, if_pos rfl], hr⟩
  · exact ⟨old, by rw [Ledger.put_apply, if_neg hk]; exact hold, .refl old⟩

theorem Ledger.reserve_forward (L : Ledger) (e : IdempotencyEnvelope) (state : DedupeState)
    (peer : Option String) : L.Forward (L.reserve e state peer).2 := by
  unfold Ledger.reserve
  split
  · exact L.forward_refl
  · rename_i hnone
    exact put_new_forward hnone _

theorem Ledger.marked_forward (L : Ledger) {m : Mark} (hm : m.Legal) (key : String)
    (peer ack : Option String) : L.Forward (L.marked (L.mark m key peer ack)).2 := by
  unfold Ledger.mark
  split
  · exact L.forward_refl
  · rename_i r hr
    split
    · rename_i hallowed
      exact put_moved_forward hr (moved_advances hm hallowed peer ack)
    · exact L.forward_refl

/-- **Whatever the call, the ledger moves forward.** -/
theorem Ledger.answer_forward (L : Ledger) (c : LedgerCall) : L.Forward (L.answer c).2 := by
  cases c with
  | reserve e => exact L.reserve_forward e _ _
  | reserveAndDispatch e peer => exact L.reserve_forward e _ _
  | markDispatched k peer => exact L.marked_forward (Mark.legal_of .dispatch) k _ _
  | markAcknowledged k ack => exact L.marked_forward (Mark.legal_of .acknowledge) k _ _
  | markSucceeded k ack => exact L.marked_forward (Mark.legal_of .succeed) k _ _
  | markUnknownEffect k => exact L.marked_forward (Mark.legal_of .lose) k _ _
  | get k => exact L.forward_refl

/-- A reservation of a present key is refused with the record and changes nothing;
this is all that keeps two dispatches of one key apart. -/
theorem Ledger.reserve_present {L : Ledger} {e : IdempotencyEnvelope} {r : DedupeRecord}
    (h : L e.dispatchIdempotencyKey = some r) (state : DedupeState) (peer : Option String) :
    L.reserve e state peer = (.duplicateOf r, L) := by
  simp only [Ledger.reserve, h]

theorem Ledger.answer_reservation {L : Ledger} {e : IdempotencyEnvelope} {peer : Option String}
    {r : DedupeRecord} {c : LedgerCall} (hc : c = .reserve e ∨ c = .reserveAndDispatch e peer)
    (h : L e.dispatchIdempotencyKey = some r) :
    L.answer c = (.ok (.reservation (.duplicateOf r)), L) := by
  rcases hc with rfl | rfl <;> simp only [answer, reserved, reserve_present h]

/-- A refused call changes nothing. -/
theorem Ledger.answer_error {L : Ledger} {c : LedgerCall} {e : PyError}
    (h : (L.answer c).1 = .error e) : (L.answer c).2 = L := by
  have hmarked : ∀ r : Except PyError Ledger, (L.marked r).1 = .error e → (L.marked r).2 = L := by
    intro r hr
    cases r with
    | ok L' => cases hr
    | error e' => rfl
  cases c with
  | reserve _ => cases h
  | reserveAndDispatch _ _ => cases h
  | get _ => cases h
  | markDispatched k peer => exact hmarked _ h
  | markAcknowledged k ack => exact hmarked _ h
  | markSucceeded k ack => exact hmarked _ h
  | markUnknownEffect k => exact hmarked _ h

/-! ### Stores that keep the ledger -/

/-- The calls a backend has room for, given what it holds. -/
structure Domain where
  reserve : Ledger → IdempotencyEnvelope → Option String → Prop
  mark : Ledger → Mark → String → Option String → Option String → Prop
  get : String → Prop

/-- Everything. -/
def Domain.all : Domain := ⟨fun _ _ _ => True, fun _ _ _ _ _ => True, fun _ => True⟩

/-- The call asks nothing outside the domain. -/
def LedgerCall.Within (D : Domain) (L : Ledger) : LedgerCall → Prop
  | .reserve e => D.reserve L e e.peerOperationId
  | .reserveAndDispatch e peer => D.reserve L e (Text.orElse peer e.peerOperationId)
  | .markDispatched k peer => D.mark L .dispatched k peer none
  | .markAcknowledged k ack => D.mark L .acknowledged k none ack
  | .markSucceeded k ack => D.mark L .succeeded k none ack
  | .markUnknownEffect k => D.mark L .unknownEffect k none none
  | .get k => D.get k

theorem LedgerCall.within_all (c : LedgerCall) (L : Ledger) : c.Within .all L := by
  cases c <;> exact trivial

section
variable {σ : Type}

/-- A call on a store follows the ledger: outcome and view are the ledger's, or, on
a store that may fail, it raises and the view is as it was. -/
def Follows {α : Type} (mayFail : Prop) (Inv : σ → Prop) (view : σ → Ledger)
    (x : Call PyError σ α) (s : σ) (spec : Except PyError α × Ledger) : Prop :=
  Inv (x.after s) ∧ ((x.outcome s, view (x.after s)) = spec ∨
    mayFail ∧ (∃ e, x.outcome s = .error e) ∧ view (x.after s) = view s)

/-- A store keeps the ledger of its view on the calls within a domain. -/
def Keeps (S : DedupeStorePort σ) (mayFail : Prop) (D : Domain) (Inv : σ → Prop)
    (view : σ → Ledger) : Prop :=
  ∀ (c : LedgerCall) (s : σ), c.Within D (view s) → Inv s →
    Follows mayFail Inv view (perform S c) s ((view s).answer c)

/-- The same of the methods a store writes by hand. -/
structure MethodsKeep (m : StoreMethods σ) (mayFail : Prop) (D : Domain) (Inv : σ → Prop)
    (view : σ → Ledger) : Prop where
  reserveAs : ∀ e state peer s, D.reserve (view s) e peer → Inv s →
    Follows mayFail Inv view (m.reserveAs e state peer) s
      (.ok ((view s).reserve e state peer).1, ((view s).reserve e state peer).2)
  mark : ∀ mk key peer ack s, D.mark (view s) mk key peer ack → Inv s →
    Follows mayFail Inv view (m.mark mk key peer ack) s
      (match (view s).mark mk key peer ack with
        | .ok L => (.ok (), L)
        | .error e => (.error e, view s))
  get : ∀ key s, D.get key → Inv s → Follows mayFail Inv view (m.get key) s (.ok (view s key), view s)

variable {mayFail : Prop} {D : Domain} {Inv : σ → Prop} {view : σ → Ledger}

theorem Follows.map {α β : Type} {x : Call PyError σ α} {s : σ} {r : Except PyError α} {L : Ledger}
    (h : Follows mayFail Inv view x s (r, L)) (f : α → β) :
    Follows mayFail Inv view (f <$> x : Call PyError σ β) s (r.map f, L) := by
  obtain ⟨hinv, heq | ⟨hf, ⟨e, he⟩, hv⟩⟩ := h
  · rw [Prod.mk.injEq] at heq
    refine ⟨by rw [Call.after_map]; exact hinv, .inl ?_⟩
    rw [Call.outcome_map, Call.after_map, heq.1, heq.2]
  · refine ⟨by rw [Call.after_map]; exact hinv, .inr ⟨hf, ⟨e, ?_⟩, by rw [Call.after_map]; exact hv⟩⟩
    rw [Call.outcome_map, he]
    rfl

/-- A mark's answer is the ledger's. -/
theorem MethodsKeep.marked {m : StoreMethods σ} (h : MethodsKeep m mayFail D Inv view) (mk : Mark)
    {key : String} {peer ack : Option String} {s : σ} (hmk : D.mark (view s) mk key peer ack)
    (hs : Inv s) :
    Follows mayFail Inv view ((fun _ => LedgerAnswer.done) <$> m.mark mk key peer ack) s
      ((view s).marked ((view s).mark mk key peer ack)) := by
  have hm := h.mark mk key peer ack s hmk hs
  cases hmark : (view s).mark mk key peer ack with
  | ok L =>
    rw [hmark] at hm
    exact hm.map _
  | error e =>
    rw [hmark] at hm
    exact hm.map _

/-- It is enough to look at the methods a store writes by hand. -/
theorem MethodsKeep.keeps {m : StoreMethods σ} (h : MethodsKeep m mayFail D Inv view) :
    Keeps m.port mayFail D Inv view := by
  intro c s hc hs
  cases c with
  | reserve e => exact (h.reserveAs e _ _ s hc hs).map _
  | reserveAndDispatch e peer => exact (h.reserveAs e _ _ s hc hs).map _
  | markDispatched k peer => exact h.marked _ hc hs
  | markAcknowledged k ack => exact h.marked _ hc hs
  | markSucceeded k ack => exact h.marked _ hc hs
  | markUnknownEffect k => exact h.marked _ hc hs
  | get k => exact (h.get k s hc hs).map _

/-- A store that does not fail returns what the ledger answers. -/
theorem Keeps.eval_ok {S : DedupeStorePort σ} (h : Keeps S False D Inv view) {α : Type}
    {x : Call PyError σ α} {f : α → LedgerAnswer} (hf : Function.Injective f) {c : LedgerCall} {s : σ}
    {a : α} {L : Ledger} (hx : perform S c = f <$> x) (hc : c.Within D (view s)) (hs : Inv s)
    (ha : (view s).answer c = (.ok (f a), L)) : ∃ s', x s = .ok a s' ∧ view s' = L ∧ Inv s' := by
  obtain ⟨hinv, heq | ⟨hfalse, _⟩⟩ := h c s hc hs
  · rw [hx] at hinv heq
    rw [ha, Call.outcome_map, Call.after_map, Prod.mk.injEq] at heq
    rw [Call.after_map] at hinv
    cases hxs : x s with
    | ok b s' =>
      obtain ⟨hout, hafter⟩ := Call.outcome_ok hxs
      rw [hout, hafter] at heq
      rw [hafter] at hinv
      exact ⟨s', by rw [hf (Except.ok.inj heq.1)], heq.2, hinv⟩
    | error e s' =>
      rw [(Call.outcome_error hxs).1] at heq
      cases heq.1
  · exact hfalse.elim

/-- What the ledger refuses, the store raises, and nothing changes. -/
theorem Keeps.eval_error {S : DedupeStorePort σ} (h : Keeps S False D Inv view) {α : Type}
    {x : Call PyError σ α} {f : α → LedgerAnswer} {c : LedgerCall} {s : σ} {e : PyError}
    (hx : perform S c = f <$> x) (hc : c.Within D (view s)) (hs : Inv s)
    (ha : ((view s).answer c).1 = .error e) : ∃ s', x s = .error e s' ∧ view s' = view s ∧ Inv s' := by
  obtain ⟨hinv, heq | ⟨hfalse, _⟩⟩ := h c s hc hs
  · have hout := congrArg Prod.fst heq
    have hview := congrArg Prod.snd heq
    simp only [hx, Call.outcome_map, Call.after_map, ha, Ledger.answer_error ha] at hout hview
    rw [hx, Call.after_map] at hinv
    cases hxs : x s with
    | ok b s' =>
      rw [(Call.outcome_ok hxs).1] at hout
      cases hout
    | error e' s' =>
      obtain ⟨hout', hafter⟩ := Call.outcome_error hxs
      rw [hout'] at hout
      rw [hafter] at hview hinv
      cases hout
      exact ⟨s', rfl, hview, hinv⟩
  · exact hfalse.elim

end

/-! ### What every store that keeps the ledger guarantees -/

section
variable {σ : Type} {S : DedupeStorePort σ} {mayFail : Prop} {Inv : σ → Prop} {view : σ → Ledger}

theorem Follows.mono {α : Type} {mayFail' : Prop} {x : Call PyError σ α} {s : σ}
    {spec : Except PyError α × Ledger} (h : Follows mayFail Inv view x s spec)
    (hfail : mayFail → mayFail') : Follows mayFail' Inv view x s spec := by
  obtain ⟨hinv, heq | ⟨hf, herr, hv⟩⟩ := h
  · exact ⟨hinv, .inl heq⟩
  · exact ⟨hinv, .inr ⟨hfail hf, herr, hv⟩⟩

theorem Keeps.inv_afterCalls (h : Keeps S mayFail .all Inv view) {s : σ} (hs : Inv s)
    (cs : List LedgerCall) : Inv (afterCalls S s cs) :=
  run_invariant (fun s c hs => (h c s (c.within_all _) hs).1) hs cs

/-- What no sequence of calls on a store can break, said of a call after any calls.
`mayFail` is whether the store may fail for reasons of its own. -/
structure OnlyForward (mayFail : Prop) (S : DedupeStorePort σ) (view : σ → Ledger) (start : σ) :
    Prop where
  /-- Records stay and move forward. -/
  forward : ∀ (cs : List LedgerCall) (c : LedgerCall),
    (view (afterCalls S start cs)).Forward (view ((perform S c).after (afterCalls S start cs)))
  /-- A second reservation is refused with the current record and changes nothing. -/
  duplicate : ∀ (cs : List LedgerCall) (e : IdempotencyEnvelope) (peer : Option String)
      (r : DedupeRecord) (c : LedgerCall), c = .reserve e ∨ c = .reserveAndDispatch e peer →
    view (afterCalls S start cs) e.dispatchIdempotencyKey = some r →
    view ((perform S c).after (afterCalls S start cs)) = view (afterCalls S start cs) ∧
      ((perform S c).outcome (afterCalls S start cs) = .ok (.reservation (.duplicateOf r)) ∨
        mayFail ∧ ∃ err, (perform S c).outcome (afterCalls S start cs) = .error err)
  /-- A call that raises changes nothing. -/
  raised : ∀ (cs : List LedgerCall) (c : LedgerCall) (e : PyError),
    (perform S c).outcome (afterCalls S start cs) = .error e →
    view ((perform S c).after (afterCalls S start cs)) = view (afterCalls S start cs)

/-- The domain of a store that always has room to refuse a second reservation. -/
def Domain.Refuses (D : Domain) : Prop :=
  ∀ (L : Ledger) (e : IdempotencyEnvelope) (peer : Option String) (r : DedupeRecord),
    L e.dispatchIdempotencyKey = some r → D.reserve L e peer

/-- **A store that keeps the ledger only moves it forward.** It may fail on any call,
and on the calls of a domain that refuses duplicates only when it may fail at all. -/
theorem Keeps.onlyForward (h : Keeps S True .all Inv view) {D : Domain} (hD : D.Refuses)
    (hin : Keeps S mayFail D Inv view) {start : σ} (hs : Inv start) :
    OnlyForward mayFail S view start where
  forward := by
    intro cs c
    obtain ⟨_, heq | ⟨_, _, hv⟩⟩ := h c _ (c.within_all _) (h.inv_afterCalls hs cs)
    · have hf := (view (afterCalls S start cs)).answer_forward c
      rw [← heq] at hf
      exact hf
    · rw [hv]
      exact Ledger.forward_refl _
  duplicate := by
    intro cs e peer r c hc hr
    have hwithin : c.Within D (view (afterCalls S start cs)) := by
      rcases hc with rfl | rfl
      · exact hD _ e _ r hr
      · exact hD _ e _ r hr
    obtain ⟨_, heq | ⟨hf, herr, hv⟩⟩ := hin c _ hwithin (h.inv_afterCalls hs cs)
    · rw [Ledger.answer_reservation hc hr, Prod.mk.injEq] at heq
      exact ⟨heq.2, .inl heq.1⟩
    · exact ⟨hv, .inr ⟨hf, herr⟩⟩
  raised := by
    intro cs c e he
    obtain ⟨_, heq | ⟨_, _, hv⟩⟩ := h c _ (c.within_all _) (h.inv_afterCalls hs cs)
    · have herr : ((view (afterCalls S start cs)).answer c).1 = .error e := by rw [← heq]; exact he
      have hsame := Ledger.answer_error herr
      rw [← heq] at hsame
      exact hsame
    · exact hv

theorem Domain.all_refuses : Domain.all.Refuses := fun _ _ _ _ _ => trivial

end

/-! ### The in-memory store keeps the ledger -/

namespace InMemoryDedupeStore

def view (s : InMemoryDedupeStore) : Ledger := s.get?

theorem view_set (s : InMemoryDedupeStore) (key : String) (r : DedupeRecord) :
    view (s.set key r) = (view s).put key r := by
  funext key'
  rw [Ledger.put_apply]
  exact s.get?_set key key' r

theorem reserveAs_apply (e : IdempotencyEnvelope) (state : DedupeState) (peer : Option String)
    (s : InMemoryDedupeStore) :
    reserveAs e state peer s = match s.get? e.dispatchIdempotencyKey with
      | some existing => .ok (.duplicateOf existing) s
      | none => .ok .granted (s.set e.dispatchIdempotencyKey (e.record state peer)) := by
  simp only [reserveAs, Call.bind_apply, Call.estate_get_apply]
  cases s.get? e.dispatchIdempotencyKey <;> rfl

theorem mark_apply (m : Mark) (key : String) (peer ack : Option String) (s : InMemoryDedupeStore) :
    mark m key peer ack s = match s.get? key with
      | none => .error (unknownKey key) s
      | some r =>
        if r.state ∈ m.allowed then .ok () (s.set key (r.moved m.target peer ack))
        else .error (cannotTransition r.state m.target) s := by
  simp only [mark, getRequiredRecord, Call.bind_apply, Call.estate_get_apply]
  cases s.get? key with
  | none => rfl
  | some r =>
    simp only [Call.pure_apply]
    split <;> rfl

theorem methods_keep : MethodsKeep methods False .all (fun _ => True) view where
  reserveAs := by
    intro e state peer s _ _
    refine ⟨trivial, .inl ?_⟩
    have happly := reserveAs_apply e state peer s
    simp only [methods, Call.outcome, Call.after, Ledger.reserve, view, happly]
    cases s.get? e.dispatchIdempotencyKey with
    | some existing => rfl
    | none => exact congrArg _ (view_set s _ _)
  mark := by
    intro m key peer ack s _ _
    refine ⟨trivial, .inl ?_⟩
    have happly := mark_apply m key peer ack s
    simp only [methods, Call.outcome, Call.after, Ledger.mark, view, happly]
    cases s.get? key with
    | none => rfl
    | some r =>
      by_cases hr : r.state ∈ m.allowed
      · simp only [hr, if_true]
        exact congrArg _ (view_set s _ _)
      · simp only [hr, if_false]
  get := fun key s _ _ => ⟨trivial, .inl rfl⟩

end InMemoryDedupeStore
end AgentKernel.Dedupe
