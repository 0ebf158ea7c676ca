import AgentKernel.Dedupe.Ledger

/-! Healthy stores: they answer every call as the ledger does and never fail.

The lemmas evaluate the calls of a healthy store at a state of which only the
ledger is known, so that proofs about its callers never look at a store. -/
namespace AgentKernel.Dedupe
open Lib

structure HealthyStore where
  State : Type
  port : DedupeStorePort State
  view : State → Ledger
  keeps : Keeps port False .all (fun _ => True) view

def InMemoryDedupeStore.healthy : HealthyStore where
  State := InMemoryDedupeStore
  port := InMemoryDedupeStore.port
  view := InMemoryDedupeStore.view
  keeps := InMemoryDedupeStore.methods_keep.keeps

namespace HealthyStore
variable {S : HealthyStore} {s : S.State}

theorem get_eval (key : String) :
    ∃ s', S.port.get key s = .ok (S.view s key) s' ∧ S.view s' = S.view s := by
  obtain ⟨s', hget, hview, _⟩ := S.keeps.eval_ok (fun _ _ h => LedgerAnswer.record.inj h)
    (c := .get key) (s := s) rfl trivial trivial rfl
  exact ⟨s', hget, hview⟩

theorem reserveAndDispatch_eval (e : IdempotencyEnvelope) (peer : Option String) :
    ∃ s', S.port.reserveAndDispatch e peer s =
        .ok ((S.view s).reserve e .dispatched (Text.orElse peer e.peerOperationId)).1 s' ∧
      S.view s' = ((S.view s).reserve e .dispatched (Text.orElse peer e.peerOperationId)).2 := by
  obtain ⟨s', hreserve, hview, _⟩ := S.keeps.eval_ok
    (fun _ _ h => LedgerAnswer.reservation.inj h)
    (c := .reserveAndDispatch e peer) (s := s) rfl trivial trivial rfl
  exact ⟨s', hreserve, hview⟩

/-- A reservation of a present key is refused and changes nothing. -/
theorem reserveAndDispatch_present {e : IdempotencyEnvelope} {r : DedupeRecord}
    (h : S.view s e.dispatchIdempotencyKey = some r) (peer : Option String) :
    ∃ s', S.port.reserveAndDispatch e peer s = .ok (.duplicateOf r) s' ∧ S.view s' = S.view s := by
  have heval := reserveAndDispatch_eval (S := S) (s := s) e peer
  rwa [Ledger.reserve_present h] at heval

/-- A reservation of a new key makes its record. -/
theorem reserveAndDispatch_absent {e : IdempotencyEnvelope}
    (h : S.view s e.dispatchIdempotencyKey = none) (peer : Option String) :
    ∃ s', S.port.reserveAndDispatch e peer s = .ok .granted s' ∧
      S.view s' = (S.view s).put e.dispatchIdempotencyKey
        (e.record .dispatched (Text.orElse peer e.peerOperationId)) := by
  have heval := reserveAndDispatch_eval (S := S) (s := s) e peer
  simpa only [Ledger.reserve, h] using heval

theorem reserve_eval (e : IdempotencyEnvelope) :
    ∃ s', S.port.reserve e s = .ok ((S.view s).reserve e .reserved e.peerOperationId).1 s' ∧
      S.view s' = ((S.view s).reserve e .reserved e.peerOperationId).2 := by
  obtain ⟨s', hreserve, hview, _⟩ := S.keeps.eval_ok
    (fun _ _ h => LedgerAnswer.reservation.inj h) (c := .reserve e) (s := s) rfl trivial trivial rfl
  exact ⟨s', hreserve, hview⟩

/-- A present key is not reserved again. -/
theorem reserve_present {e : IdempotencyEnvelope} {r : DedupeRecord}
    (h : S.view s e.dispatchIdempotencyKey = some r) :
    ∃ s', S.port.reserve e s = .ok (.duplicateOf r) s' ∧ S.view s' = S.view s := by
  have heval := reserve_eval (S := S) (s := s) e
  rwa [Ledger.reserve_present h] at heval

/-- A new key is reserved. -/
theorem reserve_absent {e : IdempotencyEnvelope} (h : S.view s e.dispatchIdempotencyKey = none) :
    ∃ s', S.port.reserve e s = .ok .granted s' ∧
      S.view s' = (S.view s).put e.dispatchIdempotencyKey (e.record .reserved e.peerOperationId) := by
  have heval := reserve_eval (S := S) (s := s) e
  simpa only [Ledger.reserve, h] using heval

/-- A mark that is allowed moves the record. -/
theorem mark_eval {x : Call PyError S.State Unit} {c : LedgerCall} {m : Mark} {key : String}
    {peer ack : Option String} {r : DedupeRecord}
    (hx : perform S.port c = (fun _ => LedgerAnswer.done) <$> x)
    (hc : (S.view s).answer c = (S.view s).marked ((S.view s).mark m key peer ack))
    (hr : S.view s key = some r) (hm : r.state ∈ m.allowed) :
    ∃ s', x s = .ok () s' ∧ S.view s' = (S.view s).put key (r.moved m.target peer ack) := by
  obtain ⟨s', hmark, hview, _⟩ := S.keeps.eval_ok (fun _ _ _ => rfl) (s := s) (a := ())
    (L := (S.view s).put key (r.moved m.target peer ack)) hx (c.within_all _) trivial (by
      rw [hc]
      simp only [Ledger.mark, hr, if_pos hm, Ledger.marked])
  exact ⟨s', hmark, hview⟩

/-- A mark that returned was allowed, and has moved the record. -/
theorem mark_ok {x : Call PyError S.State Unit} {c : LedgerCall} {m : Mark} {key : String}
    {peer ack : Option String} {s' : S.State}
    (hx : perform S.port c = (fun _ => LedgerAnswer.done) <$> x)
    (hc : (S.view s).answer c = (S.view s).marked ((S.view s).mark m key peer ack))
    (h : x s = .ok () s') :
    ∃ r, S.view s' key = some r ∧ r.state = m.target := by
  have hrefused : ∀ e, (S.view s).mark m key peer ack ≠ .error e := by
    intro e he
    have hanswer : ((S.view s).answer c).1 = .error e := by rw [hc, he]; rfl
    obtain ⟨s'', herror, -⟩ := S.keeps.eval_error hx (c.within_all _) trivial hanswer
    rw [h] at herror
    cases herror
  cases hr : S.view s key with
  | none => exact absurd (by rw [Ledger.mark, hr]) (hrefused (unknownKey key))
  | some r =>
    by_cases hm : r.state ∈ m.allowed
    · obtain ⟨s'', hmark, hview⟩ := mark_eval hx hc hr hm
      rw [h] at hmark
      cases hmark
      exact ⟨_, by rw [hview, Ledger.put_apply, if_pos rfl], rfl⟩
    · exact absurd (by simp only [Ledger.mark, hr, if_neg hm])
        (hrefused (cannotTransition r.state m.target))

/-- Whatever is called, the ledger moves forward. -/
theorem forward_after (c : LedgerCall) (s : S.State) :
    (S.view s).Forward (S.view ((perform S.port c).after s)) := by
  obtain ⟨-, heq | ⟨hfalse, -⟩⟩ := S.keeps c s (c.within_all _) trivial
  · have hview := congrArg Prod.snd heq
    simp only at hview
    rw [hview]
    exact Ledger.answer_forward _ c
  · exact hfalse.elim

theorem markDispatched_eval {key : String} {r : DedupeRecord} (hr : S.view s key = some r)
    (hstate : r.state = .reserved) :
    ∃ s', S.port.markDispatched key none s = .ok () s' ∧
      S.view s' = (S.view s).put key (r.moved .dispatched none none) :=
  mark_eval (c := .markDispatched key none) (m := .dispatched) rfl rfl hr (by rw [hstate]; decide)

/-- A new key is reserved and its record marked as dispatched. -/
theorem reserve_markDispatched_eval {e : IdempotencyEnvelope}
    (h : S.view s e.dispatchIdempotencyKey = none) :
    ∃ s₁ s₂ r, S.port.reserve e s = .ok .granted s₁ ∧
      S.port.markDispatched e.dispatchIdempotencyKey none s₁ = .ok () s₂ ∧
      r.state = .dispatched ∧ S.view s₂ = (S.view s).put e.dispatchIdempotencyKey r := by
  obtain ⟨s₁, hreserve, hview₁⟩ := reserve_absent h
  have hplaced : S.view s₁ e.dispatchIdempotencyKey =
      some (e.record .reserved e.peerOperationId) := by
    rw [hview₁, Ledger.put_apply, if_pos rfl]
  obtain ⟨s₂, hmark, hview₂⟩ := markDispatched_eval hplaced rfl
  refine ⟨s₁, s₂, (e.record .reserved e.peerOperationId).moved .dispatched none none, hreserve, hmark,
    rfl, hview₂.trans ?_⟩
  rw [hview₁]
  exact Function.update_idem ..

theorem markAcknowledged_eval {key : String} {r : DedupeRecord} (hr : S.view s key = some r)
    (hstate : r.state = .dispatched) :
    ∃ s', S.port.markAcknowledged key none s = .ok () s' ∧
      S.view s' = (S.view s).put key (r.moved .acknowledged none none) :=
  mark_eval (c := .markAcknowledged key none) (m := .acknowledged) rfl rfl hr
    (by rw [hstate]; decide)

theorem markUnknownEffect_eval {key : String} {r : DedupeRecord} (hr : S.view s key = some r)
    (hstate : r.state = .dispatched) :
    ∃ s', S.port.markUnknownEffect key s = .ok () s' ∧
      S.view s' = (S.view s).put key (r.moved .unknownEffect none none) :=
  mark_eval (c := .markUnknownEffect key) (m := .unknownEffect) rfl rfl hr
    (by rw [hstate]; decide)

end HealthyStore
end AgentKernel.Dedupe
