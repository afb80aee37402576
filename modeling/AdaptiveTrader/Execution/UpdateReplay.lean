import AdaptiveTrader.Execution.BrokerUpdates

/-!
# Replayed broker updates

A broker may deliver an update again, at once or after the order has moved on. An update that
changed its order's projection left its event ID behind, and event IDs keep their owners for good
(`Writes.owner_kept`). An update whose event ID is owned can only confirm the projection or be
refused before the first write (`applyBrokerUpdate_owned`), whatever its order has become since.
-/

set_option autoImplicit false

namespace AdaptiveTrader

open Foundation

namespace MemoryExecutionRepository

variable [ContentHasher] {repo repo' : MemoryExecutionRepository} {update : BrokerUpdate}

/-! ## Owners of broker events -/

/-- The owner of a broker event never changes. -/
theorem Write.owner_kept {enters : OrderState → Prop} (hw : Write enters repo repo')
    {id owner : String} (h : repo.brokerEventOwners.get? id = some owner) :
    repo'.brokerEventOwners.get? id = some owner := by
  cases hw with
  | plan plan intents decision audit _ =>
      rw [storePlan_eq]
      exact h
  | transition clientOrderId previous change brokerEventId authorityHash current event audit
      admitted _ =>
      have hevent : event.brokerEventId = brokerEventId := by
        rw [admitted.event_eq]
        rfl
      cases brokerEventId with
      | none =>
          rw [brokerEventOwners_storeTransition_of_none hevent]
          exact h
      | some new =>
          -- a transition was admitted with an unowned event ID only
          have hne : id ≠ new := by
            rintro rfl
            rw [admitted.newBrokerEvent id rfl] at h
            cases h
          rw [brokerEventOwners_storeTransition_of_some hevent]
          exact (Dict.get?_set_of_ne _ _ hne).trans h
  | fill _ _ _ _ _ => exact h
  | unauditedFill _ _ => exact h
  | incident _ _ _ => exact h
  | bundle receipt request latchEvent incident audit _ =>
      cases incident <;> exact h

theorem Writes.owner_kept {enters : OrderState → Prop} (hw : Writes enters repo repo')
    {id owner : String} (h : repo.brokerEventOwners.get? id = some owner) :
    repo'.brokerEventOwners.get? id = some owner := by
  induction hw with
  | refl => exact h
  | tail _ hstep ih => exact hstep.owner_kept ih

/-- Along every run broker events keep their owners. -/
theorem owner_kept_of_run {operations : List LedgerOperation}
    (hrun : ledgerRuns.Run repo operations repo') {id owner : String}
    (h : repo.brokerEventOwners.get? id = some owner) :
    repo'.brokerEventOwners.get? id = some owner := by
  refine hrun.preserves (P := fun r => r.brokerEventOwners.get? id = some owner) ?_ h
  intro s operation t hs hstep
  exact (hstep ▸ writes_exec operation s).owner_kept hs

/-! ## Updates with an owned event -/

/-- An update whose event ID has an owner writes nothing: it confirms the projection or raises. -/
theorem applyBrokerUpdate_owned {owner : String}
    (howned : repo.brokerEventOwners.get? update.brokerEventId = some owner) :
    (∃ order, applyBrokerUpdate (some update) repo = (.ok order, repo) ∧
        repo.orderTable.get? update.clientOrderId = some order ∧
        sameProjection order update = true) ∨
      ∃ e, applyBrokerUpdate (some update) repo = (.error e, repo) := by
  cases hproject : repo.projectBrokerUpdate update with
  | error e => exact Or.inr ⟨e, applyBrokerUpdate_of_error hproject⟩
  | ok outcome =>
      obtain ⟨previous, intent, hfound, -, -, ⟨hsame, rfl, -⟩ | ⟨-, current, event, audit,
        hadmitted, -⟩⟩ := projectBrokerUpdate_spec hproject
      · exact Or.inl ⟨previous, applyBrokerUpdate_of_unchanged hproject, hfound, hsame⟩
      · -- a transition needs an event ID without an owner
        have hunowned := hadmitted.newBrokerEvent update.brokerEventId rfl
        rw [howned] at hunowned
        cases hunowned

/-- An update that changes an order leaves its event ID owned, also when it raises afterwards. -/
theorem owned_of_changed
    (hchanged : (applyBrokerUpdate (some update) repo).2.orderTable ≠ repo.orderTable) :
    ∃ owner, (applyBrokerUpdate (some update) repo).2.brokerEventOwners.get?
      update.brokerEventId = some owner := by
  cases hproject : repo.projectBrokerUpdate update with
  | error e =>
      rw [applyBrokerUpdate_of_error hproject] at hchanged
      exact absurd rfl hchanged
  | ok outcome =>
      obtain ⟨previous, intent, -, -, -, ⟨-, rfl, -⟩ | ⟨-, current, event, audit, hadmitted,
        rfl⟩⟩ := projectBrokerUpdate_spec hproject
      · rw [applyBrokerUpdate_of_unchanged hproject] at hchanged
        exact absurd rfl hchanged
      · have hevent : event.brokerEventId = some update.brokerEventId := by
          rw [hadmitted.event_eq]
          rfl
        have howned : (repo.storeTransition current event audit).brokerEventOwners.get?
            update.brokerEventId = some current.clientOrderId := by
          rw [brokerEventOwners_storeTransition_of_some hevent]
          exact Dict.get?_set_self _ _ _
        have hfills := Exec.Respects.andThen composable_writes
          (Exec.Respects.forEach composable_writes (writes_recordFill intent) update.fills)
          (fun _ => Exec.Respects.ret composable_writes current)
        rw [applyBrokerUpdate_of_transitioned hproject]
        exact ⟨current.clientOrderId, (hfills _).owner_kept howned⟩

/-- An update that changed an order once is harmless when it is delivered again, at once or after
any later operations: it returns the current order, which still equals the update, or raises, and
the ledger stays as it is. -/
theorem replayed_update_harmless {before after : MemoryExecutionRepository}
    {operations : List LedgerOperation}
    (hchanged : (applyBrokerUpdate (some update) before).2.orderTable ≠ before.orderTable)
    (hlater : ledgerRuns.Run (applyBrokerUpdate (some update) before).2 operations after) :
    (∃ order, applyBrokerUpdate (some update) after = (.ok order, after) ∧
        after.orderTable.get? update.clientOrderId = some order ∧
        sameProjection order update = true) ∨
      ∃ e, applyBrokerUpdate (some update) after = (.error e, after) := by
  obtain ⟨owner, howner⟩ := owned_of_changed hchanged
  exact applyBrokerUpdate_owned (owner_kept_of_run hlater howner)

/-- An update that is admitted as a new projection does change its order. -/
theorem changed_of_newProjection (hw : WellFormed repo) (hnew : NewProjection repo update) :
    (applyBrokerUpdate (some update) repo).2.orderTable ≠ repo.orderTable := by
  obtain ⟨previous, intent, current, event, h⟩ := hnew
  obtain ⟨audit, hproject⟩ := h.projected hw
  obtain ⟨_, _, hfound, -, -, ⟨-, hunchanged, -⟩ | ⟨-, current', event', audit', hadmitted,
    htransitioned⟩⟩ := projectBrokerUpdate_spec hproject
  · cases hunchanged
  · obtain ⟨rfl, -, hstored⟩ := UpdateOutcome.transitioned.inj htransitioned
    rw [applyBrokerUpdate_of_transitioned hproject, hstored]
    have hget : (repo.storeTransition current event' audit').orderTable.get?
        update.clientOrderId = some current := by
      rw [hadmitted.get?_orderTable hw, if_pos rfl]
    -- the fills that follow never bring the order back to its earlier version
    have hfills := Exec.Respects.andThen composable_writes
      (Exec.Respects.forEach composable_writes (writes_recordFill intent) update.fills)
      (fun _ => Exec.Respects.ret composable_writes current)
    obtain ⟨final, hfinal, hprecedes⟩ := ((hfills (repo.storeTransition current event'
      audit')).advances (hw.storeTransition hadmitted)).orders _ _ hget
    intro hsame
    rw [hsame, hadmitted.found] at hfinal
    have hback := BrokerOrder.Precedes.eq_of_precedes
      (hadmitted.evolves.precedes hadmitted.submittedOnce) (Option.some.inj hfinal ▸ hprecedes)
    have hversion := hadmitted.evolves.version
    rw [hback] at hversion
    omega

end MemoryExecutionRepository

section Sample

open MemoryExecutionRepository

attribute [local instance] sampleHasher

/-- The partial fill of the sample order, delivered again after a cancel request. -/
theorem sample_replay_harmless : ∃ (update : BrokerUpdate) (before after : MemoryExecutionRepository),
    ledgerRuns.Reachable before ∧
      (applyBrokerUpdate (some update) before).2.orderTable ≠ before.orderTable ∧
      ledgerRuns.Run (applyBrokerUpdate (some update) before).2
        [.recordCancelRequested sampleClientOrderId 1] after ∧
      (applyBrokerUpdate (some update) after).2 = after := by
  obtain ⟨repo, intent, order, h⟩ := exists_sampleStarted
  have hw := WellFormed.of_reachable h.reachable.of_restrict
  have hchanged := changed_of_newProjection hw (h.newProjection
    (sampleOneShare_fills (by decide +kernel : isIdentifier "exec-1" = true)) one_pos (by norm_num))
  refine ⟨_, repo, _, h.reachable.of_restrict, hchanged, Transition.Run.single rfl, ?_⟩
  obtain ⟨_, hreturned, -⟩ | ⟨_, hraised⟩ :=
    replayed_update_harmless hchanged (Transition.Run.single rfl)
  · exact congrArg Prod.snd hreturned
  · exact congrArg Prod.snd hraised

end Sample

end AdaptiveTrader
