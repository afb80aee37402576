import AdaptiveTrader.Scheduling.SlotRepository

/-!
# What a slot operation can do

Every row a slot operation writes is written by one of eight moves (`SlotAction`); `SlotMove` states
for each the condition under which it happens and the row it writes. `SlotWrite` says that an
operation wrote one row by one move, and each operation has one lemma that reads its success
backwards to "nothing written" or one such write. The invariants of the slot table follow from the
moves alone.
-/

set_option autoImplicit false

namespace AdaptiveTrader

open Foundation

/-- The moves of a slot, with the worker and the reason they take. -/
inductive SlotAction
  | refreshed (state : SlotState) (reason : Option String)
  | expired (reason : Option String)
  | handedOver (owner : String)
  | recovered
  | renewed (owner : String)
  | completed (owner : String)
  | skipped (reason : String)
  | failed (owner reason : String)

/-- The move handed the slot to a worker. -/
def SlotAction.handsOver : SlotAction → Bool
  | handedOver _ => true
  | _ => false

/-- What a move writes. -/
def SlotAction.update (slot : DecisionSlot) (now : Instant) : SlotAction → SlotUpdate
  | refreshed state reason => { state, attemptCount := slot.attemptCount, reasonCode := reason }
  | expired reason => .expiry slot now reason
  | handedOver owner => .claim owner now (slot.attemptCount + 1)
  | recovered => .outcome slot .completed now "decision_materialized_before_recovery"
  | renewed owner => .claim owner now slot.attemptCount
  | completed _ => .outcome slot .completed now "decision_materialized"
  | skipped reason => .outcome slot .skipped now reason
  | failed _ reason => .outcome slot .failed now reason

/-- The lease of the slot has not expired. -/
def DecisionSlot.LeaseLive (slot : DecisionSlot) (now : Instant) : Prop :=
  ∀ lease ∈ slot.leaseExpiresAt, now < lease

/-- The worker holds the slot. -/
def DecisionSlot.HeldBy (slot : DecisionSlot) (owner : String) : Prop :=
  slot.state = .claimed ∧ slot.claimOwner = some owner

/-- The condition under which an operation makes a move. -/
def SlotAction.Admitted [ContentHasher] (decisions : DecisionTables) (slot : DecisionSlot)
    (now : Instant) : SlotAction → Prop
  | refreshed state _ => slot.state ≠ .claimed ∧ (state = .ready ∨ state = .waitingForData)
  | expired _ => slot.deadlineAt ≤ now ∨ completionDeadlineMissed slot now = true
  | handedOver _ =>
      slot.state = .ready ∨ slot.state = .flattenRequired ∨
        (slot.state = .claimed ∧ ∃ lease ∈ slot.leaseExpiresAt, lease ≤ now)
  | recovered =>
      slot.state = .claimed ∧ (∃ lease ∈ slot.leaseExpiresAt, lease ≤ now) ∧
        decisions.materialized slot.slotId = true
  | renewed owner => slot.HeldBy owner ∧ slot.LeaseLive now
  | completed owner =>
      slot.HeldBy owner ∧ slot.LeaseLive now ∧ decisions.materialized slot.slotId = true
  | skipped _ => slot.state ≠ .claimed ∧ decisions.materialized slot.slotId = false
  | failed owner _ => slot.HeldBy owner

/-- One row of the slot table moves. -/
structure SlotMove [ContentHasher] (decisions : DecisionTables) (now : Instant)
    (action : SlotAction) (a b : DecisionSlot) : Prop where
  admitted : action.Admitted decisions a now
  allowed : b.state ∈ a.state.allowedNextStates
  written : b.toDecisionSlotFields = a.evolvedFields (action.update a now)

section Moves

variable [ContentHasher] {decisions : DecisionTables} {now : Instant} {action : SlotAction}
  {a b : DecisionSlot}

namespace SlotMove

theorem slotId (h : SlotMove decisions now action a b) : b.slotId = a.slotId :=
  DecisionSlot.slotId_of_evolved h.written

theorem update_eq (h : SlotMove decisions now action a b) :
    b.toSlotUpdate = action.update a now := by
  rw [h.written]
  rfl

theorem contract_eq (h : SlotMove decisions now action a b) :
    b.toSlotContract = a.toSlotContract := by
  rw [h.written]
  rfl

theorem version_eq (h : SlotMove decisions now action a b) : b.version = a.version + 1 := by
  rw [h.written]
  rfl

/-- A terminal slot has no move. -/
theorem not_terminal (h : SlotMove decisions now action a b) : a.state.terminal = false := by
  cases hterminal : a.state.terminal with
  | false => rfl
  | true =>
      have hallowed := h.allowed
      rw [SlotState.allowedNextStates_of_terminal hterminal] at hallowed
      simp at hallowed

omit [ContentHasher] in
theorem expiry_fields (slot : DecisionSlot) (now : Instant) (reason : Option String) :
    (SlotUpdate.expiry slot now reason).attemptCount = slot.attemptCount ∧
      ((SlotUpdate.expiry slot now reason).state = .failed ∨
        (SlotUpdate.expiry slot now reason).state = .expired) := by
  unfold SlotUpdate.expiry
  split
  · exact ⟨rfl, Or.inl rfl⟩
  · exact ⟨rfl, Or.inr rfl⟩

/-- The attempts count the moves that hand the slot to a worker. -/
theorem attemptCount_eq (h : SlotMove decisions now action a b) :
    b.attemptCount = a.attemptCount + action.handsOver.toNat := by
  have hu : b.attemptCount = (action.update a now).attemptCount :=
    congrArg SlotUpdate.attemptCount h.update_eq
  rw [hu]
  cases action with
  | expired reason => exact (expiry_fields a now reason).1
  | refreshed state reason => rfl
  | handedOver owner => rfl
  | recovered => rfl
  | renewed owner => rfl
  | completed owner => rfl
  | skipped reason => rfl
  | failed owner reason => rfl

/-- A slot that goes from one worker to another was expired, and went by a handover. -/
theorem lease_expired_of_new_owner (h : SlotMove decisions now action a b) {owner owner' : String}
    (ha : a.HeldBy owner) (hb : b.HeldBy owner') (hne : owner' ≠ owner) :
    ∃ lease ∈ a.leaseExpiresAt, lease ≤ now := by
  have hstate : (action.update a now).state = .claimed :=
    (congrArg SlotUpdate.state h.update_eq).symm.trans hb.1
  have howner : (action.update a now).claimOwner = some owner' :=
    (congrArg SlotUpdate.claimOwner h.update_eq).symm.trans hb.2
  cases action with
  | handedOver worker =>
      rcases h.admitted with hready | hflatten | ⟨-, hlease⟩
      · rw [ha.1] at hready
        cases hready
      · rw [ha.1] at hflatten
        cases hflatten
      · exact hlease
  | renewed worker =>
      -- A renewal is made by the worker that holds the slot.
      have hheld : a.HeldBy worker := h.admitted.1
      cases howner
      exact absurd (Option.some.inj (hheld.2.symm.trans ha.2)) hne
  | expired reason =>
      rcases (expiry_fields a now reason).2 with hfailed | hexpired
      · exact absurd (hfailed.symm.trans hstate) (by decide)
      · exact absurd (hexpired.symm.trans hstate) (by decide)
  | refreshed state reason => exact absurd ha.1 h.admitted.1
  | recovered => cases hstate
  | completed worker => cases hstate
  | skipped reason => cases hstate
  | failed worker reason => cases hstate

/-- Only a materialized decision completes a slot. -/
theorem materialized_of_completed (h : SlotMove decisions now action a b)
    (hb : b.state = .completed) : decisions.materialized a.slotId = true := by
  have hstate : (action.update a now).state = .completed :=
    (congrArg SlotUpdate.state h.update_eq).symm.trans hb
  cases action with
  | recovered => exact h.admitted.2.2
  | completed worker => exact h.admitted.2.2
  | expired reason =>
      rcases (expiry_fields a now reason).2 with hfailed | hexpired
      · exact absurd (hfailed.symm.trans hstate) (by decide)
      · exact absurd (hexpired.symm.trans hstate) (by decide)
  | refreshed state reason =>
      have hrefreshed : state = .completed := hstate
      rcases h.admitted.2 with hready | hwaiting
      · exact absurd (hready.symm.trans hrefreshed) (by decide)
      · exact absurd (hwaiting.symm.trans hrefreshed) (by decide)
  | handedOver worker => cases hstate
  | renewed worker => cases hstate
  | skipped reason => cases hstate
  | failed worker reason => cases hstate

end SlotMove

end Moves

/-! ## Writes of one row -/

section Writes

variable [ContentHasher] {ρ : Type}

/-- Rows are stored under their slot ID. -/
def Keyed (slots : Dict String DecisionSlot) : Prop := slots.AllRows fun k a => a.slotId = k

/-- An operation wrote one row, by one move. -/
structure SlotWrite (now : Instant) (action : SlotAction) (db : SlotDatabase ρ) (a b : DecisionSlot)
    (db' : SlotDatabase ρ) : Prop where
  stored : db.slots.get? a.slotId = some a
  move : SlotMove db.decisions now action a b
  slots : db'.slots = db.slots.set a.slotId b
  decisions : db'.decisions = db.decisions

/-- An operation wrote nothing. -/
structure SlotsKept (db db' : SlotDatabase ρ) : Prop where
  slots : db'.slots = db.slots
  decisions : db'.decisions = db.decisions

omit [ContentHasher] in
theorem SlotsKept.refl (db : SlotDatabase ρ) : SlotsKept db db := ⟨rfl, rfl⟩

namespace SlotDatabase

variable {recorder : SlotTransitionRecorder ρ} {db db' : SlotDatabase ρ} {slot : DecisionSlot}
  {now : Instant}

omit [ContentHasher] in
theorem requireSlot_eq_ok {slotId : String} (h : db.requireSlot slotId = .ok slot) :
    db.slots.get? slotId = some slot := by
  simp only [requireSlot, unit_bind_eq_ok, require_eq_ok] at h
  exact h.2

/-- A transition of a stored slot is a write of one row. -/
theorem transition_spec {update : SlotUpdate} {current : DecisionSlot}
    (h : transition recorder db slot update now = .ok (current, db')) :
    current.state ∈ slot.state.allowedNextStates ∧
      current.toDecisionSlotFields = slot.evolvedFields update ∧
      db'.slots = db.slots.set slot.slotId current ∧ db'.decisions = db.decisions := by
  simp only [transition, bind_eq_ok, rejectIf_eq_ok, require_eq_ok, not_not,
    DecisionSlot.evolve_eq_ok, Dict.compareAndSet_eq_some, pure_eq_ok, Prod.mk.injEq] at h
  obtain ⟨-, hallowed, current', hfields, slots, ⟨_, _, _, rfl⟩, evidence, _, rfl, rfl⟩ := h
  have hstate : current'.state = update.state := by
    rw [hfields]
    rfl
  exact ⟨hstate ▸ hallowed, hfields, rfl, rfl⟩

/-- A transition by an admitted move. -/
theorem transition_write {action : SlotAction} {current : DecisionSlot}
    (hstored : db.slots.get? slot.slotId = some slot)
    (hadmitted : action.Admitted db.decisions slot now)
    (h : transition recorder db slot (action.update slot now) now = .ok (current, db')) :
    SlotWrite now action db slot current db' := by
  obtain ⟨hallowed, hfields, hslots, hdecisions⟩ := transition_spec h
  exact ⟨hstored, ⟨hadmitted, hallowed, hfields⟩, hslots, hdecisions⟩

theorem expireLocked_write {reason : Option String} {current : DecisionSlot}
    (hstored : db.slots.get? slot.slotId = some slot)
    (hadmitted : slot.deadlineAt ≤ now ∨ completionDeadlineMissed slot now = true)
    (h : expireLocked recorder db slot now reason = .ok (current, db')) :
    SlotWrite now (.expired reason) db slot current db' := by
  have hexpired : (SlotAction.expired reason).Admitted db.decisions slot now := hadmitted
  exact transition_write hstored hexpired h

end SlotDatabase

end Writes

/-! ## Operations read backwards -/

/-- The claim result handed its slot to a worker. -/
def ClaimResult.handedOver (r : ClaimResult) : Bool :=
  match r.status with
  | .claimed | .reclaimed => true
  | _ => false

/-- An operation on one slot wrote nothing, or moved that slot once by an action of which `P`
holds. -/
def SlotOutcome [ContentHasher] {ρ : Type} (now : Instant) (slot : DecisionSlot)
    (db db' : SlotDatabase ρ) (kept : Prop) (P : SlotAction → DecisionSlot → Prop) : Prop :=
  (kept ∧ SlotsKept db db') ∨ ∃ action b, SlotWrite now action db slot b db' ∧ P action b

namespace SlotDatabase

variable [ContentHasher] {ρ : Type} {recorder : SlotTransitionRecorder ρ} {db db' : SlotDatabase ρ}
  {slot current : DecisionSlot} {now : Instant}

/-- A refresh is no handover. -/
theorem evaluateReadiness_spec {slotId : String} {watermark : Option Instant}
    (hstored : db.slots.get? slot.slotId = some slot)
    (hread : db.slots.get? slotId = some slot)
    (h : evaluateReadiness recorder slotId watermark now db = .ok (current, db')) :
    SlotOutcome now slot db db' True fun action _ => action.handsOver = false := by
  simp only [evaluateReadiness, bind_eq_ok] at h
  obtain ⟨slot', hslot', h⟩ := h
  cases hread.symm.trans (requireSlot_eq_ok hslot')
  split at h
  · cases h
    exact Or.inl ⟨trivial, SlotsKept.refl db⟩
  next hopen =>
  split at h
  · cases h
  next hunclaimed =>
  split at h
  · next hdeadline =>
      exact Or.inr ⟨_, _, expireLocked_write hstored (Or.inl hdeadline) h, rfl⟩
  split at h
  · cases h
    exact Or.inl ⟨trivial, SlotsKept.refl db⟩
  split at h
  · split at h
    · cases h
      exact Or.inl ⟨trivial, SlotsKept.refl db⟩
    · exact Or.inr ⟨.refreshed .ready none, _,
        transition_write hstored ⟨hunclaimed, Or.inl rfl⟩ h, rfl⟩
  · split at h
    · cases h
      exact Or.inl ⟨trivial, SlotsKept.refl db⟩
    · exact Or.inr ⟨.refreshed .waitingForData (some "active_basket_not_ready"), _,
        transition_write hstored ⟨hunclaimed, Or.inr rfl⟩ h, rfl⟩

/-- A claim hands the slot over exactly when its result says so. -/
theorem claimLocked_spec {owner : String} {result : ClaimResult}
    (hstored : db.slots.get? slot.slotId = some slot)
    (h : claimLocked recorder slot owner now db = .ok (result, db')) :
    SlotOutcome now slot db db' (result.handedOver = false) fun action b =>
      result.slot = b ∧ result.handedOver = action.handsOver := by
  have hexpire : ∀ {reason : Option String},
      (slot.deadlineAt ≤ now ∨ completionDeadlineMissed slot now = true) →
      (do let expired ← expireLocked recorder db slot now reason
          pure (claimed .deadlineElapsed expired)) = Except.ok (result, db') →
      SlotOutcome now slot db db' (result.handedOver = false) fun action b =>
        result.slot = b ∧ result.handedOver = action.handsOver := by
    intro reason hlate h
    simp only [bind_eq_ok, pure_eq_ok] at h
    obtain ⟨⟨b, db₁⟩, hwrite, heq⟩ := h
    cases heq
    exact Or.inr ⟨_, b, expireLocked_write hstored hlate hwrite, rfl, rfl⟩
  have hmove : ∀ {status : ClaimStatus} (action : SlotAction), action.Admitted db.decisions slot now →
      (⟨status, slot⟩ : ClaimResult).handedOver = action.handsOver →
      (do let written ← transition recorder db slot (action.update slot now) now
          pure (claimed status written)) = Except.ok (result, db') →
      SlotOutcome now slot db db' (result.handedOver = false) fun action b =>
        result.slot = b ∧ result.handedOver = action.handsOver := by
    intro status action hadmitted hhanded h
    simp only [bind_eq_ok, pure_eq_ok] at h
    obtain ⟨⟨b, db₁⟩, hwrite, heq⟩ := h
    cases heq
    exact Or.inr ⟨action, b, transition_write hstored hadmitted hwrite, rfl, hhanded⟩
  unfold claimLocked at h
  split at h
  · cases h
    exact Or.inl ⟨rfl, SlotsKept.refl db⟩
  split at h
  · next hclaimed =>
      split at h
      · next hmissed => exact hexpire (Or.inr hmissed) h
      split at h
      · cases h
        exact Or.inl ⟨rfl, SlotsKept.refl db⟩
      next hlease =>
      have hexpired : ∃ lease ∈ slot.leaseExpiresAt, lease ≤ now := by
        obtain ⟨_, _, lease, _, _, hsome⟩ := DecisionSlot.lease_of_claimed hclaimed
        refine ⟨lease, hsome, ?_⟩
        by_contra hlive
        exact hlease ⟨lease, hsome, not_le.1 hlive⟩
      split at h
      · next hcutoff => exact hexpire (Or.inl hcutoff.2) h
      split at h
      · next hlate =>
          split at h
          · next hmaterialized =>
              exact hmove .recovered ⟨hclaimed, hexpired, hmaterialized⟩ rfl h
          · exact hexpire (Or.inl hlate.2) h
      split at h
      · next hmaterialized =>
          exact hmove .recovered ⟨hclaimed, hexpired, hmaterialized.2⟩ rfl h
      · exact hmove (.handedOver owner) (Or.inr (Or.inr ⟨hclaimed, hexpired⟩)) rfl h
  split at h
  · next hdeadline => exact hexpire (Or.inl hdeadline) h
  split at h
  · cases h
    exact Or.inl ⟨rfl, SlotsKept.refl db⟩
  next hready =>
  have hclaimable : slot.state = .ready ∨ slot.state = .flattenRequired := by
    by_contra hnot
    exact hready (Or.inl hnot)
  refine hmove (.handedOver owner) ?_ rfl h
  rcases hclaimable with hstate | hstate
  · exact Or.inl hstate
  · exact Or.inr (Or.inl hstate)

omit [ContentHasher] in
theorem requireOwnedClaim_eq_ok {owner : String} :
    requireOwnedClaim slot owner = .ok () ↔ slot.HeldBy owner := by
  simp only [requireOwnedClaim, rejectIf_eq_ok, not_or, not_not, DecisionSlot.HeldBy, ne_eq]

omit [ContentHasher] in
theorem requireLiveClaim_eq_ok : requireLiveClaim slot now = .ok () ↔ slot.LeaseLive now := by
  simp [requireLiveClaim, DecisionSlot.LeaseLive]

/-- A renewal needs the worker that holds the slot. -/
theorem renewLease_spec {slotId owner : String} (hstored : db.slots.get? slot.slotId = some slot)
    (hread : db.slots.get? slotId = some slot)
    (h : renewLease recorder slotId owner now db = .ok (current, db')) :
    slot.HeldBy owner ∧
      SlotOutcome now slot db db' False fun action _ => action.handsOver = false := by
  simp only [renewLease, bind_eq_ok] at h
  obtain ⟨-, -, slot', hslot', ⟨⟩, hheld, h⟩ := h
  cases hread.symm.trans (requireSlot_eq_ok hslot')
  have howned : slot.HeldBy owner := requireOwnedClaim_eq_ok.1 hheld
  refine ⟨howned, ?_⟩
  split at h
  · next hmissed => exact Or.inr ⟨_, _, expireLocked_write hstored (Or.inr hmissed) h, rfl⟩
  · simp only [bind_eq_ok] at h
    obtain ⟨⟨⟩, hlive, h⟩ := h
    exact Or.inr ⟨.renewed owner, _,
      transition_write hstored ⟨howned, requireLiveClaim_eq_ok.1 hlive⟩ h, rfl⟩

/-- A completion needs the worker that holds the slot. -/
theorem complete_spec {slotId owner : String} (hstored : db.slots.get? slot.slotId = some slot)
    (hread : db.slots.get? slotId = some slot)
    (h : complete recorder slotId owner now db = .ok (current, db')) :
    slot.HeldBy owner ∧
      SlotOutcome now slot db db' False fun action _ => action.handsOver = false := by
  simp only [complete, bind_eq_ok] at h
  obtain ⟨-, -, slot', hslot', ⟨⟩, hheld, h⟩ := h
  cases hread.symm.trans (requireSlot_eq_ok hslot')
  have howned : slot.HeldBy owner := requireOwnedClaim_eq_ok.1 hheld
  refine ⟨howned, ?_⟩
  split at h
  · next hmissed => exact Or.inr ⟨_, _, expireLocked_write hstored (Or.inr hmissed) h, rfl⟩
  · simp only [bind_eq_ok] at h
    obtain ⟨⟨⟩, hlive, h⟩ := h
    split at h
    · split at h
      · next hdeadline =>
          exact Or.inr ⟨_, _, expireLocked_write hstored (Or.inl hdeadline) h, rfl⟩
      · cases h
    · next hmaterialized =>
        have hadmitted : (SlotAction.completed owner).Admitted db.decisions slot now :=
          ⟨howned, requireLiveClaim_eq_ok.1 hlive, by simpa using hmaterialized⟩
        exact Or.inr ⟨.completed owner, _, transition_write hstored hadmitted h, rfl⟩

theorem skip_spec {slotId reasonCode : String} (hstored : db.slots.get? slot.slotId = some slot)
    (hread : db.slots.get? slotId = some slot)
    (h : skip recorder slotId reasonCode now db = .ok (current, db')) :
    SlotOutcome now slot db db' False fun action _ => action.handsOver = false := by
  simp only [skip, bind_eq_ok, rejectIf_eq_ok, not_not] at h
  obtain ⟨-, -, slot', hslot', -, hstate, -, hmaterialized, h⟩ := h
  cases hread.symm.trans (requireSlot_eq_ok hslot')
  have hunclaimed : slot.state ≠ .claimed := by
    rcases hstate with hs | hs | hs <;> rw [hs] <;> decide
  exact Or.inr ⟨.skipped reasonCode, _,
    transition_write hstored ⟨hunclaimed, by simpa using hmaterialized⟩ h, rfl⟩

/-- A failure needs the worker that holds the slot. -/
theorem fail_spec {slotId owner reasonCode : String}
    (hstored : db.slots.get? slot.slotId = some slot) (hread : db.slots.get? slotId = some slot)
    (h : fail recorder slotId owner reasonCode now db = .ok (current, db')) :
    slot.HeldBy owner ∧
      SlotOutcome now slot db db' False fun action _ => action.handsOver = false := by
  simp only [fail, bind_eq_ok] at h
  obtain ⟨-, -, -, -, slot', hslot', ⟨⟩, hheld, h⟩ := h
  cases hread.symm.trans (requireSlot_eq_ok hslot')
  have howned : slot.HeldBy owner := requireOwnedClaim_eq_ok.1 hheld
  refine ⟨howned, ?_⟩
  have htransition : transition recorder db slot (.outcome slot .failed now reasonCode) now =
      .ok (current, db') := by
    split at h
    · simp only [bind_eq_ok] at h
      obtain ⟨-, -, h⟩ := h
      exact h
    · exact h
  exact Or.inr ⟨.failed owner reasonCode, _, transition_write hstored howned htransition, rfl⟩

end SlotDatabase

end AdaptiveTrader
