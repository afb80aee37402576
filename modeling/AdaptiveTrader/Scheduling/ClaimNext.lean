import AdaptiveTrader.Scheduling.SlotRecovery

/-!
# Whether the next claim finds every claim

`claim` decides with the guards of `claimLocked`, `claim_next` first with a selection of rows and then
with a test of the first of them. `Movable` says, from the slot and the time alone, which slots
`claim` moves (`claimMoves_iff`). `claim_next` returns nothing when no row is selected, or when the
first one is masking: a claimed forced-flat slot whose lease is live between its submission deadline
and its completion deadline (`claimNext_eq_none_iff`).

So `claim_next` is complete exactly when a masking row comes before no movable slot, and no slot that
still waits for its data is overdue while no row is selected (`claimNext_complete_iff`).
-/

set_option autoImplicit false

namespace AdaptiveTrader

open Foundation

/-- The claim changed the slot: it was claimed, reclaimed, expired or completed. -/
def ClaimStatus.moves : ClaimStatus → Bool
  | .claimed | .reclaimed | .deadlineElapsed | .materialized => true
  | _ => false

namespace DecisionSlot

/-- `claim` moves the slot: a claimed slot that missed its completion deadline or whose lease has
expired, an unclaimed one that is overdue and may expire, or one that is ready. -/
def Movable (slot : DecisionSlot) (now : Instant) : Prop :=
  if slot.state = .claimed then
    completionDeadlineMissed slot now = true ∨ ¬ ∃ lease ∈ slot.leaseExpiresAt, now < lease
  else if slot.deadlineAt ≤ now then
    (SlotUpdate.expiry slot now none).state ∈ slot.state.allowedNextStates
  else (slot.state = .ready ∨ slot.state = .flattenRequired) ∧ slot.readyAt ≤ now

instance (slot : DecisionSlot) (now : Instant) : Decidable (slot.Movable now) :=
  inferInstanceAs (Decidable (ite _ _ _))

/-- A claimed slot that `claim_next` selects and then leaves alone. -/
def Masking (slot : DecisionSlot) (now : Instant) : Prop :=
  slot.state = .claimed ∧ (∃ lease ∈ slot.leaseExpiresAt, now < lease) ∧
    completionDeadlineMissed slot now = false

/-- The slot waits for the data of its interval. -/
def Waiting (slot : DecisionSlot) : Prop := slot.state = .pending ∨ slot.state = .waitingForData

/-- A terminal slot is not movable. -/
theorem not_movable_of_terminal {slot : DecisionSlot} {now : Instant}
    (h : slot.state.terminal = true) : ¬ slot.Movable now := by
  unfold Movable
  rw [SlotState.allowedNextStates_of_terminal h]
  split
  · next hclaimed =>
      rw [hclaimed] at h
      cases h
  split
  · simp
  · rintro ⟨hready | hflatten, -⟩
    · rw [hready] at h
      cases h
    · rw [hflatten] at h
      cases h

end DecisionSlot

section ClaimNext

variable [ContentHasher] {ρ : Type}

/-- Calling `claim` on the slot moves it. -/
def ClaimMoves (recorder : SlotTransitionRecorder ρ) (db : SlotDatabase ρ) (slot : DecisionSlot)
    (owner : String) (now : Instant) : Prop :=
  ∃ result db', SlotDatabase.claim recorder slot.slotId owner now db = .ok (result, db') ∧
    result.status.moves = true

/-- `claim_next` returns nothing only when `claim` would move no slot that has become ready. -/
def ClaimNextComplete (recorder : SlotTransitionRecorder ρ) (db : SlotDatabase ρ) (owner : String)
    (now : Instant) : Prop :=
  ∀ db', SlotDatabase.claimNext recorder owner now db = .ok (none, db') →
    ∀ slot ∈ db.slots.values, slot.readyAt ≤ now → ¬ ClaimMoves recorder db slot owner now

/-- No slot is hidden from `claim_next`. -/
structure NothingHidden (db : SlotDatabase ρ) (now : Instant) : Prop where
  /-- No movable slot comes behind a masking one. -/
  behind : ∀ first, (db.eligibleSlots now).head? = some first → first.Masking now →
    ∀ slot ∈ db.slots.values, slot.readyAt ≤ now → ¬ slot.Movable now
  /-- While no row is selected, no slot that waits for its data is overdue. -/
  overdue : db.eligibleSlots now = [] → ∀ slot ∈ db.slots.values, slot.readyAt ≤ now →
    slot.Waiting → slot.deadlineAt ≤ now →
      (SlotUpdate.expiry slot now none).state ∉ slot.state.allowedNextStates

namespace SlotDatabase

variable {recorder : SlotTransitionRecorder ρ} {db : SlotDatabase ρ} {slot : DecisionSlot}
  {now : Instant} {owner : String}

theorem claim_eq (hstored : db.slots.get? slot.slotId = some slot)
    (howner : isVersionText owner = true) :
    claim recorder slot.slotId owner now db = claimLocked recorder slot owner now db := by
  simp only [claim, requireSlot, requireOwner, howner, requireSlotId_slotId slot, hstored, require,
    rejectIf, bind, Except.bind]
  rfl

omit [ContentHasher] in
/-- The expiry of a slot is a valid update. -/
theorem expiry_checks (slot : DecisionSlot) (now : Instant) :
    (SlotUpdate.expiry slot now none).checkClaim = .ok () ∧
      (SlotUpdate.expiry slot now none).checkOutcome = .ok () := by
  unfold SlotUpdate.expiry
  split
  · exact outcome_checks rfl (by decide)
  · exact outcome_checks rfl (by decide)

/-- A claim of a claimed slot moves it when it is movable. -/
theorem claimLocked_moves_of_claimed (hclaimed : slot.state = .claimed) {result : ClaimResult}
    {db' : SlotDatabase ρ} (h : claimLocked recorder slot owner now db = .ok (result, db')) :
    result.status.moves = true ↔ slot.Movable now := by
  unfold DecisionSlot.Movable
  rw [if_pos hclaimed]
  unfold claimLocked at h
  rw [if_neg (by rw [hclaimed]; decide), if_pos hclaimed] at h
  split at h
  · next hmissed =>
      simp only [bind_eq_ok, pure_eq_ok] at h
      obtain ⟨expired, -, heq⟩ := h
      cases heq
      exact ⟨fun _ => Or.inl hmissed, fun _ => rfl⟩
  next hmissed =>
  split at h
  · next hlive =>
      cases h
      constructor
      · intro hmoves
        cases hmoves
      · rintro (hmissed' | hexpired)
        · exact absurd hmissed' hmissed
        · exact absurd hlive hexpired
  next hlive =>
  have hmovable : completionDeadlineMissed slot now = true ∨
      ¬ ∃ lease ∈ slot.leaseExpiresAt, now < lease := Or.inr hlive
  -- Every other branch expires, completes or reclaims the slot.
  have hmoves : result.status.moves = true := by
    split at h
    · simp only [bind_eq_ok, pure_eq_ok] at h
      obtain ⟨expired, -, heq⟩ := h
      cases heq
      rfl
    split at h
    · split at h
      · simp only [bind_eq_ok, pure_eq_ok] at h
        obtain ⟨completed, -, heq⟩ := h
        cases heq
        rfl
      · simp only [bind_eq_ok, pure_eq_ok] at h
        obtain ⟨expired, -, heq⟩ := h
        cases heq
        rfl
    split at h
    · simp only [bind_eq_ok, pure_eq_ok] at h
      obtain ⟨completed, -, heq⟩ := h
      cases heq
      rfl
    · simp only [bind_eq_ok, pure_eq_ok] at h
      obtain ⟨reclaimed, -, heq⟩ := h
      cases heq
      rfl
  exact ⟨fun _ => hmovable, fun _ => hmoves⟩

/-- A claim that moves an unclaimed slot finds it movable. -/
theorem movable_of_claimLocked (hclaimed : slot.state ≠ .claimed) {result : ClaimResult}
    {db' : SlotDatabase ρ} (h : claimLocked recorder slot owner now db = .ok (result, db'))
    (hmoves : result.status.moves = true) : slot.Movable now := by
  unfold claimLocked at h
  split at h
  · cases h
    cases hmoves
  unfold DecisionSlot.Movable
  rw [if_neg hclaimed]
  split at h
  · next hdeadline =>
      simp only [bind_eq_ok] at h
      obtain ⟨⟨expired, db₁⟩, hexpire, -⟩ := h
      rw [if_pos hdeadline]
      obtain ⟨hallowed, hfields, -⟩ := transition_spec hexpire
      rw [hfields] at hallowed
      exact hallowed
  · next hdeadline =>
      rw [if_neg hdeadline]
      split at h
      · cases h
        cases hmoves
      · next hready =>
          rw [not_or, not_not, not_lt] at hready
          exact hready

/-- A claim of an unclaimed slot that is movable moves it. -/
theorem claimLocked_of_movable (hrecords : recorder.Records) (howner : isVersionText owner = true)
    (hstored : db.slots.get? slot.slotId = some slot) (hclaimed : slot.state ≠ .claimed)
    (hmovable : slot.Movable now) :
    ∃ result db', claimLocked recorder slot owner now db = .ok (result, db') ∧
      result.status.moves = true := by
  have hopen : ¬ slot.state.terminal = true := fun hterminal =>
    DecisionSlot.not_movable_of_terminal hterminal hmovable
  unfold DecisionSlot.Movable at hmovable
  rw [if_neg hclaimed] at hmovable
  unfold claimLocked
  rw [if_neg hopen, if_neg hclaimed]
  by_cases hdeadline : slot.deadlineAt ≤ now
  · rw [if_pos hdeadline] at hmovable ⊢
    have hchecks := expiry_checks slot now
    obtain ⟨current, db', htransition⟩ := @transition_total _ _ recorder db slot now hrecords _
      hstored hmovable hchecks.1 hchecks.2
    refine ⟨⟨.deadlineElapsed, current⟩, db', ?_, rfl⟩
    simp only [expireLocked, htransition]
    rfl
  · rw [if_neg hdeadline] at hmovable ⊢
    have hready : ¬ (¬ (slot.state = .ready ∨ slot.state = .flattenRequired) ∨
        now < slot.readyAt) := by
      rw [not_or, not_not, not_lt]
      exact hmovable
    rw [if_neg hready]
    have hallowed : SlotState.claimed ∈ slot.state.allowedNextStates := by
      rcases hmovable.1 with hstate | hstate
      · rw [hstate]
        decide
      · rw [hstate]
        decide
    have hchecks := @claim_checks now owner howner (slot.attemptCount + 1)
    obtain ⟨current, db', htransition⟩ := @transition_total _ _ recorder db slot now hrecords
      (.claim owner now (slot.attemptCount + 1)) hstored hallowed hchecks.1 hchecks.2
    refine ⟨⟨.claimed, current⟩, db', ?_, rfl⟩
    simp only [htransition]
    rfl

/-- `claim` moves exactly the movable slots. -/
theorem claimMoves_iff (hrecords : recorder.Records) (howner : isVersionText owner = true)
    (hstored : db.slots.get? slot.slotId = some slot) :
    ClaimMoves recorder db slot owner now ↔ slot.Movable now := by
  unfold ClaimMoves
  rw [claim_eq hstored howner]
  by_cases hclaimed : slot.state = .claimed
  · obtain ⟨result, db', hclaim⟩ :=
      @claimLocked_total _ _ recorder db slot now owner hrecords howner hstored hclaimed
    constructor
    · rintro ⟨result', db'', hclaim', hmoves⟩
      exact (claimLocked_moves_of_claimed hclaimed hclaim').1 hmoves
    · intro hmovable
      exact ⟨result, db', hclaim, (claimLocked_moves_of_claimed hclaimed hclaim).2 hmovable⟩
  · constructor
    · rintro ⟨result, db', hclaim, hmoves⟩
      exact movable_of_claimLocked hclaimed hclaim hmoves
    · intro hmovable
      exact claimLocked_of_movable hrecords howner hstored hclaimed hmovable

/-- `claim_next` returns nothing when no row is selected or the first one is masking. -/
theorem claimNext_eq_none_iff (howner : isVersionText owner = true) :
    (∃ db', claimNext recorder owner now db = .ok (none, db')) ↔
      db.eligibleSlots now = [] ∨
        ∃ first, (db.eligibleSlots now).head? = some first ∧ first.Masking now := by
  unfold claimNext
  simp only [requireOwner, howner, rejectIf, bind, Except.bind]
  cases hslots : db.eligibleSlots now with
  | nil => simp [pure, Except.pure]
  | cons first rest =>
      simp only [List.head?_cons, Option.some.injEq, exists_eq_left', reduceCtorEq, false_or]
      by_cases hmasking : first.state = .claimed ∧ (∃ lease ∈ first.leaseExpiresAt, now < lease) ∧
          completionDeadlineMissed first now = false
      · rw [if_pos hmasking]
        exact ⟨fun _ => hmasking, fun _ => ⟨db, rfl⟩⟩
      · rw [if_neg hmasking]
        constructor
        · -- A claim of the row is a reply.
          rintro ⟨db', h⟩
          cases hclaim : claimLocked recorder first owner now db with
          | error e =>
              rw [hclaim] at h
              cases h
          | ok result =>
              rw [hclaim] at h
              cases h
        · intro h
          exact absurd h hmasking

/-- A selected row is claimable, or claimed with an expired lease or a passed deadline. -/
theorem mem_eligibleSlots : slot ∈ db.eligibleSlots now ↔ slot ∈ db.slots.values ∧
    slot.readyAt ≤ now ∧ (slot.state = .ready ∨ slot.state = .flattenRequired ∨
      (slot.state = .claimed ∧
        ((∃ lease ∈ slot.leaseExpiresAt, lease ≤ now) ∨ slot.deadlineAt ≤ now))) := by
  unfold eligibleSlots
  rw [(sortedBy_perm _ _).mem_iff, List.mem_filter, decide_eq_true_eq]

omit [ContentHasher] in
/-- The submission deadline of a slot is no later than its completion deadline. -/
theorem deadline_le_of_missed (hmissed : completionDeadlineMissed slot now = true) :
    slot.deadlineAt ≤ now := by
  have hchecked := slot.checked
  simp only [DecisionSlotFields.check, unit_bind_eq_ok, rejectIf_eq_ok, not_not] at hchecked
  obtain ⟨-, -, -, -, -, ⟨-, -, -, hordered⟩, -⟩ := hchecked
  unfold completionDeadlineMissed at hmissed
  split at hmissed
  · have hlate := of_decide_eq_true hmissed
    exact hordered.trans hlate.le
  · exact of_decide_eq_true hmissed

/-- A movable slot that is not selected waits for its data and is overdue. -/
theorem overdue_of_not_selected (hmem : slot ∈ db.slots.values) (hready : slot.readyAt ≤ now)
    (hnone : slot ∉ db.eligibleSlots now) (hmovable : slot.Movable now) :
    slot.Waiting ∧ slot.deadlineAt ≤ now ∧
      (SlotUpdate.expiry slot now none).state ∈ slot.state.allowedNextStates := by
  have hunselected : ¬ (slot.state = .ready ∨ slot.state = .flattenRequired ∨
      (slot.state = .claimed ∧
        ((∃ lease ∈ slot.leaseExpiresAt, lease ≤ now) ∨ slot.deadlineAt ≤ now))) := fun hstate =>
    hnone (mem_eligibleSlots.2 ⟨hmem, hready, hstate⟩)
  have hopen : slot.state.terminal = false := by
    cases hterminal : slot.state.terminal with
    | false => rfl
    | true => exact absurd hmovable (DecisionSlot.not_movable_of_terminal hterminal)
  unfold DecisionSlot.Movable at hmovable
  split at hmovable
  · next hclaimed =>
      -- A claimed slot that may be moved is selected.
      exfalso
      apply hunselected
      refine Or.inr (Or.inr ⟨hclaimed, ?_⟩)
      rcases hmovable with hmissed | hexpired
      · exact Or.inr (deadline_le_of_missed hmissed)
      · obtain ⟨_, _, lease, _, _, hlease⟩ := DecisionSlot.lease_of_claimed hclaimed
        refine Or.inl ⟨lease, hlease, ?_⟩
        by_contra hlive
        exact hexpired ⟨lease, hlease, not_le.1 hlive⟩
  next hclaimed =>
  split at hmovable
  · next hdeadline =>
      refine ⟨?_, hdeadline, hmovable⟩
      unfold DecisionSlot.Waiting
      cases hstate : slot.state with
      | pending => exact Or.inl rfl
      | waitingForData => exact Or.inr rfl
      | ready => exact absurd (Or.inl hstate) hunselected
      | flattenRequired => exact absurd (Or.inr (Or.inl hstate)) hunselected
      | claimed => exact absurd hstate hclaimed
      | completed => simp [hstate, SlotState.terminal] at hopen
      | skipped => simp [hstate, SlotState.terminal] at hopen
      | expired => simp [hstate, SlotState.terminal] at hopen
      | failed => simp [hstate, SlotState.terminal] at hopen
  · rcases hmovable.1 with hstate | hstate
    · exact absurd (Or.inl hstate) hunselected
    · exact absurd (Or.inr (Or.inl hstate)) hunselected

end SlotDatabase

/-- `claim_next` is complete exactly when no slot is hidden from it. -/
theorem claimNext_complete_iff {recorder : SlotTransitionRecorder ρ} (hrecords : recorder.Records)
    {db : SlotDatabase ρ} (hkeyed : Keyed db.slots) {owner : String}
    (howner : isVersionText owner = true) (now : Instant) :
    ClaimNextComplete recorder db owner now ↔ NothingHidden db now := by
  have hstored : ∀ slot ∈ db.slots.values, db.slots.get? slot.slotId = some slot := by
    intro slot hslot
    obtain ⟨k, hk⟩ := Dict.mem_values_iff.1 hslot
    rw [hkeyed k slot hk]
    exact hk
  have hmoves : ∀ slot ∈ db.slots.values,
      (ClaimMoves recorder db slot owner now ↔ slot.Movable now) := fun slot hslot =>
    SlotDatabase.claimMoves_iff hrecords howner (hstored slot hslot)
  constructor
  · intro hcomplete
    have hnothing : (db.eligibleSlots now = [] ∨
        ∃ first, (db.eligibleSlots now).head? = some first ∧ first.Masking now) →
        ∀ slot ∈ db.slots.values, slot.readyAt ≤ now → ¬ slot.Movable now := by
      intro hblocked slot hslot hready hmovable
      have hnone : ∃ db', SlotDatabase.claimNext recorder owner now db = .ok (none, db') :=
        (SlotDatabase.claimNext_eq_none_iff howner).2 hblocked
      obtain ⟨db', hnone⟩ := hnone
      exact hcomplete db' hnone slot hslot hready ((hmoves slot hslot).2 hmovable)
    refine ⟨fun first hfirst hmasking => hnothing (Or.inr ⟨first, hfirst, hmasking⟩), ?_⟩
    intro hempty slot hslot hready hwaiting hdeadline hallowed
    apply hnothing (Or.inl hempty) slot hslot hready
    have hclaimed : slot.state ≠ .claimed := by
      rcases hwaiting with hstate | hstate
      · rw [hstate]
        decide
      · rw [hstate]
        decide
    unfold DecisionSlot.Movable
    rw [if_neg hclaimed, if_pos hdeadline]
    exact hallowed
  · intro hhidden db' hnone slot hslot hready hclaim
    have hmovable := (hmoves slot hslot).1 hclaim
    rcases (SlotDatabase.claimNext_eq_none_iff howner).1 ⟨db', hnone⟩ with
      hempty | ⟨first, hfirst, hmasking⟩
    · have hunselected : slot ∉ db.eligibleSlots now := by
        rw [hempty]
        exact List.not_mem_nil
      obtain ⟨hwaiting, hdeadline, hallowed⟩ :=
        SlotDatabase.overdue_of_not_selected hslot hready hunselected hmovable
      exact hhidden.overdue hempty slot hslot hready hwaiting hdeadline hallowed
    · exact hhidden.behind first hfirst hmasking slot hslot hready hmovable

end ClaimNext

/-! ## Two forced-flat slots of one session -/

section Sample

local instance claimNextHasher : ContentHasher := polynomialHasher

/-- The forced-flat slot of an experiment, on a clock without time zone. -/
def sampleFlatSlot (experimentId : String) (update : SlotUpdate) : DecisionSlotFields where
  experimentId := experimentId
  experimentVersion := 1
  experimentHash := "0000000000000000000000000000000000000000000000000000000000000000"
  signalProviderId := "provider"
  signalProviderVersion := "v1"
  sessionDate := sampleDate
  sourceIntervalStart := sampleInstant sampleDate (15, 42)
  sourceIntervalEnd := sampleInstant sampleDate (15, 43)
  decisionType := .forcedFlat
  readyAt := sampleInstant sampleDate (15, 43)
  deadlineAt := sampleInstant sampleDate (15, 44)
  requiredCompletionAt := sampleInstant sampleDate (15, 45)
  toSlotUpdate := update
  version := 1

/-- Ten seconds after the submission deadline. -/
def sampleAfterDeadline : Instant := sampleInstant sampleDate (15, 44) + seconds 10

/-- A worker holds the slot of one experiment. -/
def sampleHeldSlot : DecisionSlot :=
  ⟨sampleFlatSlot "momentum" (.claim "worker-1" (sampleInstant sampleDate (15, 44) - seconds 10) 1),
    by decide +kernel⟩

/-- The slot of another experiment was never claimed. -/
def sampleOpenSlot : DecisionSlot :=
  ⟨sampleFlatSlot "reversion" { state := .flattenRequired, attemptCount := 0, reasonCode := none },
    by decide +kernel⟩

/-- The given slots, without decisions. -/
def sampleSlots (slots : List DecisionSlot) : SlotDatabase (List (SlotState × Instant)) :=
  ⟨Dict.ofValues DecisionSlot.slotId slots, ⟨[], [], []⟩, []⟩

theorem sampleSlots_keyed (slots : List DecisionSlot) : Keyed (sampleSlots slots).slots := by
  intro k slot hslot
  exact (Dict.mem_of_get?_ofValues hslot).2

/-- The held slot comes first and the open one is stored as well; alone it is the only slot. -/
theorem sampleSlots_values :
    ((sampleSlots [sampleHeldSlot, sampleOpenSlot]).eligibleSlots sampleAfterDeadline).head? =
        some sampleHeldSlot ∧
      sampleOpenSlot ∈ (sampleSlots [sampleHeldSlot, sampleOpenSlot]).slots.values ∧
      (sampleSlots [sampleHeldSlot]).slots.values = [sampleHeldSlot] ∧
      (sampleSlots [sampleHeldSlot]).eligibleSlots sampleAfterDeadline ≠ [] := by
  decide +kernel

theorem sampleHeldSlot_masking : sampleHeldSlot.Masking sampleAfterDeadline :=
  ⟨rfl, ⟨_, rfl, by decide⟩, by decide⟩

/-- The held slot hides the open one, which `claim` would fail for its passed deadline. -/
theorem held_slot_hides_overdue :
    Keyed (sampleSlots [sampleHeldSlot, sampleOpenSlot]).slots ∧
      ¬ ClaimNextComplete loggingRecorder (sampleSlots [sampleHeldSlot, sampleOpenSlot]) "worker-2"
        sampleAfterDeadline := by
  refine ⟨sampleSlots_keyed _, ?_⟩
  intro hcomplete
  have howner : isVersionText "worker-2" = true := by decide
  obtain ⟨heligible, hmem, -, -⟩ := sampleSlots_values
  have hreturns : ∃ db', SlotDatabase.claimNext loggingRecorder "worker-2" sampleAfterDeadline
      (sampleSlots [sampleHeldSlot, sampleOpenSlot]) = .ok (none, db') :=
    (SlotDatabase.claimNext_eq_none_iff howner).2
      (Or.inr ⟨sampleHeldSlot, heligible, sampleHeldSlot_masking⟩)
  obtain ⟨db', hnone⟩ := hreturns
  obtain ⟨k, hk⟩ := Dict.mem_values_iff.1 hmem
  have hstored := hk
  rw [← sampleSlots_keyed _ k sampleOpenSlot hk] at hstored
  have hmovable : sampleOpenSlot.Movable sampleAfterDeadline := by decide
  have hclaim := (SlotDatabase.claimMoves_iff loggingRecorder_records howner hstored).2 hmovable
  exact hcomplete db' hnone sampleOpenSlot hmem (by decide) hclaim

/-- A held slot alone hides nothing. -/
theorem held_slot_alone_complete :
    ClaimNextComplete loggingRecorder (sampleSlots [sampleHeldSlot]) "worker-2"
      sampleAfterDeadline := by
  refine (claimNext_complete_iff loggingRecorder_records (sampleSlots_keyed _) (by decide) _).2
    ⟨fun _ _ _ slot hslot _ => ?_, fun hempty => ?_⟩
  · rw [sampleSlots_values.2.2.1, List.mem_singleton] at hslot
    rw [hslot]
    decide
  · exact absurd hempty sampleSlots_values.2.2.2

end Sample

end AdaptiveTrader
