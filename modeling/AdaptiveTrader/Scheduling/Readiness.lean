import AdaptiveTrader.Scheduling.SlotRecovery

/-!
# Sequences of readiness evaluations

An evaluation of an open slot picks its target state from the clock and from the watermark of the
basket; a separate table says which transitions exist. The two agree except in one case: a slot that
is READY inside its window while the watermark is no longer reached. The evaluation then asks for the
transition from READY to WAITING_FOR_DATA, which the table prohibits.

`evaluateReadiness_of_refused` and `evaluateReadiness_of_accepted` say what one evaluation does.
`readiness_evaluations_iff` says which sequences of evaluations return a slot at every call: those
that do not withdraw the readiness of the slot (`Withdraws`), a condition on the slot before the
sequence, the watermarks and the instants.
-/

set_option autoImplicit false

namespace AdaptiveTrader

open Foundation

/-! ## Evaluations -/

/-- The basket watermark and the instant of one evaluation. -/
structure Evaluation where
  activeBasketWatermark : Option Instant
  now : Instant

namespace Evaluation

/-- From the readiness of the slot to its deadline. -/
def InWindow (e : Evaluation) (slot : DecisionSlot) : Prop :=
  slot.readyAt ≤ e.now ∧ e.now < slot.deadlineAt

/-- The basket is contiguous up to the end of the source interval. -/
def Reached (e : Evaluation) (slot : DecisionSlot) : Prop :=
  ∃ watermark ∈ e.activeBasketWatermark, slot.sourceIntervalEnd ≤ watermark

instance (e : Evaluation) (slot : DecisionSlot) : Decidable (e.Reached slot) :=
  inferInstanceAs (Decidable (∃ _ ∈ e.activeBasketWatermark, _))

/-- The evaluation asks a READY slot to wait for data. -/
def Refused (e : Evaluation) (slot : DecisionSlot) : Prop :=
  slot.decisionType = .strategy ∧ slot.state = .ready ∧ e.InWindow slot ∧ ¬ e.Reached slot

/-- The state in which an accepted evaluation leaves the slot. -/
def nextState (e : Evaluation) (slot : DecisionSlot) : SlotState :=
  if slot.decisionType = .forcedFlat ∨ slot.state.terminal = true then slot.state
  else if slot.deadlineAt ≤ e.now then .expired
  else if e.now < slot.readyAt then slot.state
  else if e.Reached slot then .ready
  else .waitingForData

end Evaluation

/-- An evaluation of the sequence withdraws the readiness of the slot: the slot is READY before it,
from the start or by an evaluation that reached its watermark, and no evaluation has expired it. -/
def Withdraws (slot : DecisionSlot) (evaluations : List Evaluation) : Prop :=
  slot.decisionType = .strategy ∧ slot.state.terminal = false ∧
    ∃ before e after, evaluations = before ++ e :: after ∧
      (∀ f ∈ before, f.now < slot.deadlineAt) ∧ e.InWindow slot ∧ ¬ e.Reached slot ∧
      (slot.state = .ready ∨ ∃ f ∈ before, f.InWindow slot ∧ f.Reached slot)

/-- A call returned a slot in a state other than CLAIMED. -/
def ReturnsOpen (reply : Except PlatformError DecisionSlot) : Prop :=
  ∃ current, reply = .ok current ∧
    (current.state = .pending ∨ current.state = .waitingForData ∨ current.state = .ready ∨
      current.state = .flattenRequired ∨ current.state.terminal = true)

theorem open_of_ne_claimed {state : SlotState} (h : state ≠ .claimed) :
    state = .pending ∨ state = .waitingForData ∨ state = .ready ∨ state = .flattenRequired ∨
      state.terminal = true := by
  cases state <;> simp_all [SlotState.terminal]

/-- The schedule was built from the timetable of a session. -/
def SessionSlotSchedule.Built (schedule : SessionSlotSchedule) : Prop :=
  ∃ marketInstant plan sessionDate session,
    buildSessionSchedule marketInstant plan sessionDate session = .ok schedule

/-- Only built schedules are stored. -/
def SchedulesBuilt {ρ : Type} (_ : SlotDatabase ρ) (event : SlotEvent) : Prop :=
  ∀ schedule recordedAt reply, event = .called (.createSchedule schedule recordedAt) reply →
    schedule.Built

/-- A strategy slot is never to be flattened. -/
def DecisionSlot.Proper (slot : DecisionSlot) : Prop :=
  slot.decisionType = .strategy → slot.state ≠ .flattenRequired

section Readiness

variable [ContentHasher] {ρ : Type}

/-- Evaluate one slot repeatedly; the replies in order. -/
def SlotDatabase.evaluateEach (recorder : SlotTransitionRecorder ρ) (slotId : String) :
    List Evaluation → SlotDatabase ρ →
      List (Except PlatformError DecisionSlot) × SlotDatabase ρ
  | [], db => ([], db)
  | e :: rest, db =>
      let evaluated := Exec.transaction
        (evaluateReadiness recorder slotId e.activeBasketWatermark e.now) db
      let later := evaluateEach recorder slotId rest evaluated.2
      (evaluated.1 :: later.1, later.2)

/-! ## The states of a strategy slot -/

omit [ContentHasher] in
theorem SessionSlotSchedule.Built.proper {schedule : SessionSlotSchedule} (h : schedule.Built)
    {slot : DecisionSlot} (hslot : slot ∈ schedule.slots) : slot.Proper := by
  obtain ⟨marketInstant, plan, sessionDate, session, hbuild⟩ := h
  unfold buildSessionSchedule at hbuild
  split at hbuild
  · rw [slots_of_create hbuild] at hslot
    simp at hslot
  split at hbuild
  · rw [slots_of_create hbuild] at hslot
    simp at hslot
  · simp only [bind_eq_ok] at hbuild
    obtain ⟨-, -, strategySlots, hstrategy, forcedFlat, hforced, hcreate⟩ := hbuild
    rw [slots_of_create hcreate] at hslot
    rcases List.mem_append.1 hslot with hmem | hmem
    · obtain ⟨closeTime, -, hcreated⟩ := mem_of_collect hstrategy hmem
      intro _
      rw [(DecisionSlot.create_fields hcreated).2.1]
      simp
    · cases List.mem_singleton.1 hmem
      intro htype
      rw [(DecisionSlot.create_fields hforced).1] at htype
      cases htype

/-- No move leads to FLATTEN_REQUIRED. -/
theorem SlotMove.proper {decisions : DecisionTables} {now : Instant} {action : SlotAction}
    {a b : DecisionSlot} (h : SlotMove decisions now action a b) : b.Proper := by
  intro _ hflatten
  have hstate : (action.update a now).state = .flattenRequired :=
    (congrArg SlotUpdate.state h.update_eq).symm.trans hflatten
  cases action with
  | refreshed state reason =>
      have hrefreshed : state = .flattenRequired := hstate
      rcases h.admitted.2 with hready | hwaiting
      · cases hready.symm.trans hrefreshed
      · cases hwaiting.symm.trans hrefreshed
  | expired reason =>
      rcases (SlotMove.expiry_fields a now reason).2 with hfailed | hexpired
      · cases hfailed.symm.trans hstate
      · cases hexpired.symm.trans hstate
  | handedOver worker => cases hstate
  | recovered => cases hstate
  | renewed worker => cases hstate
  | completed worker => cases hstate
  | skipped reason => cases hstate
  | failed worker reason => cases hstate

/-- What every reachable slot table satisfies. -/
structure SlotTable (slots : Dict String DecisionSlot) : Prop where
  keyed : Keyed slots
  proper : slots.AllRows fun _ slot => slot.Proper

theorem SlotTable.of_effect {now : Instant} {created : List DecisionSlot}
    {results : List ClaimResult} {db db' : SlotDatabase ρ} (htable : SlotTable db.slots)
    (h : SlotEffect now created results db db') (hcreated : ∀ slot ∈ created, slot.Proper) :
    SlotTable db'.slots where
  keyed := htable.keyed.of_effect h
  proper := by
    apply h.rows.allRows _ _ htable.proper
    · intro k b hb
      exact hcreated b hb.1
    · intro k a b _ hmove
      obtain ⟨action, hmove, -⟩ := hmove
      exact hmove.proper

variable {recorder : SlotTransitionRecorder ρ}

theorem SlotTable.of_reachable {db : SlotDatabase ρ}
    (h : ((slotRuns recorder).restrict SchedulesBuilt).Reachable db) : SlotTable db.slots := by
  apply h.invariant (P := fun db => SlotTable db.slots)
  · intro db hinit
    have hempty : db.slots = Dict.empty := hinit
    rw [hempty]
    exact ⟨Dict.allRows_empty _, Dict.allRows_empty _⟩
  · rintro db event db' htable ⟨hbuilt, hstep⟩
    cases event with
    | decided decisions =>
        have heq : db' = { db with decisions } := hstep
        subst heq
        exact htable
    | called call reply =>
        have hcall : Exec.transaction (SlotDatabase.perform recorder call) db = (reply, db') :=
          hstep
        cases reply with
        | error e =>
            have hsame : db' = db := Exec.transaction_error hcall
            subst hsame
            exact htable
        | ok r =>
            have heffect :=
              SlotDatabase.perform_effect htable.keyed (Exec.transaction_eq_ok_iff.1 hcall)
            apply htable.of_effect heffect
            intro slot hslot
            cases call with
            | createSchedule schedule recordedAt =>
                exact (hbuilt schedule recordedAt _ rfl).proper hslot
            | _ => cases hslot

/-! ## One evaluation -/

/-- What an accepted evaluation leaves behind. -/
structure Evaluated (e : Evaluation) (slotId : String) (slot current : DecisionSlot)
    (db' : SlotDatabase ρ) : Prop where
  table : SlotTable db'.slots
  stored : db'.slots.get? slotId = some current
  contract : current.toSlotContract = slot.toSlotContract
  state : current.state = e.nextState slot

variable {db db' : SlotDatabase ρ} {slotId : String} {slot : DecisionSlot} {e : Evaluation}

theorem requireSlot_of_stored (htable : SlotTable db.slots)
    (hslot : db.slots.get? slotId = some slot) : db.requireSlot slotId = .ok slot := by
  have hid : slot.slotId = slotId := htable.keyed slotId slot hslot
  simp only [SlotDatabase.requireSlot, unit_bind_eq_ok, require_eq_ok]
  exact ⟨hid ▸ SlotDatabase.requireSlotId_slotId slot, hslot⟩

omit [ContentHasher] in
theorem nextState_ne_claimed (hopen : slot.state ≠ .claimed) : e.nextState slot ≠ .claimed := by
  unfold Evaluation.nextState
  split
  · exact hopen
  split
  · simp
  split
  · exact hopen
  split <;> simp

/-- A permitted transition of a stored slot writes the row of its update. -/
theorem transition_writes (hrecords : recorder.Records) {update : SlotUpdate} {now : Instant}
    (hstored : db.slots.get? slot.slotId = some slot)
    (hallowed : update.state ∈ slot.state.allowedNextStates)
    (hclaim : update.checkClaim = .ok ()) (houtcome : update.checkOutcome = .ok ()) :
    ∃ current db', SlotDatabase.transition recorder db slot update now = .ok (current, db') ∧
      db'.slots.get? slot.slotId = some current ∧
      current.toSlotContract = slot.toSlotContract ∧ current.state = update.state := by
  obtain ⟨current, db', h⟩ := @SlotDatabase.transition_total _ _ _ _ _ now hrecords _ hstored
    hallowed hclaim houtcome
  obtain ⟨-, hfields, hslots, -⟩ := SlotDatabase.transition_spec h
  refine ⟨current, db', h, ?_, ?_, ?_⟩
  · rw [hslots, Dict.get?_set_self]
  · rw [hfields]
    rfl
  · rw [hfields]
    rfl

/-- Past the guards, an evaluation reads the clock and the watermark. -/
theorem evaluateReadiness_open (htable : SlotTable db.slots)
    (hslot : db.slots.get? slotId = some slot) (hopen : slot.state ≠ .claimed)
    (hstrategy : slot.decisionType = .strategy) (hterminal : slot.state.terminal = false) :
    SlotDatabase.evaluateReadiness recorder slotId e.activeBasketWatermark e.now db =
      if slot.deadlineAt ≤ e.now then SlotDatabase.expireLocked recorder db slot e.now
      else if e.now < slot.readyAt then .ok (slot, db)
      else if e.Reached slot then
        if slot.state = .ready then .ok (slot, db)
        else SlotDatabase.transition recorder db slot
          { state := .ready, attemptCount := slot.attemptCount, reasonCode := none } e.now
      else if slot.state = .waitingForData then .ok (slot, db)
      else SlotDatabase.transition recorder db slot
        { state := .waitingForData, attemptCount := slot.attemptCount,
          reasonCode := some "active_basket_not_ready" } e.now := by
  have hunforced : ¬ (slot.decisionType = .forcedFlat ∨ slot.state.terminal = true) := by
    simp [hstrategy, hterminal]
  simp only [SlotDatabase.evaluateReadiness, requireSlot_of_stored htable hslot]
  show (if slot.decisionType = .forcedFlat ∨ slot.state.terminal = true then _ else _) = _
  rw [if_neg hunforced, if_neg hopen]
  rfl

/-- The prohibited transition: the call fails and changes nothing. -/
theorem evaluateReadiness_of_refused (htable : SlotTable db.slots)
    (hslot : db.slots.get? slotId = some slot) (hrefused : e.Refused slot) :
    Exec.transaction
        (SlotDatabase.evaluateReadiness recorder slotId e.activeBasketWatermark e.now) db =
      (.error (.slotTransition "slot state transition is prohibited"), db) := by
  obtain ⟨hstrategy, hready, ⟨hopened, hbefore⟩, hreached⟩ := hrefused
  have hopen : slot.state ≠ .claimed := by simp [hready]
  have hterminal : slot.state.terminal = false := by simp [hready, SlotState.terminal]
  have hwaiting : slot.state ≠ .waitingForData := by simp [hready]
  have hprohibited : SlotState.waitingForData ∉ slot.state.allowedNextStates := by
    simp [hready, SlotState.allowedNextStates]
  unfold Exec.transaction
  rw [evaluateReadiness_open htable hslot hopen hstrategy hterminal, if_neg (not_le.2 hbefore),
    if_neg (not_lt.2 hopened), if_neg hreached, if_neg hwaiting]
  simp only [SlotDatabase.transition, rejectIf, if_pos hprohibited]
  rfl

/-- Every other evaluation of a slot that is not claimed returns the slot of its next state. -/
theorem evaluateReadiness_of_accepted (hrecords : recorder.Records)
    (htable : SlotTable db.slots) (hslot : db.slots.get? slotId = some slot)
    (hopen : slot.state ≠ .claimed) (haccepted : ¬ e.Refused slot) :
    ∃ current db', SlotDatabase.evaluateReadiness recorder slotId e.activeBasketWatermark e.now db =
        .ok (current, db') ∧ Evaluated e slotId slot current db' := by
  have hstored := SlotDatabase.stored_of_keyed htable.keyed hslot
  have hid : slot.slotId = slotId := htable.keyed slotId slot hslot
  -- The table of the outcome follows from the effect of the operation; the rest is the row.
  suffices h : ∃ current db',
      SlotDatabase.evaluateReadiness recorder slotId e.activeBasketWatermark e.now db =
        .ok (current, db') ∧ db'.slots.get? slotId = some current ∧
      current.toSlotContract = slot.toSlotContract ∧ current.state = e.nextState slot by
    obtain ⟨current, db', hevaluate, hrow, hcontract, hstate⟩ := h
    have heffect : SlotEffect e.now [] [] db db' :=
      SlotEffect.of_outcome (SlotDatabase.evaluateReadiness_spec hstored hslot hevaluate)
    exact ⟨current, db', hevaluate, htable.of_effect heffect (by simp), hrow, hcontract, hstate⟩
  by_cases hkept : slot.decisionType = .forcedFlat ∨ slot.state.terminal = true
  · refine ⟨slot, db, ?_, hslot, rfl, ?_⟩
    · simp only [SlotDatabase.evaluateReadiness, requireSlot_of_stored htable hslot]
      show (if slot.decisionType = .forcedFlat ∨ slot.state.terminal = true then _ else _) = _
      rw [if_pos hkept]
      rfl
    · rw [Evaluation.nextState, if_pos hkept]
  have hstrategy : slot.decisionType = .strategy := by
    cases htype : slot.decisionType with
    | strategy => rfl
    | forcedFlat => exact absurd (Or.inl htype) hkept
  have hterminal : slot.state.terminal = false := by
    cases h : slot.state.terminal with
    | false => rfl
    | true => exact absurd (Or.inr h) hkept
  have hflatten : slot.state ≠ .flattenRequired := htable.proper slotId slot hslot hstrategy
  rw [evaluateReadiness_open htable hslot hopen hstrategy hterminal, Evaluation.nextState,
    if_neg hkept]
  by_cases hdeadline : slot.deadlineAt ≤ e.now
  · rw [if_pos hdeadline, if_pos hdeadline]
    have hexpires : SlotUpdate.expiry slot e.now none =
        .outcome slot .expired e.now "decision_deadline_elapsed" := by
      simp [SlotUpdate.expiry, hstrategy]
    have hallowed : SlotState.expired ∈ slot.state.allowedNextStates := by
      cases hstate : slot.state <;> simp_all [SlotState.allowedNextStates, SlotState.terminal]
    obtain ⟨hclaim, houtcome⟩ := @SlotDatabase.outcome_checks slot e.now .expired
      "decision_deadline_elapsed" rfl (by decide)
    simp only [SlotDatabase.expireLocked, hexpires]
    exact hid ▸ transition_writes hrecords hstored hallowed hclaim houtcome
  rw [if_neg hdeadline, if_neg hdeadline]
  by_cases hearly : e.now < slot.readyAt
  · rw [if_pos hearly, if_pos hearly]
    exact ⟨slot, db, rfl, hslot, rfl, rfl⟩
  rw [if_neg hearly, if_neg hearly]
  have hchoice : slot.state = .pending ∨ slot.state = .waitingForData ∨ slot.state = .ready := by
    cases hstate : slot.state <;> simp_all [SlotState.terminal]
  by_cases hreached : e.Reached slot
  · rw [if_pos hreached, if_pos hreached]
    by_cases hready : slot.state = .ready
    · rw [if_pos hready]
      exact ⟨slot, db, rfl, hslot, rfl, hready⟩
    · rw [if_neg hready]
      have hallowed : SlotState.ready ∈ slot.state.allowedNextStates := by
        rcases hchoice with h | h | h <;> simp_all [SlotState.allowedNextStates]
      exact hid ▸ transition_writes hrecords hstored hallowed rfl rfl
  · rw [if_neg hreached, if_neg hreached]
    by_cases hwaiting : slot.state = .waitingForData
    · rw [if_pos hwaiting]
      exact ⟨slot, db, rfl, hslot, rfl, hwaiting⟩
    · rw [if_neg hwaiting]
      have hready : slot.state ≠ .ready := fun hready =>
        haccepted ⟨hstrategy, hready, ⟨not_lt.1 hearly, not_le.1 hdeadline⟩, hreached⟩
      have hallowed : SlotState.waitingForData ∈ slot.state.allowedNextStates := by
        rcases hchoice with h | h | h <;> simp_all [SlotState.allowedNextStates]
      have hsafe : isSafeCode "active_basket_not_ready" = true := by decide
      exact hid ▸ transition_writes hrecords hstored hallowed rfl (by
        simp [SlotUpdate.checkOutcome, SlotState.terminal, SlotState.reasonRequired, hsafe])

/-! ## Sequences of evaluations -/

omit [ContentHasher] in
theorem nextState_ready_iff (hstrategy : slot.decisionType = .strategy)
    (hterminal : slot.state.terminal = false) (hnow : e.now < slot.deadlineAt)
    (haccepted : ¬ e.Refused slot) :
    e.nextState slot = .ready ↔ slot.state = .ready ∨ (e.InWindow slot ∧ e.Reached slot) := by
  have hunforced : ¬ (slot.decisionType = .forcedFlat ∨ slot.state.terminal = true) := by
    simp [hstrategy, hterminal]
  rw [Evaluation.nextState, if_neg hunforced, if_neg (not_le.2 hnow)]
  by_cases hearly : e.now < slot.readyAt
  · simp [hearly, Evaluation.InWindow, not_le.2 hearly]
  · by_cases hreached : e.Reached slot
    · simp [hearly, hreached, Evaluation.InWindow, hnow, not_lt.1 hearly]
    · have hready : slot.state ≠ .ready := fun hready =>
        haccepted ⟨hstrategy, hready, ⟨not_lt.1 hearly, hnow⟩, hreached⟩
      simp [hearly, hreached, hready]

omit [ContentHasher] in
/-- What an evaluation withdraws from is the slot itself or the slot it leaves behind. -/
theorem withdraws_cons {current : DecisionSlot} {rest : List Evaluation}
    (hcontract : current.toSlotContract = slot.toSlotContract)
    (hstate : current.state = e.nextState slot) (haccepted : ¬ e.Refused slot) :
    Withdraws slot (e :: rest) ↔ Withdraws current rest := by
  have htype : current.decisionType = slot.decisionType := by rw [hcontract]
  have hreadyAt : current.readyAt = slot.readyAt := by rw [hcontract]
  have hdeadlineAt : current.deadlineAt = slot.deadlineAt := by rw [hcontract]
  have hend : current.sourceIntervalEnd = slot.sourceIntervalEnd := by rw [hcontract]
  have hwindow : ∀ f : Evaluation, f.InWindow current ↔ f.InWindow slot := by
    intro f
    simp [Evaluation.InWindow, hreadyAt, hdeadlineAt]
  have hreached : ∀ f : Evaluation, f.Reached current ↔ f.Reached slot := by
    intro f
    simp [Evaluation.Reached, hend]
  simp only [Withdraws, htype, hdeadlineAt, hwindow, hreached]
  constructor
  · rintro ⟨hstrategy, hterminal, before, f, after, heq, hbefore, hopen, hmissing, hready⟩
    cases before with
    | nil =>
        cases heq
        rcases hready with hready | ⟨g, hg, -⟩
        · exact absurd ⟨hstrategy, hready, hopen, hmissing⟩ haccepted
        · cases hg
    | cons g before =>
        cases heq
        have hnow := hbefore e List.mem_cons_self
        have hiff := nextState_ready_iff hstrategy hterminal hnow haccepted
        refine ⟨hstrategy, ?_, before, f, after, rfl,
          fun g hg => hbefore g (List.mem_cons_of_mem _ hg), hopen, hmissing, ?_⟩
        · rw [hstate, Evaluation.nextState, if_neg (by simp [hstrategy, hterminal]),
            if_neg (not_le.2 hnow)]
          split
          · exact hterminal
          split <;> rfl
        · rw [hstate, hiff]
          rcases hready with hready | ⟨g, hg, hdone⟩
          · exact Or.inl (Or.inl hready)
          · rcases List.mem_cons.1 hg with rfl | hg
            · exact Or.inl (Or.inr hdone)
            · exact Or.inr ⟨g, hg, hdone⟩
  · rintro ⟨hstrategy, hterminal, before, f, after, rfl, hbefore, hopen, hmissing, hready⟩
    -- A slot left open was open, and the evaluation came before its deadline.
    have hslot : slot.state.terminal = false := by
      cases h : slot.state.terminal with
      | false => rfl
      | true =>
          rw [hstate, Evaluation.nextState, if_pos (Or.inr h), h] at hterminal
          cases hterminal
    have hnow : e.now < slot.deadlineAt := by
      by_contra hlate
      rw [hstate, Evaluation.nextState, if_neg (by simp [hstrategy, hslot]),
        if_pos (not_lt.1 hlate)] at hterminal
      cases hterminal
    refine ⟨hstrategy, hslot, e :: before, f, after, rfl, ?_, hopen, hmissing, ?_⟩
    · intro g hg
      rcases List.mem_cons.1 hg with rfl | hg
      · exact hnow
      · exact hbefore g hg
    · rw [hstate, nextState_ready_iff hstrategy hslot hnow haccepted] at hready
      rcases hready with (hready | hdone) | ⟨g, hg, hdone⟩
      · exact Or.inl hready
      · exact Or.inr ⟨e, List.mem_cons_self, hdone⟩
      · exact Or.inr ⟨g, List.mem_cons_of_mem _ hg, hdone⟩

omit [ContentHasher] in
theorem withdraws_of_refused {rest : List Evaluation} (h : e.Refused slot) :
    Withdraws slot (e :: rest) := by
  obtain ⟨hstrategy, hready, hopen, hmissing⟩ := h
  refine ⟨hstrategy, ?_, [], e, rest, rfl, by simp, hopen, hmissing, Or.inl hready⟩
  rw [hready]
  rfl

theorem evaluateEach_iff (hrecords : recorder.Records) (evaluations : List Evaluation) :
    ∀ {db : SlotDatabase ρ} {slot : DecisionSlot}, SlotTable db.slots →
      db.slots.get? slotId = some slot → slot.state ≠ .claimed →
      ((∀ reply ∈ (SlotDatabase.evaluateEach recorder slotId evaluations db).1,
        ReturnsOpen reply) ↔ ¬ Withdraws slot evaluations) := by
  induction evaluations with
  | nil =>
      intro db slot _ _ _
      simp [SlotDatabase.evaluateEach, Withdraws]
  | cons e rest ih =>
      intro db slot htable hslot hopen
      by_cases hrefused : e.Refused slot
      · have hfailed := @evaluateReadiness_of_refused _ _ recorder _ _ _ e htable hslot hrefused
        simp only [SlotDatabase.evaluateEach, hfailed, List.forall_mem_cons]
        constructor
        · rintro ⟨⟨current, hreply, -⟩, -⟩
          cases hreply
        · intro hnot
          exact absurd (withdraws_of_refused hrefused) hnot
      · obtain ⟨current, db', hevaluate, hnext⟩ :=
          evaluateReadiness_of_accepted hrecords htable hslot hopen hrefused
        have hcurrent : current.state ≠ .claimed := by
          rw [hnext.state]
          exact nextState_ne_claimed hopen
        have hreply : ReturnsOpen (.ok current) := ⟨current, rfl, open_of_ne_claimed hcurrent⟩
        have hcommitted := Exec.transaction_eq_ok_iff.2 hevaluate
        simp only [SlotDatabase.evaluateEach, hcommitted, List.forall_mem_cons]
        rw [ih hnext.table hnext.stored hcurrent,
          withdraws_cons hnext.contract hnext.state hrefused]
        exact ⟨And.right, And.intro hreply⟩

/-- A sequence of evaluations of a slot that is not claimed returns an open or terminal slot at
every call exactly when it does not withdraw the readiness of the slot. -/
theorem readiness_evaluations_iff (hrecords : recorder.Records)
    (hdb : ((slotRuns recorder).restrict SchedulesBuilt).Reachable db)
    (hslot : db.slots.get? slotId = some slot) (hopen : slot.state ≠ .claimed)
    (evaluations : List Evaluation) :
    (∀ reply ∈ (SlotDatabase.evaluateEach recorder slotId evaluations db).1, ReturnsOpen reply) ↔
      ¬ Withdraws slot evaluations :=
  evaluateEach_iff hrecords evaluations (SlotTable.of_reachable hdb) hslot hopen

end Readiness

/-! ## A watermark that is withdrawn -/

section Sample

local instance readinessHasher : ContentHasher := polynomialHasher

theorem schedulesBuilt_sampleSlotCalls : ∀ call ∈ sampleSlotCalls, ∀ schedule recordedAt,
    call = .createSchedule schedule recordedAt → schedule.Built := by
  intro call hcall schedule recordedAt heq
  obtain ⟨built, -, hbuilt, -⟩ := exists_sampleSchedule
  rw [sampleSlotCalls_of_build hbuilt] at hcall
  subst heq
  simp only [List.mem_cons, SlotCall.createSchedule.injEq, reduceCtorEq, List.not_mem_nil,
    or_false] at hcall
  obtain ⟨rfl, -⟩ := hcall
  exact ⟨_, _, _, _, hbuilt⟩

theorem built_run_performCalls {ρ : Type} (recorder : SlotTransitionRecorder ρ)
    {calls : List SlotCall} {db : SlotDatabase ρ}
    (hbuilt : ∀ call ∈ calls, ∀ schedule recordedAt,
      call = .createSchedule schedule recordedAt → schedule.Built) :
    ((slotRuns recorder).restrict SchedulesBuilt).Run db (performCalls recorder calls db).1
      (performCalls recorder calls db).2 := by
  induction calls generalizing db with
  | nil => exact Transition.Run.refl
  | cons call rest ih =>
      have hguard : SchedulesBuilt db
          (.called call (Exec.transaction (SlotDatabase.perform recorder call) db).1) := by
        intro schedule recordedAt reply heq
        cases heq
        exact hbuilt _ List.mem_cons_self _ _ rfl
      have hstep : ((slotRuns recorder).restrict SchedulesBuilt).step db
          (.called call (Exec.transaction (SlotDatabase.perform recorder call) db).1)
          (Exec.transaction (SlotDatabase.perform recorder call) db).2 := ⟨hguard, rfl⟩
      exact (Transition.Run.single hstep).trans
        (ih fun call hcall => hbuilt call (List.mem_cons_of_mem _ hcall))

/-- The session is scheduled and its first slot is READY. -/
def readySlotDatabase : SlotDatabase (List (SlotState × Instant)) :=
  (performCalls loggingRecorder (sampleSlotCalls.take 2) emptySlotDatabase).2

theorem reachable_afterFirst (n : Nat) :
    ((slotRuns loggingRecorder).restrict SchedulesBuilt).Reachable (afterFirst n) := by
  have hbuilt : ∀ call ∈ sampleSlotCalls.take n, ∀ schedule recordedAt,
      call = .createSchedule schedule recordedAt → schedule.Built := fun call hcall =>
    schedulesBuilt_sampleSlotCalls call (List.mem_of_mem_take hcall)
  have hrun := @built_run_performCalls _ loggingRecorder _ emptySlotDatabase hbuilt
  rw [afterFirst_eq]
  exact ⟨emptySlotDatabase, _, sample_slotInit, hrun⟩

theorem reachable_readySlotDatabase :
    ((slotRuns loggingRecorder).restrict SchedulesBuilt).Reachable readySlotDatabase :=
  reachable_afterFirst 2

theorem exists_readySlot : ∃ slot ∈ readySlotDatabase.slots.get? sampleSlotId,
    slot.decisionType = .strategy ∧ slot.state = .ready ∧ slot.readyAt = sampleReadyAt ∧
      slot.deadlineAt = sampleReadyAt + seconds 60 ∧
      slot.sourceIntervalEnd = sampleInstant sampleDate (9, 45) := by
  obtain ⟨slot, hstored, hid, hfields⟩ := exists_readiedSlot
  rw [hid] at hstored
  exact ⟨slot, hstored, hfields⟩

/-- The slot stays READY while the watermark is reached, and expires at its deadline. -/
theorem readiness_evaluations_sample :
    (∃ slot ∈ readySlotDatabase.slots.get? sampleSlotId, slot.state = .ready) ∧
      ∀ reply ∈ (SlotDatabase.evaluateEach loggingRecorder sampleSlotId
        [⟨some (sampleInstant sampleDate (9, 45)), sampleReadyAt + seconds 5⟩,
          ⟨none, sampleReadyAt + seconds 60⟩] readySlotDatabase).1, ReturnsOpen reply := by
  obtain ⟨slot, hslot, hstrategy, hready, hreadyAt, hdeadline, hend⟩ := exists_readySlot
  refine ⟨⟨slot, hslot, hready⟩, ?_⟩
  apply (readiness_evaluations_iff loggingRecorder_records reachable_readySlotDatabase hslot
    (by simp [hready]) _).2
  rintro ⟨-, -, before, e, after, heq, -, ⟨-, hbefore⟩, hmissing, -⟩
  have hmem : e = ⟨some (sampleInstant sampleDate (9, 45)), sampleReadyAt + seconds 5⟩ ∨
      e = ⟨none, sampleReadyAt + seconds 60⟩ := by
    have := heq ▸ List.mem_append_right before (List.mem_cons_self (a := e) (l := after))
    simpa using this
  rcases hmem with rfl | rfl
  · exact hmissing ⟨_, rfl, hend.le⟩
  · rw [hdeadline] at hbefore
    exact lt_irrefl _ hbefore

/-- An evaluation of a READY slot before its deadline, with the watermark withdrawn, fails. -/
theorem readiness_withdrawal_fails :
    ¬ ∀ db slot, ((slotRuns loggingRecorder).restrict SchedulesBuilt).Reachable db →
      db.slots.get? sampleSlotId = some slot → slot.state ≠ .claimed → ∀ evaluations,
      ∀ reply ∈ (SlotDatabase.evaluateEach loggingRecorder sampleSlotId evaluations db).1,
        ReturnsOpen reply := by
  intro hclaim
  obtain ⟨slot, hslot, hstrategy, hready, hreadyAt, hdeadline, -⟩ := exists_readySlot
  have hrefused : (⟨none, sampleReadyAt + seconds 5⟩ : Evaluation).Refused slot := by
    refine ⟨hstrategy, hready, ⟨?_, ?_⟩, ?_⟩
    · rw [hreadyAt]
      decide
    · rw [hdeadline]
      decide
    · rintro ⟨watermark, hwatermark, -⟩
      cases hwatermark
  have hfailed := @evaluateReadiness_of_refused _ _ loggingRecorder _ _ _ _
    (SlotTable.of_reachable reachable_readySlotDatabase) hslot hrefused
  have hreply := hclaim _ slot reachable_readySlotDatabase hslot (by simp [hready])
    [⟨none, sampleReadyAt + seconds 5⟩] _ List.mem_cons_self
  rw [hfailed] at hreply
  obtain ⟨current, hcurrent, -⟩ := hreply
  cases hcurrent

end Sample

end AdaptiveTrader
