import AdaptiveTrader.Foundation.Transition
import AdaptiveTrader.Scheduling.SlotMoves

/-!
# Lease safety of slots

Runs of the slot repository: calls of any workers at any instants, each one serialized transaction,
with the decision tables changed arbitrarily between them. `SlotEffect` states what one successful
call does to the slot table and how many of its replies hand a slot over; from it follow the safety
of one call (`SlotCallSafe`) and, by induction on the run, that a terminal slot stays and that the
attempts of a slot count the replies that handed it to a worker (`slot_lease_safety`).
-/

set_option autoImplicit false

namespace AdaptiveTrader

open Foundation

/-! ## Calls and runs -/

/-- The calls of the slot repository. -/
inductive SlotCall
  | createSchedule (schedule : SessionSlotSchedule) (recordedAt : Instant)
  | evaluateReadiness (slotId : String) (activeBasketWatermark : Option Instant) (now : Instant)
  | claim (slotId owner : String) (now : Instant)
  | claimNext (owner : String) (now : Instant)
  | renewLease (slotId owner : String) (now : Instant)
  | complete (slotId owner : String) (now : Instant)
  | skip (slotId reasonCode : String) (now : Instant)
  | fail (slotId owner reasonCode : String) (now : Instant)
  | recoverExpiredClaims (owner : String) (now : Instant)

/-- The instant a call is made at. -/
def SlotCall.now : SlotCall → Instant
  | createSchedule _ recordedAt => recordedAt
  | evaluateReadiness _ _ now | claim _ _ now | claimNext _ now | renewLease _ _ now
  | complete _ _ now | skip _ _ now | fail _ _ _ now | recoverExpiredClaims _ now => now

/-- The slots a call schedules. -/
def SlotCall.scheduled : SlotCall → List DecisionSlot
  | createSchedule schedule _ => schedule.slots
  | _ => []

/-- The slot and worker of a call only the worker that holds the slot may make. -/
def SlotCall.heldSlot : SlotCall → Option (String × String)
  | renewLease slotId owner _ | complete slotId owner _ | fail slotId owner _ _ =>
      some (slotId, owner)
  | _ => none

/-- What a successful call returns. -/
inductive SlotReply
  | scheduled (slots : List DecisionSlot)
  | slot (slot : DecisionSlot)
  | claims (results : List ClaimResult)

/-- What happens to the database: a call with its reply, or other components write decisions. -/
inductive SlotEvent
  | called (call : SlotCall) (reply : Except PlatformError SlotReply)
  | decided (decisions : DecisionTables)

section Runs

variable [ContentHasher] {ρ : Type}

/-- How many of the results hand the slot to a worker. -/
def handovers (k : String) (results : List ClaimResult) : Nat :=
  results.countP fun r => r.handedOver && r.slot.slotId == k

def SlotReply.results : SlotReply → List ClaimResult
  | claims results => results
  | _ => []

/-- How many results along a run hand the slot to a worker. -/
def totalHandovers (k : String) : List SlotEvent → Nat
  | [] => 0
  | .called _ (.ok reply) :: rest => handovers k reply.results + totalHandovers k rest
  | _ :: rest => totalHandovers k rest

/-- The slots successful calls scheduled along a run. -/
def scheduledSlots : List SlotEvent → List DecisionSlot
  | [] => []
  | .called call (.ok _) :: rest => call.scheduled ++ scheduledSlots rest
  | _ :: rest => scheduledSlots rest

/-- Make one call. -/
def SlotDatabase.perform (recorder : SlotTransitionRecorder ρ) (call : SlotCall)
    (db : SlotDatabase ρ) : Except PlatformError (SlotReply × SlotDatabase ρ) :=
  match call with
  | .createSchedule schedule recordedAt =>
      (createSchedule recorder schedule recordedAt db).map fun r => (.scheduled r.1, r.2)
  | .evaluateReadiness slotId watermark now =>
      (evaluateReadiness recorder slotId watermark now db).map fun r => (.slot r.1, r.2)
  | .claim slotId owner now =>
      (SlotDatabase.claim recorder slotId owner now db).map fun r => (.claims [r.1], r.2)
  | .claimNext owner now =>
      (claimNext recorder owner now db).map fun r => (.claims r.1.toList, r.2)
  | .renewLease slotId owner now =>
      (renewLease recorder slotId owner now db).map fun r => (.slot r.1, r.2)
  | .complete slotId owner now =>
      (complete recorder slotId owner now db).map fun r => (.slot r.1, r.2)
  | .skip slotId reasonCode now =>
      (skip recorder slotId reasonCode now db).map fun r => (.slot r.1, r.2)
  | .fail slotId owner reasonCode now =>
      (fail recorder slotId owner reasonCode now db).map fun r => (.slot r.1, r.2)
  | .recoverExpiredClaims owner now =>
      (recoverExpiredClaims recorder owner now db).map fun r => (.claims r.1, r.2)

/-- Runs that start with no slot. -/
def slotRuns (recorder : SlotTransitionRecorder ρ) : Transition (SlotDatabase ρ) SlotEvent where
  init db := db.slots = Dict.empty
  step db event db' :=
    match event with
    | .called call reply =>
        Exec.transaction (SlotDatabase.perform recorder call) db = (reply, db')
    | .decided decisions => db' = { db with decisions }

/-! ## The effect of one call -/

/-- What a successful call at `now` does to the slots: a row stays and no result hands it over, or
it makes one move, which the results report when it is a handover; new rows are among `created`. -/
structure SlotEffect (now : Instant) (created : List DecisionSlot) (results : List ClaimResult)
    (db db' : SlotDatabase ρ) : Prop where
  rows : Dict.RowChanges (fun k b => b ∈ created ∧ b.slotId = k)
    (fun k a b => ∃ action, SlotMove db.decisions now action a b ∧
      handovers k results = action.handsOver.toNat) db.slots db'.slots
  quiet : ∀ k, db'.slots.get? k = db.slots.get? k → handovers k results = 0
  decisions : db'.decisions = db.decisions

namespace SlotEffect

variable {now : Instant} {created : List DecisionSlot} {results results' : List ClaimResult}
  {db db₁ db' : SlotDatabase ρ}

theorem of_kept (h : SlotsKept db db') (hresults : ∀ k, handovers k results = 0) :
    SlotEffect now created results db db' where
  rows := by
    rw [h.slots]
    exact Dict.RowChanges.refl db.slots
  quiet k _ := hresults k
  decisions := h.decisions

/-- One write is an effect when the results report its handover and no other. -/
theorem of_write {action : SlotAction} {a b : DecisionSlot}
    (h : SlotWrite now action db a b db')
    (hself : handovers a.slotId results = action.handsOver.toNat)
    (hother : ∀ k, k ≠ a.slotId → handovers k results = 0) :
    SlotEffect now created results db db' where
  rows := by
    rw [h.slots]
    exact Dict.RowChanges.write h.stored ⟨action, h.move, hself⟩
  quiet k hk := by
    by_cases hka : k = a.slotId
    · subst hka
      -- A written row has a new version, so it is not the old one.
      rw [h.slots, Dict.get?_set_self, h.stored, Option.some.injEq] at hk
      have hversion := h.move.version_eq
      rw [hk] at hversion
      omega
    · exact hother k hka
  decisions := h.decisions

/-- Effects in sequence are one effect when no row is written twice. -/
theorem append (h₁ : SlotEffect now created results db db₁)
    (h₂ : SlotEffect now created results' db₁ db')
    (hdisjoint : ∀ k, db₁.slots.get? k = db.slots.get? k ∨
      db'.slots.get? k = db₁.slots.get? k) :
    SlotEffect now created (results ++ results') db db' where
  rows :=
    { kept := by
        intro k a ha
        rcases hdisjoint k with hfirst | hsecond
        · obtain ⟨b, hb, hab⟩ := h₂.rows.kept k a (hfirst.trans ha)
          refine ⟨b, hb, hab.imp_right ?_⟩
          rintro ⟨action, hmove, hcount⟩
          rw [h₁.decisions] at hmove
          refine ⟨action, hmove, ?_⟩
          rw [handovers, List.countP_append]
          exact (congrArg (· + _) (h₁.quiet k hfirst)).trans (by rw [Nat.zero_add]; exact hcount)
        · obtain ⟨b, hb, hab⟩ := h₁.rows.kept k a ha
          refine ⟨b, hsecond.trans hb, hab.imp_right ?_⟩
          rintro ⟨action, hmove, hcount⟩
          refine ⟨action, hmove, ?_⟩
          rw [handovers, List.countP_append]
          exact (congrArg (_ + ·) (h₂.quiet k hsecond)).trans hcount
      added := by
        intro k b hnone hsome
        rcases hdisjoint k with hfirst | hsecond
        · exact h₂.rows.added k b (hfirst.trans hnone) hsome
        · exact h₁.rows.added k b hnone (hsecond.symm.trans hsome) }
  quiet k hk := by
    rw [handovers, List.countP_append]
    rcases hdisjoint k with hfirst | hsecond
    · have hlast : db'.slots.get? k = db₁.slots.get? k := hk.trans hfirst.symm
      exact Nat.add_eq_zero_iff.2 ⟨h₁.quiet k hfirst, h₂.quiet k hlast⟩
    · exact Nat.add_eq_zero_iff.2 ⟨h₁.quiet k (hsecond.symm.trans hk), h₂.quiet k hsecond⟩
  decisions := h₂.decisions.trans h₁.decisions

/-- An operation without claim results. -/
theorem of_outcome {slot : DecisionSlot} {kept : Prop}
    (h : SlotOutcome now slot db db' kept fun action _ => action.handsOver = false) :
    SlotEffect now created [] db db' := by
  rcases h with ⟨-, hkept⟩ | ⟨action, b, hwrite, hhands⟩
  · exact of_kept hkept fun _ => rfl
  · exact of_write hwrite (by rw [hhands]; rfl) fun _ _ => rfl

/-- A claim of one slot. -/
theorem of_claim {slot : DecisionSlot} {result : ClaimResult}
    (h : SlotOutcome now slot db db' (result.handedOver = false) fun action b =>
      result.slot = b ∧ result.handedOver = action.handsOver) :
    SlotEffect now created [result] db db' := by
  rcases h with ⟨hhanded, hkept⟩ | ⟨action, b, hwrite, rfl, hhanded⟩
  · exact of_kept hkept fun k => by simp [handovers, hhanded]
  · have hid : result.slot.slotId = slot.slotId := hwrite.move.slotId
    refine of_write hwrite ?_ fun k hk => ?_
    · cases hhands : action.handsOver <;> simp [handovers, hid, hhanded, hhands]
    · simp [handovers, hid, Ne.symm hk]

end SlotEffect

/-- Writing under the same ID keeps every row under its slot ID. -/
theorem Keyed.of_effect {now : Instant} {created : List DecisionSlot}
    {results : List ClaimResult} {db db' : SlotDatabase ρ} (hkeyed : Keyed db.slots)
    (h : SlotEffect now created results db db') : Keyed db'.slots :=
  h.rows.allRows (fun _ _ hb => hb.2)
    (fun _ _ _ ha hmove => hmove.choose_spec.1.slotId.trans ha) hkeyed

namespace SlotDatabase

variable {recorder : SlotTransitionRecorder ρ} {db db' : SlotDatabase ρ}

/-- A row found under its key is stored under its own ID. -/
theorem stored_of_keyed (hkeyed : Keyed db.slots) {k : String} {slot : DecisionSlot}
    (h : db.slots.get? k = some slot) : db.slots.get? slot.slotId = some slot := by
  rw [hkeyed k slot h]
  exact h

theorem mem_values_of_expiredClaims {now : Instant} {slot : DecisionSlot}
    (h : slot ∈ db.expiredClaims now) : slot ∈ db.slots.values :=
  (List.mem_filter.1 (mem_sortedBy.1 h)).1

theorem stored_of_mem_values (hkeyed : Keyed db.slots) {slot : DecisionSlot}
    (h : slot ∈ db.slots.values) : db.slots.get? slot.slotId = some slot := by
  obtain ⟨k, hk⟩ := Dict.mem_values_iff.1 h
  exact stored_of_keyed hkeyed hk

/-- The rows `recover_expired_claims` selects are distinct. -/
theorem nodup_expiredClaims (hkeyed : Keyed db.slots) (now : Instant) :
    ((db.expiredClaims now).map DecisionSlot.slotId).Nodup := by
  have hvalues : (db.slots.values.map DecisionSlot.slotId).Nodup :=
    Dict.nodup_map_values fun k a h => hkeyed k a h
  refine ((sortedBy_perm deadlineOrder _).map DecisionSlot.slotId).nodup_iff.2 ?_
  exact hvalues.sublist (List.filter_sublist.map _)

/-- Each slot of the list is claimed once; no other row is written. -/
theorem recoverEach_spec {owner : String} {now : Instant} :
    ∀ {slots : List DecisionSlot} {db db' : SlotDatabase ρ} {results : List ClaimResult},
      (slots.map DecisionSlot.slotId).Nodup →
      (∀ s ∈ slots, db.slots.get? s.slotId = some s) →
      recoverEach recorder owner now slots db = .ok (results, db') →
      SlotEffect now [] results db db' ∧
        ∀ k, k ∉ slots.map DecisionSlot.slotId → db'.slots.get? k = db.slots.get? k := by
  intro slots
  induction slots with
  | nil =>
      intro db db' results _ _ h
      cases h
      exact ⟨SlotEffect.of_kept (SlotsKept.refl db) fun _ => rfl, fun _ _ => rfl⟩
  | cons slot rest ih =>
      intro db db' results hnodup hstored h
      simp only [recoverEach, bind_eq_ok, pure_eq_ok] at h
      obtain ⟨⟨first, db₁⟩, hfirst, ⟨others, db₂⟩, hothers, heq⟩ := h
      cases heq
      simp only [List.map_cons, List.nodup_cons] at hnodup
      have hspec := claimLocked_spec (hstored slot List.mem_cons_self) hfirst
      have heffect : SlotEffect now [] [first] db db₁ := SlotEffect.of_claim hspec
      -- The first claim leaves every other row alone.
      have honly : ∀ k, k ≠ slot.slotId → db₁.slots.get? k = db.slots.get? k := by
        intro k hk
        rcases hspec with ⟨-, hkept⟩ | ⟨action, b, hwrite, -⟩
        · rw [hkept.slots]
        · rw [hwrite.slots, Dict.get?_set_of_ne _ _ hk]
      have hrest : ∀ s ∈ rest, db₁.slots.get? s.slotId = some s := by
        intro s hs
        have hne : s.slotId ≠ slot.slotId := fun he =>
          hnodup.1 (he ▸ List.mem_map_of_mem hs)
        rw [honly _ hne]
        exact hstored s (List.mem_cons_of_mem _ hs)
      obtain ⟨heffects, hkeep⟩ := ih hnodup.2 hrest hothers
      refine ⟨heffect.append heffects fun k => ?_, fun k hk => ?_⟩
      · by_cases hk : k = slot.slotId
        · subst hk
          exact Or.inr (hkeep _ hnodup.1)
        · exact Or.inl (honly k hk)
      · simp only [List.map_cons, List.mem_cons, not_or] at hk
        rw [hkeep k hk.2, honly k hk.1]

theorem insertSlot_spec {slot : DecisionSlot} {recordedAt : Instant} (hkeyed : Keyed db.slots)
    (h : insertSlot recorder slot recordedAt db = .ok db') :
    db.slots.get? slot.slotId = none ∧ db'.slots = db.slots.set slot.slotId slot ∧
      db'.decisions = db.decisions := by
  simp only [insertSlot, bind_eq_ok, rejectIf_eq_ok, pure_eq_ok] at h
  obtain ⟨-, hfree, evidence, -, rfl⟩ := h
  refine ⟨?_, rfl, rfl⟩
  cases hget : db.slots.get? slot.slotId with
  | none => rfl
  | some row =>
      refine absurd (List.any_eq_true.2 ⟨row, Dict.mem_values_iff.2 ⟨_, hget⟩, ?_⟩) hfree
      simp [conflicting, hkeyed _ _ hget]

/-- Scheduling keeps every row and adds scheduled slots only. -/
theorem createEach_spec {existing : Dict String DecisionSlot} {recordedAt : Instant} :
    ∀ {slots : List DecisionSlot} {db db' : SlotDatabase ρ} {created : List DecisionSlot},
      Keyed db.slots → createEach recorder existing recordedAt slots db = .ok (created, db') →
      Dict.RowChanges (fun k b => b ∈ slots ∧ b.slotId = k) (fun _ _ _ => False)
        db.slots db'.slots ∧ db'.decisions = db.decisions := by
  intro slots
  induction slots with
  | nil =>
      intro db db' created _ h
      cases h
      exact ⟨Dict.RowChanges.refl _, rfl⟩
  | cons slot rest ih =>
      intro db db' created hkeyed h
      have hlater : ∀ k (b : DecisionSlot), b ∈ rest ∧ b.slotId = k →
          b ∈ slot :: rest ∧ b.slotId = k := fun _ _ hb => ⟨List.mem_cons_of_mem _ hb.1, hb.2⟩
      unfold createEach at h
      split at h
      · simp only [bind_eq_ok, pure_eq_ok] at h
        obtain ⟨-, -, ⟨others, db₁⟩, hothers, heq⟩ := h
        cases heq
        obtain ⟨hrows, hdecisions⟩ := ih hkeyed hothers
        exact ⟨hrows.mono hlater fun _ _ _ => id, hdecisions⟩
      · simp only [bind_eq_ok, pure_eq_ok] at h
        obtain ⟨db₁, hinsert, ⟨others, db₂⟩, hothers, heq⟩ := h
        cases heq
        obtain ⟨hnew, hslots, hsame⟩ := insertSlot_spec hkeyed hinsert
        have hfirst : Dict.RowChanges (fun k b => b ∈ slot :: rest ∧ b.slotId = k)
            (fun _ _ _ => False) db.slots db₁.slots := by
          rw [hslots]
          exact Dict.RowChanges.insert hnew ⟨List.mem_cons_self, rfl⟩
        have hkeyed₁ : Keyed db₁.slots :=
          hfirst.allRows (fun _ _ hb => hb.2) (fun _ _ _ _ => False.elim) hkeyed
        obtain ⟨hrows, hdecisions⟩ := ih hkeyed₁ hothers
        refine ⟨hfirst.trans_of_disjoint (hrows.mono hlater fun _ _ _ => id) fun k => ?_,
          hdecisions.trans hsame⟩
        by_cases hk : k = slot.slotId
        · -- The inserted row stays for the rest of the loop.
          subst hk
          have hinserted : db₁.slots.get? slot.slotId = some slot := by
            rw [hslots, Dict.get?_set_self]
          exact Or.inr ((hrows.get?_of_stuck hinserted fun _ => id).trans hinserted.symm)
        · exact Or.inl (by rw [hslots, Dict.get?_set_of_ne _ _ hk])

/-- The effect of every successful call. -/
theorem perform_effect {call : SlotCall} {reply : SlotReply} (hkeyed : Keyed db.slots)
    (h : perform recorder call db = .ok (reply, db')) :
    SlotEffect call.now call.scheduled reply.results db db' := by
  have hone : ∀ {slotId : String} {slot : DecisionSlot}, db.requireSlot slotId = .ok slot →
      db.slots.get? slotId = some slot ∧ db.slots.get? slot.slotId = some slot := fun hread =>
    ⟨requireSlot_eq_ok hread, stored_of_keyed hkeyed (requireSlot_eq_ok hread)⟩
  cases call with
  | createSchedule schedule recordedAt =>
      obtain ⟨⟨created, db₁⟩, hcreate, heq⟩ := map_eq_ok.1 h
      cases heq
      obtain ⟨hrows, hdecisions⟩ := createEach_spec hkeyed hcreate
      exact ⟨hrows.mono (fun _ _ => id) fun _ _ _ => False.elim, fun _ _ => rfl, hdecisions⟩
  | evaluateReadiness slotId watermark now =>
      obtain ⟨⟨current, db₁⟩, hevaluate, heq⟩ := map_eq_ok.1 h
      cases heq
      obtain ⟨slot, hslot, -⟩ := bind_eq_ok.1 hevaluate
      exact SlotEffect.of_outcome
        (evaluateReadiness_spec (hone hslot).2 (hone hslot).1 hevaluate)
  | claim slotId owner now =>
      obtain ⟨⟨result, db₁⟩, hclaim, heq⟩ := map_eq_ok.1 h
      cases heq
      simp only [SlotDatabase.claim, bind_eq_ok] at hclaim
      obtain ⟨-, -, slot, hslot, hlocked⟩ := hclaim
      exact SlotEffect.of_claim (claimLocked_spec (hone hslot).2 hlocked)
  | claimNext owner now =>
      obtain ⟨⟨result, db₁⟩, hclaim, heq⟩ := map_eq_ok.1 h
      cases heq
      simp only [claimNext, bind_eq_ok] at hclaim
      obtain ⟨-, -, hclaim⟩ := hclaim
      split at hclaim
      · cases hclaim
        exact SlotEffect.of_kept (SlotsKept.refl db) fun _ => rfl
      · next slot hhead =>
          split at hclaim
          · cases hclaim
            exact SlotEffect.of_kept (SlotsKept.refl db) fun _ => rfl
          · simp only [bind_eq_ok, pure_eq_ok] at hclaim
            obtain ⟨⟨locked, db₂⟩, hlocked, heq⟩ := hclaim
            cases heq
            have hmem : slot ∈ db.slots.values :=
              (List.mem_filter.1 (mem_sortedBy.1 (List.mem_of_mem_head? hhead))).1
            exact SlotEffect.of_claim
              (claimLocked_spec (stored_of_mem_values hkeyed hmem) hlocked)
  | renewLease slotId owner now =>
      obtain ⟨⟨current, db₁⟩, hrenew, heq⟩ := map_eq_ok.1 h
      cases heq
      obtain ⟨-, -, hread⟩ := bind_eq_ok.1 hrenew
      obtain ⟨slot, hslot, -⟩ := bind_eq_ok.1 hread
      exact SlotEffect.of_outcome (renewLease_spec (hone hslot).2 (hone hslot).1 hrenew).2
  | complete slotId owner now =>
      obtain ⟨⟨current, db₁⟩, hcomplete, heq⟩ := map_eq_ok.1 h
      cases heq
      obtain ⟨-, -, hread⟩ := bind_eq_ok.1 hcomplete
      obtain ⟨slot, hslot, -⟩ := bind_eq_ok.1 hread
      exact SlotEffect.of_outcome (complete_spec (hone hslot).2 (hone hslot).1 hcomplete).2
  | skip slotId reasonCode now =>
      obtain ⟨⟨current, db₁⟩, hskip, heq⟩ := map_eq_ok.1 h
      cases heq
      obtain ⟨-, -, hread⟩ := bind_eq_ok.1 hskip
      obtain ⟨slot, hslot, -⟩ := bind_eq_ok.1 hread
      exact SlotEffect.of_outcome (skip_spec (hone hslot).2 (hone hslot).1 hskip)
  | fail slotId owner reasonCode now =>
      obtain ⟨⟨current, db₁⟩, hfail, heq⟩ := map_eq_ok.1 h
      cases heq
      obtain ⟨-, -, hread⟩ := bind_eq_ok.1 hfail
      obtain ⟨-, -, hread⟩ := bind_eq_ok.1 hread
      obtain ⟨slot, hslot, -⟩ := bind_eq_ok.1 hread
      exact SlotEffect.of_outcome (fail_spec (hone hslot).2 (hone hslot).1 hfail).2
  | recoverExpiredClaims owner now =>
      obtain ⟨⟨results, db₁⟩, hrecover, heq⟩ := map_eq_ok.1 h
      cases heq
      obtain ⟨-, -, heach⟩ := bind_eq_ok.1 hrecover
      exact (recoverEach_spec (nodup_expiredClaims hkeyed now)
        (fun s hs => stored_of_mem_values hkeyed (mem_values_of_expiredClaims hs)) heach).1

/-- Renewing, completing and failing succeed for the worker that holds the slot. -/
theorem perform_held {call : SlotCall} {reply : SlotReply} (hkeyed : Keyed db.slots)
    (h : perform recorder call db = .ok (reply, db')) {slotId owner : String}
    (hcall : call.heldSlot = some (slotId, owner)) :
    ∃ slot, db.slots.get? slotId = some slot ∧ slot.HeldBy owner := by
  have hone : ∀ {slotId : String} {slot : DecisionSlot}, db.requireSlot slotId = .ok slot →
      db.slots.get? slotId = some slot ∧ db.slots.get? slot.slotId = some slot := fun hread =>
    ⟨requireSlot_eq_ok hread, stored_of_keyed hkeyed (requireSlot_eq_ok hread)⟩
  cases call with
  | renewLease slotId owner now =>
      cases hcall
      obtain ⟨⟨current, db₁⟩, hrenew, -⟩ := map_eq_ok.1 h
      obtain ⟨-, -, hread⟩ := bind_eq_ok.1 hrenew
      obtain ⟨slot, hslot, -⟩ := bind_eq_ok.1 hread
      exact ⟨slot, (hone hslot).1, (renewLease_spec (hone hslot).2 (hone hslot).1 hrenew).1⟩
  | complete slotId owner now =>
      cases hcall
      obtain ⟨⟨current, db₁⟩, hcomplete, -⟩ := map_eq_ok.1 h
      obtain ⟨-, -, hread⟩ := bind_eq_ok.1 hcomplete
      obtain ⟨slot, hslot, -⟩ := bind_eq_ok.1 hread
      exact ⟨slot, (hone hslot).1, (complete_spec (hone hslot).2 (hone hslot).1 hcomplete).1⟩
  | fail slotId owner reasonCode now =>
      cases hcall
      obtain ⟨⟨current, db₁⟩, hfail, -⟩ := map_eq_ok.1 h
      obtain ⟨-, -, hread⟩ := bind_eq_ok.1 hfail
      obtain ⟨-, -, hread⟩ := bind_eq_ok.1 hread
      obtain ⟨slot, hslot, -⟩ := bind_eq_ok.1 hread
      exact ⟨slot, (hone hslot).1, (fail_spec (hone hslot).2 (hone hslot).1 hfail).1⟩
  | createSchedule schedule recordedAt => cases hcall
  | evaluateReadiness slotId watermark now => cases hcall
  | claim slotId owner now => cases hcall
  | claimNext owner now => cases hcall
  | skip slotId reasonCode now => cases hcall
  | recoverExpiredClaims owner now => cases hcall

end SlotDatabase

/-! ## Safety of one call -/

/-- What no call violates, whether it succeeds or raises. -/
structure SlotCallSafe (call : SlotCall) (reply : Except PlatformError SlotReply)
    (db db' : SlotDatabase ρ) : Prop where
  /-- A slot stays; a change counts one version up. -/
  version : ∀ k a, db.slots.get? k = some a →
    ∃ b, db'.slots.get? k = some b ∧ (b = a ∨ b.version = a.version + 1)
  /-- A slot in a terminal state does not change. -/
  terminal : ∀ k a, db.slots.get? k = some a → a.state.terminal = true →
    db'.slots.get? k = some a
  /-- A claimed slot goes to another worker at or after the end of its lease. -/
  owner : ∀ k a b owner owner', db.slots.get? k = some a → db'.slots.get? k = some b →
    a.HeldBy owner → b.HeldBy owner' → owner' ≠ owner →
    ∃ lease, a.leaseExpiresAt = some lease ∧ lease ≤ call.now
  /-- Renewing, completing and failing take the worker that holds the slot. -/
  held : ∀ slotId owner, call.heldSlot = some (slotId, owner) → (∃ r, reply = .ok r) →
    ∃ a, db.slots.get? slotId = some a ∧ a.HeldBy owner
  /-- A strategy slot becomes completed when a decision is materialized. -/
  completed : ∀ k a b, db.slots.get? k = some a → db'.slots.get? k = some b →
    a.decisionType = .strategy → a.state ≠ .completed → b.state = .completed →
    db.decisions.materialized k = true
  /-- Scheduling leaves every existing slot alone. -/
  schedule : ∀ s recordedAt, call = .createSchedule s recordedAt →
    ∀ k a, db.slots.get? k = some a → db'.slots.get? k = some a

namespace SlotCallSafe

variable {call : SlotCall} {recorder : SlotTransitionRecorder ρ} {db db' : SlotDatabase ρ}

omit [ContentHasher] in
/-- A call that raises changes nothing. -/
theorem of_error {e : PlatformError} (h : db' = db) : SlotCallSafe call (.error e) db db' where
  version k a ha := ⟨a, h ▸ ha, Or.inl rfl⟩
  terminal k a ha _ := h ▸ ha
  owner k a b owner owner' ha hb hheld hheld' hne := by
    rw [h, ha] at hb
    cases hb
    exact absurd (Option.some.inj (hheld'.2.symm.trans hheld.2)) hne
  held slotId owner _ hok := by
    obtain ⟨r, hr⟩ := hok
    cases hr
  completed k a b ha hb _ hopen hcompleted := by
    rw [h, ha] at hb
    cases hb
    exact absurd hcompleted hopen
  schedule s recordedAt _ k a ha := h ▸ ha

theorem of_ok {reply : SlotReply} (hkeyed : Keyed db.slots)
    (h : SlotDatabase.perform recorder call db = .ok (reply, db')) :
    SlotCallSafe call (.ok reply) db db' := by
  have heffect := SlotDatabase.perform_effect hkeyed h
  -- Every row stays or makes one move.
  have hmoves : ∀ k a b, db.slots.get? k = some a → db'.slots.get? k = some b →
      b = a ∨ ∃ action, SlotMove db.decisions call.now action a b := by
    intro k a b ha hb
    obtain ⟨b', hb', heq | ⟨action, hmove, -⟩⟩ := heffect.rows.kept k a ha
    · exact Or.inl ((Option.some.inj (hb.symm.trans hb')).trans heq)
    · exact Or.inr ⟨action, Option.some.inj (hb.symm.trans hb') ▸ hmove⟩
  refine ⟨fun k a ha => ?_, fun k a ha hterminal => ?_, fun k a b owner owner' ha hb hheld hheld'
    hne => ?_, fun slotId owner hcall _ => SlotDatabase.perform_held hkeyed h hcall,
    fun k a b ha hb _ hopen hcompleted => ?_, fun s recordedAt hcall k a ha => ?_⟩
  · obtain ⟨b, hb, heq | ⟨action, hmove, -⟩⟩ := heffect.rows.kept k a ha
    · exact ⟨b, hb, Or.inl heq⟩
    · exact ⟨b, hb, Or.inr hmove.version_eq⟩
  · refine heffect.rows.get?_of_stuck ha fun b hstep => ?_
    obtain ⟨action, hmove, -⟩ := hstep
    rw [hmove.not_terminal] at hterminal
    cases hterminal
  · rcases hmoves k a b ha hb with heq | ⟨action, hmove⟩
    · subst heq
      exact absurd (Option.some.inj (hheld'.2.symm.trans hheld.2)) hne
    · obtain ⟨lease, hlease, hexpired⟩ := hmove.lease_expired_of_new_owner hheld hheld' hne
      exact ⟨lease, hlease, hexpired⟩
  · rcases hmoves k a b ha hb with heq | ⟨action, hmove⟩
    · exact absurd (heq ▸ hcompleted) hopen
    · rw [← hkeyed k a ha]
      exact hmove.materialized_of_completed hcompleted
  · subst hcall
    obtain ⟨⟨created, db₁⟩, hcreate, heq⟩ := map_eq_ok.1 h
    cases heq
    exact (SlotDatabase.createEach_spec hkeyed hcreate).1.get?_of_stuck ha fun _ => id

end SlotCallSafe

/-! ## Safety of runs -/

section Safety

variable {recorder : SlotTransitionRecorder ρ} {db db' : SlotDatabase ρ}

/-- Every call is safe in a keyed database. -/
theorem slotCallSafe_of_step {call : SlotCall} {reply : Except PlatformError SlotReply}
    (hkeyed : Keyed db.slots)
    (h : (slotRuns recorder).step db (.called call reply) db') :
    SlotCallSafe call reply db db' := by
  have hcall : Exec.transaction (SlotDatabase.perform recorder call) db = (reply, db') := h
  cases reply with
  | ok r => exact SlotCallSafe.of_ok hkeyed (Exec.transaction_eq_ok_iff.1 hcall)
  | error e =>
      exact SlotCallSafe.of_error (Exec.transaction_error hcall)

/-- Steps keep every row under its slot ID. -/
theorem keyed_of_step {event : SlotEvent} (hkeyed : Keyed db.slots)
    (h : (slotRuns recorder).step db event db') : Keyed db'.slots := by
  cases event with
  | decided decisions =>
      have heq : db' = { db with decisions } := h
      subst heq
      exact hkeyed
  | called call reply =>
      have hcall : Exec.transaction (SlotDatabase.perform recorder call) db = (reply, db') := h
      cases reply with
      | ok r =>
          exact hkeyed.of_effect
            (SlotDatabase.perform_effect hkeyed (Exec.transaction_eq_ok_iff.1 hcall))
      | error e =>
          rw [Exec.transaction_error hcall]
          exact hkeyed

theorem keyed_of_init (h : (slotRuns recorder).init db) : Keyed db.slots := by
  have hempty : db.slots = Dict.empty := h
  rw [hempty]
  exact Dict.allRows_empty _

theorem totalHandovers_append (k : String) (events events' : List SlotEvent) :
    totalHandovers k (events ++ events') = totalHandovers k events + totalHandovers k events' := by
  induction events with
  | nil => simp [totalHandovers]
  | cons event rest ih =>
      cases event with
      | decided decisions => simpa [totalHandovers] using ih
      | called call reply =>
          cases reply with
          | error e => simpa [totalHandovers] using ih
          | ok r =>
              simp only [List.cons_append, totalHandovers, ih]
              omega

omit [ContentHasher] in
theorem scheduledSlots_append (events events' : List SlotEvent) :
    scheduledSlots (events ++ events') = scheduledSlots events ++ scheduledSlots events' := by
  induction events with
  | nil => rfl
  | cons event rest ih =>
      cases event with
      | decided decisions => simpa [scheduledSlots] using ih
      | called call reply =>
          cases reply with
          | error e => simpa [scheduledSlots] using ih
          | ok r => simp [scheduledSlots, ih]

/-- Every slot counts the handovers since it was scheduled. -/
def AttemptsCounted (events : List SlotEvent) (db : SlotDatabase ρ) : Prop :=
  db.slots.AllRows fun k slot => ∃ created ∈ scheduledSlots events,
    created.slotId = k ∧ slot.attemptCount = created.attemptCount + totalHandovers k events

/-- A slot nobody has scheduled yet has not been handed over. -/
def NoEarlyHandover (events : List SlotEvent) (db : SlotDatabase ρ) : Prop :=
  ∀ k, db.slots.get? k = none → totalHandovers k events = 0

/-- A call that schedules hands nothing over. -/
theorem results_of_scheduled {call : SlotCall} {reply : SlotReply} {slot : DecisionSlot}
    (h : SlotDatabase.perform recorder call db = .ok (reply, db')) (hs : slot ∈ call.scheduled) :
    reply.results = [] := by
  cases call with
  | createSchedule schedule recordedAt =>
      obtain ⟨_, -, heq⟩ := map_eq_ok.1 h
      cases heq
      rfl
  | _ => simp [SlotCall.scheduled] at hs

/-- What holds of every slot along a run. -/
structure SlotHistory (events : List SlotEvent) (db : SlotDatabase ρ) : Prop where
  keyed : Keyed db.slots
  counted : AttemptsCounted events db
  unborn : NoEarlyHandover events db

theorem SlotHistory.of_called {events : List SlotEvent} {call : SlotCall} {reply : SlotReply}
    (hdb : SlotHistory events db)
    (h : SlotDatabase.perform recorder call db = .ok (reply, db')) :
    SlotHistory (events ++ [.called call (.ok reply)]) db' := by
  have heffect := SlotDatabase.perform_effect hdb.keyed h
  have htotal : ∀ k, totalHandovers k (events ++ [.called call (.ok reply)]) =
      totalHandovers k events + handovers k reply.results := by
    intro k
    simp [totalHandovers_append, totalHandovers]
  have hscheduled : scheduledSlots (events ++ [.called call (.ok reply)]) =
      scheduledSlots events ++ call.scheduled := by
    simp [scheduledSlots_append, scheduledSlots]
  refine ⟨hdb.keyed.of_effect heffect, fun k b hb => ?_, fun k hnone => ?_⟩
  · simp only [htotal, hscheduled]
    cases hk : db.slots.get? k with
    | none =>
        obtain ⟨hmem, hid⟩ := heffect.rows.added k b hk hb
        refine ⟨b, List.mem_append_right _ hmem, hid, ?_⟩
        rw [hdb.unborn k hk, results_of_scheduled h hmem]
        rfl
    | some a =>
        obtain ⟨created, hmem, hid, hcount⟩ := hdb.counted k a hk
        refine ⟨created, List.mem_append_left _ hmem, hid, ?_⟩
        obtain ⟨b', hb', heq | ⟨action, hmove, hhanded⟩⟩ := heffect.rows.kept k a hk
        · have hsame : b = a := (Option.some.inj (hb.symm.trans hb')).trans heq
          rw [heffect.quiet k (hb.trans (hk.trans (congrArg some hsame.symm)).symm), hsame]
          exact hcount
        · have hsame : b = b' := Option.some.inj (hb.symm.trans hb')
          rw [hsame, hmove.attemptCount_eq, hhanded, hcount]
          omega
  · rw [htotal]
    have hbefore : db.slots.get? k = none := by
      cases hk : db.slots.get? k with
      | none => rfl
      | some a =>
          obtain ⟨b, hb, -⟩ := heffect.rows.kept k a hk
          rw [hnone] at hb
          cases hb
    rw [hdb.unborn k hbefore, heffect.quiet k (hnone.trans hbefore.symm)]

/-- An event that leaves the slots alone keeps the history. -/
theorem SlotHistory.of_silent {events : List SlotEvent} {event : SlotEvent}
    (hdb : SlotHistory events db) (hslots : db'.slots = db.slots)
    (hsilent : ∀ k, totalHandovers k [event] = 0) : SlotHistory (events ++ [event]) db' := by
  have htotal : ∀ k, totalHandovers k (events ++ [event]) = totalHandovers k events := by
    intro k
    rw [totalHandovers_append, hsilent, Nat.add_zero]
  refine ⟨hslots ▸ hdb.keyed, fun k slot hk => ?_, fun k hk => ?_⟩
  · obtain ⟨created, hmem, hid, hcount⟩ := hdb.counted k slot (hslots ▸ hk)
    refine ⟨created, ?_, hid, (htotal k).symm ▸ hcount⟩
    rw [scheduledSlots_append]
    exact List.mem_append_left _ hmem
  · rw [htotal]
    exact hdb.unborn k (hslots ▸ hk)

theorem SlotHistory.of_run {events : List SlotEvent} (hinit : (slotRuns recorder).init db)
    (hrun : (slotRuns recorder).Run db events db') : SlotHistory events db' := by
  induction hrun with
  | refl =>
      have hempty : db.slots = Dict.empty := hinit
      refine ⟨keyed_of_init hinit, ?_, fun _ _ => rfl⟩
      unfold AttemptsCounted
      rw [hempty]
      exact Dict.allRows_empty _
  | @snoc events t u event _ hstep ih =>
      cases event with
      | decided decisions =>
          have heq : u = { t with decisions } := hstep
          subst heq
          exact ih.of_silent rfl fun _ => rfl
      | called call reply =>
          have hcall : Exec.transaction (SlotDatabase.perform recorder call) t = (reply, u) := hstep
          cases reply with
          | ok r => exact ih.of_called (Exec.transaction_eq_ok_iff.1 hcall)
          | error e =>
              have hsame : u = t := Exec.transaction_error hcall
              subst hsame
              exact ih.of_silent rfl fun _ => rfl

/-- A terminal slot stays for the rest of every run. -/
theorem terminal_of_run {events : List SlotEvent} (hkeyed : Keyed db.slots)
    (hrun : (slotRuns recorder).Run db events db') {k : String} {a : DecisionSlot}
    (ha : db.slots.get? k = some a) (hterminal : a.state.terminal = true) :
    db'.slots.get? k = some a := by
  refine (hrun.preserves (P := fun t => Keyed t.slots ∧ t.slots.get? k = some a) ?_
    ⟨hkeyed, ha⟩).2
  intro t event u ht hstep
  refine ⟨keyed_of_step ht.1 hstep, ?_⟩
  cases event with
  | decided decisions =>
      have heq : u = { t with decisions } := hstep
      subst heq
      exact ht.2
  | called call reply => exact (slotCallSafe_of_step ht.1 hstep).terminal k a ht.2 hterminal

end Safety

/-- Slot lease safety. Along every run that starts without slots, every call is safe; the attempts
of a slot are those it was scheduled with (none, for a built schedule) and the results that handed
it to a worker since; and a terminal slot stays whatever follows. -/
theorem slot_lease_safety (recorder : SlotTransitionRecorder ρ) {db₀ db : SlotDatabase ρ}
    {events : List SlotEvent} (hinit : (slotRuns recorder).init db₀)
    (hrun : (slotRuns recorder).Run db₀ events db) :
    (∀ call reply db', (slotRuns recorder).step db (.called call reply) db' →
      SlotCallSafe call reply db db') ∧
    (∀ k slot, db.slots.get? k = some slot → ∃ created ∈ scheduledSlots events,
      created.slotId = k ∧ slot.attemptCount = created.attemptCount + totalHandovers k events) ∧
    (∀ k slot, db.slots.get? k = some slot → slot.state.terminal = true →
      ∀ later db', (slotRuns recorder).Run db later db' → db'.slots.get? k = some slot) ∧
    (∀ marketInstant plan sessionDate session schedule,
      buildSessionSchedule marketInstant plan sessionDate session = .ok schedule →
      ∀ slot ∈ schedule.slots, slot.attemptCount = 0) := by
  have hhistory := SlotHistory.of_run hinit hrun
  refine ⟨?_, hhistory.counted, ?_, ?_⟩
  · intro call reply db' hstep
    exact slotCallSafe_of_step hhistory.keyed hstep
  · intro k slot hslot hterminal later db' hlater
    exact terminal_of_run hhistory.keyed hlater hslot hterminal
  · intro marketInstant plan sessionDate session schedule hschedule slot hslot
    exact (fresh_of_buildSessionSchedule marketInstant hschedule hslot).1

end Runs

end AdaptiveTrader
