import AdaptiveTrader.Execution.FakeBroker

/-!
# Reduce-only fills

A reduce-only order must not increase the position or turn it over. A fill that does not cross zero
does neither exactly when it finds the position on the side it reduces (`reduces_iff`). The check at
submission puts the position on that side, so the fills of `submit` are reduce-only.

A delayed fill is only refused when it crosses zero: it opens a position when another order has
closed the one it was meant to reduce (`delayed_close_opens_short`). A run has reduce-only fills
exactly when each of its lookups that would fill a pending reduce-only order finds the position
still on the side that order reduces (`reduce_only_iff`).
-/

set_option autoImplicit false

namespace AdaptiveTrader

open Foundation

/-- The position is on the side that an order of this side reduces. -/
def OnSide : OrderSide → ℚ → Prop
  | .sell, current => 0 < current
  | .buy, current => current < 0

/-- The position does not grow and does not change its sign. -/
def Reduces (before after : ℚ) : Prop := |after| ≤ |before| ∧ 0 ≤ before * after

/-- A fill that does not cross zero reduces exactly the positions on its side. -/
theorem reduces_iff {fill : Fill} {current : ℚ}
    (hcrosses : ¬ DeterministicFakePaperBroker.Crosses current fill.toFillFields) :
    Reduces current (current + fill.signedQuantity) ↔ OnSide fill.side current := by
  have hquantity := fill.quantity_pos
  unfold DeterministicFakePaperBroker.Crosses at hcrosses
  cases hside : fill.side with
  | sell =>
      simp only [hside, not_and, not_lt] at hcrosses
      rw [Fill.signedQuantity, hside, if_neg (by decide), Reduces, OnSide]
      constructor
      · rintro ⟨habs, -⟩
        -- A sale from zero or below makes the position larger.
        by_contra hcurrent
        rw [abs_of_nonpos (not_lt.1 hcurrent), abs_of_neg (by linarith)] at habs
        linarith
      · intro hcurrent
        have hle := hcrosses hcurrent
        rw [abs_of_pos hcurrent, abs_of_nonneg (by linarith)]
        exact ⟨by linarith, mul_nonneg hcurrent.le (by linarith)⟩
  | buy =>
      simp only [hside, not_and, not_lt] at hcrosses
      rw [Fill.signedQuantity, if_pos hside, Reduces, OnSide]
      constructor
      · rintro ⟨habs, -⟩
        by_contra hcurrent
        rw [abs_of_nonneg (not_lt.1 hcurrent), abs_of_pos (by linarith)] at habs
        linarith
      · intro hcurrent
        have hle := hcrosses hcurrent
        rw [abs_of_neg hcurrent] at hle ⊢
        rw [abs_of_nonpos (by linarith)]
        exact ⟨by linarith, mul_nonneg_of_nonpos_of_nonpos hcurrent.le (by linarith)⟩

/-- A fill that would cross zero starts on its side. -/
theorem onSide_of_crosses {current : ℚ} {fields : FillFields}
    (h : DeterministicFakePaperBroker.Crosses current fields) : OnSide fields.side current := by
  unfold DeterministicFakePaperBroker.Crosses at h
  cases hside : fields.side with
  | sell =>
      rw [hside] at h
      exact h.1
  | buy =>
      rw [hside] at h
      exact h.1

/-- An effect that fits a position and opens no exposure has the position on the side of its orders. -/
theorem PositionEffect.onSide_of_fits {effect : PositionEffect} {quantity current : ℚ}
    (hreduces : effect.opensExposure = false) (hfits : effect.fits quantity current = true) :
    OnSide effect.sideAndPhase.1 current := by
  cases effect <;> simp [opensExposure] at hreduces <;>
    simp only [fits, decide_eq_true_eq] at hfits <;> exact hfits.1

/-! ## Applied fills -/

/-- One applied fill: the effect of its order and the position before and after. -/
structure AppliedFill where
  effect : PositionEffect
  before : ℚ
  after : ℚ
  deriving DecidableEq

/-- A fill for a reducing or closing order only reduces. -/
def AppliedFill.ReduceOnly (f : AppliedFill) : Prop :=
  f.effect.opensExposure = false → Reduces f.before f.after

namespace FakeBrokerOperation

open DeterministicFakePaperBroker

variable [ContentHasher] {b : DeterministicFakePaperBroker}

/-- The fill an operation applies: it has moved the position of the symbol of its order. -/
def applied (b : DeterministicFakePaperBroker) (operation : FakeBrokerOperation) :
    Option AppliedFill :=
  (operation.orderId.bind (operation.after b).orders.get?).bind fun order =>
    if (operation.after b).position order.symbol = b.position order.symbol then none
    else some ⟨order.effect, b.position order.symbol, (operation.after b).position order.symbol⟩

theorem applied_of_found {operation : FakeBrokerOperation} {id : String} {order : FakeOrder}
    (hid : operation.orderId = some id)
    (hfound : (operation.after b).orders.get? id = some order) :
    operation.applied b =
      if (operation.after b).position order.symbol = b.position order.symbol then none
      else some ⟨order.effect, b.position order.symbol,
        (operation.after b).position order.symbol⟩ := by
  simp [applied, hid, hfound]

/-- Without a change of a position nothing is applied. -/
theorem applied_of_keeps {operation : FakeBrokerOperation}
    (h : ∀ s, (operation.after b).position s = b.position s) : operation.applied b = none := by
  simp [applied, h]

/-- The fill that moves the position of the order's symbol is the applied one. -/
theorem applied_of_moves {operation : FakeBrokerOperation} {id : String} {order : FakeOrder}
    {fill : Fill} (hid : operation.orderId = some id)
    (hfound : (operation.after b).orders.get? id = some order) (hsymbol : fill.symbol = order.symbol)
    (hmoves : Moves b fill (operation.after b)) :
    operation.applied b = some ⟨order.effect, b.position order.symbol,
      b.position order.symbol + fill.signedQuantity⟩ := by
  have hposition := hmoves.position_symbol
  rw [hsymbol] at hposition
  have hquantity := fill.quantity_pos
  have hchanged : b.position order.symbol + fill.signedQuantity ≠ b.position order.symbol := by
    unfold Fill.signedQuantity
    split_ifs <;> intro h <;> linarith
  rw [applied_of_found hid hfound, hposition, if_neg hchanged]

/-- Every change of a position is the applied fill of the order of that symbol. -/
theorem position_eq_of_applied_none (hw : WellFormed b) {operation : FakeBrokerOperation}
    (h : operation.applied b = none) (symbol : String) :
    (operation.after b).position symbol = b.position symbol := by
  have hwrite := (operation.after_ends hw).write
  generalize hafter : operation.after b = b' at hwrite
  cases hwrite with
  | keeps hposition => exact hposition symbol
  | submits hfits hfields hmoves hfound hsymbol heffect =>
      subst hafter
      have happlied := applied_of_moves rfl hfound (by rw [hsymbol, hfields]; rfl) hmoves
      rw [h] at happlied
      cases happlied
  | delivers hrecord hdelayed hfields hmoves hfound =>
      subst hafter
      have happlied := applied_of_moves rfl hfound (by rw [hfields]; rfl) hmoves
      rw [h] at happlied
      cases happlied

/-! ## One operation -/

/-- A lookup that would fill a pending reduce-only order finds the position on the order's side. -/
def OnItsSide (b : DeterministicFakePaperBroker) : FakeBrokerOperation → Prop
  | lookup id _ => ∀ record, b.orders.get? id = some record → b.IsDelayed id record →
      record.effect.opensExposure = false → OnSide record.side (b.position record.symbol)
  | _ => True

/-- The fill of one operation is reduce-only exactly when the operation meets the condition. -/
theorem reduceOnly_iff (hw : WellFormed b) (operation : FakeBrokerOperation) :
    (∀ f, operation.applied b = some f → f.ReduceOnly) ↔ operation.OnItsSide b := by
  constructor
  · intro h
    cases operation with
    | lookup id observedAt =>
        intro record hrecord hdelayed heffect
        by_cases hcrosses :
            Crosses (b.position record.symbol) (delayedFillFields id record observedAt)
        · -- A fill that would cross zero is refused, and its position is on the order's side.
          exact onSide_of_crosses hcrosses
        · obtain ⟨fill, hfields, hmoves, hfound⟩ :=
            lookup_delivers hw hrecord hdelayed observedAt hcrosses
          have hsymbol : fill.symbol = record.symbol := by rw [hfields]; rfl
          have hside : fill.side = record.side := by rw [hfields]; rfl
          have happlied := @applied_of_moves _ _ (lookup id observedAt) _ _ _ rfl hfound hsymbol hmoves
          have hreduces := h _ happlied heffect
          rw [← hside]
          exact (reduces_iff (by rw [hfields]; exact hcrosses)).1 hreduces
    | setScenario id scenario => trivial
    | setMarkPrices prices => trivial
    | submit intent submittedAt => trivial
    | cancel id canceledAt => trivial
  · intro hguard f hf heffect
    have hwrite := (operation.after_ends hw).write
    generalize hafter : operation.after b = b' at hwrite
    cases hwrite with
    | keeps hposition =>
        subst hafter
        rw [applied_of_keeps hposition] at hf
        cases hf
    | @submits intent _ _ fill _ order hfits hfields hmoves hfound hsymbol horder =>
        subst hafter
        have hfillSymbol : fill.symbol = order.symbol := by rw [hsymbol, hfields]; rfl
        rw [applied_of_moves rfl hfound hfillSymbol hmoves] at hf
        obtain rfl := Option.some.inj hf
        have hcrosses := hmoves.not_crosses
        rw [hfillSymbol] at hcrosses
        have hside : fill.side = intent.positionEffect.sideAndPhase.1 := by
          rw [← intent.validTerms.side_eq, hfields]
          rfl
        rw [horder] at heffect
        rw [← hsymbol] at hfits
        refine (reduces_iff hcrosses).2 ?_
        rw [hside]
        exact PositionEffect.onSide_of_fits heffect hfits
    | @delivers id _ _ fill record hrecord hdelayed hfields hmoves hfound =>
        subst hafter
        have hfillSymbol : fill.symbol = record.symbol := by rw [hfields]; rfl
        have hside : fill.side = record.side := by rw [hfields]; rfl
        rw [applied_of_moves rfl hfound hfillSymbol hmoves] at hf
        obtain rfl := Option.some.inj hf
        have hcrosses := hmoves.not_crosses
        rw [hfillSymbol] at hcrosses
        refine (reduces_iff hcrosses).2 ?_
        rw [hside]
        exact hguard record hrecord hdelayed heffect

end FakeBrokerOperation

/-! ## Runs -/

/-- A broker and the fills it has applied. -/
structure WatchedBroker where
  broker : DeterministicFakePaperBroker
  fills : List AppliedFill

section Runs

variable [ContentHasher]

/-- One call, with its fill noted. -/
def WatchedBroker.next (w : WatchedBroker) (operation : FakeBrokerOperation) : WatchedBroker :=
  ⟨operation.after w.broker, w.fills ++ (operation.applied w.broker).toList⟩

/-- A new broker. -/
def WatchedBroker.IsNew (w : WatchedBroker) : Prop :=
  (∃ initialTime initialCash defaultScenario,
    DeterministicFakePaperBroker.create initialTime initialCash defaultScenario = .ok w.broker) ∧
  w.fills = []

/-- The runs of a broker: any calls in any order. -/
def watchedRuns : Transition WatchedBroker FakeBrokerOperation :=
  Transition.ofFunction WatchedBroker.IsNew WatchedBroker.next

/-- The runs whose lookups find the positions on their side. -/
def sidedRuns : Transition WatchedBroker FakeBrokerOperation :=
  watchedRuns.restrict fun w operation => operation.OnItsSide w.broker

omit [ContentHasher] in
theorem wellFormed_of_isNew {w : WatchedBroker} (h : w.IsNew) : w.broker.WellFormed := by
  obtain ⟨⟨_, _, _, hcreate⟩, -⟩ := h
  simp only [DeterministicFakePaperBroker.create, rejectIf_bind_eq_ok, Except.ok.injEq] at hcreate
  intro id order hget
  rw [← hcreate.2] at hget
  cases hget

theorem wellFormed_of_run {w₀ w : WatchedBroker} {operations : List FakeBrokerOperation}
    (hnew : w₀.IsNew) (hrun : watchedRuns.Run w₀ operations w) : w.broker.WellFormed := by
  refine hrun.preserves (P := fun w => w.broker.WellFormed) ?_ (wellFormed_of_isNew hnew)
  rintro s operation _ hw rfl
  exact (operation.after_ends hw).wellFormed

/-- In a run every fill for a reduce-only order is reduce-only exactly when every lookup that would
deliver one finds the position still on the side the order reduces. -/
theorem reduce_only_iff {w₀ w : WatchedBroker} {operations : List FakeBrokerOperation}
    (hnew : w₀.IsNew) (hrun : watchedRuns.Run w₀ operations w) :
    (∀ f ∈ w.fills, f.ReduceOnly) ↔ sidedRuns.Run w₀ operations w := by
  induction hrun with
  | refl =>
      rw [hnew.2]
      exact ⟨fun _ => Transition.Run.refl, fun _ f hf => by cases hf⟩
  | @snoc ls t u operation hrun hstep ih =>
      have hw := wellFormed_of_run hnew hrun
      obtain rfl : t.next operation = u := hstep
      rw [sidedRuns, Transition.run_snoc_iff]
      constructor
      · intro h
        refine ⟨t, ih.1 fun f hf => h f (List.mem_append_left _ hf), ?_, rfl⟩
        refine (FakeBrokerOperation.reduceOnly_iff hw operation).1 fun f hf => h f ?_
        exact List.mem_append_right _ (by rw [hf]; exact List.mem_singleton_self f)
      · rintro ⟨t', hrun', hguard, -⟩ f hf
        -- The calls determine the broker, so the restricted run passes through the same one.
        obtain rfl : t' = t := by
          have hsame := Transition.run_ofFunction_iff.1 hrun'.of_restrict
          exact hsame.symm.trans (Transition.run_ofFunction_iff.1 hrun)
        rcases List.mem_append.1 hf with hbefore | hnow
        · exact ih.2 hrun' f hbefore
        · refine (FakeBrokerOperation.reduceOnly_iff hw operation).2 hguard f ?_
          simpa [Option.mem_toList] using hnow

end Runs

section Sample

local instance : ContentHasher := polynomialHasher

/-- An intent for ten shares at a price of one hundred. -/
def tenShares (clientOrderId : String) (effect : PositionEffect) (sequence : Nat) :
    OrderIntentFields where
  executionPlanId := "execution_" ++ String.ofList (List.replicate 64 'a')
  riskDecisionId := "decision"
  experimentHash := String.ofList (List.replicate 64 'a')
  correlationId := "correlation"
  symbol := "SPY"
  side := effect.sideAndPhase.1
  positionEffect := effect
  phase := effect.sideAndPhase.2
  sequence := sequence
  targetVersion := 1
  quantity := 10
  referencePrice := 100
  finalTargetQuantity := 0
  forcedFlat := false
  createdAt := 0
  deadlineAt := 1000
  targetHash := String.ofList (List.replicate 64 'a')
  clientOrderId := clientOrderId

def sampleOpen : OrderIntent :=
  ⟨tenShares "aqa-aaaaa-aaaaa-SPY-e-00-1-aaaaaa" .openLong 0, by decide +kernel⟩

def sampleClose : OrderIntent :=
  ⟨tenShares "aqa-aaaaa-aaaaa-SPY-x-01-1-aaaaaa" .closeLong 1, by decide +kernel⟩

def sampleCloseAgain : OrderIntent :=
  ⟨tenShares "aqa-aaaaa-aaaaa-SPY-x-02-1-aaaaaa" .closeLong 2, by decide +kernel⟩

def sampleBroker : DeterministicFakePaperBroker where
  cash := 100000
  initialCash := 100000
  initialTime := 0
  restrictedBySymbol := .empty
  positionTable := .empty
  marks := .empty
  orders := .empty
  fillTable := .empty
  fillSequences := .empty
  scenarios := .empty
  defaultScenario := .fullFill
  eventSequence := 0
  observedAt := 0

theorem isNew_sampleBroker : WatchedBroker.IsNew ⟨sampleBroker, []⟩ :=
  ⟨⟨0, 100000, .fullFill, rfl⟩, rfl⟩

/-- The pending order is looked up while the position is still there. -/
def deliveredInTime : List FakeBrokerOperation :=
  [.submit sampleOpen 1, .setScenario sampleClose.clientOrderId .delayedUpdate,
    .submit sampleClose 2, .lookup sampleClose.clientOrderId 3]

/-- Another order closes the position before the pending one is looked up. -/
def deliveredLate : List FakeBrokerOperation :=
  [.submit sampleOpen 1, .setScenario sampleClose.clientOrderId .delayedUpdate,
    .submit sampleClose 2, .submit sampleCloseAgain 3, .lookup sampleClose.clientOrderId 4]

theorem fills_deliveredInTime : (deliveredInTime.foldl WatchedBroker.next ⟨sampleBroker, []⟩).fills =
    [⟨.openLong, 0, 10⟩, ⟨.closeLong, 10, 0⟩] := by
  decide +kernel

theorem fills_deliveredLate : (deliveredLate.foldl WatchedBroker.next ⟨sampleBroker, []⟩).fills =
    [⟨.openLong, 0, 10⟩, ⟨.closeLong, 10, 0⟩, ⟨.closeLong, 0, -10⟩] := by
  decide +kernel

/-- The late fill of the pending order opens a short position of ten shares. -/
theorem delayed_close_opens_short :
    ∃ w, WatchedBroker.IsNew ⟨sampleBroker, []⟩ ∧
      watchedRuns.Run ⟨sampleBroker, []⟩ deliveredLate w ∧
      ∃ f ∈ w.fills, f.effect = .closeLong ∧ f.before = 0 ∧ f.after = -10 ∧ ¬ f.ReduceOnly := by
  refine ⟨_, isNew_sampleBroker, Transition.run_ofFunction_iff.2 rfl, ⟨.closeLong, 0, -10⟩, ?_, rfl,
    rfl, rfl, ?_⟩
  · rw [fills_deliveredLate]
    simp
  · intro h
    have hle := (h rfl).1
    norm_num at hle

/-- The fill in time is reduce-only. -/
theorem delayed_close_in_time :
    WatchedBroker.IsNew ⟨sampleBroker, []⟩ ∧
      sidedRuns.Run ⟨sampleBroker, []⟩ deliveredInTime
        (deliveredInTime.foldl WatchedBroker.next ⟨sampleBroker, []⟩) := by
  refine ⟨isNew_sampleBroker,
    (reduce_only_iff isNew_sampleBroker (Transition.run_ofFunction_iff.2 rfl)).1 ?_⟩
  intro f hf
  rw [fills_deliveredInTime] at hf
  rcases List.mem_cons.1 hf with rfl | hclose
  · intro hopens
    cases hopens
  · obtain rfl := List.mem_singleton.1 hclose
    intro _
    rw [Reduces]
    norm_num

end Sample

end AdaptiveTrader
