import AdaptiveTrader.Execution.ReduceOnly

/-!
# The accounts of the fake broker

A call on the broker applies at most one fill (`appliedFill`), and apart from it leaves cash,
positions, restricted proceeds and fills alone (`after_booked`). So the accounts of a run are sums
over its applied fills. The fills of a run belong to different orders: an order that has been filled
is no longer pending and never becomes pending again.

Restricted proceeds accompany exactly the short positions. A purchase against a short position
releases the share of it that it covers, which leaves something until the position is closed
(`restrictedMatches_applyFill`).

`fake_broker_accounting` collects the accounts. The execution ID of an order is a digest of its client
order ID; that each ID is applied once supposes that the digests of the filled orders do not collide.
-/

set_option autoImplicit false

namespace AdaptiveTrader

open Foundation

/-- The quantity that a scenario fills at once. -/
def FakeBrokerScenario.filledQuantity (scenario : FakeBrokerScenario) (quantity : ℚ) : Option ℚ :=
  match scenario with
  | .fullFill | .duplicateExecutionUpdate => some quantity
  | .partialFill => some (partialQuantity quantity)
  | _ => none

/-- The change of cash a fill makes. -/
def Fill.cashFlow (f : Fill) : ℚ :=
  match f.side with
  | .sell => f.quantity * f.price - f.fee
  | .buy => -(f.quantity * f.price + f.fee)

namespace DeterministicFakePaperBroker

/-! ## Reports -/

/-- `self._marks.get(symbol, Decimal(0))`. -/
def mark (b : DeterministicFakePaperBroker) (symbol : String) : ℚ := (b.marks.get? symbol).getD 0

/-- Symbol and quantity of each position `positions` returns. -/
def positions (b : DeterministicFakePaperBroker) : List (String × ℚ) :=
  (sortedBy Prod.fst b.positionTable.entries).filter fun e => e.2 ≠ 0

/-- `INITIAL_ACCOUNT_ID`. -/
def initialAccountId : String := "fake-paper-account-v1"

/-- `account`. -/
def account (b : DeterministicFakePaperBroker) (observedAt : Instant) :
    Except PlatformError AccountState :=
  validated AccountStateFields.check
    { accountId := initialAccountId
      cash := b.cash
      equity := b.cash + (b.positionTable.entries.map fun e => e.2 * b.mark e.1).sum
      buyingPower := max 0 (b.cash - b.restrictedBySymbol.values.sum)
      restrictedShortProceeds := b.restrictedBySymbol.values.sum
      observedAt := observedAt }
    fun h => ⟨_, h⟩

/-! ## Books -/

/-- Cash, positions, restricted proceeds and fills are the same. -/
structure SameBooks (b b' : DeterministicFakePaperBroker) : Prop where
  cash : b'.cash = b.cash
  initialCash : b'.initialCash = b.initialCash
  positionTable : b'.positionTable = b.positionTable
  restrictedBySymbol : b'.restrictedBySymbol = b.restrictedBySymbol
  fillTable : b'.fillTable = b.fillTable

theorem SameBooks.refl (b : DeterministicFakePaperBroker) : SameBooks b b :=
  ⟨rfl, rfl, rfl, rfl, rfl⟩

theorem SameBooks.position_eq {b b' : DeterministicFakePaperBroker} (h : SameBooks b b')
    (symbol : String) : b'.position symbol = b.position symbol := by
  rw [position, position, h.positionTable]

/-- The books after a fill, or the same books without one. -/
inductive Booked (b : DeterministicFakePaperBroker) :
    Option Fill → DeterministicFakePaperBroker → Prop
  | same {b' : DeterministicFakePaperBroker} : SameBooks b b' → Booked b none b'
  | applied {f : Fill} {start applied b' : DeterministicFakePaperBroker} (n : Nat) :
      SameBooks b start → start.applyFill f = .ok applied → SameBooks (applied.recordFill f n) b' →
      Booked b (some f) b'

/-! ## Restricted proceeds -/

/-- Restricted proceeds are kept exactly for short positions, and they are positive. -/
def RestrictedMatches (b : DeterministicFakePaperBroker) : Prop :=
  ∀ symbol, (b.position symbol < 0 → ∃ r, b.restrictedBySymbol.get? symbol = some r ∧ 0 < r) ∧
    (¬ b.position symbol < 0 → b.restrictedBySymbol.get? symbol = none)

theorem restrictedBySymbol_settle (b : DeterministicFakePaperBroker) (symbol : String) (updated : ℚ)
    (s : String) : (b.settle symbol updated).restrictedBySymbol.get? s =
      if updated = 0 ∧ s = symbol then none else b.restrictedBySymbol.get? s := by
  unfold settle
  split_ifs with hzero hboth hboth
  · simp [Dict.get?_erase, hboth.2]
  · have hs : s ≠ symbol := fun hs => hboth ⟨hzero, hs⟩
    simp [Dict.get?_erase, hs]
  · exact absurd hboth.1 hzero
  · rfl

/-- A write that leaves every symbol but one alone keeps the correspondence on the others. -/
theorem RestrictedMatches.settle {b b' : DeterministicFakePaperBroker} (h : RestrictedMatches b)
    {symbol : String} {updated : ℚ} (hpositions : ∀ s, s ≠ symbol → b'.position s = b.position s)
    (hothers : ∀ s, s ≠ symbol → b'.restrictedBySymbol.get? s = b.restrictedBySymbol.get? s)
    (hshort : updated < 0 → ∃ r, b'.restrictedBySymbol.get? symbol = some r ∧ 0 < r)
    (hlong : 0 < updated → b'.restrictedBySymbol.get? symbol = none) :
    RestrictedMatches (b'.settle symbol updated) := by
  intro s
  rw [position_settle, restrictedBySymbol_settle]
  by_cases hs : s = symbol
  · subst hs
    simp only [if_true, and_true]
    rcases lt_trichotomy updated 0 with hneg | hzero | hpos
    · exact ⟨fun _ => by rw [if_neg hneg.ne]; exact hshort hneg, fun hnot => absurd hneg hnot⟩
    · exact ⟨fun hneg => absurd hneg (by rw [hzero]; exact lt_irrefl _), fun _ => if_pos hzero⟩
    · exact ⟨fun hneg => absurd hneg (not_lt.2 hpos.le), fun _ => by
        rw [if_neg hpos.ne']
        exact hlong hpos⟩
  · simp only [if_neg hs, if_neg fun hboth : updated = 0 ∧ s = symbol => hs hboth.2]
    rw [hpositions s hs, hothers s hs]
    exact h s

/-- A fill that does not cross zero keeps the restricted proceeds in step with the positions. -/
theorem restrictedMatches_applyFill {b b' : DeterministicFakePaperBroker} {f : Fill}
    (h : RestrictedMatches b) (happly : b.applyFill f = .ok b') : RestrictedMatches b' := by
  have hcrosses := applyFill_isOk_iff.1 ⟨b', happly⟩
  have hquantity := f.quantity_pos
  have hnotional : 0 < f.quantity * f.price := mul_pos hquantity f.wellFormed.2.2.1
  obtain ⟨hshort, hlong⟩ := h f.symbol
  unfold applyFill at happly
  cases hside : f.side with
  | sell =>
      simp only [Crosses, hside, not_and, not_lt] at hcrosses
      simp only [hside, rejectIf_bind_eq_ok, Except.ok.injEq] at happly
      obtain ⟨-, rfl⟩ := happly
      refine h.settle (fun _ _ => rfl) (fun s hs => ?_) (fun hneg => ?_) fun hpos => ?_
      · dsimp only [restrictedAfterSell]
        split_ifs
        · exact Dict.get?_set_of_ne _ _ hs
        · rfl
      · -- A sale that ends below zero started at or below it, so its proceeds are restricted.
        have hcurrent : b.position f.symbol ≤ 0 := by
          by_contra hpos
          linarith [hcrosses (not_le.1 hpos)]
        dsimp only [restrictedAfterSell]
        rw [if_pos hcurrent, Dict.get?_set_self]
        refine ⟨_, rfl, ?_⟩
        by_cases hneg' : b.position f.symbol < 0
        · obtain ⟨r, hr, hrpos⟩ := hshort hneg'
          rw [restricted, hr, Option.getD_some]
          exact add_pos hrpos hnotional
        · rw [restricted, hlong hneg', Option.getD_none, zero_add]
          exact hnotional
      · have hcurrent : 0 < b.position f.symbol := by linarith
        dsimp only [restrictedAfterSell]
        rw [if_neg (not_le.2 hcurrent)]
        exact hlong (not_lt.2 hcurrent.le)
  | buy =>
      simp only [Crosses, hside, not_and, not_lt] at hcrosses
      simp only [hside, rejectIf_bind_eq_ok, Except.ok.injEq] at happly
      obtain ⟨-, rfl⟩ := happly
      refine h.settle (fun _ _ => rfl) (fun s hs => ?_) (fun hneg => ?_) fun hpos => ?_
      · dsimp only [restrictedAfterBuy]
        split_ifs
        · rw [Dict.get?_erase, if_neg hs]
        · exact Dict.get?_set_of_ne _ _ hs
        · rfl
      · have hcurrent : b.position f.symbol < 0 := by linarith
        obtain ⟨r, hr, hrpos⟩ := hshort hcurrent
        have habs : |b.position f.symbol| = -b.position f.symbol := abs_of_neg hcurrent
        -- A partial cover releases less than everything.
        have hshare : f.quantity / |b.position f.symbol| < 1 := by
          rw [habs, div_lt_one (by linarith)]
          linarith
        have hremainder : 0 < r - r * (f.quantity / |b.position f.symbol|) := by
          have hreleased := mul_lt_mul_of_pos_left hshare hrpos
          linarith
        dsimp only [restrictedAfterBuy]
        rw [if_pos hcurrent, restricted, hr, Option.getD_some, max_eq_right hremainder.le,
          if_neg hremainder.ne', Dict.get?_set_self]
        exact ⟨_, rfl, hremainder⟩
      · have hcurrent : ¬ b.position f.symbol < 0 := by
          intro hneg
          have hle := hcrosses hneg
          rw [abs_of_neg hneg] at hle
          linarith
        dsimp only [restrictedAfterBuy]
        rw [if_neg hcurrent]
        exact hlong hcurrent

/-- What a fill leaves in cash and in the fills. -/
theorem applyFill_books {b b' : DeterministicFakePaperBroker} {f : Fill}
    (happly : b.applyFill f = .ok b') :
    b'.cash = b.cash + f.cashFlow ∧ b'.initialCash = b.initialCash ∧ b'.fillTable = b.fillTable := by
  have hsettle : ∀ (c : DeterministicFakePaperBroker) (s : String) (q : ℚ),
      (c.settle s q).cash = c.cash ∧ (c.settle s q).initialCash = c.initialCash ∧
        (c.settle s q).fillTable = c.fillTable := by
    intro c s q
    unfold settle
    split_ifs <;> exact ⟨rfl, rfl, rfl⟩
  unfold applyFill at happly
  cases hside : f.side with
  | sell =>
      simp only [hside, rejectIf_bind_eq_ok, Except.ok.injEq] at happly
      obtain ⟨-, rfl⟩ := happly
      rw [(hsettle _ _ _).1, (hsettle _ _ _).2.1, (hsettle _ _ _).2.2, Fill.cashFlow, hside]
      exact ⟨rfl, rfl, rfl⟩
  | buy =>
      simp only [hside, rejectIf_bind_eq_ok, Except.ok.injEq] at happly
      obtain ⟨-, rfl⟩ := happly
      rw [(hsettle _ _ _).1, (hsettle _ _ _).2.1, (hsettle _ _ _).2.2, Fill.cashFlow, hside,
        ← sub_eq_add_neg]
      exact ⟨rfl, rfl, rfl⟩

/-! ## Calls -/

variable [ContentHasher]

/-- The execution ID of the one fill that a client order ID has. -/
def executionId (clientOrderId : String) : String := derivedId "fake_execution" clientOrderId 1

/-- An order that is no longer pending. -/
def Settled (b : DeterministicFakePaperBroker) (clientOrderId : String) : Prop :=
  ∃ order, b.orders.get? clientOrderId = some order ∧ order.state ≠ .pending

/-- What one call does: at most one fill, of an order that is settled by it. -/
structure Called (b b' : DeterministicFakePaperBroker) (filled : Option Fill) : Prop where
  booked : Booked b filled b'
  settled : ∀ id, b.Settled id → b'.Settled id
  filled_settled : ∀ f ∈ filled, f.fee = 0 ∧ f.brokerExecutionId = executionId f.clientOrderId ∧
    ¬ b.Settled f.clientOrderId ∧ b'.Settled f.clientOrderId

omit [ContentHasher] in
theorem settled_of_set {b b' : DeterministicFakePaperBroker} {id : String} {order : FakeOrder}
    (horders : b'.orders = b.orders.set id order) (hstate : b.Settled id → order.state ≠ .pending)
    {k : String} (hk : b.Settled k) : b'.Settled k := by
  obtain ⟨o, ho, hpending⟩ := hk
  by_cases hkey : k = id
  · refine ⟨order, by rw [horders, hkey, Dict.get?_set_self], hstate ?_⟩
    exact ⟨o, hkey ▸ ho, hpending⟩
  · exact ⟨o, by rw [horders, Dict.get?_set_of_ne _ _ hkey, ho], hpending⟩

omit [ContentHasher] in
theorem not_settled_of_new {b : DeterministicFakePaperBroker} {id : String}
    (hnew : b.orders.get? id = none) : ¬ b.Settled id := by
  rintro ⟨o, ho, -⟩
  rw [hnew] at ho
  cases ho

/-- A call that leaves the books alone. -/
theorem Called.same {b b' : DeterministicFakePaperBroker} (hbooks : SameBooks b b')
    (hsettled : ∀ id, b.Settled id → b'.Settled id) : Called b b' none :=
  ⟨.same hbooks, hsettled, fun f hf => by cases hf⟩

theorem Called.refl (b : DeterministicFakePaperBroker) : Called b b none :=
  .same (SameBooks.refl b) fun _ h => h

/-- A new order in any state leaves the books alone. -/
theorem Called.of_new {b b' : DeterministicFakePaperBroker} {id : String} {order : FakeOrder}
    (hnew : b.orders.get? id = none) (horders : b'.orders = b.orders.set id order)
    (hbooks : SameBooks b b') : Called b b' none :=
  .same hbooks fun _ hk =>
    settled_of_set horders (fun h => absurd h (not_settled_of_new hnew)) hk

omit [ContentHasher] in
/-- A fill keeps its fields, and the orders as they are. -/
theorem fill_booked {b b' : DeterministicFakePaperBroker} {fields : FillFields} {n : Nat} {f : Fill}
    (h : b.fill fields n = .ok (f, b')) :
    f.toFillFields = fields ∧ b'.orders = b.orders ∧
      ∃ applied, b.applyFill f = .ok applied ∧ b' = applied.recordFill f n := by
  obtain ⟨hfields, -, horders⟩ := fill_spec h
  simp only [fill, bind_eq_ok, pure_eq_ok, Prod.mk.injEq] at h
  obtain ⟨f', -, applied, happlied, rfl, rfl⟩ := h
  exact ⟨hfields, horders, applied, happlied, rfl⟩

/-- The fill of an accepted intent, if it is not refused. -/
def acceptedFill (b : DeterministicFakePaperBroker) (intent : OrderIntent) (submittedAt : Instant)
    (quantity : ℚ) : Option Fill :=
  ((b.accept intent submittedAt).fill (fillFields intent.clientOrderId intent.symbol intent.side
    quantity intent.referencePrice submittedAt)
    (b.accept intent submittedAt).eventSequence).toOption.map Prod.fst

/-- The delayed fill of a pending order, if it is not refused. -/
def delayedFill (b : DeterministicFakePaperBroker) (clientOrderId : String) (record : FakeOrder)
    (observedAt : Instant) : Option Fill :=
  ({ b with eventSequence := b.eventSequence + 1 }.fill
    (delayedFillFields clientOrderId record observedAt) (b.eventSequence + 1)).toOption.map Prod.fst

theorem filling_called {b : DeterministicFakePaperBroker} {intent : OrderIntent}
    {submittedAt : Instant} (hnew : b.orders.get? intent.clientOrderId = none) (quantity : ℚ)
    (twice : Bool) :
    Called b (filling intent submittedAt quantity twice (b.acceptedOrder intent submittedAt)
      (b.accept intent submittedAt)).2 (b.acceptedFill intent submittedAt quantity) := by
  unfold filling acceptedFill
  cases hfill : (b.accept intent submittedAt).fill (fillFields intent.clientOrderId intent.symbol
      intent.side quantity intent.referencePrice submittedAt)
      (b.accept intent submittedAt).eventSequence with
  | error e => exact Called.of_new hnew rfl ⟨rfl, rfl, rfl, rfl, rfl⟩
  | ok filled =>
      obtain ⟨f, filled⟩ := filled
      obtain ⟨hfields, horders, applied, happlied, rfl⟩ := fill_booked hfill
      have hid : f.clientOrderId = intent.clientOrderId := by rw [hfields]; rfl
      have hset : Settled (respond intent.clientOrderId
          { b.acceptedOrder intent submittedAt with
            cumulativeFilledQuantity := quantity
            averageFillPrice := some intent.referencePrice
            state := if quantity = intent.quantity then .filled else .partiallyFilled }
          submittedAt (if twice then [f, f] else [f]) false
          (applied.recordFill f (b.accept intent submittedAt).eventSequence)).2
            intent.clientOrderId := by
        refine ⟨_, Dict.get?_set_self _ _ _, ?_⟩
        dsimp only
        split_ifs <;> decide
      have hstart : SameBooks b (b.accept intent submittedAt) := ⟨rfl, rfl, rfl, rfl, rfl⟩
      refine ⟨.applied b.eventSequence.succ hstart happlied ⟨rfl, rfl, rfl, rfl, rfl⟩,
        fun k hk => ?_, fun g hg => ?_⟩
      · obtain ⟨o, ho, hpending⟩ := hk
        have hkey : k ≠ intent.clientOrderId := by
          rintro rfl
          rw [hnew] at ho
          cases ho
        refine ⟨o, ?_, hpending⟩
        show (Dict.set (applied.recordFill f _).orders _ _).get? k = some o
        rw [Dict.get?_set_of_ne _ _ hkey, horders]
        show (b.orders.set _ _).get? k = some o
        rw [Dict.get?_set_of_ne _ _ hkey, ho]
      · obtain rfl : f = g := Option.some.inj hg
        refine ⟨by rw [hfields]; rfl, by rw [hfields]; rfl, ?_, ?_⟩
        · rw [hid]
          exact not_settled_of_new hnew
        · rw [hid]
          exact hset

/-- The fill a first submission applies. -/
def submittedFill (b : DeterministicFakePaperBroker) (intent : OrderIntent) (submittedAt : Instant)
    (scenario : FakeBrokerScenario) : Option Fill :=
  match b.validateEffect intent with
  | .error _ => none
  | .ok () => (scenario.filledQuantity intent.quantity).bind (b.acceptedFill intent submittedAt)

theorem accepting_called {b : DeterministicFakePaperBroker} {intent : OrderIntent}
    {submittedAt : Instant}
    {next : FakeOrder → Exec DeterministicFakePaperBroker PlatformError (BrokerUpdate × Bool)}
    {filled : Option Fill}
    (hnext : Called b (next (b.acceptedOrder intent submittedAt) (b.accept intent submittedAt)).2
      filled) :
    Called b (accepting intent submittedAt next b).2
      (match b.validateEffect intent with
        | .error _ => none
        | .ok () => filled) := by
  unfold accepting
  cases b.validateEffect intent with
  | error e => exact Called.refl b
  | ok u => exact hnext

theorem submitNew_called {b : DeterministicFakePaperBroker} {intent : OrderIntent}
    (hnew : b.orders.get? intent.clientOrderId = none) (submittedAt : Instant)
    (scenario : FakeBrokerScenario) :
    Called b (submitNew intent submittedAt scenario b).2
      (b.submittedFill intent submittedAt scenario) := by
  have hkept : ∀ (order : FakeOrder) (fills : List Fill), Called b (respond intent.clientOrderId
      order submittedAt fills false (b.accept intent submittedAt)).2 none := by
    intro order fills
    refine .same ⟨rfl, rfl, rfl, rfl, rfl⟩ fun k hk => ?_
    obtain ⟨o, ho, hpending⟩ := hk
    have hkey : k ≠ intent.clientOrderId := by
      rintro rfl
      rw [hnew] at ho
      cases ho
    refine ⟨o, ?_, hpending⟩
    show ((b.orders.set _ _).set _ _).get? k = some o
    rw [Dict.get?_set_of_ne _ _ hkey, Dict.get?_set_of_ne _ _ hkey, ho]
  have hrefused : Called b b (match b.validateEffect intent with
      | .error _ => none
      | .ok () => none) := by
    cases b.validateEffect intent <;> exact Called.refl b
  unfold submittedFill
  cases scenario with
  | disconnect => exact hrefused
  | timeoutBeforeAcceptance => exact hrefused
  | staleAccountState => exact hrefused
  | staleSecurityMetadata => exact hrefused
  | shortabilityChange => exact hrefused
  | timeoutAfterAcceptance =>
      exact accepting_called (Called.of_new hnew rfl ⟨rfl, rfl, rfl, rfl, rfl⟩)
  | rejection => exact accepting_called (hkept _ _)
  | cancellation => exact accepting_called (hkept _ _)
  | expiration => exact accepting_called (hkept _ _)
  | delayedUpdate => exact accepting_called (hkept _ _)
  | fullFill => exact accepting_called (filling_called hnew _ _)
  | duplicateExecutionUpdate => exact accepting_called (filling_called hnew _ _)
  | partialFill => exact accepting_called (filling_called hnew _ _)

theorem lookup_called {b : DeterministicFakePaperBroker} {id : String} {record : FakeOrder}
    (hrecord : b.orders.get? id = some record) (observedAt : Instant) :
    Called b (lookup id observedAt b).2
      (if b.IsDelayed id record then b.delayedFill id record observedAt else none) := by
  unfold lookup
  simp only [hrecord]
  split_ifs with hdelayed
  · unfold delayedFill
    cases hfill : ({ b with eventSequence := b.eventSequence + 1 } :
        DeterministicFakePaperBroker).fill (delayedFillFields id record observedAt)
        (b.eventSequence + 1) with
    | error e => exact Called.same ⟨rfl, rfl, rfl, rfl, rfl⟩ fun _ h => h
    | ok filled =>
        obtain ⟨f, filled⟩ := filled
        obtain ⟨hfields, horders, applied, happlied, rfl⟩ := fill_booked hfill
        have hid : f.clientOrderId = id := by rw [hfields]; rfl
        have hstart : SameBooks b { b with eventSequence := b.eventSequence + 1 } :=
          ⟨rfl, rfl, rfl, rfl, rfl⟩
        have hset : ∀ b' : DeterministicFakePaperBroker,
            b'.orders = b.orders.set id (b.filledOrder id record observedAt) →
              ∀ k, b.Settled k → b'.Settled k := fun b' horders' k hk =>
          settled_of_set horders' (fun _ => by simp [filledOrder]) hk
        refine ⟨.applied b.eventSequence.succ hstart happlied ⟨rfl, rfl, rfl, rfl, rfl⟩, hset _ ?_,
          fun g hg => ?_⟩
        · show Dict.set (applied.recordFill f _).orders _ _ = _
          rw [horders]
        · obtain rfl : f = g := Option.some.inj hg
          refine ⟨by rw [hfields]; rfl, by rw [hfields]; rfl, ?_, ?_⟩
          · rw [hid]
            rintro ⟨o, ho, hpending⟩
            obtain rfl : record = o := Option.some.inj (hrecord.symm.trans ho)
            exact hpending hdelayed.1
          · rw [hid]
            exact ⟨_, Dict.get?_set_self _ _ _, by simp [filledOrder]⟩
  · exact Called.refl b

end DeterministicFakePaperBroker

namespace FakeBrokerOperation

open DeterministicFakePaperBroker

variable [ContentHasher] {b : DeterministicFakePaperBroker}

/-- The fill a call applies. -/
def appliedFill (b : DeterministicFakePaperBroker) : FakeBrokerOperation → Option Fill
  | submit intent submittedAt =>
      match b.orders.get? intent.clientOrderId with
      | some _ => none
      | none => b.submittedFill intent submittedAt (b.scenarioOf intent.clientOrderId)
  | lookup id observedAt =>
      match b.orders.get? id with
      | none => none
      | some record =>
          if b.IsDelayed id record then b.delayedFill id record observedAt else none
  | setScenario _ _ => none
  | setMarkPrices _ => none
  | cancel _ _ => none

/-- A call applies its fill and does nothing else to the books. -/
theorem after_called (operation : FakeBrokerOperation) :
    Called b (operation.after b) (operation.appliedFill b) := by
  cases operation with
  | setScenario id scenario => exact Called.same ⟨rfl, rfl, rfl, rfl, rfl⟩ fun _ h => h
  | setMarkPrices prices =>
      rw [after, appliedFill]
      cases hset : b.setMarkPrices prices with
      | error e => exact Called.refl b
      | ok b' =>
          simp only [DeterministicFakePaperBroker.setMarkPrices, rejectIf_bind_eq_ok,
            Except.ok.injEq] at hset
          obtain ⟨-, -, rfl⟩ := hset
          exact Called.same ⟨rfl, rfl, rfl, rfl, rfl⟩ fun _ h => h
  | submit intent submittedAt =>
      rw [after, DeterministicFakePaperBroker.submit, appliedFill]
      cases hfound : b.orders.get? intent.clientOrderId with
      | some existing =>
          dsimp only
          split_ifs <;> exact Called.refl b
      | none => exact submitNew_called hfound submittedAt _
  | lookup id observedAt =>
      rw [after, appliedFill]
      cases hfound : b.orders.get? id with
      | none =>
          rw [DeterministicFakePaperBroker.lookup, hfound]
          exact Called.refl b
      | some record => exact lookup_called hfound observedAt
  | cancel id canceledAt =>
      rw [after, DeterministicFakePaperBroker.cancel, appliedFill]
      cases hfound : b.orders.get? id with
      | none => exact Called.refl b
      | some record =>
          dsimp only
          split_ifs with hterminal
          · exact Called.refl b
          · exact Called.same ⟨rfl, rfl, rfl, rfl, rfl⟩ fun k hk =>
              settled_of_set rfl (fun _ => by simp) hk

end FakeBrokerOperation

/-! ## Runs -/

/-- A broker and the fills it has applied, in order. -/
structure AccountedBroker where
  broker : DeterministicFakePaperBroker
  applied : List Fill

/-- The notional of the sells. -/
def soldNotional (fills : List Fill) : ℚ :=
  ((fills.filter fun f => f.side = .sell).map fun f => f.quantity * f.price).sum

/-- The notional and the fees of the buys. -/
def boughtCost (fills : List Fill) : ℚ :=
  ((fills.filter fun f => f.side = .buy).map fun f => f.quantity * f.price + f.fee).sum

/-- The signed quantity of a symbol. -/
def signedTotal (fills : List Fill) (symbol : String) : ℚ :=
  ((fills.filter fun f => f.symbol = symbol).map Fill.signedQuantity).sum

theorem signedTotal_concat (fills : List Fill) (f : Fill) (symbol : String) :
    signedTotal (fills ++ [f]) symbol =
      if symbol = f.symbol then signedTotal fills symbol + f.signedQuantity
      else signedTotal fills symbol := by
  by_cases hs : f.symbol = symbol
  · simp [signedTotal, hs]
  · have hs' : ¬ symbol = f.symbol := fun h => hs h.symm
    simp [signedTotal, hs, hs']

/-- Without a fee on sells, cash moves by the notional and the fees of the buys. -/
theorem notional_concat (fills : List Fill) {f : Fill} (hfee : f.fee = 0) :
    soldNotional (fills ++ [f]) - boughtCost (fills ++ [f]) =
      soldNotional fills - boughtCost fills + f.cashFlow := by
  cases hside : f.side with
  | sell =>
      simp [soldNotional, boughtCost, Fill.cashFlow, hside, hfee]
      ring
  | buy =>
      simp [soldNotional, boughtCost, Fill.cashFlow, hside]
      ring

namespace AccountedBroker

open DeterministicFakePaperBroker

variable [ContentHasher]

/-- One call, with its fill noted. -/
def next (w : AccountedBroker) (operation : FakeBrokerOperation) : AccountedBroker :=
  ⟨operation.after w.broker, w.applied ++ (operation.appliedFill w.broker).toList⟩

omit [ContentHasher] in
/-- A new broker with some initial cash. -/
def IsNew (w : AccountedBroker) : Prop :=
  (∃ initialTime initialCash defaultScenario,
    DeterministicFakePaperBroker.create initialTime initialCash defaultScenario = .ok w.broker) ∧
  w.applied = []

/-- The accounts of a broker as sums over its applied fills, and the orders behind them. -/
structure Accounts (w : AccountedBroker) : Prop where
  cash : w.broker.cash = w.broker.initialCash + (soldNotional w.applied - boughtCost w.applied)
  position : ∀ symbol, w.broker.position symbol = signedTotal w.applied symbol
  restricted : RestrictedMatches w.broker
  executionId : ∀ f ∈ w.applied, f.brokerExecutionId = executionId f.clientOrderId
  settled : ∀ f ∈ w.applied, w.broker.Settled f.clientOrderId
  distinct : (w.applied.map (·.clientOrderId)).Nodup

theorem accounts_of_isNew {w : AccountedBroker} (h : w.IsNew) : w.Accounts := by
  obtain ⟨⟨_, _, _, hcreate⟩, happlied⟩ := h
  simp only [DeterministicFakePaperBroker.create, rejectIf_bind_eq_ok, Except.ok.injEq] at hcreate
  obtain ⟨-, hbroker⟩ := hcreate
  refine ⟨?_, fun symbol => ?_, fun symbol => ?_, fun f hf => ?_, fun f hf => ?_, ?_⟩
  · rw [← hbroker, happlied]
    simp [soldNotional, boughtCost]
  · rw [← hbroker, happlied]
    rfl
  · rw [← hbroker]
    exact ⟨fun hneg => absurd hneg (lt_irrefl (0 : ℚ)), fun _ => rfl⟩
  · rw [happlied] at hf
    cases hf
  · rw [happlied] at hf
    cases hf
  · rw [happlied]
    exact List.nodup_nil

/-- One call keeps the accounts. -/
theorem Accounts.next {w : AccountedBroker} (h : w.Accounts) (operation : FakeBrokerOperation) :
    (w.next operation).Accounts := by
  have hcalled := operation.after_called (b := w.broker)
  unfold AccountedBroker.next
  generalize operation.after w.broker = b' at hcalled ⊢
  generalize operation.appliedFill w.broker = filled at hcalled ⊢
  obtain ⟨hbooked, hsettled, hfilled⟩ := hcalled
  cases hbooked with
  | same hbooks =>
      simp only [Option.toList_none, List.append_nil]
      refine ⟨?_, fun symbol => ?_, fun symbol => ?_, h.executionId,
        fun f hf => hsettled _ (h.settled f hf), h.distinct⟩
      · show b'.cash = b'.initialCash + _
        rw [hbooks.cash, hbooks.initialCash, h.cash]
      · exact (hbooks.position_eq symbol).trans (h.position symbol)
      · show (b'.position symbol < 0 → _) ∧ (¬ b'.position symbol < 0 → _)
        rw [hbooks.position_eq, hbooks.restrictedBySymbol]
        exact h.restricted symbol
  | @applied f start done _ n hstart happly hdone =>
      obtain ⟨hfee, hexecution, hnew, hnow⟩ := hfilled f rfl
      obtain ⟨hcash, hinitial, -⟩ := applyFill_books happly
      have hmoves := (applyFill_spec happly).1
      simp only [Option.toList_some]
      refine ⟨?_, fun symbol => ?_, fun symbol => ?_, fun g hg => ?_, fun g hg => ?_, ?_⟩
      · show b'.cash = b'.initialCash + _
        have hbefore := h.cash
        have hcash' : b'.cash = w.broker.cash + f.cashFlow := by
          rw [hdone.cash, ← hstart.cash]
          exact hcash
        have hinitial' : b'.initialCash = w.broker.initialCash := by
          rw [hdone.initialCash, ← hstart.initialCash]
          exact hinitial
        rw [hcash', hinitial', notional_concat _ hfee, hbefore]
        ring
      · show b'.position symbol = _
        rw [signedTotal_concat, ← h.position, hdone.position_eq]
        have hmoved := hmoves.position_eq symbol
        rw [hstart.position_eq] at hmoved
        exact hmoved
      · have hrestricted : RestrictedMatches start := fun s => by
          rw [hstart.position_eq, hstart.restrictedBySymbol]
          exact h.restricted s
        have hafter := restrictedMatches_applyFill hrestricted happly symbol
        show (b'.position symbol < 0 → _) ∧ (¬ b'.position symbol < 0 → _)
        rw [hdone.position_eq, hdone.restrictedBySymbol]
        exact hafter
      · rcases List.mem_append.1 hg with hold | hadded
        · exact h.executionId g hold
        · rw [List.mem_singleton.1 hadded]
          exact hexecution
      · rcases List.mem_append.1 hg with hold | hadded
        · exact hsettled _ (h.settled g hold)
        · rw [List.mem_singleton.1 hadded]
          exact hnow
      · -- The filled order was not settled before, so it has no earlier fill.
        rw [List.map_append, List.map_singleton, List.nodup_append]
        refine ⟨h.distinct, List.nodup_singleton _, ?_⟩
        intro id hid other hother
        rw [List.mem_singleton.1 hother]
        rintro rfl
        obtain ⟨g, hg, hgid⟩ := List.mem_map.1 hid
        exact hnew (hgid ▸ h.settled g hg)

/-- The fill table lists the applied fills, by their execution IDs. -/
structure Recorded (w : AccountedBroker) : Prop where
  values : w.broker.fillTable.values = w.applied
  keys : w.broker.fillTable.keys = w.applied.map (·.brokerExecutionId)

/-- The digests of the filled orders do not collide. -/
def DistinctDigests (w : AccountedBroker) : Prop :=
  Set.InjOn DeterministicFakePaperBroker.executionId {id | ∃ f ∈ w.applied, f.clientOrderId = id}

theorem DistinctDigests.of_next {w : AccountedBroker} {operation : FakeBrokerOperation}
    (h : (w.next operation).DistinctDigests) : w.DistinctDigests := by
  refine h.mono ?_
  rintro id ⟨f, hf, rfl⟩
  exact ⟨f, List.mem_append_left _ hf, rfl⟩

/-- A call records the fill it applies. -/
theorem Recorded.next {w : AccountedBroker} (h : w.Recorded) (haccounts : w.Accounts)
    {operation : FakeBrokerOperation} (hdigests : (w.next operation).DistinctDigests) :
    (w.next operation).Recorded := by
  have hcalled := operation.after_called (b := w.broker)
  have happliedEq : (w.next operation).applied =
      w.applied ++ (operation.appliedFill w.broker).toList := rfl
  have hbrokerEq : (w.next operation).broker = operation.after w.broker := rfl
  obtain ⟨hbooked, -, hfilled⟩ := hcalled
  generalize operation.after w.broker = b' at hbooked hfilled hbrokerEq
  generalize operation.appliedFill w.broker = filled at hbooked hfilled happliedEq
  cases hbooked with
  | same hbooks =>
      refine ⟨?_, ?_⟩
      · rw [hbrokerEq, happliedEq, hbooks.fillTable, h.values]
        simp
      · rw [hbrokerEq, happliedEq, hbooks.fillTable, h.keys]
        simp
  | @applied f start done _ n hstart happly hdone =>
      obtain ⟨-, hexecution, hnew, -⟩ := hfilled f rfl
      obtain ⟨-, -, htable⟩ := applyFill_books happly
      have hfresh : w.broker.fillTable.get? f.brokerExecutionId = none := by
        rw [← Option.not_isSome_iff_eq_none, Option.isSome_iff_exists, ← Dict.mem_keys_iff, h.keys]
        intro hmem
        obtain ⟨g, hg, hgf⟩ := List.mem_map.1 hmem
        rw [haccounts.executionId g hg, hexecution] at hgf
        -- Equal digests would belong to one order, which this call settles for the first time.
        have hsame : g.clientOrderId = f.clientOrderId := hdigests
          ⟨g, happliedEq ▸ List.mem_append_left _ hg, rfl⟩
          ⟨f, happliedEq ▸ List.mem_append_right _ (List.mem_singleton_self f), rfl⟩ hgf
        exact hnew (hsame ▸ haccounts.settled g hg)
      have hrecorded : b'.fillTable = w.broker.fillTable.set f.brokerExecutionId f := by
        rw [hdone.fillTable]
        show done.fillTable.setdefault f.brokerExecutionId f = _
        rw [htable, hstart.fillTable, Dict.setdefault_of_get?_none hfresh]
      refine ⟨?_, ?_⟩
      · rw [hbrokerEq, happliedEq, hrecorded, Dict.values_set_of_get?_none hfresh, h.values]
        rfl
      · rw [hbrokerEq, happliedEq, hrecorded, Dict.keys_set_of_get?_none hfresh, h.keys]
        simp

/-- The runs of a broker: any calls in any order. -/
def runs : Transition AccountedBroker FakeBrokerOperation :=
  Transition.ofFunction IsNew next

theorem accounts_of_run {w₀ w : AccountedBroker} {operations : List FakeBrokerOperation}
    (hnew : w₀.IsNew) (hrun : runs.Run w₀ operations w) : w.Accounts := by
  refine hrun.preserves (P := Accounts) ?_ (accounts_of_isNew hnew)
  rintro s operation _ hs rfl
  exact hs.next operation

theorem recorded_of_run {w₀ w : AccountedBroker} {operations : List FakeBrokerOperation}
    (hnew : w₀.IsNew) (hrun : runs.Run w₀ operations w) (hdigests : w.DistinctDigests) :
    w.Recorded := by
  induction hrun with
  | refl =>
      obtain ⟨⟨_, _, _, hcreate⟩, happlied⟩ := hnew
      simp only [DeterministicFakePaperBroker.create, rejectIf_bind_eq_ok, Except.ok.injEq] at hcreate
      obtain ⟨-, hbroker⟩ := hcreate
      exact ⟨by rw [← hbroker, happlied]; rfl, by rw [← hbroker, happlied]; rfl⟩
  | @snoc ls t u operation hrun hstep ih =>
      obtain rfl : t.next operation = u := hstep
      exact (ih hdigests.of_next).next (accounts_of_run hnew hrun) hdigests

/-- The initial cash never changes. -/
theorem initialCash_of_run {w₀ w : AccountedBroker} {operations : List FakeBrokerOperation}
    (hrun : runs.Run w₀ operations w) : w.broker.initialCash = w₀.broker.initialCash := by
  refine hrun.preserves (P := fun w => w.broker.initialCash = w₀.broker.initialCash) ?_ rfl
  rintro s operation _ hs rfl
  have hcalled := (operation.after_called (b := s.broker)).booked
  show (operation.after s.broker).initialCash = _
  generalize operation.after s.broker = b' at hcalled
  generalize operation.appliedFill s.broker = filled at hcalled
  cases hcalled with
  | same hbooks => rw [hbooks.initialCash, hs]
  | applied n hstart happly hdone =>
      rw [hdone.initialCash]
      exact (applyFill_books happly).2.1.trans (hstart.initialCash.trans hs)

end AccountedBroker

/-! ## The account -/

namespace DeterministicFakePaperBroker

variable {b : DeterministicFakePaperBroker}

/-- The positions reported are those that are not zero. -/
theorem mem_positions {symbol : String} {quantity : ℚ} :
    (symbol, quantity) ∈ b.positions ↔ b.position symbol = quantity ∧ quantity ≠ 0 := by
  simp only [positions, List.mem_filter, mem_sortedBy, Dict.mem_entries_iff, decide_eq_true_eq]
  constructor
  · rintro ⟨hget, hne⟩
    exact ⟨by rw [position, hget, Option.getD_some], hne⟩
  · rintro ⟨hposition, hne⟩
    refine ⟨?_, hne⟩
    rw [position] at hposition
    cases hget : b.positionTable.get? symbol with
    | none =>
        rw [hget, Option.getD_none] at hposition
        exact absurd hposition.symm hne
    | some q =>
        rw [hget, Option.getD_some] at hposition
        rw [hposition]

theorem sum_filter_ne_zero (l : List (String × ℚ)) (f : String → ℚ) :
    ((l.filter fun e => e.2 ≠ 0).map fun e => e.2 * f e.1).sum = (l.map fun e => e.2 * f e.1).sum := by
  induction l with
  | nil => rfl
  | cons e rest ih =>
      by_cases he : e.2 = 0
      · rw [List.filter_cons_of_neg (by simpa using he), List.map_cons, List.sum_cons, he, zero_mul,
          zero_add, ih]
      · rw [List.filter_cons_of_pos (by simpa using he), List.map_cons, List.sum_cons, List.map_cons,
          List.sum_cons, ih]

theorem RestrictedMatches.sum_nonneg (h : RestrictedMatches b) :
    0 ≤ b.restrictedBySymbol.values.sum := by
  refine List.sum_nonneg fun r hr => ?_
  obtain ⟨symbol, hget⟩ := Dict.mem_values_iff.1 hr
  by_cases hneg : b.position symbol < 0
  · obtain ⟨r', hr', hpos⟩ := (h symbol).1 hneg
    obtain rfl : r' = r := Option.some.inj (hr'.symm.trans hget)
    exact hpos.le
  · rw [(h symbol).2 hneg] at hget
    cases hget

/-- The account is reported, and its equity is cash plus positions times marks. -/
theorem account_spec (h : RestrictedMatches b) (observedAt : Instant) :
    ∃ account, b.account observedAt = .ok account ∧ account.cash = b.cash ∧
      account.equity = b.cash + (b.positions.map fun p => p.2 * b.mark p.1).sum := by
  have hsum := h.sum_nonneg
  have hcheck : AccountStateFields.check
      { accountId := initialAccountId
        cash := b.cash
        equity := b.cash + (b.positionTable.entries.map fun e => e.2 * b.mark e.1).sum
        buyingPower := max 0 (b.cash - b.restrictedBySymbol.values.sum)
        restrictedShortProceeds := b.restrictedBySymbol.values.sum
        observedAt := observedAt } = .ok () := by
    simp only [AccountStateFields.check, rejectIf_bind_eq_ok, rejectIf_eq_ok, not_lt]
    exact ⟨by decide, le_max_left _ _, hsum⟩
  refine ⟨⟨_, hcheck⟩, validated_of_ok hcheck, rfl, ?_⟩
  have hpositions : (b.positionTable.entries.map fun e => e.2 * b.mark e.1).sum =
      (b.positions.map fun p => p.2 * b.mark p.1).sum := by
    rw [positions, sum_filter_ne_zero]
    exact (((sortedBy_perm Prod.fst b.positionTable.entries).map _).sum_eq).symm
  show b.cash + _ = _
  rw [hpositions]

end DeterministicFakePaperBroker

/-! ## Accounting -/

section Accounting

variable [ContentHasher]

/-- After any calls on a new broker: cash is the initial cash plus the notional of the applied sells
minus notional and fees of the applied buys, a position is the signed sum of the applied fills, every
execution ID is applied once and the broker keeps exactly the applied fills, proceeds are restricted
exactly for short positions, and the equity is cash plus positions times marks. -/
theorem fake_broker_accounting {initialTime : Instant} {initialCash : ℚ}
    {defaultScenario : FakeBrokerScenario} {b₀ : DeterministicFakePaperBroker} {w : AccountedBroker}
    {operations : List FakeBrokerOperation}
    (hcreate : DeterministicFakePaperBroker.create initialTime initialCash defaultScenario = .ok b₀)
    (hrun : AccountedBroker.runs.Run ⟨b₀, []⟩ operations w) (hdigests : w.DistinctDigests) :
    w.broker.cash = initialCash + soldNotional w.applied - boughtCost w.applied ∧
      (∀ symbol, w.broker.position symbol = signedTotal w.applied symbol) ∧
      ((w.applied.map (·.brokerExecutionId)).Nodup ∧ w.broker.fills.Perm w.applied) ∧
      (∀ symbol,
        (w.broker.position symbol < 0 →
          ∃ r, w.broker.restrictedBySymbol.get? symbol = some r ∧ 0 < r) ∧
        (¬ w.broker.position symbol < 0 → w.broker.restrictedBySymbol.get? symbol = none)) ∧
      ∀ observedAt, ∃ account, w.broker.account observedAt = .ok account ∧
        account.cash = w.broker.cash ∧
        account.equity =
          w.broker.cash + (w.broker.positions.map fun p => p.2 * w.broker.mark p.1).sum := by
  have hnew : AccountedBroker.IsNew ⟨b₀, []⟩ := ⟨⟨_, _, _, hcreate⟩, rfl⟩
  have haccounts := AccountedBroker.accounts_of_run hnew hrun
  have hrecorded := AccountedBroker.recorded_of_run hnew hrun hdigests
  have hinitial : w.broker.initialCash = initialCash := by
    rw [AccountedBroker.initialCash_of_run hrun]
    simp only [DeterministicFakePaperBroker.create, rejectIf_bind_eq_ok, Except.ok.injEq] at hcreate
    rw [← hcreate.2]
  refine ⟨?_, haccounts.position, ⟨?_, ?_⟩, haccounts.restricted,
    DeterministicFakePaperBroker.account_spec haccounts.restricted⟩
  · rw [haccounts.cash, hinitial]
    ring
  · rw [← hrecorded.keys]
    exact w.broker.fillTable.nodup_keys
  · exact hrecorded.values ▸ Dict.valuesByKey_perm w.broker.fillTable

end Accounting

section Sample

local instance : ContentHasher := polynomialHasher

def sampleShort : OrderIntent :=
  ⟨tenShares "aqa-aaaaa-aaaaa-SPY-e-00-1-aaaaaa" .openShort 0, by decide +kernel⟩

def sampleCover : OrderIntent :=
  ⟨tenShares "aqa-aaaaa-aaaaa-SPY-x-01-1-aaaaaa" .closeShort 1, by decide +kernel⟩

/-- A short position is opened and half of it covered. -/
def halfCovered : List FakeBrokerOperation :=
  [.submit sampleShort 1, .setScenario sampleCover.clientOrderId .partialFill, .submit sampleCover 2]

theorem applied_halfCovered :
    (halfCovered.foldl AccountedBroker.next ⟨sampleBroker, []⟩).applied.map
      (fun f => (f.clientOrderId, f.side, f.quantity)) =
        [(sampleShort.clientOrderId, .sell, 10), (sampleCover.clientOrderId, .buy, 5)] := by
  decide +kernel

/-- The accounts of the short position and its partial cover. -/
theorem half_covered_accounts :
    ∃ w, AccountedBroker.runs.Run ⟨sampleBroker, []⟩ halfCovered w ∧
      w.broker.cash = 100000 + soldNotional w.applied - boughtCost w.applied ∧
      w.broker.position "SPY" = signedTotal w.applied "SPY" := by
  have hrun : AccountedBroker.runs.Run ⟨sampleBroker, []⟩ halfCovered
      (halfCovered.foldl AccountedBroker.next ⟨sampleBroker, []⟩) :=
    Transition.run_ofFunction_iff.2 rfl
  have hdigests : (halfCovered.foldl AccountedBroker.next ⟨sampleBroker, []⟩).DistinctDigests := by
    have hids : ∀ f ∈ (halfCovered.foldl AccountedBroker.next ⟨sampleBroker, []⟩).applied,
        f.clientOrderId = sampleShort.clientOrderId ∨
          f.clientOrderId = sampleCover.clientOrderId := by
      intro f hf
      have hmem := List.mem_map_of_mem (f := fun f : Fill => (f.clientOrderId, f.side, f.quantity)) hf
      rw [applied_halfCovered] at hmem
      rcases List.mem_cons.1 hmem with hshort | hcover
      · exact Or.inl (congrArg Prod.fst hshort)
      · exact Or.inr (congrArg Prod.fst (List.mem_singleton.1 hcover))
    have hne : DeterministicFakePaperBroker.executionId sampleShort.clientOrderId ≠
        DeterministicFakePaperBroker.executionId sampleCover.clientOrderId := by
      decide +kernel
    rintro _ ⟨f, hf, rfl⟩ _ ⟨g, hg, rfl⟩ heq
    rcases hids f hf with hf' | hf' <;> rcases hids g hg with hg' | hg'
    · rw [hf', hg']
    · rw [hf', hg'] at heq
      exact absurd heq hne
    · rw [hf', hg'] at heq
      exact absurd heq.symm hne
    · rw [hf', hg']
  have hcreate : DeterministicFakePaperBroker.create 0 100000 .fullFill = .ok sampleBroker := rfl
  have haccounting := fake_broker_accounting hcreate hrun hdigests
  exact ⟨_, hrun, haccounting.1, haccounting.2.1 "SPY"⟩

end Sample

end AdaptiveTrader
