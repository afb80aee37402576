import AdaptiveTrader.Foundation.ShareLedger
import AdaptiveTrader.Research.RiskLimits

/-!
# The backtest of a dynamic portfolio

`_run_dynamic_portfolio` keeps an equity and the weights of its holdings. Every session they drift
with the overnight move, are replaced by the weights of a risk decision on rebalance dates, after
the costs of the turnover, and drift again with the move of the session.

The run describes a share ledger (`backtest_self_financing`): fixed fractional quantities and cash,
marked at each open and close, that pays the costs of a rebalance and buys the new weights with what
is left.

Sessions are numbered by their place in the price index. A missing price is `none`; the data
validation lets no other through that is not positive.
The strategies, the regime, the allocation and the risk engine enter through `review`, the ISO week
of a session through `isoWeek`. Arithmetic is exact.
-/

set_option autoImplicit false

namespace AdaptiveTrader.Research

open Foundation

/-- `BacktestError`. -/
inductive BacktestError (K : Type)
  | missingReturn (ticker : String)
  | invalidGrowth (growth : K)
  | unusableWeights
  | noPreviousObservation
  | unsupportedFrequency (frequency : String)
  | review (message : String)
  | costsConsumedEquity
  | invalidEquity (date : Nat)

/-- What the risk engine is asked besides the data of the session. -/
structure ReviewQuestion (K : Type) where
  currentWeights : String → K
  currentDrawdown : K
  hardStopLatched : Bool
  currentDailyLoss : K

/-- The inputs of a run. -/
structure BacktestInputs (K : Type) where
  tickers : List String
  prices : Nat → String → Option K
  opens : Nat → String → Option K
  isoWeek : Nat → Int × Int
  rebalanceFrequency : String
  initialCapital : K
  transactionCostBps : K
  slippageBps : K
  review : Nat → ReviewQuestion K → Except String (RiskDecision K)

/-- What the loop carries from session to session. -/
structure PortfolioState (K : Type) where
  equity : K
  peak : K
  currentWeights : String → K
  currentCash : K
  hardStopLatched : Bool
  previousExecutionDate : Option Nat

/-- One of `daily_rows`. -/
structure DailyRow (K : Type) where
  date : Nat
  equity : K
  dailyReturn : K
  assetReturnBeforeCost : K
  overnightReturnBeforeCost : K
  intradayReturnBeforeCost : K
  drawdown : K
  grossExposure : K
  cashWeight : K
  turnover : K
  transactionCost : K
  transactionCostAmount : K
  slippage : K
  slippageAmount : K
  totalExecutionCost : K
  hardStopLatched : Bool

/-- One of `weight_rows`. -/
structure WeightRow (K : Type) where
  date : Nat
  weights : List (String × K)
  cash : K

/-- The rows of one session and the decision of its rebalance. -/
structure SessionRows (K : Type) where
  daily : DailyRow K
  weights : WeightRow K
  riskDecision : Option (RiskDecision K)

/-- What a rebalance leaves behind. -/
structure Rebalanced (K : Type) where
  equity : K
  currentWeights : String → K
  currentCash : K
  hardStopLatched : Bool
  turnover : K
  transactionCostFraction : K
  transactionCostAmount : K
  slippageFraction : K
  slippageAmount : K
  riskDecision : Option (RiskDecision K)

section Model

variable {K : Type} [Field K] [LinearOrder K]

/-- `_drift_weights`. -/
def driftWeights (tickers : List String) (weights : String → K) (cashWeight : K)
    (dayReturns : String → Option K) : Except (BacktestError K) ((String → K) × K × K) :=
  match tickers.find? fun t => 1 / 1000000000000 < weights t ∧ (dayReturns t).isNone with
  | some ticker => .error (.missingReturn ticker)
  | none =>
      let usableReturn := fun t => (dayReturns t).getD 0
      let portfolioReturn := stableSum tickers fun t => weights t * usableReturn t
      let growth := 1 + portfolioReturn
      if growth ≤ 0 then .error (.invalidGrowth growth)
      else
        let drifted := fun t => weights t * (1 + usableReturn t) / growth
        let driftedCash := cashWeight / growth
        let total := stableSum tickers drifted + driftedCash
        if total ≤ 0 then .error .unusableWeights
        else
          .ok (fun t => max 0 (drifted t / total), max 0 (driftedCash / total), portfolioReturn)

/-- The return from one price to another. -/
def priceReturn (before after : Option K) : Option K :=
  match before, after with
  | some p, some q => if p = 0 then none else some (q / p - 1)
  | _, _ => none

namespace BacktestInputs

variable (b : BacktestInputs K)

/-- `overnight_returns`. -/
def overnightReturns (date : Nat) (ticker : String) : Option K :=
  priceReturn (b.prices (date - 1) ticker) (b.opens date ticker)

/-- `intraday_returns`. -/
def intradayReturns (date : Nat) (ticker : String) : Option K :=
  priceReturn (b.opens date ticker) (b.prices date ticker)

/-- `_is_rebalance_date`. -/
def isRebalanceDate (date : Nat) (previous : Option Nat) : Except (BacktestError K) Bool :=
  if b.rebalanceFrequency = "daily" then .ok true
  else if b.rebalanceFrequency = "weekly" then
    match previous with
    | none => .ok true
    | some previous => .ok (decide (b.isoWeek date ≠ b.isoWeek previous))
  else .error (.unsupportedFrequency b.rebalanceFrequency)

/-- The rebalance at the open of a session, with the costs of its turnover. -/
def rebalance (date : Nat) (question : ReviewQuestion K) (equity : K) :
    Except (BacktestError K) (Rebalanced K) :=
  match b.review date question with
  | .error message => .error (.review message)
  | .ok risk =>
      let turnover := risk.finalTurnover
      let transactionCostFraction := turnover * b.transactionCostBps / 10000
      let slippageFraction := turnover * b.slippageBps / 10000
      if 1 ≤ transactionCostFraction + slippageFraction then .error .costsConsumedEquity
      else
        let transactionCostAmount := equity * transactionCostFraction
        let slippageAmount := equity * slippageFraction
        .ok
          { equity := equity - (transactionCostAmount + slippageAmount)
            currentWeights := fun t => max 0 (risk.final t)
            currentCash := max 0 risk.finalCash
            hardStopLatched := risk.hardStopLatched
            turnover, transactionCostFraction, transactionCostAmount, slippageFraction,
            slippageAmount
            riskDecision := some risk }

/-- A session without a rebalance. -/
def unbalanced (weights : String → K) (cash equity : K) (hardStopLatched : Bool) : Rebalanced K where
  equity := equity
  currentWeights := weights
  currentCash := cash
  hardStopLatched := hardStopLatched
  turnover := 0
  transactionCostFraction := 0
  transactionCostAmount := 0
  slippageFraction := 0
  slippageAmount := 0
  riskDecision := none

/-- The rows of a session after its second drift. -/
def sessionRows (date : Nat) (equityBefore overnightReturn intradayReturn : K) (r : Rebalanced K)
    (weights : String → K) (cash equity peak : K) : SessionRows K where
  daily :=
    { date, equity
      dailyReturn := equity / equityBefore - 1
      assetReturnBeforeCost := (1 + overnightReturn) * (1 + intradayReturn) - 1
      overnightReturnBeforeCost := overnightReturn
      intradayReturnBeforeCost := intradayReturn
      drawdown := equity / peak - 1
      grossExposure := stableSum b.tickers weights
      cashWeight := cash
      turnover := r.turnover
      transactionCost := r.transactionCostFraction
      transactionCostAmount := r.transactionCostAmount
      slippage := r.slippageFraction
      slippageAmount := r.slippageAmount
      totalExecutionCost := r.transactionCostFraction + r.slippageFraction
      hardStopLatched := r.hardStopLatched }
  weights := { date, weights := listed b.tickers weights, cash }
  riskDecision := r.riskDecision

/-- One pass of the loop over the execution dates. -/
def runSession (s : PortfolioState K) (date : Nat) :
    Except (BacktestError K) (PortfolioState K × SessionRows K) := do
  rejectIf (date = 0) .noPreviousObservation
  -- Holdings carried from the last close take the overnight move before the rebalance.
  let (weights, cash, overnightReturn) ←
    driftWeights b.tickers s.currentWeights s.currentCash (b.overnightReturns date)
  let equity := s.equity * (1 + overnightReturn)
  let due ← b.isRebalanceDate date s.previousExecutionDate
  let r ← (if due then
      b.rebalance date
        { currentWeights := weights
          currentDrawdown := equity / s.peak - 1
          hardStopLatched := s.hardStopLatched
          currentDailyLoss := min 0 (equity / s.equity - 1) } equity
    else .ok (unbalanced weights cash equity s.hardStopLatched))
  let (weights, cash, intradayReturn) ←
    driftWeights b.tickers r.currentWeights r.currentCash (b.intradayReturns date)
  let equity := r.equity * (1 + intradayReturn)
  rejectIf (equity ≤ 0) (.invalidEquity date)
  let peak := max s.peak equity
  pure
    ({ equity, peak, currentWeights := weights, currentCash := cash,
       hardStopLatched := r.hardStopLatched, previousExecutionDate := some date },
      b.sessionRows date s.equity overnightReturn intradayReturn r weights cash equity peak)

/-- The sessions in order. -/
def runSessions : PortfolioState K → List Nat → Except (BacktestError K) (List (SessionRows K))
  | _, [] => .ok []
  | s, date :: rest => do
      let session ← b.runSession s date
      let later ← runSessions session.1 rest
      pure (session.2 :: later)

/-- The portfolio before the first session. -/
def initialState : PortfolioState K where
  equity := b.initialCapital
  peak := b.initialCapital
  currentWeights := fun _ => 0
  currentCash := 1
  hardStopLatched := false
  previousExecutionDate := none

/-- `_run_dynamic_portfolio`. -/
def runDynamicPortfolio (executionDates : List Nat) :
    Except (BacktestError K) (List (SessionRows K)) :=
  b.runSessions b.initialState executionDates

end BacktestInputs

end Model

/-! ## The ledger the run describes -/

/-- What is compared of a session: the equity, the weights and the cash weight at its close. -/
structure RecordedSession (K : Type) where
  equity : K
  weights : List (String × K)
  cashWeight : K

def SessionRows.recorded {K : Type} (r : SessionRows K) : RecordedSession K :=
  ⟨r.daily.equity, r.weights.weights, r.daily.cashWeight⟩

section Ledger

variable {K : Type} [Field K] [LinearOrder K]

/-- A session whose prices are present and positive, with the close before it. -/
structure PricedSession (b : BacktestInputs K) (close opening : Nat → String → K)
    (date : Nat) : Prop where
  previous_eq : ∀ t ∈ b.tickers, b.prices (date - 1) t = some (close (date - 1) t)
  opens_eq : ∀ t ∈ b.tickers, b.opens date t = some (opening date t)
  prices_eq : ∀ t ∈ b.tickers, b.prices date t = some (close date t)
  previous_pos : ∀ t ∈ b.tickers, 0 < close (date - 1) t
  opening_pos : ∀ t ∈ b.tickers, 0 < opening date t
  close_pos : ∀ t ∈ b.tickers, 0 < close date t

/-- Nonnegative final weights of gross at most one; cash is the rest. -/
structure SoundDecision (tickers : List String) (d : RiskDecision K) : Prop where
  final_nonneg : ∀ t ∈ tickers, 0 ≤ d.final t
  gross_le : stableSum tickers d.final ≤ 1
  cash_eq : d.finalCash = 1 - stableSum tickers d.final

/-- The errors a run over positive prices can end with. -/
inductive EndsRun : BacktestError K → Prop
  | review (message : String) : EndsRun (.review message)
  | costsConsumedEquity : EndsRun .costsConsumedEquity
  | unsupportedFrequency (frequency : String) : EndsRun (.unsupportedFrequency frequency)

namespace BacktestInputs

variable (b : BacktestInputs K) (close opening : Nat → String → K)

/-- A session of the ledger: at the open a rebalance pays the turnover at both rates and buys the
new weights with what is left. -/
def ledgerSession (l : ShareLedger String K) (date : Nat) (risk : Option (RiskDecision K)) :
    ShareLedger String K :=
  match risk with
  | none => l
  | some d =>
      let equity := l.worth b.tickers (opening date)
      let cost := d.finalTurnover * (b.transactionCostBps / 10000 + b.slippageBps / 10000) * equity
      ShareLedger.buy b.tickers (equity - cost) d.final (opening date)

/-- The ledger at the close of a session. -/
def ledgerRecord (l : ShareLedger String K) (date : Nat) : RecordedSession K :=
  let equity := l.worth b.tickers (close date)
  ⟨equity, listed b.tickers fun t => l.quantity t * close date t / equity, l.cash / equity⟩

/-- The ledger at the close of each session, for the decisions made in these sessions. -/
def ledgerRecords :
    ShareLedger String K → List (Nat × Option (RiskDecision K)) → List (RecordedSession K)
  | _, [] => []
  | l, (date, risk) :: rest =>
      let l' := b.ledgerSession opening l date risk
      b.ledgerRecord close l' date :: ledgerRecords l' rest

end BacktestInputs

variable [IsStrictOrderedRing K]

/-! ## Drifting marks the ledger -/

/-- Over positive prices the drift succeeds, and describes the same ledger at the new prices. -/
theorem driftWeights_marks {tickers : List String} {l : ShareLedger String K}
    {price price' weights : String → K} {equity cash : K} {returns : String → Option K}
    (h : l.Weighted tickers price equity weights cash) (hprice : ∀ t ∈ tickers, 0 < price t)
    (hprice' : ∀ t ∈ tickers, 0 < price' t)
    (hreturns : ∀ t ∈ tickers, returns t = some (price' t / price t - 1)) :
    ∃ weights' cash' r, driftWeights tickers weights cash returns = .ok (weights', cash', r) ∧
      l.Weighted tickers price' (equity * (1 + r)) weights' cash' := by
  let ratio : String → K := fun t => price' t / price t
  have hratio : ∀ t ∈ tickers, 0 < ratio t := fun t ht => div_pos (hprice' t ht) (hprice t ht)
  have hmark := h.mark hratio fun t ht => mul_div_cancel₀ _ (hprice t ht).ne'
  have hpositive := h.growth_pos hratio
  have hfind : (tickers.find? fun t => 1 / 1000000000000 < weights t ∧ (returns t).isNone) = none := by
    apply List.find?_eq_none.2
    intro t ht
    simp [hreturns t ht]
  have husable : ∀ t ∈ tickers, 1 + (returns t).getD 0 = ratio t := by
    intro t ht
    rw [hreturns t ht, Option.getD_some]
    ring
  have hgrowth : 1 + stableSum tickers (fun t => weights t * (returns t).getD 0) =
      ShareLedger.growth tickers weights ratio cash := by
    have hsplit : tickers.map (fun t => weights t * ratio t) =
        tickers.map fun t => weights t + weights t * (returns t).getD 0 := by
      apply List.map_congr_left
      intro t ht
      rw [← husable t ht]
      ring
    have hone := h.sum_eq_one
    rw [ShareLedger.growth, hsplit, List.sum_map_add, stableSum]
    linear_combination -hone
  let growth := ShareLedger.growth tickers weights ratio cash
  have hdrifted : ∀ t ∈ tickers, weights t * (1 + (returns t).getD 0) / growth =
      weights t * ratio t / growth := by
    intro t ht
    rw [husable t ht]
  have htotal : stableSum tickers (fun t => weights t * (1 + (returns t).getD 0) / growth) +
      cash / growth = 1 := by
    rw [stableSum, List.map_congr_left hdrifted]
    exact hmark.sum_eq_one
  refine ⟨fun t => max 0 (weights t * (1 + (returns t).getD 0) / growth / 1),
    max 0 (cash / growth / 1), growth - 1, ?_, ?_⟩
  · have hreturn : stableSum tickers (fun t => weights t * (returns t).getD 0) = growth - 1 := by
      linear_combination hgrowth
    unfold driftWeights
    rw [hfind]
    simp only [hreturn, add_sub_cancel]
    rw [if_neg (not_le.2 hpositive), htotal, if_neg (not_le.2 one_pos)]
  · apply hmark.congr
    · ring
    · intro t ht
      rw [div_one, hdrifted t ht]
      exact max_eq_right (hmark.weight_nonneg t ht)
    · rw [div_one]
      exact max_eq_right hmark.cash_nonneg

omit [IsStrictOrderedRing K] in
theorem priceReturn_of_pos {p q : K} (hp : 0 < p) :
    priceReturn (some p) (some q) = some (q / p - 1) := by
  simp [priceReturn, hp.ne']

/-! ## A session of the run is a session of the ledger -/

namespace BacktestInputs

variable {b : BacktestInputs K} {close opening : Nat → String → K} {l : ShareLedger String K}
  {date : Nat}

/-- A rebalance pays its costs and buys the final weights with what is left. -/
theorem rebalance_spec {equity cash : K} {weights : String → K} {question : ReviewQuestion K}
    (h : l.Weighted b.tickers (opening date) equity weights cash)
    (hopening : ∀ t ∈ b.tickers, 0 < opening date t)
    (hreview : ∀ question d, b.review date question = .ok d → SoundDecision b.tickers d) :
    (∃ e, b.rebalance date question equity = .error e ∧ EndsRun e) ∨
      ∃ r, b.rebalance date question equity = .ok r ∧
        (b.ledgerSession opening l date r.riskDecision).Weighted b.tickers (opening date) r.equity
          r.currentWeights r.currentCash := by
  unfold rebalance
  cases hanswer : b.review date question with
  | error message => exact Or.inl ⟨_, rfl, .review message⟩
  | ok risk =>
    have hsound := hreview question risk hanswer
    let fraction :=
      risk.finalTurnover * b.transactionCostBps / 10000 + risk.finalTurnover * b.slippageBps / 10000
    by_cases hconsumed : 1 ≤ fraction
    · left
      exact ⟨_, if_pos hconsumed, .costsConsumedEquity⟩
    · right
      refine ⟨_, if_neg hconsumed, ?_⟩
      have hworth := h.equity_eq
      have hleft : equity - (equity * (risk.finalTurnover * b.transactionCostBps / 10000) +
            equity * (risk.finalTurnover * b.slippageBps / 10000)) =
          l.worth b.tickers (opening date) -
            risk.finalTurnover * (b.transactionCostBps / 10000 + b.slippageBps / 10000) *
              l.worth b.tickers (opening date) := by
        rw [← hworth]
        ring
      have hpositive : 0 < l.worth b.tickers (opening date) -
          risk.finalTurnover * (b.transactionCostBps / 10000 + b.slippageBps / 10000) *
            l.worth b.tickers (opening date) := by
        have hkept : 0 < equity * (1 - fraction) :=
          mul_pos h.equity_pos (sub_pos.2 (not_le.1 hconsumed))
        calc 0 < equity * (1 - fraction) := hkept
          _ = _ := by
            rw [← hworth]
            ring
      have hbought := ShareLedger.weighted_buy hpositive (fun t ht => (hopening t ht).ne')
        hsound.final_nonneg hsound.gross_le
      apply hbought.congr hleft
      · intro t ht
        exact max_eq_right (hsound.final_nonneg t ht)
      · show max 0 risk.finalCash = _
        rw [hsound.cash_eq]
        exact max_eq_right (sub_nonneg.2 hsound.gross_le)

omit [Field K] [LinearOrder K] [IsStrictOrderedRing K] in
theorem isRebalanceDate_cases (b : BacktestInputs K) (date : Nat) (previous : Option Nat) :
    (∃ e, b.isRebalanceDate date previous = .error e ∧ EndsRun e) ∨
      ∃ due, b.isRebalanceDate date previous = .ok due := by
  unfold isRebalanceDate
  by_cases hdaily : b.rebalanceFrequency = "daily"
  · exact Or.inr ⟨true, if_pos hdaily⟩
  · rw [if_neg hdaily]
    by_cases hweekly : b.rebalanceFrequency = "weekly"
    · rw [if_pos hweekly]
      cases previous with
      | none => exact Or.inr ⟨true, rfl⟩
      | some previous => exact Or.inr ⟨_, rfl⟩
    · exact Or.inl ⟨_, if_neg hweekly, .unsupportedFrequency _⟩

/-- Between the two drifts the holdings describe the ledger of the session. -/
theorem rebalanceIfDue_spec {equity cash : K} {weights : String → K}
    (question : ReviewQuestion K) (latched due : Bool) (h : l.Weighted b.tickers (opening date) equity weights cash)
    (hopening : ∀ t ∈ b.tickers, 0 < opening date t)
    (hreview : ∀ question d, b.review date question = .ok d → SoundDecision b.tickers d) :
    (∃ e, (if due then b.rebalance date question equity
        else .ok (unbalanced weights cash equity latched)) = .error e ∧ EndsRun e) ∨
      ∃ r, (if due then b.rebalance date question equity
          else .ok (unbalanced weights cash equity latched)) = .ok r ∧
        (b.ledgerSession opening l date r.riskDecision).Weighted b.tickers (opening date) r.equity
          r.currentWeights r.currentCash := by
  cases due with
  | true => exact rebalance_spec h hopening hreview
  | false => exact Or.inr ⟨_, rfl, h⟩

/-- A session ends the run, or records the ledger of the session at its close. -/
theorem runSession_spec {s : PortfolioState K} (hdate : 0 < date)
    (hprices : PricedSession b close opening date)
    (hreview : ∀ question d, b.review date question = .ok d → SoundDecision b.tickers d)
    (h : l.Weighted b.tickers (close (date - 1)) s.equity s.currentWeights s.currentCash) :
    (∃ e, b.runSession s date = .error e ∧ EndsRun e) ∨
      ∃ s' rows, b.runSession s date = .ok (s', rows) ∧
        (b.ledgerSession opening l date rows.riskDecision).Weighted b.tickers (close date) s'.equity
          s'.currentWeights s'.currentCash ∧
        rows.daily.date = date ∧ rows.daily.equity = s'.equity ∧
        rows.daily.cashWeight = s'.currentCash ∧
        rows.weights = ⟨date, listed b.tickers s'.currentWeights, s'.currentCash⟩ := by
  have hovernight : ∀ t ∈ b.tickers,
      b.overnightReturns date t = some (opening date t / close (date - 1) t - 1) := by
    intro t ht
    rw [overnightReturns, hprices.previous_eq t ht, hprices.opens_eq t ht]
    exact priceReturn_of_pos (hprices.previous_pos t ht)
  have hintraday : ∀ t ∈ b.tickers,
      b.intradayReturns date t = some (close date t / opening date t - 1) := by
    intro t ht
    rw [intradayReturns, hprices.prices_eq t ht, hprices.opens_eq t ht]
    exact priceReturn_of_pos (hprices.opening_pos t ht)
  obtain ⟨weights, cash, overnight, hdrift, hopened⟩ :=
    driftWeights_marks h hprices.previous_pos hprices.opening_pos hovernight
  unfold runSession
  rw [rejectIf, if_neg hdate.ne', hdrift]
  rcases isRebalanceDate_cases b date s.previousExecutionDate with ⟨e, hfrequency, hends⟩ | ⟨due, hdue⟩
  · left
    rw [hfrequency]
    exact ⟨e, rfl, hends⟩
  · rw [hdue]
    rcases rebalanceIfDue_spec
        { currentWeights := weights
          currentDrawdown := s.equity * (1 + overnight) / s.peak - 1
          hardStopLatched := s.hardStopLatched
          currentDailyLoss := min 0 (s.equity * (1 + overnight) / s.equity - 1) }
        s.hardStopLatched due hopened hprices.opening_pos hreview with
      ⟨e, hrebalance, hends⟩ | ⟨r, hrebalance, hbought⟩
    · left
      refine ⟨e, ?_, hends⟩
      simp only [bind, Except.bind]
      rw [hrebalance]
    · right
      obtain ⟨weights', cash', intraday, hdrift', hclosed⟩ :=
        driftWeights_marks hbought hprices.opening_pos hprices.close_pos hintraday
      simp only [bind, Except.bind]
      rw [hrebalance]
      simp only [hdrift']
      rw [rejectIf, if_neg (not_le.2 hclosed.equity_pos)]
      exact ⟨_, _, rfl, hclosed, rfl, rfl, rfl, rfl⟩

/-! ## The run is the ledger's run -/

omit [IsStrictOrderedRing K] in
/-- What a session records is read off the ledger at its close. -/
theorem recorded_eq {equity cash : K} {weights : String → K} {rows : SessionRows K}
    (h : l.Weighted b.tickers (close date) equity weights cash)
    (hequity : rows.daily.equity = equity) (hcash : rows.daily.cashWeight = cash)
    (hrow : rows.weights = ⟨date, listed b.tickers weights, cash⟩) :
    rows.recorded = b.ledgerRecord close l date := by
  have hlisted : listed b.tickers weights =
      listed b.tickers fun t => l.quantity t * close date t / l.worth b.tickers (close date) := by
    apply List.map_congr_left
    intro t ht
    rw [h.weight_eq_div ht]
  unfold SessionRows.recorded ledgerRecord
  rw [hequity, hcash, hrow, hlisted, h.cash_eq_div, h.equity_eq]

/-- The row of weights belongs to the daily row, and accounts for the whole portfolio. -/
structure WholeRow (b : BacktestInputs K) (rows : SessionRows K) : Prop where
  date_eq : rows.weights.date = rows.daily.date
  cash_eq : rows.weights.cash = rows.daily.cashWeight
  tickers_eq : rows.weights.weights.map Prod.fst = b.tickers
  sum_eq_one : (rows.weights.weights.map Prod.snd).sum + rows.weights.cash = 1

omit [IsStrictOrderedRing K] in
theorem wholeRow_of_weighted {equity cash : K} {weights : String → K} {rows : SessionRows K}
    (h : l.Weighted b.tickers (close date) equity weights cash) (hdate : rows.daily.date = date)
    (hcash : rows.daily.cashWeight = cash)
    (hrow : rows.weights = ⟨date, listed b.tickers weights, cash⟩) : WholeRow b rows := by
  constructor
  · rw [hrow, hdate]
  · rw [hrow, hcash]
  · rw [hrow]
    simp [listed, Function.comp_def]
  · rw [hrow]
    simpa [listed, Function.comp_def] using h.sum_eq_one

theorem runSessions_spec {count : Nat} : ∀ {first : Nat} {s : PortfolioState K}
    {l : ShareLedger String K}, 0 < first →
    (∀ date ∈ List.range' first count, PricedSession b close opening date) →
    (∀ date ∈ List.range' first count, ∀ question d, b.review date question = .ok d →
      SoundDecision b.tickers d) →
    l.Weighted b.tickers (close (first - 1)) s.equity s.currentWeights s.currentCash →
    (∃ e, b.runSessions s (List.range' first count) = .error e ∧ EndsRun e) ∨
      ∃ rows, b.runSessions s (List.range' first count) = .ok rows ∧
        rows.map SessionRows.recorded = b.ledgerRecords close opening l
          (rows.map fun r => (r.daily.date, r.riskDecision)) ∧
        rows.map (fun r => r.daily.date) = List.range' first count ∧
        ∀ r ∈ rows, WholeRow b r := by
  induction count with
  | zero =>
    intro first s l _ _ _ _
    exact Or.inr ⟨[], rfl, rfl, rfl, by simp⟩
  | succ count ih =>
    intro first s l hfirst hprices hreview h
    have hhead : first ∈ List.range' first (count + 1) := by simp [List.range'_succ]
    have htail : ∀ date ∈ List.range' (first + 1) count, date ∈ List.range' first (count + 1) := by
      intro date hdate
      rw [List.range'_succ]
      exact List.mem_cons_of_mem _ hdate
    rw [List.range'_succ, runSessions]
    rcases runSession_spec hfirst (hprices first hhead) (hreview first hhead) h with
      ⟨e, hsession, hends⟩ | ⟨s', rows, hsession, hclosed, hdate, hequity, hcash, hrow⟩
    · left
      rw [hsession]
      exact ⟨e, rfl, hends⟩
    · rw [hsession]
      rcases ih (Nat.succ_pos first) (fun date hd => hprices date (htail date hd))
          (fun date hd => hreview date (htail date hd)) hclosed with
        ⟨e, hlater, hends⟩ | ⟨later, hlater, hrecords, hdates, hwhole⟩
      · left
        simp only [bind, Except.bind]
        rw [hlater]
        exact ⟨e, rfl, hends⟩
      · right
        refine ⟨rows :: later, ?_, ?_, ?_, ?_⟩
        · simp only [bind, Except.bind]
          rw [hlater]
          rfl
        · rw [List.map_cons, List.map_cons, ledgerRecords, hrecords, hdate,
            recorded_eq hclosed hequity hcash hrow]
        · rw [List.map_cons, hdates, hdate]
        · intro r hr
          rcases List.mem_cons.1 hr with rfl | hr
          · exact wholeRow_of_weighted hclosed hdate hcash hrow
          · exact hwhole r hr

end BacktestInputs

/-- Over positive prices a run records what a self-financing share ledger records, whose weights and
cash make up the whole, unless a review, the frequency or the costs end it. -/
theorem backtest_self_financing (b : BacktestInputs K) (close opening : Nat → String → K)
    (first count : Nat) (hfirst : 0 < first) (hcapital : 0 < b.initialCapital)
    (hprices : ∀ date ∈ List.range' first count, PricedSession b close opening date)
    (hreview : ∀ date ∈ List.range' first count, ∀ question d,
      b.review date question = .ok d → SoundDecision b.tickers d) :
    (∀ e, b.runDynamicPortfolio (List.range' first count) = .error e → EndsRun e) ∧
      ∀ rows, b.runDynamicPortfolio (List.range' first count) = .ok rows →
        rows.map SessionRows.recorded =
            b.ledgerRecords close opening ⟨fun _ => 0, b.initialCapital⟩
              (rows.map fun r => (r.daily.date, r.riskDecision)) ∧
          rows.map (fun r => r.daily.date) = List.range' first count ∧
          ∀ r ∈ rows, BacktestInputs.WholeRow b r := by
  have hinitial : (⟨fun _ => 0, b.initialCapital⟩ : ShareLedger String K).Weighted b.tickers
      (close (first - 1)) b.initialCapital (fun _ => 0) 1 :=
    ShareLedger.weighted_cash hcapital (close (first - 1))
  have hrun := BacktestInputs.runSessions_spec (s := b.initialState) hfirst hprices hreview hinitial
  unfold BacktestInputs.runDynamicPortfolio
  rcases hrun with ⟨e, hrun, hends⟩ | ⟨rows, hrun, hrecords⟩
  · rw [hrun]
    refine ⟨?_, by simp⟩
    rintro _ ⟨⟩
    exact hends
  · rw [hrun]
    refine ⟨by simp, ?_⟩
    rintro _ ⟨⟩
    exact hrecords

end Ledger

/-- Half of the capital in one asset and a quarter in the other. -/
def halvesDecision : RiskDecision ℚ where
  proposedWeights := [("DIA", 1 / 2), ("SPY", 1 / 4)]
  finalWeights := [("DIA", 1 / 2), ("SPY", 1 / 4)]
  proposedCash := 1 / 4
  finalCash := 1 / 4
  estimatedVolatility := none
  proposedTurnover := 3 / 4
  finalTurnover := 3 / 4
  currentDrawdown := 0
  hardStopLatched := false
  actions := []
  status := .approved
  finalEstimatedVolatility := none
  currentDailyLoss := 0
  dailyLossLatched := false
  haltState := ""
  dataFreshnessState := ""
  marketState := ""
  liquidationAuthorized := false
  rejectionReasons := []

def halvesClose (date : Nat) (ticker : String) : ℚ := if ticker = "DIA" then 100 + date else 50

def halvesOpening (date : Nat) (ticker : String) : ℚ := if ticker = "DIA" then 99 + date else 51

def halvesBacktest : BacktestInputs ℚ where
  tickers := ["DIA", "SPY"]
  prices date ticker := some (halvesClose date ticker)
  opens date ticker := some (halvesOpening date ticker)
  isoWeek _ := (2026, 1)
  rebalanceFrequency := "weekly"
  initialCapital := 100000
  transactionCostBps := 5
  slippageBps := 3
  review _ _ := .ok halvesDecision

theorem backtest_self_financing_halves :
    ∃ rows, halvesBacktest.runDynamicPortfolio (List.range' 1 2) = .ok rows ∧
      rows.map SessionRows.recorded =
        halvesBacktest.ledgerRecords halvesClose halvesOpening ⟨fun _ => 0, 100000⟩
          (rows.map fun r => (r.daily.date, r.riskDecision)) := by
  have hclose : ∀ date t, 0 < halvesClose date t := by
    intro date t
    unfold halvesClose
    split
    · positivity
    · norm_num
  have hopening : ∀ date t, 0 < halvesOpening date t := by
    intro date t
    unfold halvesOpening
    split
    · positivity
    · norm_num
  have hprices : ∀ date ∈ List.range' 1 2,
      PricedSession halvesBacktest halvesClose halvesOpening date := fun date _ =>
    ⟨fun _ _ => rfl, fun _ _ => rfl, fun _ _ => rfl, fun _ _ => hclose _ _, fun _ _ => hopening _ _,
      fun _ _ => hclose _ _⟩
  have hsound : SoundDecision halvesBacktest.tickers halvesDecision :=
    ⟨by decide +kernel, by decide +kernel, by decide +kernel⟩
  have hreview : ∀ date ∈ List.range' 1 2, ∀ question d,
      halvesBacktest.review date question = .ok d → SoundDecision halvesBacktest.tickers d := by
    rintro date _ question d ⟨⟩
    exact hsound
  have hpositive : 0 < halvesBacktest.initialCapital := by
    show (0 : ℚ) < 100000
    norm_num
  have hrun := backtest_self_financing halvesBacktest halvesClose halvesOpening 1 2 one_pos hpositive
    hprices hreview
  have hok : (halvesBacktest.runDynamicPortfolio (List.range' 1 2)).toOption.isSome := by
    decide +kernel
  cases hresult : halvesBacktest.runDynamicPortfolio (List.range' 1 2) with
  | error e =>
    rw [hresult] at hok
    cases hok
  | ok rows => exact ⟨rows, rfl, (hrun.2 rows hresult).1⟩

end AdaptiveTrader.Research
