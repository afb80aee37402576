import AdaptiveTrader.Research.RiskEngine
import Mathlib.Analysis.Real.Sqrt

/-!
# The limits of the long-only risk engine

The limits on single weights and on sums survive every later control, since each of them only lowers
weights (`Within.of_le`). The volatility target survives scaling, but not the daily-loss control,
which lowers single weights and may take a hedge away: `daily_loss_breaks_volatility`. The turnover
limit stops at a point between the current weights and the limited ones, and all limits are convex
(`Within.interpolate`, `rootQuadratic_interpolate_le`).

`evaluate_limits` states what holds of every decision that is neither rejected nor stopped.
-/

set_option autoImplicit false

namespace AdaptiveTrader.Research

open Foundation

section Limits

variable {K : Type} [Field K] [LinearOrder K] [IsStrictOrderedRing K]

/-! ## Limits on weights -/

/-- The limits on single weights and on their sum. -/
structure Within (config : RiskConfig K) (assets : List String) (drawdown : K) (w : String → K) :
    Prop where
  nonneg : ∀ a ∈ assets, 0 ≤ w a
  cap : ∀ a ∈ assets, w a ≤ config.maxPositionWeight
  gross : stableSum assets w ≤ config.maxGrossExposure
  cash : stableSum assets w ≤ 1 - config.requiredCashBuffer
  soft : drawdown ≤ -config.drawdownSoftLimit →
    stableSum assets w ≤ config.softLimitMaxGrossExposure

variable {config : RiskConfig K} {assets : List String} {drawdown : K} {w w' : String → K}

theorem stableSum_le (h : ∀ a ∈ assets, w' a ≤ w a) : stableSum assets w' ≤ stableSum assets w :=
  List.sum_le_sum h

theorem stableSum_nonneg (h : ∀ a ∈ assets, 0 ≤ w a) : 0 ≤ stableSum assets w := by
  refine List.sum_nonneg fun x hx => ?_
  obtain ⟨a, ha, rfl⟩ := List.mem_map.1 hx
  exact h a ha

omit [LinearOrder K] [IsStrictOrderedRing K] in
theorem stableSum_scale (t : K) : stableSum assets (scaleWeights w t) = stableSum assets w * t :=
  List.sum_map_mul_right assets w t

/-- Lower weights stay within the limits. -/
theorem Within.of_le (h : Within config assets drawdown w) (hnonneg : ∀ a ∈ assets, 0 ≤ w' a)
    (hle : ∀ a ∈ assets, w' a ≤ w a) : Within config assets drawdown w' where
  nonneg := hnonneg
  cap a ha := (hle a ha).trans (h.cap a ha)
  gross := (stableSum_le hle).trans h.gross
  cash := (stableSum_le hle).trans h.cash
  soft hsoft := (stableSum_le hle).trans (h.soft hsoft)

omit [LinearOrder K] [IsStrictOrderedRing K] in
theorem stableSum_interpolate (current : String → K) (s : K) :
    stableSum assets (Working.interpolate current w s) =
      stableSum assets current + s * (stableSum assets w - stableSum assets current) := by
  unfold stableSum
  induction assets with
  | nil => simp
  | cons a rest ih =>
      simp only [List.map_cons, List.sum_cons, ih, Working.interpolate]
      ring

theorem interpolate_le {x y bound s : K} (hs : 0 ≤ s) (hs' : s ≤ 1) (hx : x ≤ bound)
    (hy : y ≤ bound) : x + s * (y - x) ≤ bound := by
  calc x + s * (y - x) = (1 - s) * x + s * y := by ring
    _ ≤ (1 - s) * bound + s * bound :=
        add_le_add (mul_le_mul_of_nonneg_left hx (sub_nonneg.2 hs'))
          (mul_le_mul_of_nonneg_left hy hs)
    _ = bound := by ring

theorem le_interpolate {x y bound s : K} (hs : 0 ≤ s) (hs' : s ≤ 1) (hx : bound ≤ x)
    (hy : bound ≤ y) : bound ≤ x + s * (y - x) := by
  have h := interpolate_le hs hs' (neg_le_neg hx) (neg_le_neg hy)
  linarith

/-- Between two portfolios within the limits every portfolio is within them. -/
theorem Within.interpolate {current : String → K} {s : K} (hs : 0 ≤ s) (hs' : s ≤ 1)
    (hcurrent : Within config assets drawdown current) (h : Within config assets drawdown w) :
    Within config assets drawdown (Working.interpolate current w s) where
  nonneg a ha := le_interpolate hs hs' (hcurrent.nonneg a ha) (h.nonneg a ha)
  cap a ha := interpolate_le hs hs' (hcurrent.cap a ha) (h.cap a ha)
  gross := by
    rw [stableSum_interpolate]
    exact interpolate_le hs hs' hcurrent.gross h.gross
  cash := by
    rw [stableSum_interpolate]
    exact interpolate_le hs hs' hcurrent.cash h.cash
  soft hsoft := by
    rw [stableSum_interpolate]
    exact interpolate_le hs hs' (hcurrent.soft hsoft) (h.soft hsoft)

/-! ## Controls on sizes -/

/-- One portfolio is another one scaled down. -/
def ScaledDown (w w' : String → K) : Prop := ∃ t, 0 ≤ t ∧ t ≤ 1 ∧ w' = scaleWeights w t

theorem ScaledDown.refl (w : String → K) : ScaledDown w w :=
  ⟨1, zero_le_one, le_refl 1, funext fun a => (mul_one (w a)).symm⟩

theorem ScaledDown.bounds (h : ScaledDown w w') (hnonneg : ∀ a ∈ assets, 0 ≤ w a) :
    (∀ a ∈ assets, 0 ≤ w' a) ∧ ∀ a ∈ assets, w' a ≤ w a := by
  obtain ⟨t, ht, ht', rfl⟩ := h
  exact ⟨fun a ha => mul_nonneg (hnonneg a ha) ht, fun a ha =>
    mul_le_of_le_one_right (hnonneg a ha) ht'⟩

/-- Scaling by a limit scales down to it. -/
theorem scaleGross_spec (assets : List String) {limit : K} (hlimit : 0 ≤ limit) (action : K → K → K → RiskAction K)
    (s : Working K) :
    ScaledDown s.weights (Working.scaleGross assets limit action s).weights ∧
      stableSum assets (Working.scaleGross assets limit action s).weights ≤ limit := by
  unfold Working.scaleGross
  by_cases hgross : limit < stableSum assets s.weights
  · have hpos : 0 < stableSum assets s.weights := lt_of_le_of_lt hlimit hgross
    simp only [if_pos hgross, Working.grossScale, if_pos hpos]
    refine ⟨⟨_, div_nonneg hlimit hpos.le, (div_le_one hpos).2 hgross.le, rfl⟩, ?_⟩
    rw [stableSum_scale, mul_div_cancel₀ _ hpos.ne']
  · simp only [if_neg hgross]
    exact ⟨ScaledDown.refl _, not_lt.1 hgross⟩

omit [IsStrictOrderedRing K] in
theorem longOnly_nonneg (assets : List String) (s : Working K) :
    ∀ a ∈ assets, 0 ≤ (Working.longOnly assets s).weights a := by
  intro a ha
  unfold Working.longOnly
  by_cases hnegative : (assets.filter fun a => s.weights a < 0) = []
  · rw [if_pos hnegative]
    have hmem := List.filter_eq_nil_iff.1 hnegative a ha
    simpa using hmem
  · rw [if_neg hnegative]
    dsimp only
    split_ifs with hneg
    · exact le_refl 0
    · exact not_lt.1 hneg

omit [IsStrictOrderedRing K] in
theorem capPositions_spec {limit : K} (hlimit : 0 ≤ limit) {s : Working K}
    (hnonneg : ∀ a ∈ assets, 0 ≤ s.weights a) :
    (∀ a ∈ assets, 0 ≤ (Working.capPositions assets limit s).weights a) ∧
      ∀ a ∈ assets, (Working.capPositions assets limit s).weights a ≤ limit := by
  unfold Working.capPositions
  by_cases hclipped : (assets.filter fun a => limit < s.weights a) = []
  · rw [if_pos hclipped]
    refine ⟨hnonneg, fun a ha => ?_⟩
    have hmem := List.filter_eq_nil_iff.1 hclipped a ha
    simpa using hmem
  · rw [if_neg hclipped]
    refine ⟨fun a ha => ?_, fun a ha => ?_⟩
    · dsimp only
      split_ifs
      · exact hlimit
      · exact hnonneg a ha
    · dsimp only
      split_ifs with hover
      · exact le_refl limit
      · exact not_lt.1 hover

theorem ScaledDown.trans {w'' : String → K} (h : ScaledDown w w') (h' : ScaledDown w' w'') :
    ScaledDown w w'' := by
  obtain ⟨t, ht, ht', rfl⟩ := h
  obtain ⟨u, hu, hu', rfl⟩ := h'
  refine ⟨t * u, mul_nonneg ht hu, mul_le_one₀ ht' hu hu', funext fun a => ?_⟩
  rw [scaleWeights, scaleWeights, scaleWeights, mul_assoc]

/-! ## Turnover -/

/-- Interpolation scales the turnover. -/
theorem calculateTurnover_interpolate {current : String → K} {s : K} (hs : 0 ≤ s) (hs' : s ≤ 1)
    (hcurrent : stableSum assets current ≤ 1) (hw : stableSum assets w ≤ 1) :
    calculateTurnover assets (Working.interpolate current w s) current =
      s * calculateTurnover assets w current := by
  have hsum : stableSum assets (Working.interpolate current w s) ≤ 1 := by
    rw [stableSum_interpolate]
    exact interpolate_le hs hs' hcurrent hw
  have hrisky : stableSum assets (fun a => |Working.interpolate current w s a - current a|) =
      stableSum assets (fun a => |w a - current a|) * s := by
    rw [← stableSum_scale]
    congr 1
    funext a
    rw [Working.interpolate, add_sub_cancel_left, abs_mul, abs_of_nonneg hs, scaleWeights, mul_comm]
  have hcash : |cashWeight assets (Working.interpolate current w s) - cashWeight assets current| =
      |cashWeight assets w - cashWeight assets current| * s := by
    rw [cashWeight, cashWeight, cashWeight, max_eq_right (sub_nonneg.2 hsum),
      max_eq_right (sub_nonneg.2 hcurrent), max_eq_right (sub_nonneg.2 hw), stableSum_interpolate]
    have hdiff : 1 - (stableSum assets current + s * (stableSum assets w - stableSum assets current)) -
        (1 - stableSum assets current) =
          (1 - stableSum assets w - (1 - stableSum assets current)) * s := by ring
    rw [hdiff, abs_mul, abs_of_nonneg hs]
  rw [calculateTurnover, calculateTurnover, hrisky, hcash]
  ring

theorem calculateTurnover_nonneg (target current : String → K) :
    0 ≤ calculateTurnover assets target current := by
  have hrisky : 0 ≤ stableSum assets fun a => |target a - current a| :=
    stableSum_nonneg fun a _ => abs_nonneg _
  exact div_nonneg (add_nonneg hrisky (abs_nonneg _)) zero_le_two

/-! ## Volatility -/

variable [SquareRoot K] {c : Option (CovarianceEstimate K)}

/-- The estimated volatility is at most the target. -/
def VolatilityWithin (config : RiskConfig K) (c : Option (CovarianceEstimate K)) (w : String → K) :
    Prop :=
  ∀ e ∈ c, rootQuadratic e.matrix (vectorOf e w) ≤ config.targetAnnualVolatility

/-- The covariance is symmetric and positive semidefinite, over the assets asked for. -/
structure CovarianceSound (assets : List String) (c : Option (CovarianceEstimate K)) : Prop where
  semidefinite : ∀ e ∈ c, PosSemidefinite e.matrix
  assets_subset : ∀ e ∈ c, ∀ a ∈ e.assets, a ∈ assets

omit [LinearOrder K] [IsStrictOrderedRing K] [SquareRoot K] in
theorem vectorOf_scale (e : CovarianceEstimate K) (w : String → K) (t : K) :
    vectorOf e (scaleWeights w t) = t • vectorOf e w := by
  funext i
  rw [Pi.smul_apply, vectorOf, vectorOf, scaleWeights, smul_eq_mul, mul_comm]

omit [LinearOrder K] [IsStrictOrderedRing K] [SquareRoot K] in
theorem vectorOf_interpolate (e : CovarianceEstimate K) (current w : String → K) (s : K) :
    vectorOf e (Working.interpolate current w s) =
      vectorOf e current + s • (vectorOf e w - vectorOf e current) := by
  funext i
  simp only [vectorOf, Working.interpolate, Pi.add_apply, Pi.smul_apply, Pi.sub_apply, smul_eq_mul]

/-- Scaling down keeps the volatility target. -/
theorem VolatilityWithin.scale (hsound : CovarianceSound assets c)
    (h : VolatilityWithin config c w) (hscaled : ScaledDown w w') : VolatilityWithin config c w' := by
  obtain ⟨t, ht, ht', rfl⟩ := hscaled
  intro e he
  rw [vectorOf_scale, rootQuadratic_smul (hsound.semidefinite e he) ht]
  exact (mul_le_of_le_one_left (sqrt_nonneg _) ht').trans (h e he)

theorem VolatilityWithin.interpolate (hsound : CovarianceSound assets c) {current : String → K}
    {s : K} (hs : 0 ≤ s) (hs' : s ≤ 1) (hcurrent : VolatilityWithin config c current)
    (h : VolatilityWithin config c w) :
    VolatilityWithin config c (Working.interpolate current w s) := by
  intro e he
  rw [vectorOf_interpolate]
  exact rootQuadratic_interpolate_le (hsound.semidefinite e he) hs hs' config.volatility_pos.le
    (hcurrent e he) (h e he)

omit [IsStrictOrderedRing K] in
/-- Weights that agree on the assets have one volatility. -/
theorem VolatilityWithin.congr (hsound : CovarianceSound assets c) (h : VolatilityWithin config c w)
    (heq : ∀ a ∈ assets, w' a = w a) : VolatilityWithin config c w' := by
  intro e he
  have hvector : vectorOf e w' = vectorOf e w := funext fun i =>
    heq _ (hsound.assets_subset e he _ (List.get_mem _ i))
  rw [hvector]
  exact h e he

omit [IsStrictOrderedRing K] in
theorem portfolioVolatility_eq {e : CovarianceEstimate K} (h : PosSemidefinite e.matrix)
    (w : String → K) :
    portfolioVolatility w e = .ok (rootQuadratic e.matrix (vectorOf e w)) := by
  simp only [portfolioVolatility, rejectIf_bind_eq_ok, not_lt, pure_eq_ok, and_true]
  exact h.nonneg _

/-- The volatility control scales down to the target. -/
theorem targetVolatility_spec (config : RiskConfig K) (hsound : CovarianceSound assets c) {s : Working K}
    (hnonneg : ∀ a ∈ assets, 0 ≤ s.weights a) :
    ∃ v s', Working.targetVolatility assets config c s = .ok (v, s') ∧
      ScaledDown s.weights s'.weights ∧ VolatilityWithin config c s'.weights := by
  unfold Working.targetVolatility
  cases c with
  | none => exact ⟨0, s, rfl, ScaledDown.refl _, fun e he => by cases he⟩
  | some e =>
      have hpsd := hsound.semidefinite e rfl
      by_cases hpositive : ∃ a ∈ assets, 0 < s.weights a
      · dsimp only
        rw [if_pos hpositive, portfolioVolatility_eq hpsd]
        set v := rootQuadratic e.matrix (vectorOf e s.weights) with hv
        by_cases htarget : config.targetAnnualVolatility < v
        · have hpos : 0 < v := config.volatility_pos.trans htarget
          have hscale : 0 ≤ config.targetAnnualVolatility / v :=
            div_nonneg config.volatility_pos.le hpos.le
          refine ⟨v, _, if_pos htarget, ⟨_, hscale, (div_le_one hpos).2 htarget.le, rfl⟩, ?_⟩
          intro e' he'
          obtain rfl : e = e' := Option.some.inj he'
          rw [vectorOf_scale, rootQuadratic_smul hpsd hscale, ← hv, div_mul_cancel₀ _ hpos.ne']
        · refine ⟨v, s, if_neg htarget, ScaledDown.refl _, ?_⟩
          intro e' he'
          obtain rfl : e = e' := Option.some.inj he'
          exact not_lt.1 htarget
      · dsimp only
        rw [if_neg hpositive]
        refine ⟨0, s, rfl, ScaledDown.refl _, ?_⟩
        intro e' he'
        obtain rfl : e = e' := Option.some.inj he'
        -- Without a positive weight the vector is zero.
        have hzero : vectorOf e s.weights = (0 : K) • vectorOf e s.weights := by
          funext i
          have ha := hsound.assets_subset e rfl _ (List.get_mem e.assets i)
          have hle := not_lt.1 fun hlt => hpositive ⟨_, ha, hlt⟩
          rw [zero_smul]
          exact le_antisymm hle (hnonneg _ ha)
        rw [hzero, rootQuadratic_smul hpsd (le_refl 0), zero_mul]
        exact config.volatility_pos.le

/-! ## The controls of a review -/

namespace RiskInputs

variable {i : RiskInputs K}

/-- Every covariance is over the assets asked for, symmetric and positive semidefinite. -/
def TrailingSound (i : RiskInputs K) : Prop :=
  ∀ assets e, i.trailingCovariance assets = .ok e → e.assets = assets ∧ PosSemidefinite e.matrix

omit [IsStrictOrderedRing K] [SquareRoot K] in
theorem covariance_sound (hsound : i.TrailingSound) (h : i.covariance config = .ok c) :
    CovarianceSound i.allAssets c := by
  have hcases : ∀ e ∈ c, i.trailingCovariance i.covarianceAssets = .ok e := by
    intro e he
    unfold covariance at h
    split_ifs at h
    · cases htrailing : i.trailingCovariance i.covarianceAssets with
      | error m =>
          rw [htrailing] at h
          cases h
      | ok e' =>
          rw [htrailing] at h
          obtain rfl : some e' = c := Except.ok.inj h
          obtain rfl : e' = e := Option.some.inj he
          rfl
    · obtain rfl : none = c := Except.ok.inj h
      cases he
  refine ⟨fun e he => (hsound _ e (hcases e he)).2, fun e he a ha => ?_⟩
  rw [(hsound _ e (hcases e he)).1] at ha
  exact (List.mem_filter.1 ha).1

omit [SquareRoot K] in
theorem sized_spec (config : RiskConfig K) (i : RiskInputs K) :
    (∀ a ∈ i.allAssets, 0 ≤ (i.sized config).weights a) ∧
      (∀ a ∈ i.allAssets, (i.sized config).weights a ≤ config.maxPositionWeight) ∧
      stableSum i.allAssets (i.sized config).weights ≤ config.maxGrossExposure ∧
      stableSum i.allAssets (i.sized config).weights ≤ 1 - config.requiredCashBuffer := by
  obtain ⟨hnonneg, hcap⟩ := capPositions_spec config.position_range.1.le
    (longOnly_nonneg i.allAssets i.start)
  have hbuffer : max 0 (1 - config.requiredCashBuffer) = 1 - config.requiredCashBuffer :=
    max_eq_right (sub_nonneg.2 config.buffer_range.2)
  obtain ⟨hgross, hgrossLe⟩ := scaleGross_spec i.allAssets config.gross_range.1
    (fun before after scale => .maxGrossExposure before after config.maxGrossExposure scale)
    (Working.capPositions i.allAssets config.maxPositionWeight
      (Working.longOnly i.allAssets i.start))
  obtain ⟨hcash, hcashLe⟩ := scaleGross_spec i.allAssets
    (le_max_left 0 (1 - config.requiredCashBuffer))
    (fun before after scale =>
      .requiredCashBuffer config.requiredCashBuffer before after scale)
    (Working.limitGross i.allAssets config
      (Working.capPositions i.allAssets config.maxPositionWeight
        (Working.longOnly i.allAssets i.start)))
  obtain ⟨hnonneg₁, hle₁⟩ := hgross.bounds hnonneg
  obtain ⟨hnonneg₂, hle₂⟩ := hcash.bounds hnonneg₁
  refine ⟨hnonneg₂, fun a ha => ((hle₂ a ha).trans (hle₁ a ha)).trans (hcap a ha),
    (stableSum_le hle₂).trans hgrossLe, hbuffer ▸ hcashLe⟩

/-- The controls up to the soft drawdown establish every limit. -/
theorem limited_spec (config : RiskConfig K) (hsound : CovarianceSound i.allAssets c) :
    ∃ v s, i.limited config c = .ok (v, s) ∧
      Within config i.allAssets i.safeDrawdown s.weights ∧ VolatilityWithin config c s.weights := by
  obtain ⟨hnonneg, hcap, hgross, hcash⟩ := sized_spec config i
  obtain ⟨v, targeted, htargeted, hscaled, hvolatility⟩ :=
    targetVolatility_spec config hsound hnonneg
  refine ⟨v, Working.softDrawdown i.allAssets config i.safeDrawdown targeted, ?_, ?_⟩
  · rw [limited, htargeted]
    rfl
  · obtain ⟨hnonneg₁, hle₁⟩ := hscaled.bounds hnonneg
    unfold Working.softDrawdown
    by_cases hsoft : i.safeDrawdown ≤ -config.drawdownSoftLimit
    · rw [if_pos hsoft]
      obtain ⟨hdown, hlimit⟩ := scaleGross_spec i.allAssets config.soft_gross_range.1
        (fun before after _ =>
          .softDrawdown i.safeDrawdown before after config.softLimitMaxGrossExposure) targeted
      obtain ⟨hnonneg₂, hle₂⟩ := hdown.bounds hnonneg₁
      have hle : ∀ a ∈ i.allAssets, _ ≤ (i.sized config).weights a := fun a ha =>
        (hle₂ a ha).trans (hle₁ a ha)
      exact ⟨⟨hnonneg₂, fun a ha => (hle a ha).trans (hcap a ha), (stableSum_le hle).trans hgross,
        (stableSum_le hle).trans hcash, fun _ => hlimit⟩, hvolatility.scale hsound hdown⟩
    · rw [if_neg hsoft]
      exact ⟨⟨hnonneg₁, fun a ha => (hle₁ a ha).trans (hcap a ha), (stableSum_le hle₁).trans hgross,
        (stableSum_le hle₁).trans hcash, fun h => absurd h hsoft⟩, hvolatility⟩

omit [IsStrictOrderedRing K] [SquareRoot K] in
/-- The daily-loss control lowers weights, to at most the current ones. -/
theorem reduced_spec (config : RiskConfig K) {s : Working K}
    (hcurrent : ∀ a ∈ i.allAssets, 0 ≤ i.current a)
    (hnonneg : ∀ a ∈ i.allAssets, 0 ≤ s.weights a) :
    (∀ a ∈ i.allAssets, 0 ≤ (i.reduced config s).weights a) ∧
      (∀ a ∈ i.allAssets, (i.reduced config s).weights a ≤ s.weights a) ∧
      (i.dailyLossRequired config = true →
        ∀ a ∈ i.allAssets, (i.reduced config s).weights a ≤ i.current a) := by
  unfold reduced Working.dailyLoss
  by_cases hrequired : i.dailyLossRequired config = true
  · rw [if_pos hrequired]
    refine ⟨fun a _ => le_min (le_max_left _ _) (le_max_left _ _), fun a ha => ?_, fun _ a ha => ?_⟩
    · exact (min_le_left _ _).trans (le_of_eq (max_eq_right (hnonneg a ha)))
    · exact (min_le_right _ _).trans (le_of_eq (max_eq_right (hcurrent a ha)))
  · rw [if_neg hrequired]
    exact ⟨hnonneg, fun a _ => le_refl _, fun h => absurd h hrequired⟩

omit [IsStrictOrderedRing K] [SquareRoot K] in
/-- Inputs without a reason to refuse them are long-only and hold no more than everything. -/
theorem current_of_valid (h : i.invalidReasons = []) :
    (∀ a ∈ i.allAssets, 0 ≤ i.current a) ∧ stableSum i.allAssets i.current ≤ 1 := by
  simp only [invalidReasons, List.append_eq_nil_iff] at h
  obtain ⟨⟨-, hgross⟩, hnegative⟩ := h
  constructor
  · intro a ha
    by_contra hneg
    rw [if_pos ⟨a, ha, not_le.1 hneg⟩] at hnegative
    cases hnegative
  · by_contra hover
    rw [if_pos (not_le.1 hover)] at hgross
    cases hgross

end RiskInputs

/-- A weight of the decision. -/
def RiskDecision.final (d : RiskDecision K) (asset : String) : K :=
  (Dict.lookup asset d.finalWeights).getD 0

omit [Field K] [LinearOrder K] [IsStrictOrderedRing K] [SquareRoot K] in
theorem lookup_listed {a : String} (ha : a ∈ assets) (w : String → K) :
    Dict.lookup a (listed assets w) = some (w a) := by
  induction assets with
  | nil => cases ha
  | cons b rest ih =>
      by_cases hb : b = a
      · subst hb
        simp [listed, Dict.lookup]
      · have hrest : a ∈ rest := (List.mem_cons.1 ha).resolve_left (Ne.symm hb)
        simpa [listed, Dict.lookup, hb] using ih hrest

omit [LinearOrder K] [IsStrictOrderedRing K] [SquareRoot K] in
theorem final_of_listed {d : RiskDecision K} (h : d.finalWeights = listed assets w) {a : String}
    (ha : a ∈ assets) : d.final a = w a := by
  rw [RiskDecision.final, h, lookup_listed ha, Option.getD_some]

/-! ## Decisions -/

variable {i : RiskInputs K}

/-- The turnover limit binds for the weights in front of it. -/
def TurnoverBinds (config : RiskConfig K) (i : RiskInputs K) (w : String → K) : Prop :=
  config.maxTurnoverPerRebalance < calculateTurnover i.allAssets w i.current

/-- What the limits promise of a review with these limited weights and this covariance, the volatility
target being kept as long as the daily-loss control has reduced nothing. -/
structure KeepsLimits (config : RiskConfig K) (i : RiskInputs K) (c : Option (CovarianceEstimate K))
    (limited : Working K) (final : String → K) : Prop where
  unbound : ¬ TurnoverBinds config i (i.reduced config limited).weights →
    Within config i.allAssets i.safeDrawdown final
  unbound_volatility : ¬ TurnoverBinds config i (i.reduced config limited).weights →
    (∀ a ∈ i.allAssets, (i.reduced config limited).weights a = limited.weights a) →
    VolatilityWithin config c final
  bound_turnover : TurnoverBinds config i (i.reduced config limited).weights →
    calculateTurnover i.allAssets final i.current = config.maxTurnoverPerRebalance
  bound_between : TurnoverBinds config i (i.reduced config limited).weights → ∀ a ∈ i.allAssets,
    min (i.current a) ((i.reduced config limited).weights a) ≤ final a ∧
      final a ≤ max (i.current a) ((i.reduced config limited).weights a)
  bound : TurnoverBinds config i (i.reduced config limited).weights →
    Within config i.allAssets i.safeDrawdown i.current →
    Within config i.allAssets i.safeDrawdown final
  bound_volatility : TurnoverBinds config i (i.reduced config limited).weights →
    (∀ a ∈ i.allAssets, (i.reduced config limited).weights a = limited.weights a) →
    VolatilityWithin config c i.current → VolatilityWithin config c final
  daily_loss : i.dailyLossRequired config = true → ∀ a ∈ i.allAssets, final a ≤ i.current a

/-- The turnover limit keeps what the earlier controls have established. -/
theorem keepsLimits_limitTurnover (hsound : CovarianceSound i.allAssets c) {limited : Working K}
    (hcurrent : ∀ a ∈ i.allAssets, 0 ≤ i.current a)
    (hgross : stableSum i.allAssets i.current ≤ 1)
    (hwithin : Within config i.allAssets i.safeDrawdown limited.weights)
    (hvolatility : VolatilityWithin config c limited.weights) :
    KeepsLimits config i c limited
      (Working.limitTurnover i.allAssets config i.current (i.reduced config limited)).weights := by
  obtain ⟨hnonneg, hle, hreduces⟩ := RiskInputs.reduced_spec config hcurrent hwithin.nonneg
  have hreduced := hwithin.of_le hnonneg hle
  have hkept : (∀ a ∈ i.allAssets, (i.reduced config limited).weights a = limited.weights a) →
      VolatilityWithin config c (i.reduced config limited).weights := hvolatility.congr hsound
  by_cases hbinds : TurnoverBinds config i (i.reduced config limited).weights
  · set turnover := calculateTurnover i.allAssets (i.reduced config limited).weights i.current
      with hturnover
    have hpos : 0 < turnover := lt_of_le_of_lt config.turnover_range.1 hbinds
    set s := config.maxTurnoverPerRebalance / turnover with hs
    have hs₀ : 0 ≤ s := div_nonneg config.turnover_range.1 hpos.le
    have hs₁ : s ≤ 1 := (div_le_one hpos).2 (le_of_lt hbinds)
    have hfinal : (Working.limitTurnover i.allAssets config i.current
        (i.reduced config limited)).weights =
          Working.interpolate i.current (i.reduced config limited).weights s := by
      have hover : config.maxTurnoverPerRebalance < turnover := hbinds
      simp only [Working.limitTurnover, ← hturnover, if_pos hpos, if_pos hover]
      rfl
    have hsum : stableSum i.allAssets (i.reduced config limited).weights ≤ 1 :=
      hreduced.gross.trans config.gross_range.2
    rw [hfinal]
    refine ⟨fun h => absurd hbinds h, fun h => absurd hbinds h, fun _ => ?_, fun _ a _ => ?_,
      fun _ hwithin' => hwithin'.interpolate hs₀ hs₁ hreduced,
      fun _ hnothing hcurrent' => hcurrent'.interpolate hsound hs₀ hs₁ (hkept hnothing),
      fun hrequired a ha => ?_⟩
    · rw [calculateTurnover_interpolate hs₀ hs₁ hgross hsum, ← hturnover, hs,
        div_mul_cancel₀ _ hpos.ne']
    · exact ⟨le_interpolate hs₀ hs₁ (min_le_left _ _) (min_le_right _ _),
        interpolate_le hs₀ hs₁ (le_max_left _ _) (le_max_right _ _)⟩
    · exact interpolate_le hs₀ hs₁ (le_refl _) (hreduces hrequired a ha)
  · have hfinal : (Working.limitTurnover i.allAssets config i.current
        (i.reduced config limited)).weights = (i.reduced config limited).weights :=
      congrArg Working.weights (if_neg hbinds)
    rw [hfinal]
    exact ⟨fun _ => hreduced, fun _ => hkept, fun h => absurd h hbinds, fun h => absurd h hbinds,
      fun h => absurd h hbinds, fun h => absurd h hbinds, hreduces⟩

omit [SquareRoot K] in
theorem Within.congr (h : Within config assets drawdown w) (heq : ∀ a ∈ assets, w' a = w a) :
    Within config assets drawdown w' :=
  h.of_le (fun a ha => heq a ha ▸ h.nonneg a ha) fun a ha => le_of_eq (heq a ha)

omit [IsStrictOrderedRing K] [SquareRoot K] in
theorem calculateTurnover_congr (heq : ∀ a ∈ assets, w' a = w a) (current : String → K) :
    calculateTurnover assets w' current = calculateTurnover assets w current := by
  have hsum : stableSum assets w' = stableSum assets w :=
    congrArg List.sum (List.map_congr_left heq)
  have hchange : stableSum assets (fun a => |w' a - current a|) =
      stableSum assets fun a => |w a - current a| :=
    congrArg List.sum (List.map_congr_left fun a ha => by rw [heq a ha])
  have hcash : cashWeight assets w' = cashWeight assets w := by rw [cashWeight, cashWeight, hsum]
  rw [calculateTurnover, calculateTurnover, hchange, hcash]

/-- The promises depend on the weights of the assets alone. -/
theorem KeepsLimits.congr (hsound : CovarianceSound i.allAssets c) {limited : Working K}
    (h : KeepsLimits config i c limited w) (heq : ∀ a ∈ i.allAssets, w' a = w a) :
    KeepsLimits config i c limited w' where
  unbound hnot := (h.unbound hnot).congr heq
  unbound_volatility hnot hkept := (h.unbound_volatility hnot hkept).congr hsound heq
  bound_turnover hbinds := (calculateTurnover_congr heq _).trans (h.bound_turnover hbinds)
  bound_between hbinds a ha := by
    rw [heq a ha]
    exact h.bound_between hbinds a ha
  bound hbinds hcurrent := (h.bound hbinds hcurrent).congr heq
  bound_volatility hbinds hkept hcurrent := (h.bound_volatility hbinds hkept hcurrent).congr hsound heq
  daily_loss hrequired a ha := by
    rw [heq a ha]
    exact h.daily_loss hrequired a ha

omit [IsStrictOrderedRing K] in
theorem finalVolatility_spec (config : RiskConfig K) (hsound : CovarianceSound i.allAssets c)
    (w : String → K) :
    ∃ v, i.finalVolatility c w = .ok v ∧ (VolatilityWithin config c w →
      v ≤ config.targetAnnualVolatility) := by
  unfold RiskInputs.finalVolatility
  cases c with
  | none => exact ⟨0, rfl, fun _ => config.volatility_pos.le⟩
  | some e =>
      by_cases hpositive : ∃ a ∈ i.allAssets, 0 < w a
      · dsimp only
        rw [if_pos hpositive, portfolioVolatility_eq (hsound.semidefinite e rfl)]
        exact ⟨_, rfl, fun h => h e rfl⟩
      · dsimp only
        rw [if_neg hpositive]
        exact ⟨0, rfl, fun _ => config.volatility_pos.le⟩

/-- A decision whose weights are all zero. -/
def RiskDecision.IsFlat (d : RiskDecision K) (assets : List String) : Prop :=
  ∀ a ∈ assets, d.final a = 0

omit [IsStrictOrderedRing K] [SquareRoot K] in
/-- Unusable inputs end in cash unless the holdings are preserved, which a hard stop forbids. -/
theorem safeCashDecision_flat (i : RiskInputs K) (reasons : List RejectionReason)
    (h : (i.safeCashDecision reasons).status = .stopped ∨
      (i.safeCashDecision reasons).hardStopLatched = true) :
    (i.safeCashDecision reasons).IsFlat i.allAssets := by
  intro a ha
  by_cases hpreserve : i.preserveCurrentOnRejection ∧ (∀ a ∈ i.allAssets, 0 ≤ i.current a) ∧
      stableSum i.allAssets i.current ≤ 1 ∧ i.hardStopLatched = false
  · have hstatus : (i.safeCashDecision reasons).status = .rejected := if_pos hpreserve
    have hlatched : (i.safeCashDecision reasons).hardStopLatched = i.hardStopLatched := rfl
    rw [hstatus, hlatched, hpreserve.2.2.2] at h
    rcases h with h | h <;> cases h
  · have hfinal : (i.safeCashDecision reasons).finalWeights = listed i.allAssets fun _ => 0 :=
      congrArg (listed i.allAssets) (if_neg hpreserve)
    exact final_of_listed hfinal ha

omit [IsStrictOrderedRing K] [SquareRoot K] in
theorem safeCashDecision_status (i : RiskInputs K) (reasons : List RejectionReason) :
    (i.safeCashDecision reasons).status = .rejected ∨
      (i.safeCashDecision reasons).status = .stopped := by
  unfold RiskInputs.safeCashDecision
  dsimp only
  split_ifs
  · exact Or.inl rfl
  · exact Or.inr rfl

/-- What holds of every decision: the limits if it is neither rejected nor stopped, and weights of
zero for a hard stop. -/
theorem evaluate_limits (hsound : i.TrailingSound) {d : RiskDecision K}
    (h : evaluate config i = .ok d) :
    (d.status ≠ .rejected → d.status ≠ .stopped →
      ∃ c v limited, i.covariance config = .ok c ∧ i.limited config c = .ok (v, limited) ∧
        KeepsLimits config i c limited d.final ∧
        (VolatilityWithin config c d.final →
          ∀ v ∈ d.finalEstimatedVolatility, v ≤ config.targetAnnualVolatility)) ∧
      (d.status = .stopped ∨ d.hardStopLatched = true → d.IsFlat i.allAssets) := by
  unfold evaluate at h
  split_ifs at h with hinvalid hhalted
  · obtain rfl := Except.ok.inj h
    refine ⟨fun hrejected hstopped => ?_, safeCashDecision_flat i _⟩
    rcases safeCashDecision_status i i.invalidReasons with hstatus | hstatus
    · exact absurd hstatus hrejected
    · exact absurd hstatus hstopped
  · obtain rfl := Except.ok.inj h
    refine ⟨fun hrejected _ => absurd rfl hrejected, ?_⟩
    rintro (hstopped | hlatched)
    · cases hstopped
    · cases hlatched
  · cases hcovariance : i.covariance config with
    | error message =>
        rw [hcovariance] at h
        obtain rfl := Except.ok.inj h
        refine ⟨fun hrejected hstopped => ?_, safeCashDecision_flat i _⟩
        rcases safeCashDecision_status i [.covariance message] with hstatus | hstatus
        · exact absurd hstatus hrejected
        · exact absurd hstatus hstopped
    | ok c =>
        rw [hcovariance] at h
        have hc := RiskInputs.covariance_sound hsound hcovariance
        obtain ⟨hcurrent, hgross⟩ := RiskInputs.current_of_valid (not_not.1 hinvalid)
        obtain ⟨v, limited, hlimited, hwithin, hvolatility⟩ := RiskInputs.limited_spec config hc
        simp only [RiskInputs.review, hlimited] at h
        change (if i.hardStopRequired config = true then _ else _) = _ at h
        split_ifs at h with hhard
        · obtain rfl := Except.ok.inj h
          have hfinal : (i.stoppedDecision config v limited).finalWeights =
              listed i.allAssets fun _ => 0 := rfl
          exact ⟨fun _ hstopped => absurd rfl hstopped, fun _ a ha => final_of_listed hfinal ha⟩
        · obtain ⟨fv, hfv, htarget⟩ := finalVolatility_spec config hc
            (Working.limitTurnover i.allAssets config i.current (i.reduced config limited)).weights
          rw [hfv] at h
          obtain rfl := Except.ok.inj h
          refine ⟨fun _ _ => ⟨c, v, limited, rfl, hlimited, ?_, fun hwithin' fv' hfv' => ?_⟩, ?_⟩
          · exact (keepsLimits_limitTurnover hc hcurrent hgross hwithin hvolatility).congr hc
              fun a ha => final_of_listed rfl ha
          · obtain rfl : fv = fv' := Option.some.inj hfv'
            exact htarget (hwithin'.congr hc fun a ha => (final_of_listed rfl ha).symm)
          · rintro (hstopped | hlatched)
            · -- A review that ran through is approved or modified.
              simp only [RiskInputs.reviewedDecision] at hstopped
              split_ifs at hstopped
            · cases hlatched

/-- A sound covariance never makes the review raise. -/
theorem evaluate_returns (config : RiskConfig K) (hsound : i.TrailingSound) :
    ∃ d, evaluate config i = .ok d := by
  unfold evaluate
  split_ifs
  · exact ⟨_, rfl⟩
  · exact ⟨_, rfl⟩
  · cases hcovariance : i.covariance config with
    | error message => exact ⟨_, rfl⟩
    | ok c =>
        have hc := RiskInputs.covariance_sound hsound hcovariance
        obtain ⟨v, limited, hlimited, -⟩ := RiskInputs.limited_spec config hc
        obtain ⟨fv, hfv, -⟩ := finalVolatility_spec config hc
          (Working.limitTurnover i.allAssets config i.current (i.reduced config limited)).weights
        simp only [RiskInputs.review, hlimited]
        change ∃ d, (if i.hardStopRequired config = true then _ else _) = _
        split_ifs
        · exact ⟨_, rfl⟩
        · rw [hfv]
          exact ⟨_, rfl⟩

/-! ## Portfolios the controls leave alone -/

omit [IsStrictOrderedRing K] [SquareRoot K] in
theorem scaleGross_of_le {limit : K} (action : K → K → K → RiskAction K) {s : Working K}
    (h : stableSum assets s.weights ≤ limit) : Working.scaleGross assets limit action s = s :=
  if_neg (not_lt.2 h)

omit [IsStrictOrderedRing K] in
/-- A proposal within the limits reaches the daily-loss control unchanged. -/
theorem RiskInputs.limited_of_within {e : CovarianceEstimate K}
    (hwithin : Within config i.allAssets i.safeDrawdown i.proposed)
    (hpsd : PosSemidefinite e.matrix) (hvolatility : VolatilityWithin config (some e) i.proposed)
    (hpositive : ∃ a ∈ i.allAssets, 0 < i.proposed a) :
    i.limited config (some e) = .ok (rootQuadratic e.matrix (vectorOf e i.proposed), i.start) := by
  have hlong : Working.longOnly i.allAssets i.start = i.start :=
    if_pos (List.filter_eq_nil_iff.2 fun a ha hneg =>
      not_lt.2 (hwithin.nonneg a ha) (of_decide_eq_true hneg))
  have hcap : Working.capPositions i.allAssets config.maxPositionWeight i.start = i.start :=
    if_pos (List.filter_eq_nil_iff.2 fun a ha hover =>
      not_lt.2 (hwithin.cap a ha) (of_decide_eq_true hover))
  have hsized : i.sized config = i.start := by
    rw [sized, hlong, hcap, Working.limitGross, scaleGross_of_le _ hwithin.gross,
      Working.bufferCash, scaleGross_of_le _ (hwithin.cash.trans (le_max_right _ _))]
  have htarget : Working.targetVolatility i.allAssets config (some e) i.start =
      .ok (rootQuadratic e.matrix (vectorOf e i.proposed), i.start) := by
    have hvol : portfolioVolatility i.start.weights e =
        .ok (rootQuadratic e.matrix (vectorOf e i.proposed)) := portfolioVolatility_eq hpsd _
    have hpos : ∃ a ∈ i.allAssets, 0 < i.start.weights a := hpositive
    simp only [Working.targetVolatility]
    rw [if_pos hpos, hvol]
    exact if_neg (not_lt.2 (hvolatility e rfl))
  have hsoft : Working.softDrawdown i.allAssets config i.safeDrawdown i.start = i.start := by
    unfold Working.softDrawdown
    split_ifs with h
    · exact scaleGross_of_le _ (hwithin.soft h)
    · rfl
  rw [limited, hsized, htarget]
  exact congrArg (fun s => Except.ok (_, s)) hsoft

end Limits

/-! ## A hedge taken away -/

noncomputable instance : SquareRoot ℝ where
  sqrt := Real.sqrt
  sqrt_nonneg := Real.sqrt_nonneg
  mul_self_sqrt _ h := Real.mul_self_sqrt h

local instance atLeastTwo_two : Nat.AtLeastTwo 2 := ⟨by decide⟩

local instance atLeastTwo_ten : Nat.AtLeastTwo 10 := ⟨by decide⟩

/-- No limits but a volatility target of twelve percent, and drawdown limits. -/
noncomputable def hedgeConfig : RiskConfig ℝ where
  maxPositionWeight := 1
  maxGrossExposure := 1
  targetAnnualVolatility := 3 / 25
  maxTurnoverPerRebalance := 1
  drawdownSoftLimit := 1 / 10
  softLimitMaxGrossExposure := 1 / 2
  drawdownHardLimit := 3 / 20
  dailyLossLimit := 1 / 50
  requiredCashBuffer := 0
  position_range := by norm_num
  gross_range := by norm_num
  volatility_pos := by norm_num
  turnover_range := by norm_num
  soft_range := by norm_num
  hard_range := by norm_num
  soft_gross_range := by norm_num
  daily_range := by norm_num
  buffer_range := by norm_num

/-- Two assets that move against each other. -/
def hedgeMatrix : Matrix (Fin 2) (Fin 2) ℝ := !![1, -1; -1, 1]

def hedgeCovariance : CovarianceEstimate ℝ := ⟨["A", "B"], hedgeMatrix⟩

/-- Half in one asset; the proposal adds its hedge, on a day whose loss has been latched. -/
noncomputable def hedgeInputs : RiskInputs ℝ where
  proposedWeights := ⟨[("A", some (1 / 2)), ("B", some (1 / 2))], by decide⟩
  currentWeights := ⟨[("A", some (1 / 2))], by decide⟩
  trailingCovariance assets :=
    if assets = ["A", "B"] then .ok hedgeCovariance else .error "insufficient history"
  currentDrawdown := some 0
  hardStopLatched := false
  currentDailyLoss := some 0
  dailyLossLatched := true
  haltLatched := false
  preserveCurrentOnRejection := false
  context := none

theorem quadratic_hedgeMatrix (x : Fin 2 → ℝ) : quadratic hedgeMatrix x = (x 0 - x 1) ^ 2 := by
  simp only [quadratic, hedgeMatrix, dotProduct, Matrix.vecMul, Fin.sum_univ_two, Matrix.of_apply,
    Matrix.cons_val', Matrix.cons_val_zero, Matrix.cons_val_one]
  ring

theorem hedgeMatrix_sound : PosSemidefinite hedgeMatrix where
  symmetric := by
    ext i j
    fin_cases i <;> fin_cases j <;> rfl
  nonneg x := by
    rw [quadratic_hedgeMatrix]
    exact sq_nonneg _

theorem rootQuadratic_hedge (w : String → ℝ) :
    rootQuadratic hedgeCovariance.matrix (vectorOf hedgeCovariance w) = |w "A" - w "B"| := by
  have hform : quadratic hedgeCovariance.matrix (vectorOf hedgeCovariance w) = (w "A" - w "B") ^ 2 :=
    quadratic_hedgeMatrix (vectorOf hedgeCovariance w)
  have hpsd : PosSemidefinite hedgeCovariance.matrix := hedgeMatrix_sound
  rw [rootQuadratic_eq hpsd, hform]
  exact Real.sqrt_sq_eq_abs _

namespace hedgeInputs

theorem trailingSound : hedgeInputs.TrailingSound := by
  intro assets e h
  simp only [hedgeInputs] at h
  split_ifs at h with hassets
  obtain rfl := Except.ok.inj h
  exact ⟨hassets.symm, hedgeMatrix_sound⟩

theorem allAssets_eq : hedgeInputs.allAssets = ["A", "B"] := by decide

theorem proposed_eq : hedgeInputs.proposed "A" = 1 / 2 ∧ hedgeInputs.proposed "B" = 1 / 2 := ⟨rfl, rfl⟩

theorem current_eq : hedgeInputs.current "A" = 1 / 2 ∧ hedgeInputs.current "B" = 0 := ⟨rfl, rfl⟩

theorem invalidReasons_eq : hedgeInputs.invalidReasons = [] := by
  have hproposed : invalidAssets hedgeInputs.proposedWeights = [] := rfl
  have hcurrent : invalidAssets hedgeInputs.currentWeights = [] := rfl
  have hsum : ¬ 1 < stableSum hedgeInputs.allAssets hedgeInputs.current := by
    simp [allAssets_eq, stableSum, current_eq]
    norm_num
  have hnegative : ¬ ∃ a ∈ hedgeInputs.allAssets, hedgeInputs.current a < 0 := by
    simp [allAssets_eq, current_eq]
  rw [RiskInputs.invalidReasons, hproposed, hcurrent, if_neg hsum, if_neg hnegative]
  rfl

theorem covariance_eq : hedgeInputs.covariance hedgeConfig = .ok (some hedgeCovariance) := by
  have hassets : hedgeInputs.covarianceAssets = ["A", "B"] := by
    simp [RiskInputs.covarianceAssets, allAssets_eq, proposed_eq]
  have hstop : hedgeInputs.hardStopRequired hedgeConfig = false := by
    simp [RiskInputs.hardStopRequired, hedgeInputs, hedgeConfig, RiskInputs.safeDrawdown]
  rw [RiskInputs.covariance, hassets, if_pos ⟨by simp, hstop⟩]
  rfl

theorem limited_eq :
    hedgeInputs.limited hedgeConfig (some hedgeCovariance) = .ok (0, hedgeInputs.start) := by
  have hroot : rootQuadratic hedgeCovariance.matrix
      (vectorOf hedgeCovariance hedgeInputs.proposed) = 0 := by
    rw [rootQuadratic_hedge, proposed_eq.1, proposed_eq.2, sub_self, abs_zero]
  rw [RiskInputs.limited_of_within _ hedgeMatrix_sound, hroot]
  · intro e he
    obtain rfl : hedgeCovariance = e := Option.some.inj he
    rw [hroot]
    exact hedgeConfig.volatility_pos.le
  · exact ⟨"A", by simp [allAssets_eq], by simp [proposed_eq]⟩
  · have hsum : stableSum ["A", "B"] hedgeInputs.proposed = 1 := by
      simp [stableSum, proposed_eq]
      norm_num
    rw [allAssets_eq]
    constructor
    · simp [proposed_eq]
    · simp [proposed_eq, hedgeConfig]
      norm_num
    · simp [hsum, hedgeConfig]
    · simp [hsum, hedgeConfig]
    · simp [RiskInputs.safeDrawdown, hedgeInputs, hedgeConfig]

theorem dailyLoss_required : hedgeInputs.dailyLossRequired hedgeConfig = true := rfl

/-- The daily-loss control takes the hedge away and leaves what is held. -/
theorem reduced_eq {a : String} (ha : a ∈ hedgeInputs.allAssets) :
    (hedgeInputs.reduced hedgeConfig hedgeInputs.start).weights a = hedgeInputs.current a := by
  have hreduced : (hedgeInputs.reduced hedgeConfig hedgeInputs.start).weights a =
      Working.reduceOnly hedgeInputs.proposed hedgeInputs.current a := by
    rw [RiskInputs.reduced, Working.dailyLoss, if_pos dailyLoss_required]
    rfl
  rw [allAssets_eq] at ha
  rw [hreduced, Working.reduceOnly]
  rcases List.mem_pair.1 ha with rfl | rfl
  · rw [proposed_eq.1, current_eq.1, min_self, max_eq_right one_half_pos.le]
  · rw [proposed_eq.2, current_eq.2, max_self, min_eq_right (le_max_left _ _)]

theorem turnover_not_binding : ¬ TurnoverBinds hedgeConfig hedgeInputs
    (hedgeInputs.reduced hedgeConfig hedgeInputs.start).weights := by
  have hturnover : calculateTurnover hedgeInputs.allAssets hedgeInputs.current
      hedgeInputs.current = 0 := by
    simp [calculateTurnover, stableSum]
  rw [TurnoverBinds, calculateTurnover_congr (fun a ha => reduced_eq ha), hturnover]
  exact not_lt.2 hedgeConfig.turnover_range.1

theorem finalVolatility_eq : hedgeInputs.finalVolatility (some hedgeCovariance)
    (hedgeInputs.reduced hedgeConfig hedgeInputs.start).weights = .ok (1 / 2) := by
  have hA := reduced_eq (a := "A") (by simp [allAssets_eq])
  have hB := reduced_eq (a := "B") (by simp [allAssets_eq])
  have hpositive : ∃ a ∈ hedgeInputs.allAssets,
      0 < (hedgeInputs.reduced hedgeConfig hedgeInputs.start).weights a :=
    ⟨"A", by simp [allAssets_eq], by simp [hA, current_eq]⟩
  have hpsd : PosSemidefinite hedgeCovariance.matrix := hedgeMatrix_sound
  simp only [RiskInputs.finalVolatility]
  rw [if_pos hpositive, portfolioVolatility_eq hpsd, rootQuadratic_hedge, hA, hB, current_eq.1,
    current_eq.2, sub_zero, abs_of_pos one_half_pos]

/-- The decision on the hedge: it keeps what is held. -/
noncomputable def decision : RiskDecision ℝ :=
  hedgeInputs.reviewedDecision hedgeConfig 0 (1 / 2)
    (hedgeInputs.reduced hedgeConfig hedgeInputs.start)

theorem evaluate_eq : evaluate hedgeConfig hedgeInputs = .ok decision := by
  have hhalted : ¬ (hedgeInputs.isHalted ∧ hedgeInputs.hardStopLatched = false) := by
    simp [RiskInputs.isHalted, hedgeInputs]
  have hstop : ¬ hedgeInputs.hardStopRequired hedgeConfig = true := by
    simp [RiskInputs.hardStopRequired, hedgeInputs, hedgeConfig, RiskInputs.safeDrawdown]
  have hfinal : Working.limitTurnover hedgeInputs.allAssets hedgeConfig hedgeInputs.current
      (hedgeInputs.reduced hedgeConfig hedgeInputs.start) =
        hedgeInputs.reduced hedgeConfig hedgeInputs.start := if_neg turnover_not_binding
  rw [evaluate, invalidReasons_eq, if_neg (not_not.2 rfl), if_neg hhalted, covariance_eq]
  simp only [RiskInputs.review, limited_eq]
  change (if hedgeInputs.hardStopRequired hedgeConfig = true then _ else _) = _
  rw [if_neg hstop, hfinal, finalVolatility_eq]
  rfl

theorem decision_actions : decision.actions.map RiskAction.control = ["daily_loss"] := by
  have hactions : decision.actions =
      (hedgeInputs.reduced hedgeConfig hedgeInputs.start).actions := rfl
  rw [hactions, RiskInputs.reduced, Working.dailyLoss, if_pos dailyLoss_required]
  rfl

theorem decision_status : decision.status = .modified := by
  have hstatus : decision.status = if decision.actions.isEmpty then .approved else .modified := rfl
  rw [hstatus]
  refine if_neg fun hempty => ?_
  have hactions : decision.actions = [] := List.isEmpty_iff.1 hempty
  have hcontrols := decision_actions
  rw [hactions] at hcontrols
  cases hcontrols

end hedgeInputs

/-- The daily-loss control may take a hedge away, which leaves the volatility above its target
although the turnover limit does not bind. -/
theorem daily_loss_breaks_volatility :
    ¬ ∀ (config : RiskConfig ℝ) (i : RiskInputs ℝ) (d : RiskDecision ℝ), i.TrailingSound →
      (∀ a ∈ i.allAssets, 0 ≤ i.current a) → stableSum i.allAssets i.current ≤ 1 →
      evaluate config i = .ok d → d.status ≠ .rejected → d.status ≠ .stopped →
      (∀ a ∈ d.actions, a.control ≠ "turnover_limit") →
      ∀ v ∈ d.finalEstimatedVolatility, v ≤ config.targetAnnualVolatility := by
  intro hall
  obtain ⟨hnonneg, hgross⟩ := RiskInputs.current_of_valid hedgeInputs.invalidReasons_eq
  have hcontrols : ∀ a ∈ hedgeInputs.decision.actions, a.control ≠ "turnover_limit" := by
    intro a ha
    have hmem := List.mem_map_of_mem (f := RiskAction.control) ha
    rw [hedgeInputs.decision_actions, List.mem_singleton] at hmem
    rw [hmem]
    decide
  have hle := hall hedgeConfig hedgeInputs hedgeInputs.decision hedgeInputs.trailingSound hnonneg
    hgross hedgeInputs.evaluate_eq (by simp [hedgeInputs.decision_status])
    (by simp [hedgeInputs.decision_status]) hcontrols (1 / 2) rfl
  norm_num [hedgeConfig] at hle

/-- On the hedge the weights keep their limits, and nothing is bought on a day of losses. -/
theorem hedge_limits : ∃ c v limited,
    hedgeInputs.covariance hedgeConfig = .ok c ∧
      hedgeInputs.limited hedgeConfig c = .ok (v, limited) ∧
      KeepsLimits hedgeConfig hedgeInputs c limited hedgeInputs.decision.final := by
  have hlimits := evaluate_limits hedgeInputs.trailingSound hedgeInputs.evaluate_eq
  obtain ⟨c, v, limited, hcovariance, hlimited, hkeeps, -⟩ :=
    hlimits.1 (by simp [hedgeInputs.decision_status]) (by simp [hedgeInputs.decision_status])
  exact ⟨c, v, limited, hcovariance, hlimited, hkeeps⟩

end AdaptiveTrader.Research
