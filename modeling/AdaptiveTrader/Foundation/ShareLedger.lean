import Mathlib.Algebra.BigOperators.Group.List.Basic
import Mathlib.Algebra.Order.Field.Basic
import Mathlib.Tactic

/-!
# Share ledgers

A share ledger holds fixed fractional quantities of assets and cash. Its worth follows the prices;
buying target weights for a capital keeps the capital (`worth_buy`).

`Weighted` says that weights and an equity describe a ledger at given prices. Two rules carry such a
description along: multiplying the weights by the price ratios and dividing by the growth of the
whole describes the same ledger at new prices (`Weighted.mark`), and target weights describe the
ledger that has just bought them (`weighted_buy`).
-/

set_option autoImplicit false

namespace Foundation

universe u v

/-- Fixed quantities and cash. -/
structure ShareLedger (ι : Type u) (K : Type v) where
  quantity : ι → K
  cash : K

namespace ShareLedger

variable {ι : Type u} {K : Type v} [Field K] {assets : List ι}

/-- What the ledger is worth at the given prices. -/
def worth (assets : List ι) (l : ShareLedger ι K) (price : ι → K) : K :=
  (assets.map fun a => l.quantity a * price a).sum + l.cash

/-- Buy target weights for a capital; what is left stays in cash. -/
def buy (assets : List ι) (capital : K) (target price : ι → K) : ShareLedger ι K where
  quantity a := target a * capital / price a
  cash := capital - (assets.map fun a => target a * capital).sum

theorem quantity_buy {capital : K} {target price : ι → K} {a : ι} (h : price a ≠ 0) :
    (buy assets capital target price).quantity a * price a = target a * capital := by
  show target a * capital / price a * price a = target a * capital
  rw [div_mul_cancel₀ _ h]

theorem worth_buy {capital : K} {target price : ι → K} (h : ∀ a ∈ assets, price a ≠ 0) :
    (buy assets capital target price).worth assets price = capital := by
  have hbought : assets.map (fun a => (buy assets capital target price).quantity a * price a) =
      assets.map fun a => target a * capital :=
    List.map_congr_left fun a ha => quantity_buy (h a ha)
  unfold worth
  rw [hbought]
  show _ + (capital - _) = capital
  ring

variable [LinearOrder K]

/-- Weights and an equity that describe the ledger at the given prices. -/
structure Weighted (assets : List ι) (l : ShareLedger ι K) (price : ι → K) (equity : K)
    (weight : ι → K) (cashWeight : K) : Prop where
  equity_pos : 0 < equity
  weight_eq : ∀ a ∈ assets, weight a * equity = l.quantity a * price a
  cash_eq : cashWeight * equity = l.cash
  weight_nonneg : ∀ a ∈ assets, 0 ≤ weight a
  cash_nonneg : 0 ≤ cashWeight
  sum_eq_one : (assets.map weight).sum + cashWeight = 1

namespace Weighted

variable {l : ShareLedger ι K} {price price' : ι → K} {equity : K} {weight : ι → K} {cashWeight : K}

theorem equity_eq (h : Weighted assets l price equity weight cashWeight) :
    equity = l.worth assets price := by
  have hsum : assets.map (fun a => l.quantity a * price a) =
      assets.map fun a => weight a * equity :=
    List.map_congr_left fun a ha => (h.weight_eq a ha).symm
  calc equity = ((assets.map weight).sum + cashWeight) * equity := by rw [h.sum_eq_one, one_mul]
    _ = (assets.map fun a => weight a * equity).sum + cashWeight * equity := by
        rw [add_mul, List.sum_map_mul_right]
    _ = l.worth assets price := by rw [← hsum, h.cash_eq, worth]

theorem congr (h : Weighted assets l price equity weight cashWeight) {equity' : K}
    {weight' : ι → K} {cashWeight' : K} (hequity : equity' = equity)
    (hweight : ∀ a ∈ assets, weight' a = weight a) (hcash : cashWeight' = cashWeight) :
    Weighted assets l price equity' weight' cashWeight' := by
  subst hequity hcash
  refine ⟨h.equity_pos, fun a ha => ?_, h.cash_eq, fun a ha => ?_, h.cash_nonneg, ?_⟩
  · rw [hweight a ha]
    exact h.weight_eq a ha
  · rw [hweight a ha]
    exact h.weight_nonneg a ha
  · rw [List.map_congr_left hweight]
    exact h.sum_eq_one

/-- The weights are read off the ledger. -/
theorem weight_eq_div (h : Weighted assets l price equity weight cashWeight) {a : ι}
    (ha : a ∈ assets) : weight a = l.quantity a * price a / l.worth assets price := by
  rw [← h.equity_eq, ← h.weight_eq a ha, mul_div_cancel_right₀ _ h.equity_pos.ne']

theorem cash_eq_div (h : Weighted assets l price equity weight cashWeight) :
    cashWeight = l.cash / l.worth assets price := by
  rw [← h.equity_eq, ← h.cash_eq, mul_div_cancel_right₀ _ h.equity_pos.ne']

end Weighted

/-- A ledger of cash alone. -/
theorem weighted_cash {capital : K} (h : 0 < capital) (price : ι → K) [IsStrictOrderedRing K] :
    Weighted assets ⟨fun _ => 0, capital⟩ price capital (fun _ => 0) 1 where
  equity_pos := h
  weight_eq := by simp
  cash_eq := one_mul _
  weight_nonneg := by simp
  cash_nonneg := zero_le_one
  sum_eq_one := by simp

variable [IsStrictOrderedRing K]

theorem weighted_buy {capital : K} {target price : ι → K} (hcapital : 0 < capital)
    (hprice : ∀ a ∈ assets, price a ≠ 0) (hnonneg : ∀ a ∈ assets, 0 ≤ target a)
    (hsum : (assets.map target).sum ≤ 1) :
    Weighted assets (buy assets capital target price) price capital target
      (1 - (assets.map target).sum) where
  equity_pos := hcapital
  weight_eq a ha := (quantity_buy (hprice a ha)).symm
  cash_eq := by
    show _ = capital - (assets.map fun a => target a * capital).sum
    rw [List.sum_map_mul_right]
    ring
  weight_nonneg := hnonneg
  cash_nonneg := sub_nonneg.2 hsum
  sum_eq_one := by ring

/-- The growth of the whole, from the weighted growth of the parts. -/
def growth (assets : List ι) (weight ratio : ι → K) (cashWeight : K) : K :=
  (assets.map fun a => weight a * ratio a).sum + cashWeight

theorem sum_map_pos {f : ι → K} (hnonneg : ∀ a ∈ assets, 0 ≤ f a) {a : ι} (ha : a ∈ assets)
    (hpos : 0 < f a) : 0 < (assets.map f).sum := by
  have hall : ∀ x ∈ assets.map f, 0 ≤ x := by
    intro x hx
    obtain ⟨b, hb, rfl⟩ := List.mem_map.1 hx
    exact hnonneg b hb
  exact hpos.trans_le (List.single_le_sum hall _ (List.mem_map_of_mem ha))

namespace Weighted

variable {l : ShareLedger ι K} {price price' : ι → K} {equity : K} {weight : ι → K} {cashWeight : K}

theorem growth_pos (h : Weighted assets l price equity weight cashWeight) {ratio : ι → K}
    (hratio : ∀ a ∈ assets, 0 < ratio a) : 0 < growth assets weight ratio cashWeight := by
  have hnonneg : ∀ a ∈ assets, 0 ≤ weight a * ratio a := fun a ha =>
    mul_nonneg (h.weight_nonneg a ha) (hratio a ha).le
  have hsum : 0 ≤ (assets.map fun a => weight a * ratio a).sum := by
    apply List.sum_nonneg
    intro x hx
    obtain ⟨a, ha, rfl⟩ := List.mem_map.1 hx
    exact hnonneg a ha
  unfold growth
  rcases h.cash_nonneg.lt_or_eq with hcash | hcash
  · exact add_pos_of_nonneg_of_pos hsum hcash
  · -- Without cash some asset is held, and its part does not vanish.
    have hheld : ∃ a ∈ assets, 0 < weight a := by
      by_contra hnone
      push Not at hnone
      have hzero : (assets.map weight).sum = 0 := by
        apply List.sum_eq_zero
        intro x hx
        obtain ⟨a, ha, rfl⟩ := List.mem_map.1 hx
        exact le_antisymm (hnone a ha) (h.weight_nonneg a ha)
      have hone := h.sum_eq_one
      rw [hzero, ← hcash, add_zero] at hone
      exact zero_ne_one hone
    obtain ⟨a, ha, hpos⟩ := hheld
    rw [← hcash, add_zero]
    exact sum_map_pos hnonneg ha (mul_pos hpos (hratio a ha))

/-- The weights after prices have moved by the given ratios. -/
theorem mark (h : Weighted assets l price equity weight cashWeight) {ratio : ι → K}
    (hratio : ∀ a ∈ assets, 0 < ratio a)
    (hprice : ∀ a ∈ assets, price a * ratio a = price' a) :
    Weighted assets l price' (equity * growth assets weight ratio cashWeight)
      (fun a => weight a * ratio a / growth assets weight ratio cashWeight)
      (cashWeight / growth assets weight ratio cashWeight) := by
  have hgrowth := h.growth_pos hratio
  constructor
  · exact mul_pos h.equity_pos hgrowth
  · intro a ha
    calc weight a * ratio a / growth assets weight ratio cashWeight *
          (equity * growth assets weight ratio cashWeight)
        = (weight a * equity) * ratio a := by
          rw [div_mul_eq_mul_div, div_eq_iff hgrowth.ne']
          ring
      _ = l.quantity a * price' a := by rw [h.weight_eq a ha, mul_assoc, hprice a ha]
  · calc cashWeight / growth assets weight ratio cashWeight *
          (equity * growth assets weight ratio cashWeight)
        = cashWeight * equity := by
          rw [div_mul_eq_mul_div, div_eq_iff hgrowth.ne']
          ring
      _ = l.cash := h.cash_eq
  · intro a ha
    exact div_nonneg (mul_nonneg (h.weight_nonneg a ha) (hratio a ha).le) hgrowth.le
  · exact div_nonneg h.cash_nonneg hgrowth.le
  · have hsum : (assets.map fun a =>
        weight a * ratio a / growth assets weight ratio cashWeight).sum =
          (assets.map fun a => weight a * ratio a).sum /
            growth assets weight ratio cashWeight := by
      simp only [div_eq_mul_inv]
      rw [List.sum_map_mul_right]
    rw [hsum, ← add_div]
    exact div_self hgrowth.ne'

end Weighted

end ShareLedger

end Foundation
