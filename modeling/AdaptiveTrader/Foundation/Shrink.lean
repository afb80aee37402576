import AdaptiveTrader.Foundation.Repair

/-!
# Shrinking signed weights

A weight function assigns a signed value to every name. Shrinking moves each value toward zero and
never across it. Bounds on single values and on the gross of a scope survive shrinking; bounds on
the net of long and short weights do not, since shrinking the short side raises the net.

Every limit has its repair: clipping for single values, scaling for the gross of a scope, scaling
one side for the net. They are exact, and the two net repairs together keep both bounds because the
first one ends on its bound.
-/

set_option autoImplicit false

namespace Foundation

universe u v

section Values

variable {K : Type u} [Field K] [LinearOrder K] [IsStrictOrderedRing K]

/-- `y` is not further from zero than `x` and not on the other side of it. -/
def ShrinksTo (x y : K) : Prop := |y| ≤ |x| ∧ 0 ≤ x * y

namespace ShrinksTo

theorem refl (x : K) : ShrinksTo x x := ⟨le_refl _, mul_self_nonneg x⟩

theorem trans {x y z : K} (hxy : ShrinksTo x y) (hyz : ShrinksTo y z) : ShrinksTo x z := by
  refine ⟨hyz.1.trans hxy.1, ?_⟩
  rcases eq_or_ne y 0 with rfl | hy
  · have hz : z = 0 := abs_nonpos_iff.1 (by simpa using hyz.1)
    rw [hz, mul_zero]
  · have hsquare : 0 < y * y := mul_self_pos.2 hy
    have hproduct : 0 ≤ (x * z) * (y * y) := by
      have heq : (x * z) * (y * y) = (x * y) * (y * z) := by ring
      rw [heq]
      exact mul_nonneg hxy.2 hyz.2
    exact nonneg_of_mul_nonneg_left hproduct hsquare

/-- A factor between zero and one shrinks. -/
theorem mul_right (x : K) {c : K} (h₀ : 0 ≤ c) (h₁ : c ≤ 1) : ShrinksTo x (x * c) := by
  constructor
  · rw [abs_mul, abs_of_nonneg h₀]
    exact mul_le_of_le_one_right (abs_nonneg x) h₁
  · rw [← mul_assoc]
    exact mul_nonneg (mul_self_nonneg x) h₀

theorem eq_zero {y : K} (h : ShrinksTo 0 y) : y = 0 := abs_nonpos_iff.1 (by simpa using h.1)

/-- Clipping to a symmetric interval shrinks. -/
theorem clip (x : K) {limit : K} (hlimit : 0 ≤ limit) :
    ShrinksTo x (max (-limit) (min limit x)) := by
  rcases le_total 0 x with hx | hx
  · have hmin : 0 ≤ min limit x := le_min hlimit hx
    rw [max_eq_right (by linarith)]
    refine ⟨?_, mul_nonneg hx hmin⟩
    rw [abs_of_nonneg hmin, abs_of_nonneg hx]
    exact min_le_right _ _
  · rw [min_eq_right (hx.trans hlimit)]
    have hmax : max (-limit) x ≤ 0 := max_le (by linarith) hx
    refine ⟨?_, mul_nonneg_of_nonpos_of_nonpos hx hmax⟩
    rw [abs_of_nonpos hmax, abs_of_nonpos hx]
    exact neg_le_neg (le_max_right _ _)

end ShrinksTo

theorem abs_clip_le (x : K) {limit : K} (hlimit : 0 ≤ limit) :
    |max (-limit) (min limit x)| ≤ limit := by
  rw [abs_le]
  exact ⟨le_max_left _ _, max_le (by linarith) (min_le_left _ _)⟩

theorem clip_eq_self {x limit : K} (h : |x| ≤ limit) : max (-limit) (min limit x) = x := by
  obtain ⟨hlow, hhigh⟩ := abs_le.1 h
  rw [min_eq_right hhigh, max_eq_right hlow]

end Values

section Weights

variable {K : Type u} [Field K] [LinearOrder K] [IsStrictOrderedRing K] {σ : Type v}

/-- Every value shrinks. -/
def Shrinks (x y : σ → K) : Prop := ∀ s, ShrinksTo (x s) (y s)

theorem Shrinks.refl (x : σ → K) : Shrinks x x := fun s => ShrinksTo.refl (x s)

theorem Shrinks.trans {x y z : σ → K} (hxy : Shrinks x y) (hyz : Shrinks y z) : Shrinks x z :=
  fun s => (hxy s).trans (hyz s)

/-- The sum of the absolute values in a scope. -/
def grossOf (scope : List σ) (x : σ → K) : K := (scope.map fun s => |x s|).sum

/-- The sum of the positive values. -/
def longOf (scope : List σ) (x : σ → K) : K := (scope.map fun s => max (x s) 0).sum

/-- The sum of the negative values, without their sign. -/
def shortOf (scope : List σ) (x : σ → K) : K := (scope.map fun s => max (-(x s)) 0).sum

/-- Long minus short. -/
def netOf (scope : List σ) (x : σ → K) : K := longOf scope x - shortOf scope x

theorem sum_map_nonneg {f : σ → K} (hf : ∀ s, 0 ≤ f s) (scope : List σ) :
    0 ≤ (scope.map f).sum := by
  induction scope with
  | nil => simp
  | cons s rest ih =>
      rw [List.map_cons, List.sum_cons]
      exact add_nonneg (hf s) ih

theorem sum_map_le {f g : σ → K} (h : ∀ s, f s ≤ g s) (scope : List σ) :
    (scope.map f).sum ≤ (scope.map g).sum := by
  induction scope with
  | nil => simp
  | cons s rest ih =>
      rw [List.map_cons, List.map_cons, List.sum_cons, List.sum_cons]
      exact add_le_add (h s) ih

theorem grossOf_nonneg (scope : List σ) (x : σ → K) : 0 ≤ grossOf scope x :=
  sum_map_nonneg (fun s => abs_nonneg (x s)) scope

theorem longOf_nonneg (scope : List σ) (x : σ → K) : 0 ≤ longOf scope x :=
  sum_map_nonneg (fun _ => le_max_right _ _) scope

theorem shortOf_nonneg (scope : List σ) (x : σ → K) : 0 ≤ shortOf scope x :=
  sum_map_nonneg (fun _ => le_max_right _ _) scope

theorem grossOf_eq_add (scope : List σ) (x : σ → K) :
    grossOf scope x = longOf scope x + shortOf scope x := by
  induction scope with
  | nil => simp [grossOf, longOf, shortOf]
  | cons s rest ih =>
      have habs : |x s| = max (x s) 0 + max (-(x s)) 0 := by
        rcases le_total 0 (x s) with hs | hs
        · rw [abs_of_nonneg hs, max_eq_left hs, max_eq_right (by linarith), add_zero]
        · rw [abs_of_nonpos hs, max_eq_right hs, max_eq_left (by linarith), zero_add]
      simp only [grossOf, longOf, shortOf, List.map_cons, List.sum_cons] at ih ⊢
      rw [habs, ih]
      ring

theorem grossOf_le_of_shrinks {x y : σ → K} (h : Shrinks x y) (scope : List σ) :
    grossOf scope y ≤ grossOf scope x :=
  sum_map_le (fun s => (h s).1) scope

/-! ## Bounds that survive shrinking -/

omit [IsStrictOrderedRing K] in
theorem closed_abs_le (limit : K) :
    ClosedAlong Shrinks fun x : σ → K => ∀ s, |x s| ≤ limit :=
  fun _ _ hxy hx s => (hxy s).1.trans (hx s)

theorem closed_grossOf_le (scope : List σ) (limit : K) :
    ClosedAlong Shrinks fun x : σ → K => grossOf scope x ≤ limit :=
  fun _ _ hxy hx => (grossOf_le_of_shrinks hxy scope).trans hx

/-! ## Repairs -/

/-- Clip every value. -/
def clipTo (limit : K) (x : σ → K) : σ → K := fun s => max (-limit) (min limit (x s))

theorem repairs_clipTo {limit : K} (hlimit : 0 ≤ limit) :
    Repairs Shrinks (fun x : σ → K => ∀ s, |x s| ≤ limit) (clipTo limit) where
  related x s := ShrinksTo.clip (x s) hlimit
  repaired x s := abs_clip_le (x s) hlimit
  fixed _ hx := funext fun s => clip_eq_self (hx s)

theorem grossOf_mul {scope : List σ} {x y : σ → K} {c : K} (hc : 0 ≤ c)
    (h : ∀ s ∈ scope, y s = x s * c) : grossOf scope y = grossOf scope x * c := by
  have hmap : (scope.map fun s => |y s|) = scope.map fun s => |x s| * c := by
    refine List.map_congr_left fun s hs => ?_
    rw [h s hs, abs_mul, abs_of_nonneg hc]
  rw [grossOf, hmap, List.sum_map_mul_right, grossOf]

/-- Above its limit a gross is positive, and the factor is a proper one. -/
theorem factor_of_lt {gross limit : K} (hlimit : 0 ≤ limit) (h : limit < gross) :
    0 < gross ∧ 0 ≤ limit / gross ∧ limit / gross ≤ 1 := by
  have hgross : 0 < gross := hlimit.trans_lt h
  exact ⟨hgross, div_nonneg hlimit hgross.le, (div_le_one hgross).2 h.le⟩

section Scope

variable [DecidableEq σ]

/-- Scale the values of a scope down to a gross limit. -/
def scaleTo (scope : List σ) (limit : K) (x : σ → K) : σ → K :=
  if grossOf scope x ≤ limit then x
  else fun s => if s ∈ scope then x s * (limit / grossOf scope x) else x s

theorem grossOf_scaleTo {scope : List σ} {limit : K} {x : σ → K} (hlimit : 0 ≤ limit)
    (h : limit < grossOf scope x) : grossOf scope (scaleTo scope limit x) = limit := by
  obtain ⟨hgross, hfactor, -⟩ := factor_of_lt hlimit h
  have hscaled : ∀ s ∈ scope, scaleTo scope limit x s = x s * (limit / grossOf scope x) := by
    intro s hs
    rw [scaleTo, if_neg (not_le.2 h), if_pos hs]
  rw [grossOf_mul hfactor hscaled, mul_div_cancel₀ _ hgross.ne']

theorem repairs_scaleTo (scope : List σ) {limit : K} (hlimit : 0 ≤ limit) :
    Repairs Shrinks (fun x : σ → K => grossOf scope x ≤ limit) (scaleTo scope limit) where
  related x := by
    by_cases h : grossOf scope x ≤ limit
    · rw [scaleTo, if_pos h]
      exact Shrinks.refl x
    · obtain ⟨-, hfactor, hone⟩ := factor_of_lt hlimit (not_le.1 h)
      intro s
      rw [scaleTo, if_neg h]
      split_ifs
      · exact ShrinksTo.mul_right (x s) hfactor hone
      · exact ShrinksTo.refl (x s)
  repaired x := by
    by_cases h : grossOf scope x ≤ limit
    · rw [scaleTo, if_pos h]
      exact h
    · exact (grossOf_scaleTo hlimit (not_le.1 h)).le
  fixed x hx := by rw [scaleTo, if_pos hx]

omit [IsStrictOrderedRing K] in
/-- Values outside of the scope do not change. -/
theorem scaleTo_of_not_mem {scope : List σ} {limit : K} {x : σ → K} {s : σ} (hs : s ∉ scope) :
    scaleTo scope limit x s = x s := by
  unfold scaleTo
  split_ifs with h
  · rfl
  · exact if_neg hs

end Scope

/-! ## The net -/

/-- Scale the positive values down to an upper bound of the net. -/
def shrinkLong (scope : List σ) (upper : K) (x : σ → K) : σ → K :=
  if netOf scope x ≤ upper then x
  else fun s => if 0 < x s then x s * ((upper + shortOf scope x) / longOf scope x) else x s

/-- Scale the negative values down to a lower bound of the net. -/
def shrinkShort (scope : List σ) (lower : K) (x : σ → K) : σ → K :=
  if lower ≤ netOf scope x then x
  else fun s => if x s < 0 then x s * ((-lower + longOf scope x) / shortOf scope x) else x s

/-- Above its bound the net has a positive long side, and the factor is a proper one. -/
theorem long_factor {scope : List σ} {upper : K} {x : σ → K} (hupper : 0 ≤ upper)
    (h : ¬ netOf scope x ≤ upper) :
    0 < longOf scope x ∧ 0 ≤ (upper + shortOf scope x) / longOf scope x ∧
      (upper + shortOf scope x) / longOf scope x ≤ 1 := by
  have hshort := shortOf_nonneg scope x
  have hlt : upper + shortOf scope x < longOf scope x := by
    rw [netOf, not_le] at h
    linarith
  exact factor_of_lt (add_nonneg hupper hshort) hlt

theorem short_factor {scope : List σ} {lower : K} {x : σ → K} (hlower : lower ≤ 0)
    (h : ¬ lower ≤ netOf scope x) :
    0 < shortOf scope x ∧ 0 ≤ (-lower + longOf scope x) / shortOf scope x ∧
      (-lower + longOf scope x) / shortOf scope x ≤ 1 := by
  have hlong := longOf_nonneg scope x
  have hlt : -lower + longOf scope x < shortOf scope x := by
    rw [netOf, not_le] at h
    linarith
  exact factor_of_lt (by linarith) hlt

/-- Scaling the positive values scales the long side and leaves the short side alone. -/
theorem long_short_of_scaled (scope : List σ) {x y : σ → K} {c : K} (hc : 0 ≤ c)
    (h : ∀ s, y s = if 0 < x s then x s * c else x s) :
    longOf scope y = longOf scope x * c ∧ shortOf scope y = shortOf scope x := by
  have hlong : ∀ s, max (y s) 0 = max (x s) 0 * c := by
    intro s
    rw [h s]
    split_ifs with hs
    · rw [max_eq_left hs.le, max_eq_left (mul_nonneg hs.le hc)]
    · rw [max_eq_right (not_lt.1 hs), zero_mul]
  have hshort : ∀ s, max (-(y s)) 0 = max (-(x s)) 0 := by
    intro s
    rw [h s]
    split_ifs with hs
    · rw [max_eq_right (by linarith [mul_nonneg hs.le hc]), max_eq_right (by linarith)]
    · rfl
  constructor
  · rw [longOf, List.map_congr_left fun s _ => hlong s, List.sum_map_mul_right, longOf]
  · rw [shortOf, List.map_congr_left fun s _ => hshort s, shortOf]

theorem short_long_of_scaled (scope : List σ) {x y : σ → K} {c : K} (hc : 0 ≤ c)
    (h : ∀ s, y s = if x s < 0 then x s * c else x s) :
    shortOf scope y = shortOf scope x * c ∧ longOf scope y = longOf scope x := by
  have hnegated : ∀ s, (fun s => -(y s)) s =
      if 0 < (fun s => -(x s)) s then (fun s => -(x s)) s * c else (fun s => -(x s)) s := by
    intro s
    simp only [h s, Left.neg_pos_iff]
    split_ifs
    · ring
    · rfl
  have hswapped := long_short_of_scaled scope hc hnegated
  simpa only [longOf, shortOf, neg_neg] using hswapped

theorem netOf_shrinkLong {scope : List σ} {upper : K} {x : σ → K} (hupper : 0 ≤ upper)
    (h : ¬ netOf scope x ≤ upper) : netOf scope (shrinkLong scope upper x) = upper := by
  obtain ⟨hlong, hfactor, -⟩ := long_factor hupper h
  have hscaled := long_short_of_scaled scope (y := shrinkLong scope upper x) hfactor
    fun s => by rw [shrinkLong, if_neg h]
  rw [netOf, hscaled.1, hscaled.2, mul_div_cancel₀ _ hlong.ne']
  ring

theorem netOf_shrinkShort {scope : List σ} {lower : K} {x : σ → K} (hlower : lower ≤ 0)
    (h : ¬ lower ≤ netOf scope x) : netOf scope (shrinkShort scope lower x) = lower := by
  obtain ⟨hshort, hfactor, -⟩ := short_factor hlower h
  have hscaled := short_long_of_scaled scope (y := shrinkShort scope lower x) hfactor
    fun s => by rw [shrinkShort, if_neg h]
  rw [netOf, hscaled.1, hscaled.2, mul_div_cancel₀ _ hshort.ne']
  ring

theorem shrinks_shrinkLong (scope : List σ) {upper : K} (hupper : 0 ≤ upper) (x : σ → K) :
    Shrinks x (shrinkLong scope upper x) := by
  unfold shrinkLong
  split_ifs with h
  · exact Shrinks.refl x
  · obtain ⟨-, hfactor, hone⟩ := long_factor hupper h
    intro s
    dsimp only
    split_ifs
    · exact ShrinksTo.mul_right (x s) hfactor hone
    · exact ShrinksTo.refl (x s)

theorem shrinks_shrinkShort (scope : List σ) {lower : K} (hlower : lower ≤ 0) (x : σ → K) :
    Shrinks x (shrinkShort scope lower x) := by
  unfold shrinkShort
  split_ifs with h
  · exact Shrinks.refl x
  · obtain ⟨-, hfactor, hone⟩ := short_factor hlower h
    intro s
    dsimp only
    split_ifs
    · exact ShrinksTo.mul_right (x s) hfactor hone
    · exact ShrinksTo.refl (x s)

/-- The long side first: when it acts the net ends on the upper bound, which is not below the lower
one, so the short side has nothing left to do. -/
theorem repairs_net (scope : List σ) {lower upper : K} (hlower : lower ≤ 0) (hupper : 0 ≤ upper) :
    Repairs Shrinks (fun x : σ → K => lower ≤ netOf scope x ∧ netOf scope x ≤ upper)
      (shrinkShort scope lower ∘ shrinkLong scope upper) where
  related x := (shrinks_shrinkLong scope hupper x).trans (shrinks_shrinkShort scope hlower _)
  repaired x := by
    have hlong : netOf scope (shrinkLong scope upper x) ≤ upper := by
      by_cases h : netOf scope x ≤ upper
      · rw [shrinkLong, if_pos h]
        exact h
      · exact (netOf_shrinkLong hupper h).le
    rw [Function.comp_apply]
    by_cases h : lower ≤ netOf scope (shrinkLong scope upper x)
    · rw [shrinkShort, if_pos h]
      exact ⟨h, hlong⟩
    · rw [netOf_shrinkShort hlower h]
      exact ⟨le_refl _, hlower.trans hupper⟩
  fixed x hx := by
    rw [Function.comp_apply, shrinkLong, if_pos hx.2, shrinkShort, if_pos hx.1]

end Weights

end Foundation
