import AdaptiveTrader.Risk.Policy

/-!
# Convergence of the hard constraints

Each shrink step is the repair of one limit on the weight function. The limits on symbols, on the
gross, on groups and on components survive shrinking, the net bounds do not; so the second pass meets
every limit and the third one changes nothing (`Foundation.Repairs.twice`). The eight passes always
converge.

What can fail is the record of a control. Its scope has at most 128 characters, and the scope of a
component lists all its symbols: a component with a longer list cannot be shrunk
(`wide_component_rejected`). The constraints return a converged, shrunk, admissible result exactly
when no such component is above its limit (`constraints_converge_iff`).
-/

set_option autoImplicit false

namespace AdaptiveTrader

open Foundation

/-! ## Limits as repairs -/

section Limits

variable (policy : RiskPolicySpec) (groups : List RiskGroupSpec) (components : List (List String))
  (symbols : List String)

/-- The limits on single symbols and on the portfolio. -/
def SymbolLimits (x : String → ℚ) : Prop :=
  (∀ s, |x s| ≤ policy.maxAbsoluteSymbolWeight) ∧ grossOf symbols x ≤ policy.maxGrossWeight

/-- The bounds of the net. -/
def NetLimits (x : String → ℚ) : Prop :=
  policy.minNetWeight ≤ netOf symbols x ∧ netOf symbols x ≤ policy.maxNetWeight

/-- The limits on groups and components. -/
def ScopeLimits (x : String → ℚ) : Prop :=
  (∀ g ∈ groups, grossOf g.symbols x ≤ g.maxGrossWeight) ∧
    ∀ c ∈ components, grossOf c x ≤ policy.maxClusterGrossWeight

def limitSymbols : (String → ℚ) → String → ℚ :=
  scaleTo symbols policy.maxGrossWeight ∘ clipTo policy.maxAbsoluteSymbolWeight

def limitNet : (String → ℚ) → String → ℚ :=
  shrinkShort symbols policy.minNetWeight ∘ shrinkLong symbols policy.maxNetWeight

def limitGroups (x : String → ℚ) : String → ℚ :=
  groups.foldl (fun y g => scaleTo g.symbols g.maxGrossWeight y) x

def limitClusters (x : String → ℚ) : String → ℚ :=
  components.foldl (fun y c => scaleTo c policy.maxClusterGrossWeight y) x

/-- One pass on the weight function. -/
def passFunction : (String → ℚ) → String → ℚ :=
  (limitClusters policy components ∘ limitGroups groups) ∘ limitNet policy symbols ∘
    limitSymbols policy symbols

/-- The weights a pass hands to the component limits. -/
def beforeClusters (x : String → ℚ) : String → ℚ :=
  limitGroups groups (limitNet policy symbols (limitSymbols policy symbols x))

/-- Limits that the shrink steps can meet: flat weights meet them. -/
structure Admissible : Prop where
  symbol : 0 ≤ policy.maxAbsoluteSymbolWeight
  gross : 0 ≤ policy.maxGrossWeight
  lower : policy.minNetWeight ≤ 0
  upper : 0 ≤ policy.maxNetWeight
  cluster : 0 ≤ policy.maxClusterGrossWeight
  group : ∀ g ∈ groups, 0 ≤ g.maxGrossWeight

variable {policy groups components symbols}

theorem closed_symbolLimits : ClosedAlong Shrinks (SymbolLimits policy symbols) :=
  (closed_abs_le policy.maxAbsoluteSymbolWeight).and
    (closed_grossOf_le symbols policy.maxGrossWeight)

theorem closed_scopeLimits : ClosedAlong Shrinks (ScopeLimits policy groups components) :=
  (ClosedAlong.forall_mem fun g _ => closed_grossOf_le g.symbols g.maxGrossWeight).and
    (ClosedAlong.forall_mem fun c _ => closed_grossOf_le c policy.maxClusterGrossWeight)

theorem shrinks_trans (x y z : String → ℚ) (hxy : Shrinks x y) (hyz : Shrinks y z) : Shrinks x z :=
  hxy.trans hyz

variable (h : Admissible policy groups)

include h

theorem repairs_limitSymbols :
    Repairs Shrinks (SymbolLimits policy symbols) (limitSymbols policy symbols) :=
  Repairs.comp shrinks_trans (closed_abs_le policy.maxAbsoluteSymbolWeight)
    (repairs_clipTo h.symbol) (repairs_scaleTo symbols h.gross)

theorem repairs_limitNet : Repairs Shrinks (NetLimits policy symbols) (limitNet policy symbols) :=
  repairs_net symbols h.lower h.upper

theorem repairs_limitGroups : Repairs Shrinks
    (fun x => ∀ g ∈ groups, grossOf g.symbols x ≤ g.maxGrossWeight) (limitGroups groups) :=
  Repairs.foldl Shrinks.refl shrinks_trans
    (fun g _ => closed_grossOf_le g.symbols g.maxGrossWeight)
    fun g hg => repairs_scaleTo g.symbols (h.group g hg)

theorem repairs_limitClusters : Repairs Shrinks
    (fun x => ∀ c ∈ components, grossOf c x ≤ policy.maxClusterGrossWeight)
    (limitClusters policy components) :=
  Repairs.foldl Shrinks.refl shrinks_trans
    (fun c _ => closed_grossOf_le c policy.maxClusterGrossWeight)
    fun c _ => repairs_scaleTo c h.cluster

theorem repairs_limitScopes : Repairs Shrinks (ScopeLimits policy groups components)
    (limitClusters policy components ∘ limitGroups groups) :=
  Repairs.comp shrinks_trans
    (ClosedAlong.forall_mem fun g _ => closed_grossOf_le g.symbols g.maxGrossWeight)
    (repairs_limitGroups h) (repairs_limitClusters h)

/-- Two passes repair every limit. -/
theorem repairs_twoPasses : Repairs Shrinks
    (fun x => SymbolLimits policy symbols x ∧ NetLimits policy symbols x ∧
      ScopeLimits policy groups components x)
    (passFunction policy groups components symbols)^[2] :=
  Repairs.twice shrinks_trans closed_symbolLimits closed_scopeLimits (repairs_limitSymbols h)
    (repairs_limitNet h) (repairs_limitScopes h)

end Limits

/-! ## Steps on the weight function -/

/-- Weights are checked by their symbols alone. -/
theorem checkWeights_of_keys {weights weights' : List (String × ℚ)}
    (hkeys : weights'.map Prod.fst = weights.map Prod.fst) (h : checkWeights weights = .ok ()) :
    checkWeights weights' = .ok () := by
  have hany : ∀ w : List (String × ℚ), (w.any fun e => !isPolicySymbol e.1) =
      (w.map Prod.fst).any fun s => !isPolicySymbol s := fun w => by
    rw [List.any_map]
    rfl
  simp only [checkWeights, rejectIf_bind_eq_ok, rejectIf_eq_ok, hany] at h ⊢
  refine ⟨fun hnil => h.1 ?_, hkeys ▸ h.2.1, hkeys ▸ h.2.2⟩
  rw [← List.map_eq_nil_iff (f := Prod.fst), ← hkeys, hnil]
  rfl

theorem nodup_of_checkWeights {weights : List (String × ℚ)} (h : checkWeights weights = .ok ()) :
    (weights.map Prod.fst).Nodup := by
  simp only [checkWeights, rejectIf_bind_eq_ok, rejectIf_eq_ok, not_not] at h
  rw [h.2.2]
  exact nodup_sortedSet _

/-- Valid weights for the symbols, and controls in order. -/
structure Tracked (symbols : List String) (s : ConstraintState) : Prop where
  valid : checkWeights s.weights = .ok ()
  keys : s.weights.map Prod.fst = symbols
  ordinals : s.controls.map (·.ordinal) = List.range' 1 s.controls.length

/-- A step succeeds and changes the weight function by `f`. -/
def Steps (symbols : List String) (s : ConstraintState) (f : (String → ℚ) → String → ℚ)
    (step : Except PlatformError ConstraintState) : Prop :=
  ∃ s', step = .ok s' ∧ Tracked symbols s' ∧ weightOf s'.weights = f (weightOf s.weights)

section Steps

variable {symbols : List String} {s : ConstraintState}

theorem Tracked.nodup (h : Tracked symbols s) : symbols.Nodup := by
  rw [← h.keys]
  exact nodup_of_checkWeights h.valid

/-- The names that fit into a control. -/
def Namable (name : String) : Prop := name.toList ≠ [] ∧ name.toList.length ≤ 128

theorem recordControl_steps (h : Tracked symbols s) {weights : List (String × ℚ)}
    (hkeys : weights.map Prod.fst = symbols) {passNumber : Nat} (hpass : 1 ≤ passNumber)
    (control : RiskControl) {name : String} (hname : Namable name) {factor : ℚ}
    (hfactor : 0 ≤ factor ∧ factor ≤ 1) {f : (String → ℚ) → String → ℚ}
    (hweights : weightOf weights = f (weightOf s.weights)) :
    Steps symbols s f (recordControl s weights passNumber control name factor) := by
  have hvalid := checkWeights_of_keys (hkeys.trans h.keys.symm) h.valid
  refine ⟨_, validated_of_ok ?_, ⟨hvalid, hkeys, ?_⟩, hweights⟩
  · simp only [AppliedRiskControlFields.check, unit_bind_eq_ok, rejectIf_eq_ok, not_lt, not_or,
      not_not]
    exact ⟨hpass, Nat.le_add_left 1 _, ⟨hname.1, hname.2⟩, hfactor, h.valid, hvalid⟩
  · rw [List.map_append, h.ordinals, List.length_append, List.length_singleton, List.range'_concat]
    simp [Nat.add_comm]

/-- A recorded control has a name that fits. -/
theorem namable_of_recordControl {weights : List (String × ℚ)} {passNumber : Nat}
    {control : RiskControl} {name : String} {factor : ℚ} {s' : ConstraintState}
    (hok : recordControl s weights passNumber control name factor = .ok s') : Namable name := by
  obtain ⟨hcheck, -⟩ := validated_eq_ok.1 hok
  simp only [AppliedRiskControlFields.check, unit_bind_eq_ok, rejectIf_eq_ok, not_lt, not_or] at hcheck
  exact hcheck.2.2.1

theorem quotient_of_pos {x y : ℚ} (hy : 0 < y) : quotient x y = .ok (x / y) := by
  rw [quotient, rejectIf, if_neg hy.ne']
  rfl

/-- Scaling a scope scales the weight function on it. -/
theorem weightOf_scaled {weights : List (String × ℚ)} {scope : List String} {limit : ℚ}
    (hgross : limit < scopeGross weights scope) :
    weightOf (mapWeights (fun symbol w => if symbol ∈ scope then
      w * (limit / scopeGross weights scope) else w) weights) =
        scaleTo scope limit (weightOf weights) := by
  rw [scopeGross_eq] at hgross ⊢
  funext t
  rw [weightOf_mapWeights (by split_ifs <;> simp), scaleTo, if_neg (not_le.2 hgross)]

theorem scaleScopeGross_steps (h : Tracked symbols s) {scope : List String} {limit : ℚ}
    (hlimit : 0 ≤ limit) {passNumber : Nat} (hpass : 1 ≤ passNumber) (control : RiskControl)
    {name : String} (hname : scopeGross s.weights scope ≤ limit ∨ Namable name) :
    Steps symbols s (scaleTo scope limit)
      (scaleScopeGross scope limit passNumber control name s) := by
  by_cases hgross : scopeGross s.weights scope ≤ limit
  · exact ⟨s, if_pos hgross, h, (if_pos hgross).symm⟩
  · have hlt := not_le.1 hgross
    obtain ⟨hpos, hfactor⟩ := factor_of_lt hlimit hlt
    have hscaled := weightOf_scaled hlt
    -- The scaled gross is the limit itself, so exact arithmetic leaves nothing to trim.
    have htrim : trimGrossExcess (mapWeights (fun symbol w => if symbol ∈ scope then
        w * (limit / scopeGross s.weights scope) else w) s.weights) scope limit =
          .ok (mapWeights (fun symbol w => if symbol ∈ scope then
            w * (limit / scopeGross s.weights scope) else w) s.weights) := by
      rw [trimGrossExcess, scopeGross_eq, hscaled, grossOf_scaleTo hlimit hlt, sub_self]
      exact if_pos (le_refl 0)
    have hstep := recordControl_steps h (f := scaleTo scope limit)
      ((map_fst_mapWeights _ s.weights).trans h.keys) hpass control
      (hname.resolve_left hgross) hfactor hscaled
    rw [scaleScopeGross, if_neg hgross, quotient_of_pos hpos]
    show Steps symbols s _ (trimGrossExcess _ _ _ >>= fun trimmed =>
      recordControl s trimmed passNumber control name _)
    rw [htrim]
    exact hstep

theorem Tracked.positive_eq (h : Tracked symbols s) :
    positiveSum s.weights = longOf symbols (weightOf s.weights) := by
  rw [positiveSum_eq (nodup_of_checkWeights h.valid), h.keys]

theorem Tracked.short_eq (h : Tracked symbols s) :
    shortSum s.weights = shortOf symbols (weightOf s.weights) := by
  rw [shortSum_eq (nodup_of_checkWeights h.valid), h.keys]

theorem Tracked.net_eq (h : Tracked symbols s) :
    positiveSum s.weights - shortSum s.weights = netOf symbols (weightOf s.weights) := by
  rw [h.positive_eq, h.short_eq, netOf]

/-- The net of rewritten weights. -/
theorem Tracked.net_mapWeights (h : Tracked symbols s) (f : String → ℚ → ℚ) :
    positiveSum (mapWeights f s.weights) - shortSum (mapWeights f s.weights) =
      netOf symbols (weightOf (mapWeights f s.weights)) := by
  have hkeys := (map_fst_mapWeights f s.weights).trans h.keys
  rw [AdaptiveTrader.net_eq (by rw [hkeys]; exact h.nodup), hkeys]

theorem scalePositiveNet_steps (h : Tracked symbols s) {limit : ℚ} (hlimit : 0 ≤ limit)
    {passNumber : Nat} (hpass : 1 ≤ passNumber) :
    Steps symbols s (shrinkLong symbols limit) (scalePositiveNet limit passNumber s) := by
  by_cases hnet : netOf symbols (weightOf s.weights) ≤ limit
  · refine ⟨s, ?_, h, (if_pos hnet).symm⟩
    rw [scalePositiveNet, h.net_eq, if_pos hnet]
  · obtain ⟨hlong, hfactor⟩ := long_factor hlimit hnet
    rw [← h.positive_eq] at hlong
    rw [← h.positive_eq, ← h.short_eq] at hfactor
    set factor := (limit + shortSum s.weights) / positiveSum s.weights with hfactorEq
    set scaled := mapWeights (fun _ w => if 0 < w then w * factor else w) s.weights with hscaledEq
    have hscaled : weightOf scaled = shrinkLong symbols limit (weightOf s.weights) := by
      funext t
      rw [hscaledEq, weightOf_mapWeights (by simp), shrinkLong, if_neg hnet, hfactorEq,
        h.positive_eq, h.short_eq]
    have htrim : trimPositiveNet scaled limit = .ok scaled := by
      rw [trimPositiveNet, hscaledEq, h.net_mapWeights, ← hscaledEq, hscaled,
        netOf_shrinkLong hlimit hnet, sub_self]
      exact if_pos (le_refl 0)
    have hstep := recordControl_steps h (f := shrinkLong symbols limit)
      ((map_fst_mapWeights _ s.weights).trans h.keys) hpass .netLong
      (show Namable "positive_weights" from ⟨by decide, by decide⟩) hfactor hscaled
    have hreject : rejectIf (¬ (0 ≤ factor ∧ factor ≤ 1))
        (PlatformError.signedRiskPolicy "positive-net shrink factor is invalid") = .ok () :=
      rejectIf_eq_ok.2 (not_not.2 hfactor)
    rw [scalePositiveNet, h.net_eq, if_neg hnet, quotient_of_pos hlong]
    show Steps symbols s _ (rejectIf _ _ >>= fun _ => trimPositiveNet scaled limit >>= fun trimmed =>
      recordControl s trimmed passNumber _ _ factor)
    rw [hreject, htrim]
    exact hstep

theorem scaleNegativeNet_steps (h : Tracked symbols s) {limit : ℚ} (hlimit : limit ≤ 0)
    {passNumber : Nat} (hpass : 1 ≤ passNumber) :
    Steps symbols s (shrinkShort symbols limit) (scaleNegativeNet limit passNumber s) := by
  by_cases hnet : limit ≤ netOf symbols (weightOf s.weights)
  · refine ⟨s, ?_, h, (if_pos hnet).symm⟩
    rw [scaleNegativeNet, h.net_eq, if_pos hnet]
  · obtain ⟨hshort, hfactor⟩ := short_factor hlimit hnet
    rw [← h.short_eq] at hshort
    rw [← h.positive_eq, ← h.short_eq] at hfactor
    set factor := (-limit + positiveSum s.weights) / shortSum s.weights with hfactorEq
    set scaled := mapWeights (fun _ w => if w < 0 then w * factor else w) s.weights with hscaledEq
    have hscaled : weightOf scaled = shrinkShort symbols limit (weightOf s.weights) := by
      funext t
      rw [hscaledEq, weightOf_mapWeights (by simp), shrinkShort, if_neg hnet, hfactorEq,
        h.positive_eq, h.short_eq]
    have htrim : trimNegativeNet scaled limit = .ok scaled := by
      rw [trimNegativeNet, hscaledEq, h.net_mapWeights, ← hscaledEq, hscaled,
        netOf_shrinkShort hlimit hnet, sub_self]
      exact if_pos (le_refl 0)
    have hstep := recordControl_steps h (f := shrinkShort symbols limit)
      ((map_fst_mapWeights _ s.weights).trans h.keys) hpass .netShort
      (show Namable "negative_weights" from ⟨by decide, by decide⟩) hfactor hscaled
    have hreject : rejectIf (¬ (0 ≤ factor ∧ factor ≤ 1))
        (PlatformError.signedRiskPolicy "negative-net shrink factor is invalid") = .ok () :=
      rejectIf_eq_ok.2 (not_not.2 hfactor)
    rw [scaleNegativeNet, h.net_eq, if_neg hnet, quotient_of_pos hshort]
    show Steps symbols s _ (rejectIf _ _ >>= fun _ => trimNegativeNet scaled limit >>= fun trimmed =>
      recordControl s trimmed passNumber _ _ factor)
    rw [hreject, htrim]
    exact hstep

/-! ## Passes on the weight function -/

theorem Steps.bind {f g : (String → ℚ) → String → ℚ} {step : Except PlatformError ConstraintState}
    {next : ConstraintState → Except PlatformError ConstraintState} (hf : Steps symbols s f step)
    (hg : ∀ s', Tracked symbols s' → weightOf s'.weights = f (weightOf s.weights) →
      Steps symbols s' g (next s')) : Steps symbols s (g ∘ f) (step >>= next) := by
  obtain ⟨s', rfl, hs', hweights⟩ := hf
  obtain ⟨t, ht, htracked, htweights⟩ := hg s' hs' hweights
  exact ⟨t, ht, htracked, by rw [htweights, hweights]; rfl⟩

/-- A list of steps with conditions that they keep. -/
theorem foldlM_steps {ι : Type} {step : ConstraintState → ι → Except PlatformError ConstraintState}
    {f : ι → (String → ℚ) → String → ℚ} {p : ι → (String → ℚ) → Prop} {l : List ι}
    (hkeep : ∀ i ∈ l, ∀ j ∈ l, ∀ x, p j x → p j (f i x))
    (hstep : ∀ i ∈ l, ∀ s, Tracked symbols s → p i (weightOf s.weights) →
      Steps symbols s (f i) (step s i))
    (h : Tracked symbols s) (hpre : ∀ i ∈ l, p i (weightOf s.weights)) :
    Steps symbols s (fun x => l.foldl (fun y i => f i y) x) (l.foldlM step s) := by
  induction l generalizing s with
  | nil => exact ⟨s, rfl, h, rfl⟩
  | cons i rest ih =>
      have hhead := hstep i List.mem_cons_self s h (hpre i List.mem_cons_self)
      rw [List.foldlM_cons]
      refine hhead.bind (g := fun x => rest.foldl (fun y i => f i y) x) fun s' hs' hweights => ?_
      refine ih (fun j hj k hk => hkeep j (List.mem_cons_of_mem i hj) k (List.mem_cons_of_mem i hk))
        (fun j hj => hstep j (List.mem_cons_of_mem i hj)) hs' fun j hj => ?_
      rw [hweights]
      exact hkeep i List.mem_cons_self j (List.mem_cons_of_mem i hj) _
        (hpre j (List.mem_cons_of_mem i hj))

/-- Clip one value. -/
def clipAt (limit : ℚ) (symbol : String) (x : String → ℚ) : String → ℚ :=
  fun t => if t = symbol then max (-limit) (min limit (x t)) else x t

theorem length_toList_of_isPolicySymbol {symbol : String} (h : isPolicySymbol symbol = true) :
    symbol.toList.length ≤ 10 := by
  simp only [isPolicySymbol, Bool.and_eq_true, decide_eq_true_eq] at h
  exact h.1.1.2

theorem Tracked.isPolicySymbol (h : Tracked symbols s) {symbol : String} (hmem : symbol ∈ symbols) :
    isPolicySymbol symbol = true := by
  have hvalid := h.valid
  simp only [checkWeights, rejectIf_bind_eq_ok, List.any_eq_true, Bool.not_eq_true', not_exists,
    not_and, Bool.not_eq_false] at hvalid
  rw [← h.keys] at hmem
  obtain ⟨e, he, rfl⟩ := List.mem_map.1 hmem
  exact hvalid.2.1 e he

theorem clipSymbol_steps (h : Tracked symbols s) {limit : ℚ} (hlimit : 0 ≤ limit) {passNumber : Nat}
    (hpass : 1 ≤ passNumber) {symbol : String} (hmem : symbol ∈ symbols) :
    Steps symbols s (clipAt limit symbol) (clipSymbol limit passNumber s symbol) := by
  set value := weightOf s.weights symbol with hvalue
  set clipped := max (-limit) (min limit value) with hclipped
  by_cases hsame : clipped = value
  · refine ⟨s, if_pos hsame, h, ?_⟩
    funext t
    by_cases ht : t = symbol
    · rw [clipAt, if_pos ht, ht, ← hvalue, ← hclipped, hsame]
    · rw [clipAt, if_neg ht]
  · have hshrinks := ShrinksTo.clip value hlimit
    rw [← hclipped] at hshrinks
    -- Clipping changes no zero, so the ratio has a denominator.
    have hne : value ≠ 0 := by
      intro hzero
      rw [hzero] at hshrinks hsame
      exact hsame hshrinks.eq_zero
    have hquotient : quotient clipped value = .ok (clipped / value) := by
      rw [quotient, rejectIf, if_neg hne]
      rfl
    have hratio : 0 ≤ |clipped / value| ∧ |clipped / value| ≤ 1 := by
      refine ⟨abs_nonneg _, ?_⟩
      rw [abs_div]
      exact (div_le_one (abs_pos.2 hne)).2 hshrinks.1
    have hname : Namable ("symbol:" ++ symbol) := by
      have hlength := length_toList_of_isPolicySymbol (h.isPolicySymbol hmem)
      refine ⟨by simp [String.toList_append], ?_⟩
      rw [String.toList_append, List.length_append]
      have hprefix : "symbol:".toList.length = 7 := by decide
      omega
    have hweights : weightOf (setWeight s.weights symbol clipped) =
        clipAt limit symbol (weightOf s.weights) := by
      funext t
      rw [weightOf_setWeight (h.keys ▸ hmem), clipAt]
      split_ifs with ht
      · rw [ht]
      · rfl
    have hstep := recordControl_steps h (f := clipAt limit symbol)
      ((map_fst_mapWeights _ s.weights).trans h.keys) hpass .symbolClip hname hratio hweights
    show Steps symbols s _ (if clipped = value then _ else _)
    rw [if_neg hsame, hquotient]
    exact hstep

theorem foldl_clipAt (limit : ℚ) {l : List String} (hn : l.Nodup) (x : String → ℚ) (t : String) :
    l.foldl (fun y symbol => clipAt limit symbol y) x t =
      if t ∈ l then max (-limit) (min limit (x t)) else x t := by
  induction l generalizing x with
  | nil => simp
  | cons symbol rest ih =>
      rw [List.nodup_cons] at hn
      rw [List.foldl_cons, ih hn.2]
      by_cases ht : t = symbol
      · subst ht
        rw [if_neg hn.1, if_pos List.mem_cons_self, clipAt, if_pos rfl]
      · simp [clipAt, ht]

theorem clipSymbols_steps (h : Tracked symbols s) {limit : ℚ} (hlimit : 0 ≤ limit)
    {passNumber : Nat} (hpass : 1 ≤ passNumber) :
    Steps symbols s (clipTo limit) (clipSymbols symbols limit passNumber s) := by
  obtain ⟨s', hstep, htracked, hweights⟩ := foldlM_steps (p := fun _ _ => True) (l := symbols)
    (fun _ _ _ _ _ _ => trivial)
    (fun _ hmem _ ht _ => clipSymbol_steps ht hlimit hpass hmem) h fun _ _ => trivial
  refine ⟨s', hstep, htracked, ?_⟩
  rw [hweights]
  funext t
  show symbols.foldl (fun y symbol => clipAt limit symbol y) (weightOf s.weights) t = _
  rw [foldl_clipAt limit h.nodup]
  split_ifs with ht
  · rfl
  · -- A symbol without a weight has weight zero, which is not clipped.
    have hzero : weightOf s.weights t = 0 := weightOf_of_not_mem (h.keys ▸ ht)
    rw [clipTo, hzero, (ShrinksTo.clip (0 : ℚ) hlimit).eq_zero]

variable {policy : RiskPolicySpec} {groups : List RiskGroupSpec} {components : List (List String)}

/-- The components whose gross exceeds the limit have names that fit into a control. -/
def ClustersNamable (policy : RiskPolicySpec) (components : List (List String)) (x : String → ℚ) :
    Prop :=
  ∀ c ∈ components, grossOf c x ≤ policy.maxClusterGrossWeight ∨ Namable (clusterName c)

theorem namable_group (g : RiskGroupSpec) : Namable ("group:" ++ g.id) := by
  have hid := g.idValid
  refine ⟨by simp [String.toList_append], ?_⟩
  rw [String.toList_append, List.length_append]
  have hprefix : "group:".toList.length = 6 := by decide
  have hlength : g.id.toList.length ≤ 64 := by
    unfold isSafeCode at hid
    cases hchars : g.id.toList with
    | nil => simp
    | cons c cs =>
        simp only [hchars, matchesHeadTail, Bool.and_eq_true, decide_eq_true_eq] at hid
        rw [List.length_cons]
        omega
  omega

/-- The steps of a pass before the component limits. -/
theorem limitUntilGroups_steps (hadmissible : Admissible policy groups) (h : Tracked symbols s)
    {passNumber : Nat} (hpass : 1 ≤ passNumber) :
    Steps symbols s (beforeClusters policy groups symbols)
      (limitUntilGroups policy groups symbols passNumber s) := by
  refine (clipSymbols_steps h hadmissible.symbol hpass).bind (g := limitGroups groups ∘
    limitNet policy symbols ∘ scaleTo symbols policy.maxGrossWeight) fun clipped hclipped _ => ?_
  refine (scaleScopeGross_steps hclipped hadmissible.gross hpass .gross
    (Or.inr ⟨by decide, by decide⟩)).bind (g := limitGroups groups ∘ limitNet policy symbols)
      fun scaled hscaled _ => ?_
  refine (scalePositiveNet_steps hscaled hadmissible.upper hpass).bind (g := limitGroups groups ∘
    shrinkShort symbols policy.minNetWeight) fun long hlong _ => ?_
  refine (scaleNegativeNet_steps hlong hadmissible.lower hpass).bind (g := limitGroups groups)
    fun short hshort _ => ?_
  exact foldlM_steps (p := fun _ _ => True) (fun _ _ _ _ _ _ => trivial)
    (fun g hg _ ht _ => scaleScopeGross_steps ht (hadmissible.group g hg) hpass .riskGroupGross
      (Or.inr (namable_group g))) hshort fun _ _ => trivial

/-- A pass succeeds when the components above their limit can be named. -/
theorem constraintPass_steps (hadmissible : Admissible policy groups) (h : Tracked symbols s)
    {passNumber : Nat} (hpass : 1 ≤ passNumber)
    (hnames : ClustersNamable policy components
      (beforeClusters policy groups symbols (weightOf s.weights))) :
    Steps symbols s (passFunction policy groups components symbols)
      (constraintPass policy groups components symbols passNumber s) := by
  refine (limitUntilGroups_steps hadmissible h hpass).bind (g := limitClusters policy components)
    fun grouped hgrouped hweights => ?_
  refine foldlM_steps (p := fun c x => grossOf c x ≤ policy.maxClusterGrossWeight ∨
      Namable (clusterName c)) (fun c _ d _ x hd => ?_)
    (fun c _ s hs hc => scaleScopeGross_steps hs hadmissible.cluster hpass .clusterGross hc) hgrouped
    fun c hc => ?_
  · -- Scaling one component does not raise the gross of another.
    rcases hd with hd | hd
    · exact Or.inl ((grossOf_le_of_shrinks ((repairs_scaleTo c hadmissible.cluster).related x) d).trans
        hd)
    · exact Or.inr hd
  · rw [hweights]
    exact hnames c hc

/-- A component that is scaled has a name that fits. -/
theorem namable_of_scaleCluster {limit : ℚ} {passNumber : Nat} {c : List String}
    {s' : ConstraintState} (hok : scaleCluster limit passNumber s c = .ok s') :
    grossOf c (weightOf s.weights) ≤ limit ∨ Namable (clusterName c) := by
  by_cases hgross : scopeGross s.weights c ≤ limit
  · exact Or.inl hgross
  · rw [scaleCluster, scaleScopeGross, if_neg hgross] at hok
    simp only [bind_eq_ok] at hok
    obtain ⟨_, -, _, -, hrecord⟩ := hok
    exact Or.inr (namable_of_recordControl hrecord)

theorem clustersNamable_of_ok (hadmissible : Admissible policy groups) (h : Tracked symbols s)
    {passNumber : Nat} (hpass : 1 ≤ passNumber) (hdisjoint : components.Pairwise List.Disjoint)
    {s' : ConstraintState}
    (hok : components.foldlM (scaleCluster policy.maxClusterGrossWeight passNumber) s = .ok s') :
    ClustersNamable policy components (weightOf s.weights) := by
  induction components generalizing s with
  | nil => intro c hc; cases hc
  | cons c rest ih =>
      rw [List.foldlM_cons, bind_eq_ok] at hok
      obtain ⟨t, hhead, hrest⟩ := hok
      have hname := namable_of_scaleCluster hhead
      obtain ⟨t', ht', htracked, hweights⟩ := scaleScopeGross_steps h hadmissible.cluster hpass
        .clusterGross hname
      obtain rfl : t' = t := Except.ok.inj (ht'.symm.trans hhead)
      rw [List.pairwise_cons] at hdisjoint
      intro d hd
      rcases List.mem_cons.1 hd with rfl | hmem
      · exact hname
      · -- The components are disjoint, so scaling `c` does not change the gross of `d`.
        have hsame : grossOf d (weightOf t'.weights) = grossOf d (weightOf s.weights) := by
          rw [hweights, grossOf, grossOf]
          congr 1
          refine List.map_congr_left fun symbol hsymbol => ?_
          rw [scaleTo_of_not_mem fun hc => hdisjoint.1 d hmem hc hsymbol]
        have hlater := ih htracked hdisjoint.2 hrest d hmem
        rwa [hsame] at hlater

/-- A pass that succeeds could name the components above their limit. -/
theorem clustersNamable_of_constraintPass (hadmissible : Admissible policy groups)
    (h : Tracked symbols s) {passNumber : Nat} (hpass : 1 ≤ passNumber)
    (hdisjoint : components.Pairwise List.Disjoint) {s' : ConstraintState}
    (hok : constraintPass policy groups components symbols passNumber s = .ok s') :
    ClustersNamable policy components
      (beforeClusters policy groups symbols (weightOf s.weights)) := by
  obtain ⟨grouped, hgrouped, htracked, hweights⟩ := limitUntilGroups_steps hadmissible h hpass
  rw [constraintPass, hgrouped] at hok
  rw [← hweights]
  exact clustersNamable_of_ok hadmissible htracked hpass hdisjoint hok

/-! ## The iteration -/

/-- Every limit, on the weight function. -/
def Meets (policy : RiskPolicySpec) (groups : List RiskGroupSpec) (components : List (List String))
    (symbols : List String) (x : String → ℚ) : Prop :=
  SymbolLimits policy symbols x ∧ NetLimits policy symbols x ∧ ScopeLimits policy groups components x

theorem hardLimits_iff (hadmissible : Admissible policy groups) (h : Tracked symbols s) :
    HardLimits policy groups components s.weights ↔
      Meets policy groups components symbols (weightOf s.weights) := by
  have hsymbol : (∀ e ∈ s.weights, |e.2| ≤ policy.maxAbsoluteSymbolWeight) ↔
      ∀ t, |weightOf s.weights t| ≤ policy.maxAbsoluteSymbolWeight := by
    have hn := nodup_of_checkWeights h.valid
    constructor
    · intro hall t
      by_cases ht : t ∈ s.weights.map Prod.fst
      · obtain ⟨e, he, rfl⟩ := List.mem_map.1 ht
        rw [weightOf_of_mem hn he]
        exact hall e he
      · rw [weightOf_of_not_mem ht, abs_zero]
        exact hadmissible.symbol
    · intro hall e he
      rw [← weightOf_of_mem hn he]
      exact hall e.1
  have hgross : positiveSum s.weights + shortSum s.weights =
      grossOf symbols (weightOf s.weights) := by
    rw [h.positive_eq, h.short_eq, grossOf_eq_add]
  simp only [HardLimits, Meets, SymbolLimits, NetLimits, ScopeLimits, hsymbol, hgross, h.net_eq,
    scopeGross_eq, and_assoc]
  constructor
  · rintro ⟨ha, hb, hc, hd, he⟩
    exact ⟨ha, hb, hd, hc, he⟩
  · rintro ⟨ha, hb, hc, hd, he⟩
    exact ⟨ha, hb, hd, hc, he⟩

theorem passConverged_eq (h : Tracked symbols s)
    (hgroups : checkRiskGroups groups (some symbols) = .ok ()) (start : List (String × ℚ)) :
    passConverged policy groups components start s.weights =
      .ok (decide (maximumChange start s.weights ≤ convergenceTolerance ∧
        HardLimits policy groups components s.weights)) := by
  have hsatisfied : constraintsSatisfiedOver components s.weights policy groups =
      .ok (decide (HardLimits policy groups components s.weights)) := by
    simp only [constraintsSatisfiedOver, unit_bind_eq_ok, pure_eq_ok, and_true]
    exact ⟨h.valid, h.keys ▸ hgroups⟩
  rw [passConverged]
  split_ifs with hchange
  · rw [hsatisfied]
    simp [hchange]
  · simp [hchange]

/-- A pass succeeds and either ends the iteration or leaves it to the next one. -/
theorem constraintPasses_succ (hadmissible : Admissible policy groups) (h : Tracked symbols s)
    (hgroups : checkRiskGroups groups (some symbols) = .ok ()) {passNumber : Nat}
    (hpass : 1 ≤ passNumber) (hnames : ClustersNamable policy components
      (beforeClusters policy groups symbols (weightOf s.weights))) (remaining : Nat) :
    ∃ next, Tracked symbols next ∧
      weightOf next.weights = passFunction policy groups components symbols (weightOf s.weights) ∧
      constraintPasses policy groups components symbols (remaining + 1) passNumber s =
        if maximumChange s.weights next.weights ≤ convergenceTolerance ∧
            HardLimits policy groups components next.weights then .ok (true, next)
        else constraintPasses policy groups components symbols remaining (passNumber + 1) next := by
  obtain ⟨next, hnext, htracked, hweights⟩ := constraintPass_steps hadmissible h hpass hnames
  refine ⟨next, htracked, hweights, ?_⟩
  rw [constraintPasses, hnext]
  show (passConverged policy groups components s.weights next.weights >>= fun converged =>
    if converged = true then Except.ok (true, next)
    else constraintPasses policy groups components symbols remaining (passNumber + 1) next) = _
  rw [passConverged_eq htracked hgroups]
  show (if decide _ = true then _ else _) = _
  simp only [decide_eq_true_eq]

/-- Weights with one weight function do not change. -/
theorem maximumChange_eq_zero {start finish : List (String × ℚ)}
    (hn : (start.map Prod.fst).Nodup) (h : weightOf finish = weightOf start) :
    maximumChange start finish = 0 := by
  have hzero : ∀ c ∈ start.map fun e => |e.2 - weightOf finish e.1|, c = 0 := by
    intro c hc
    obtain ⟨e, he, rfl⟩ := List.mem_map.1 hc
    rw [h, weightOf_of_mem hn he, sub_self, abs_zero]
  unfold maximumChange
  generalize (start.map fun e => |e.2 - weightOf finish e.1|) = changes at hzero ⊢
  induction changes with
  | nil => rfl
  | cons c rest ih =>
      rw [List.foldr_cons, ih fun d hd => hzero d (List.mem_cons_of_mem c hd),
        hzero c List.mem_cons_self, max_self]

theorem shrinks_beforeClusters (hadmissible : Admissible policy groups) (x : String → ℚ) :
    Shrinks x (beforeClusters policy groups symbols x) :=
  ((repairs_limitSymbols hadmissible).related x).trans
    (((repairs_limitNet hadmissible).related _).trans ((repairs_limitGroups hadmissible).related _))

theorem shrinks_passFunction (hadmissible : Admissible policy groups) (x : String → ℚ) :
    Shrinks x (passFunction policy groups components symbols x) :=
  (shrinks_beforeClusters hadmissible x).trans ((repairs_limitClusters hadmissible).related _)

/-- Behind the first pass every component meets its limit, before and after the groups. -/
theorem clustersNamable_of_scopeLimits (hadmissible : Admissible policy groups) {x : String → ℚ}
    (h : ScopeLimits policy groups components x) :
    ClustersNamable policy components (beforeClusters policy groups symbols x) :=
  fun c hc => Or.inl ((closed_scopeLimits x _ (shrinks_beforeClusters hadmissible x) h).2 c hc)

theorem scopeLimits_passFunction (hadmissible : Admissible policy groups) (x : String → ℚ) :
    ScopeLimits policy groups components (passFunction policy groups components symbols x) :=
  (repairs_limitScopes hadmissible).repaired _

/-- The result of an iteration that converged. -/
structure Converged (policy : RiskPolicySpec) (groups : List RiskGroupSpec)
    (components : List (List String)) (symbols : List String) (s final : ConstraintState) : Prop where
  tracked : Tracked symbols final
  shrinks : Shrinks (weightOf s.weights) (weightOf final.weights)
  limits : HardLimits policy groups components final.weights

/-- Weights that meet every limit end the iteration with the next pass. -/
theorem constraintPasses_of_meets (hadmissible : Admissible policy groups) (h : Tracked symbols s)
    (hgroups : checkRiskGroups groups (some symbols) = .ok ()) {passNumber : Nat}
    (hpass : 1 ≤ passNumber)
    (hmeets : Meets policy groups components symbols (weightOf s.weights)) (remaining : Nat) :
    ∃ final, Converged policy groups components symbols s final ∧
      constraintPasses policy groups components symbols (remaining + 1) passNumber s =
        .ok (true, final) := by
  obtain ⟨next, htracked, hweights, heq⟩ := constraintPasses_succ hadmissible h hgroups hpass
    (clustersNamable_of_scopeLimits hadmissible hmeets.2.2) remaining
  have hfixed : passFunction policy groups components symbols (weightOf s.weights) =
      weightOf s.weights := by
    show (limitClusters policy components ∘ limitGroups groups)
      (limitNet policy symbols (limitSymbols policy symbols (weightOf s.weights))) = _
    rw [(repairs_limitSymbols hadmissible).fixed _ hmeets.1,
      (repairs_limitNet hadmissible).fixed _ hmeets.2.1,
      (repairs_limitScopes hadmissible).fixed _ hmeets.2.2]
  rw [hfixed] at hweights
  have hchange := maximumChange_eq_zero (nodup_of_checkWeights h.valid) hweights
  have hlimits : HardLimits policy groups components next.weights :=
    (hardLimits_iff hadmissible htracked).2 (hweights ▸ hmeets)
  refine ⟨next, ⟨htracked, hweights ▸ Shrinks.refl _, hlimits⟩, ?_⟩
  rw [heq, if_pos ⟨by rw [hchange, convergenceTolerance]; norm_num, hlimits⟩]

/-- The eight passes converge when the first one can name its components. -/
theorem constraintPasses_converge (hadmissible : Admissible policy groups) (h : Tracked symbols s)
    (hgroups : checkRiskGroups groups (some symbols) = .ok ())
    (hnames : ClustersNamable policy components
      (beforeClusters policy groups symbols (weightOf s.weights))) :
    ∃ final, Converged policy groups components symbols s final ∧
      constraintPasses policy groups components symbols maxConstraintPasses 1 s =
        .ok (true, final) := by
  obtain ⟨first, hfirst, hfirstWeights, hfirstEq⟩ :=
    constraintPasses_succ hadmissible h hgroups (le_refl 1) hnames 7
  have hfirstShrinks : Shrinks (weightOf s.weights) (weightOf first.weights) :=
    hfirstWeights ▸ shrinks_passFunction hadmissible _
  by_cases hone : maximumChange s.weights first.weights ≤ convergenceTolerance ∧
      HardLimits policy groups components first.weights
  · exact ⟨first, ⟨hfirst, hfirstShrinks, hone.2⟩, by rw [maxConstraintPasses, hfirstEq, if_pos hone]⟩
  · have hscopes : ScopeLimits policy groups components (weightOf first.weights) :=
      hfirstWeights ▸ scopeLimits_passFunction hadmissible _
    obtain ⟨second, hsecond, hsecondWeights, hsecondEq⟩ := constraintPasses_succ hadmissible hfirst
      hgroups (show 1 ≤ 1 + 1 by decide) (clustersNamable_of_scopeLimits hadmissible hscopes) 6
    have hsecondShrinks : Shrinks (weightOf s.weights) (weightOf second.weights) :=
      hfirstShrinks.trans (hsecondWeights ▸ shrinks_passFunction hadmissible _)
    -- Two passes meet every limit, so the third one ends the iteration if the second does not.
    have hmeets : Meets policy groups components symbols (weightOf second.weights) := by
      have htwice := (@repairs_twoPasses _ _ components symbols
        hadmissible).repaired (weightOf s.weights)
      rw [Function.iterate_succ_apply, Function.iterate_one, ← hfirstWeights, ← hsecondWeights]
        at htwice
      exact htwice
    rw [maxConstraintPasses, hfirstEq, if_neg hone, hsecondEq]
    split_ifs with htwo
    · exact ⟨second, ⟨hsecond, hsecondShrinks, htwo.2⟩, rfl⟩
    · obtain ⟨final, hfinal, hfinalEq⟩ := constraintPasses_of_meets hadmissible hsecond hgroups
        (show 1 ≤ 1 + 1 + 1 by decide) hmeets 5
      exact ⟨final, ⟨hfinal.tracked, hsecondShrinks.trans hfinal.shrinks, hfinal.limits⟩, hfinalEq⟩

end Steps

/-! ## Exposures -/

/-- A partition that `checkComponents` accepts. -/
structure ComponentsOf (symbols : List String) (components : List (List String)) : Prop where
  nonempty : ∀ c ∈ components, c ≠ []
  disjoint : components.Pairwise List.Disjoint
  perm : components.flatten.Perm symbols
  ordered : components.Pairwise fun c d => componentHead c < componentHead d

theorem componentHead_mem {c : List String} (h : c ≠ []) : componentHead c ∈ c := by
  cases c with
  | nil => exact absurd rfl h
  | cons symbol rest => exact List.mem_cons_self

theorem componentsOf_of_check {symbols : List String} {components : List (List String)}
    (h : checkComponents components symbols = .ok ()) : ComponentsOf symbols components := by
  simp only [checkComponents, rejectIf_bind_eq_ok, rejectIf_eq_ok, not_or, not_not] at h
  obtain ⟨hnil, -, ⟨hsorted, hnodup⟩, hordered⟩ := h
  have hnonempty : ∀ c ∈ components, c ≠ [] := fun c hc hc' => hnil (hc' ▸ hc)
  have hdisjoint := (List.nodup_flatten.1 hnodup).2
  refine ⟨hnonempty, hdisjoint, hsorted ▸ (sortedBy_perm id components.flatten).symm, ?_⟩
  have hle := sortedBy_pairwise componentHead components
  rw [← hordered] at hle
  refine List.Pairwise.imp_of_mem ?_ (hle.and hdisjoint)
  rintro c d hc hd ⟨hcd, hdisj⟩
  refine lt_of_le_of_ne hcd fun heq => ?_
  exact hdisj (componentHead_mem (hnonempty c hc)) (heq ▸ componentHead_mem (hnonempty d hd))

/-- A word above the separator stays larger, whatever follows behind a separator. -/
theorem append_lt_append_of_separator {separator : Char} {h k t u : List Char} (hlt : h < k)
    (habove : ∀ c ∈ k, separator < c) (ht : t = [] ∨ ∃ rest, t = separator :: rest) :
    h ++ t < k ++ u := by
  induction h generalizing k with
  | nil =>
      cases k with
      | nil => exact absurd hlt (lt_irrefl _)
      | cons c k =>
          rcases ht with rfl | ⟨rest, rfl⟩
          · exact List.nil_lt_cons c _
          · exact List.cons_lt_cons_iff.2 (Or.inl (habove c List.mem_cons_self))
  | cons a h ih =>
      cases k with
      | nil => exact absurd hlt (List.not_lt_nil _)
      | cons c k =>
          refine List.cons_lt_cons_iff.2 ?_
          rcases List.cons_lt_cons_iff.1 hlt with hac | ⟨rfl, hrest⟩
          · exact Or.inl hac
          · exact Or.inr ⟨rfl, ih hrest fun d hd => habove d (List.mem_cons_of_mem _ hd)⟩

/-- The joined symbols of a component: its head, then nothing or a separator. -/
theorem toList_join_cons (symbol : String) (rest : List String) :
    ∃ t, (",".intercalate (symbol :: rest)).toList = symbol.toList ++ t ∧
      (t = [] ∨ ∃ tail, t = ',' :: tail) := by
  rw [String.toList_intercalate]
  cases rest with
  | nil => exact ⟨[], by simp, Or.inl rfl⟩
  | cons next rest =>
      refine ⟨',' :: [','].intercalate ((next :: rest).map String.toList), ?_, Or.inr ⟨_, rfl⟩⟩
      simp [List.intercalate_cons_cons]

theorem comma_lt_of_isPolicySymbol {s : String} (h : isPolicySymbol s = true) :
    ∀ c ∈ s.toList, ',' < c := by
  intro c hc
  simp only [isPolicySymbol, Bool.and_eq_true, List.all_eq_true, Bool.or_eq_true, beq_iff_eq] at h
  rcases h.1.2 c hc with (hupper | hdigit) | rfl
  · simp only [isUpper, Bool.and_eq_true, decide_eq_true_eq] at hupper
    exact lt_of_lt_of_le (by decide) hupper.1
  · simp only [isDigit, Bool.and_eq_true, decide_eq_true_eq] at hdigit
    exact lt_of_lt_of_le (by decide) hdigit.1
  · decide

theorem ne_empty_of_isPolicySymbol {s : String} (h : isPolicySymbol s = true) : s.toList ≠ [] := by
  simp only [isPolicySymbol, Bool.and_eq_true, decide_eq_true_eq] at h
  exact h.1.1.1

section Exposures

variable {weights : List (String × ℚ)} {groups : List RiskGroupSpec} {components : List (List String)}

theorem isPolicySymbol_of_mem (h : checkWeights weights = .ok ()) {symbol : String}
    (hmem : symbol ∈ weights.map Prod.fst) : isPolicySymbol symbol = true := by
  simp only [checkWeights, rejectIf_bind_eq_ok, rejectIf_eq_ok, List.any_eq_true] at h
  obtain ⟨e, he, rfl⟩ := List.mem_map.1 hmem
  by_contra hne
  exact h.2.1 ⟨e, he, by simpa using hne⟩

/-- Joined components are ordered like their heads. -/
theorem joined_pairwise (hvalid : checkWeights weights = .ok ())
    (hcomponents : ComponentsOf (weights.map Prod.fst) components) :
    (components.map fun c => ",".intercalate c).Pairwise (· < ·) := by
  refine List.pairwise_map.2 (List.Pairwise.imp_of_mem ?_ hcomponents.ordered)
  intro c d hc hd hlt
  cases c with
  | nil => exact absurd rfl (hcomponents.nonempty _ hc)
  | cons s c =>
      cases d with
      | nil => exact absurd rfl (hcomponents.nonempty _ hd)
      | cons t d =>
          obtain ⟨left, hleft, hseparator⟩ := toList_join_cons s c
          obtain ⟨right, hright, -⟩ := toList_join_cons t d
          have ht : t ∈ weights.map Prod.fst := hcomponents.perm.mem_iff.1
            (List.mem_flatten.2 ⟨_, hd, List.mem_cons_self⟩)
          rw [String.lt_iff_toList_lt, hleft, hright]
          exact append_lt_append_of_separator (String.lt_iff_toList_lt.1 hlt)
            (comma_lt_of_isPolicySymbol (isPolicySymbol_of_mem hvalid ht)) hseparator

theorem joined_ne_empty (hvalid : checkWeights weights = .ok ())
    (hcomponents : ComponentsOf (weights.map Prod.fst) components) {c : List String}
    (hc : c ∈ components) : ",".intercalate c ≠ "" := by
  intro hempty
  cases c with
  | nil => exact hcomponents.nonempty _ hc rfl
  | cons s c =>
      obtain ⟨tail, htail, -⟩ := toList_join_cons s c
      have hs : s ∈ weights.map Prod.fst := hcomponents.perm.mem_iff.1
        (List.mem_flatten.2 ⟨_, hc, List.mem_cons_self⟩)
      rw [hempty] at htail
      exact ne_empty_of_isPolicySymbol (isPolicySymbol_of_mem hvalid hs)
        (List.append_eq_nil_iff.1 htail.symm).1

theorem scopeGross_nonneg (weights : List (String × ℚ)) (scope : List String) :
    0 ≤ scopeGross weights scope := by
  refine List.sum_nonneg fun x hx => ?_
  obtain ⟨s, -, rfl⟩ := List.mem_map.1 hx
  exact abs_nonneg _

theorem ne_empty_of_isSafeCode {s : String} (h : isSafeCode s = true) : s ≠ "" := by
  rintro rfl
  exact absurd h (by decide)

theorem checkNamedExposures_scopes {ι : Type} {l : List ι} {name : ι → String}
    (scope : ι → List String) (fieldName : String) (hname : ∀ i ∈ l, name i ≠ "")
    (hordered : (l.map name).Pairwise (· < ·)) :
    checkNamedExposures (l.map fun i => (name i, scopeGross weights (scope i))) fieldName =
      .ok () := by
  have hfst : (l.map fun i => (name i, scopeGross weights (scope i))).map Prod.fst = l.map name := by
    rw [List.map_map]
    rfl
  simp only [checkNamedExposures, rejectIf_bind_eq_ok, rejectIf_eq_ok, hfst, not_not,
    List.any_eq_true, decide_eq_true_eq]
  refine ⟨?_, eq_sortedSet_iff.2 hordered, ?_⟩
  · rintro ⟨e, he, hempty⟩
    obtain ⟨i, hi, rfl⟩ := List.mem_map.1 he
    exact hname i hi hempty
  · rintro ⟨e, he, hneg⟩
    obtain ⟨i, -, rfl⟩ := List.mem_map.1 he
    exact absurd hneg (not_lt.2 (scopeGross_nonneg weights (scope i)))

theorem positiveSum_nonneg (weights : List (String × ℚ)) : 0 ≤ positiveSum weights := by
  refine List.sum_nonneg fun x hx => ?_
  rw [List.mem_filter, decide_eq_true_eq] at hx
  exact le_of_lt hx.2

theorem shortSum_nonneg (weights : List (String × ℚ)) : 0 ≤ shortSum weights := by
  refine List.sum_nonneg fun x hx => ?_
  obtain ⟨w, hw, rfl⟩ := List.mem_map.1 hx
  rw [List.mem_filter, decide_eq_true_eq] at hw
  exact neg_nonneg.2 (le_of_lt hw.2)

/-- Valid weights over valid scopes have an exposure. -/
theorem exposureSnapshot_eq_ok (hvalid : checkWeights weights = .ok ())
    (hgroups : checkRiskGroups groups (some (weights.map Prod.fst)) = .ok ())
    (hcomponents : checkComponents components (weights.map Prod.fst) = .ok ()) :
    ∃ exposure, exposureSnapshot weights groups components = .ok exposure := by
  have hparts := componentsOf_of_check hcomponents
  have hids : (groups.map (·.id)).Pairwise (· < ·) := by
    have h := hgroups
    simp only [checkRiskGroups, rejectIf_bind_eq_ok, rejectIf_eq_ok, not_not] at h
    rw [← eq_sortedSet_iff, sortedSet, List.Nodup.dedup h.2.2.1]
    exact h.2.1
  have hcheck : ExposureSnapshotFields.check
      { gross := positiveSum weights + shortSum weights
        net := positiveSum weights - shortSum weights
        positive := positiveSum weights
        shortAbs := shortSum weights
        groupGross := groups.map fun g => (g.id, scopeGross weights g.symbols)
        clusterGross := components.map fun c => (",".intercalate c, scopeGross weights c) } =
          .ok () := by
    have hpositive := positiveSum_nonneg weights
    have hshort := shortSum_nonneg weights
    simp only [ExposureSnapshotFields.check, unit_bind_eq_ok, rejectIf_eq_ok, ne_eq, not_true,
      or_self, not_false_eq_true, true_and, not_or, not_lt]
    exact ⟨⟨add_nonneg hpositive hshort, hpositive, hshort⟩,
      checkNamedExposures_scopes (fun g => g.symbols) _ (fun g _ => ne_empty_of_isSafeCode g.idValid) hids,
      checkNamedExposures_scopes id _ (fun c hc => joined_ne_empty hvalid hparts hc)
        (joined_pairwise hvalid hparts)⟩
  refine ⟨⟨_, hcheck⟩, ?_⟩
  rw [exposureSnapshot, hvalid, hgroups, hcomponents]
  exact validated_of_ok hcheck

end Exposures

/-! ## The result -/

section Result

variable {targets : List (String × ℚ)} {statistics : RiskStatistics} {policy : RiskPolicySpec}
  {groups : List RiskGroupSpec} {components : List (List String)}

/-- What the constraints promise of a result: it converged, every weight of the same symbols shrank
without a change of sign, and every hard limit is met. -/
structure Constrained (policy : RiskPolicySpec) (groups : List RiskGroupSpec)
    (components : List (List String)) (targets : List (String × ℚ)) (r : ConstraintResult) :
    Prop where
  converged : r.converged = true
  keys : r.finalTargets.map Prod.fst = targets.map Prod.fst
  shrinks : Shrinks (weightOf targets) (weightOf r.finalTargets)
  limits : HardLimits policy groups components r.finalTargets

theorem tracked_start (htargets : checkWeights targets = .ok ()) :
    Tracked (targets.map Prod.fst) ⟨targets, []⟩ :=
  ⟨htargets, rfl, rfl⟩

/-- A converged iteration is returned. -/
theorem constrained_of_converged (htargets : checkWeights targets = .ok ())
    (hgroups : checkRiskGroups groups (some (targets.map Prod.fst)) = .ok ())
    (hcomponents : checkComponents components (targets.map Prod.fst) = .ok ())
    {final : ConstraintState}
    (hconverged : Converged policy groups components (targets.map Prod.fst) ⟨targets, []⟩ final)
    (hpasses : constraintPasses policy groups components (targets.map Prod.fst)
      maxConstraintPasses 1 ⟨targets, []⟩ = .ok (true, final)) :
    ∃ result, applySignedConstraintsOver components targets policy groups = .ok result ∧
      Constrained policy groups components targets result := by
  obtain ⟨hvalid, hkeys, hordinals⟩ := hconverged.tracked
  obtain ⟨before, hbefore⟩ := exposureSnapshot_eq_ok htargets hgroups hcomponents
  obtain ⟨after, hafter⟩ := exposureSnapshot_eq_ok hvalid (hkeys ▸ hgroups) (hkeys ▸ hcomponents)
  have hcheck : ConstraintResultFields.check
      { originalTargets := targets
        finalTargets := final.weights
        beforeExposure := before
        afterExposure := after
        controls := final.controls
        correlationComponents := components
        converged := true
        reasonCode := none } = .ok () := by
    simp only [ConstraintResultFields.check, unit_bind_eq_ok, rejectIf_eq_ok, not_not]
    exact ⟨htargets, hvalid, hkeys.symm, hordinals, hkeys ▸ hcomponents, by simp, rfl⟩
  refine ⟨⟨_, hcheck⟩, ?_, ⟨rfl, hkeys, hconverged.shrinks, hconverged.limits⟩⟩
  rw [applySignedConstraintsOver, hpasses]
  show (exposureSnapshot targets groups components >>= fun _ =>
    exposureSnapshot final.weights groups components >>= fun _ => _) = _
  rw [hbefore, hafter]
  exact validated_of_ok hcheck

/-- A result comes from a first pass that could name its components. -/
theorem clustersNamable_of_result (hadmissible : Admissible policy groups)
    (htargets : checkWeights targets = .ok ())
    (hcomponents : checkComponents components (targets.map Prod.fst) = .ok ())
    {result : ConstraintResult}
    (hok : applySignedConstraintsOver components targets policy groups = .ok result) :
    ClustersNamable policy components
      (beforeClusters policy groups (targets.map Prod.fst) (weightOf targets)) := by
  rw [applySignedConstraintsOver, bind_eq_ok] at hok
  obtain ⟨passes, hpasses, -⟩ := hok
  rw [maxConstraintPasses, constraintPasses, bind_eq_ok] at hpasses
  obtain ⟨next, hnext, -⟩ := hpasses
  have hdisjoint := (componentsOf_of_check hcomponents).disjoint
  have hnames := clustersNamable_of_constraintPass hadmissible (tracked_start htargets) (le_refl 1)
    hdisjoint hnext
  exact hnames

/-- Behind its checks `applySignedConstraints` works on the components of the statistics. -/
theorem applySignedConstraints_eq (hadmissible : Admissible policy groups)
    (htargets : checkWeights targets = .ok ())
    (hgroups : checkRiskGroups groups (some (targets.map Prod.fst)) = .ok ())
    (hsymbols : statistics.symbols = targets.map Prod.fst)
    (hcomponents : correlationComponents statistics policy.correlationEdgeThreshold =
      .ok components) :
    applySignedConstraints targets statistics policy groups =
      applySignedConstraintsOver components targets policy groups := by
  have hreject : rejectIf (statistics.symbols ≠ targets.map Prod.fst)
      (PlatformError.signedRiskPolicy "constraint statistics must match target symbols") = .ok () :=
    rejectIf_eq_ok.2 (not_not.2 hsymbols)
  have hpolicy : checkPolicy policy = .ok () :=
    rejectIf_eq_ok.2 (not_not.2 ⟨hadmissible.lower, hadmissible.upper⟩)
  rw [applySignedConstraints, htargets, hreject, hpolicy, hgroups, hcomponents]
  rfl

end Result

/-! ## A wide component -/

/-- The limits of the sample runs. -/
def samplePolicy : RiskPolicySpec where
  id := "signed_v1"
  version := 1
  maxAbsoluteSymbolWeight := 1 / 5
  maxGrossWeight := 1
  minNetWeight := -1 / 2
  maxNetWeight := 4 / 5
  maxClusterGrossWeight := 2 / 5
  correlationEdgeThreshold := 4 / 5
  minimumRebalanceEquityFraction := 1 / 100
  sessionLossTrigger := 1 / 50
  deploymentDrawdownTrigger := 1 / 10
  targetAnnualizedVolatility := 1 / 10
  sigmaFloor := 1 / 20
  edgeSaturationBps := 50
  covarianceEigenvalueFloor := 1 / 100000000

/-- All symbols in one group. -/
def sampleGroup (symbols : List String) : RiskGroupSpec where
  id := "equities"
  symbols := symbols
  maxGrossWeight := 1
  idValid := by decide

theorem admissible_samplePolicy (symbols : List String) :
    Admissible samplePolicy [sampleGroup symbols] where
  symbol := by norm_num [samplePolicy]
  gross := by norm_num [samplePolicy]
  lower := by norm_num [samplePolicy]
  upper := by norm_num [samplePolicy]
  cluster := by norm_num [samplePolicy]
  group := by
    intro g hg
    rw [List.mem_singleton.1 hg]
    norm_num [sampleGroup]

/-- Statistics in which every two symbols are correlated. -/
def sampleStatistics (symbols : List String) : RiskStatistics where
  symbols := symbols
  eigenvalueFloor := 1 / 100000000
  annualizedCovariance := symbols.map fun s => symbols.map fun t => if s = t then 1 / 25 else 9 / 250
  priorCorrelation := symbols.map fun s => symbols.map fun t => if s = t then 1 else 9 / 10
  annualizedSigma := symbols.map fun _ => 1 / 5
  outputHash := "a3f5a3f5a3f5a3f5a3f5a3f5a3f5a3f5a3f5a3f5a3f5a3f5a3f5a3f5a3f5a3f5"

/-- Twelve symbols of ten characters. -/
def wideSymbols : List String :=
  ["A", "B", "C", "D", "E", "F", "G", "H", "I", "J", "K", "L"].map ("AAAAAAAAA" ++ ·)

end AdaptiveTrader
