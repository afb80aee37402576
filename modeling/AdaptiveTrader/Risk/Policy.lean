import AdaptiveTrader.Foundation.Shrink
import AdaptiveTrader.Risk.Models

/-!
# The hard constraints of signed risk

`applySignedConstraints` shrinks target weights until they meet every hard limit: clip each symbol,
scale the gross, scale the long and the short side to the net bounds, then scale every risk group and
every correlation component. The steps run in this order, at most eight times, each recorded as an
`AppliedRiskControl` with the weights before and after it. Weights are exact rationals.

The components are those of the graph whose edges are the correlations above a threshold, built by
union and find (`correlationComponents`). Whatever the correlations, they partition the symbols
(`checkComponents_correlationComponents`).
-/

set_option autoImplicit false

namespace AdaptiveTrader

open Foundation

/-! ## Specifications -/

/-- A limit on the gross of a group of symbols. -/
structure RiskGroupSpec where
  id : String
  symbols : List String
  maxGrossWeight : ℚ
  idValid : isSafeCode id = true
  deriving DecidableEq

/-- The numeric risk policy of an experiment. -/
structure RiskPolicySpec where
  id : String
  version : Nat
  maxAbsoluteSymbolWeight : ℚ
  maxGrossWeight : ℚ
  minNetWeight : ℚ
  maxNetWeight : ℚ
  maxClusterGrossWeight : ℚ
  correlationEdgeThreshold : ℚ
  minimumRebalanceEquityFraction : ℚ
  sessionLossTrigger : ℚ
  deploymentDrawdownTrigger : ℚ
  targetAnnualizedVolatility : ℚ
  sigmaFloor : ℚ
  edgeSaturationBps : ℚ
  covarianceEigenvalueFloor : ℚ
  deriving DecidableEq

/-- Covariance, correlation and sigma in symbol order. -/
structure RiskStatistics where
  symbols : List String
  eigenvalueFloor : ℚ
  annualizedCovariance : List (List ℚ)
  priorCorrelation : List (List ℚ)
  annualizedSigma : List ℚ
  outputHash : String
  deriving DecidableEq

namespace RiskStatistics

/-- An entry of a matrix in symbol order. -/
def entry (s : RiskStatistics) (matrix : List (List ℚ)) (left right : String) : ℚ :=
  ((matrix[s.symbols.idxOf left]?.getD [])[s.symbols.idxOf right]?).getD 0

def sigmaFor (s : RiskStatistics) (symbol : String) : ℚ :=
  (s.annualizedSigma[s.symbols.idxOf symbol]?).getD 0

def covarianceFor (s : RiskStatistics) (left right : String) : ℚ :=
  s.entry s.annualizedCovariance left right

def correlationFor (s : RiskStatistics) (left right : String) : ℚ :=
  s.entry s.priorCorrelation left right

end RiskStatistics

/-- `_policy`. -/
def checkPolicy (policy : RiskPolicySpec) : Except PlatformError Unit :=
  rejectIf (¬ (policy.minNetWeight ≤ 0 ∧ 0 ≤ policy.maxNetWeight))
    (.signedRiskPolicy "signed policy net bounds must contain zero")

/-- `_risk_groups`. -/
def checkRiskGroups (groups : List RiskGroupSpec) (symbols : Option (List String)) :
    Except PlatformError Unit := do
  rejectIf (groups = []) (.signedRiskPolicy "risk groups must be a nonempty bounded sequence")
  rejectIf (groups.map (·.id) ≠ sortedBy id (groups.map (·.id)))
    (.signedRiskPolicy "risk groups must be ordered by ID")
  rejectIf (¬ (groups.map (·.id)).Nodup) (.signedRiskPolicy "risk group IDs must be unique")
  rejectIf (¬ (groups.flatMap (·.symbols)).Nodup) (.signedRiskPolicy "risk groups must not overlap")
  rejectIf (∃ s ∈ symbols, sortedSet (groups.flatMap (·.symbols)) ≠ sortedSet s)
    (.signedRiskPolicy "risk groups must partition target symbols")

/-- The first symbol of a component. -/
def componentHead (component : List String) : String := component.headD ""

/-- `_components`. -/
def checkComponents (components : List (List String)) (symbols : List String) :
    Except PlatformError Unit := do
  rejectIf ([] ∈ components) (.signedRiskPolicy "correlation component is invalid")
  rejectIf (∃ c ∈ components, c ≠ sortedSet c)
    (.signedRiskPolicy "correlation component must be unique and ordered")
  rejectIf (sortedBy id components.flatten ≠ symbols ∨ ¬ components.flatten.Nodup)
    (.signedRiskPolicy "correlation components must partition symbols")
  rejectIf (components ≠ sortedBy componentHead components)
    (.signedRiskPolicy "correlation components must be deterministically ordered")

/-! ## Correlation components -/

/-- `parent[symbol]`. -/
def parentOf (parent : Dict String String) (symbol : String) : String :=
  (parent.get? symbol).getD symbol

/-- The root of a symbol; every visited symbol is linked to its grandparent. A parent precedes its
children, so as many rounds as there are symbols suffice. -/
def findRoot : Nat → Dict String String → String → String × Dict String String
  | 0, parent, symbol => (symbol, parent)
  | rounds + 1, parent, symbol =>
      if parentOf parent symbol = symbol then (symbol, parent)
      else
        let grandparent := parentOf parent (parentOf parent symbol)
        findRoot rounds (parent.set symbol grandparent) grandparent

/-- `union`: the larger root becomes a child of the smaller one. -/
def unite (rounds : Nat) (parent : Dict String String) (pair : String × String) :
    Dict String String :=
  let left := findRoot rounds parent pair.1
  let right := findRoot rounds left.2 pair.2
  if left.1 = right.1 then right.2
  else right.2.set (max left.1 right.1) (min left.1 right.1)

/-- The pairs of a list, the earlier element first. -/
def orderedPairs : List String → List (String × String)
  | [] => []
  | left :: rest => rest.map (fun right => (left, right)) ++ orderedPairs rest

/-- Append each symbol to the group of its root. -/
def groupByRoot (rounds : Nat) :
    List String → Dict String String → Dict String (List String) → Dict String (List String)
  | [], _, groups => groups
  | symbol :: rest, parent, groups =>
      let found := findRoot rounds parent symbol
      groupByRoot rounds rest found.2
        (groups.set found.1 ((groups.get? found.1).getD [] ++ [symbol]))

/-- The symbols as their own parents. -/
def ownParents (symbols : List String) : Dict String String :=
  symbols.foldl (fun parent symbol => parent.set symbol symbol) .empty

/-- `correlation_components`. -/
def correlationComponents (statistics : RiskStatistics) (threshold : ℚ) :
    Except PlatformError (List (List String)) := do
  rejectIf (¬ (0 ≤ threshold ∧ threshold ≤ 1))
    (.signedRiskPolicy "correlation threshold must be in [0, 1]")
  let rounds := statistics.symbols.length
  let edges := (orderedPairs statistics.symbols).filter fun pair =>
    threshold < |statistics.correlationFor pair.1 pair.2|
  let parent := edges.foldl (unite rounds) (ownParents statistics.symbols)
  pure (sortedBy componentHead (groupByRoot rounds statistics.symbols parent .empty).values)

/-- The groups of some symbols: nonempty, ordered, and together these symbols. -/
structure Grouped (done : List String) (groups : Dict String (List String)) : Prop where
  perm : groups.values.flatten.Perm done
  nonempty : ∀ c ∈ groups.values, c ≠ []
  ordered : ∀ c ∈ groups.values, c.Pairwise (· < ·)

theorem Grouped.add {done : List String} {groups : Dict String (List String)}
    (h : Grouped done groups) (root : String) {symbol : String} (hnew : ∀ s ∈ done, s < symbol) :
    Grouped (done ++ [symbol]) (groups.set root ((groups.get? root).getD [] ++ [symbol])) := by
  cases hroot : groups.get? root with
  | none =>
      have hvalues := Dict.values_set_of_get?_none hroot [symbol]
      simp only [Option.getD_none, List.nil_append]
      refine ⟨?_, fun c hc => ?_, fun c hc => ?_⟩
      · rw [hvalues, List.flatten_append]
        simpa using h.perm.append_right [symbol]
      · rw [hvalues] at hc
        rcases List.mem_append.1 hc with hold | hadded
        · exact h.nonempty c hold
        · rw [List.mem_singleton.1 hadded]
          exact List.cons_ne_nil _ _
      · rw [hvalues] at hc
        rcases List.mem_append.1 hc with hold | hadded
        · exact h.ordered c hold
        · rw [List.mem_singleton.1 hadded]
          exact List.pairwise_singleton _ _
  | some items =>
      obtain ⟨l, m, hentries, hset⟩ := Dict.entries_set_of_get?_some hroot (items ++ [symbol])
      have hvalues : groups.values = l.map Prod.snd ++ items :: m.map Prod.snd := by
        simp [Dict.values, hentries]
      have hvalues' : (groups.set root (items ++ [symbol])).values =
          l.map Prod.snd ++ (items ++ [symbol]) :: m.map Prod.snd := by
        simp [Dict.values, hset]
      simp only [Option.getD_some]
      refine ⟨?_, fun c hc => ?_, fun c hc => ?_⟩
      · have hperm := h.perm
        rw [hvalues, List.flatten_append, List.flatten_cons] at hperm
        rw [hvalues', List.flatten_append, List.flatten_cons, List.append_assoc items]
        -- The new symbol moves behind the groups that follow its own.
        refine List.Perm.trans ?_ (hperm.append_right [symbol])
        rw [List.append_assoc, List.append_assoc]
        exact (List.perm_append_comm.append_left items).append_left _
      · rw [hvalues'] at hc
        rcases List.mem_append.1 hc with hleft | hrest
        · exact h.nonempty c (hvalues ▸ List.mem_append_left _ hleft)
        · rcases List.mem_cons.1 hrest with rfl | hright
          · simp
          · exact h.nonempty c (hvalues ▸ List.mem_append_right _ (List.mem_cons_of_mem _ hright))
      · rw [hvalues'] at hc
        rcases List.mem_append.1 hc with hleft | hrest
        · exact h.ordered c (hvalues ▸ List.mem_append_left _ hleft)
        · rcases List.mem_cons.1 hrest with rfl | hright
          · have hitems : items ∈ groups.values :=
              hvalues ▸ List.mem_append_right _ List.mem_cons_self
            refine List.pairwise_append.2 ⟨h.ordered items hitems, List.pairwise_singleton _ _, ?_⟩
            intro s hs t ht
            rw [List.mem_singleton.1 ht]
            exact hnew s (h.perm.mem_iff.1 (List.mem_flatten.2 ⟨items, hitems, hs⟩))
          · exact h.ordered c (hvalues ▸ List.mem_append_right _ (List.mem_cons_of_mem _ hright))

/-- Whatever roots are found, the groups partition the symbols. -/
theorem grouped_groupByRoot (rounds : Nat) {done rest : List String} {parent : Dict String String}
    {groups : Dict String (List String)} (h : Grouped done groups)
    (hordered : (done ++ rest).Pairwise (· < ·)) :
    Grouped (done ++ rest) (groupByRoot rounds rest parent groups) := by
  induction rest generalizing done parent groups with
  | nil => simpa [groupByRoot] using h
  | cons symbol rest ih =>
      have hnew : ∀ s ∈ done, s < symbol := fun s hs =>
        (List.pairwise_append.1 hordered).2.2 s hs symbol List.mem_cons_self
      have hsplit : done ++ symbol :: rest = (done ++ [symbol]) ++ rest := by simp
      rw [hsplit] at hordered ⊢
      exact ih (h.add _ hnew) hordered

/-- The correlation components of ordered symbols are a valid partition. -/
theorem checkComponents_correlationComponents {statistics : RiskStatistics} {threshold : ℚ}
    {components : List (List String)} (hsymbols : statistics.symbols.Pairwise (· < ·))
    (h : correlationComponents statistics threshold = .ok components) :
    checkComponents components statistics.symbols = .ok () := by
  simp only [correlationComponents, rejectIf_bind_eq_ok, pure_eq_ok] at h
  obtain ⟨-, rfl⟩ := h
  generalize List.foldl _ _ _ = parent
  have hempty : Grouped [] (Dict.empty : Dict String (List String)) :=
    ⟨List.Perm.refl _, by simp [Dict.values, Dict.empty], by simp [Dict.values, Dict.empty]⟩
  have hgrouped := @grouped_groupByRoot statistics.symbols.length [] statistics.symbols parent _
    hempty hsymbols
  rw [List.nil_append] at hgrouped
  set groups := groupByRoot statistics.symbols.length statistics.symbols parent .empty
  have hflatten : (sortedBy componentHead groups.values).flatten.Perm statistics.symbols :=
    (sortedBy_perm componentHead groups.values).flatten.trans hgrouped.perm
  simp only [checkComponents, rejectIf_bind_eq_ok, rejectIf_eq_ok, not_or, not_not]
  refine ⟨fun hnil => ?_, ?_, ⟨?_, ?_⟩, (sortedBy_sortedBy _ _).symm⟩
  · exact hgrouped.nonempty [] (mem_sortedBy.1 hnil) rfl
  · rintro ⟨c, hc, hne⟩
    exact hne (eq_sortedSet_iff.2 (hgrouped.ordered c (mem_sortedBy.1 hc)))
  · rw [sortedBy_id_eq_iff.2 hflatten]
    exact sortedBy_eq_self (hsymbols.imp le_of_lt)
  · exact hflatten.nodup_iff.2 (hsymbols.imp ne_of_lt)

/-! ## Weights -/

/-- `weights[symbol]`. -/
def weightOf (weights : List (String × ℚ)) (symbol : String) : ℚ :=
  (Dict.lookup symbol weights).getD 0

/-- Rewrite every weight. -/
def mapWeights (f : String → ℚ → ℚ) (weights : List (String × ℚ)) : List (String × ℚ) :=
  weights.map fun e => (e.1, f e.1 e.2)

/-- `weights[symbol] = value`. -/
def setWeight (weights : List (String × ℚ)) (symbol : String) (value : ℚ) : List (String × ℚ) :=
  mapWeights (fun s w => if s = symbol then value else w) weights

/-- The sum of the positive weights. -/
def positiveSum (weights : List (String × ℚ)) : ℚ :=
  ((weights.map Prod.snd).filter fun w => 0 < w).sum

/-- The sum of the negative weights, without their sign. -/
def shortSum (weights : List (String × ℚ)) : ℚ :=
  (((weights.map Prod.snd).filter fun w => w < 0).map fun w => -w).sum

/-- The gross of a scope. -/
def scopeGross (weights : List (String × ℚ)) (scope : List String) : ℚ :=
  (scope.map fun s => |weightOf weights s|).sum

theorem weightOf_of_mem {weights : List (String × ℚ)} (hn : (weights.map Prod.fst).Nodup)
    {e : String × ℚ} (he : e ∈ weights) : weightOf weights e.1 = e.2 := by
  rw [weightOf, Dict.lookup_of_mem hn he, Option.getD_some]

theorem weightOf_of_not_mem {weights : List (String × ℚ)} {symbol : String}
    (h : symbol ∉ weights.map Prod.fst) : weightOf weights symbol = 0 := by
  rw [weightOf, Dict.lookup_eq_none_iff.2 h, Option.getD_none]

@[simp] theorem map_fst_mapWeights (f : String → ℚ → ℚ) (weights : List (String × ℚ)) :
    (mapWeights f weights).map Prod.fst = weights.map Prod.fst := by
  simp [mapWeights]

/-- Rewriting the weights rewrites the weight function when absent symbols keep their zero. -/
theorem weightOf_mapWeights {f : String → ℚ → ℚ} {symbol : String} (hzero : f symbol 0 = 0)
    (weights : List (String × ℚ)) :
    weightOf (mapWeights f weights) symbol = f symbol (weightOf weights symbol) := by
  induction weights with
  | nil => simp [mapWeights, weightOf, Dict.lookup, hzero]
  | cons e rest ih =>
      obtain ⟨k, v⟩ := e
      by_cases hk : k = symbol
      · subst hk
        simp [mapWeights, weightOf, Dict.lookup]
      · simpa [mapWeights, weightOf, Dict.lookup, hk] using ih

theorem weightOf_setWeight {weights : List (String × ℚ)} {symbol : String}
    (hmem : symbol ∈ weights.map Prod.fst) (value : ℚ) (s : String) :
    weightOf (setWeight weights symbol value) s =
      if s = symbol then value else weightOf weights s := by
  by_cases hs : s = symbol
  · subst hs
    rw [if_pos rfl]
    induction weights with
    | nil => cases hmem
    | cons e rest ih =>
        obtain ⟨k, v⟩ := e
        by_cases hk : k = s
        · subst hk
          simp [setWeight, mapWeights, weightOf, Dict.lookup]
        · have hrest : s ∈ rest.map Prod.fst := by
            rcases List.mem_cons.1 hmem with h | h
            · exact absurd h.symm hk
            · exact h
          simpa [setWeight, mapWeights, weightOf, Dict.lookup, hk] using ih hrest
  · rw [if_neg hs, setWeight, weightOf_mapWeights (by simp [hs]), if_neg hs]

theorem sum_filter_pos (values : List ℚ) :
    (values.filter fun w => 0 < w).sum = (values.map fun w => max w 0).sum := by
  induction values with
  | nil => rfl
  | cons w rest ih =>
      by_cases hw : 0 < w
      · rw [List.filter_cons_of_pos (by simpa using hw), List.map_cons, List.sum_cons,
          List.sum_cons, ih, max_eq_left hw.le]
      · rw [List.filter_cons_of_neg (by simpa using hw), List.map_cons, List.sum_cons, ih,
          max_eq_right (not_lt.1 hw), zero_add]

theorem sum_filter_neg (values : List ℚ) :
    ((values.filter fun w => w < 0).map fun w => -w).sum =
      (values.map fun w => max (-w) 0).sum := by
  induction values with
  | nil => rfl
  | cons w rest ih =>
      by_cases hw : w < 0
      · rw [List.filter_cons_of_pos (by simpa using hw), List.map_cons, List.map_cons,
          List.sum_cons, List.sum_cons, ih, max_eq_left (by linarith)]
      · rw [List.filter_cons_of_neg (by simpa using hw), List.map_cons, List.sum_cons, ih,
          max_eq_right (by linarith [not_lt.1 hw]), zero_add]

section Sums

variable {weights : List (String × ℚ)} (hn : (weights.map Prod.fst).Nodup)

include hn

theorem map_weightOf (f : ℚ → ℚ) :
    ((weights.map Prod.fst).map fun s => f (weightOf weights s)) =
      (weights.map Prod.snd).map f := by
  rw [List.map_map, List.map_map]
  refine List.map_congr_left fun e he => ?_
  simp only [Function.comp_apply, weightOf_of_mem hn he]

theorem positiveSum_eq : positiveSum weights = longOf (weights.map Prod.fst) (weightOf weights) := by
  rw [positiveSum, sum_filter_pos, longOf, map_weightOf hn fun w => max w 0]

theorem shortSum_eq : shortSum weights = shortOf (weights.map Prod.fst) (weightOf weights) := by
  rw [shortSum, sum_filter_neg, shortOf, map_weightOf hn fun w => max (-w) 0]

theorem net_eq : positiveSum weights - shortSum weights =
    netOf (weights.map Prod.fst) (weightOf weights) := by
  rw [positiveSum_eq hn, shortSum_eq hn, netOf]

end Sums

theorem scopeGross_eq (weights : List (String × ℚ)) (scope : List String) :
    scopeGross weights scope = grossOf scope (weightOf weights) := rfl

/-! ## Exposures and limits -/

/-- `_exposure_snapshot_in_context`. -/
def exposureSnapshot (weights : List (String × ℚ)) (groups : List RiskGroupSpec)
    (components : List (List String)) : Except PlatformError ExposureSnapshot := do
  checkWeights weights
  checkRiskGroups groups (some (weights.map Prod.fst))
  checkComponents components (weights.map Prod.fst)
  validated ExposureSnapshotFields.check
    { gross := positiveSum weights + shortSum weights
      net := positiveSum weights - shortSum weights
      positive := positiveSum weights
      shortAbs := shortSum weights
      groupGross := groups.map fun g => (g.id, scopeGross weights g.symbols)
      clusterGross := components.map fun c => (",".intercalate c, scopeGross weights c) }
    fun h => ⟨_, h⟩

/-- The hard limits on some weights. -/
def HardLimits (policy : RiskPolicySpec) (groups : List RiskGroupSpec)
    (components : List (List String)) (weights : List (String × ℚ)) : Prop :=
  (∀ e ∈ weights, |e.2| ≤ policy.maxAbsoluteSymbolWeight) ∧
    positiveSum weights + shortSum weights ≤ policy.maxGrossWeight ∧
    (positiveSum weights - shortSum weights ≤ policy.maxNetWeight ∧
      policy.minNetWeight ≤ positiveSum weights - shortSum weights) ∧
    (∀ g ∈ groups, scopeGross weights g.symbols ≤ g.maxGrossWeight) ∧
    ∀ c ∈ components, scopeGross weights c ≤ policy.maxClusterGrossWeight

instance (policy : RiskPolicySpec) (groups : List RiskGroupSpec) (components : List (List String))
    (weights : List (String × ℚ)) : Decidable (HardLimits policy groups components weights) :=
  inferInstanceAs (Decidable (_ ∧ _ ∧ (_ ∧ _) ∧ _ ∧ _))

/-- The part of `_constraints_satisfied_in_context` behind the checks of the statistics. -/
def constraintsSatisfiedOver (components : List (List String)) (weights : List (String × ℚ))
    (policy : RiskPolicySpec) (groups : List RiskGroupSpec) : Except PlatformError Bool := do
  checkWeights weights
  checkRiskGroups groups (some (weights.map Prod.fst))
  pure (decide (HardLimits policy groups components weights))

/-- `_constraints_satisfied_in_context`. -/
def constraintsSatisfied (weights : List (String × ℚ)) (statistics : RiskStatistics)
    (policy : RiskPolicySpec) (groups : List RiskGroupSpec) : Except PlatformError Bool := do
  checkWeights weights
  rejectIf (statistics.symbols ≠ weights.map Prod.fst)
    (.signedRiskPolicy "constraint statistics must match target symbols")
  checkPolicy policy
  let components ← correlationComponents statistics policy.correlationEdgeThreshold
  constraintsSatisfiedOver components weights policy groups

/-! ## Shrink steps -/

/-- The weights and the controls applied so far. -/
structure ConstraintState where
  weights : List (String × ℚ)
  controls : List AppliedRiskControl
  deriving DecidableEq

/-- `_record_control`: write the weights and append the control that led to them. -/
def recordControl (s : ConstraintState) (weights : List (String × ℚ)) (passNumber : Nat)
    (control : RiskControl) (scope : String) (factor : ℚ) : Except PlatformError ConstraintState :=
  validated AppliedRiskControlFields.check
    { passNumber := passNumber
      ordinal := s.controls.length + 1
      control := control
      scope := scope
      factor := factor
      before := s.weights
      after := weights }
    fun h => ⟨weights, s.controls ++ [⟨_, h⟩]⟩

/-- The quotient of two decimals. -/
def quotient (x y : ℚ) : Except PlatformError ℚ := do
  rejectIf (y = 0) (.external "decimal.DivisionByZero")
  pure (x / y)

/-- One round of `_clip_symbols`. -/
def clipSymbol (limit : ℚ) (passNumber : Nat) (s : ConstraintState) (symbol : String) :
    Except PlatformError ConstraintState :=
  let value := weightOf s.weights symbol
  let clipped := max (-limit) (min limit value)
  if clipped = value then .ok s
  else do
    let ratio ← quotient clipped value
    recordControl s (setWeight s.weights symbol clipped) passNumber .symbolClip ("symbol:" ++ symbol)
      |ratio|

/-- `_clip_symbols`. -/
def clipSymbols (symbols : List String) (limit : ℚ) (passNumber : Nat) (s : ConstraintState) :
    Except PlatformError ConstraintState :=
  symbols.foldlM (clipSymbol limit passNumber) s

/-- `_trim_gross_excess`: remove what rounding has left above the limit from one weight. -/
def trimGrossExcess (weights : List (String × ℚ)) (scope : List String) (limit : ℚ) :
    Except PlatformError (List (String × ℚ)) :=
  let excess := scopeGross weights scope - limit
  if excess ≤ 0 then .ok weights
  else
    match scope.find? fun symbol => weightOf weights symbol ≠ 0 with
    | none => .error (.external "StopIteration")
    | some symbol =>
        let value := weightOf weights symbol
        .ok (setWeight weights symbol (if 0 < value then value - excess else value + excess))

/-- `_scale_scope_gross`. -/
def scaleScopeGross (scope : List String) (limit : ℚ) (passNumber : Nat) (control : RiskControl)
    (name : String) (s : ConstraintState) : Except PlatformError ConstraintState :=
  let gross := scopeGross s.weights scope
  if gross ≤ limit then .ok s
  else do
    let factor ← quotient limit gross
    let trimmed ← trimGrossExcess
      (mapWeights (fun symbol w => if symbol ∈ scope then w * factor else w) s.weights) scope limit
    recordControl s trimmed passNumber control name factor

/-- `_scale_all_gross`. -/
def scaleAllGross (symbols : List String) (limit : ℚ) (passNumber : Nat) (s : ConstraintState) :
    Except PlatformError ConstraintState :=
  scaleScopeGross symbols limit passNumber .gross "portfolio" s

/-- Remove what rounding has left above the upper net bound from the first positive weight. -/
def trimPositiveNet (weights : List (String × ℚ)) (limit : ℚ) :
    Except PlatformError (List (String × ℚ)) :=
  let excess := positiveSum weights - shortSum weights - limit
  if excess ≤ 0 then .ok weights
  else
    match weights.find? fun e => 0 < e.2 with
    | none => .error (.external "StopIteration")
    | some e => .ok (setWeight weights e.1 (e.2 - excess))

/-- `_scale_positive_net`. -/
def scalePositiveNet (limit : ℚ) (passNumber : Nat) (s : ConstraintState) :
    Except PlatformError ConstraintState :=
  let positive := positiveSum s.weights
  let shortAbs := shortSum s.weights
  if positive - shortAbs ≤ limit then .ok s
  else do
    let factor ← quotient (limit + shortAbs) positive
    rejectIf (¬ (0 ≤ factor ∧ factor ≤ 1))
      (.signedRiskPolicy "positive-net shrink factor is invalid")
    let trimmed ← trimPositiveNet
      (mapWeights (fun _ w => if 0 < w then w * factor else w) s.weights) limit
    recordControl s trimmed passNumber .netLong "positive_weights" factor

/-- Remove what rounding has left below the lower net bound from the first negative weight. -/
def trimNegativeNet (weights : List (String × ℚ)) (limit : ℚ) :
    Except PlatformError (List (String × ℚ)) :=
  let excess := limit - (positiveSum weights - shortSum weights)
  if excess ≤ 0 then .ok weights
  else
    match weights.find? fun e => e.2 < 0 with
    | none => .error (.external "StopIteration")
    | some e => .ok (setWeight weights e.1 (e.2 + excess))

/-- `_scale_negative_net`. -/
def scaleNegativeNet (limit : ℚ) (passNumber : Nat) (s : ConstraintState) :
    Except PlatformError ConstraintState :=
  let positive := positiveSum s.weights
  let shortAbs := shortSum s.weights
  if limit ≤ positive - shortAbs then .ok s
  else do
    let factor ← quotient (-limit + positive) shortAbs
    rejectIf (¬ (0 ≤ factor ∧ factor ≤ 1))
      (.signedRiskPolicy "negative-net shrink factor is invalid")
    let trimmed ← trimNegativeNet
      (mapWeights (fun _ w => if w < 0 then w * factor else w) s.weights) limit
    recordControl s trimmed passNumber .netShort "negative_weights" factor

/-- The gross limit of one risk group. -/
def scaleGroup (passNumber : Nat) (s : ConstraintState) (group : RiskGroupSpec) :
    Except PlatformError ConstraintState :=
  scaleScopeGross group.symbols group.maxGrossWeight passNumber .riskGroupGross
    ("group:" ++ group.id) s

/-- The name of a component in a control. -/
def clusterName (component : List String) : String := "cluster:" ++ ",".intercalate component

/-- The gross limit of one correlation component. -/
def scaleCluster (limit : ℚ) (passNumber : Nat) (s : ConstraintState) (component : List String) :
    Except PlatformError ConstraintState :=
  scaleScopeGross component limit passNumber .clusterGross (clusterName component) s

/-- The limits of a pass in front of the components, in the fixed order. -/
def limitUntilGroups (policy : RiskPolicySpec) (groups : List RiskGroupSpec) (symbols : List String)
    (passNumber : Nat) (s : ConstraintState) : Except PlatformError ConstraintState := do
  let clipped ← clipSymbols symbols policy.maxAbsoluteSymbolWeight passNumber s
  let scaled ← scaleAllGross symbols policy.maxGrossWeight passNumber clipped
  let long ← scalePositiveNet policy.maxNetWeight passNumber scaled
  let short ← scaleNegativeNet policy.minNetWeight passNumber long
  groups.foldlM (scaleGroup passNumber) short

/-- One pass: every limit, the components last. -/
def constraintPass (policy : RiskPolicySpec) (groups : List RiskGroupSpec)
    (components : List (List String)) (symbols : List String) (passNumber : Nat)
    (s : ConstraintState) : Except PlatformError ConstraintState := do
  let grouped ← limitUntilGroups policy groups symbols passNumber s
  components.foldlM (scaleCluster policy.maxClusterGrossWeight passNumber) grouped

/-! ## Passes -/

/-- `_CONVERGENCE_TOLERANCE`. -/
def convergenceTolerance : ℚ := 1 / 1000000000000

/-- `_MAX_CONSTRAINT_PASSES`. -/
def maxConstraintPasses : Nat := 8

/-- The largest change of a weight. -/
def maximumChange (start finish : List (String × ℚ)) : ℚ :=
  (start.map fun e => |e.2 - weightOf finish e.1|).foldr max 0

/-- Whether a pass that led from `start` to `finish` ends the iteration. -/
def passConverged (policy : RiskPolicySpec) (groups : List RiskGroupSpec)
    (components : List (List String)) (start finish : List (String × ℚ)) :
    Except PlatformError Bool :=
  if maximumChange start finish ≤ convergenceTolerance then
    constraintsSatisfiedOver components finish policy groups
  else .ok false

/-- The passes from `passNumber` on, at most `remaining` of them, and whether they converged. -/
def constraintPasses (policy : RiskPolicySpec) (groups : List RiskGroupSpec)
    (components : List (List String)) (symbols : List String) :
    Nat → Nat → ConstraintState → Except PlatformError (Bool × ConstraintState)
  | 0, _, s => .ok (false, s)
  | remaining + 1, passNumber, s => do
      let next ← constraintPass policy groups components symbols passNumber s
      let converged ← passConverged policy groups components s.weights next.weights
      if converged then .ok (true, next)
      else constraintPasses policy groups components symbols remaining (passNumber + 1) next

/-- The receipt of the constraints. -/
structure ConstraintResultFields where
  originalTargets : List (String × ℚ)
  finalTargets : List (String × ℚ)
  beforeExposure : ExposureSnapshot
  afterExposure : ExposureSnapshot
  controls : List AppliedRiskControl
  correlationComponents : List (List String)
  converged : Bool
  reasonCode : Option String
  deriving DecidableEq

def ConstraintResultFields.check (r : ConstraintResultFields) : Except PlatformError Unit := do
  checkWeights r.originalTargets
  checkWeights r.finalTargets
  rejectIf (r.originalTargets.map Prod.fst ≠ r.finalTargets.map Prod.fst)
    (.signedRiskPolicy "constraint target symbols do not match")
  rejectIf (r.controls.map (·.ordinal) ≠ List.range' 1 r.controls.length)
    (.signedRiskPolicy "constraint control ordinals must be contiguous")
  checkComponents r.correlationComponents (r.finalTargets.map Prod.fst)
  rejectIf (r.reasonCode = some "") (.signedRiskPolicy "constraint reason is invalid")
  rejectIf (r.converged ≠ r.reasonCode.isNone)
    (.signedRiskPolicy "constraint convergence and reason are inconsistent")

structure ConstraintResult extends ConstraintResultFields where
  checked : toConstraintResultFields.check = .ok ()
  deriving DecidableEq

/-- The part of `_apply_signed_constraints_in_context` behind the correlation components. -/
def applySignedConstraintsOver (components : List (List String)) (targets : List (String × ℚ))
    (policy : RiskPolicySpec) (groups : List RiskGroupSpec) :
    Except PlatformError ConstraintResult := do
  let passes ← constraintPasses policy groups components (targets.map Prod.fst) maxConstraintPasses 1
    ⟨targets, []⟩
  let before ← exposureSnapshot targets groups components
  let final := if passes.1 then passes.2.weights else targets.map fun e => (e.1, 0)
  let after ← exposureSnapshot final groups components
  validated ConstraintResultFields.check
    { originalTargets := targets
      finalTargets := final
      beforeExposure := before
      afterExposure := after
      controls := passes.2.controls
      correlationComponents := components
      converged := passes.1
      reasonCode := if passes.1 then none else some "risk_constraints_not_converged" }
    fun h => ⟨_, h⟩

/-- `_apply_signed_constraints_in_context`. -/
def applySignedConstraints (targets : List (String × ℚ)) (statistics : RiskStatistics)
    (policy : RiskPolicySpec) (groups : List RiskGroupSpec) :
    Except PlatformError ConstraintResult := do
  checkWeights targets
  rejectIf (statistics.symbols ≠ targets.map Prod.fst)
    (.signedRiskPolicy "constraint statistics must match target symbols")
  checkPolicy policy
  checkRiskGroups groups (some (targets.map Prod.fst))
  let components ← correlationComponents statistics policy.correlationEdgeThreshold
  applySignedConstraintsOver components targets policy groups

end AdaptiveTrader
