import Mathlib
import AdaptiveTrader.Execution.Orders
import AdaptiveTrader.Foundation.Significant

/-!
# Orders of the paper broker

`activityFills` binds the fill activities of an order to it. Activities are told apart by their
execution ID, ordered by the cumulative quantity they declare and must form one chain without gaps;
`paperOrder` compares quantity and average price of the order with the fills.

The outcome depends only on which activities were read, not on their order or number
(`paper_fill_evidence`). Sums and quotients are computed to the 28 digits of the default decimal
context, and the average price is compared with such a quotient, so a rounded average is rejected
(`rounded_average_rejected`).

A response enters through what its readers see of a field: a text, or a number, or an instant that
may be missing or unusable.
-/

set_option autoImplicit false

namespace AdaptiveTrader

open Foundation

/-! ## Responses -/

/-- A field as its reader finds it: no such key, `None`, of no use, or a value. -/
inductive RawField (α : Type)
  | missing
  | null
  | invalid
  | value (a : α)
  deriving DecidableEq

/-- What decoding reads of an order. -/
structure OrderPayload where
  id : Option String
  clientOrderId : Option String
  symbol : Option String
  side : Option String
  status : Option String
  assetClass : Option String
  qty : RawField ℚ
  filledQty : RawField ℚ
  filledAvgPrice : RawField ℚ
  submittedAt : RawField Instant
  updatedAt : RawField Instant

/-- What decoding reads of an activity. -/
structure ActivityPayload where
  id : Option String
  orderId : Option String
  symbol : Option String
  side : Option String
  activityType : Option String
  type : Option String
  fee : RawField ℚ
  commission : RawField ℚ
  qty : RawField ℚ
  price : RawField ℚ
  cumQty : RawField ℚ
  leavesQty : RawField ℚ
  transactionTime : RawField Instant

/-- `_required_text`. -/
def requiredText (field : Option String) : Except PlatformError String := do
  let text ← require field (.executionValidation "paper broker response is missing required data")
  rejectIf (text = "" ∨ 128 < text.length)
    (.executionValidation "paper broker response contains invalid text")
  pure text

/-- `_enum_text`, on the letters the compared texts are written with. -/
def enumText (field : Option String) : String :=
  String.ofList ((field.getD "None").toList.map Char.toLower)

namespace RawField

/-- `_decimal`. -/
def decimal : RawField ℚ → Except PlatformError ℚ
  | value q => .ok q
  | _ => .error (.executionValidation "paper broker response contains an invalid number")

/-- `_decimal` with a default. -/
def decimalOr (default : ℚ) : RawField ℚ → Except PlatformError ℚ
  | missing => .ok default
  | field => field.decimal

/-- A number that may be absent. -/
def optionalDecimal : RawField ℚ → Except PlatformError (Option ℚ)
  | missing => .ok none
  | null => .ok none
  | field => field.decimal.map some

/-- `_utc`. -/
def utc : RawField Instant → Except PlatformError Instant
  | value t => .ok t
  | _ => .error (.executionValidation "paper broker response contains an invalid timestamp")

@[simp] theorem decimal_eq_ok {field : RawField ℚ} {q : ℚ} :
    field.decimal = .ok q ↔ field = .value q := by
  cases field <;> simp [decimal]

@[simp] theorem utc_eq_ok {field : RawField Instant} {t : Instant} :
    field.utc = .ok t ↔ field = .value t := by
  cases field <;> simp [utc]

theorem optionalDecimal_eq_some {field : RawField ℚ} {q : ℚ} :
    field.optionalDecimal = .ok (some q) ↔ field = .value q := by
  cases field <;> simp [optionalDecimal, decimal, Except.map]

/-- A field with another one as default. -/
def orField {α : Type} (field default : RawField α) : RawField α :=
  match field with
  | missing => default
  | field => field

end RawField

/-! ## Activities -/

/-- The facts of an order its activities are bound to. -/
structure OrderFacts where
  orderId : String
  symbol : String
  sideText : String
  side : OrderSide
  total : ℚ
  submitted : Instant
  updated : Instant

/-- The checks of `_activity_fills` on the order. -/
def OrderPayload.facts (raw : OrderPayload) : Except PlatformError OrderFacts := do
  rejectIf (enumText raw.assetClass ≠ "us_equity")
    (.executionValidation "paper fill fee policy requires US equities")
  let orderId ← requiredText raw.id
  let symbol ← requiredText raw.symbol
  let sideText := enumText raw.side
  rejectIf (sideText ≠ "buy" ∧ sideText ≠ "sell") (.executionValidation "paper order side is invalid")
  let total ← raw.qty.decimal
  let reported ← raw.filledQty.decimal
  let status := enumText raw.status
  rejectIf (total ≤ 0 ∨ ¬ (0 < reported ∧ reported ≤ total) ∨ (status = "filled" ∧ reported ≠ total) ∨
      (status = "partially_filled" ∧ total ≤ reported))
    (.executionValidation "paper order fill quantity is inconsistent")
  let submitted ← raw.submittedAt.utc
  let updated ← raw.updatedAt.utc
  pure
    { orderId, symbol, sideText, side := if sideText = "buy" then .buy else .sell, total, submitted,
      updated }

/-- The evidence of one activity. -/
structure FillEvidence where
  declared : ℚ
  leaves : ℚ
  fill : Fill
  deriving DecidableEq

namespace FillEvidence

def executionId (e : FillEvidence) : String := e.fill.brokerExecutionId

end FillEvidence

/-- A fee field is absent or zero. -/
def checkFee (field : RawField ℚ) : Except PlatformError Unit := do
  let fee ← field.optionalDecimal
  rejectIf (fee.getD 0 ≠ 0) (.executionValidation "paper fill violates simulated fee policy")

/-- One pass of the loop over the activities. -/
def decodeActivity (raw : OrderPayload) (o : OrderFacts) (a : ActivityPayload) :
    Except PlatformError FillEvidence := do
  let orderId ← requiredText a.orderId
  let symbol ← requiredText a.symbol
  rejectIf (orderId ≠ o.orderId ∨ symbol ≠ o.symbol ∨ enumText a.side ≠ o.sideText ∨
      a.activityType ≠ some "FILL" ∨ (a.type ≠ some "fill" ∧ a.type ≠ some "partial_fill"))
    (.executionValidation "paper fill activity differs from its order")
  checkFee a.fee
  checkFee a.commission
  let instant ← a.transactionTime.utc
  rejectIf (¬ (o.submitted ≤ instant ∧ instant ≤ o.updated))
    (.executionValidation "paper fill timestamp is outside order lifecycle")
  let clientOrderId ← requiredText raw.clientOrderId
  let brokerExecutionId ← requiredText a.id
  let quantity ← a.qty.decimal
  let price ← a.price.decimal
  let fill ← Fill.create
    { clientOrderId, brokerExecutionId, symbol := o.symbol, side := o.side, quantity, price
      fee := 0, occurredAt := instant }
  let declared ← a.cumQty.decimal
  let leaves ← a.leavesQty.decimal
  pure { declared, leaves, fill }

/-- The loop over the activities, from the evidence recorded so far. -/
def recordActivities (raw : OrderPayload) (o : OrderFacts) : Dict String FillEvidence →
    List ActivityPayload → Except PlatformError (Dict String FillEvidence)
  | unique, [] => .ok unique
  | unique, a :: rest => do
      let evidence ← decodeActivity raw o a
      let unique := unique.setdefault evidence.executionId evidence
      rejectIf (unique.get? evidence.executionId ≠ some evidence)
        (.executionValidation "paper execution ID has conflicting evidence")
      recordActivities raw o unique rest

/-- The loop over the ordered evidence. -/
def chainFills (total : ℚ) : ℚ → List FillEvidence → Except PlatformError (List Fill)
  | _, [] => .ok []
  | cumulative, e :: rest => do
      let cumulative := significant contextPrecision (cumulative + e.fill.quantity)
      rejectIf (e.declared ≠ cumulative ∨
          e.leaves ≠ significant contextPrecision (total - cumulative) ∨ e.leaves < 0)
        (.executionValidation "paper activity cumulative evidence is incomplete")
      let later ← chainFills total cumulative rest
      pure (e.fill :: later)

/-- The order of the evidence: by declared quantity, then by execution ID. -/
def orderedEvidence (unique : Dict String FillEvidence) : List FillEvidence :=
  sortedBy (fun e => toLex (e.declared, e.executionId)) unique.values

/-- `_activity_fills`. -/
def activityFills (raw : OrderPayload) (activities : List ActivityPayload) :
    Except PlatformError (List Fill) := do
  let o ← raw.facts
  let unique ← recordActivities raw o Dict.empty activities
  chainFills o.total 0 (orderedEvidence unique)

/-! ## Orders -/

/-- `_STATUS_MAP`. -/
def statusMap : List (String × OrderState) :=
  [("accepted", .accepted), ("accepted_for_bidding", .accepted), ("calculated", .pending),
    ("canceled", .canceled), ("done_for_day", .pending), ("expired", .expired),
    ("filled", .filled), ("held", .pending), ("new", .accepted),
    ("partially_filled", .partiallyFilled), ("pending_cancel", .pending), ("pending_new", .pending),
    ("pending_replace", .pending), ("rejected", .rejected), ("replaced", .canceled),
    ("stopped", .pending), ("suspended", .pending)]

structure PaperClientOrder where
  clientOrderId : String
  brokerOrderId : String
  brokerEventId : String
  state : OrderState
  occurredAt : Instant
  cumulativeFilledQuantity : ℚ
  averageFillPrice : Option ℚ
  fills : List Fill
  safeErrorCode : Option String := none

/-- `sum(quantities, Decimal(0))`. -/
def filledQuantity (fills : List Fill) : ℚ :=
  runningSum contextPrecision (fills.map (·.quantity))

/-- The quotient of the notional of the fills and a quantity. -/
def averagePrice (fills : List Fill) (cumulative : ℚ) : ℚ :=
  significant contextPrecision (runningSum contextPrecision
    (fills.map fun fill => significant contextPrecision (fill.quantity * fill.price)) / cumulative)

section Hashed

variable [ContentHasher]

/-- `_paper_order`. -/
def paperOrder (raw : OrderPayload) (fills : List Fill) : Except PlatformError PaperClientOrder := do
  let statusText := enumText raw.status
  let state ← require (statusMap.lookup statusText)
    (.executionValidation "paper broker returned an unsupported order state")
  let cumulative ← raw.filledQty.decimalOr 0
  let average ← raw.filledAvgPrice.optionalDecimal
  rejectIf (cumulative ≠ filledQuantity fills)
    (.executionValidation "paper fills require independently sourced execution IDs")
  rejectIf (cumulative ≠ 0 ∧ average ≠ some (averagePrice fills cumulative))
    (.executionValidation "paper order average differs from execution evidence")
  let occurredAt ← (raw.updatedAt.orField raw.submittedAt).utc
  let brokerOrderId ← requiredText raw.id
  let clientOrderId ← requiredText raw.clientOrderId
  pure
    { clientOrderId, brokerOrderId
      brokerEventId := "paper_event_" ++ sha256Hex (.seq [.text "alpaca-paper-order-v2",
        .text brokerOrderId, .text clientOrderId, .text statusText, .text state.value,
        .instant occurredAt, .decimal cumulative, .optional .decimal average,
        .texts (fills.map Fill.contentHash)])
      state, occurredAt, cumulativeFilledQuantity := cumulative, averageFillPrice := average, fills }

/-- The pages of activities, from the number of rounds left. `page` answers a round and a token. -/
def collectPages (raw : OrderPayload)
    (page : Nat → Option String → Except PlatformError (List ActivityPayload)) :
    Nat → Nat → Option String → List String → List ActivityPayload →
      Except PlatformError (List ActivityPayload)
  | 0, _, _, _, _ => .error (.executionValidation "paper fill activity pagination bound exceeded")
  | rounds + 1, round, token, tokens, activities => do
      let _ ← requiredText raw.id
      let items ← page round token
      rejectIf (100 < items.length) (.executionValidation "paper fill activity page is invalid")
      if items.length < 100 then pure (activities ++ items)
      else do
        let token ← requiredText (items.getLast?.bind (·.id))
        rejectIf (token ∈ tokens) (.executionValidation "paper fill activity pagination repeated")
        collectPages raw page rounds (round + 1) (some token) (token :: tokens) (activities ++ items)

/-- `_decode_order`. -/
def decodeOrder (raw : OrderPayload)
    (page : Nat → Option String → Except PlatformError (List ActivityPayload)) :
    Except PlatformError PaperClientOrder := do
  let filled ← raw.filledQty.decimalOr 0
  if filled = 0 then paperOrder raw []
  else do
    let activities ← collectPages raw page 10 0 none [] []
    let fills ← activityFills raw activities
    paperOrder raw fills

end Hashed

/-! ## The recorded evidence -/

/-- What the loop over the activities makes of the evidence recorded before. -/
structure Records (raw : OrderPayload) (o : OrderFacts) (activities : List ActivityPayload)
    (unique final : Dict String FillEvidence) : Prop where
  decoded : ∀ a ∈ activities, ∃ e, decodeActivity raw o a = .ok e ∧ final.get? e.executionId = some e
  kept : ∀ k e, unique.get? k = some e → final.get? k = some e
  origin : ∀ k e, final.get? k = some e → unique.get? k = some e ∨
    ∃ a ∈ activities, decodeActivity raw o a = .ok e ∧ e.executionId = k

section Recording

variable {raw : OrderPayload} {o : OrderFacts}

theorem records_of_ok {activities : List ActivityPayload} :
    ∀ {unique final : Dict String FillEvidence},
      recordActivities raw o unique activities = .ok final →
        Records raw o activities unique final := by
  induction activities with
  | nil =>
    intro unique final h
    cases h
    exact ⟨fun a ha => (List.not_mem_nil ha).elim, fun _ _ he => he, fun _ _ he => Or.inl he⟩
  | cons a rest ih =>
    intro unique final h
    simp only [recordActivities, bind_eq_ok, rejectIf_eq_ok, ne_eq, not_not] at h
    obtain ⟨e, he, -, hrecorded, hrest⟩ := h
    have hih := ih hrest
    refine ⟨?_, ?_, ?_⟩
    · intro b hb
      rcases List.mem_cons.1 hb with rfl | hb
      · exact ⟨e, he, hih.kept _ _ hrecorded⟩
      · exact hih.decoded b hb
    · intro k e' hk
      apply hih.kept
      rw [Dict.get?_setdefault]
      by_cases hkey : k = e.executionId
      · rw [if_pos hkey, ← hkey, hk]
        rfl
      · rw [if_neg hkey]
        exact hk
    · intro k e' hk
      rcases hih.origin k e' hk with hprevious | ⟨b, hb, hdecode, hid⟩
      · by_cases hkey : k = e.executionId
        · -- The entry is that of this activity, because the check passed.
          rw [hkey, hrecorded] at hprevious
          cases hprevious
          exact Or.inr ⟨a, List.mem_cons_self, he, hkey.symm⟩
        · rw [Dict.get?_setdefault, if_neg hkey] at hprevious
          exact Or.inl hprevious
      · exact Or.inr ⟨b, List.mem_cons_of_mem _ hb, hdecode, hid⟩

/-- Activities are recorded when one dictionary holds the evidence of all of them. -/
theorem exists_recordActivities {d : Dict String FillEvidence} {activities : List ActivityPayload} :
    ∀ {unique : Dict String FillEvidence},
      (∀ a ∈ activities, ∃ e, decodeActivity raw o a = .ok e ∧ d.get? e.executionId = some e) →
      (∀ k e, unique.get? k = some e → d.get? k = some e) →
        ∃ final, recordActivities raw o unique activities = .ok final := by
  induction activities with
  | nil => exact fun _ _ => ⟨_, rfl⟩
  | cons a rest ih =>
    intro unique hdecoded hsubset
    obtain ⟨e, he, hd⟩ := hdecoded a List.mem_cons_self
    have hrecorded : (unique.setdefault e.executionId e).get? e.executionId = some e := by
      rw [Dict.get?_setdefault, if_pos rfl]
      cases hprevious : unique.get? e.executionId with
      | none => rfl
      | some e' =>
        have hsame := hsubset _ _ hprevious
        rw [hd] at hsame
        cases hsame
        rfl
    have hnext : ∀ k e', (unique.setdefault e.executionId e).get? k = some e' →
        d.get? k = some e' := by
      intro k e' hk
      by_cases hkey : k = e.executionId
      · rw [hkey, hrecorded] at hk
        cases hk
        rw [hkey]
        exact hd
      · rw [Dict.get?_setdefault, if_neg hkey] at hk
        exact hsubset k e' hk
    obtain ⟨final, hfinal⟩ := ih (fun b hb => hdecoded b (List.mem_cons_of_mem _ hb)) hnext
    refine ⟨final, ?_⟩
    simp only [recordActivities, bind_eq_ok, rejectIf_eq_ok, ne_eq, not_not]
    exact ⟨e, he, (), hrecorded, hfinal⟩

section Members

variable {l m : List ActivityPayload} {d : Dict String FillEvidence}
  (h : recordActivities raw o Dict.empty l = .ok d)
include h

/-- The same activities in another order or number leave the same evidence. -/
theorem recordActivities_congr (hmem : ∀ a, a ∈ l ↔ a ∈ m) :
    ∃ d', recordActivities raw o Dict.empty m = .ok d' ∧ Dict.Agree d d' := by
  have hrecords := records_of_ok h
  obtain ⟨d', hd'⟩ := exists_recordActivities
    (fun a ha => hrecords.decoded a ((hmem a).2 ha))
    (fun k e (hk : (Dict.empty : Dict String FillEvidence).get? k = some e) => nomatch hk)
  have hrecords' := records_of_ok hd'
  refine ⟨d', hd', fun k => Option.ext fun e => ⟨fun hk => ?_, fun hk => ?_⟩⟩
  · rcases hrecords.origin k e hk with hnone | ⟨a, ha, hdecode, rfl⟩
    · cases hnone
    · obtain ⟨e', hdecode', hget⟩ := hrecords'.decoded a ((hmem a).1 ha)
      rw [hdecode] at hdecode'
      cases hdecode'
      exact hget
  · rcases hrecords'.origin k e hk with hnone | ⟨a, ha, hdecode, rfl⟩
    · cases hnone
    · obtain ⟨e', hdecode', hget⟩ := hrecords.decoded a ((hmem a).2 ha)
      rw [hdecode] at hdecode'
      cases hdecode'
      exact hget

/-- Evidence is found under its execution ID. -/
theorem executionId_of_get? {k : String} {e : FillEvidence} (hk : d.get? k = some e) :
    e.executionId = k := by
  rcases (records_of_ok h).origin k e hk with hnone | ⟨a, -, -, hid⟩
  · cases hnone
  · exact hid

theorem mem_orderedEvidence_iff {e : FillEvidence} :
    e ∈ orderedEvidence d ↔ ∃ a ∈ l, decodeActivity raw o a = .ok e := by
  have hrecords := records_of_ok h
  rw [orderedEvidence, mem_sortedBy, Dict.mem_values_iff]
  constructor
  · rintro ⟨k, hk⟩
    rcases hrecords.origin k e hk with hnone | ⟨a, ha, hdecode, -⟩
    · cases hnone
    · exact ⟨a, ha, hdecode⟩
  · rintro ⟨a, ha, hdecode⟩
    obtain ⟨e', hdecode', hget⟩ := hrecords.decoded a ha
    rw [hdecode] at hdecode'
    cases hdecode'
    exact ⟨_, hget⟩

theorem nodup_orderedEvidence : ((orderedEvidence d).map FillEvidence.executionId).Nodup := by
  have hnodup := Dict.nodup_map_values fun k e hk => executionId_of_get? h (k := k) (e := e) hk
  exact ((sortedBy_perm _ d.values).map _).nodup_iff.2 hnodup

theorem orderedEvidence_congr {d' : Dict String FillEvidence} (hagree : Dict.Agree d d') :
    orderedEvidence d = orderedEvidence d' := by
  have hnodup := Dict.nodup_map_values fun k e hk => executionId_of_get? h (k := k) (e := e) hk
  apply sortedBy_eq_of_perm hagree.values_perm
  -- Execution IDs alone tell the evidence apart, so ties in the declared quantity are broken.
  have hsecond : d.values.map FillEvidence.executionId =
      (d.values.map fun e => toLex (e.declared, e.executionId)).map fun key => (ofLex key).2 := by
    rw [List.map_map]
    rfl
  rw [hsecond] at hnodup
  exact hnodup.of_map _

end Members

theorem activityFills_of_mem {l m : List ActivityPayload} (hmem : ∀ a, a ∈ l ↔ a ∈ m)
    {fills : List Fill} (h : activityFills raw l = .ok fills) : activityFills raw m = .ok fills := by
  simp only [activityFills, bind_eq_ok] at h ⊢
  obtain ⟨o, ho, d, hd, hchain⟩ := h
  obtain ⟨d', hd', hagree⟩ := recordActivities_congr hd hmem
  refine ⟨o, ho, d', hd', ?_⟩
  rw [← orderedEvidence_congr hd hagree]
  exact hchain

end Recording

/-! ## Chains -/

theorem chainFills_eq_ok {total : ℚ} {evidence : List FillEvidence} :
    ∀ {cumulative : ℚ} {fills : List Fill}, chainFills total cumulative evidence = .ok fills →
      fills = evidence.map (·.fill) ∧ ∀ before e after, evidence = before ++ e :: after →
        e.declared = ((before ++ [e]).map (·.fill.quantity)).foldl
          (fun sum x => significant contextPrecision (sum + x)) cumulative ∧
        e.leaves = significant contextPrecision (total - e.declared) ∧ 0 ≤ e.leaves := by
  induction evidence with
  | nil =>
    intro cumulative fills h
    cases h
    refine ⟨rfl, ?_⟩
    intro before e after hsplit
    simp at hsplit
  | cons head rest ih =>
    intro cumulative fills h
    simp only [chainFills, bind_eq_ok, rejectIf_eq_ok, pure_eq_ok, not_or, ne_eq, not_not,
      not_lt] at h
    obtain ⟨-, ⟨hdeclared, hleaves, hnonneg⟩, later, hlater, rfl⟩ := h
    obtain ⟨rfl, hchain⟩ := ih hlater
    refine ⟨rfl, ?_⟩
    intro before e after hsplit
    rcases before with - | ⟨first, before⟩
    · obtain ⟨rfl, rfl⟩ := List.cons_eq_cons.1 hsplit
      refine ⟨hdeclared, ?_, hnonneg⟩
      rw [hdeclared]
      exact hleaves
    · obtain ⟨rfl, rfl⟩ := List.cons_eq_cons.1 hsplit
      exact hchain before e after rfl

/-- Evidence that covers the activities and accounts for the order without a gap. -/
structure CompleteChain (raw : OrderPayload) (o : OrderFacts) (activities : List ActivityPayload)
    (evidence : List FillEvidence) : Prop where
  decoded : ∀ a ∈ activities, ∃ e ∈ evidence, decodeActivity raw o a = .ok e
  origin : ∀ e ∈ evidence, ∃ a ∈ activities, decodeActivity raw o a = .ok e
  distinct : (evidence.map FillEvidence.executionId).Nodup
  declared : ∀ before e after, evidence = before ++ e :: after →
    e.declared = runningSum contextPrecision ((before ++ [e]).map (·.fill.quantity))
  leaves : ∀ e ∈ evidence, e.leaves = significant contextPrecision (o.total - e.declared) ∧
    0 ≤ e.leaves

section Accepted

variable {raw : OrderPayload} {activities : List ActivityPayload} {fills : List Fill}

theorem completeChain_of_ok (h : activityFills raw activities = .ok fills) :
    ∃ o evidence, raw.facts = .ok o ∧ CompleteChain raw o activities evidence ∧
      fills = evidence.map (·.fill) := by
  simp only [activityFills, bind_eq_ok] at h
  obtain ⟨o, ho, d, hd, hfills⟩ := h
  obtain ⟨rfl, hchain⟩ := chainFills_eq_ok hfills
  refine ⟨o, orderedEvidence d, ho, ⟨?_, ?_, nodup_orderedEvidence hd, ?_, ?_⟩, rfl⟩
  · intro a ha
    obtain ⟨e, he, -⟩ := (records_of_ok hd).decoded a ha
    exact ⟨e, (mem_orderedEvidence_iff hd).2 ⟨a, ha, he⟩, he⟩
  · exact fun e he => (mem_orderedEvidence_iff hd).1 he
  · exact fun before e after hsplit => (hchain before e after hsplit).1
  · intro e he
    obtain ⟨before, after, hsplit⟩ := List.append_of_mem he
    exact (hchain before e after hsplit).2

/-- The sums of the first fills, computed exactly. -/
def partialSums (evidence : List FillEvidence) : List ℚ :=
  evidence.inits.map fun before => (before.map (·.fill.quantity)).sum

/-- With few enough digits the chain holds exactly. -/
theorem CompleteChain.exact {o : OrderFacts} {evidence : List FillEvidence}
    (h : CompleteChain raw o activities evidence)
    (hsums : ∀ q ∈ partialSums evidence, HasDigits contextPrecision q ∧
      HasDigits contextPrecision (o.total - q)) {before after : List FillEvidence} {e : FillEvidence}
    (hsplit : evidence = before ++ e :: after) :
    e.declared = ((before ++ [e]).map (·.fill.quantity)).sum ∧ e.leaves = o.total - e.declared := by
  have hmem : ∀ before' after', before ++ [e] = before' ++ after' →
      (before'.map (·.fill.quantity)).sum ∈ partialSums evidence := by
    intro before' after' hprefix
    apply List.mem_map.2
    refine ⟨before', List.mem_inits _ _ |>.2 ⟨after' ++ after, ?_⟩, rfl⟩
    rw [← List.append_assoc, ← hprefix, hsplit, List.append_assoc]
    rfl
  have hdeclared : e.declared = ((before ++ [e]).map (·.fill.quantity)).sum := by
    rw [h.declared before e after hsplit]
    apply runningSum_eq_sum
    intro xs ys hxs
    obtain ⟨before', after', hprefix, rfl, -⟩ := List.map_eq_append_iff.1 hxs
    exact (hsums _ (hmem before' after' hprefix)).1
  refine ⟨hdeclared, ?_⟩
  have he : e ∈ evidence := by simp [hsplit]
  rw [(h.leaves e he).1, hdeclared]
  exact significant_eq_self (hsums _ (hmem _ [] (by simp))).2

end Accepted

/-! ## Accepted orders -/

section Facts

variable {raw : OrderPayload} {activities : List ActivityPayload} {fills : List Fill}

theorem facts_eq_ok {o : OrderFacts} (h : raw.facts = .ok o) :
    requiredText raw.id = .ok o.orderId ∧ raw.updatedAt = .value o.updated ∧
      ∃ reported, raw.filledQty = .value reported ∧ 0 < reported := by
  simp only [OrderPayload.facts, bind_eq_ok, rejectIf_eq_ok, exists_const, pure_eq_ok,
    RawField.decimal_eq_ok, RawField.utc_eq_ok, not_or, not_not] at h
  obtain ⟨-, orderId, hid, symbol, -, -, total, -, reported, hreported, ⟨-, hbounds, -⟩, submitted,
    -, updated, hupdated, rfl⟩ := h
  exact ⟨hid, hupdated, reported, hreported, hbounds.1⟩

theorem clientOrderId_of_decode {o : OrderFacts} {a : ActivityPayload} {e : FillEvidence}
    (h : decodeActivity raw o a = .ok e) : ∃ id, requiredText raw.clientOrderId = .ok id := by
  simp only [decodeActivity, bind_eq_ok, rejectIf_eq_ok, exists_const] at h
  obtain ⟨_, -, _, -, -, -, -, -, -, _, -, -, id, hid, -⟩ := h
  exact ⟨id, hid⟩

variable [ContentHasher]

theorem paperOrder_eq_ok {order : PaperClientOrder} (h : paperOrder raw fills = .ok order) :
    order.fills = fills ∧ order.cumulativeFilledQuantity = filledQuantity fills := by
  simp only [paperOrder, bind_eq_ok, require_eq_ok, rejectIf_eq_ok, exists_const, pure_eq_ok,
    ne_eq, not_not] at h
  obtain ⟨state, -, cumulative, -, average, -, hsum, -, t, -, _, -, _, -, rfl⟩ := h
  exact ⟨rfl, hsum⟩

/-- The broker's average has to be the quotient of the default context. -/
theorem paperOrder_accepts_iff (hfills : activityFills raw activities = .ok fills)
    {state : OrderState} (hstate : statusMap.lookup (enumText raw.status) = some state)
    (hfilled : raw.filledQty = .value (filledQuantity fills)) :
    (∃ order, paperOrder raw fills = .ok order) ↔
      raw.filledAvgPrice = .value (averagePrice fills (filledQuantity fills)) := by
  obtain ⟨o, evidence, ho, hchain, rfl⟩ := completeChain_of_ok hfills
  obtain ⟨hid, hupdated, reported, hreported, hpos⟩ := facts_eq_ok ho
  set fills := evidence.map (·.fill) with hfillsEq
  have hsum : reported = filledQuantity fills := by
    rw [hfilled] at hreported
    cases hreported
    rfl
  rw [hsum] at hpos
  -- Something was filled, so an activity has shown the client order ID to be readable.
  have hclient : ∃ id, requiredText raw.clientOrderId = .ok id := by
    rcases hevidence : evidence with - | ⟨e, rest⟩
    · rw [hfillsEq, hevidence] at hpos
      exact absurd hpos (lt_irrefl _)
    · obtain ⟨a, -, ha⟩ := hchain.origin e (by simp [hevidence])
      exact clientOrderId_of_decode ha
  obtain ⟨clientOrderId, hclient⟩ := hclient
  have hcumulative : raw.filledQty.decimalOr 0 = .ok (filledQuantity fills) := by
    rw [hfilled]
    rfl
  have hinstant : (raw.updatedAt.orField raw.submittedAt).utc = .ok o.updated := by
    rw [hupdated]
    rfl
  rw [← RawField.optionalDecimal_eq_some]
  simp only [paperOrder, hstate, hcumulative, hinstant, hid, hclient, bind_eq_ok, require_eq_ok,
    rejectIf_eq_ok, exists_const, pure_eq_ok, ne_eq, not_and, not_not, Option.some.injEq,
    Except.ok.injEq]
  constructor
  · rintro ⟨order, _, rfl, _, rfl, average, haverage, -, hsame, -⟩
    rw [haverage, hsame hpos.ne']
  · intro haverage
    exact ⟨_, _, rfl, _, rfl, _, haverage, rfl, fun _ => rfl, _, rfl, _, rfl, _, rfl, rfl⟩

end Facts

/-! ## Results -/

section Results

variable [ContentHasher]

/-- Fill evidence does not depend on the order or the number of the activities and is a complete chain.
The fills of an order add up to its filled quantity. With a complete chain an order is accepted exactly
when the broker's average is the quotient of the default context. -/
theorem paper_fill_evidence (raw : OrderPayload) :
    (∀ l m : List ActivityPayload, (∀ a, a ∈ l ↔ a ∈ m) →
      (activityFills raw l).toOption = (activityFills raw m).toOption) ∧
    (∀ l fills, activityFills raw l = .ok fills → ∃ o evidence, raw.facts = .ok o ∧
      CompleteChain raw o l evidence ∧ fills = evidence.map (·.fill) ∧
      ((∀ q ∈ partialSums evidence, HasDigits contextPrecision q ∧
          HasDigits contextPrecision (o.total - q)) →
        ∀ before e after, evidence = before ++ e :: after →
          e.declared = ((before ++ [e]).map (·.fill.quantity)).sum ∧
          e.leaves = o.total - e.declared)) ∧
    (∀ page order, decodeOrder raw page = .ok order →
      order.cumulativeFilledQuantity = filledQuantity order.fills) ∧
    (∀ l fills state, activityFills raw l = .ok fills →
      statusMap.lookup (enumText raw.status) = some state →
      raw.filledQty = .value (filledQuantity fills) →
        ((∃ order, paperOrder raw fills = .ok order) ↔
          raw.filledAvgPrice = .value (averagePrice fills (filledQuantity fills)))) := by
  refine ⟨?_, ?_, ?_, ?_⟩
  · intro l m hmem
    cases hl : activityFills raw l with
    | ok fills => rw [activityFills_of_mem hmem hl]
    | error e =>
      cases hm : activityFills raw m with
      | ok fills =>
        rw [activityFills_of_mem (fun a => (hmem a).symm) hm] at hl
        cases hl
      | error e' => rfl
  · intro l fills h
    obtain ⟨o, evidence, ho, hchain, hfills⟩ := completeChain_of_ok h
    exact ⟨o, evidence, ho, hchain, hfills, fun hsums _ _ _ hsplit => hchain.exact hsums hsplit⟩
  · intro page order h
    simp only [decodeOrder, bind_eq_ok] at h
    obtain ⟨filled, -, h⟩ := h
    split at h
    · obtain ⟨hfills, hcumulative⟩ := paperOrder_eq_ok h
      rw [hcumulative, hfills]
    · simp only [bind_eq_ok] at h
      obtain ⟨activities, -, fills, -, h⟩ := h
      obtain ⟨hfills, hcumulative⟩ := paperOrder_eq_ok h
      rw [hcumulative, hfills]
  · intro l fills state hfills hstate hfilled
    exact paperOrder_accepts_iff hfills hstate hfilled

end Results

/-! ## Samples -/

def paperClientOrderId : String := "aqa-00000-00000-AAA-x-00-1-000000"

/-- A filled purchase. -/
def filledPayload (quantity average : ℚ) : OrderPayload where
  id := some "order-id"
  clientOrderId := some paperClientOrderId
  symbol := some "AAA"
  side := some "buy"
  status := some "filled"
  assetClass := some "us_equity"
  qty := .value quantity
  filledQty := .value quantity
  filledAvgPrice := .value average
  submittedAt := .value 0
  updatedAt := .value 2

def fillActivity (id : String) (quantity price declared leaves : ℚ) : ActivityPayload where
  id := some id
  orderId := some "order-id"
  symbol := some "AAA"
  side := some "buy"
  activityType := some "FILL"
  type := some "fill"
  fee := .missing
  commission := .missing
  qty := .value quantity
  price := .value price
  cumQty := .value declared
  leavesQty := .value leaves
  transactionTime := .value 1

def filledFacts (quantity : ℚ) : OrderFacts where
  orderId := "order-id"
  symbol := "AAA"
  sideText := "buy"
  side := .buy
  total := quantity
  submitted := 0
  updated := 2

theorem facts_filledPayload {quantity : ℚ} (hpos : 0 < quantity) (average : ℚ) :
    (filledPayload quantity average).facts = .ok (filledFacts quantity) := by
  have hasset : enumText (some "us_equity") = "us_equity" := by decide +kernel
  have hside : enumText (some "buy") = "buy" := by decide +kernel
  have hstatus : enumText (some "filled") = "filled" := by decide +kernel
  have hid : requiredText (some "order-id") = .ok "order-id" := rfl
  have hsymbol : requiredText (some "AAA") = .ok "AAA" := rfl
  simp [OrderPayload.facts, filledPayload, filledFacts, hasset, hside, hstatus, hid, hsymbol,
    rejectIf, RawField.decimal, RawField.utc, bind, Except.bind, pure, Except.pure, hpos,
    not_le.2 hpos]

section Sample

variable {quantity price : ℚ} (hquantity : 0 < quantity) (hprice : 0 < price) (id : String)
  (hid : isIdentifier id = true)

def activityEvidence (declared leaves : ℚ) : FillEvidence where
  declared := declared
  leaves := leaves
  fill :=
    { clientOrderId := paperClientOrderId, brokerExecutionId := id, symbol := "AAA", side := .buy
      quantity, price, fee := 0, occurredAt := 1
      checked := by
        have hclient : isClientOrderId paperClientOrderId = true := by decide +kernel
        have hsymbol : isSymbol "AAA" = true := by decide +kernel
        simp [FillFields.check, hclient, hsymbol, hid, hquantity, hprice] }

theorem decodeActivity_fill (hlength : id ≠ "" ∧ id.length ≤ 128)
    (total average declared leaves : ℚ) :
    decodeActivity (filledPayload total average) (filledFacts total)
      (fillActivity id quantity price declared leaves) =
        .ok (activityEvidence hquantity hprice id hid declared leaves) := by
  have hside : enumText (some "buy") = "buy" := by decide +kernel
  have horder : requiredText (some "order-id") = .ok "order-id" := rfl
  have hsymbol : requiredText (some "AAA") = .ok "AAA" := rfl
  have hclient : requiredText (some paperClientOrderId) = .ok paperClientOrderId := rfl
  have hexecution : requiredText (some id) = .ok id := by
    simp [requiredText, require, rejectIf, bind, Except.bind, pure, Except.pure, hlength.1,
      not_lt.2 hlength.2]
  have hfee : checkFee .missing = .ok () := rfl
  simp only [decodeActivity, fillActivity, filledPayload, filledFacts, bind_eq_ok, rejectIf_eq_ok,
    exists_const, pure_eq_ok, horder, hsymbol, hside, hclient, hexecution, hfee,
    RawField.decimal_eq_ok, RawField.utc_eq_ok, Except.ok.injEq, RawField.value.injEq,
    exists_eq_left']
  have hchecked := (activityEvidence hquantity hprice id hid declared leaves).fill.checked
  refine ⟨by simp, trivial, trivial, (), rfl, ?_⟩
  exact ⟨_, validated_of_ok hchecked, rfl⟩

end Sample

section Pair

variable {x y p r : ℚ} (hx : 0 < x) (hy : 0 < y) (hp : 0 < p) (hr : 0 < r)

def firstEvidence (declared leaves : ℚ) : FillEvidence :=
  activityEvidence hx hp "execution-1" (by decide +kernel) declared leaves

def secondEvidence (declared leaves : ℚ) : FillEvidence :=
  activityEvidence hy hr "execution-2" (by decide +kernel) declared leaves

/-- Two activities that account for an order. -/
theorem activityFills_pair (total average first second leaves rest : ℚ) (htotal : 0 < total)
    (hfirst : first = significant contextPrecision x)
    (hsecond : second = significant contextPrecision (first + y)) (hle : first ≤ second)
    (hleaves : leaves = significant contextPrecision (total - first))
    (hrest : rest = significant contextPrecision (total - second)) (hleavesNonneg : 0 ≤ leaves)
    (hrestNonneg : 0 ≤ rest) :
    activityFills (filledPayload total average) [fillActivity "execution-1" x p first leaves,
      fillActivity "execution-2" y r second rest] =
        .ok [(firstEvidence hx hp first leaves).fill, (secondEvidence hy hr second rest).fill] := by
  have hlength : ∀ id ∈ ["execution-1", "execution-2"], id ≠ "" ∧ id.length ≤ 128 := by decide
  have hdecode₁ := decodeActivity_fill hx hp "execution-1" (by decide +kernel)
    (hlength _ (by simp)) total average first leaves
  have hdecode₂ := decodeActivity_fill hy hr "execution-2" (by decide +kernel)
    (hlength _ (by simp)) total average second rest
  set e₁ := firstEvidence hx hp first leaves with he₁
  set e₂ := secondEvidence hy hr second rest with he₂
  have hrecorded : recordActivities (filledPayload total average) (filledFacts total) Dict.empty
      [fillActivity "execution-1" x p first leaves, fillActivity "execution-2" y r second rest] =
        .ok ((Dict.empty.set "execution-1" e₁).set "execution-2" e₂) := by
    simp only [recordActivities, bind_eq_ok, rejectIf_eq_ok, exists_const]
    refine ⟨e₁, hdecode₁, ?_, e₂, hdecode₂, ?_, rfl⟩
    · simp [Dict.get?_setdefault]
    · have hne : ("execution-2" : String) ≠ "execution-1" := by decide
      simp [Dict.get?_setdefault, he₁, he₂, firstEvidence, secondEvidence, activityEvidence,
        FillEvidence.executionId, hne]
  have hkey : toLex (e₁.declared, e₁.executionId) ≤ toLex (e₂.declared, e₂.executionId) := by
    rcases hle.lt_or_eq with hlt | heq
    · exact Prod.Lex.toLex_le_toLex.2 (Or.inl hlt)
    · have hids : ("execution-1" : String) ≤ "execution-2" := by decide
      exact Prod.Lex.toLex_le_toLex.2 (Or.inr ⟨heq, hids⟩)
  have hordered : orderedEvidence ((Dict.empty.set "execution-1" e₁).set "execution-2" e₂) =
      [e₁, e₂] := by
    show sortedBy _ [e₁, e₂] = [e₁, e₂]
    apply sortedBy_eq_self
    simpa using hkey
  simp only [activityFills, facts_filledPayload htotal, bind_eq_ok, Except.ok.injEq, exists_eq_left',
    hrecorded, hordered]
  simp only [chainFills, bind_eq_ok, rejectIf_eq_ok, exists_const, pure_eq_ok, zero_add]
  have hfill₁ : e₁.fill.quantity = x := rfl
  have hfill₂ : e₂.fill.quantity = y := rfl
  have hfacts : (filledFacts total).total = total := rfl
  refine ⟨?_, [e₂.fill], ⟨?_, [], rfl, rfl⟩, rfl⟩
  · rw [hfill₁, hfacts, ← hfirst, ← hleaves]
    exact fun h => h.elim (· rfl) fun h => h.elim (· rfl) (not_lt.2 hleavesNonneg)
  · rw [hfill₁, hfill₂, hfacts, ← hfirst, ← hsecond, ← hrest]
    exact fun h => h.elim (· rfl) fun h => h.elim (· rfl) (not_lt.2 hrestNonneg)

end Pair

section Evaluated

theorem significant_hundredths {n : Nat} (h : n < 10 ^ contextPrecision) :
    significant contextPrecision ((n : ℚ) / 100) = n / 100 := by
  apply significant_eq_self
  refine ⟨n, -2, ?_, ?_⟩
  · rw [Nat.abs_cast]
    exact_mod_cast h
  · norm_num [zpow_neg]
    ring

local instance paperHasher : ContentHasher := polynomialHasher

/-- Two shares at different prices, read late and twice. -/
theorem paper_fill_evidence_filled :
    (activityFills (filledPayload 2 101) [fillActivity "execution-2" 1 102 2 0,
        fillActivity "execution-1" 1 100 1 1, fillActivity "execution-1" 1 100 1 1]).toOption =
      (activityFills (filledPayload 2 101) [fillActivity "execution-1" 1 100 1 1,
        fillActivity "execution-2" 1 102 2 0]).toOption ∧
    ∃ order, paperOrder (filledPayload 2 101)
      [(firstEvidence (x := 1) (p := 100) (by norm_num) (by norm_num) 1 1).fill,
        (secondEvidence (y := 1) (r := 102) (by norm_num) (by norm_num) 2 0).fill] = .ok order := by
  have hone : significant contextPrecision 1 = 1 := by
    exact_mod_cast significant_natCast (p := contextPrecision) (n := 1) (by decide)
  have htwo : significant contextPrecision 2 = 2 := by
    exact_mod_cast significant_natCast (p := contextPrecision) (n := 2) (by decide)
  have hnotional : significant contextPrecision 202 = 202 := by
    exact_mod_cast significant_natCast (p := contextPrecision) (n := 202) (by decide)
  have hlow : significant contextPrecision 100 = 100 := by
    exact_mod_cast significant_natCast (p := contextPrecision) (n := 100) (by decide)
  have hhigh : significant contextPrecision 102 = 102 := by
    exact_mod_cast significant_natCast (p := contextPrecision) (n := 102) (by decide)
  have hmean : significant contextPrecision 101 = 101 := by
    exact_mod_cast significant_natCast (p := contextPrecision) (n := 101) (by decide)
  have hfills := activityFills_pair (x := 1) (y := 1) (p := 100) (r := 102) (by norm_num)
    (by norm_num) (by norm_num) (by norm_num) 2 101 1 2 1 0 (by norm_num) hone.symm
    (by norm_num [htwo]) (by norm_num) (by norm_num [hone]) (by norm_num) (by norm_num) (by norm_num)
  refine ⟨(paper_fill_evidence (filledPayload 2 101)).1 _ _ fun a => ?_, ?_⟩
  · simp only [List.mem_cons, List.not_mem_nil, or_false]
    tauto
  · have hstate : statusMap.lookup (enumText (filledPayload 2 101).status) = some .filled := by
      decide +kernel
    have hquantity : filledQuantity
        [(firstEvidence (x := 1) (p := 100) (by norm_num) (by norm_num) 1 1).fill,
          (secondEvidence (y := 1) (r := 102) (by norm_num) (by norm_num) 2 0).fill] = 2 := by
      show significant contextPrecision (significant contextPrecision (0 + 1) + 1) = 2
      norm_num [hone, htwo]
    apply ((paper_fill_evidence (filledPayload 2 101)).2.2.2 _ _ _ hfills hstate
      (by rw [hquantity]; rfl)).2
    rw [hquantity]
    show RawField.value 101 = RawField.value (significant contextPrecision
      (significant contextPrecision (significant contextPrecision
        (0 + significant contextPrecision (1 * 100)) + significant contextPrecision (1 * 102)) / 2))
    norm_num [hlow, hhigh, hnotional, hmean]

/-- A price of one share and another one of two have a mean without a last digit: the broker's mean
to six places is rejected. And a sum of 30 digits is compared after rounding. -/
theorem rounded_average_rejected :
    ¬ (∀ (raw : OrderPayload) (l : List ActivityPayload) (fills : List Fill) (state : OrderState)
      (places : Nat), activityFills raw l = .ok fills →
        statusMap.lookup (enumText raw.status) = some state →
        raw.filledQty = .value (fills.map (·.quantity)).sum → 6 ≤ places →
        raw.filledAvgPrice = .value (Foundation.roundHalfEven ((fills.map fun f => f.quantity * f.price).sum /
          (fills.map (·.quantity)).sum * 10 ^ places) / 10 ^ places) →
          ∃ order, paperOrder raw fills = .ok order) ∧
    ¬ (∀ (raw : OrderPayload) (l : List ActivityPayload) (o : OrderFacts)
      (evidence : List FillEvidence), raw.facts = .ok o → CompleteChain raw o l evidence →
        activityFills raw l = .ok (evidence.map (·.fill)) → ∀ before e after,
          evidence = before ++ e :: after →
            e.declared = ((before ++ [e]).map (·.fill.quantity)).sum) := by
  have hone : significant contextPrecision 1 = 1 := by
    exact_mod_cast significant_natCast (p := contextPrecision) (n := 1) (by decide)
  constructor
  · intro hclaim
    have htwo : significant contextPrecision 2 = 2 := by
      exact_mod_cast significant_natCast (p := contextPrecision) (n := 2) (by decide)
    have hthree : significant contextPrecision 3 = 3 := by
      exact_mod_cast significant_natCast (p := contextPrecision) (n := 3) (by decide)
    have hten : significant contextPrecision 10 = 10 := by
      exact_mod_cast significant_natCast (p := contextPrecision) (n := 10) (by decide)
    have hsecond : significant contextPrecision (1001 / 50) = 1001 / 50 := by
      have h := significant_hundredths (n := 2002) (by decide)
      norm_num at h
      exact h
    have hnotional : significant contextPrecision (1501 / 50) = 1501 / 50 := by
      have h := significant_hundredths (n := 3002) (by decide)
      norm_num at h
      exact h
    have hfills := activityFills_pair (x := 1) (y := 2) (p := 10) (r := 1001 / 100) (by norm_num)
      (by norm_num) (by norm_num) (by norm_num) 3 (10006667 / 10 ^ 6) 1 3 2 0 (by norm_num)
      hone.symm (by norm_num [hthree]) (by norm_num) (by norm_num [htwo]) (by norm_num) (by norm_num)
      (by norm_num)
    have hstate : statusMap.lookup (enumText (some "filled")) = some .filled := by decide +kernel
    have hquantity : filledQuantity
        [(firstEvidence (x := 1) (p := 10) (by norm_num) (by norm_num) 1 2).fill,
          (secondEvidence (y := 2) (r := 1001 / 100) (by norm_num) (by norm_num) 3 0).fill] = 3 := by
      show significant contextPrecision (significant contextPrecision (0 + 1) + 2) = 3
      norm_num [hone, hthree]
    have haccepted := hclaim _ _ _ _ 6 hfills hstate (by
      show RawField.value (3 : ℚ) = RawField.value (1 + (2 + 0))
      norm_num) le_rfl (by
      show RawField.value (10006667 / 10 ^ 6 : ℚ) = RawField.value ((Foundation.roundHalfEven
        ((1 * 10 + (2 * (1001 / 100) + 0)) / (1 + (2 + 0)) * 10 ^ 6) : ℚ) / 10 ^ 6)
      rw [roundHalfEven_eq (n := 10006667) (by norm_num [abs_lt])]
      norm_num)
    have haverage := (paperOrder_accepts_iff hfills hstate (by rw [hquantity]; rfl)).1 haccepted
    rw [hquantity] at haverage
    have hsame : (10006667 / 10 ^ 6 : ℚ) = significant contextPrecision (significant contextPrecision
        (significant contextPrecision (0 + significant contextPrecision (1 * 10)) +
          significant contextPrecision (2 * (1001 / 100))) / 3) := RawField.value.inj haverage
    have herror := abs_significant_sub_le_roundoff (p := contextPrecision) (by decide) (1501 / 150)
    norm_num [hten, hsecond, hnotional] at hsame
    rw [← hsame, Decimal.roundoff] at herror
    norm_num [contextPrecision, abs_le] at herror
  · intro hclaim
    have hdigits : HasDigits contextPrecision 1 := ⟨1, 0, by decide, by norm_num⟩
    have hrounded : significant contextPrecision (1 + 1 / 10 ^ 29) = 1 := by
      apply significant_eq_of_near (by decide) hdigits
      norm_num [contextPrecision, abs_lt]
    have hfills := activityFills_pair (x := 1) (y := 1 / 10 ^ 29) (p := 10) (r := 10) (by norm_num)
      (by norm_num) (by norm_num) (by norm_num) 1 10 1 1 0 0 (by norm_num) hone.symm hrounded.symm
      le_rfl (by norm_num) (by norm_num) le_rfl le_rfl
    obtain ⟨o, evidence, ho, hchain, hpair⟩ := completeChain_of_ok hfills
    rw [hpair] at hfills
    obtain ⟨e₁, rest₁, rfl, he₁, hrest₁⟩ := List.map_eq_cons_iff.1 hpair.symm
    obtain ⟨e₂, rest₂, rfl, he₂, hrest₂⟩ := List.map_eq_cons_iff.1 hrest₁
    have hexact := hclaim _ _ o _ ho hchain hfills [e₁] e₂ rest₂ rfl
    have hrunning := hchain.declared [e₁] e₂ rest₂ rfl
    have hquantity₁ : e₁.fill.quantity = 1 := by rw [he₁]; rfl
    have hquantity₂ : e₂.fill.quantity = 1 / 10 ^ 29 := by rw [he₂]; rfl
    have hsums : [e₁.fill.quantity, e₂.fill.quantity].sum =
        runningSum contextPrecision [e₁.fill.quantity, e₂.fill.quantity] := hexact.symm.trans hrunning
    rw [hquantity₁, hquantity₂, ← List.singleton_append, runningSum_concat, ← List.nil_append [1],
      runningSum_concat, runningSum_nil, zero_add, hone, hrounded] at hsums
    norm_num at hsums

end Evaluated

end AdaptiveTrader
