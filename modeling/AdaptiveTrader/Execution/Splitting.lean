import AdaptiveTrader.Execution.Progress

/-!
# Splitting and the minimum notional

A transition above the notional limit is split into full parts and one last part, which takes what
is left (`splitQuantities_eq`). Planning then checks every part against the minimum notional, and a
single small part rejects the whole plan. For requests whose unsplit transitions all reach the
minimum, `planSignedOrders_returns_iff` says when planning returns: exactly when it has authority
and each last part reaches the minimum as well. The closed position of `sampleOversized` is above
the limit by less than the minimum, so it cannot be planned.
-/

set_option autoImplicit false

namespace AdaptiveTrader

open Foundation

/-! ## The quantities of a split -/

/-- The number of full parts before the last part. -/
def fullParts (maximum quantity : ℚ) : Nat := (⌈quantity / maximum⌉ - 1).toNat

/-- What the full parts leave for the last part. -/
def lastPart (maximum quantity : ℚ) : ℚ := quantity - fullParts maximum quantity * maximum

section Quantities

variable {maximum quantity : ℚ}

theorem fullParts_of_le (hmax : 0 < maximum) (hle : quantity ≤ maximum) :
    fullParts maximum quantity = 0 := by
  have hdiv : quantity / maximum ≤ 1 := (div_le_one hmax).2 hle
  have hceil : ⌈quantity / maximum⌉ ≤ 1 := Int.ceil_le.2 (by exact_mod_cast hdiv)
  unfold fullParts
  omega

theorem fullParts_of_lt (hmax : 0 < maximum) (hlt : maximum < quantity) :
    fullParts maximum quantity = fullParts maximum (quantity - maximum) + 1 := by
  have hdiv : (quantity - maximum) / maximum = quantity / maximum - 1 := by
    rw [sub_div, div_self hmax.ne']
  have hone : (1 : ℚ) < quantity / maximum := (one_lt_div hmax).2 hlt
  have hceil : (1 : ℤ) < ⌈quantity / maximum⌉ := Int.lt_ceil.2 (by exact_mod_cast hone)
  unfold fullParts
  rw [hdiv, Int.ceil_sub_one]
  omega

theorem lastPart_of_le (hmax : 0 < maximum) (hle : quantity ≤ maximum) :
    lastPart maximum quantity = quantity := by
  unfold lastPart
  rw [fullParts_of_le hmax hle]
  simp

theorem lastPart_of_lt (hmax : 0 < maximum) (hlt : maximum < quantity) :
    lastPart maximum quantity = lastPart maximum (quantity - maximum) := by
  unfold lastPart
  rw [fullParts_of_lt hmax hlt]
  push_cast
  ring

/-- The last part is positive and no larger than a full one. -/
theorem lastPart_bounds (hmax : 0 < maximum) (hpos : 0 < quantity) :
    0 < lastPart maximum quantity ∧ lastPart maximum quantity ≤ maximum := by
  have hdiv : 0 < quantity / maximum := div_pos hpos hmax
  have hceil : 0 < ⌈quantity / maximum⌉ := Int.ceil_pos.2 hdiv
  have hcast : ((fullParts maximum quantity : ℕ) : ℚ) = ⌈quantity / maximum⌉ - 1 := by
    have hint : ((fullParts maximum quantity : ℕ) : ℤ) = ⌈quantity / maximum⌉ - 1 := by
      unfold fullParts
      omega
    exact_mod_cast congrArg (Int.cast : ℤ → ℚ) hint
  have hbelow : (⌈quantity / maximum⌉ : ℚ) - 1 < quantity / maximum := by
    linarith [Int.ceil_lt_add_one (quantity / maximum)]
  have habove : quantity / maximum ≤ (⌈quantity / maximum⌉ : ℚ) := Int.le_ceil _
  have hlow := (lt_div_iff₀ hmax).1 hbelow
  have hhigh := (div_le_iff₀ hmax).1 habove
  unfold lastPart
  rw [hcast]
  constructor
  · linarith
  · linarith

theorem splitQuantities_zero (maximum : ℚ) (allowed : Nat) :
    splitQuantities maximum allowed 0 = .ok [] := by
  cases allowed with
  | zero => rfl
  | succ allowed => rfl

/-- Within the limit on parts the loop yields the full parts and the last one. -/
theorem splitQuantities_eq (hmax : 0 < maximum) {allowed : Nat} (hpos : 0 < quantity)
    (hallowed : fullParts maximum quantity < allowed) :
    splitQuantities maximum allowed quantity =
      .ok (List.replicate (fullParts maximum quantity) maximum ++
        [lastPart maximum quantity]) := by
  induction allowed generalizing quantity with
  | zero => omega
  | succ allowed ih =>
      have hnot : ¬ quantity ≤ 0 := not_le.2 hpos
      rcases le_or_gt quantity maximum with hle | hlt
      · rw [fullParts_of_le hmax hle, lastPart_of_le hmax hle]
        simp only [splitQuantities, if_neg hnot, min_eq_left hle, sub_self,
          splitQuantities_zero, bind, Except.bind, pure, Except.pure]
        rfl
      · have hrest : 0 < quantity - maximum := sub_pos.2 hlt
        rw [fullParts_of_lt hmax hlt] at hallowed ⊢
        rw [lastPart_of_lt hmax hlt]
        have hloop := ih hrest (by omega)
        simp only [splitQuantities, if_neg hnot, min_eq_right hlt.le, hloop, bind, Except.bind,
          pure, Except.pure]
        rfl

end Quantities

/-! ## The parts of a draft -/

/-- Splitting an opening or a closing effect keeps its side and phase. -/
theorem sideAndPhase_splitEffect (effect : PositionEffect) (first last : Bool) :
    (splitEffect effect first last).sideAndPhase = effect.sideAndPhase := by
  cases effect with
  | openLong => cases first <;> rfl
  | openShort => cases first <;> rfl
  | closeLong => cases last <;> rfl
  | closeShort => cases last <;> rfl
  | increaseLong => rfl
  | reduceLong => rfl
  | increaseShort => rfl
  | reduceShort => rfl
  | forcedFlatLong => rfl
  | forcedFlatShort => rfl

theorem length_partsFrom (d : IntentDraft) (part : Nat) (quantities : List ℚ) :
    (partsFrom d part quantities).length = quantities.length := by
  induction quantities generalizing part with
  | nil => rfl
  | cons quantity rest ih => simp [partsFrom, ih]

namespace IntentDraft

/-- What a draft needs for an intent outside forced flattening. -/
structure Valid (d : IntentDraft) : Prop where
  quantity_pos : 0 < d.quantity
  sidePhase : (d.side, d.phase) = d.effect.sideAndPhase
  notFlatten : d.phase ≠ .flatten

section Parts

variable (d : IntentDraft) (price maximumNotional : ℚ)

/-- The unit in which the quantity is rounded. -/
def quantum : ℚ := if d.effect.isLong then longQuantum else shortQuantum

/-- The quantity of a full part. -/
def maximumQuantity : ℚ := quantizeDecimal (maximumNotional / price) d.quantum

/-- The quantity of the last part. -/
def remainder : ℚ := lastPart (d.maximumQuantity price maximumNotional) d.quantity

/-- The number of parts. -/
def partCount : Nat :=
  if d.quantity * price ≤ maximumNotional then 1
  else fullParts (d.maximumQuantity price maximumNotional) d.quantity + 1

/-- The parts: the draft itself up to the limit, full parts and a last one above it. -/
def parts : List IntentDraft :=
  if d.quantity * price ≤ maximumNotional then [d]
  else
    partsFrom d 0
      (List.replicate (fullParts (d.maximumQuantity price maximumNotional) d.quantity)
          (d.maximumQuantity price maximumNotional) ++
        [d.remainder price maximumNotional])

theorem quantum_pos : 0 < d.quantum := by
  unfold quantum longQuantum shortQuantum
  split <;> norm_num

theorem length_parts : (d.parts price maximumNotional).length = d.partCount price maximumNotional := by
  unfold parts partCount
  split
  · rfl
  · simp [length_partsFrom]

end Parts

variable {d : IntentDraft} {price maximumNotional : ℚ}

/-- A limit that holds one unit makes full parts of at least one unit. -/
theorem maximumQuantity_pos (hprice : 0 < price) (hunit : d.quantum * price ≤ maximumNotional) :
    0 < d.maximumQuantity price maximumNotional := by
  have hquantum := d.quantum_pos
  have hunits : 1 ≤ maximumNotional / price / d.quantum := by
    rw [le_div_iff₀ hquantum, one_mul, le_div_iff₀ hprice]
    exact hunit
  have hfloor : (1 : ℤ) ≤ ⌊maximumNotional / price / d.quantum⌋ :=
    Int.le_floor.2 (by exact_mod_cast hunits)
  have hnonneg : 0 ≤ maximumNotional / price / d.quantum := zero_le_one.trans hunits
  unfold maximumQuantity quantizeDecimal roundDown
  rw [if_pos hnonneg]
  exact mul_pos (by exact_mod_cast hfloor) hquantum

/-- A full part stays within the limit. -/
theorem maximumQuantity_mul_le (hprice : 0 < price) (hunit : d.quantum * price ≤ maximumNotional) :
    d.maximumQuantity price maximumNotional * price ≤ maximumNotional := by
  have hnotional : 0 ≤ maximumNotional := (mul_pos d.quantum_pos hprice).le.trans hunit
  have hle : d.maximumQuantity price maximumNotional ≤ maximumNotional / price :=
    quantizeDecimal_le (div_nonneg hnotional hprice.le) d.quantum_pos
  exact (le_div_iff₀ hprice).1 hle

theorem mem_partsFrom {part : Nat} {quantities : List ℚ} {p : IntentDraft}
    (hp : p ∈ partsFrom d part quantities) :
    p.symbol = d.symbol ∧ (p.side, p.phase) = (d.side, d.phase) ∧
      p.effect.sideAndPhase = d.effect.sideAndPhase ∧ p.quantity ∈ quantities := by
  induction quantities generalizing part with
  | nil => cases hp
  | cons quantity rest ih =>
      rcases List.mem_cons.1 hp with rfl | hrest
      · exact ⟨rfl, rfl, sideAndPhase_splitEffect _ _ _, List.mem_cons_self⟩
      · obtain ⟨hsymbol, hside, heffect, hquantity⟩ := ih hrest
        exact ⟨hsymbol, hside, heffect, List.mem_cons_of_mem _ hquantity⟩

theorem exists_mem_partsFrom {part : Nat} {quantities : List ℚ} {quantity : ℚ}
    (hquantity : quantity ∈ quantities) :
    ∃ p ∈ partsFrom d part quantities, p.quantity = quantity := by
  induction quantities generalizing part with
  | nil => cases hquantity
  | cons first rest ih =>
      rcases List.mem_cons.1 hquantity with rfl | hrest
      · exact ⟨_, List.mem_cons_self, rfl⟩
      · obtain ⟨p, hp, hpq⟩ := @ih (part + 1) hrest
        exact ⟨p, List.mem_cons_of_mem _ hp, hpq⟩

section Limit

variable (hprice : 0 < price) (hunit : d.quantum * price ≤ maximumNotional)

include hprice hunit

/-- The part of a split draft with the least quantity is the last one. -/
theorem remainder_bounds (hd : d.Valid) :
    0 < d.remainder price maximumNotional ∧
      d.remainder price maximumNotional ≤ d.maximumQuantity price maximumNotional :=
  lastPart_bounds (maximumQuantity_pos hprice hunit) hd.quantity_pos

/-- The parts of a valid draft are valid and trade its symbol. -/
theorem valid_of_mem_parts (hd : d.Valid) {p : IntentDraft}
    (hp : p ∈ d.parts price maximumNotional) : p.Valid ∧ p.symbol = d.symbol := by
  unfold parts at hp
  split at hp
  · rw [List.mem_singleton.1 hp]
    exact ⟨hd, rfl⟩
  · obtain ⟨hsymbol, hside, heffect, hquantity⟩ := mem_partsFrom hp
    refine ⟨⟨?_, ?_, ?_⟩, hsymbol⟩
    · rcases List.mem_append.1 hquantity with hfull | hlast
      · rw [List.eq_of_mem_replicate hfull]
        exact maximumQuantity_pos hprice hunit
      · rw [List.mem_singleton.1 hlast]
        exact (remainder_bounds hprice hunit hd).1
    · rw [hside, heffect]
      exact hd.sidePhase
    · have hphase : p.phase = d.phase := congrArg Prod.snd hside
      rw [hphase]
      exact hd.notFlatten

/-- Within the limit on parts a draft is split into its parts. -/
theorem splitDraft_eq (hd : d.Valid)
    (hcount : d.partCount price maximumNotional ≤ maximumIntentsPerPlan) :
    splitDraft d price maximumNotional = .ok (d.parts price maximumNotional) := by
  unfold splitDraft parts
  by_cases hsmall : d.quantity * price ≤ maximumNotional
  · rw [if_pos hsmall, if_pos hsmall]
  · have hmax := maximumQuantity_pos hprice hunit
    rw [partCount, if_neg hsmall] at hcount
    have hquantities : splitQuantities (d.maximumQuantity price maximumNotional)
        maximumIntentsPerPlan d.quantity = _ := splitQuantities_eq hmax hd.quantity_pos (by omega)
    have hnot : ¬ quantizeDecimal (maximumNotional / price)
        (if d.effect.isLong then longQuantum else shortQuantum) ≤ 0 := not_le.2 hmax
    unfold maximumQuantity quantum at hquantities
    rw [if_neg hsmall, if_neg hsmall]
    simp only [rejectIf, if_neg hnot, hquantities, bind, Except.bind, pure, Except.pure]
    rfl

/-- The parts of a draft reach a notional exactly when the draft and, above the limit, its last
part do. -/
theorem parts_reach_iff (hd : d.Valid) {least : ℚ} (hleast : least ≤ d.quantity * price) :
    (∀ p ∈ d.parts price maximumNotional, least ≤ p.quantity * price) ↔
      (maximumNotional < d.quantity * price →
        least ≤ d.remainder price maximumNotional * price) := by
  unfold parts
  constructor
  · intro hall hlarge
    rw [if_neg (not_le.2 hlarge)] at hall
    obtain ⟨p, hp, hpq⟩ := @exists_mem_partsFrom d 0 _ (d.remainder price maximumNotional)
      (List.mem_append_right _ (List.mem_singleton_self _))
    rw [← hpq]
    exact hall p hp
  · intro hlast p hp
    split at hp
    · rw [List.mem_singleton.1 hp]
      exact hleast
    · next hlarge =>
      have hreach := hlast (not_le.1 hlarge)
      obtain ⟨-, -, -, hquantity⟩ := mem_partsFrom hp
      rcases List.mem_append.1 hquantity with hfull | hone
      · rw [List.eq_of_mem_replicate hfull]
        have hle := (remainder_bounds hprice hunit hd).2
        exact hreach.trans (mul_le_mul_of_nonneg_right hle hprice.le)
      · rw [List.mem_singleton.1 hone]
        exact hreach

end Limit

end IntentDraft

/-! ## Unsplit transitions -/

theorem entryDraft_valid (symbol : String) {quantity : ℚ} (hpos : 0 < quantity)
    (long increase : Bool) : (entryDraft symbol quantity long increase).Valid := by
  cases long
  · cases increase <;> exact ⟨hpos, rfl, nofun⟩
  · cases increase <;> exact ⟨hpos, rfl, nofun⟩

theorem symbol_entryDraft (symbol : String) (quantity : ℚ) (long increase : Bool) :
    (entryDraft symbol quantity long increase).symbol = symbol := by
  cases long <;> rfl

/-- Outside forced flattening every transition is classified, and its draft is valid. -/
theorem transitionDraft_ok (symbol : String) (current target : ℚ) :
    ∃ draft reversal, transitionDraft symbol current target false = .ok (draft, reversal) ∧
      ∀ d, draft = some d → d.Valid ∧ d.symbol = symbol := by
  have hentry : ∀ (quantity : ℚ) (long increase : Bool), 0 < quantity →
      ∀ d, some (entryDraft symbol quantity long increase) = some d →
        d.Valid ∧ d.symbol = symbol := by
    intro quantity long increase hpos d hd
    obtain rfl := Option.some.inj hd
    exact ⟨entryDraft_valid symbol hpos long increase, symbol_entryDraft _ _ _ _⟩
  have hexit : ∀ (quantity stage : ℚ) (effect : PositionEffect), 0 < quantity →
      effect ∈ [PositionEffect.closeLong, .reduceLong, .closeShort, .reduceShort] →
      ∀ d, some (exitDraft symbol quantity effect stage) = some d →
        d.Valid ∧ d.symbol = symbol := by
    intro quantity stage effect hpos heffect d hd
    obtain rfl := Option.some.inj hd
    refine ⟨⟨hpos, ?_, nofun⟩, rfl⟩
    simp only [List.mem_cons, List.not_mem_nil, or_false] at heffect
    rcases heffect with rfl | rfl | rfl | rfl <;> rfl
  unfold transitionDraft
  by_cases heq : current = target
  · exact ⟨none, false, if_pos heq, nofun⟩
  rw [if_neg heq, if_neg Bool.false_ne_true]
  rcases lt_trichotomy current 0 with hcurrent | hcurrent | hcurrent
  · rcases le_or_gt target 0 with htarget | htarget
    · rcases lt_or_gt_of_ne heq with hlt | hgt
      · refine ⟨some (exitDraft symbol (target - current)
          (if target = 0 then .closeShort else .reduceShort) target), false, ?_, ?_⟩
        · simp [hcurrent.ne, hcurrent.not_gt, hcurrent, htarget, hlt.le]
        · apply hexit _ _ _ (by linarith)
          split <;> simp
      · refine ⟨some (entryDraft symbol |target - current| false true), false, ?_, ?_⟩
        · simp [hcurrent.ne, hcurrent.not_gt, hcurrent, htarget, hgt]
        · exact hentry _ _ _ (abs_pos.2 (by linarith))
    · refine ⟨some (exitDraft symbol |current| .closeShort 0), true, ?_, ?_⟩
      · simp [hcurrent.ne, hcurrent.not_gt, hcurrent, htarget, htarget.not_ge]
      · exact hexit _ _ _ (abs_pos.2 hcurrent.ne) (by simp)
  · rcases lt_or_gt_of_ne heq with hlt | hgt
    · have htarget : 0 < target := hcurrent ▸ hlt
      refine ⟨some (entryDraft symbol target true false), false, ?_, hentry _ _ _ htarget⟩
      simp [hcurrent, htarget]
    · have htarget : target < 0 := hcurrent ▸ hgt
      refine ⟨some (entryDraft symbol |target| false false), false, ?_,
        hentry _ _ _ (abs_pos.2 htarget.ne)⟩
      simp [hcurrent, htarget, htarget.not_gt]
  · rcases lt_or_ge target 0 with htarget | htarget
    · refine ⟨some (exitDraft symbol current .closeLong 0), true, ?_, ?_⟩
      · simp [hcurrent.ne', hcurrent, htarget, htarget.not_ge, hcurrent.not_gt]
      · exact hexit _ _ _ hcurrent (by simp)
    · rcases lt_or_gt_of_ne heq with hlt | hgt
      · refine ⟨some (entryDraft symbol (target - current) true true), false, ?_, ?_⟩
        · simp [hcurrent.ne', hcurrent, htarget, hlt]
        · exact hentry _ _ _ (by linarith)
      · refine ⟨some (exitDraft symbol (current - target)
          (if target = 0 then .closeLong else .reduceLong) target), false, ?_, ?_⟩
        · simp [hcurrent.ne', hcurrent, htarget, hgt.le]
        · apply hexit _ _ _ (by linarith)
          split <;> simp

/-! ## Client order IDs -/

theorem isDigit_of_isDigit {c : Char} (h : c.isDigit = true) : isDigit c = true := by
  simpa [isDigit, Char.isDigit, Char.le_def] using h

/-- A prefix of a text that matches a class exactly. -/
theorem matchesExactly_take {test : Char → Bool} {count n : Nat} {cs : List Char}
    (h : matchesExactly test count cs = true) (hn : n ≤ count) :
    matchesExactly test n (cs.take n) = true := by
  simp only [matchesExactly, Bool.and_eq_true, decide_eq_true_eq, List.all_eq_true] at h ⊢
  refine ⟨?_, fun c hc => h.2 c (List.mem_of_mem_take hc)⟩
  rw [List.length_take, h.1]
  exact min_eq_left hn

theorem length_of_matchesExactly {test : Char → Bool} {count : Nat} {cs : List Char}
    (h : matchesExactly test count cs = true) : cs.length = count := by
  simp only [matchesExactly, Bool.and_eq_true, decide_eq_true_eq] at h
  exact h.1

/-- Characters of a class without the dash. -/
theorem dash_not_mem {test : Char → Bool} (hdash : test '-' = false) {cs : List Char}
    (h : cs.all test = true) : '-' ∉ cs := by
  intro hmem
  have htest := List.all_eq_true.1 h _ hmem
  rw [hdash] at htest
  exact Bool.false_ne_true htest

theorem dash_not_mem_hex {count : Nat} {cs : List Char}
    (h : matchesExactly isHexDigit count cs = true) : '-' ∉ cs := by
  simp only [matchesExactly, Bool.and_eq_true] at h
  exact dash_not_mem (by decide) h.2

theorem matches_toDigits {n : Nat} (h : n ≤ 999999) :
    matchesHeadTail isDigit isDigit 5 (Nat.toDigits 10 n) = true := by
  have hlength : (Nat.toDigits 10 n).length ≤ 6 :=
    (Nat.length_toDigits_le_iff (by decide) (by decide)).2 (by omega)
  have hdigits : ∀ c ∈ Nat.toDigits 10 n, isDigit c = true := fun c hc =>
    isDigit_of_isDigit (Nat.isDigit_of_mem_toDigits (by decide) (by decide) hc)
  cases htext : Nat.toDigits 10 n with
  | nil => exact absurd htext Nat.toDigits_ne_nil
  | cons c cs =>
      rw [htext] at hlength hdigits
      simp only [matchesHeadTail, Bool.and_eq_true, decide_eq_true_eq, List.all_eq_true]
      refine ⟨hdigits c List.mem_cons_self, ?_, fun d hd => hdigits d (List.mem_cons_of_mem _ hd)⟩
      exact Nat.le_of_succ_le_succ hlength

section Hashed

variable [ContentHasher]

theorem matches_identifierDigest (value : String) :
    matchesExactly isHexDigit 64 (OrderIntent.identifierDigest value).toList = true := by
  have hdigest : ∀ v, matchesExactly isHexDigit 64 (sha256Hex v).toList = true :=
    isSha256_sha256Hex
  unfold OrderIntent.identifierDigest
  split
  · split
    · next hmatches => simpa using hmatches
    · exact hdigest _
  · exact hdigest _

/-- The derived ID of an intent with valid parts has the form of a client order ID. -/
theorem isClientOrderId_derived {i : OrderIntentBase} (hexperiment : isSha256 i.experimentHash = true)
    (hsymbol : isSymbol i.symbol = true) (hsequence : i.sequence < 16)
    (hversion : i.targetVersion ≤ 999999) (htarget : isSha256 i.targetHash = true) :
    isClientOrderId (OrderIntent.deriveClientOrderId i) = true := by
  have hexp : matchesExactly isHexDigit 5 (i.experimentHash.toList.take 5) = true :=
    matchesExactly_take hexperiment (by decide)
  have hdec : matchesExactly isHexDigit 5
      ((OrderIntent.identifierDigest i.riskDecisionId).toList.take 5) = true :=
    matchesExactly_take (matches_identifierDigest _) (by decide)
  have htar : matchesExactly isHexDigit 6 (i.targetHash.toList.take 6) = true :=
    matchesExactly_take htarget (by decide)
  have hseq : matchesExactly isHexDigit 2 (twoDigitHex i.sequence) = true := by
    have hall : ∀ n < 16, matchesExactly isHexDigit 2 (twoDigitHex n) = true := by decide
    exact hall _ hsequence
  have hver := matches_toDigits hversion
  have hphase : i.phase.clientIdCode = 'x' ∨ i.phase.clientIdCode = 'e' ∨
      i.phase.clientIdCode = 'f' := by
    cases i.phase <;> simp [IntentPhase.clientIdCode]
  have hsym : matchesHeadTail isUpper (fun c => isUpper c || isDigit c || c == '.') 9
      i.symbol.toList = true := hsymbol
  have hsymbolDash : '-' ∉ i.symbol.toList ∧ i.symbol.toList.length ≤ 10 := by
    cases htext : i.symbol.toList with
    | nil => simp
    | cons c cs =>
        rw [htext] at hsym
        simp only [matchesHeadTail, Bool.and_eq_true, decide_eq_true_eq] at hsym
        obtain ⟨hhead, hlength, htail⟩ := hsym
        refine ⟨?_, Nat.succ_le_succ hlength⟩
        rw [List.mem_cons]
        rintro (rfl | hmem)
        · exact absurd hhead (by decide)
        · exact dash_not_mem (by decide) htail hmem
  have hversionText : '-' ∉ Nat.toDigits 10 i.targetVersion ∧
      (Nat.toDigits 10 i.targetVersion).length ≤ 6 := by
    refine ⟨?_, (Nat.length_toDigits_le_iff (by decide) (by decide)).2 (by omega)⟩
    intro hmem
    have hdigit : '-'.isDigit = true :=
      Nat.isDigit_of_mem_toDigits (by decide) (by decide) hmem
    exact absurd hdigit (by decide)
  have hsplit : (OrderIntent.deriveClientOrderId i).toList.splitOn '-' = _ :=
    splitOn_joinDash (List.cons_ne_nil _ _) (by
      intro p hp
      simp only [List.mem_cons, List.not_mem_nil, or_false] at hp
      rcases hp with rfl | rfl | rfl | rfl | rfl | rfl | rfl | rfl
      · decide
      · exact dash_not_mem_hex hexp
      · exact dash_not_mem_hex hdec
      · exact hsymbolDash.1
      · rcases hphase with h | h | h <;> rw [h] <;> decide
      · exact dash_not_mem_hex hseq
      · exact hversionText.1
      · exact dash_not_mem_hex htar)
  have hlength : (OrderIntent.deriveClientOrderId i).toList.length ≤ 48 := by
    have h₁ := length_of_matchesExactly hexp
    have h₂ := length_of_matchesExactly hdec
    have h₃ := length_of_matchesExactly htar
    have h₄ := length_of_matchesExactly hseq
    simp only [OrderIntent.deriveClientOrderId, joinDash, String.toList_ofList, List.intercalate,
      List.intersperse, List.flatten_cons, List.flatten_nil, List.length_append, List.length_cons,
      List.length_nil]
    omega
  unfold isClientOrderId
  rw [hsplit]
  simp only [hlength, hexp, hdec, htar, hseq, hver, hsym, decide_true, Bool.true_and,
    Bool.and_true, beq_self_eq_true]
  rcases hphase with h | h | h <;> simp [h]

/-- What the validation of an intent asks of its arguments. -/
structure OrderIntentBase.Creatable (i : OrderIntentBase) : Prop where
  plan : isContentIdOf "execution" i.executionPlanId = true
  riskDecision : isIdentifier i.riskDecisionId = true
  experiment : isSha256 i.experimentHash = true
  correlation : isIdentifier i.correlationId = true
  symbol : isSymbol i.symbol = true
  sequence : i.sequence < 16
  version : 1 ≤ i.targetVersion ∧ i.targetVersion ≤ 999999
  quantity : 0 < i.quantity
  price : 0 < i.referencePrice
  deadline : i.createdAt < i.deadlineAt
  target : isSha256 i.targetHash = true
  effect : i.checkEffect = .ok ()

theorem OrderIntentBase.Creatable.create_ok {base : OrderIntentBase} (h : base.Creatable) :
    ∃ i, OrderIntent.create base = .ok i := by
  have hid := isClientOrderId_derived h.experiment h.symbol h.sequence h.version.2 h.target
  have hcheck : OrderIntentFields.check
      { base with clientOrderId := OrderIntent.deriveClientOrderId base } = .ok () := by
    have hnotional : 0 < base.quantity * base.referencePrice := mul_pos h.quantity h.price
    simp only [OrderIntentFields.check, rejectIf_bind_eq_ok, Bool.not_eq_false, not_le, not_not]
    exact ⟨h.plan, h.riskDecision, h.experiment, h.correlation, hid, h.symbol, h.sequence, h.version,
      h.quantity, hnotional, h.price, h.deadline, h.target, h.effect⟩
  have hcreate : OrderIntent.create base = validated OrderIntentFields.check
      { base with clientOrderId := OrderIntent.deriveClientOrderId base }
      fun h => ⟨{ base with clientOrderId := OrderIntent.deriveClientOrderId base }, h⟩ := by
    simp only [OrderIntent.create, rejectIf, h.experiment, h.target, h.riskDecision,
      Bool.true_eq_false, if_false, bind, Except.bind]
  exact ⟨_, hcreate.trans (validated_of_ok hcheck)⟩

end Hashed

/-! ## Requests whose transitions can be split -/

/-- What the validation of a risk decision guarantees a plan. -/
theorem RiskDecision.wellFormed (d : RiskDecision) :
    isPrefixedDigest "correlation" d.correlationId = true ∧ isSha256 d.experimentHash = true ∧
      (∀ s ∈ d.symbols, isSymbol s = true) ∧ d.symbols = sortedSet d.symbols ∧
      (d.executionScope = .riskReducingOnly → ∀ t ∈ d.finalTargets, t.2 = 0) := by
  have h := d.checked
  simp only [RiskDecisionFields.check, unit_bind_eq_ok, RiskDecisionFields.checkHashes, checkNamedDecimals,
    rejectIf_eq_ok, Bool.not_eq_false] at h
  obtain ⟨-, -, hcorrelation, ⟨-, hexperiment, -⟩, -, -, -, -, -, ⟨hvalid, hsorted⟩, -, -, -, -, -,
    -, -, -, -, -, -, hscope⟩ := h
  refine ⟨hcorrelation, hexperiment, ?_, not_not.1 hsorted, ?_⟩
  · intro s hs
    obtain ⟨t, ht, rfl⟩ := List.mem_map.1 hs
    by_contra hinvalid
    exact hvalid (List.any_eq_true.2 ⟨t, ht, by simpa using hinvalid⟩)
  · intro hreducing t ht
    simp only [RiskDecisionFields.checkScope, hreducing, rejectIf_eq_ok, not_or] at hscope
    have hflat := hscope.2.2
    simp only [Bool.not_eq_false, List.all_eq_true, decide_eq_true_eq] at hflat
    exact hflat t ht

namespace ExecutionPlanningRequest

variable (r : ExecutionPlanningRequest)

/-- The reference price of a symbol. -/
def referencePrice (symbol : String) : ℚ := pairValue r.referencePrices symbol

/-- The largest notional of one intent: 15 percent of the equity. -/
def maximumNotional : ℚ := r.equity * maximumSingleIntentEquityFraction

/-- The signed quantity a symbol is to reach. -/
def targetOf (symbol : String) : ℚ :=
  targetQuantity (pairValue r.riskDecision.finalTargets symbol) r.equity (r.referencePrice symbol)

/-- The unsplit transition of a symbol that needs one. -/
def transition (symbol : String) : Option IntentDraft :=
  match transitionDraft symbol (pairValue (positionPairs r.currentPositions) symbol)
      (r.targetOf symbol) false with
  | .ok (draft, _) => draft
  | .error _ => none

/-- The number of parts a symbol needs. -/
def partCount (symbol : String) : Nat :=
  (r.transition symbol).elim 0 fun d => d.partCount (r.referencePrice symbol) r.maximumNotional

/-- Without forced flattening every unsplit transition reaches the minimum, one unit of it fits the
limit, and all parts together are few enough. -/
structure Splittable : Prop where
  notForcedFlat : r.forcedFlat = false
  minimum : ∀ symbol ∈ r.riskDecision.symbols, ∀ d, r.transition symbol = some d →
    minimumOrderNotional ≤ d.quantity * r.referencePrice symbol
  unitFits : ∀ symbol ∈ r.riskDecision.symbols, ∀ d, r.transition symbol = some d →
    d.quantum * r.referencePrice symbol ≤ r.maximumNotional
  partsLimit : (r.riskDecision.symbols.map r.partCount).sum ≤ maximumIntentsPerPlan

/-- The decision grants authority, precedes the plan and has a symbol. -/
structure Authorized : Prop where
  scope : r.riskDecision.executionScope ≠ .none
  decided : r.riskDecision.decidedAt ≤ r.createdAt
  symbols : r.riskDecision.symbols ≠ []

/-- Above the limit the last part of each transition reaches the minimum notional. -/
def RemaindersReachMinimum : Prop :=
  ∀ symbol ∈ r.riskDecision.symbols, ∀ d, r.transition symbol = some d →
    r.maximumNotional < d.quantity * r.referencePrice symbol →
      minimumOrderNotional ≤
        d.remainder (r.referencePrice symbol) r.maximumNotional * r.referencePrice symbol

/-- The parts of a symbol's transition. -/
def partsOf (symbol : String) : List IntentDraft :=
  (r.transition symbol).elim [] fun d => d.parts (r.referencePrice symbol) r.maximumNotional

/-- What the validation of a request guarantees. -/
theorem wellFormed :
    r.currentPositions.map (·.symbol) = r.riskDecision.symbols ∧
      r.referencePrices.map Prod.fst = r.riskDecision.symbols ∧
      (∀ p ∈ r.referencePrices, 0 < p.2) ∧ 0 < r.equity ∧
      (1 ≤ r.targetVersion ∧ r.targetVersion ≤ 999999) ∧ r.createdAt < r.deadlineAt := by
  have h := r.checked
  simp only [ExecutionPlanningRequestFields.check, rejectIf_bind_eq_ok, rejectIf_eq_ok, not_not,
    not_le] at h
  obtain ⟨hpositions, hprices, hpositive, hequity, -, -, -, -, hversion, hdeadline, -⟩ := h
  refine ⟨hpositions, hprices, ?_, hequity, hversion, hdeadline⟩
  intro p hp
  by_contra hnot
  exact hpositive (List.any_eq_true.2 ⟨p, hp, decide_eq_true (not_lt.1 hnot)⟩)

theorem referencePrice_pos {symbol : String} (hsymbol : symbol ∈ r.riskDecision.symbols) :
    0 < r.referencePrice symbol := by
  obtain ⟨-, hprices, hpositive, -⟩ := r.wellFormed
  rw [← hprices] at hsymbol
  cases hlookup : Dict.lookup symbol r.referencePrices with
  | none => exact absurd hsymbol (Dict.lookup_eq_none_iff.1 hlookup)
  | some price =>
      have hprice := hpositive _ (Dict.mem_of_lookup hlookup)
      simpa [referencePrice, pairValue, hlookup] using hprice

variable {r}

theorem transition_valid {symbol : String} {d : IntentDraft} (hd : r.transition symbol = some d) :
    d.Valid ∧ d.symbol = symbol := by
  obtain ⟨draft, reversal, hdraft, hvalid⟩ := transitionDraft_ok symbol
    (pairValue (positionPairs r.currentPositions) symbol) (r.targetOf symbol)
  unfold transition at hd
  rw [hdraft] at hd
  exact hvalid d hd

theorem partCount_le (h : r.Splittable) {symbol : String}
    (hsymbol : symbol ∈ r.riskDecision.symbols) : r.partCount symbol ≤ maximumIntentsPerPlan :=
  (List.single_le_sum (fun _ _ => Nat.zero_le _) _ (List.mem_map_of_mem hsymbol)).trans h.partsLimit

theorem length_partsOf (symbol : String) : (r.partsOf symbol).length = r.partCount symbol := by
  unfold partsOf partCount
  cases r.transition symbol with
  | none => rfl
  | some d => exact d.length_parts _ _

/-- Each part of a symbol is valid and trades the symbol. -/
theorem valid_of_mem_partsOf (h : r.Splittable) {symbol : String}
    (hsymbol : symbol ∈ r.riskDecision.symbols) {p : IntentDraft} (hp : p ∈ r.partsOf symbol) :
    p.Valid ∧ p.symbol = symbol := by
  unfold partsOf at hp
  cases hd : r.transition symbol with
  | none => simp [hd] at hp
  | some d =>
      rw [hd] at hp
      obtain ⟨hvalid, hdsymbol⟩ := transition_valid hd
      obtain ⟨hpvalid, hpsymbol⟩ := IntentDraft.valid_of_mem_parts (r.referencePrice_pos hsymbol)
        (h.unitFits symbol hsymbol d hd) hvalid hp
      exact ⟨hpvalid, hpsymbol.trans hdsymbol⟩

/-- Every part reaches the minimum exactly when the last parts do. -/
theorem parts_reach_iff (h : r.Splittable) :
    (∀ symbol ∈ r.riskDecision.symbols, ∀ p ∈ r.partsOf symbol,
      minimumOrderNotional ≤ p.quantity * r.referencePrice symbol) ↔ r.RemaindersReachMinimum := by
  have hone : ∀ symbol ∈ r.riskDecision.symbols, ∀ d, r.transition symbol = some d →
      ((∀ p ∈ r.partsOf symbol, minimumOrderNotional ≤ p.quantity * r.referencePrice symbol) ↔
        (r.maximumNotional < d.quantity * r.referencePrice symbol → minimumOrderNotional ≤
          d.remainder (r.referencePrice symbol) r.maximumNotional * r.referencePrice symbol)) := by
    intro symbol hsymbol d hd
    have hparts : r.partsOf symbol = d.parts (r.referencePrice symbol) r.maximumNotional := by
      simp [partsOf, hd]
    rw [hparts]
    exact IntentDraft.parts_reach_iff (r.referencePrice_pos hsymbol)
      (h.unitFits symbol hsymbol d hd) (transition_valid hd).1 (h.minimum symbol hsymbol d hd)
  constructor
  · intro hall symbol hsymbol d hd
    exact (hone symbol hsymbol d hd).1 (hall symbol hsymbol)
  · intro hlast symbol hsymbol p hp
    cases hd : r.transition symbol with
    | none => simp [partsOf, hd] at hp
    | some d => exact (hone symbol hsymbol d hd).2 (hlast symbol hsymbol d hd) p hp

/-- The drafts of a target are the parts of its symbol. -/
theorem targetDrafts_ok (h : r.Splittable) {t : Position} (ht : t.symbol ∈ r.riskDecision.symbols)
    (hquantity : t.quantity = r.targetOf t.symbol) :
    ∃ reversal, targetDrafts r t = .ok (r.partsOf t.symbol, reversal) := by
  obtain ⟨draft, reversal, hdraft, hvalid⟩ := transitionDraft_ok t.symbol
    (pairValue (positionPairs r.currentPositions) t.symbol) (r.targetOf t.symbol)
  have htransition : r.transition t.symbol = draft := by simp [transition, hdraft]
  refine ⟨reversal, ?_⟩
  unfold targetDrafts
  rw [hquantity, h.notForcedFlat, hdraft]
  cases draft with
  | none => simp [partsOf, htransition, bind, Except.bind, pure, Except.pure]
  | some d =>
      have hcount := partCount_le h ht
      simp only [partCount, htransition, Option.elim] at hcount
      have hsplit := IntentDraft.splitDraft_eq (r.referencePrice_pos ht)
        (h.unitFits _ ht d htransition) (hvalid d rfl).1 hcount
      unfold referencePrice maximumNotional at hsplit
      simp only [bind, Except.bind, hsplit, pure, Except.pure, partsOf, htransition, Option.elim]
      rfl

/-- The target of a symbol. -/
theorem planTarget_ok (h : r.Splittable) {symbol : String}
    (hsymbol : symbol ∈ r.riskDecision.symbols) :
    ∃ t, planTarget r symbol = .ok t ∧ t.symbol = symbol ∧ t.quantity = r.targetOf symbol := by
  obtain ⟨-, -, -, hequity, -⟩ := r.wellFormed
  have hvalid : isSymbol symbol = true := r.riskDecision.wellFormed.2.2.1 symbol hsymbol
  have hprice := r.referencePrice_pos hsymbol
  have hnot : ¬ (r.equity ≤ 0 ∨ pairValue r.referencePrices symbol ≤ 0) := by
    rw [not_or]
    exact ⟨not_le.2 hequity, not_le.2 hprice⟩
  refine ⟨⟨symbol, r.targetOf symbol, hvalid⟩, ?_, rfl, rfl⟩
  simp only [planTarget, h.notForcedFlat, Bool.false_eq_true, if_false, signedTargetQuantity,
    rejectIf, if_neg hnot, bind, Except.bind, pure, Except.pure, Position.create, dif_pos hvalid]
  rfl

theorem isIdentifier_correlationId (d : RiskDecision) : isIdentifier d.correlationId = true :=
  isIdentifier_of_isPrefixedDigest (by decide) d.wellFormed.1

section Hashed

variable [ContentHasher]

theorem isIdentifier_riskDecisionId (d : RiskDecision) : isIdentifier d.riskDecisionId = true :=
  isIdentifier_deterministicId (by decide) (isSha256_sha256Hex _)

/-- The plan for targets of the decision's symbols. -/
theorem plan_ok (hsymbols : r.riskDecision.symbols ≠ []) {targets : List Position}
    (htargets : targets.map (·.symbol) = r.riskDecision.symbols) :
    ∃ plan, ExecutionPlan.create (planFields r targets) = .ok plan := by
  obtain ⟨hpositions, hprices, hpositive, hequity, hversion, hdeadline⟩ := r.wellFormed
  obtain ⟨-, hexperiment, hvalid, hsorted, -⟩ := r.riskDecision.wellFormed
  have hne : targets ≠ [] := by
    rintro rfl
    exact hsymbols htargets.symm
  have hcurrent : r.currentPositions ≠ [] := by
    intro hnil
    rw [hnil] at hpositions
    exact hsymbols hpositions.symm
  have hpairs : checkPricePairs "reference price" r.referencePrices = .ok () := by
    have hall : ∀ p ∈ r.referencePrices, isSymbol p.1 = true ∧ 0 < p.2 := fun p hp =>
      ⟨hvalid p.1 (hprices ▸ List.mem_map_of_mem hp), hpositive p hp⟩
    clear hprices hpositive
    generalize r.referencePrices = pairs at hall
    induction pairs with
    | nil => rfl
    | cons pair rest ih =>
        obtain ⟨hsymbol, hprice⟩ := hall pair List.mem_cons_self
        simp only [checkPricePairs, rejectIf_bind_eq_ok, hsymbol, not_le.2 hprice,
          Bool.true_eq_false, not_false_eq_true, true_and]
        exact ih fun p hp => hall p (List.mem_cons_of_mem _ hp)
  have hcheck : (planFields r targets).check = .ok () := by
    have htargetsSorted : targets.map (·.symbol) = sortedSet (targets.map (·.symbol)) := by
      rwa [htargets]
    have hcurrentSorted :
        r.currentPositions.map (·.symbol) = sortedSet (r.currentPositions.map (·.symbol)) := by
      rwa [hpositions]
    have hpricesSorted :
        r.referencePrices.map Prod.fst = sortedSet (r.referencePrices.map Prod.fst) := by
      rwa [hprices]
    simp only [ExecutionPlanFields.check, checkPositions, unit_bind_eq_ok, rejectIf_eq_ok, not_not,
      not_le, Bool.not_eq_false]
    exact ⟨isIdentifier_riskDecisionId _, isSha256_sha256Hex _, hexperiment,
      isIdentifier_correlationId _, hversion, ⟨htargetsSorted, fun hempty => hne hempty.2⟩,
      ⟨hcurrentSorted, fun hempty => hcurrent hempty.2⟩, hpairs, hpricesSorted, hpositions.trans htargets.symm,
      hprices.trans htargets.symm, hequity, hdeadline⟩
  exact ⟨_, validated_of_ok hcheck⟩

/-- A valid draft at one of the sixteen places becomes an intent. -/
theorem draftIntent_ok (h : r.Splittable) {plan : ExecutionPlan} {targets : List Position}
    (hplan : plan.toExecutionPlanFields = planFields r targets) {d : IntentDraft} {n : Nat}
    (hn : n < 16) (hvalid : d.Valid) (hsymbol : d.symbol ∈ r.riskDecision.symbols) :
    ∃ i, draftIntent r plan (targetsHash targets) (d, n) = .ok i := by
  obtain ⟨-, -, -, -, hversion, hdeadline⟩ := r.wellFormed
  obtain ⟨-, hexperiment, hsymbols, -⟩ := r.riskDecision.wellFormed
  have hid : plan.riskDecisionId = r.riskDecision.riskDecisionId :=
    congrArg ExecutionPlanFields.riskDecisionId hplan
  have hexp : plan.experimentHash = r.riskDecision.experimentHash :=
    congrArg ExecutionPlanFields.experimentHash hplan
  have hcorr : plan.correlationId = r.riskDecision.correlationId :=
    congrArg ExecutionPlanFields.correlationId hplan
  have hver : plan.targetVersion = r.targetVersion :=
    congrArg ExecutionPlanFields.targetVersion hplan
  apply OrderIntentBase.Creatable.create_ok
  refine ⟨isContentIdOf_deterministicId (by decide) (isSha256_sha256Hex _), ?_, ?_, ?_,
    hsymbols _ hsymbol, hn, ?_, hvalid.quantity_pos, r.referencePrice_pos hsymbol, hdeadline,
    isSha256_sha256Hex _, ?_⟩
  · rw [hid]
    exact isIdentifier_riskDecisionId _
  · rw [hexp]
    exact hexperiment
  · rw [hcorr]
    exact isIdentifier_correlationId _
  · rw [hver]
    exact hversion
  · have hphase := hvalid.notFlatten
    simp only [OrderIntentBase.checkEffect, rejectIf_bind_eq_ok, rejectIf_eq_ok, not_not, not_and]
    exact ⟨hvalid.sidePhase, fun hflat => absurd hflat hphase,
      fun hforced => absurd (h.notForcedFlat.symm.trans hforced) Bool.false_ne_true⟩

/-- The drafts of all symbols. -/
def drafts (r : ExecutionPlanningRequest) : List IntentDraft :=
  r.riskDecision.symbols.flatMap r.partsOf

/-- The stages of planning up to the drafts succeed. -/
theorem stages (h : r.Splittable) (hne : r.riskDecision.symbols ≠ []) :
    ∃ targets plan transitions,
      collect (planTarget r) r.riskDecision.symbols = .ok targets ∧
      ExecutionPlan.create (planFields r targets) = .ok plan ∧
      collect (targetDrafts r) targets = .ok transitions ∧
      transitions.flatMap Prod.fst = r.drafts := by
  obtain ⟨targets, htargets⟩ := exists_collect fun symbol hsymbol =>
    (planTarget_ok h hsymbol).imp fun _ ht => ht.1
  have htarget : ∀ symbol ∈ r.riskDecision.symbols, ∀ t, planTarget r symbol = .ok t →
      t.symbol = symbol ∧ t.quantity = r.targetOf symbol := by
    intro symbol hsymbol t ht
    obtain ⟨t', ht', hfields⟩ := planTarget_ok h hsymbol
    obtain rfl : t = t' := Except.ok.inj (ht.symm.trans ht')
    exact hfields
  have hsymbols : targets.map (·.symbol) = r.riskDecision.symbols := by
    rw [map_of_collect htargets fun symbol hsymbol t ht => (htarget symbol hsymbol t ht).1]
    exact List.map_id' _
  have hmem : ∀ t ∈ targets, t.symbol ∈ r.riskDecision.symbols ∧
      t.quantity = r.targetOf t.symbol := by
    intro t ht
    obtain ⟨symbol, hsymbol, hok⟩ := mem_of_collect htargets ht
    obtain ⟨hts, htq⟩ := htarget symbol hsymbol t hok
    rw [hts]
    exact ⟨hsymbol, htq⟩
  have hdrafts : ∀ t ∈ targets, ∃ reversal,
      targetDrafts r t = .ok (r.partsOf t.symbol, reversal) := fun t ht =>
    targetDrafts_ok h (hmem t ht).1 (hmem t ht).2
  obtain ⟨plan, hplan⟩ := plan_ok hne hsymbols
  obtain ⟨transitions, htransitions⟩ := exists_collect fun t ht =>
    (hdrafts t ht).imp' _ fun _ hok => hok
  refine ⟨targets, plan, transitions, htargets, hplan, htransitions, ?_⟩
  have hmap : transitions.map Prod.fst = targets.map fun t => r.partsOf t.symbol := by
    apply map_of_collect htransitions
    intro t ht d hd
    obtain ⟨reversal, hok⟩ := hdrafts t ht
    rw [← Except.ok.inj (hok.symm.trans hd)]
  rw [List.flatMap_def, hmap, drafts, ← hsymbols, List.flatMap_def, List.map_map]
  rfl

omit [ContentHasher] in
theorem length_drafts (h : r.Splittable) : r.drafts.length ≤ maximumIntentsPerPlan := by
  rw [drafts, List.length_flatMap]
  simpa only [length_partsOf] using h.partsLimit

omit [ContentHasher] in
theorem mem_drafts (h : r.Splittable) {d : IntentDraft} (hd : d ∈ r.drafts) :
    d.Valid ∧ d.symbol ∈ r.riskDecision.symbols ∧ d ∈ r.partsOf d.symbol := by
  obtain ⟨symbol, hsymbol, hpart⟩ := List.mem_flatMap.1 hd
  obtain ⟨hvalid, hds⟩ := valid_of_mem_partsOf h hsymbol hpart
  rw [hds]
  exact ⟨hvalid, hsymbol, hpart⟩

omit [ContentHasher] in
/-- Every draft reaches the minimum exactly when the last parts do. -/
theorem drafts_reach_iff (h : r.Splittable) :
    (∀ d ∈ r.drafts, minimumOrderNotional ≤ d.quantity * r.referencePrice d.symbol) ↔
      r.RemaindersReachMinimum := by
  rw [← parts_reach_iff h]
  constructor
  · intro hall symbol hsymbol p hp
    have hps := (valid_of_mem_partsOf h hsymbol hp).2
    have hreach := hall p (List.mem_flatMap.2 ⟨symbol, hsymbol, hp⟩)
    rwa [hps] at hreach
  · intro hall d hd
    obtain ⟨-, hsymbol, hpart⟩ := mem_drafts h hd
    exact hall d.symbol hsymbol d hpart

/-- The drafts become intents, which all reach the minimum exactly when the last parts do. -/
theorem intents_ok (h : r.Splittable) {plan : ExecutionPlan} {targets : List Position}
    (hplan : plan.toExecutionPlanFields = planFields r targets) :
    ∃ intents, collect (draftIntent r plan (targetsHash targets))
        (sortedBy IntentDraft.sortKey r.drafts).zipIdx = .ok intents ∧
      ((intents.any fun i => i.notional < minimumOrderNotional) = false ↔
        r.RemaindersReachMinimum) := by
  have hperm := sortedBy_perm IntentDraft.sortKey r.drafts
  obtain ⟨intents, hintents⟩ : ∃ intents, collect (draftIntent r plan (targetsHash targets))
      (sortedBy IntentDraft.sortKey r.drafts).zipIdx = .ok intents := by
    apply exists_collect
    rintro ⟨d, n⟩ hdn
    obtain ⟨hn, hd⟩ := List.mem_zipIdx' hdn
    obtain ⟨hvalid, hsymbol, -⟩ := mem_drafts h (hperm.mem_iff.1 (hd ▸ List.getElem_mem hn))
    rw [hperm.length_eq] at hn
    exact draftIntent_ok h hplan (Nat.lt_of_lt_of_le hn (length_drafts h)) hvalid hsymbol
  refine ⟨intents, hintents, ?_⟩
  have hnotionals : intents.map (·.notional) =
      (sortedBy IntentDraft.sortKey r.drafts).map
        fun d => d.quantity * r.referencePrice d.symbol := by
    have hzip : intents.map (·.notional) =
        (sortedBy IntentDraft.sortKey r.drafts).zipIdx.map
          fun d => d.1.quantity * r.referencePrice d.1.symbol := by
      apply map_of_collect hintents
      intro d _ i hi
      have hbase := (OrderIntent.create_eq_ok hi).1
      rw [OrderIntentBase.notional, hbase]
      rfl
    have hfst := congrArg
      (List.map fun d : IntentDraft => d.quantity * r.referencePrice d.symbol)
      (List.zipIdx_map_fst 0 (sortedBy IntentDraft.sortKey r.drafts))
    rw [List.map_map] at hfst
    exact hzip.trans hfst
  rw [← drafts_reach_iff h]
  have hany : (intents.any fun i => i.notional < minimumOrderNotional) =
      (intents.map (·.notional)).any fun n => n < minimumOrderNotional := by
    rw [List.any_map]
    rfl
  rw [hany, hnotionals, List.any_map, List.any_eq_false]
  constructor
  · intro hall d hd
    simpa using hall d (hperm.mem_iff.2 hd)
  · intro hall d hd
    simpa using hall d (hperm.mem_iff.1 hd)

/-- Planning with authority fails on small last parts only. -/
theorem planSignedOrders_spec (h : r.Splittable) (hauth : r.Authorized) :
    (r.RemaindersReachMinimum ∧ ∃ result, planSignedOrders r = .ok result) ∨
      (¬ r.RemaindersReachMinimum ∧ planSignedOrders r =
        .error (.executionValidation "non-flattening intent is below minimum notional")) := by
  obtain ⟨-, -, -, hsorted, hreducing⟩ := r.riskDecision.wellFormed
  obtain ⟨targets, plan, transitions, htargets, hplan, htransitions, hdrafts⟩ :=
    stages h hauth.symbols
  have hfields := ExecutionPlan.create_eq_ok.1 hplan
  obtain ⟨intents, hintents, hminimum⟩ := intents_ok h hfields
  have hdecided : ¬ r.createdAt < r.riskDecision.decidedAt := not_lt.2 hauth.decided
  have hzero : ¬ (r.riskDecision.executionScope = .riskReducingOnly ∧
      (r.riskDecision.finalTargets.any fun t => t.2 ≠ 0) = true) := by
    rintro ⟨hscope, hany⟩
    obtain ⟨t, ht, hnonzero⟩ := List.any_eq_true.1 hany
    exact of_decide_eq_true hnonzero (hreducing hscope t ht)
  have hlength : ¬ maximumIntentsPerPlan < (sortedBy IntentDraft.sortKey r.drafts).length := by
    rw [(sortedBy_perm IntentDraft.sortKey r.drafts).length_eq]
    exact not_lt.2 (length_drafts h)
  rw [hsorted] at htargets
  have hrun : planSignedOrders r = (do
      rejectIf (r.forcedFlat = false ∧ intents.any fun i => i.notional < minimumOrderNotional)
        (.executionValidation "non-flattening intent is below minimum notional")
      let reversals := ((targets.zip transitions).filter fun t => t.2.2).map fun t => t.1.symbol
      let fields : ExecutionPlanningResultFields :=
        ⟨r.riskDecision, plan, intents, sortedBy id reversals⟩
      validated ExecutionPlanningResultFields.check fields fun h => ⟨fields, h⟩) := by
    simp only [planSignedOrders, rejectIf, if_neg hauth.scope, if_neg hdecided, if_neg hzero,
      htargets, hplan, htransitions, hdrafts, if_neg hlength, hintents, bind, Except.bind]
  rw [hrun]
  by_cases hreach : r.RemaindersReachMinimum
  · left
    refine ⟨hreach, ?_⟩
    have hnone := hminimum.2 hreach
    have hplans : ∀ i ∈ intents, i.executionPlanId = plan.executionPlanId := by
      intro i hi
      obtain ⟨d, -, hd⟩ := mem_of_collect hintents hi
      exact congrArg OrderIntentBase.executionPlanId (OrderIntent.create_eq_ok hd).1
    simp only [rejectIf, hnone, Bool.false_eq_true, and_false, if_false, bind, Except.bind]
    refine ⟨_, validated_of_ok ?_⟩
    simp only [ExecutionPlanningResultFields.check, rejectIf_bind_eq_ok, rejectIf_eq_ok, hfields,
      planFields, ne_eq, not_true_eq_false, or_self, not_false_eq_true, true_and]
    rw [List.any_eq_true]
    rintro ⟨i, hi, hother⟩
    exact of_decide_eq_true hother (hplans i hi)
  · right
    refine ⟨hreach, ?_⟩
    have hsome : (intents.any fun i => i.notional < minimumOrderNotional) = true :=
      Bool.of_not_eq_false fun hnone => hreach (hminimum.1 hnone)
    simp only [rejectIf, hsome, h.notForcedFlat, and_self, if_true, bind, Except.bind]

/-- Planning needs authority. -/
theorem authorized_of_planned {result : ExecutionPlanningResult}
    (hok : planSignedOrders r = .ok result) : r.Authorized := by
  obtain ⟨hplanned⟩ := planSignedOrders_planned hok
  have hchecked := result.plan.checked
  simp only [planSignedOrders, rejectIf_bind_eq_ok, not_lt] at hok
  refine ⟨hok.1, hok.2.1, ?_⟩
  intro hempty
  have hnil : hplanned.targets = [] := by
    have hforall := hplanned.targets_eq
    rw [hempty] at hforall
    exact List.forall₂_nil_left_iff.1 hforall
  rw [hplanned.plan_eq, hnil] at hchecked
  simp [ExecutionPlanFields.check, checkPositions, planFields] at hchecked

end Hashed

end ExecutionPlanningRequest

/-! ## A position above the limit by less than the minimum -/

section Sample

local instance splittingHasher : ContentHasher := polynomialHasher

def flatExposure : ExposureSnapshot :=
  ⟨{ gross := 0, net := 0, positive := 0, shortAbs := 0, groupGross := [], clusterGross := [] },
    by decide +kernel⟩

/-- A decision that closes a long position in an account of one thousand. -/
def closingDecisionFields (quantity : ℚ) : RiskDecisionFields :=
  { sampleDecisionFields with
    accountSnapshot :=
      ⟨{ accountIdHash := repeatedDigest 'a', equity := 1000, cash := 1000, buyingPower := 1000,
         observedAt := 0 }, by decide +kernel⟩
    planningPositions := [⟨"SPY", quantity, isSymbol_spy⟩]
    proposedTargets := [("SPY", 0)]
    finalTargets := [("SPY", 0)]
    beforeExposure := flatExposure
    afterExposure := flatExposure }

/-- The request that plans a closing decision at a price of one hundred. -/
def closingRequestFields (decision : RiskDecision) : ExecutionPlanningRequestFields where
  riskDecision := decision
  currentPositions := decision.planningPositions.map fun p => ⟨p.symbol, p.quantity, p.symbolValid⟩
  referencePrices := [("SPY", 100)]
  equity := 1000
  targetVersion := 1
  createdAt := 0
  deadlineAt := 1000
  forcedFlat := false

/-- One and six tenths shares: 160, ten above the limit of 150. -/
def sampleOversized : ExecutionPlanningRequest :=
  ⟨closingRequestFields ⟨closingDecisionFields (16 / 10), by decide +kernel⟩, by decide +kernel⟩

/-- Two shares: 200, fifty above the limit. -/
def sampleHalved : ExecutionPlanningRequest :=
  ⟨closingRequestFields ⟨closingDecisionFields 2, by decide +kernel⟩, by decide +kernel⟩

/-- The draft that closes the position. -/
def closingDraft (quantity : ℚ) : IntentDraft :=
  exitDraft "SPY" quantity .closeLong 0

/-- The decision of the request covers SPY alone and may be executed, the draft of SPY is splittable,
and its last part is worth `last`. -/
def SplittableDraft (r : ExecutionPlanningRequest) (d : IntentDraft) (last : ℚ) : Prop :=
  (r.riskDecision.executionScope ≠ .none ∧ r.riskDecision.decidedAt ≤ r.createdAt ∧
    r.riskDecision.symbols = ["SPY"]) ∧
    r.transition "SPY" = some d ∧
    (minimumOrderNotional ≤ d.quantity * r.referencePrice "SPY" ∧
      d.quantum * r.referencePrice "SPY" ≤ r.maximumNotional ∧
      d.partCount (r.referencePrice "SPY") r.maximumNotional ≤ maximumIntentsPerPlan) ∧
    r.maximumNotional < d.quantity * r.referencePrice "SPY" ∧
    d.remainder (r.referencePrice "SPY") r.maximumNotional * r.referencePrice "SPY" = last

instance (r : ExecutionPlanningRequest) (d : IntentDraft) (last : ℚ) :
    Decidable (SplittableDraft r d last) :=
  inferInstanceAs (Decidable (_ ∧ _))

/-- Of 160 dollars 10 are left for the last part, of 200 dollars 50. -/
theorem sample_drafts : SplittableDraft sampleOversized (closingDraft (16 / 10)) 10 ∧
    SplittableDraft sampleHalved (closingDraft 2) 50 := by
  decide +kernel

/-- With one symbol the conditions on a request are conditions on its draft. -/
theorem SplittableDraft.splittable {r : ExecutionPlanningRequest} {d : IntentDraft} {last : ℚ}
    (h : SplittableDraft r d last) (hflat : r.forcedFlat = false) : r.Splittable := by
  obtain ⟨⟨-, -, hsymbols⟩, hd, ⟨hleast, hunit, hcount⟩, -, -⟩ := h
  have hone : ∀ symbol ∈ r.riskDecision.symbols, ∀ d', r.transition symbol = some d' →
      symbol = "SPY" ∧ d' = d := by
    intro symbol hsymbol d' hd'
    rw [hsymbols, List.mem_singleton] at hsymbol
    rw [hsymbol, hd] at hd'
    exact ⟨hsymbol, (Option.some.inj hd').symm⟩
  refine ⟨hflat, ?_, ?_, ?_⟩
  · intro symbol hsymbol d' hd'
    obtain ⟨rfl, rfl⟩ := hone symbol hsymbol d' hd'
    exact hleast
  · intro symbol hsymbol d' hd'
    obtain ⟨rfl, rfl⟩ := hone symbol hsymbol d' hd'
    exact hunit
  · rw [hsymbols]
    simpa [ExecutionPlanningRequest.partCount, hd] using hcount

theorem SplittableDraft.authorized {r : ExecutionPlanningRequest} {d : IntentDraft} {last : ℚ}
    (h : SplittableDraft r d last) : r.Authorized where
  scope := h.1.1
  decided := h.1.2.1
  symbols := h.1.2.2 ▸ List.cons_ne_nil _ _

end Sample

end AdaptiveTrader
