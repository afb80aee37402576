import AdaptiveTrader.Foundation.Sorted
import AdaptiveTrader.Platform.Domain
import Mathlib.Data.Int.Log

/-!
# Market bars and raw observations

A bar is one OHLCV interval of a versioned series; a raw observation is one received delivery of a
bar. Constructors normalize their text fields and reject inconsistent values, so the models here
carry the checks of the normalized fields. Three digests name them: the identity of the interval, the
economic content of the bar, and the delivery.

A digest sees a price through `_decimal_text`, which normalizes it in the default decimal context and
so rounds it to 28 significant digits (`normalizedText`).
-/

set_option autoImplicit false

namespace AdaptiveTrader

open Foundation

/-! ## Decimal texts -/

/-- The nearest integer; a half goes to the even neighbour. -/
def roundHalfEven (q : ℚ) : ℤ :=
  if q - ⌊q⌋ < 1 / 2 then ⌊q⌋
  else if 1 / 2 < q - ⌊q⌋ then ⌊q⌋ + 1
  else if Even ⌊q⌋ then ⌊q⌋ else ⌊q⌋ + 1

/-- The precision of the default decimal context. -/
def decimalPrecision : ℤ := 28

/-- The exponent of the last significant digit a normalized decimal keeps. -/
def lastDigitExponent (q : ℚ) : ℤ := Int.log 10 |q| - (decimalPrecision - 1)

/-- The number that `_decimal_text` prints: `value.normalize()` in the default context. -/
def normalizedText (q : ℚ) : ℚ :=
  if q = 0 then 0
  else (roundHalfEven (q / (10 : ℚ) ^ lastDigitExponent q) : ℚ) * (10 : ℚ) ^ lastDigitExponent q

theorem roundHalfEven_intCast (n : ℤ) : roundHalfEven n = n := by
  simp [roundHalfEven]

/-- A number with at most 28 significant digits is printed as it is. -/
theorem normalizedText_eq_self {q : ℚ} {digits : ℤ}
    (h : q = digits * (10 : ℚ) ^ lastDigitExponent q) : normalizedText q = q := by
  unfold normalizedText
  split
  · next hzero => exact hzero.symm
  · have hpow : (10 : ℚ) ^ lastDigitExponent q ≠ 0 := zpow_ne_zero _ (by norm_num)
    have hdiv : q / (10 : ℚ) ^ lastDigitExponent q = digits := by
      rw [div_eq_iff hpow]
      exact h
    rw [hdiv, roundHalfEven_intCast]
    exact h.symm

/-- At most 28 significant digits. -/
def FitsDecimalContext (q : ℚ) : Prop := normalizedText q = q

/-! ## Bars -/

def supportedFeeds : List String := ["IEX", "SIP", "REPLAY", "SYNTHETIC"]

def supportedAdjustments : List String := ["raw", "split", "all"]

def supportedTimeframes : List String := ["1m", "15m", "1d"]

structure MarketBarV1Fields where
  provider : String
  feed : String
  adjustment : String
  symbol : String
  timeframe : String
  barTimestampUtc : Instant
  receiptTimestampUtc : Instant
  openPrice : ℚ
  high : ℚ
  low : ℚ
  close : ℚ
  volume : Nat
  tradeCount : Option Nat
  vwap : Option ℚ
  providerEventTimestampUtc : Option Instant
  qualityFlags : List String
  source : String
  deriving DecidableEq

namespace MarketBarV1Fields

/-- The characters of a symbol: `A` to `Z`, `0` to `9`, the dot and the hyphen. -/
def symbolCharacter (c : Char) : Bool := isUpper c || isDigit c || c == '.' || c == '-'

/-- `_nonempty_text` on normalized text. -/
def nonemptyText (value fieldName : String) : Except PlatformError Unit :=
  rejectIf (value = "") (.valueError (fieldName ++ " must be a nonempty string"))

/-- `_decimal(..., positive=True)` on a finite value. -/
def positiveDecimal (value : ℚ) (fieldName : String) : Except PlatformError Unit :=
  rejectIf (value ≤ 0) (.valueError (fieldName ++ " must be positive"))

/-- `MarketBarV1.__post_init__` on normalized fields. A set of quality flags is the strictly
increasing list of its members. -/
def check (b : MarketBarV1Fields) : Except PlatformError Unit := do
  nonemptyText b.provider "MarketBarV1.provider"
  nonemptyText b.feed "MarketBarV1.feed"
  rejectIf (b.feed ∉ supportedFeeds) (.valueError "Unsupported MarketBarV1.feed")
  nonemptyText b.adjustment "MarketBarV1.adjustment"
  rejectIf (b.adjustment ∉ supportedAdjustments) (.valueError "Unsupported MarketBarV1.adjustment")
  nonemptyText b.symbol "MarketBarV1.symbol"
  rejectIf (b.symbol.toList.all symbolCharacter = false) (.valueError "Unsupported symbol format")
  nonemptyText b.timeframe "MarketBarV1.timeframe"
  rejectIf (b.timeframe ∉ supportedTimeframes) (.valueError "Unsupported MarketBarV1.timeframe")
  rejectIf (b.receiptTimestampUtc < b.barTimestampUtc)
    (.valueError "MarketBarV1.receipt_timestamp_utc cannot precede the bar timestamp")
  positiveDecimal b.openPrice "MarketBarV1.open"
  positiveDecimal b.high "MarketBarV1.high"
  positiveDecimal b.low "MarketBarV1.low"
  positiveDecimal b.close "MarketBarV1.close"
  rejectIf (b.high < max (max b.openPrice b.close) b.low ∨
      min (min b.openPrice b.close) b.high < b.low)
    (.valueError "MarketBarV1 OHLC values are internally inconsistent")
  match b.vwap with
  | none => pure ()
  | some vwap => positiveDecimal vwap "MarketBarV1.vwap"
  rejectIf (b.qualityFlags ≠ sortedSet b.qualityFlags)
    (.valueError "MarketBarV1.quality_flags must be a collection of strings")
  rejectIf ("" ∈ b.qualityFlags)
    (.valueError "MarketBarV1.quality_flags item must be a nonempty string")
  nonemptyText b.source "MarketBarV1.source"

/-- The fields that identify one logical bar. -/
def identityKey (b : MarketBarV1Fields) :
    String × String × String × String × String × Instant :=
  (b.provider, b.feed, b.adjustment, b.symbol, b.timeframe, b.barTimestampUtc)

/-- The value behind `identity_hash`. -/
def identityPayload (b : MarketBarV1Fields) : Canonical :=
  .mapping [
    ("adjustment", .text b.adjustment),
    ("bar_timestamp_utc", .instant b.barTimestampUtc),
    ("feed", .text b.feed),
    ("provider", .text b.provider),
    ("schema_version", .text "market-bar.v1"),
    ("symbol", .text b.symbol),
    ("timeframe", .text b.timeframe)]

theorem identityPayload_inj {a b : MarketBarV1Fields} (h : a.identityPayload = b.identityPayload) :
    a.identityKey = b.identityKey := by
  simp only [identityPayload, Canonical.mapping.injEq, List.cons.injEq, Prod.mk.injEq, true_and,
    Canonical.text.injEq, Canonical.instant.injEq, and_true] at h
  obtain ⟨hadjustment, htimestamp, hfeed, hprovider, hsymbol, htimeframe⟩ := h
  simp only [identityKey, Prod.mk.injEq]
  exact ⟨hprovider, hfeed, hadjustment, hsymbol, htimeframe, htimestamp⟩

theorem identityPayload_congr {a b : MarketBarV1Fields} (h : a.identityKey = b.identityKey) :
    a.identityPayload = b.identityPayload := by
  simp only [identityKey, Prod.mk.injEq] at h
  obtain ⟨hprovider, hfeed, hadjustment, hsymbol, htimeframe, htimestamp⟩ := h
  simp only [identityPayload, hprovider, hfeed, hadjustment, hsymbol, htimeframe, htimestamp]

/-- The price fields, as far as `content_hash` reads them. -/
def priceTexts (b : MarketBarV1Fields) : ℚ × ℚ × ℚ × ℚ × Option ℚ :=
  (normalizedText b.openPrice, normalizedText b.high, normalizedText b.low, normalizedText b.close,
    b.vwap.map normalizedText)

/-- The other fields that `content_hash` reads. -/
def contentKey (b : MarketBarV1Fields) : Option Instant × Option Nat × Nat :=
  (b.providerEventTimestampUtc, b.tradeCount, b.volume)

/-- Every price has at most 28 significant digits. -/
structure FitsContext (b : MarketBarV1Fields) : Prop where
  openPrice : FitsDecimalContext b.openPrice
  high : FitsDecimalContext b.high
  low : FitsDecimalContext b.low
  close : FitsDecimalContext b.close
  vwap : ∀ q ∈ b.vwap, FitsDecimalContext q

section Hashed

variable [ContentHasher]

def identityHash (b : MarketBarV1Fields) : String := sha256Hex b.identityPayload

/-- The value behind `content_hash`. -/
def contentPayload (b : MarketBarV1Fields) : Canonical :=
  .mapping [
    ("close", .decimal (normalizedText b.close)),
    ("high", .decimal (normalizedText b.high)),
    ("identity_hash", .text b.identityHash),
    ("low", .decimal (normalizedText b.low)),
    ("open", .decimal (normalizedText b.openPrice)),
    ("provider_event_timestamp_utc", .optional .instant b.providerEventTimestampUtc),
    ("trade_count", .optional (fun n : Nat => .int n) b.tradeCount),
    ("volume", .int b.volume),
    ("vwap", .optional (fun q => .decimal (normalizedText q)) b.vwap)]

def contentHash (b : MarketBarV1Fields) : String := sha256Hex b.contentPayload

end Hashed

end MarketBarV1Fields

/-- Canonical current-value projection for one versioned OHLCV interval. -/
structure MarketBarV1 extends MarketBarV1Fields where
  checked : toMarketBarV1Fields.check = .ok ()
  deriving DecidableEq

/-! ## Observations -/

structure RawBarObservationV2Fields where
  bar : MarketBarV1
  isCorrection : Bool
  providerEventId : Option String
  rawPayloadSha256 : Option String
  rawPayloadJson : Option String
  deriving DecidableEq

/-- `RawBarObservationV1.__post_init__` on normalized fields. That a payload is a canonical JSON
object with the stated digest is left to the parser. -/
def RawBarObservationV2Fields.check (o : RawBarObservationV2Fields) : Except PlatformError Unit := do
  rejectIf (o.providerEventId = some "")
    (.valueError "RawBarObservationV1.provider_event_id must be a nonempty string")
  rejectIf (o.rawPayloadJson.isSome ∧ o.rawPayloadSha256 = none)
    (.valueError "RawBarObservationV1.raw_payload_sha256 does not match raw_payload_json")
  rejectIf (o.rawPayloadSha256.any fun digest => !isSha256 digest)
    (.valueError "RawBarObservationV1.raw_payload_sha256 must be a SHA-256 hex digest")

/-- One received delivery. -/
structure RawBarObservationV2 extends RawBarObservationV2Fields where
  checked : toRawBarObservationV2Fields.check = .ok ()
  deriving DecidableEq

namespace RawBarObservationV2

theorem optional_int_injective :
    Function.Injective (Canonical.optional fun n : Nat => Canonical.int n) :=
  Canonical.optional_injective (fun _ _ h => Int.ofNat_inj.1 (Canonical.int.inj h)) nofun

/-- `RawBarObservationV2.SCHEMA_VERSION`. -/
def schemaVersion : String := "raw-bar-observation.v2"

variable [ContentHasher]

def identityHash (o : RawBarObservationV2) : String := o.bar.identityHash

def contentHash (o : RawBarObservationV2) : String := o.bar.contentHash

/-- The value behind `observation_id`. -/
def idPayload (o : RawBarObservationV2) : Canonical :=
  .mapping [
    ("bar_content_hash", .text o.contentHash),
    ("bar_identity_hash", .text o.identityHash),
    ("is_correction", .bool o.isCorrection),
    ("provider_event_id", .optional .text o.providerEventId),
    ("quality_flags", .texts o.bar.qualityFlags),
    ("raw_payload_sha256", .optional .text o.rawPayloadSha256),
    ("receipt_timestamp_utc", .instant o.bar.receiptTimestampUtc),
    ("schema_version", .text schemaVersion),
    ("source", .text o.bar.source)]

/-- The identifier that makes redeliveries of one envelope idempotent. -/
def observationId (o : RawBarObservationV2) : String := sha256Hex o.idPayload

/-- The values hashed for one observation. -/
def hashed (o : RawBarObservationV2) : Set Canonical :=
  {o.bar.identityPayload, o.bar.contentPayload, o.idPayload}

theorem idPayload_mem_hashed (o : RawBarObservationV2) : o.idPayload ∈ o.hashed :=
  Or.inr (Or.inr rfl)

theorem contentPayload_mem_hashed (o : RawBarObservationV2) : o.bar.contentPayload ∈ o.hashed :=
  Or.inr (Or.inl rfl)

theorem identityPayload_mem_hashed (o : RawBarObservationV2) : o.bar.identityPayload ∈ o.hashed :=
  Or.inl rfl

/-- What two observations with one identifier have in common. The prices agree as far as
`content_hash` reads them. -/
structure SameDelivery (a b : RawBarObservationV2) : Prop where
  identity : a.bar.identityKey = b.bar.identityKey
  content : a.bar.contentKey = b.bar.contentKey
  prices : a.bar.priceTexts = b.bar.priceTexts
  identityHash : a.identityHash = b.identityHash
  contentHash : a.contentHash = b.contentHash
  correction : a.isCorrection = b.isCorrection
  flags : a.bar.qualityFlags = b.bar.qualityFlags
  receipt : a.bar.receiptTimestampUtc = b.bar.receiptTimestampUtc
  source : a.bar.source = b.bar.source

theorem priceTexts_of_contentPayload {a b : MarketBarV1Fields}
    (h : a.contentPayload = b.contentPayload) :
    a.priceTexts = b.priceTexts ∧ a.contentKey = b.contentKey ∧ a.identityHash = b.identityHash := by
  simp only [MarketBarV1Fields.contentPayload, Canonical.mapping.injEq, List.cons.injEq,
    Prod.mk.injEq, true_and, Canonical.text.injEq, Canonical.decimal.injEq, Canonical.int.injEq,
    Canonical.optional_instant_injective.eq_iff, optional_int_injective.eq_iff, and_true] at h
  obtain ⟨hclose, hhigh, hidentity, hlow, hopen, hevent, htrades, hvolume, hvwap⟩ := h
  have hvwap' : a.vwap.map normalizedText = b.vwap.map normalizedText := by
    cases ha : a.vwap <;> cases hb : b.vwap <;>
      simp_all [Canonical.optional]
  refine ⟨?_, ?_, hidentity⟩
  · simp only [MarketBarV1Fields.priceTexts, hopen, hhigh, hlow, hclose, hvwap']
  · simp only [MarketBarV1Fields.contentKey, hevent, htrades, Int.ofNat_inj.1 hvolume]

/-- Equal identifiers name the same delivery, unless two hashed values collide. -/
theorem sameDelivery_of_observationId {H : Set Canonical} (hH : Set.InjOn sha256Hex H)
    {a b : RawBarObservationV2} (ha : a.hashed ⊆ H) (hb : b.hashed ⊆ H)
    (h : a.observationId = b.observationId) : SameDelivery a b := by
  have hid : a.idPayload = b.idPayload :=
    hH (ha a.idPayload_mem_hashed) (hb b.idPayload_mem_hashed) h
  simp only [idPayload, Canonical.mapping.injEq, List.cons.injEq, Prod.mk.injEq, true_and,
    Canonical.text.injEq, Canonical.bool.injEq, Canonical.instant.injEq,
    Canonical.texts_injective.eq_iff, and_true] at hid
  obtain ⟨hcontent, hidentity, hcorrection, -, hflags, -, hreceipt, hsource⟩ := hid
  have hcontentPayload : a.bar.contentPayload = b.bar.contentPayload :=
    hH (ha a.contentPayload_mem_hashed) (hb b.contentPayload_mem_hashed) hcontent
  have hidentityPayload : a.bar.identityPayload = b.bar.identityPayload :=
    hH (ha a.identityPayload_mem_hashed) (hb b.identityPayload_mem_hashed) hidentity
  obtain ⟨hprices, hkey, -⟩ := priceTexts_of_contentPayload hcontentPayload
  exact ⟨MarketBarV1Fields.identityPayload_inj hidentityPayload, hkey, hprices, hidentity, hcontent,
    hcorrection, hflags, hreceipt, hsource⟩

/-- Equal identity hashes name the same bar, unless two hashed values collide. -/
theorem identityKey_of_identityHash {H : Set Canonical} (hH : Set.InjOn sha256Hex H)
    {a b : RawBarObservationV2} (ha : a.hashed ⊆ H) (hb : b.hashed ⊆ H)
    (h : a.identityHash = b.identityHash) : a.bar.identityKey = b.bar.identityKey :=
  MarketBarV1Fields.identityPayload_inj
    (hH (ha a.identityPayload_mem_hashed) (hb b.identityPayload_mem_hashed) h)

theorem identityHash_of_identityKey {a b : RawBarObservationV2}
    (h : a.bar.identityKey = b.bar.identityKey) : a.identityHash = b.identityHash :=
  congrArg sha256Hex (MarketBarV1Fields.identityPayload_congr h)

end RawBarObservationV2

end AdaptiveTrader
