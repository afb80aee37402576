import AdaptiveTrader.Foundation.Sorted
import AdaptiveTrader.Platform.Domain

/-!
# Canonical bars and their revisions

A bar identity names one interval of a series. A bar write is a validated payload for an identity,
and a stored event is one revision of a bar: its ID and its content hash are recomputed whenever it is
built, so an event with a wrong hash cannot exist.

Two digests matter. `identityHash` names the interval. `normalizedPayloadHash` covers the economic
values of a bar and its source metadata, but neither the receipt nor the raw delivery;
`economicPayload` leaves the source metadata out as well.
-/

set_option autoImplicit false

namespace AdaptiveTrader

open Foundation

/-! ## Syntax -/

/-- The characters `[a-z0-9_.-]` of a token behind its first. -/
def isTokenTail (c : Char) : Bool := isLower c || isDigit c || c == '_' || c == '.' || c == '-'

/-- `_require_token`: `^[a-z][a-z0-9_.-]*$` of bounded length. -/
def requireToken (value fieldName : String) (maximumLength : Nat) : Except PlatformError Unit :=
  rejectIf (maximumLength < value.length ∨
      matchesHeadTail isLower isTokenTail value.length value.toList = false)
    (.marketDataValidation ("bar " ++ fieldName ++ " is invalid"))

/-- `_require_hash`. -/
def requireHash (value fieldName : String) : Except PlatformError Unit :=
  rejectIf (isSha256 value = false) (.marketDataValidation (fieldName ++ " is invalid"))

/-- `_require_opaque_text`: bounded text without control characters. -/
def requireOpaqueText (value fieldName : String) (maximumLength : Nat) :
    Except PlatformError Unit :=
  rejectIf (value = "" ∨ maximumLength < value.length ∨
      value.toList.any (fun c => decide (c.toNat < 32 ∨ c.toNat = 127)) = true)
    (.marketDataValidation ("bar " ++ fieldName ++ " is invalid"))

/-- `^[a-z][a-z0-9_.-]{0,63}$`. -/
def isQualityFlag (s : String) : Bool := matchesHeadTail isLower isTokenTail 63 s.toList

/-- `_require_quality_flags`. -/
def requireQualityFlags (flags : List String) : Except PlatformError Unit := do
  rejectIf (64 < flags.length) (.marketDataValidation "bar quality flags are invalid")
  rejectIf (flags.all isQualityFlag = false) (.marketDataValidation "bar quality flags are invalid")
  rejectIf (sortedSet flags ≠ flags)
    (.marketDataValidation "bar quality flags must be sorted and unique")

/-- A check of an optional value. -/
def whenPresent {α : Type} (check : α → Except PlatformError Unit) :
    Option α → Except PlatformError Unit
  | none => .ok ()
  | some a => check a

/-- The number has at most `scale` decimal places, and at most 38 digits in all. -/
def fitsNumeric38 (scale : Nat) (q : ℚ) : Prop :=
  (q * 10 ^ scale).den = 1 ∧ |q| < 10 ^ (38 - scale)

instance (scale : Nat) (q : ℚ) : Decidable (fitsNumeric38 scale q) :=
  inferInstanceAs (Decidable (_ ∧ _))

/-- `_require_storage_decimal`. -/
def requireStorageDecimal (value : ℚ) (fieldName : String) (scale : Nat) :
    Except PlatformError Unit :=
  rejectIf (¬ fitsNumeric38 scale value)
    (.marketDataValidation ("bar " ++ fieldName ++ " exceeds storage precision"))

/-- `NUMERIC(38, scale)`: the nearest multiple of the scale, a half rounded away from zero. -/
def numeric38 (scale : Nat) (q : ℚ) : ℚ :=
  (if 0 ≤ q then ⌊q * 10 ^ scale + 1 / 2⌋ else -⌊-q * 10 ^ scale + 1 / 2⌋ : ℤ) / 10 ^ scale

/-- A number that fits its column is stored as it is. -/
theorem numeric38_eq_self {scale : Nat} {q : ℚ} (h : fitsNumeric38 scale q) :
    numeric38 scale q = q := by
  obtain ⟨n, hn⟩ : ∃ n : ℤ, q * 10 ^ scale = n := ⟨_, (Rat.den_eq_one_iff _).1 h.1 |>.symm⟩
  have hfloor : ∀ m : ℤ, ⌊(m : ℚ) + 1 / 2⌋ = m := by
    intro m
    rw [Int.floor_intCast_add]
    norm_num
  have hpow : (10 : ℚ) ^ scale ≠ 0 := by positivity
  rw [numeric38, div_eq_iff hpow, neg_mul, hn]
  split
  · rw [hfloor]
  · have hneg : -(n : ℚ) = ((-n : ℤ) : ℚ) := by push_cast; rfl
    rw [hneg, hfloor, neg_neg]

/-! ## Identities -/

/-- `_TIMEFRAME_DURATIONS`. -/
def timeframeDuration (timeframe : String) : Option Int :=
  if timeframe = "1Min" then some (seconds 60)
  else if timeframe = "15Min" then some (seconds 900)
  else none

structure BarIdentityFields where
  provider : String
  feed : String
  adjustment : String
  symbol : String
  timeframe : String
  startAt : Instant
  endAt : Instant
  deriving DecidableEq

/-- `BarIdentity.__post_init__`. -/
def BarIdentityFields.check (i : BarIdentityFields) : Except PlatformError Unit := do
  requireToken i.provider "provider" 32
  requireToken i.feed "feed" 16
  requireToken i.adjustment "adjustment" 16
  rejectIf (isSymbol i.symbol = false) (.marketDataValidation "bar symbol is invalid")
  let duration ← require (timeframeDuration i.timeframe)
    (.marketDataValidation "bar timeframe is unsupported")
  rejectIf (i.endAt - i.startAt ≠ duration)
    (.marketDataValidation "bar interval does not match its timeframe")

/-- Canonical identity and interval for one start-inclusive, end-exclusive bar. -/
structure BarIdentity extends BarIdentityFields where
  checked : toBarIdentityFields.check = .ok ()
  deriving DecidableEq

namespace BarIdentity

theorem duration (i : BarIdentity) : timeframeDuration i.timeframe = some (i.endAt - i.startAt) := by
  have hchecked := i.checked
  simp only [BarIdentityFields.check, bind_eq_ok, rejectIf_eq_ok, require_eq_ok] at hchecked
  obtain ⟨_, -, _, -, _, -, _, -, duration, hduration, hequal⟩ := hchecked
  rw [hduration, not_not.1 hequal]

/-- The columns that identify a bar; the end of its interval follows from them. -/
def naturalKey (i : BarIdentityFields) :
    String × String × String × String × String × Instant :=
  (i.provider, i.feed, i.adjustment, i.symbol, i.timeframe, i.startAt)

/-- `hash_input`. -/
def hashInput (i : BarIdentityFields) : Canonical :=
  .seq [.text i.provider, .text i.feed, .text i.adjustment, .text i.symbol, .text i.timeframe,
    .instant i.startAt]

theorem eq_of_naturalKey {i j : BarIdentity}
    (h : naturalKey i.toBarIdentityFields = naturalKey j.toBarIdentityFields) : i = j := by
  simp only [naturalKey, Prod.mk.injEq] at h
  obtain ⟨hprovider, hfeed, hadjustment, hsymbol, htimeframe, hstart⟩ := h
  have hend : i.endAt = j.endAt := by
    have hduration := i.duration
    rw [htimeframe, j.duration, Option.some.injEq, hstart] at hduration
    exact (sub_left_inj.1 hduration).symm
  obtain ⟨⟨_, _, _, _, _, _, _⟩, _⟩ := i
  obtain ⟨⟨_, _, _, _, _, _, _⟩, _⟩ := j
  simp only at hprovider hfeed hadjustment hsymbol htimeframe hstart hend
  subst hprovider hfeed hadjustment hsymbol htimeframe hstart hend
  rfl

theorem eq_of_hashInput {i j : BarIdentity}
    (h : hashInput i.toBarIdentityFields = hashInput j.toBarIdentityFields) : i = j := by
  simp only [hashInput, Canonical.seq.injEq, List.cons.injEq, Canonical.text.injEq,
    Canonical.instant.injEq, and_true] at h
  exact eq_of_naturalKey (by simp only [naturalKey, h])

variable [ContentHasher]

def identityHash (i : BarIdentity) : String := sha256Hex (hashInput i.toBarIdentityFields)

def barIdentityId (i : BarIdentity) : String := deterministicId "bar_identity" i.identityHash

/-- Among values without a collision the ID names the identity. -/
theorem eq_of_barIdentityId {H : Set Canonical} (hH : Set.InjOn sha256Hex H) {i j : BarIdentity}
    (hi : hashInput i.toBarIdentityFields ∈ H) (hj : hashInput j.toBarIdentityFields ∈ H)
    (h : i.barIdentityId = j.barIdentityId) : i = j :=
  eq_of_hashInput (hH hi hj (deterministicId_injective h))

end BarIdentity

/-! ## Writes -/

structure BarWriteFields where
  identity : BarIdentity
  receivedAt : Instant
  openPrice : ℚ
  high : ℚ
  low : ℚ
  close : ℚ
  volume : ℚ
  qualityFlags : List String
  source : String
  sourcePayloadHash : String
  sourceMode : String
  lineageHash : Option String
  tradeCount : Option Int
  vwap : Option ℚ
  providerTimestamp : Option Instant
  sourceEventId : Option String
  isCorrection : Bool
  correctionOfSourceEventId : Option String
  schemaVersion : Int
  deriving DecidableEq

/-- `BarWrite.__post_init__`. -/
def BarWriteFields.check (b : BarWriteFields) : Except PlatformError Unit := do
  rejectIf (b.receivedAt < b.identity.endAt)
    (.marketDataValidation "bar receipt timestamp precedes interval end")
  requireStorageDecimal b.openPrice "open" 18
  requireStorageDecimal b.high "high" 18
  requireStorageDecimal b.low "low" 18
  requireStorageDecimal b.close "close" 18
  rejectIf (b.openPrice ≤ 0 ∨ b.high ≤ 0 ∨ b.low ≤ 0 ∨ b.close ≤ 0)
    (.marketDataValidation "bar prices must be positive")
  rejectIf (b.high < max (max (max b.openPrice b.high) b.low) b.close ∨
      min (min (min b.openPrice b.high) b.low) b.close < b.low)
    (.marketDataValidation "bar OHLC values are incoherent")
  requireStorageDecimal b.volume "volume" 0
  rejectIf (b.volume < 0) (.marketDataValidation "bar volume must be nonnegative")
  rejectIf (b.tradeCount.any (fun n => decide (n < 0 ∨ (maxSigned64BitInteger : Int) < n)) = true)
    (.marketDataValidation "bar trade count is invalid")
  whenPresent (fun vwap => do
    requireStorageDecimal vwap "vwap" 18
    rejectIf (vwap < 0) (.marketDataValidation "bar VWAP must be nonnegative")) b.vwap
  rejectIf (b.schemaVersion ≠ 1) (.marketDataValidation "bar schema version is unsupported")
  requireQualityFlags b.qualityFlags
  requireToken b.source "source" 32
  rejectIf (b.sourceMode ≠ "external_provider" ∧ b.sourceMode ≠ "offline_fixture")
    (.marketDataValidation "bar source mode is invalid")
  requireHash b.sourcePayloadHash "source payload hash"
  whenPresent (fun hash => requireHash hash "lineage hash") b.lineageHash
  whenPresent (fun id => requireOpaqueText id "source event ID" 128) b.sourceEventId
  whenPresent (fun id => do
    requireOpaqueText id "correction source event ID" 128
    rejectIf (b.isCorrection = false)
      (.marketDataValidation "bar correction reference requires correction metadata")
    rejectIf (some id = b.sourceEventId)
      (.marketDataValidation "bar correction cannot reference itself")) b.correctionOfSourceEventId

/-- Validated normalized payload presented to the append transaction. -/
structure BarWrite extends BarWriteFields where
  checked : toBarWriteFields.check = .ok ()
  deriving DecidableEq

namespace BarWrite

theorem ext {a b : BarWrite} (h : a.toBarWriteFields = b.toBarWriteFields) : a = b := by
  cases a
  cases b
  simpa using h

/-- The number fits the column it is stored in. -/
structure FitsColumns (b : BarWriteFields) : Prop where
  openPrice : fitsNumeric38 18 b.openPrice
  high : fitsNumeric38 18 b.high
  low : fitsNumeric38 18 b.low
  close : fitsNumeric38 18 b.close
  volume : fitsNumeric38 0 b.volume
  vwap : ∀ q ∈ b.vwap, fitsNumeric38 18 q

theorem fitsColumns (b : BarWrite) : FitsColumns b.toBarWriteFields := by
  have hchecked := b.checked
  simp only [BarWriteFields.check, requireStorageDecimal, bind_eq_ok, rejectIf_eq_ok, not_not]
    at hchecked
  obtain ⟨_, -, _, hopen, _, hhigh, _, hlow, _, hclose, _, -, _, -, _, hvolume, _, -, _, -, _, hvwap,
    -⟩ := hchecked
  refine ⟨hopen, hhigh, hlow, hclose, hvolume, ?_⟩
  intro q hq
  rw [Option.mem_def] at hq
  rw [hq] at hvwap
  simp only [whenPresent, bind_eq_ok, rejectIf_eq_ok, not_not] at hvwap
  obtain ⟨_, hfits, -⟩ := hvwap
  exact hfits

/-- `_economic_payload`: the effective values without delivery-specific source identity. -/
def economicPayload (b : BarWriteFields) : BarIdentity × Option Instant ×
    (ℚ × ℚ × ℚ × ℚ × ℚ) × Option Int × Option ℚ × List String × String × Int :=
  (b.identity, b.providerTimestamp, (b.openPrice, b.high, b.low, b.close, b.volume), b.tradeCount,
    b.vwap, b.qualityFlags, b.sourceMode, b.schemaVersion)

/-- The value behind `normalized_payload_hash`. -/
def normalizedPayload (b : BarWriteFields) : Canonical :=
  .mapping (("adjustment", .text b.identity.adjustment) ::
    (b.lineageHash.toList.map fun hash => ("aggregate_lineage_hash", .text hash)) ++ [
    ("close", .decimal b.close),
    ("correction", .mapping [
      ("correction_of_source_event_id", .optional .text b.correctionOfSourceEventId),
      ("is_correction", .bool b.isCorrection)]),
    ("feed", .text b.identity.feed),
    ("high", .decimal b.high),
    ("interval_end_utc", .instant b.identity.endAt),
    ("interval_start_utc", .instant b.identity.startAt),
    ("low", .decimal b.low),
    ("open", .decimal b.openPrice),
    ("provider", .text b.identity.provider),
    ("provider_event_timestamp_utc", .optional .instant b.providerTimestamp),
    ("quality_flags", .texts b.qualityFlags),
    ("schema_version", .int b.schemaVersion),
    ("source_event_id", .optional .text b.sourceEventId),
    ("source_mode", .text b.sourceMode),
    ("symbol", .text b.identity.symbol),
    ("timeframe", .text b.identity.timeframe),
    ("trade_count", .optional .int b.tradeCount),
    ("volume", .decimal b.volume),
    ("vwap", .optional .decimal b.vwap)])

theorem optional_int_injective : Function.Injective (Canonical.optional Canonical.int) :=
  Canonical.optional_injective (fun _ _ => Canonical.int.inj) fun _ h => by cases h

/-- Bars with one normalized payload have one economic payload. -/
theorem economicPayload_eq {a b : BarWriteFields} (h : normalizedPayload a = normalizedPayload b) :
    economicPayload a = economicPayload b := by
  obtain ⟨hhead, hrest⟩ := List.cons.inj (Canonical.mapping.inj h)
  -- the lists behind the optional entry have one length
  have htail := (List.append_inj' hrest rfl).2
  simp only [Prod.mk.injEq, true_and, Canonical.text.injEq] at hhead
  simp only [List.cons.injEq, Prod.mk.injEq, true_and, Canonical.text.injEq,
    Canonical.instant.injEq, Canonical.decimal.injEq, Canonical.int.injEq, and_true,
    Canonical.optional_instant_injective.eq_iff, Canonical.optional_decimal_injective.eq_iff,
    optional_int_injective.eq_iff, Canonical.texts_injective.eq_iff] at htail
  obtain ⟨hclose, -, hfeed, hhigh, -, hstart, hlow, hopen, hprovider, htimestamp, hflags,
    hschema, -, hmode, hsymbol, htimeframe, htrades, hvolume, hvwap⟩ := htail
  have hidentity : a.identity = b.identity := BarIdentity.eq_of_naturalKey (by
    simp only [BarIdentity.naturalKey, hhead, hfeed, hstart, hprovider, hsymbol, htimeframe])
  simp only [economicPayload, hidentity, hclose, hhigh, hlow, hopen, htimestamp, hflags, hschema,
    hmode, htrades, hvolume, hvwap]

/-- `_lineage_aggregate`. -/
def lineageAggregate (b : BarWriteFields) : Bool :=
  decide (b.source = "aggregate" ∧ b.identity.timeframe = "15Min" ∧ b.lineageHash.isSome)

variable [ContentHasher]

/-- Hash of the canonical semantics, excluding receipt and raw-source delivery metadata. -/
def normalizedPayloadHash (b : BarWriteFields) : String := sha256Hex (normalizedPayload b)

end BarWrite

/-! ## Stored events -/

section Events

variable [ContentHasher]

/-- `_bar_event_id`. -/
def barEventId (identityId : String) (revision : Nat) (normalizedPayloadHash : String) : String :=
  deterministicIdFromHashInput "bar_event"
    (.seq [.text identityId, .int revision, .text normalizedPayloadHash])

/-- `_bar_event_content_hash`: covers every immutable event field. -/
def barEventContentHash (barEventId : String) (revision : Nat)
    (correctionOfEventId : Option String) (bar : BarWrite) : String :=
  sha256Hex (.mapping [
    ("bar_event_id", .text barEventId),
    ("bar_identity_id", .text bar.identity.barIdentityId),
    ("correction_of_event_id", .optional .text correctionOfEventId),
    ("created_at", .instant bar.receivedAt),
    ("lineage_hash", .optional .text bar.lineageHash),
    ("normalized_payload_hash", .text (BarWrite.normalizedPayloadHash bar.toBarWriteFields)),
    ("received_at", .instant bar.receivedAt),
    ("revision", .int revision),
    ("schema", .text "bar_event_v1"),
    ("source", .text bar.source),
    ("source_event_id", .optional .text bar.sourceEventId),
    ("source_mode", .text bar.sourceMode),
    ("source_payload_hash", .text bar.sourcePayloadHash)])

structure StoredBarEventFields where
  barEventId : String
  revision : Nat
  correctionOfEventId : Option String
  bar : BarWrite
  contentHash : String
  deriving DecidableEq

/-- The reference that a revision makes to its predecessor. -/
def correctionReference (revision : Nat) (correctionOfEventId : Option String) :
    Except PlatformError Unit :=
  if revision = 1 then
    rejectIf (correctionOfEventId ≠ none)
      (.marketDataIntegrity "first bar revision cannot be a correction")
  else
    rejectIf (correctionOfEventId.any (isPrefixedDigest "bar_event") = false)
      (.marketDataIntegrity "bar correction reference is invalid")

/-- `StoredBarEvent.__post_init__`. -/
def StoredBarEventFields.check (e : StoredBarEventFields) : Except PlatformError Unit := do
  rejectIf (e.revision < 1 ∨ maxSigned64BitInteger < e.revision)
    (.marketDataIntegrity "persisted bar revision is invalid")
  correctionReference e.revision e.correctionOfEventId
  rejectIf (e.barEventId ≠ AdaptiveTrader.barEventId e.bar.identity.barIdentityId e.revision
      (BarWrite.normalizedPayloadHash e.bar.toBarWriteFields))
    (.marketDataIntegrity "persisted bar event identity is invalid")
  rejectIf (isSha256 e.contentHash = false)
    (.marketDataIntegrity "persisted bar event content hash is invalid")
  rejectIf (e.contentHash ≠
      barEventContentHash e.barEventId e.revision e.correctionOfEventId e.bar)
    (.marketDataIntegrity "persisted bar event content hash is invalid")

/-- One independently validated immutable revision. -/
structure StoredBarEvent extends StoredBarEventFields where
  checked : toStoredBarEventFields.check = .ok ()
  deriving DecidableEq

namespace StoredBarEvent

theorem ext {e f : StoredBarEvent} (h : e.toStoredBarEventFields = f.toStoredBarEventFields) :
    e = f := by
  cases e
  cases f
  simpa using h

theorem one_le_revision (e : StoredBarEvent) : 1 ≤ e.revision := by
  have hchecked := e.checked
  simp only [StoredBarEventFields.check, bind_eq_ok, rejectIf_eq_ok] at hchecked
  obtain ⟨_, hrevision, -⟩ := hchecked
  omega

def identity (e : StoredBarEvent) : BarIdentity := e.bar.identity

def normalizedPayloadHash (e : StoredBarEvent) : String :=
  BarWrite.normalizedPayloadHash e.bar.toBarWriteFields

end StoredBarEvent

end Events

end AdaptiveTrader
