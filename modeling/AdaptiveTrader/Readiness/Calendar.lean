import AdaptiveTrader.Storage.Bars

/-!
# The exchange calendar

The calendar lists the intervals of a timeframe that lie in a regular session and in a requested
range. The schedule of the exchange and the time zone of the market are not part of the repository:
`ExchangeSchedule` is what the calendar asks them, and `Regular` what they are documented to answer.

Inside one session the answer is a filter of the intervals of that session
(`expectedIntervals_session`), whatever the range.
-/

set_option autoImplicit false

namespace AdaptiveTrader.Readiness

open Foundation

/-! ## Intervals -/

/-- One start-inclusive, end-exclusive expected market-data interval. -/
structure TradingInterval where
  startAt : Instant
  endAt : Instant
  positive : startAt < endAt
  deriving DecidableEq

/-- The interval lies inside a range. -/
def TradingInterval.Within (startAt endAt : Instant) (i : TradingInterval) : Prop :=
  startAt ≤ i.startAt ∧ i.endAt ≤ endAt

instance (startAt endAt : Instant) : DecidablePred (TradingInterval.Within startAt endAt) :=
  fun _ => inferInstanceAs (Decidable (_ ∧ _))

theorem timeframeDuration_pos {timeframe : String} {duration : Int}
    (h : timeframeDuration timeframe = some duration) : 0 < duration := by
  unfold timeframeDuration at h
  split at h
  · cases h
    decide
  · split at h
    · cases h
      decide
    · cases h

/-- The interval of a bar. -/
def intervalOf (i : BarIdentity) : TradingInterval where
  startAt := i.startAt
  endAt := i.endAt
  positive := sub_pos.1 (timeframeDuration_pos i.duration)

/-! ## Sessions -/

/-- The installed schedule of the exchange and the time zone of its market. A date is a number of
days. -/
structure ExchangeSchedule where
  marketDate : Instant → Int
  sessionBounds : Int → Except PlatformError (Option (Instant × Instant))
  sessionsInRange : Int → Int → Except PlatformError (List Int)

structure TradingSessionFields where
  sessionDate : Int
  openAt : Instant
  closeAt : Instant
  deriving DecidableEq

/-- `TradingSession.__post_init__`. -/
def TradingSessionFields.check (schedule : ExchangeSchedule) (s : TradingSessionFields) :
    Except PlatformError Unit := do
  rejectIf (s.closeAt ≤ s.openAt) (.calendarValidation "session boundaries are invalid")
  rejectIf (schedule.marketDate s.openAt ≠ s.sessionDate)
    (.calendarValidation "session label does not match its market date")

/-- One scheduled session. -/
structure TradingSession (schedule : ExchangeSchedule) extends TradingSessionFields where
  checked : toTradingSessionFields.check schedule = .ok ()
  deriving DecidableEq

/-- The intervals of a session from its open: the values of `cursor` for which the interval ends by
the close. -/
def sessionIntervals (openAt closeAt : Instant) (duration : {d : Int // 0 < d}) :
    List TradingInterval :=
  (List.range ((closeAt - openAt) / duration.val).toNat).map fun (k : Nat) =>
    ⟨openAt + k * duration.val, openAt + k * duration.val + duration.val,
      lt_add_of_pos_right _ duration.property⟩

/-- Whatever was raised, raise this. -/
def replaceError {α : Type} (e : PlatformError) : Except PlatformError α → Except PlatformError α
  | .ok a => .ok a
  | .error _ => .error e

@[simp] theorem replaceError_eq_ok {α : Type} {e : PlatformError} {x : Except PlatformError α} {a : α} :
    replaceError e x = .ok a ↔ x = .ok a := by
  cases x <;> simp [replaceError]

/-- `_require_utc_range` of the calendar: a range of whole minutes. -/
def requireMinuteRange (startAt endAt : Instant) : Except PlatformError Unit := do
  rejectIf (endAt ≤ startAt) (.calendarValidation "calendar range must have positive duration")
  rejectIf (startAt % seconds 60 ≠ 0 ∨ endAt % seconds 60 ≠ 0)
    (.calendarValidation "calendar range boundaries must be minute-aligned")

/-- `_timeframe_duration`. -/
def timeframeSpan (timeframe : String) : Except PlatformError {d : Int // 0 < d} :=
  match h : timeframeDuration timeframe with
  | some duration => .ok ⟨duration, timeframeDuration_pos h⟩
  | none => .error (.calendarValidation "calendar timeframe is unsupported")

namespace ExchangeSchedule

variable (schedule : ExchangeSchedule)

/-- `XnasExchangeCalendar.session`. -/
def session (date : Int) : Except PlatformError (Option (TradingSession schedule)) := do
  let bounds ← replaceError
    (.calendarValidation "XNAS session is outside the installed calendar range")
    (schedule.sessionBounds date)
  match bounds with
  | none => pure none
  | some (openAt, closeAt) => do
      let session ← validated (TradingSessionFields.check schedule) ⟨date, openAt, closeAt⟩
        fun h => ⟨_, h⟩
      pure (some session)

/-- The session of a label that the schedule has listed. -/
def listedSession (label : Int) : Except PlatformError (TradingSession schedule) := do
  let selected ← schedule.session label
  require selected (.calendarValidation "XNAS schedule returned a closed session")

/-- `XnasExchangeCalendar.expected_intervals`. -/
def expectedIntervals (startAt endAt : Instant) (timeframe : String) :
    Except PlatformError (List TradingInterval) := do
  requireMinuteRange startAt endAt
  let duration ← timeframeSpan timeframe
  let labels ← replaceError
    (.calendarValidation "calendar range is outside the installed XNAS schedule")
    (schedule.sessionsInRange (schedule.marketDate startAt - 1) (schedule.marketDate endAt + 1))
  let sessions ← collect schedule.listedSession labels
  pure (sessions.flatMap fun s =>
    (sessionIntervals s.openAt s.closeAt duration).filter (TradingInterval.Within startAt endAt))

/-- What the schedule and the time zone are documented to answer: later instants have later dates, a
session closes on its own date, and a range lists each of its sessions once. -/
structure Regular : Prop where
  marketDate_mono : Monotone schedule.marketDate
  closes : ∀ date openAt closeAt, schedule.sessionBounds date = .ok (some (openAt, closeAt)) →
    schedule.marketDate closeAt = date
  nodup : ∀ first last labels, schedule.sessionsInRange first last = .ok labels → labels.Nodup
  complete : ∀ first last labels, schedule.sessionsInRange first last = .ok labels →
    ∀ date, first ≤ date → date ≤ last →
      (∃ bounds, schedule.sessionBounds date = .ok (some bounds)) → date ∈ labels

end ExchangeSchedule

/-! ## The intervals of one session -/

section Sessions

variable {openAt closeAt : Instant} {duration : {d : Int // 0 < d}}

/-- The intervals lie in the session. -/
theorem within_of_mem_sessionIntervals {i : TradingInterval}
    (h : i ∈ sessionIntervals openAt closeAt duration) : i.Within openAt closeAt := by
  obtain ⟨k, hk, rfl⟩ := List.mem_map.1 h
  have hduration := duration.property
  have hcount : (k : Int) + 1 ≤ (closeAt - openAt) / duration.val := by
    have := List.mem_range.1 hk
    omega
  have hend := (Int.le_ediv_iff_mul_le hduration).1 hcount
  have hstart : 0 ≤ (k : Int) * duration.val := by positivity
  refine ⟨le_add_of_nonneg_right hstart, ?_⟩
  show openAt + k * duration.val + duration.val ≤ closeAt
  linarith

/-- The intervals follow one another. -/
theorem sessionIntervals_pairwise :
    (sessionIntervals openAt closeAt duration).Pairwise fun a b => a.endAt ≤ b.startAt := by
  refine List.pairwise_map.2 (List.pairwise_lt_range.imp fun {k l} hkl => ?_)
  have hstep : ((k : Int) + 1) * duration.val ≤ l * duration.val :=
    mul_le_mul_of_nonneg_right (by exact_mod_cast hkl) duration.property.le
  show openAt + k * duration.val + duration.val ≤ openAt + l * duration.val
  linarith

end Sessions

/-- Of all collected values only that of one element contributes. -/
theorem flatMap_of_collect {ε α β γ : Type} {f : α → Except ε β} {g : β → List γ} {l : List α}
    {m : List β} (h : collect f l = .ok m) (hn : l.Nodup) {a : α} {b : β} (ha : a ∈ l)
    (hb : f a = .ok b) (hother : ∀ a' ∈ l, a' ≠ a → ∀ b', f a' = .ok b' → g b' = []) :
    m.flatMap g = g b := by
  rw [collect_eq_ok_iff] at h
  induction h with
  | nil => cases ha
  | @cons a' b' rest rest' hhead htail ih =>
      obtain ⟨hfresh, hrest⟩ := List.nodup_cons.1 hn
      rw [List.flatMap_cons]
      rcases List.mem_cons.1 ha with rfl | ha
      · -- the elements behind it contribute nothing
        cases hhead.symm.trans hb
        have hempty : rest'.flatMap g = [] := by
          rw [List.flatMap_eq_nil_iff]
          intro c hc
          obtain ⟨d, hd, hdc⟩ := mem_of_collect (collect_eq_ok_iff.2 htail) hc
          exact hother d (List.mem_cons_of_mem _ hd) (fun hda => hfresh (hda ▸ hd)) c hdc
        rw [hempty, List.append_nil]
      · have hne : a' ≠ a := fun h => hfresh (h ▸ ha)
        rw [hother a' List.mem_cons_self hne b' hhead, List.nil_append]
        exact ih hrest ha fun c hc => hother c (List.mem_cons_of_mem _ hc)

namespace ExchangeSchedule

variable {schedule : ExchangeSchedule}

theorem session_eq_ok {date : Int} {s : TradingSession schedule}
    (h : schedule.session date = .ok (some s)) :
    schedule.sessionBounds date = .ok (some (s.openAt, s.closeAt)) ∧ s.sessionDate = date := by
  simp only [session, bind_eq_ok, replaceError_eq_ok] at h
  obtain ⟨bounds, hbounds, h⟩ := h
  cases bounds with
  | none => cases h
  | some b =>
      simp only [bind_eq_ok, validated_eq_ok, pure_eq_ok] at h
      obtain ⟨_, ⟨hchecked, rfl⟩, h⟩ := h
      cases h
      exact ⟨hbounds, rfl⟩

/-- A session opens on the date it is listed under. -/
theorem opens (s : TradingSession schedule) :
    schedule.marketDate s.openAt = s.sessionDate ∧ s.openAt < s.closeAt := by
  have hchecked := s.checked
  simp only [TradingSessionFields.check, unit_bind_eq_ok, rejectIf_eq_ok, not_le, not_not]
    at hchecked
  exact ⟨hchecked.2, hchecked.1⟩

theorem listedSession_eq_ok {label : Int} {s : TradingSession schedule} :
    schedule.listedSession label = .ok s ↔ schedule.session label = .ok (some s) := by
  simp [listedSession]

/-- Sessions of different dates do not overlap. -/
theorem Regular.disjoint (hregular : schedule.Regular) {d d' : Int} {s s' : TradingSession schedule}
    (hs : schedule.session d = .ok (some s)) (hs' : schedule.session d' = .ok (some s'))
    (hdates : d < d') : s.closeAt < s'.openAt := by
  obtain ⟨hbounds, -⟩ := session_eq_ok hs
  obtain ⟨-, hdate'⟩ := session_eq_ok hs'
  have hclose := hregular.closes _ _ _ hbounds
  have hopen := (opens s').1
  by_contra hle
  have hmono := hregular.marketDate_mono (not_lt.1 hle)
  omega

/-- Inside one session the calendar answers with the intervals of that session. -/
theorem expectedIntervals_session (hregular : schedule.Regular) {date : Int}
    {s : TradingSession schedule} (hs : schedule.session date = .ok (some s))
    {startAt endAt : Instant} (hopen : s.openAt ≤ startAt) (hclose : endAt ≤ s.closeAt)
    {timeframe : String} {expected : List TradingInterval}
    (h : schedule.expectedIntervals startAt endAt timeframe = .ok expected) :
    ∃ duration, timeframeSpan timeframe = .ok duration ∧
      expected = (sessionIntervals s.openAt s.closeAt duration).filter
        (TradingInterval.Within startAt endAt) := by
  simp only [expectedIntervals, requireMinuteRange, bind_eq_ok, rejectIf_eq_ok,
    replaceError_eq_ok, pure_eq_ok, not_le] at h
  obtain ⟨_, ⟨_, hrange, -⟩, duration, hduration, labels, hlabels, sessions, hsessions, rfl⟩ := h
  obtain ⟨hbounds, hdate⟩ := session_eq_ok hs
  -- every instant of the session has the date of the session
  have hfirst := hregular.marketDate_mono hopen
  have hlast := hregular.marketDate_mono hclose
  have hbetween := hregular.marketDate_mono hrange.le
  rw [hregular.closes _ _ _ hbounds] at hlast
  rw [(opens s).1, hdate] at hfirst
  have hmem : date ∈ labels :=
    hregular.complete _ _ _ hlabels date (by omega) (by omega) ⟨_, hbounds⟩
  refine ⟨duration, hduration, ?_⟩
  refine flatMap_of_collect hsessions (hregular.nodup _ _ _ hlabels) hmem
    (listedSession_eq_ok.2 hs) fun other _ hne s' hs' => ?_
  rw [listedSession_eq_ok] at hs'
  rw [List.filter_eq_nil_iff]
  intro i hi hwithin
  obtain ⟨hstart', hend'⟩ := within_of_mem_sessionIntervals hi
  obtain ⟨hstart, hend⟩ := of_decide_eq_true hwithin
  have hpositive := i.positive
  -- a session of another date closes before this one opens, or opens after it closes
  rcases lt_or_gt_of_ne hne with hbefore | hafter
  · have hgap := hregular.disjoint hs' hs hbefore
    linarith
  · have hgap := hregular.disjoint hs hs' hafter
    linarith

end ExchangeSchedule

end AdaptiveTrader.Readiness
