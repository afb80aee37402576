import AdaptiveTrader.Live.OrderManager

/-!
# Submission responses against trade updates

After the broker has accepted an order, two threads record what it reports: the submitting thread its
response, the stream thread the updates that follow. The response takes two steps, a read and a
write; an update takes four: the lookup of its fingerprint, the read, the write and the fill. A
schedule orders the steps of both threads, and the first exception ends the run.

The updates alone follow the history of the broker (`StreamAt`, `runStream_iff`). The response joins
them at two positions of the schedule, and `ResponseFits` says which positions leave the row as the
broker reported it last. `commutes_iff` proves the condition exact.
-/

set_option autoImplicit false

namespace AdaptiveTrader.Live

open Foundation

section

variable [ContentHasher]

/-! ## Threads and schedules -/

inductive Actor
  | response
  | stream
  deriving DecidableEq

/-- Where the submitting thread is, after the broker has returned the order. -/
inductive ResponseStep
  | start
  | holding (current : LocalOrderState)
  | recorded

/-- Where the stream is in the call for the next update. -/
inductive StreamStep
  | start
  | unseen
  | holding (reading : OrderReading)
  | written (reading : OrderReading) (changed : Bool)

/-- Both threads and the tables they share. -/
structure Race where
  db : OrderTables
  response : ResponseStep
  pending : List TradeUpdate
  stream : StreamStep

/-- The end of a call: the stream turns to the next update. -/
def Race.endCall (r : Race) (db : OrderTables) : Race :=
  { r with db := db, pending := r.pending.tail, stream := .start }

/-- The next step of `submit_intent`. -/
def stepResponse (order : BrokerOrderState) (r : Race) : Except LiveError Race :=
  match r.response with
  | .start => do
      let current ← readForTransition order.clientOrderId (stateForBrokerStatus order.status) r.db
      pure { r with response := .holding current }
  | .holding current => do
      let written ← writeResponse order.clientOrderId order current r.db
      pure { r with db := written.2, response := .recorded }
  | .recorded => .ok r

/-- The next step of `process_trade_update` for the first pending update. -/
def stepUpdate (runId : String) (u : TradeUpdate) (r : Race) : Except LiveError Race :=
  match r.stream with
  | .start =>
      if r.db.hasOrderEvent u.fingerprint = true then .ok (r.endCall r.db)
      else .ok { r with stream := .unseen }
  | .unseen => do
      let reading ← readForUpdate u r.db
      pure (reading.elim (r.endCall (r.db.recordIncident (unknownOrderIncident runId u)))
        fun reading => { r with stream := .holding reading })
  | .holding reading => do
      let written ← writeUpdate u reading r.db
      pure { r with db := written.2, stream := .written reading written.1 }
  | .written reading changed => do
      let filled ← writeFill u reading changed r.db
      pure (r.endCall filled.2)

/-- The next step of the stream; it rests when no update is pending. -/
def stepStream (runId : String) (r : Race) : Except LiveError Race :=
  match r.pending with
  | [] => .ok r
  | u :: _ => stepUpdate runId u r

/-- One step of either thread. -/
def Race.step (runId : String) (order : BrokerOrderState) (r : Race) :
    Actor → Except LiveError Race
  | .response => stepResponse order r
  | .stream => stepStream runId r

/-- The steps of a schedule; the first exception ends them. -/
def runSchedule (runId : String) (order : BrokerOrderState) : List Actor → Race → Except LiveError Race
  | [], r => .ok r
  | actor :: rest, r => do
      let next ← r.step runId order actor
      runSchedule runId order rest next

/-! ## Histories -/

/-- What the broker reports of one order: its response, then its updates, in its order. Every status
is one the state machine permits after the previous one, and every update is an event of its own. -/
structure StatusHistory where
  response : BrokerOrderState
  updates : List TradeUpdate
  sameClient : ∀ u ∈ updates, u.order.clientOrderId = response.clientOrderId
  sameBroker : ∀ u ∈ updates, u.order.brokerOrderId = response.brokerOrderId
  permitted : (stateForBrokerStatus response.status :: updates.map TradeUpdate.target).IsChain
    fun s t => s.canTransition t = true
  distinct : (updates.map TradeUpdate.fingerprint).Nodup

/-- The state and the quantity a row shows. -/
structure Shown where
  state : LocalOrderState
  filled : Decimal
  deriving DecidableEq

namespace StatusHistory

variable (h : StatusHistory)

/-- What the `i`-th report shows; report 0 is the response. -/
def report : Nat → Shown
  | 0 => ⟨stateForBrokerStatus h.response.status, h.response.filledQuantity⟩
  | i + 1 =>
      match h.updates[i]? with
      | some u => ⟨u.target, u.order.filledQuantity⟩
      | none => ⟨.reconciliationRequired, h.response.filledQuantity⟩

/-- The state of the row after `i` updates alone. -/
def recorded : Nat → LocalOrderState
  | 0 => .submissionStarted
  | i + 1 => (h.report (i + 1)).state

/-- Both threads at the time the broker returns the order. -/
def start (db : OrderTables) : Race := ⟨db, .start, h.updates, .start⟩

/-- The order is submitted, and nothing the broker will report is recorded yet. -/
structure Open (db : OrderTables) : Prop where
  row : ∃ row, db.getOrder h.response.clientOrderId = some row ∧ row.state = .submissionStarted
  brokerIdFree : db.BrokerIdFree h.response.clientOrderId h.response.brokerOrderId
  responseNew :
    db.hasOrderEvent (submissionResponse h.response.clientOrderId h.response).eventKey = false
  updatesNew : ∀ u ∈ h.updates, db.hasOrderEvent u.fingerprint = false

/-- No call raises, and the row ends as the broker reported it last. -/
def Commutes (runId : String) (db : OrderTables) (schedule : List Actor) : Prop :=
  ∃ final, runSchedule runId h.response schedule (h.start db) = .ok final ∧
    ∃ row, final.db.getOrder h.response.clientOrderId = some row ∧
      row.state = (h.report h.updates.length).state ∧
      row.filledQuantity.value = (h.report h.updates.length).filled.value

/-- An interleaving of the two steps of the response with the four steps of each update. -/
def IsInterleaving (schedule : List Actor) : Prop :=
  schedule.count .response = 2 ∧ schedule.count .stream = 4 * h.updates.length

end StatusHistory

/-- The steps of the stream before the response is read. -/
def readPosition (schedule : List Actor) : Nat := schedule.idxOf .response

/-- The steps of the stream before the response is written. -/
def writePosition (schedule : List Actor) : Nat :=
  readPosition schedule + (schedule.drop (readPosition schedule + 1)).idxOf .response

/-- The updates written in the first steps of the stream; the write is the third step of each. -/
def writtenAt (position : Nat) : Nat := (position + 1) / 4

/-- The response fits between the updates when it is read after `read` and written after `write` steps
of the stream. -/
structure StatusHistory.ResponseFits (h : StatusHistory) (read write : Nat) : Prop where
  /-- An update recorded before the response is one a started submission permits. -/
  firstPermitted : 0 < writtenAt write →
    LocalOrderState.canTransition .submissionStarted (h.report 1).state = true
  /-- The state that was read permits the response. -/
  permitted : (h.recorded (writtenAt read)).canTransition (h.report 0).state = true
  /-- The row still shows that state when the response is written. -/
  unchanged : h.recorded (writtenAt write) = h.recorded (writtenAt read)
  /-- An update that has been read finds the state it has read; the next one is permitted. -/
  next : writtenAt write < h.updates.length →
    if write % 4 = 2 then (h.report 0).state = h.recorded (writtenAt write)
    else (h.report 0).state.canTransition (h.report (writtenAt write + 1)).state = true
  /-- A response recorded last says what the last update says. -/
  last : writtenAt write = h.updates.length →
    (h.report 0).state = (h.report h.updates.length).state ∧
      (h.report 0).filled.value = (h.report h.updates.length).filled.value

/-! ## The stream alone -/

/-- What the row shows once `i` updates are written, of which the first `m` were followed by the
value `v`. -/
def StatusHistory.cell (h : StatusHistory) (m : Nat) (v : Shown) (i : Nat) : Shown :=
  if i ≤ m then v else h.report i

/-- The stream between the steps of a call; a reading is of the state `s`. -/
def StreamStep.At (s : LocalOrderState) : Nat → StreamStep → Prop
  | 0, .start => True
  | 1, .unseen => True
  | 2, .holding reading => reading.current = s
  | 3, .written _ _ => True
  | _, _ => False

omit [ContentHasher] in
/-- Only a reading depends on the state that was read. -/
theorem StreamStep.At.of_ne {s s' : LocalOrderState} {q : Nat} {step : StreamStep}
    (hat : StreamStep.At s q step) (hq : q ≠ 2) : StreamStep.At s' q step := by
  match q, step, hat with
  | 0, .start, _ => trivial
  | 1, .unseen, _ => trivial
  | 2, .holding _, _ => exact absurd rfl hq
  | 3, .written _ _, _ => trivial

/-- The stream in phase `q` of the call after `i` calls, with `w` updates written, when the row showed
`v` after `m` updates. -/
structure StreamAt (h : StatusHistory) (m : Nat) (v : Shown) (i w q : Nat) (r : Race) : Prop where
  le : m ≤ w
  pending : r.pending = h.updates.drop i
  phase : r.stream.At (h.cell m v i).state q
  row : ∃ row, r.db.getOrder h.response.clientOrderId = some row ∧
    row.state = (h.cell m v w).state ∧ row.filledQuantity = (h.cell m v w).filled
  brokerIdFree : r.db.BrokerIdFree h.response.clientOrderId h.response.brokerOrderId
  updatesNew : ∀ u ∈ h.updates.drop w, r.db.hasOrderEvent u.fingerprint = false

variable {h : StatusHistory} {m : Nat} {v : Shown} {r : Race} {runId : String}

theorem cell_of_le {i : Nat} (hi : i ≤ m) : h.cell m v i = v := if_pos hi

theorem cell_of_lt {i : Nat} (hi : m < i) : h.cell m v i = h.report i := if_neg (by omega)

theorem report_succ {i : Nat} {u : TradeUpdate} (hu : h.updates[i]? = some u) :
    h.report (i + 1) = ⟨u.target, u.order.filledQuantity⟩ := by
  simp only [StatusHistory.report, hu]

/-- Consecutive reports are permitted. -/
theorem report_permitted {i : Nat} (hi : i < h.updates.length) :
    (h.report i).state.canTransition (h.report (i + 1)).state = true := by
  have hchain := h.permitted
  rw [List.isChain_iff_getElem] at hchain
  have hstep := hchain i (by simpa using hi)
  rw [report_succ (List.getElem?_eq_getElem hi)]
  cases i with
  | zero => simpa [StatusHistory.report] using hstep
  | succ i =>
      rw [report_succ (List.getElem?_eq_getElem (show i < h.updates.length by omega))]
      simpa using hstep

/-- The event key of the response is no fingerprint. -/
theorem fingerprint_ne_response (u : TradeUpdate) (order : BrokerOrderState) :
    u.fingerprint ≠ (submissionResponse order.clientOrderId order).eventKey := by
  intro heq
  have hhead : (submissionResponse order.clientOrderId order).eventKey.toList.head? = some 's' := by
    simp [submissionResponse, String.toList_append]
  rcases u.fingerprint_head with he | hh
  · rw [heq, hhead] at he
    cases he
  · rw [heq, hhead] at hh
    cases hh

/-- The read of an update. -/
theorem readForUpdate_eq {i : Nat} {u : TradeUpdate} {db : OrderTables} {row : BrokerOrderRow}
    (hu : h.updates[i]? = some u) (hrow : db.getOrder h.response.clientOrderId = some row) :
    readForUpdate u db = (row.state.validate u.target).map fun _ =>
      some ⟨row.state, row.filledQuantity⟩ := by
  have hclient := h.sameClient u (List.mem_of_getElem? hu)
  unfold readForUpdate
  rw [hclient, hrow]
  rfl

namespace StreamAt

variable {i w q : Nat} {u : TradeUpdate}

/-- The update the stream is in the call for. -/
theorem pending_eq (hat : StreamAt h m v i w q r) (hu : h.updates[i]? = some u) :
    r.pending = u :: h.updates.drop (i + 1) := by
  obtain ⟨hlt, rfl⟩ := List.getElem?_eq_some_iff.1 hu
  rw [hat.pending]
  exact List.drop_eq_getElem_cons hlt

theorem isNew (hat : StreamAt h m v i i q r) (hu : h.updates[i]? = some u) :
    r.db.hasOrderEvent u.fingerprint = false := by
  apply hat.updatesNew u
  rw [← hat.pending, hat.pending_eq hu]
  exact List.mem_cons_self

attribute [local simp] stepStream stepUpdate StreamStep.At in
/-- The lookup of a fingerprint. -/
theorem step_lookup (hat : StreamAt h m v i i 0 r) (hu : h.updates[i]? = some u) :
    ∃ r', stepStream runId r = .ok r' ∧ StreamAt h m v i i 1 r' ∧ r'.response = r.response := by
  have hphase := hat.phase
  cases hstream : r.stream with
  | start =>
      refine ⟨{ r with stream := .unseen }, ?_, ?_, rfl⟩
      · simp [stepStream, hat.pending_eq hu, stepUpdate, hstream, hat.isNew hu]
      · exact ⟨hat.le, hat.pending, trivial, hat.row, hat.brokerIdFree, hat.updatesNew⟩
  | unseen => simp [hstream, StreamStep.At] at hphase
  | holding reading => simp [hstream, StreamStep.At] at hphase
  | written reading changed => simp [hstream, StreamStep.At] at hphase

/-- The read of an update that the row permits. -/
theorem step_read (hat : StreamAt h m v i i 1 r) (hu : h.updates[i]? = some u)
    (hpermitted : (h.cell m v i).state.canTransition u.target = true) :
    ∃ r', stepStream runId r = .ok r' ∧ StreamAt h m v i i 2 r' ∧ r'.response = r.response := by
  have hphase := hat.phase
  obtain ⟨row, hrow, hstate, hfilled⟩ := hat.row
  have hread : readForUpdate u r.db = .ok (some ⟨row.state, row.filledQuantity⟩) := by
    rw [readForUpdate_eq hu hrow, hstate, LocalOrderState.validate_eq_ok (u := ()) |>.2 hpermitted]
    rfl
  cases hstream : r.stream with
  | unseen =>
      refine ⟨{ r with stream := .holding ⟨row.state, row.filledQuantity⟩ }, ?_, ?_, rfl⟩
      · simp [stepStream, hat.pending_eq hu, stepUpdate, hstream, hread, bind, Except.bind, pure,
          Except.pure]
      · exact ⟨hat.le, hat.pending, hstate, hat.row, hat.brokerIdFree, hat.updatesNew⟩
  | start => simp [hstream, StreamStep.At] at hphase
  | holding reading => simp [hstream, StreamStep.At] at hphase
  | written reading changed => simp [hstream, StreamStep.At] at hphase

/-- The read of an update that the row does not permit raises. -/
theorem step_read_raises (hat : StreamAt h m v i i 1 r) (hu : h.updates[i]? = some u)
    (hdenied : (h.cell m v i).state.canTransition u.target = false) (r' : Race) :
    stepStream runId r ≠ .ok r' := by
  have hphase := hat.phase
  obtain ⟨row, hrow, hstate, -⟩ := hat.row
  have hread := readForUpdate_eq hu hrow
  rw [hstate, LocalOrderState.validate, hdenied] at hread
  cases hstream : r.stream with
  | unseen =>
      simp [stepStream, hat.pending_eq hu, stepUpdate, hstream, hread, rejectIf, Except.map, bind,
        Except.bind]
  | start => simp [hstream, StreamStep.At] at hphase
  | holding reading => simp [hstream, StreamStep.At] at hphase
  | written reading changed => simp [hstream, StreamStep.At] at hphase

/-- The tables after the write of an update: the row shows it, and the later updates are still
new. -/
theorem of_write (hat : StreamAt h m v i i q r) (hu : h.updates[i]? = some u)
    {row : BrokerOrderRow} {reading : OrderReading} :
    StreamAt h m v i (i + 1) 3 { r with
      db := r.db.advance row (tradeUpdateTransition u), stream := .written reading true } := by
  have hclient := h.sameClient u (List.mem_of_getElem? hu)
  have hkey : (tradeUpdateTransition u).clientOrderId = h.response.clientOrderId := hclient
  refine ⟨Nat.le_succ_of_le hat.le, hat.pending, trivial, ?_, ?_, ?_⟩
  · have hself := getOrder_advance_self r.db row (tradeUpdateTransition u)
    rw [hkey] at hself
    refine ⟨row.advance (tradeUpdateTransition u), hself, ?_⟩
    rw [cell_of_lt (Nat.lt_succ_of_le hat.le), report_succ hu]
    constructor
    · rw [state_advance_tradeUpdate]
    · rw [filledQuantity_advance_tradeUpdate]
  · have hfree := hat.brokerIdFree
    rw [← hkey] at hfree ⊢
    exact hfree.advance row
  · intro w hw
    rw [hasOrderEvent_advance, Bool.or_eq_false_iff]
    obtain ⟨hlt, rfl⟩ := List.getElem?_eq_some_iff.1 hu
    have hsplit := List.drop_eq_getElem_cons hlt
    constructor
    · -- The updates behind the written one are other events.
      have hdistinct := (List.drop_sublist i h.updates).map TradeUpdate.fingerprint |>.nodup h.distinct
      rw [hsplit, List.map_cons, List.nodup_cons] at hdistinct
      refine decide_eq_false ?_
      intro heq
      have hsame : w.fingerprint = h.updates[i].fingerprint := heq
      exact hdistinct.1 (hsame ▸ List.mem_map_of_mem hw)
    · apply hat.updatesNew w
      rw [hsplit]
      exact List.mem_cons_of_mem _ hw

/-- The write of an update, when the row is as it was read. -/
theorem step_write (hat : StreamAt h m v i i 2 r) (hu : h.updates[i]? = some u) :
    ∃ r', stepStream runId r = .ok r' ∧ StreamAt h m v i (i + 1) 3 r' ∧
      r'.response = r.response := by
  have hphase := hat.phase
  have hmem := List.mem_of_getElem? hu
  obtain ⟨row, hrow, hstate, -⟩ := hat.row
  cases hstream : r.stream with
  | holding reading =>
      have hcurrent : reading.current = row.state := by
        rw [hstream] at hphase
        exact hphase.trans hstate.symm
      have hwrite : writeUpdate u reading r.db =
          .ok (true, r.db.advance row (tradeUpdateTransition u)) := by
        unfold writeUpdate
        rw [hcurrent]
        have hfree : r.db.BrokerIdFree u.order.clientOrderId u.order.brokerOrderId := by
          rw [h.sameClient u hmem, h.sameBroker u hmem]
          exact hat.brokerIdFree
        exact transitionOrder_fresh (hat.isNew hu)
          ((congrArg r.db.getOrder (h.sameClient u hmem)).trans hrow) rfl hfree
      have hnext : StreamAt h m v i (i + 1) 3 { r with
          db := r.db.advance row (tradeUpdateTransition u), stream := .written reading true } :=
        hat.of_write hu
      refine ⟨_, ?_, hnext, rfl⟩
      simp [stepStream, hat.pending_eq hu, stepUpdate, hstream, hwrite, bind, Except.bind, pure,
        Except.pure]
  | start => simp [hstream, StreamStep.At] at hphase
  | unseen => simp [hstream, StreamStep.At] at hphase
  | written reading changed => simp [hstream, StreamStep.At] at hphase

/-- The write of an update whose row has changed since it was read raises. -/
theorem step_write_raises {rest : List TradeUpdate} {reading : OrderReading} {row : BrokerOrderRow}
    (hpending : r.pending = u :: rest) (hstream : r.stream = .holding reading)
    (hnew : r.db.hasOrderEvent u.fingerprint = false)
    (hrow : r.db.getOrder u.order.clientOrderId = some row) (hchanged : row.state ≠ reading.current)
    (r' : Race) : stepStream runId r ≠ .ok r' := by
  intro hok
  simp only [stepStream, hpending, stepUpdate, hstream, bind_eq_ok] at hok
  obtain ⟨result, hwrite, -⟩ := hok
  exact transitionOrder_stale (t := tradeUpdateTransition u) hnew hrow hchanged result hwrite

/-- A fill of a known order changes fills only. -/
theorem writeFill_ok {reading : OrderReading} {changed : Bool} {db : OrderTables}
    {row : BrokerOrderRow} (hrow : db.getOrder u.order.clientOrderId = some row) :
    ∃ fills, writeFill u reading changed db = .ok ((), { db with fillEvents := fills }) := by
  unfold writeFill
  split
  · have hrecorded : ∃ written, recordFill
        { u with fillQuantity := some (fillDelta u reading) } "trade_update" db = .ok written :=
      recordFill_ok_of_known hrow
    obtain ⟨written, hwritten⟩ := hrecorded
    obtain ⟨fills, hfills⟩ := recordFill_tables hwritten
    exact ⟨fills, by rw [hwritten, ← hfills]; rfl⟩
  · exact ⟨db.fillEvents, rfl⟩

/-- A fill records no order event. -/
theorem writeFill_orderEvents {reading : OrderReading} {changed : Bool} {db : OrderTables}
    {result : Unit × OrderTables} (hfill : writeFill u reading changed db = .ok result)
    {key : String} : db.hasOrderEvent key = result.2.hasOrderEvent key := by
  unfold writeFill at hfill
  split at hfill
  · rw [map_eq_ok] at hfill
    obtain ⟨written, hwritten, rfl⟩ := hfill
    obtain ⟨fills, hfills⟩ := recordFill_tables hwritten
    show _ = written.2.hasOrderEvent key
    rw [hfills]
    rfl
  · cases hfill
    rfl

/-- The fill of an update ends its call. -/
theorem step_fill (hat : StreamAt h m v i (i + 1) 3 r) (hu : h.updates[i]? = some u) :
    ∃ r', stepStream runId r = .ok r' ∧ StreamAt h m v (i + 1) (i + 1) 0 r' ∧
      r'.response = r.response := by
  have hphase := hat.phase
  obtain ⟨row, hrow, hshown⟩ := hat.row
  cases hstream : r.stream with
  | written reading changed =>
      have hget : r.db.getOrder u.order.clientOrderId = some row := by
        rw [h.sameClient u (List.mem_of_getElem? hu)]
        exact hrow
      have hfilled : ∃ fills, writeFill u reading changed r.db =
          .ok ((), { r.db with fillEvents := fills }) := writeFill_ok hget
      obtain ⟨fills, hfill⟩ := hfilled
      refine ⟨r.endCall { r.db with fillEvents := fills }, ?_, ?_, rfl⟩
      · simp only [stepStream, hat.pending_eq hu, stepUpdate, hstream]
        rw [hfill]
        rfl
      · refine ⟨hat.le, ?_, trivial, ⟨row, hrow, hshown⟩, hat.brokerIdFree, hat.updatesNew⟩
        show r.pending.tail = _
        rw [hat.pending_eq hu, List.tail_cons]
  | start => simp [hstream, StreamStep.At] at hphase
  | unseen => simp [hstream, StreamStep.At] at hphase
  | holding reading => simp [hstream, StreamStep.At] at hphase

end StreamAt

/-- The stream after `j` of its steps. -/
def StreamAfter (h : StatusHistory) (m : Nat) (v : Shown) (j : Nat) (r : Race) : Prop :=
  StreamAt h m v (j / 4) (writtenAt j) (j % 4) r

/-- The read that follows the value `v` is permitted, if it is the step after `j`. -/
def ReadPermitted (h : StatusHistory) (m : Nat) (v : Shown) (j : Nat) : Prop :=
  j = 4 * m + 1 → v.state.canTransition (h.report (m + 1)).state = true

/-- The response changes nothing the stream knows until it is written. -/
theorem StreamAfter.with_response {j : Nat} (hat : StreamAfter h m v j r) (step : ResponseStep) :
    StreamAfter h m v j { r with response := step } :=
  ⟨hat.le, hat.pending, hat.phase, hat.row, hat.brokerIdFree, hat.updatesNew⟩

theorem StreamAfter.exists_update {j : Nat} (hj : j < 4 * h.updates.length) :
    ∃ u, h.updates[j / 4]? = some u :=
  ⟨h.updates[j / 4], List.getElem?_eq_getElem (by omega)⟩

variable (runId) in
/-- One step of the stream. -/
theorem StreamAfter.step {j : Nat} (hat : StreamAfter h m v j r) (hj : j < 4 * h.updates.length)
    (hread : ReadPermitted h m v j) :
    ∃ r', stepStream runId r = .ok r' ∧ StreamAfter h m v (j + 1) r' ∧ r'.response = r.response := by
  obtain ⟨u, hu⟩ := StreamAfter.exists_update hj
  unfold StreamAfter at hat ⊢
  have hcases : j % 4 = 0 ∨ j % 4 = 1 ∨ j % 4 = 2 ∨ j % 4 = 3 := by omega
  rcases hcases with hq | hq | hq | hq
  · have hcalls : (j + 1) / 4 = j / 4 := by omega
    have hwritten : writtenAt j = j / 4 ∧ writtenAt (j + 1) = j / 4 := by unfold writtenAt; omega
    rw [hq, hwritten.1] at hat
    rw [hcalls, hwritten.2, show (j + 1) % 4 = 1 by omega]
    exact hat.step_lookup hu
  · have hcalls : (j + 1) / 4 = j / 4 := by omega
    have hwritten : writtenAt j = j / 4 ∧ writtenAt (j + 1) = j / 4 := by unfold writtenAt; omega
    rw [hq, hwritten.1] at hat
    rw [hcalls, hwritten.2, show (j + 1) % 4 = 2 by omega]
    apply hat.step_read hu
    -- Behind the value `v` the reports follow one another.
    rcases Nat.eq_or_lt_of_le hat.le with hm | hm
    · have hnext := hread (by omega)
      rw [cell_of_le (by omega)]
      rw [hm, report_succ hu] at hnext
      exact hnext
    · have hnext := report_permitted (h := h) (i := j / 4) (by omega)
      rw [cell_of_lt hm]
      rw [report_succ hu] at hnext
      exact hnext
  · have hcalls : (j + 1) / 4 = j / 4 := by omega
    have hwritten : writtenAt j = j / 4 ∧ writtenAt (j + 1) = j / 4 + 1 := by
      unfold writtenAt; omega
    rw [hq, hwritten.1] at hat
    rw [hcalls, hwritten.2, show (j + 1) % 4 = 3 by omega]
    exact hat.step_write hu
  · have hcalls : (j + 1) / 4 = j / 4 + 1 := by omega
    have hwritten : writtenAt j = j / 4 + 1 ∧ writtenAt (j + 1) = j / 4 + 1 := by
      unfold writtenAt; omega
    rw [hq, hwritten.1] at hat
    rw [hcalls, hwritten.2, show (j + 1) % 4 = 0 by omega]
    exact hat.step_fill hu

/-! ## Runs of the stream -/

/-- `k` steps of the stream. -/
def runStream (runId : String) (order : BrokerOrderState) (k : Nat) (r : Race) :
    Except LiveError Race :=
  runSchedule runId order (List.replicate k .stream) r

theorem runSchedule_append (order : BrokerOrderState) (s t : List Actor) (r : Race) :
    runSchedule runId order (s ++ t) r =
      (runSchedule runId order s r >>= fun r' => runSchedule runId order t r') := by
  induction s generalizing r with
  | nil => rfl
  | cons actor rest ih =>
      simp only [List.cons_append, runSchedule]
      cases r.step runId order actor with
      | error e => rfl
      | ok next => exact ih next

theorem runStream_succ (order : BrokerOrderState) (k : Nat) (r : Race) :
    runStream runId order (k + 1) r = (stepStream runId r >>= runStream runId order k) := rfl

variable (runId) in
/-- The steps of the stream succeed as long as the read behind `v` is permitted. -/
theorem StreamAfter.run {j k : Nat} (hat : StreamAfter h m v j r)
    (hk : j + k ≤ 4 * h.updates.length)
    (hread : j ≤ 4 * m + 1 → 4 * m + 1 < j + k → ReadPermitted h m v (4 * m + 1)) :
    ∃ r', runStream runId h.response k r = .ok r' ∧ StreamAfter h m v (j + k) r' ∧
      r'.response = r.response := by
  induction k generalizing j r with
  | zero => exact ⟨r, rfl, hat, rfl⟩
  | succ k ih =>
      have hfirst : ReadPermitted h m v j := by
        intro hj
        exact hread (by omega) (by omega) rfl
      obtain ⟨next, hstep, hnext, hresponse⟩ := hat.step runId (by omega) hfirst
      obtain ⟨final, hrun, hfinal, hresponse'⟩ := ih hnext (by omega) fun h₁ h₂ =>
        hread (by omega) (by omega)
      refine ⟨final, ?_, ?_, hresponse'.trans hresponse⟩
      · rw [runStream_succ, hstep]
        exact hrun
      · rw [show j + (k + 1) = j + 1 + k by omega]
        exact hfinal

/-- When the steps of the stream succeed, the read behind `v` was permitted. -/
theorem StreamAfter.permitted_of_run {j k : Nat} {final : Race} (hat : StreamAfter h m v j r)
    (hk : j + k ≤ 4 * h.updates.length) (hrun : runStream runId h.response k r = .ok final)
    (hm : j ≤ 4 * m + 1) (hmk : 4 * m + 1 < j + k) :
    v.state.canTransition (h.report (m + 1)).state = true := by
  induction k generalizing j r with
  | zero => omega
  | succ k ih =>
      rw [runStream_succ, bind_eq_ok] at hrun
      obtain ⟨next, hstep, hrest⟩ := hrun
      by_cases hj : j = 4 * m + 1
      · -- This is the read.
        obtain ⟨u, hu⟩ := StreamAfter.exists_update (h := h) (j := j) (by omega)
        have hcalls : j / 4 = m := by omega
        have hwritten : writtenAt j = m := by unfold writtenAt; omega
        unfold StreamAfter at hat
        rw [hwritten, hcalls, show j % 4 = 1 by omega] at hat
        rw [hcalls] at hu
        by_contra hdenied
        refine hat.step_read_raises hu ?_ next hstep
        rw [cell_of_le le_rfl]
        rw [report_succ hu] at hdenied
        exact Bool.eq_false_iff.2 hdenied
      · obtain ⟨next', hstep', hnext, -⟩ := hat.step runId (by omega)
          (fun heq => absurd heq hj)
        obtain rfl : next' = next := Except.ok.inj (hstep'.symm.trans hstep)
        exact ih hnext (by omega) hrest (by omega) (by omega)

/-- What steps of the stream that succeed lead to. -/
theorem StreamAfter.of_run {j k : Nat} {final : Race} (hat : StreamAfter h m v j r)
    (hk : j + k ≤ 4 * h.updates.length) (hrun : runStream runId h.response k r = .ok final) :
    StreamAfter h m v (j + k) final ∧ final.response = r.response := by
  obtain ⟨final', hrun', hfinal, hresponse⟩ := hat.run runId hk fun h₁ h₂ _ =>
    hat.permitted_of_run hk hrun h₁ h₂
  obtain rfl : final' = final := Except.ok.inj (hrun'.symm.trans hrun)
  exact ⟨hfinal, hresponse⟩

/-- The stream records no event but those of updates. -/
theorem stepStream_hasOrderEvent {key : String} (hkey : ∀ u : TradeUpdate, u.fingerprint ≠ key)
    {r' : Race} (hstep : stepStream runId r = .ok r') (hnew : r.db.hasOrderEvent key = false) :
    r'.db.hasOrderEvent key = false := by
  unfold stepStream at hstep
  cases hpending : r.pending with
  | nil =>
      rw [hpending] at hstep
      cases hstep
      exact hnew
  | cons u rest =>
      rw [hpending] at hstep
      simp only [stepUpdate] at hstep
      cases hstream : r.stream with
      | start =>
          simp only [hstream] at hstep
          split at hstep <;> cases hstep <;> exact hnew
      | unseen =>
          simp only [hstream, bind_eq_ok, pure_eq_ok] at hstep
          obtain ⟨reading, -, rfl⟩ := hstep
          cases reading <;> exact hnew
      | holding reading =>
          simp only [hstream, bind_eq_ok, pure_eq_ok] at hstep
          obtain ⟨⟨changed, db'⟩, hwrite, rfl⟩ := hstep
          rcases transitionOrder_eq_ok.1 hwrite with ⟨-, -, rfl⟩ | ⟨-, row, -, -, -, -, rfl⟩
          · exact hnew
          · show (r.db.advance row (tradeUpdateTransition u)).hasOrderEvent key = false
            rw [hasOrderEvent_advance, Bool.or_eq_false_iff]
            exact ⟨decide_eq_false fun heq => hkey u heq.symm, hnew⟩
      | written reading changed =>
          simp only [hstream, bind_eq_ok, pure_eq_ok] at hstep
          obtain ⟨result, hfill, rfl⟩ := hstep
          exact (StreamAt.writeFill_orderEvents hfill).symm.trans hnew

theorem runStream_hasOrderEvent {key : String} (hkey : ∀ u : TradeUpdate, u.fingerprint ≠ key)
    {k : Nat} {order : BrokerOrderState} {r' : Race} (hrun : runStream runId order k r = .ok r')
    (hnew : r.db.hasOrderEvent key = false) : r'.db.hasOrderEvent key = false := by
  induction k generalizing r with
  | zero =>
      cases hrun
      exact hnew
  | succ k ih =>
      rw [runStream_succ, bind_eq_ok] at hrun
      obtain ⟨next, hstep, hrest⟩ := hrun
      exact ih hrest (stepStream_hasOrderEvent hkey hstep hnew)

/-! ## The response between the updates -/

/-- What the row of a started submission shows. -/
def startedShown (row : BrokerOrderRow) : Shown := ⟨.submissionStarted, row.filledQuantity⟩

theorem state_cell_started (row : BrokerOrderRow) (i : Nat) :
    (h.cell 0 (startedShown row) i).state = h.recorded i := by
  cases i with
  | zero => rw [cell_of_le le_rfl]; rfl
  | succ i => rw [cell_of_lt (Nat.succ_pos i)]; rfl

theorem Open.streamAfter {db : OrderTables} (hopen : h.Open db) :
    ∃ row, StreamAfter h 0 (startedShown row) 0 (h.start db) := by
  obtain ⟨row, hrow, hstate⟩ := hopen.row
  refine ⟨row, Nat.zero_le _, rfl, trivial, ⟨row, hrow, ?_, ?_⟩, hopen.brokerIdFree, ?_⟩
  · rw [state_cell_started, hstate]
    rfl
  · rw [show writtenAt 0 = 0 from rfl, cell_of_le le_rfl]
    rfl
  · exact hopen.updatesNew

section Response

variable {j : Nat} {started : BrokerOrderRow}

/-- The read of the response succeeds when the row permits it. -/
theorem stepResponse_read (hat : StreamAfter h 0 (startedShown started) j r)
    (hresponse : r.response = .start) (r' : Race) :
    stepResponse h.response r = .ok r' ↔
      (h.recorded (writtenAt j)).canTransition (h.report 0).state = true ∧
        r' = { r with response := .holding (h.recorded (writtenAt j)) } := by
  obtain ⟨row, hrow, hstate, -⟩ := hat.row
  rw [state_cell_started] at hstate
  simp only [stepResponse, hresponse, readForTransition, bind_eq_ok, require_eq_ok,
    LocalOrderState.validate_eq_ok, pure_eq_ok]
  constructor
  · rintro ⟨current, ⟨row', hrow', -, hpermitted, rfl⟩, rfl⟩
    obtain rfl : row = row' := Option.some.inj (hrow.symm.trans hrow')
    rw [hstate] at hpermitted ⊢
    exact ⟨hpermitted, rfl⟩
  · rintro ⟨hpermitted, rfl⟩
    refine ⟨row.state, ⟨row, hrow, (), ?_, rfl⟩, ?_⟩
    · rw [hstate]
      exact hpermitted
    · rw [hstate]

/-- The tables after the response is written. -/
def Race.respond (r : Race) (order : BrokerOrderState) (row : BrokerOrderRow) : Race :=
  { r with
    db := r.db.advance row (submissionResponse order.clientOrderId order), response := .recorded }

/-- The write of the response succeeds when the row is as it was read. -/
theorem stepResponse_write (hat : StreamAfter h 0 (startedShown started) j r)
    {current : LocalOrderState} (hresponse : r.response = .holding current)
    (hnew : r.db.hasOrderEvent
      (submissionResponse h.response.clientOrderId h.response).eventKey = false) (r' : Race) :
    stepResponse h.response r = .ok r' ↔ h.recorded (writtenAt j) = current ∧
      ∃ row, r.db.getOrder h.response.clientOrderId = some row ∧ r' = r.respond h.response row := by
  obtain ⟨row, hrow, hstate, -⟩ := hat.row
  rw [state_cell_started] at hstate
  simp only [stepResponse, hresponse, bind_eq_ok, pure_eq_ok]
  constructor
  · rintro ⟨⟨changed, db'⟩, hwrite, rfl⟩
    rcases transitionOrder_eq_ok.1 hwrite with ⟨hold, -⟩ | ⟨-, row', hrow', hmem, -, -, rfl⟩
    · exact absurd (hold.symm.trans hnew) (by decide)
    · obtain rfl : row = row' := Option.some.inj (hrow.symm.trans hrow')
      exact ⟨hstate.symm.trans (List.mem_singleton.1 hmem), row, hrow, rfl⟩
  · rintro ⟨hcurrent, row', hrow', rfl⟩
    obtain rfl : row = row' := Option.some.inj (hrow.symm.trans hrow')
    have hallowed : row.state = current := hstate.trans hcurrent
    refine ⟨(true, r.db.advance row (submissionResponse h.response.clientOrderId h.response)), ?_,
      rfl⟩
    unfold writeResponse
    rw [← hallowed]
    have hid : (submissionResponse h.response.clientOrderId h.response).brokerOrderId =
        some h.response.brokerOrderId := rfl
    exact transitionOrder_fresh hnew hrow hid hat.brokerIdFree

/-- Behind the response the stream goes on from what the response shows, unless an update has been
read whose state the response replaces. -/
theorem StreamAfter.respond (hat : StreamAfter h 0 (startedShown started) j r)
    (row : BrokerOrderRow)
    (hread : j % 4 = 2 → (h.report 0).state = h.recorded (writtenAt j)) :
    StreamAfter h (writtenAt j) (h.report 0) j (r.respond h.response row) := by
  refine ⟨le_rfl, hat.pending, ?_, ?_, ?_, ?_⟩
  · have hphase := hat.phase
    rw [state_cell_started] at hphase
    have hcases : j % 4 = 2 ∨ j % 4 ≠ 2 := em _
    rcases hcases with hq | hq
    · have hwritten : writtenAt j = j / 4 := by unfold writtenAt; omega
      rw [cell_of_le (le_of_eq hwritten.symm), hread hq, hwritten]
      exact hphase
    · exact StreamStep.At.of_ne hphase hq
  · have hself := getOrder_advance_self r.db row
      (submissionResponse h.response.clientOrderId h.response)
    refine ⟨_, hself, ?_⟩
    rw [cell_of_le le_rfl]
    constructor
    · rw [state_advance_submissionResponse]
      rfl
    · rw [filledQuantity_advance_submissionResponse]
      rfl
  · exact hat.brokerIdFree.advance (t := submissionResponse h.response.clientOrderId h.response) row
  · intro u hu
    show (r.db.advance row (submissionResponse h.response.clientOrderId h.response)).hasOrderEvent
      u.fingerprint = false
    rw [hasOrderEvent_advance, Bool.or_eq_false_iff]
    exact ⟨decide_eq_false (fingerprint_ne_response u h.response), hat.updatesNew u hu⟩

/-- An update that was read before the response replaced its state raises. -/
theorem StreamAfter.respond_raises (hat : StreamAfter h 0 (startedShown started) j r)
    (hj : j < 4 * h.updates.length) (hq : j % 4 = 2) (row : BrokerOrderRow)
    (hreplaced : (h.report 0).state ≠ h.recorded (writtenAt j)) (r' : Race) :
    stepStream runId (r.respond h.response row) ≠ .ok r' := by
  obtain ⟨u, hu⟩ := StreamAfter.exists_update hj
  have hwritten : writtenAt j = j / 4 := by unfold writtenAt; omega
  unfold StreamAfter at hat
  rw [hwritten, hq] at hat
  have hphase := hat.phase
  rw [state_cell_started, ← hwritten] at hphase
  cases hstream : r.stream with
  | holding reading =>
      rw [hstream] at hphase
      have hcurrent : reading.current = h.recorded (writtenAt j) := hphase
      have hself := getOrder_advance_self r.db row
        (submissionResponse h.response.clientOrderId h.response)
      have hnew : (r.respond h.response row).db.hasOrderEvent u.fingerprint = false := by
        show (r.db.advance row
          (submissionResponse h.response.clientOrderId h.response)).hasOrderEvent u.fingerprint = false
        rw [hasOrderEvent_advance, Bool.or_eq_false_iff]
        exact ⟨decide_eq_false (fingerprint_ne_response u h.response), hat.isNew hu⟩
      have hrow : (r.respond h.response row).db.getOrder u.order.clientOrderId =
          some (row.advance (submissionResponse h.response.clientOrderId h.response)) := by
        rw [h.sameClient u (List.mem_of_getElem? hu)]
        exact hself
      have hpending : (r.respond h.response row).pending = u :: h.updates.drop (j / 4 + 1) :=
        hat.pending_eq hu
      refine StreamAt.step_write_raises hpending hstream hnew hrow ?_ r'
      rw [state_advance_submissionResponse, hcurrent]
      exact hreplaced
  | start => simp [hstream, StreamStep.At] at hphase
  | unseen => simp [hstream, StreamStep.At] at hphase
  | written reading changed => simp [hstream, StreamStep.At] at hphase

end Response

/-! ## Schedules -/

omit [ContentHasher] in
/-- A schedule without the response is steps of the stream. -/
theorem eq_replicate_of_count {s : List Actor} (hcount : s.count .response = 0) :
    s = List.replicate s.length .stream := by
  refine List.eq_replicate_of_mem ?_
  intro actor hmem
  cases actor with
  | stream => rfl
  | response => exact absurd hmem (List.count_eq_zero.1 hcount)

omit [ContentHasher] in
/-- The steps of a schedule around its first step of the response. -/
theorem split_at_response {s : List Actor} (hmem : Actor.response ∈ s) :
    s = List.replicate (s.idxOf .response) .stream ++
      .response :: s.drop (s.idxOf .response + 1) := by
  induction s with
  | nil => cases hmem
  | cons actor rest ih =>
      cases actor with
      | response => simp
      | stream =>
          have hrest : Actor.response ∈ rest := by simpa using hmem
          have hidx : (Actor.stream :: rest).idxOf .response = rest.idxOf .response + 1 :=
            List.idxOf_cons_ne rest (by decide)
          rw [hidx, List.replicate_succ, List.drop_succ_cons, List.cons_append]
          exact congrArg _ (ih hrest)

/-- An interleaving is steps of the stream with the read and the write of the response in their
positions. -/
theorem interleaving_split {s : List Actor} (hs : h.IsInterleaving s) :
    ∃ c d, writePosition s = readPosition s + c ∧ readPosition s + c + d = 4 * h.updates.length ∧
      s = List.replicate (readPosition s) .stream ++ .response ::
        (List.replicate c .stream ++ .response :: List.replicate d .stream) := by
  have hmem : Actor.response ∈ s := by
    rw [← List.count_pos_iff, hs.1]
    decide
  have hfirst : s = List.replicate (readPosition s) .stream ++
      .response :: s.drop (readPosition s + 1) := split_at_response hmem
  set rest := s.drop (readPosition s + 1) with hrest
  have hrestCount : rest.count .response = 1 := by
    have hcount := hs.1
    rw [hfirst] at hcount
    simpa [List.count_append, List.count_replicate] using hcount
  have hmem' : Actor.response ∈ rest := by
    rw [← List.count_pos_iff, hrestCount]
    decide
  have hsecond := split_at_response hmem'
  have hlast : (rest.drop (rest.idxOf .response + 1)).count .response = 0 := by
    have hcount := hrestCount
    rw [hsecond] at hcount
    simpa [List.count_append, List.count_replicate] using hcount
  have hall := hfirst
  rw [hsecond, eq_replicate_of_count hlast] at hall
  refine ⟨rest.idxOf .response, _, rfl, ?_, hall⟩
  have hcount := hs.2
  rw [hall] at hcount
  simpa [List.count_append, List.count_replicate, add_assoc] using hcount

/-! ## The exact condition -/

section Condition

variable {db : OrderTables} {started : BrokerOrderRow} {a c d : Nat}

/-- The runs of a schedule with the response at two positions. -/
theorem runSchedule_split (order : BrokerOrderState) (start final : Race) :
    runSchedule runId order (List.replicate a .stream ++ .response ::
        (List.replicate c .stream ++ .response :: List.replicate d .stream)) start = .ok final ↔
      ∃ r₁ r₂ r₃ r₄, runStream runId order a start = .ok r₁ ∧ stepResponse order r₁ = .ok r₂ ∧
        runStream runId order c r₂ = .ok r₃ ∧ stepResponse order r₃ = .ok r₄ ∧
          runStream runId order d r₄ = .ok final := by
  simp only [runSchedule_append, runSchedule, bind_eq_ok, Race.step, runStream]
  constructor
  · rintro ⟨r₁, h₁, r₂, h₂, r₃, h₃, r₄, h₄, h₅⟩
    exact ⟨r₁, r₂, r₃, r₄, h₁, h₂, h₃, h₄, h₅⟩
  · rintro ⟨r₁, r₂, r₃, r₄, h₁, h₂, h₃, h₄, h₅⟩
    exact ⟨r₁, h₁, r₂, h₂, r₃, h₃, r₄, h₄, h₅⟩

/-- The row after all updates. -/
theorem StreamAfter.final_row (hat : StreamAfter h m v (4 * h.updates.length) r) :
    ∃ row, r.db.getOrder h.response.clientOrderId = some row ∧
      row.state = (h.cell m v h.updates.length).state ∧
      row.filledQuantity = (h.cell m v h.updates.length).filled := by
  have hrow := hat.row
  rwa [show writtenAt (4 * h.updates.length) = h.updates.length by unfold writtenAt; omega] at hrow

theorem writtenAt_le {j : Nat} (hj : j ≤ 4 * h.updates.length) :
    writtenAt j ≤ h.updates.length := by
  unfold writtenAt
  omega

/-- A run that succeeds and ends as reported fits. -/
theorem responseFits_of_commutes (hopen : h.Open db)
    (hat : StreamAfter h 0 (startedShown started) 0 (h.start db))
    (htotal : a + c + d = 4 * h.updates.length) {r₁ r₂ r₃ r₄ final : Race}
    (h₁ : runStream runId h.response a (h.start db) = .ok r₁)
    (h₂ : stepResponse h.response r₁ = .ok r₂) (h₃ : runStream runId h.response c r₂ = .ok r₃)
    (h₄ : stepResponse h.response r₃ = .ok r₄) (h₅ : runStream runId h.response d r₄ = .ok final)
    {row : BrokerOrderRow} (hrow : final.db.getOrder h.response.clientOrderId = some row)
    (hstate : row.state = (h.report h.updates.length).state)
    (hfilled : row.filledQuantity.value = (h.report h.updates.length).filled.value) :
    h.ResponseFits a (a + c) := by
  have hkey := fun u => fingerprint_ne_response u h.response
  obtain ⟨hat₁, hresponse₁⟩ := hat.of_run (by omega) h₁
  rw [Nat.zero_add] at hat₁
  obtain ⟨hpermitted, rfl⟩ := (stepResponse_read hat₁ hresponse₁ r₂).1 h₂
  have hat₂ : StreamAfter h 0 (startedShown started) a
    { r₁ with response := .holding (h.recorded (writtenAt a)) } := hat₁.with_response _
  obtain ⟨hat₃, hresponse₃⟩ := hat₂.of_run (by omega) h₃
  have hnew₁ := runStream_hasOrderEvent hkey h₁ hopen.responseNew
  have hnew₃ := runStream_hasOrderEvent hkey h₃ hnew₁
  obtain ⟨hunchanged, row', hrow', rfl⟩ := (stepResponse_write hat₃ hresponse₃ hnew₃ r₄).1 h₄
  have hwrittenLe := writtenAt_le (h := h) (j := a + c) (by omega)
  -- A reading whose state the response replaces ends in an exception.
  have hread : (a + c) % 4 = 2 → (h.report 0).state = h.recorded (writtenAt (a + c)) := by
    intro hq
    by_contra hreplaced
    obtain ⟨k, rfl⟩ : ∃ k, d = k + 1 := ⟨d - 1, by omega⟩
    rw [runStream_succ, bind_eq_ok] at h₅
    obtain ⟨next, hstep, -⟩ := h₅
    exact hat₃.respond_raises (by omega) hq row' hreplaced next hstep
  have hat₄ := hat₃.respond row' hread
  obtain ⟨hat₅, -⟩ := hat₄.of_run (by omega) h₅
  rw [htotal] at hat₅
  refine ⟨?_, hpermitted, hunchanged, ?_, ?_⟩
  · intro hpos
    have hposition : 3 ≤ a + c := by
      unfold writtenAt at hpos
      omega
    by_cases ha : 1 < a
    · exact hat.permitted_of_run (by omega) h₁ (by omega) (by omega)
    · exact hat₂.permitted_of_run (by omega) h₃ (by omega) (by omega)
  · intro hlt
    split
    · next hq => exact hread hq
    · next hq =>
        have hposition : a + c ≤ 4 * writtenAt (a + c) + 1 := by
          unfold writtenAt
          omega
        exact hat₄.permitted_of_run (by omega) h₅ hposition (by omega)
  · intro hlast
    obtain ⟨row'', hrow'', hstate'', hfilled''⟩ := hat₅.final_row
    obtain rfl : row = row'' := Option.some.inj (hrow.symm.trans hrow'')
    rw [cell_of_le (le_of_eq hlast.symm)] at hstate'' hfilled''
    exact ⟨hstate''.symm.trans hstate, (congrArg Decimal.value hfilled'').symm.trans hfilled⟩

/-- A response that fits leaves the run without exceptions and the row as reported. -/
theorem commutes_of_responseFits (runId : String) (hopen : h.Open db)
    (hat : StreamAfter h 0 (startedShown started) 0 (h.start db))
    (htotal : a + c + d = 4 * h.updates.length) (hfits : h.ResponseFits a (a + c)) :
    ∃ r₁ r₂ r₃ r₄ final, runStream runId h.response a (h.start db) = .ok r₁ ∧
      stepResponse h.response r₁ = .ok r₂ ∧ runStream runId h.response c r₂ = .ok r₃ ∧
      stepResponse h.response r₃ = .ok r₄ ∧ runStream runId h.response d r₄ = .ok final ∧
      ∃ row, final.db.getOrder h.response.clientOrderId = some row ∧
        row.state = (h.report h.updates.length).state ∧
        row.filledQuantity.value = (h.report h.updates.length).filled.value := by
  have hkey := fun u => fingerprint_ne_response u h.response
  have hwrittenLe := writtenAt_le (h := h) (j := a + c) (by omega)
  have hmiddle : (a + c) % 4 = 2 → writtenAt (a + c) < h.updates.length ∧
      (h.report 0).state = h.recorded (writtenAt (a + c)) := by
    intro hq
    have hlt : writtenAt (a + c) < h.updates.length := by
      unfold writtenAt
      omega
    have hnext := hfits.next hlt
    rw [if_pos hq] at hnext
    exact ⟨hlt, hnext⟩
  -- Before the response a first update is permitted after the started submission.
  have hfirst : 1 < a + c → LocalOrderState.canTransition .submissionStarted
      (h.report 1).state = true := by
    intro hposition
    by_cases hpos : 0 < writtenAt (a + c)
    · exact hfits.firstPermitted hpos
    · have hzero : writtenAt (a + c) = 0 := by omega
      have hq : (a + c) % 4 = 2 := by
        unfold writtenAt at hzero
        omega
      have hstarted := (hmiddle hq).2
      rw [hzero] at hstarted
      exact absurd hstarted (stateForBrokerStatus_ne_submissionStarted _)
  obtain ⟨r₁, h₁, hat₁, hresponse₁⟩ := hat.run runId (k := a) (by omega)
    fun _ hlt _ => hfirst (by omega)
  rw [Nat.zero_add] at hat₁
  have h₂ := (stepResponse_read hat₁ hresponse₁ _).2 ⟨hfits.permitted, rfl⟩
  have hat₂ : StreamAfter h 0 (startedShown started) a
    { r₁ with response := .holding (h.recorded (writtenAt a)) } := hat₁.with_response _
  obtain ⟨r₃, h₃, hat₃, hresponse₃⟩ := hat₂.run runId (k := c) (by omega)
    fun _ hlt _ => hfirst (by omega)
  have hnew₁ := runStream_hasOrderEvent hkey h₁ hopen.responseNew
  have hnew₃ := runStream_hasOrderEvent hkey h₃ hnew₁
  obtain ⟨row, hrow, -⟩ := hat₃.row
  have h₄ := (stepResponse_write hat₃ hresponse₃ hnew₃ _).2 ⟨hfits.unchanged, row, hrow, rfl⟩
  have hat₄ := hat₃.respond row fun hq => (hmiddle hq).2
  obtain ⟨final, h₅, hat₅, -⟩ := hat₄.run runId (k := d) (by omega) (by
    intro hle hlt _
    have hq : (a + c) % 4 ≠ 2 := by
      intro hq
      unfold writtenAt at hle
      omega
    have hnext := hfits.next (by omega)
    rwa [if_neg hq] at hnext)
  rw [htotal] at hat₅
  obtain ⟨row', hrow', hstate', hfilled'⟩ := hat₅.final_row
  refine ⟨r₁, _, r₃, _, final, h₁, h₂, h₃, h₄, h₅, row', hrow', ?_⟩
  rcases Nat.eq_or_lt_of_le hwrittenLe with heq | hlt
  · rw [cell_of_le (le_of_eq heq.symm)] at hstate' hfilled'
    obtain ⟨hlastState, hlastFilled⟩ := hfits.last heq
    exact ⟨hstate'.trans hlastState, (congrArg Decimal.value hfilled').trans hlastFilled⟩
  · rw [cell_of_lt hlt] at hstate' hfilled'
    exact ⟨hstate', congrArg Decimal.value hfilled'⟩

end Condition

/-- A run that commutes fits. -/
theorem StatusHistory.Commutes.responseFits {db : OrderTables} {schedule : List Actor}
    (hcommutes : h.Commutes runId db schedule) (hopen : h.Open db)
    (hschedule : h.IsInterleaving schedule) :
    h.ResponseFits (readPosition schedule) (writePosition schedule) := by
  obtain ⟨started, hat⟩ := Open.streamAfter hopen
  obtain ⟨c, d, hwrite, htotal, hsplit⟩ := interleaving_split hschedule
  obtain ⟨final, hrun, row, hrow, hstate, hfilled⟩ := hcommutes
  rw [hsplit, runSchedule_split] at hrun
  obtain ⟨r₁, r₂, r₃, r₄, h₁, h₂, h₃, h₄, h₅⟩ := hrun
  rw [hwrite]
  exact responseFits_of_commutes hopen hat htotal h₁ h₂ h₃ h₄ h₅ hrow hstate hfilled

/-- The response and the updates commute exactly when the response fits between the updates. -/
theorem commutes_iff (h : StatusHistory) {db : OrderTables} (hopen : h.Open db) (runId : String)
    {schedule : List Actor} (hschedule : h.IsInterleaving schedule) :
    h.Commutes runId db schedule ↔
      h.ResponseFits (readPosition schedule) (writePosition schedule) := by
  constructor
  · intro hcommutes
    exact hcommutes.responseFits hopen hschedule
  · intro hfits
    obtain ⟨started, hat⟩ := Open.streamAfter hopen
    obtain ⟨c, d, hwrite, htotal, hsplit⟩ := interleaving_split hschedule
    rw [hwrite] at hfits
    obtain ⟨r₁, r₂, r₃, r₄, final, h₁, h₂, h₃, h₄, h₅, hrow⟩ :=
      commutes_of_responseFits runId hopen hat htotal hfits
    refine ⟨final, ?_, hrow⟩
    rw [hsplit, runSchedule_split]
    exact ⟨r₁, r₂, r₃, r₄, h₁, h₂, h₃, h₄, h₅⟩

end

/-! ## A fill that overtakes its response -/

section Sample

local instance raceHasher : ContentHasher := polynomialHasher

/-- An order of ten shares with a status and a cumulative quantity. -/
def sampleBrokerOrder (status : String) (filled : Nat) : BrokerOrderState where
  clientOrderId := "order"
  brokerOrderId := "broker"
  symbol := "SPY"
  side := .buy
  status := status
  updatedAt := 0
  filledQuantity := .ofInt filled
  averageFillPrice := none
  filled_nonneg := by simp
  average_nonneg := nofun

/-- The fill of the whole order. -/
def sampleFillUpdate : TradeUpdate where
  event := "fill"
  order := sampleBrokerOrder "filled" 10
  timestamp := 1
  eventId := some "1"
  executionId := none
  fillQuantity := none
  fillPrice := some (.ofInt 100)

theorem stateForBrokerStatus_new : stateForBrokerStatus "new" = .submitted := by decide +kernel

theorem target_sampleFillUpdate : sampleFillUpdate.target = .filled := by decide +kernel

/-- The broker accepts the order and fills it. -/
def sampleHistory : StatusHistory where
  response := sampleBrokerOrder "new" 0
  updates := [sampleFillUpdate]
  sameClient := by simp [sampleFillUpdate, sampleBrokerOrder]
  sameBroker := by simp [sampleFillUpdate, sampleBrokerOrder]
  permitted := by
    have hnew : stateForBrokerStatus (sampleBrokerOrder "new" 0).status = .submitted :=
      stateForBrokerStatus_new
    simp only [List.map_cons, List.map_nil, hnew, target_sampleFillUpdate]
    decide
  distinct := by simp

/-- The tables with the order submitted. -/
def sampleSubmittedTables : OrderTables where
  brokerOrders := Dict.empty.set "order" {
    brokerOrderId := none
    decisionId := "decision"
    symbol := "SPY"
    state := .submissionStarted
    rawStatus := none
    filledQuantity := .ofInt 0
    averageFillPrice := none
    submissionStartedAt := some 0
    submittedAt := none
    lastUpdateAt := 0
    errorCode := none
    errorMessage := none }
  orderEvents := Dict.empty
  fillEvents := Dict.empty
  systemIncidents := []

theorem sampleHistory_open : sampleHistory.Open sampleSubmittedTables where
  row := ⟨_, Dict.get?_set_self .., rfl⟩
  brokerIdFree id hid row hrow := by
    have hnone : sampleSubmittedTables.getOrder id = none :=
      (Dict.get?_set_of_ne _ _ hid).trans rfl
    rw [hnone] at hrow
    cases hrow
  responseNew := rfl
  updatesNew := fun _ _ => rfl

/-- Every update is processed before the response is recorded. -/
def overtakingSchedule : List Actor :=
  [.stream, .stream, .stream, .stream, .response, .response]

/-- The response is recorded before any update is processed. -/
def promptSchedule : List Actor := [.response, .response, .stream, .stream, .stream, .stream]

/-- The response of an order that is filled by then is no permitted transition. -/
theorem overtaken_response_fails : sampleHistory.Open sampleSubmittedTables ∧
    sampleHistory.IsInterleaving overtakingSchedule ∧
      ¬ sampleHistory.Commutes "run" sampleSubmittedTables overtakingSchedule := by
  have hschedule : sampleHistory.IsInterleaving overtakingSchedule := by
    constructor <;> rfl
  refine ⟨sampleHistory_open, hschedule, ?_⟩
  intro hcommutes
  have hpermitted := (hcommutes.responseFits sampleHistory_open hschedule).permitted
  have hrecorded : sampleHistory.recorded (writtenAt (readPosition overtakingSchedule)) = .filled :=
    target_sampleFillUpdate
  have hresponse : (sampleHistory.report 0).state = .submitted := stateForBrokerStatus_new
  rw [hrecorded, hresponse] at hpermitted
  exact absurd hpermitted (by decide)

/-- A prompt response and the fill commute. -/
theorem prompt_response_commutes :
    sampleHistory.Commutes "run" sampleSubmittedTables promptSchedule := by
  have hresponse : (sampleHistory.report 0).state = .submitted := stateForBrokerStatus_new
  have hfill : (sampleHistory.report 1).state = .filled := target_sampleFillUpdate
  refine (commutes_iff sampleHistory sampleHistory_open "run" (by constructor <;> rfl)).2 ?_
  refine ⟨fun hpos => absurd hpos (by decide), ?_, rfl, fun _ => ?_, fun hlast => ?_⟩
  · rw [hresponse]
    decide
  · rw [if_neg (by decide)]
    show (sampleHistory.report 0).state.canTransition (sampleHistory.report 1).state = true
    rw [hresponse, hfill]
    decide
  · exact absurd hlast (by decide)

end Sample

end AdaptiveTrader.Live
