import AdaptiveTrader.Foundation.OrderedLocks
import AdaptiveTrader.Foundation.Sorted
import AdaptiveTrader.Platform.Domain

/-!
# Advisory locks of a transaction

PostgreSQL's transaction-scoped advisory locks, as the transaction coordinator takes them. A lock is
a namespace and a signed 32-bit key; the locks are ordered by namespace, then by key. The coordinator
keeps, with the connection, the locks the running transaction acquired and the last of them: a lock
it has is not requested again, a lock below the last one is refused before any SQL is sent.

`acquirePostgresAdvisoryLock` is the code up to its SQL statement, `PostgresConnection.granted` the
code behind it: between the two the transaction waits. `advisoryLocking` is any number of connections
interleaved at these points, each running one transaction after another. It takes locks in ascending
order (`advisoryLocking_simulates`), which excludes circular waiting.
-/

set_option autoImplicit false

namespace AdaptiveTrader.Storage

open Foundation

/-! ## Lock requests -/

/-- The purposes locks are taken for. -/
inductive PostgresAdvisoryLockNamespace
  | experiment
  | marketDataWatermark
  | marketDataIdentity
  | datasetManifest
  | riskSignal
  | riskLatch
  | executionExperiment
  | executionPlan
  | orderClientId
  | reconciliation
  | audit
  deriving DecidableEq

/-- The global acquisition order. -/
def PostgresAdvisoryLockNamespace.value : PostgresAdvisoryLockNamespace → Int
  | experiment => 5
  | marketDataWatermark => 10
  | marketDataIdentity => 20
  | datasetManifest => 30
  | riskSignal => 40
  | riskLatch => 50
  | executionExperiment => 55
  | executionPlan => 60
  | orderClientId => 70
  | reconciliation => 80
  | audit => 90

theorem PostgresAdvisoryLockNamespace.value_injective :
    Function.Injective PostgresAdvisoryLockNamespace.value := by
  intro a b hab
  cases a <;> cases b <;> first | rfl | cases hab

def minSigned32BitInteger : Int := -2 ^ 31
def maxSigned32BitInteger : Int := 2 ^ 31 - 1

/-- One two-integer lock request. -/
structure PostgresAdvisoryLockRequest where
  lockNamespace : PostgresAdvisoryLockNamespace
  resourceKey : Int
  signed : minSigned32BitInteger ≤ resourceKey ∧ resourceKey ≤ maxSigned32BitInteger
  deriving DecidableEq

namespace PostgresAdvisoryLockRequest

/-- The tuple requests are compared by. -/
def sortKey (r : PostgresAdvisoryLockRequest) : Int ×ₗ Int :=
  toLex (r.lockNamespace.value, r.resourceKey)

theorem sortKey_injective : Function.Injective sortKey := by
  intro a b hab
  obtain ⟨ns, key, hkey⟩ := a
  obtain ⟨ns', key', hkey'⟩ := b
  obtain ⟨hns, rfl⟩ := Prod.mk.inj (toLex.injective hab)
  obtain rfl := PostgresAdvisoryLockNamespace.value_injective hns
  rfl

instance : LinearOrder PostgresAdvisoryLockRequest := LinearOrder.lift' sortKey sortKey_injective

theorem lt_iff {a b : PostgresAdvisoryLockRequest} :
    a < b ↔ a.lockNamespace.value < b.lockNamespace.value ∨
      (a.lockNamespace.value = b.lockNamespace.value ∧ a.resourceKey < b.resourceKey) :=
  Prod.Lex.toLex_lt_toLex

end PostgresAdvisoryLockRequest

/-- `[A-Za-z0-9_.:/|-]`. -/
def isLockResourceTail (c : Char) : Bool := isIdentifierTail c || c == '/' || c == '|'

/-- `^[A-Za-z0-9][A-Za-z0-9_.:/|-]{0,511}$`. -/
def isLockResource (s : String) : Bool :=
  matchesHeadTail (fun c => isUpper c || isLower c || isDigit c) isLockResourceTail 511 s.toList

/-- The value of a hexadecimal digit. -/
def hexDigitValue (c : Char) : Nat := if isDigit c then c.toNat - 48 else c.toNat - 87

/-- `int(text, 16)`. -/
def hexValue (cs : List Char) : Nat := cs.foldl (fun acc c => acc * 16 + hexDigitValue c) 0

theorem isDigit_iff {c : Char} : isDigit c = true ↔ 48 ≤ c.toNat ∧ c.toNat ≤ 57 := by
  simp only [isDigit, Bool.and_eq_true, decide_eq_true_eq, Char.le_def, UInt32.le_iff_toNat_le]
  exact Iff.rfl

theorem isHexDigit_iff {c : Char} :
    isHexDigit c = true ↔ (48 ≤ c.toNat ∧ c.toNat ≤ 57) ∨ (97 ≤ c.toNat ∧ c.toNat ≤ 102) := by
  simp only [isHexDigit, Bool.or_eq_true, isDigit_iff, Bool.and_eq_true, decide_eq_true_eq,
    Char.le_def, UInt32.le_iff_toNat_le]
  exact Iff.rfl

theorem hexDigitValue_lt {c : Char} (h : isHexDigit c = true) : hexDigitValue c < 16 := by
  rw [isHexDigit_iff] at h
  simp only [hexDigitValue, isDigit_iff]
  split <;> omega

/-- Digits in front of the rest count by their place. -/
theorem hexValue_foldl_lt {cs : List Char} (h : ∀ c ∈ cs, isHexDigit c = true) :
    ∀ acc, cs.foldl (fun acc c => acc * 16 + hexDigitValue c) acc < (acc + 1) * 16 ^ cs.length := by
  induction cs with
  | nil => intro acc; simp
  | cons c rest ih =>
      intro acc
      have hc := hexDigitValue_lt (h c List.mem_cons_self)
      have hrest := ih (fun d hd => h d (List.mem_cons_of_mem _ hd)) (acc * 16 + hexDigitValue c)
      have hle : acc * 16 + hexDigitValue c + 1 ≤ (acc + 1) * 16 := by omega
      calc (c :: rest).foldl (fun acc c => acc * 16 + hexDigitValue c) acc
          < (acc * 16 + hexDigitValue c + 1) * 16 ^ rest.length := hrest
        _ ≤ (acc + 1) * 16 * 16 ^ rest.length := Nat.mul_le_mul_right _ hle
        _ = (acc + 1) * 16 ^ (c :: rest).length := by rw [List.length_cons, pow_succ]; ring

/-- A 32-bit word read as a signed one. -/
def signed32 (unsigned : Nat) : Int := if unsigned < 2 ^ 31 then unsigned else unsigned - 2 ^ 32

theorem signed32_bounds {unsigned : Nat} (h : unsigned < 2 ^ 32) :
    minSigned32BitInteger ≤ signed32 unsigned ∧ signed32 unsigned ≤ maxSigned32BitInteger := by
  unfold signed32 minSigned32BitInteger maxSigned32BitInteger
  split <;> omega

section Resources

variable [ContentHasher]

/-- The first eight digits of the digest of a resource reference. -/
def lockResourceDigits (lockNamespace : PostgresAdvisoryLockNamespace) (resourceRef : String) :
    List Char :=
  (sha256Hex (.seq [.text "postgres-advisory-lock", .int lockNamespace.value,
    .text resourceRef])).toList.take 8

theorem hexValue_lockResourceDigits_lt (lockNamespace : PostgresAdvisoryLockNamespace)
    (resourceRef : String) : hexValue (lockResourceDigits lockNamespace resourceRef) < 2 ^ 32 := by
  have hsha := isSha256_sha256Hex (.seq [.text "postgres-advisory-lock",
    .int lockNamespace.value, .text resourceRef])
  simp only [isSha256, matchesExactly, Bool.and_eq_true, decide_eq_true_eq, List.all_eq_true] at hsha
  have hall : ∀ c ∈ lockResourceDigits lockNamespace resourceRef, isHexDigit c = true :=
    fun c hc => hsha.2 c (List.mem_of_mem_take hc)
  have hlen : (lockResourceDigits lockNamespace resourceRef).length = 8 := by
    rw [lockResourceDigits, List.length_take, hsha.1]
    decide
  have hlt := hexValue_foldl_lt hall 0
  rw [hlen] at hlt
  exact hlt.trans_eq (by decide)

/-- `PostgresAdvisoryLockRequest.for_resource`. -/
def PostgresAdvisoryLockRequest.forResource (lockNamespace : PostgresAdvisoryLockNamespace)
    (resourceRef : String) : Except PlatformError PostgresAdvisoryLockRequest := do
  rejectIf (isLockResource resourceRef = false)
    (.valueError "advisory lock resource reference is invalid")
  pure ⟨lockNamespace, signed32 (hexValue (lockResourceDigits lockNamespace resourceRef)),
    signed32_bounds (hexValue_lockResourceDigits_lt lockNamespace resourceRef)⟩

end Resources

/-! ## The coordinator -/

/-- Why a transaction boundary rejects a call. -/
inductive TransactionViolation
  | foreignConnection
  | inactiveTransaction
  | advisoryLockOrder
  | unserializedSqlite
  | unsupportedDialect
  deriving DecidableEq

/-- What the coordinator remembers of the transaction it last took locks for. -/
structure PostgresAdvisoryLockState where
  transaction : Nat
  acquired : Finset PostgresAdvisoryLockRequest := ∅
  maximum : Option PostgresAdvisoryLockRequest := none

/-- What the coordinator reads of a connection: the identity of its transaction, and the lock state
in `connection.info`, which can be one of an earlier transaction. -/
structure PostgresConnection where
  transaction : Option Nat := none
  lockState : Option PostgresAdvisoryLockState := none

namespace PostgresConnection

/-- The lock state of a transaction: a fresh one when the stored one belongs to another. -/
def stateFor (c : PostgresConnection) (transaction : Nat) : PostgresAdvisoryLockState :=
  match c.lockState with
  | some state =>
      if state.transaction = transaction then state else { transaction := transaction }
  | none => { transaction := transaction }

/-- The locks the coordinator counts as acquired by the running transaction. -/
def acquired (c : PostgresConnection) : Finset PostgresAdvisoryLockRequest :=
  match c.transaction with
  | some transaction => (c.stateFor transaction).acquired
  | none => ∅

/-- The last lock acquired. -/
def maximum (c : PostgresConnection) : Option PostgresAdvisoryLockRequest :=
  match c.transaction with
  | some transaction => (c.stateFor transaction).maximum
  | none => none

/-- `acquire_postgres_advisory_lock` up to `connection.execute`: the connection then, and the lock
the statement asks for, if one is sent. -/
def acquirePostgresAdvisoryLock (c : PostgresConnection) (request : PostgresAdvisoryLockRequest) :
    Except TransactionViolation (PostgresConnection × Option PostgresAdvisoryLockRequest) := do
  let transaction ← require c.transaction .inactiveTransaction
  let state := c.stateFor transaction
  if request ∈ state.acquired then
    pure ({ c with lockState := some state }, none)
  else do
    rejectIf (∃ maximum ∈ state.maximum, request < maximum) .advisoryLockOrder
    pure ({ c with lockState := some state }, some request)

/-- `acquire_postgres_advisory_lock` behind `connection.execute`. -/
def granted (c : PostgresConnection) (request : PostgresAdvisoryLockRequest) :
    PostgresConnection :=
  match c.transaction with
  | some transaction =>
      let state := c.stateFor transaction
      { c with
        lockState := some { state with
          acquired := insert request state.acquired, maximum := some request } }
  | none => c

theorem stateFor_mk {running : Option Nat} {state : PostgresAdvisoryLockState} {transaction : Nat}
    (h : state.transaction = transaction) :
    stateFor ⟨running, some state⟩ transaction = state := if_pos h

@[simp] theorem stateFor_transaction (c : PostgresConnection) (transaction : Nat) :
    (c.stateFor transaction).transaction = transaction := by
  unfold stateFor
  split
  · split
    · assumption
    · rfl
  · rfl

/-- A call that does not raise either finds the lock acquired or asks for it, and then the lock is
not below the last one. What is acquired stays as it was. -/
theorem acquirePostgresAdvisoryLock_eq_ok {c c' : PostgresConnection}
    {request : PostgresAdvisoryLockRequest} {sent : Option PostgresAdvisoryLockRequest}
    (h : c.acquirePostgresAdvisoryLock request = .ok (c', sent)) :
    (∃ transaction, c.transaction = some transaction ∧ c'.transaction = some transaction) ∧
      c'.acquired = c.acquired ∧ c'.maximum = c.maximum ∧
      ((sent = none ∧ request ∈ c.acquired) ∨
        (sent = some request ∧ request ∉ c.acquired ∧
          ∀ maximum, c.maximum = some maximum → maximum ≤ request)) := by
  cases htransaction : c.transaction with
  | none =>
      simp [acquirePostgresAdvisoryLock, htransaction, require, bind, Except.bind] at h
  | some transaction =>
      simp only [acquirePostgresAdvisoryLock, htransaction, require, bind_eq_ok] at h
      obtain ⟨t, ht, h⟩ := h
      obtain rfl : transaction = t := Except.ok.inj ht
      have hstate : stateFor ⟨some transaction, some (c.stateFor transaction)⟩ transaction =
          c.stateFor transaction := stateFor_mk (c.stateFor_transaction transaction)
      simp only [acquired, maximum, htransaction]
      split at h
      · next hmem =>
          obtain ⟨rfl, rfl⟩ := Prod.mk.inj (Except.ok.inj h)
          simp [hstate, hmem]
      · next hmem =>
          simp only [bind_eq_ok, rejectIf_eq_ok, pure_eq_ok] at h
          obtain ⟨_, hmax, h⟩ := h
          obtain ⟨rfl, rfl⟩ := Prod.mk.inj h
          refine ⟨⟨transaction, rfl, rfl⟩, by simp only [hstate], by simp only [hstate],
            Or.inr ⟨rfl, hmem, ?_⟩⟩
          intro maximum hmaximum
          exact not_lt.1 fun hlt => hmax ⟨maximum, hmaximum, hlt⟩

theorem granted_transaction (c : PostgresConnection) (request : PostgresAdvisoryLockRequest) :
    (c.granted request).transaction = c.transaction := by
  unfold granted
  split <;> rfl

/-- Behind the statement the lock is counted as acquired, and as the last one. -/
theorem granted_acquired {c : PostgresConnection} {transaction : Nat}
    (h : c.transaction = some transaction) (request : PostgresAdvisoryLockRequest) :
    (c.granted request).acquired = insert request c.acquired ∧
      (c.granted request).maximum = some request := by
  let state : PostgresAdvisoryLockState := { c.stateFor transaction with
    acquired := insert request (c.stateFor transaction).acquired, maximum := some request }
  have hstate : stateFor ⟨some transaction, some state⟩ transaction = state :=
    stateFor_mk (c.stateFor_transaction transaction)
  simp only [granted, acquired, maximum, h]
  rw [hstate]
  exact ⟨rfl, rfl⟩

end PostgresConnection

/-! ## Connections in use -/

/-- One connection: the calls of the coordinator on it, and what the database knows of its running
transaction. `sent` lists the lock statements of this transaction. -/
structure LockSession where
  connection : PostgresConnection := {}
  pending : List PostgresAdvisoryLockRequest := []
  awaiting : Option PostgresAdvisoryLockRequest := none
  held : Finset PostgresAdvisoryLockRequest := ∅
  sent : List PostgresAdvisoryLockRequest := []

/-- What happens on a connection. A transaction ends by commit, rollback or failure of a statement;
`finish true` leaves the lock state in `connection.info`. -/
inductive LockAction
  | start (transaction : Nat)
  | acquireLock (request : PostgresAdvisoryLockRequest)
  | acquireLocks (requests : List PostgresAdvisoryLockRequest)
  | proceed
  | grant
  | finish (keepsInfo : Bool)

/-- The steps of a connection. `free` tells the locks that no other connection holds. -/
inductive LockSession.Steps (free : PostgresAdvisoryLockRequest → Prop) (x : LockSession) :
    LockAction → LockSession → Prop
  /-- The stored lock state keeps its transaction alive, so a new one is another object. -/
  | start {transaction : Nat} (hidle : x.connection.transaction = none)
      (hnew : ∀ state, x.connection.lockState = some state → state.transaction ≠ transaction) :
      Steps free x (.start transaction)
        { x with connection := { x.connection with transaction := some transaction } }
  | acquireLock {request : PostgresAdvisoryLockRequest} (hready : x.pending = [])
      (hrunning : x.awaiting = none) :
      Steps free x (.acquireLock request) { x with pending := [request] }
  /-- `for request in sorted(set(requests))`. -/
  | acquireLocks {requests : List PostgresAdvisoryLockRequest} (hready : x.pending = [])
      (hrunning : x.awaiting = none) :
      Steps free x (.acquireLocks requests) { x with pending := sortedSet requests }
  /-- The call raises before it sends a statement; the transaction goes on. -/
  | refuse {request : PostgresAdvisoryLockRequest} {rest : List PostgresAdvisoryLockRequest}
      {violation : TransactionViolation} (hpending : x.pending = request :: rest)
      (hrunning : x.awaiting = none)
      (hacquire : x.connection.acquirePostgresAdvisoryLock request = .error violation) :
      Steps free x .proceed { x with pending := [] }
  /-- The lock is acquired already. -/
  | skip {request : PostgresAdvisoryLockRequest} {rest : List PostgresAdvisoryLockRequest}
      {c : PostgresConnection} (hpending : x.pending = request :: rest)
      (hrunning : x.awaiting = none)
      (hacquire : x.connection.acquirePostgresAdvisoryLock request = .ok (c, none)) :
      Steps free x .proceed { x with connection := c, pending := rest }
  /-- The statement is sent. -/
  | send {request lock : PostgresAdvisoryLockRequest} {rest : List PostgresAdvisoryLockRequest}
      {c : PostgresConnection} (hpending : x.pending = request :: rest)
      (hrunning : x.awaiting = none)
      (hacquire : x.connection.acquirePostgresAdvisoryLock request = .ok (c, some lock)) :
      Steps free x .proceed
        { x with connection := c, pending := rest, awaiting := some lock, sent := x.sent ++ [lock] }
  /-- The database gives the lock to this transaction. -/
  | grant {lock : PostgresAdvisoryLockRequest} (hawaiting : x.awaiting = some lock)
      (hfree : free lock) :
      Steps free x .grant
        { x with connection := x.connection.granted lock, awaiting := none,
                 held := insert lock x.held }
  /-- The database releases everything the transaction holds. -/
  | finish {keepsInfo : Bool} :
      Steps free x (.finish keepsInfo)
        { connection := { lockState := if keepsInfo then x.connection.lockState else none } }

namespace LockSession

/-- What the coordinator remembers is what the database holds, and no statement is sent twice. -/
structure Sound (x : LockSession) : Prop where
  acquired_eq : x.connection.acquired = x.held
  le_maximum : ∀ h ∈ x.held, ∃ maximum, x.connection.maximum = some maximum ∧ h ≤ maximum
  above : ∀ l, x.awaiting = some l → ∀ h ∈ x.held, h < l
  active : ∀ l, x.awaiting = some l → ∃ transaction, x.connection.transaction = some transaction
  nodup_sent : x.sent.Nodup
  mem_sent : ∀ l, l ∈ x.sent ↔ l ∈ x.held ∨ x.awaiting = some l

theorem Sound.initial : Sound {} where
  acquired_eq := rfl
  le_maximum _ hh := by cases hh
  above _ hl := by cases hl
  active _ hl := by cases hl
  nodup_sent := List.nodup_nil
  mem_sent _ := by simp

variable {free : PostgresAdvisoryLockRequest → Prop} {x y : LockSession} {a : LockAction}

/-- A connection without a transaction holds nothing. -/
theorem Sound.held_eq_empty (h : x.Sound) (hidle : x.connection.transaction = none) :
    x.held = ∅ := by
  rw [← h.acquired_eq, PostgresConnection.acquired, hidle]

theorem Sound.step (h : x.Sound) (hstep : x.Steps free a y) : y.Sound := by
  cases hstep with
  | start hidle hnew =>
      have hheld := h.held_eq_empty hidle
      refine ⟨?_, ?_, h.above, fun _ _ => ⟨_, rfl⟩, h.nodup_sent, h.mem_sent⟩
      · rw [hheld]
        cases hstate : x.connection.lockState with
        | none => simp [PostgresConnection.acquired, PostgresConnection.stateFor, hstate]
        | some state =>
            simp [PostgresConnection.acquired, PostgresConnection.stateFor, hstate, hnew state hstate]
      · intro l hl
        simp [hheld] at hl
  | acquireLock hready hrunning =>
      exact ⟨h.acquired_eq, h.le_maximum, h.above, h.active, h.nodup_sent, h.mem_sent⟩
  | acquireLocks hready hrunning =>
      exact ⟨h.acquired_eq, h.le_maximum, h.above, h.active, h.nodup_sent, h.mem_sent⟩
  | refuse hpending hrunning hacquire =>
      exact ⟨h.acquired_eq, h.le_maximum, h.above, h.active, h.nodup_sent, h.mem_sent⟩
  | skip hpending hrunning hacquire =>
      obtain ⟨⟨t, -, ht⟩, hacquired, hmaximum, -⟩ :=
        PostgresConnection.acquirePostgresAdvisoryLock_eq_ok hacquire
      refine ⟨hacquired.trans h.acquired_eq, ?_, h.above, fun _ _ => ⟨t, ht⟩, h.nodup_sent,
        h.mem_sent⟩
      simpa only [hmaximum] using h.le_maximum
  | @send request lock rest c hpending hrunning hacquire =>
      obtain ⟨⟨t, -, ht⟩, hacquired, hmaximum, ⟨hnone, -⟩ | ⟨hsome, hnew, hle⟩⟩ :=
        PostgresConnection.acquirePostgresAdvisoryLock_eq_ok hacquire
      · cases hnone
      obtain rfl : lock = request := Option.some.inj hsome
      have hnotHeld : lock ∉ x.held := h.acquired_eq ▸ hnew
      -- The lock is not below the last one acquired, and it is none of those acquired.
      have habove : ∀ k ∈ x.held, k < lock := by
        intro k hk
        obtain ⟨maximum, hmax, hkmax⟩ := h.le_maximum k hk
        refine lt_of_le_of_ne (hkmax.trans (hle maximum hmax)) ?_
        rintro rfl
        exact hnotHeld hk
      have hnotSent : lock ∉ x.sent := by
        rw [h.mem_sent, hrunning]
        simpa using hnotHeld
      refine ⟨hacquired.trans h.acquired_eq, ?_, ?_, fun _ _ => ⟨t, ht⟩, ?_, ?_⟩
      · simpa only [hmaximum] using h.le_maximum
      · intro l hl
        obtain rfl := Option.some.inj hl
        exact habove
      · exact List.nodup_append.2 ⟨h.nodup_sent, List.nodup_singleton lock, by
          simpa [List.Disjoint] using fun l hl => ne_of_mem_of_not_mem hl hnotSent⟩
      · intro l
        simp [h.mem_sent, hrunning, eq_comm]
  | @grant lock hawaiting hfree =>
      obtain ⟨t, ht⟩ := h.active lock hawaiting
      obtain ⟨hacquired, hmaximum⟩ := PostgresConnection.granted_acquired ht lock
      refine ⟨hacquired.trans (by rw [h.acquired_eq]), ?_, ?_, ?_, h.nodup_sent, ?_⟩
      · intro k hk
        refine ⟨lock, hmaximum, ?_⟩
        rcases Finset.mem_insert.1 hk with rfl | hk
        · exact le_rfl
        · exact (h.above lock hawaiting k hk).le
      · intro l hl
        cases hl
      · intro l hl
        cases hl
      · intro l
        rw [h.mem_sent, hawaiting]
        simp [or_comm, eq_comm]
  | finish =>
      refine ⟨rfl, ?_, ?_, ?_, List.nodup_nil, ?_⟩
      · intro l hl
        simp at hl
      · intro l hl
        cases hl
      · intro l hl
        cases hl
      · intro l
        simp

end LockSession

/-! ## Interleaved connections -/

section System

variable {ι : Type} [DecidableEq ι]

/-- The connections of a database, each where it stands. -/
abbrev LockSystem (ι : Type) := ι → LockSession

/-- A lock no connection but this one holds. -/
def FreeFor (s : LockSystem ι) (i : ι) (l : PostgresAdvisoryLockRequest) : Prop :=
  ∀ j, j ≠ i → l ∉ (s j).held

/-- All interleavings of the connections. -/
def advisoryLocking (ι : Type) [DecidableEq ι] : Transition (LockSystem ι) (ι × LockAction) where
  init s := s = fun _ => {}
  step s l t := ∃ x, (s l.1).Steps (FreeFor s l.1) l.2 x ∧ t = Function.update s l.1 x

/-- The locks held and awaited, by connection. -/
def lockTable (s : LockSystem ι) : LockTable ι PostgresAdvisoryLockRequest where
  held i := (s i).held
  awaited i := (s i).awaiting

/-- A transaction waits for a lock another one holds. -/
def WaitsFor (s : LockSystem ι) (i j : ι) : Prop :=
  ∃ l, (s i).awaiting = some l ∧ l ∈ (s j).held

theorem advisoryLocking_sound {s : LockSystem ι} (h : (advisoryLocking ι).Reachable s) :
    ∀ i, (s i).Sound := by
  apply h.invariant (P := fun s => ∀ i, (s i).Sound)
  · rintro s rfl i
    exact LockSession.Sound.initial
  · rintro s ⟨i, a⟩ t hs ⟨x, hstep, rfl⟩ j
    by_cases hj : j = i
    · subst hj
      rw [Function.update_self]
      exact (hs j).step hstep
    · rw [Function.update_of_ne hj]
      exact hs j

theorem lockTable_update (s : LockSystem ι) (i : ι) (x : LockSession) :
    lockTable (Function.update s i x) = (lockTable s).update i x.held x.awaiting := by
  unfold lockTable LockTable.update
  congr 1
  · funext j
    by_cases hj : j = i
    · subst hj; simp
    · simp [Function.update_of_ne hj]
  · funext j
    by_cases hj : j = i
    · subst hj; simp
    · simp [Function.update_of_ne hj]

/-- A step that keeps what its connection holds and awaits is no move of the lock table. -/
theorem lockTable_update_eq {s : LockSystem ι} {i : ι} {x : LockSession}
    (hheld : x.held = (s i).held) (hawaiting : x.awaiting = (s i).awaiting) :
    lockTable (Function.update s i x) = lockTable s := by
  rw [lockTable_update, hheld, hawaiting]
  simp [LockTable.update, lockTable]

/-- Each step of a connection is a move of ordered locking, or none. -/
theorem advisoryLocking_step {s : LockSystem ι} {i : ι} {a : LockAction} {x : LockSession}
    (hsound : (s i).Sound) (hstep : (s i).Steps (FreeFor s i) a x) :
    lockTable (Function.update s i x) = lockTable s ∨
      ∃ m, (lockTable s).Moves i m (lockTable (Function.update s i x)) := by
  have hnext : x.Sound := hsound.step hstep
  cases hstep with
  | start _ _ => exact Or.inl (lockTable_update_eq rfl rfl)
  | acquireLock _ _ => exact Or.inl (lockTable_update_eq rfl rfl)
  | acquireLocks _ _ => exact Or.inl (lockTable_update_eq rfl rfl)
  | refuse _ _ _ => exact Or.inl (lockTable_update_eq rfl rfl)
  | skip _ _ _ => exact Or.inl (lockTable_update_eq rfl rfl)
  | @send request lock rest c _ hrunning _ =>
      refine Or.inr ⟨.request lock, ?_⟩
      rw [lockTable_update]
      exact LockTable.Moves.request hrunning (hnext.above lock rfl)
  | @grant lock hawaiting hfree =>
      refine Or.inr ⟨.grant lock, ?_⟩
      rw [lockTable_update]
      have hmove := LockTable.Moves.grant (s := lockTable s) (a := i) hawaiting hfree
      simpa [lockTable] using hmove
  | finish =>
      refine Or.inr ⟨.release, ?_⟩
      rw [lockTable_update]
      have hmove := LockTable.Moves.release (s := lockTable s) (a := i)
      simpa [lockTable] using hmove

/-- The coordinator's connections refine ordered locking. -/
theorem advisoryLocking_simulates {s : LockSystem ι} (h : (advisoryLocking ι).Reachable s) :
    (lockOrdering ι PostgresAdvisoryLockRequest).Reachable (lockTable s) := by
  suffices hsim : ∃ table, (lockOrdering ι PostgresAdvisoryLockRequest).Reachable table ∧
      (∀ i, (s i).Sound) ∧ table = lockTable s by
    obtain ⟨table, hreach, -, rfl⟩ := hsim
    exact hreach
  apply h.simulation (R := fun s table => (∀ i, (s i).Sound) ∧ table = lockTable s)
  · rintro s rfl
    have hidle : LockTable.idle = lockTable fun _ : ι => {} := by simp [lockTable, LockTable.idle]
    exact ⟨LockTable.idle, rfl, fun _ => LockSession.Sound.initial, hidle⟩
  · rintro s ⟨i, a⟩ t table ⟨hsound, rfl⟩ ⟨x, hstep, rfl⟩
    have hnext : ∀ j, (Function.update s i x j).Sound := by
      intro j
      by_cases hj : j = i
      · subst hj
        rw [Function.update_self]
        exact (hsound j).step hstep
      · rw [Function.update_of_ne hj]
        exact hsound j
    rcases advisoryLocking_step (hsound i) hstep with hstay | ⟨m, hmove⟩
    · exact ⟨[], lockTable s, Transition.Run.refl, hnext, hstay.symm⟩
    · exact ⟨[(i, m)], _, Transition.Run.single hmove, hnext, rfl⟩

/-- No lock has two holders. -/
theorem advisoryLocking_exclusive {s : LockSystem ι} (h : (advisoryLocking ι).Reachable s)
    {i j : ι} {l : PostgresAdvisoryLockRequest} (hi : l ∈ (s i).held) (hj : l ∈ (s j).held) :
    i = j :=
  (lockOrdering_safe (advisoryLocking_simulates h)).1 i j l hi hj

/-- No transaction waits, directly or through others, for itself, and none sends the statement of
one lock twice. -/
theorem advisoryLocking_no_deadlock {s : LockSystem ι} (h : (advisoryLocking ι).Reachable s) :
    (∀ i, ¬ Relation.TransGen (WaitsFor s) i i) ∧ ∀ i, (s i).sent.Nodup := by
  constructor
  · intro i
    exact (lockOrdering_safe (advisoryLocking_simulates h)).2.not_transGen_waits i
  · intro i
    exact (advisoryLocking_sound h i).nodup_sent

end System

/-- A lock of an audit stream. -/
def sampleLock : PostgresAdvisoryLockRequest := ⟨.audit, 7, by decide⟩

/-- Two connections take the same lock; the second one waits. -/
theorem advisoryLocking_contention : ∃ s : LockSystem Bool, (advisoryLocking Bool).Reachable s ∧
    WaitsFor s true false ∧ (∀ i, ¬ Relation.TransGen (WaitsFor s) i i) ∧
    ∀ i, (s i).sent.Nodup := by
  have h₁ := (Transition.Reachable.of_init (T := advisoryLocking Bool) rfl).tail
    (l := (false, .start 1)) ⟨_, .start rfl (by simp), rfl⟩
  have h₂ := h₁.tail (l := (true, .start 1)) ⟨_, .start rfl (by simp), rfl⟩
  have h₃ := h₂.tail (l := (false, .acquireLock sampleLock)) ⟨_, .acquireLock rfl rfl, rfl⟩
  have h₄ := h₃.tail (l := (true, .acquireLocks [sampleLock, sampleLock]))
    ⟨_, .acquireLocks rfl rfl, rfl⟩
  have h₅ := h₄.tail (l := (false, .proceed)) ⟨_, .send rfl rfl rfl, rfl⟩
  have h₆ := h₅.tail (l := (false, .grant)) ⟨_, @LockSession.Steps.grant _ _ sampleLock rfl (by
    intro j hj
    cases j with
    | false => exact absurd rfl hj
    | true => exact Finset.notMem_empty sampleLock), rfl⟩
  have h₇ := h₆.tail (l := (true, .proceed)) ⟨_, .send rfl rfl rfl, rfl⟩
  exact ⟨_, h₇, ⟨sampleLock, rfl, Finset.mem_insert_self sampleLock ∅⟩,
    advisoryLocking_no_deadlock h₇⟩

end AdaptiveTrader.Storage
