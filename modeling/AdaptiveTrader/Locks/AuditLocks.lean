import AdaptiveTrader.Platform.Audit
import AdaptiveTrader.Locks.AdvisoryLocks

/-!
# Locks taken by audit appends

On PostgreSQL an append to an audit stream first takes the lock of the stream, inside the transaction
of its caller. A transaction that appends to several streams therefore takes their locks in the
order of its appends, and the coordinator refuses a lock below one it already has.

`Ascends` is what a sequence of locks must satisfy. Each operation here comes with the same operation
without locks: when its lock is granted the two agree, and when it is refused the operation fails
with `auditLockOrderError` (`TakesLock`).
-/

set_option autoImplicit false

namespace AdaptiveTrader.Storage

open Foundation

/-! ## The locks of one transaction -/

/-- A signed 32-bit key for each resource. -/
structure LockKeys where
  key : PostgresAdvisoryLockNamespace → String → Int
  signed : ∀ lockNamespace resourceRef, minSigned32BitInteger ≤ key lockNamespace resourceRef ∧
    key lockNamespace resourceRef ≤ maxSigned32BitInteger

/-- The lock of a resource. -/
def LockKeys.request (keys : LockKeys) (lockNamespace : PostgresAdvisoryLockNamespace)
    (resourceRef : String) : PostgresAdvisoryLockRequest :=
  ⟨lockNamespace, keys.key lockNamespace resourceRef, keys.signed lockNamespace resourceRef⟩

theorem signed32_lockResourceDigits [ContentHasher] (lockNamespace : PostgresAdvisoryLockNamespace)
    (resourceRef : String) :
    minSigned32BitInteger ≤ signed32 (hexValue (lockResourceDigits lockNamespace resourceRef)) ∧
      signed32 (hexValue (lockResourceDigits lockNamespace resourceRef)) ≤ maxSigned32BitInteger :=
  signed32_bounds (hexValue_lockResourceDigits_lt lockNamespace resourceRef)

/-- The keys `PostgresAdvisoryLockRequest.for_resource` derives from digests. -/
def hashedLockKeys [ContentHasher] : LockKeys where
  key lockNamespace resourceRef := signed32 (hexValue (lockResourceDigits lockNamespace resourceRef))
  signed lockNamespace resourceRef := signed32_lockResourceDigits lockNamespace resourceRef

theorem forResource_eq_ok [ContentHasher] {lockNamespace : PostgresAdvisoryLockNamespace}
    {resourceRef : String} (h : isLockResource resourceRef = true) :
    PostgresAdvisoryLockRequest.forResource lockNamespace resourceRef =
      .ok (hashedLockKeys.request lockNamespace resourceRef) := by
  simp [PostgresAdvisoryLockRequest.forResource, rejectIf, h, bind, Except.bind, pure, Except.pure,
    LockKeys.request, hashedLockKeys]

/-- A lock that a transaction with these locks can take. -/
def Admits (locks : List PostgresAdvisoryLockRequest) (r : PostgresAdvisoryLockRequest) : Prop :=
  r ∈ locks ∨ ∀ held ∈ locks, held < r

instance (locks : List PostgresAdvisoryLockRequest) (r : PostgresAdvisoryLockRequest) :
    Decidable (Admits locks r) :=
  inferInstanceAs (Decidable (_ ∨ _))

/-- Each lock was taken before or lies above all earlier ones. -/
def Ascends : List PostgresAdvisoryLockRequest → List PostgresAdvisoryLockRequest → Prop
  | _, [] => True
  | locks, r :: rest => Admits locks r ∧ Ascends (locks ++ [r]) rest

instance decidableAscends : ∀ locks requests : List PostgresAdvisoryLockRequest,
    Decidable (Ascends locks requests)
  | _, [] => inferInstanceAs (Decidable True)
  | locks, r :: rest =>
      have := decidableAscends (locks ++ [r]) rest
      inferInstanceAs (Decidable (_ ∧ _))

namespace PostgresConnection

/-- `acquire_postgres_advisory_lock` when the database grants the lock. -/
def lock (c : PostgresConnection) (r : PostgresAdvisoryLockRequest) :
    Except TransactionViolation PostgresConnection :=
  match c.acquirePostgresAdvisoryLock r with
  | .ok (c, some sent) => .ok (c.granted sent)
  | .ok (c, none) => .ok c
  | .error violation => .error violation

/-- The running transaction has taken these locks. -/
structure Holds (c : PostgresConnection) (locks : List PostgresAdvisoryLockRequest) : Prop where
  active : ∃ transaction, c.transaction = some transaction
  mem_acquired : ∀ r, r ∈ c.acquired ↔ r ∈ locks
  maximum_isGreatest : ∀ m, c.maximum = some m ↔ m ∈ locks ∧ ∀ held ∈ locks, held ≤ m

/-- A transaction starts without locks. -/
theorem holds_nil (transaction : Nat) : Holds { transaction := some transaction } [] where
  active := ⟨transaction, rfl⟩
  mem_acquired r := by simp [acquired, stateFor]
  maximum_isGreatest m := by simp [maximum, stateFor]

variable {c : PostgresConnection} {locks : List PostgresAdvisoryLockRequest}
  {r : PostgresAdvisoryLockRequest}

/-- The call as one case distinction. -/
theorem acquirePostgresAdvisoryLock_eq {transaction : Nat}
    (h : c.transaction = some transaction) : c.acquirePostgresAdvisoryLock r =
      if r ∈ c.acquired then .ok ({ c with lockState := some (c.stateFor transaction) }, none)
      else if ∃ m ∈ c.maximum, r < m then .error .advisoryLockOrder
      else .ok ({ c with lockState := some (c.stateFor transaction) }, some r) := by
  simp only [acquirePostgresAdvisoryLock, h, require, bind, Except.bind, acquired, maximum, rejectIf]
  by_cases hmem : r ∈ (c.stateFor transaction).acquired
  · rw [if_pos hmem, if_pos hmem]
    rfl
  · rw [if_neg hmem, if_neg hmem]
    by_cases hmax : ∃ m ∈ (c.stateFor transaction).maximum, r < m
    · rw [if_pos hmax, if_pos hmax]
    · rw [if_neg hmax, if_neg hmax]
      rfl

theorem Holds.admits_iff (h : Holds c locks) :
    Admits locks r ↔ r ∈ c.acquired ∨ ¬ ∃ m ∈ c.maximum, r < m := by
  rw [h.mem_acquired]
  constructor
  · rintro (hmem | habove)
    · exact Or.inl hmem
    · refine Or.inr ?_
      rintro ⟨m, hm, hlt⟩
      exact lt_asymm hlt (habove m ((h.maximum_isGreatest m).1 hm).1)
  · rintro (hmem | hmax)
    · exact Or.inl hmem
    · by_cases hr : r ∈ locks
      · exact Or.inl hr
      · refine Or.inr fun held hheld => ?_
        obtain ⟨m, hm, hle⟩ :=
          locks.toFinset.exists_max_image id ⟨held, List.mem_toFinset.2 hheld⟩
        have hgreatest : c.maximum = some m := (h.maximum_isGreatest m).2
          ⟨List.mem_toFinset.1 hm, fun x hx => hle x (List.mem_toFinset.2 hx)⟩
        have hmr : m ≤ r := not_lt.1 fun hlt => hmax ⟨m, hgreatest, hlt⟩
        have hne : held ≠ r := fun he => hr (he ▸ hheld)
        exact lt_of_le_of_ne ((hle held (List.mem_toFinset.2 hheld)).trans hmr) hne

/-- A lock the transaction can take is granted. -/
theorem Holds.lock_eq_ok (h : Holds c locks) (ha : Admits locks r) :
    ∃ c', c.lock r = .ok c' ∧ Holds c' (locks ++ [r]) := by
  obtain ⟨transaction, htransaction⟩ := h.active
  have hcall := @acquirePostgresAdvisoryLock_eq c r _ htransaction
  by_cases hmem : r ∈ c.acquired
  · rw [if_pos hmem] at hcall
    obtain ⟨-, hacquired, hmaximum, -⟩ := acquirePostgresAdvisoryLock_eq_ok hcall
    have hlock : c.lock r = .ok { c with lockState := some (c.stateFor transaction) } := by
      simp only [lock, hcall]
    refine ⟨_, hlock, ⟨transaction, htransaction⟩, ?_, ?_⟩
    · intro x
      rw [hacquired, h.mem_acquired, List.mem_append, List.mem_singleton]
      exact ⟨Or.inl, fun hx => hx.elim id fun he => he ▸ (h.mem_acquired r).1 hmem⟩
    · intro m
      rw [hmaximum, h.maximum_isGreatest]
      have hr := (h.mem_acquired r).1 hmem
      simp only [List.mem_append, List.mem_singleton]
      constructor
      · rintro ⟨hm, hle⟩
        exact ⟨Or.inl hm, fun x hx => hx.elim (hle x) fun he => he ▸ hle r hr⟩
      · rintro ⟨hm, hle⟩
        exact ⟨hm.elim id fun he => he ▸ hr, fun x hx => hle x (Or.inl hx)⟩
  · have hmax := (h.admits_iff.1 ha).resolve_left hmem
    rw [if_neg hmem, if_neg hmax] at hcall
    obtain ⟨-, hacquired, -, -⟩ := acquirePostgresAdvisoryLock_eq_ok hcall
    obtain ⟨hgranted, hlast⟩ := @granted_acquired
      { c with lockState := some (c.stateFor transaction) } _ htransaction r
    have habove : ∀ held ∈ locks, held < r := by
      rcases ha with hr | habove
      · exact absurd ((h.mem_acquired r).2 hr) hmem
      · exact habove
    have hlock : c.lock r =
        .ok (granted { c with lockState := some (c.stateFor transaction) } r) := by
      simp only [lock, hcall]
    refine ⟨_, hlock, ⟨transaction, ?_⟩, ?_, ?_⟩
    · rw [granted_transaction]
      exact htransaction
    · intro x
      rw [hgranted, hacquired, Finset.mem_insert, h.mem_acquired, List.mem_append,
        List.mem_singleton, or_comm]
    · intro m
      rw [hlast, Option.some.injEq]
      simp only [List.mem_append, List.mem_singleton]
      constructor
      · rintro rfl
        exact ⟨Or.inr rfl, fun x hx => hx.elim (fun hx => (habove x hx).le) le_of_eq⟩
      · rintro ⟨hm | rfl, hle⟩
        · exact absurd (hle r (Or.inr rfl)) (not_le.2 (habove m hm))
        · rfl

/-- A lock the transaction cannot take is refused. -/
theorem Holds.lock_eq_error (h : Holds c locks) (ha : ¬ Admits locks r) :
    c.lock r = .error .advisoryLockOrder := by
  obtain ⟨transaction, htransaction⟩ := h.active
  rw [h.admits_iff, not_or, not_not] at ha
  have hcall := @acquirePostgresAdvisoryLock_eq c r _ htransaction
  rw [if_neg ha.1, if_pos ha.2] at hcall
  simp only [lock, hcall]

end PostgresConnection

/-! ### Sequences of locks -/

section Sequences

variable {locks requests : List PostgresAdvisoryLockRequest}

theorem ascends_append {first second : List PostgresAdvisoryLockRequest} :
    Ascends locks (first ++ second) ↔ Ascends locks first ∧ Ascends (locks ++ first) second := by
  induction first generalizing locks with
  | nil => simp [Ascends]
  | cons r rest ih =>
      rw [List.cons_append, Ascends, Ascends, ih, List.append_assoc, and_assoc]
      rfl

/-- Locks below all the requested ones do not stand in their way. -/
theorem ascends_append_left {below : List PostgresAdvisoryLockRequest}
    (h : ∀ held ∈ below, ∀ r ∈ requests, held < r) :
    Ascends (below ++ locks) requests ↔ Ascends locks requests := by
  induction requests generalizing locks with
  | nil => exact Iff.rfl
  | cons r rest ih =>
      have hr : ∀ held ∈ below, held < r := fun held hheld => h held hheld r List.mem_cons_self
      have hadmits : Admits (below ++ locks) r ↔ Admits locks r := by
        have hnew : r ∉ below := fun hmem => lt_irrefl r (hr r hmem)
        simp only [Admits, List.mem_append, hnew, false_or]
        constructor
        · rintro (hmem | habove)
          · exact Or.inl hmem
          · exact Or.inr fun held hheld => habove held (Or.inr hheld)
        · rintro (hmem | habove)
          · exact Or.inl hmem
          · exact Or.inr fun held hheld => hheld.elim (hr held) (habove held)
      rw [Ascends, Ascends, hadmits, List.append_assoc,
        ih fun held hheld x hx => h held hheld x (List.mem_cons_of_mem _ hx)]

/-- An increasing sequence above the locks already taken ascends. -/
theorem ascends_of_pairwise (hrequests : requests.Pairwise (· < ·))
    (h : ∀ held ∈ locks, ∀ r ∈ requests, held < r) : Ascends locks requests := by
  induction requests generalizing locks with
  | nil => trivial
  | cons r rest ih =>
      rw [List.pairwise_cons] at hrequests
      refine ⟨Or.inr fun held hheld => h held hheld r List.mem_cons_self, ih hrequests.2 ?_⟩
      intro held hheld x hx
      rcases List.mem_append.1 hheld with hheld | hheld
      · exact h held hheld x (List.mem_cons_of_mem _ hx)
      · obtain rfl := List.mem_singleton.1 hheld
        exact hrequests.1 x hx

end Sequences

/-! ### Sets of locks -/

/-- What a transaction boundary that rejects a call raises. -/
def transactionBoundaryError : PlatformError :=
  .transactionBoundary "platform transaction boundary rejected the connection"

/-- Take locks in the given order. -/
def lockEach : List PostgresAdvisoryLockRequest → PostgresConnection →
    Except PlatformError PostgresConnection
  | [], c => .ok c
  | r :: rest, c =>
      match c.lock r with
      | .ok c => lockEach rest c
      | .error _ => .error transactionBoundaryError

/-- `acquire_postgres_advisory_locks`, each lock granted. -/
def lockSet (requests : List PostgresAdvisoryLockRequest) (c : PostgresConnection) :
    Except PlatformError PostgresConnection :=
  lockEach (sortedSet requests) c

theorem lockEach_eq_ok {requests locks : List PostgresAdvisoryLockRequest} {c : PostgresConnection}
    (hc : c.Holds locks) (h : Ascends locks requests) :
    ∃ c', lockEach requests c = .ok c' ∧ c'.Holds (locks ++ requests) := by
  induction requests generalizing c locks with
  | nil => exact ⟨c, rfl, by rwa [List.append_nil]⟩
  | cons r rest ih =>
      obtain ⟨c₁, hc₁, hholds⟩ := hc.lock_eq_ok h.1
      obtain ⟨c₂, hc₂, hholds₂⟩ := ih hholds h.2
      refine ⟨c₂, ?_, ?_⟩
      · simp only [lockEach, hc₁, hc₂]
      · rwa [List.append_assoc] at hholds₂

/-- A set above the locks already taken is granted. -/
theorem lockSet_eq_ok {requests locks : List PostgresAdvisoryLockRequest} {c : PostgresConnection}
    (hc : c.Holds locks) (h : ∀ held ∈ locks, ∀ r ∈ requests, held < r) :
    ∃ c', lockSet requests c = .ok c' ∧ c'.Holds (locks ++ sortedSet requests) :=
  lockEach_eq_ok hc (ascends_of_pairwise (sortedSet_pairwise requests) fun held hheld r hr =>
    h held hheld r (mem_sortedSet.1 hr))

/-! ## Appends -/

/-- What an append raises when the lock of its stream is refused. -/
def auditLockOrderError : PlatformError :=
  .auditPersistence "audit advisory locks must follow the global acquisition order"

/-- The lock of a stream, with the errors `_append_on_connection` makes of a refusal. -/
def lockAuditStream (keys : LockKeys) (streamId : String) (c : PostgresConnection) :
    Except PlatformError PostgresConnection :=
  match c.lock (keys.request .audit streamId) with
  | .ok c => .ok c
  | .error .advisoryLockOrder => .error auditLockOrderError
  | .error _ => .error (.auditPersistence "audit stream lock could not be acquired")

theorem lockAuditStream_eq_ok {keys : LockKeys} {streamId : String} {c c' : PostgresConnection}
    (h : c.lock (keys.request .audit streamId) = .ok c') :
    lockAuditStream keys streamId c = .ok c' := by
  simp only [lockAuditStream, h]

theorem lockAuditStream_eq_error {keys : LockKeys} {streamId : String} {c : PostgresConnection}
    (h : c.lock (keys.request .audit streamId) = .error .advisoryLockOrder) :
    lockAuditStream keys streamId c = .error auditLockOrderError := by
  simp only [lockAuditStream, h]

/-- `AuditRepository.append` on PostgreSQL in the transaction of the caller. -/
def appendAuditLocked [ContentHasher] (keys : LockKeys) (writer : Option AuditWriter)
    (streamId eventType : String) (occurredAt : Instant) (payload : AuditPayload)
    (c : PostgresConnection) (events : List AuditEvent) :
    Except PlatformError (PostgresConnection × List AuditEvent) := do
  let actor ← require writer (.auditPersistence "audit repository is verify-only")
  let candidate ←
    AuditEvent.create streamId 1 auditGenesisHash eventType actor occurredAt payload
  let c ← lockAuditStream keys candidate.streamId c
  let appended ← appendOnConnection candidate events
  pure (c, appended.2)

/-- An operation that takes one lock on the way, beside the same operation without the lock. -/
structure TakesLock {β : Type} (c : PostgresConnection) (r : PostgresAdvisoryLockRequest)
    (locked : Except PlatformError (PostgresConnection × β)) (plain : Except PlatformError β) :
    Prop where
  granted : ∀ c', c.lock r = .ok c' → locked = plain.map fun b => (c', b)
  refused : c.lock r = .error .advisoryLockOrder → ∀ b, plain = .ok b →
    locked = .error auditLockOrderError

namespace TakesLock

variable {α β : Type} {c : PostgresConnection} {r : PostgresAdvisoryLockRequest}

/-- Steps in front of the lock. -/
theorem bind {x : Except PlatformError α} {f : α → Except PlatformError (PostgresConnection × β)}
    {g : α → Except PlatformError β} (h : ∀ a, x = .ok a → TakesLock c r (f a) (g a)) :
    TakesLock c r (x >>= f) (x >>= g) := by
  cases x with
  | error e =>
      refine ⟨fun c' _ => rfl, fun _ b hb => ?_⟩
      cases hb
  | ok a => exact h a rfl

/-- What is made of the result. -/
theorem map {locked : Except PlatformError (PostgresConnection × α)} {plain : Except PlatformError α}
    (h : TakesLock c r locked plain) (f : α → β) :
    TakesLock c r (locked >>= fun w => pure (w.1, f w.2)) (plain >>= fun a => pure (f a)) := by
  constructor
  · intro c' hc'
    rw [h.granted c' hc']
    cases plain <;> rfl
  · intro hc b hb
    cases plain with
    | error e => cases hb
    | ok a => rw [h.refused hc a rfl]; rfl

end TakesLock

theorem appendAuditLocked_takesLock [ContentHasher] (keys : LockKeys) (writer : Option AuditWriter)
    (streamId eventType : String) (occurredAt : Instant) (payload : AuditPayload)
    (c : PostgresConnection) (events : List AuditEvent) :
    TakesLock c (keys.request .audit streamId)
      (appendAuditLocked keys writer streamId eventType occurredAt payload c events)
      (appendAudit writer streamId eventType occurredAt payload events) := by
  unfold appendAuditLocked appendAudit appendAuditEvent
  rw [bind_assoc]
  refine TakesLock.bind fun actor _ => ?_
  rw [bind_assoc]
  refine TakesLock.bind fun candidate hcandidate => ?_
  have hstream : candidate.streamId = streamId := by
    simp only [AuditEvent.create, bind_eq_ok, pure_eq_ok] at hcandidate
    obtain ⟨_, -, _, -, _, -, rfl⟩ := hcandidate
    rfl
  rw [hstream]
  constructor
  · intro c' hc'
    rw [lockAuditStream_eq_ok hc']
    cases appendOnConnection candidate events <;> rfl
  · intro hc b _
    rw [lockAuditStream_eq_error hc]
    rfl

/-! ## Operations with several appends -/

/-- How an operation appends to audit streams: the state is the log, or the log together with the
connection the locks are taken on. -/
abbrev AuditAppend (ρ : Type) : Type :=
  String → String → Instant → AuditPayload → StateT ρ (Except PlatformError) Unit

/-- The appends of the execution writer. -/
def executionAppend [ContentHasher] : AuditAppend (List AuditEvent) :=
  fun streamId eventType occurredAt payload events => do
    let events ← appendAudit (some .execution) streamId eventType occurredAt payload events
    pure ((), events)

/-- The appends of the execution writer on PostgreSQL. -/
def executionAppendLocked [ContentHasher] (keys : LockKeys) :
    AuditAppend (PostgresConnection × List AuditEvent) :=
  fun streamId eventType occurredAt payload audited => do
    let audited ← appendAuditLocked keys (some .execution) streamId eventType occurredAt payload
      audited.1 audited.2
    pure ((), audited)

/-- An operation that takes locks one after another, beside the same operation without the locks. -/
structure TakesLocks {γ β : Type} (locks requests : List PostgresAdvisoryLockRequest)
    (locked : StateT (PostgresConnection × γ) (Except PlatformError) β)
    (plain : StateT γ (Except PlatformError) β) : Prop where
  granted : Ascends locks requests → ∀ c s, c.Holds locks → ∀ b s', plain s = .ok (b, s') →
    ∃ c', locked (c, s) = .ok (b, c', s') ∧ c'.Holds (locks ++ requests)
  failed : Ascends locks requests → ∀ c s, c.Holds locks → ∀ e, plain s = .error e →
    locked (c, s) = .error e
  refused : ¬ Ascends locks requests → ∀ c s, c.Holds locks → ∀ w, plain s = .ok w →
    locked (c, s) = .error auditLockOrderError

namespace TakesLocks

variable {α β γ : Type} {locks requests : List PostgresAdvisoryLockRequest}

/-- A computation that touches neither the log nor the connection. -/
theorem lift (x : Except PlatformError β) :
    TakesLocks (γ := γ) locks [] (StateT.lift x) (StateT.lift x) := by
  cases x with
  | error e =>
      refine ⟨?_, ?_, ?_⟩
      · intro _ c s _ b s' h
        cases h
      · intro _ c s _ e' h
        cases h
        rfl
      · intro h
        exact absurd trivial h
  | ok b =>
      refine ⟨?_, ?_, ?_⟩
      · intro _ c s hc b' s' h
        cases h
        exact ⟨c, rfl, by rwa [List.append_nil]⟩
      · intro _ c s _ e h
        cases h
      · intro h
        exact absurd trivial h

theorem pure (b : β) : TakesLocks (γ := γ) locks [] (StateT.pure b) (StateT.pure b) :=
  lift (.ok b)

/-- A step without locks in front. -/
theorem lift_bind {x : Except PlatformError α}
    {f : α → StateT (PostgresConnection × γ) (Except PlatformError) β}
    {g : α → StateT γ (Except PlatformError) β}
    (h : ∀ a, x = .ok a → TakesLocks locks requests (f a) (g a)) :
    TakesLocks locks requests (StateT.lift x >>= f) (StateT.lift x >>= g) := by
  cases x with
  | error e =>
      refine ⟨?_, ?_, ?_⟩
      · intro _ c s _ b s' hb
        cases hb
      · intro _ c s _ e' he
        obtain rfl : e = e' := Except.error.inj he
        rfl
      · intro _ c s _ w hw
        cases hw
  | ok a => exact h a rfl

/-- One operation after another takes the locks of both, in this order. -/
theorem bind {further : List PostgresAdvisoryLockRequest}
    {locked : StateT (PostgresConnection × γ) (Except PlatformError) α}
    {plain : StateT γ (Except PlatformError) α}
    {f : α → StateT (PostgresConnection × γ) (Except PlatformError) β}
    {g : α → StateT γ (Except PlatformError) β} (h : TakesLocks locks requests locked plain)
    (hnext : ∀ a, (∃ s s', plain s = .ok (a, s')) →
      TakesLocks (locks ++ requests) further (f a) (g a)) :
    TakesLocks locks (requests ++ further) (locked >>= f) (plain >>= g) := by
  have hlocked : ∀ w, (locked >>= f) w = locked w >>= fun v => f v.1 v.2 := fun w => rfl
  have hplain : ∀ s, (plain >>= g) s = plain s >>= fun v => g v.1 v.2 := fun s => rfl
  refine ⟨?_, ?_, ?_⟩
  · intro ha c s hc b s' hb
    obtain ⟨hfirst, hsecond⟩ := ascends_append.1 ha
    rw [hplain, bind_eq_ok] at hb
    obtain ⟨⟨a, s₁⟩, ha₁, hb⟩ := hb
    obtain ⟨c₁, hc₁, hholds⟩ := h.granted hfirst c s hc a s₁ ha₁
    obtain ⟨c₂, hc₂, hholds₂⟩ := (hnext a ⟨s, s₁, ha₁⟩).granted hsecond c₁ s₁ hholds b s' hb
    refine ⟨c₂, ?_, by rwa [List.append_assoc] at hholds₂⟩
    rw [hlocked, hc₁]
    exact hc₂
  · intro ha c s hc e he
    obtain ⟨hfirst, hsecond⟩ := ascends_append.1 ha
    rw [hplain] at he
    rw [hlocked]
    cases hs : plain s with
    | error e₁ =>
        rw [hs] at he
        obtain rfl : e₁ = e := Except.error.inj he
        rw [h.failed hfirst c s hc e₁ hs]
        rfl
    | ok w =>
        obtain ⟨c₁, hc₁, hholds⟩ := h.granted hfirst c s hc w.1 w.2 hs
        rw [hs] at he
        rw [hc₁]
        exact (hnext w.1 ⟨s, w.2, hs⟩).failed hsecond c₁ w.2 hholds e he
  · intro ha c s hc w hw
    rw [hplain, bind_eq_ok] at hw
    obtain ⟨⟨a, s₁⟩, ha₁, hw⟩ := hw
    rw [hlocked]
    by_cases hfirst : Ascends locks requests
    · obtain ⟨c₁, hc₁, hholds⟩ := h.granted hfirst c s hc a s₁ ha₁
      rw [hc₁]
      refine (hnext a ⟨s, s₁, ha₁⟩).refused (fun hsecond => ?_) c₁ s₁ hholds w hw
      exact ha (ascends_append.2 ⟨hfirst, hsecond⟩)
    · rw [h.refused hfirst c s hc _ ha₁]
      rfl

end TakesLocks

theorem executionAppendLocked_takesLocks [ContentHasher] (keys : LockKeys)
    (locks : List PostgresAdvisoryLockRequest) (streamId eventType : String) (occurredAt : Instant)
    (payload : AuditPayload) :
    TakesLocks locks [keys.request .audit streamId]
      (executionAppendLocked keys streamId eventType occurredAt payload)
      (executionAppend streamId eventType occurredAt payload) := by
  have hone := fun c events => appendAuditLocked_takesLock keys (some .execution) streamId eventType
    occurredAt payload c events
  unfold executionAppendLocked executionAppend
  refine ⟨?_, ?_, ?_⟩
  · intro ha c s hc b s' hb
    obtain ⟨events, hevents, hpure⟩ := bind_eq_ok.1 hb
    cases hpure
    obtain ⟨c', hc', hholds⟩ := hc.lock_eq_ok ha.1
    refine ⟨c', ?_, hholds⟩
    simp only [(hone c s).granted c' hc', hevents]
    rfl
  · intro ha c s hc e he
    obtain ⟨c', hc', -⟩ := hc.lock_eq_ok ha.1
    simp only [(hone c s).granted c' hc']
    cases hplain : appendAudit (some .execution) streamId eventType occurredAt payload s with
    | error e' =>
        rw [hplain] at he
        obtain rfl : e' = e := Except.error.inj he
        rfl
    | ok events =>
        rw [hplain] at he
        cases he
  · intro ha c s hc w hw
    obtain ⟨events, hevents, -⟩ := bind_eq_ok.1 hw
    have hrefused := hc.lock_eq_error fun hadmits => ha ⟨hadmits, trivial⟩
    simp only [(hone c s).refused hrefused events hevents]
    rfl

end AdaptiveTrader.Storage
