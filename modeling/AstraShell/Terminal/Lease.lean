import AstraShell.Lib.Checked

/-!
# The input lease of a terminal

The lease operations of `terminal.rs`. A terminal has at most one writable lease, at most one
recovery record, which outlives the lease of a device, and a counter of authority generations.

An operation runs in sections that hold the lease lock. `acquire_resumable_lease_at`,
`expire_lease_if_due_at` and `release_lease` are one section each. A command (`write_input`,
`resize`, `renew_lease`, `release_lease_command`) is two: `validate_lease_at` first expires its
lease by a clock read taken before, and only then locks again, checks the lease and acts. The
definitions here are the sections; `Terminal.Fencing` interleaves them.

A section returns its result and the state it leaves, because one that fails may still have expired
a lease or written a part of its input. Instants and durations are natural numbers.
-/

set_option autoImplicit false

namespace AstraShell.Terminal

open Lib

inductive LeaseRevocationReason where
  | takenOver
  | expired
  | released

structure LeaseEvent where
  revokedLeaseId : String
  reason : LeaseRevocationReason

structure Lease where
  id : String
  resumeToken : String
  lastSequence : Nat
  expiresAt : Option Nat

/-- The deadline has passed. -/
def Lease.due (lease : Lease) (now : Nat) : Prop := ∃ deadline ∈ lease.expiresAt, deadline ≤ now

instance (lease : Lease) (now : Nat) : Decidable (lease.due now) :=
  match h : lease.expiresAt with
  | none => isFalse (by simp [Lease.due, h])
  | some deadline => decidable_of_iff (deadline ≤ now) (by simp [Lease.due, h])

structure InputRecovery where
  clientId : String
  token : String
  deriving DecidableEq

structure LeaseGrant where
  leaseId : String
  resumeToken : String
  recoveryGeneration : Nat
  ttl : Option Nat

/-- The fields of `Terminal` that the lease operations read and write. `leaseEvents` are the events
sent so far, `written` the bytes the PTY has taken. -/
structure InputState where
  lease : Option Lease
  recovery : Option InputRecovery
  recoveryGeneration : Nat
  leaseEvents : List LeaseEvent
  written : List UInt8
  rows : Nat
  cols : Nat

/-- A terminal that was just spawned. -/
def InputState.spawned (rows cols : Nat) : InputState where
  lease := none
  recovery := none
  recoveryGeneration := 0
  leaseEvents := []
  written := []
  rows := rows
  cols := cols

/-! ## Acquiring -/

/-- The text that `Uuid::to_string` gives to the identifier it reads from `id` is `id` itself: five
groups of lower-case hexadecimal digits. -/
def isCanonicalUuid (id : String) : Prop :=
  id.length = 36 ∧ ∀ p ∈ id.toList.zipIdx,
    if p.2 ∈ [8, 13, 18, 23] then p.1 = '-' else p.1 ∈ "0123456789abcdef".toList

instance (id : String) : Decidable (isCanonicalUuid id) := inferInstanceAs (Decidable (_ ∧ _))

structure AcquireRequest where
  readOnly : Bool
  takeover : Bool
  resumeToken : String
  ttl : Option Nat
  clientId : Option String
  deriving DecidableEq

namespace AcquireRequest

/-- The request presents a recovery credential. -/
def resuming (request : AcquireRequest) : Bool := !request.takeover && request.resumeToken ≠ ""

def check (request : AcquireRequest) : Except String Unit := do
  ensure (request.resumeToken.utf8ByteSize ≤ 128) "invalid resume credential"
  ensure (∀ id ∈ request.clientId, isCanonicalUuid id) "invalid client instance ID"

end AcquireRequest

namespace InputState

/-- The first step of an acquisition: a lease whose deadline has passed is dropped. -/
def expireDue (t : InputState) (now : Nat) : InputState :=
  match t.lease with
  | none => t
  | some lease =>
    if lease.due now then
      { t with lease := none, leaseEvents := t.leaseEvents ++ [⟨lease.id, .expired⟩] }
    else t

/-- The credential of the request is the one in force. A device presents the recovery record; a
client without an instance ID can only take over its own live lease. -/
def authorized (t : InputState) (request : AcquireRequest) : Prop :=
  match request.clientId with
  | some id => ∃ record ∈ t.recovery, record.clientId = id ∧ record.token = request.resumeToken
  | none => t.recovery = none ∧ ∃ current ∈ t.lease, current.resumeToken = request.resumeToken

instance (t : InputState) (request : AcquireRequest) : Decidable (t.authorized request) :=
  match hclient : request.clientId, hrecovery : t.recovery, hlease : t.lease with
  | some id, some record, _ =>
    decidable_of_iff (record.clientId = id ∧ record.token = request.resumeToken)
      (by simp [authorized, hclient, hrecovery])
  | some _, none, _ => isFalse (by simp [authorized, hclient, hrecovery])
  | none, none, some current =>
    decidable_of_iff (current.resumeToken = request.resumeToken)
      (by simp [authorized, hclient, hrecovery, hlease])
  | none, none, none => isFalse (by simp [authorized, hclient, hlease])
  | none, some _, _ => isFalse (by simp [authorized, hclient, hrecovery])

def checkAuthority (t : InputState) (request : AcquireRequest) : Except String Unit :=
  if request.resuming then
    ensure (t.authorized request) "input recovery eligibility is missing or revoked"
  else
    ensure (¬ ((t.lease.isSome ∨ t.recovery.isSome) ∧ request.takeover = false))
      "terminal has an input owner; use a recovery credential, --read-only or --takeover"

/-- The generation of the grant: a resumption keeps the counter. -/
def grantGeneration (t : InputState) (request : AcquireRequest) : Except String Nat :=
  if request.resuming then .ok t.recoveryGeneration
  else context (checkedAdd 64 t.recoveryGeneration 1) "input recovery generation exhausted"

/-- The token of the grant: a resumption keeps the one it presents. -/
def grantToken (request : AcquireRequest) (newToken : String) : String :=
  if request.resuming then request.resumeToken else newToken

/-- The state after a grant. -/
def granted (t : InputState) (request : AcquireRequest) (now generation : Nat)
    (token newLeaseId : String) : InputState :=
  { t with
    recoveryGeneration := generation
    recovery := request.clientId.map fun id => ⟨id, token⟩
    lease := some ⟨newLeaseId, token, 0, request.ttl.map fun duration => now + duration⟩
    leaseEvents := t.leaseEvents ++
      (t.lease.map fun old => (⟨old.id, .takenOver⟩ : LeaseEvent)).toList }

/-- `newToken` and `newLeaseId` are the random identifiers the call draws. -/
def acquireResumableLeaseAt (t : InputState) (request : AcquireRequest) (now : Nat)
    (newToken newLeaseId : String) : Except String LeaseGrant × InputState :=
  match request.check with
  | .error e => (.error e, t)
  | .ok _ =>
    if request.readOnly then (.ok ⟨"", "", 0, none⟩, t)
    else
      let t := t.expireDue now
      match (do t.checkAuthority request; t.grantGeneration request) with
      | .error e => (.error e, t)
      | .ok generation =>
        let token := grantToken request newToken
        (.ok {
          leaseId := newLeaseId
          resumeToken := token
          recoveryGeneration := if request.clientId.isSome then generation else 0
          ttl := request.ttl },
        t.granted request now generation token newLeaseId)

/-! ## Ending -/

def expireLeaseIfDueAt (t : InputState) (leaseId : String) (now : Nat) : InputState :=
  match t.lease with
  | none => t
  | some current =>
    if current.id = leaseId ∧ current.due now then
      { t with lease := none, leaseEvents := t.leaseEvents ++ [⟨leaseId, .expired⟩] }
    else t

/-- The cleanup of a connection that has ended. -/
def releaseLease (t : InputState) (leaseId : String) : InputState :=
  if leaseId = "" then t
  else
    match t.lease with
    | none => t
    | some current => if current.id = leaseId then { t with lease := none } else t

/-! ## Commands -/

/-- The checks of `validate_lease_at` under the lock. -/
def validateLease (t : InputState) (leaseId : String) (sequence : Nat) : Except String Lease := do
  let current ← context t.lease "terminal has no active input lease"
  ensure (current.id = leaseId) "stale or invalid input lease"
  ensure (current.lastSequence < sequence) "duplicate or out-of-order terminal command"
  return current

/-- What the PTY or the engine makes of a command. -/
inductive DeviceResult where
  | done
  | failed (taken : Nat) (error : String)

def renewLeaseAt (t : InputState) (leaseId : String) (sequence ttl now : Nat) :
    Except String Unit × InputState :=
  match t.validateLease leaseId sequence with
  | .error e => (.error e, t)
  | .ok current =>
    (.ok (), { t with
      lease := some { current with expiresAt := some (now + ttl), lastSequence := sequence } })

def releaseLeaseCommand (t : InputState) (leaseId : String) (sequence : Nat) :
    Except String Unit × InputState :=
  match t.validateLease leaseId sequence with
  | .error e => (.error e, t)
  | .ok _ =>
    (.ok (), { t with
      lease := none
      recovery := none
      leaseEvents := t.leaseEvents ++ [⟨leaseId, .released⟩] })

/-- A write that fails has taken a part of the bytes and leaves the sequence number as it was. -/
def writeInput (t : InputState) (leaseId : String) (sequence : Nat) (bytes : List UInt8)
    (device : DeviceResult) : Except String Unit × InputState :=
  match t.validateLease leaseId sequence with
  | .error e => (.error e, t)
  | .ok current =>
    match device with
    | .failed taken e => (.error e, { t with written := t.written ++ bytes.take taken })
    | .done => (.ok (), { t with
        written := t.written ++ bytes
        lease := some { current with lastSequence := sequence } })

def resize (t : InputState) (leaseId : String) (sequence rows cols : Nat)
    (device : DeviceResult) : Except String Unit × InputState :=
  match t.validateLease leaseId sequence with
  | .error e => (.error e, t)
  | .ok current =>
    match device with
    | .failed _ e => (.error e, t)
    | .done => (.ok (), { t with
        rows := rows
        cols := cols
        lease := some { current with lastSequence := sequence } })

end InputState

/-- What a command asks for. -/
inductive CommandKind where
  | input (bytes : List UInt8)
  | resize (rows cols pixelWidth pixelHeight : Nat)
  | renew (ttl : Nat)
  | release
  deriving DecidableEq

structure Command where
  leaseId : String
  sequence : Nat
  kind : CommandKind
  deriving DecidableEq

/-- The checks of `resize` before it asks for the lease. -/
def Command.check (command : Command) : Except String Unit :=
  match command.kind with
  | .resize rows cols pixelWidth pixelHeight => do
    ensure ((1 ≤ rows ∧ rows ≤ 1000) ∧ 1 ≤ cols ∧ cols ≤ 1000)
      "terminal dimensions must be between 1 and 1000"
    ensure (¬ (decide (pixelWidth = 0) ≠ decide (pixelHeight = 0) ∨ pixelWidth > 65535 ∨
        pixelHeight > 65535))
      "terminal pixel dimensions must both be zero or between 1 and 65535"
  | _ => .ok ()

/-- The locked section of a command. -/
def InputState.act (t : InputState) (command : Command) (now : Nat) (device : DeviceResult) :
    Except String Unit × InputState :=
  match command.kind with
  | .input bytes => t.writeInput command.leaseId command.sequence bytes device
  | .resize rows cols _ _ => t.resize command.leaseId command.sequence rows cols device
  | .renew ttl => t.renewLeaseAt command.leaseId command.sequence ttl now
  | .release => t.releaseLeaseCommand command.leaseId command.sequence

/-! ## What the sections can do -/

namespace InputState

variable {t t' : InputState} {request : AcquireRequest} {now : Nat} {newToken newLeaseId : String}

/-- Everything an acquisition can do. -/
inductive Acquires (t : InputState) (request : AcquireRequest) (now : Nat)
    (newToken newLeaseId : String) : Except String LeaseGrant → InputState → Prop
  /-- The request is malformed. -/
  | malformed (e : String) : Acquires t request now newToken newLeaseId (.error e) t
  | readOnly (hreadOnly : request.readOnly = true) :
      Acquires t request now newToken newLeaseId (.ok ⟨"", "", 0, none⟩) t
  /-- The request is refused, after the lease that was due has been dropped. -/
  | refused (e : String) :
      Acquires t request now newToken newLeaseId (.error e) (t.expireDue now)
  | resumed (grant : LeaseGrant) (hwritable : request.readOnly = false)
      (hresuming : request.resuming = true) (hauthorized : (t.expireDue now).authorized request)
      (hgrant : grant.leaseId = newLeaseId ∧ grant.resumeToken = request.resumeToken) :
      Acquires t request now newToken newLeaseId (.ok grant)
        ((t.expireDue now).granted request now t.recoveryGeneration request.resumeToken newLeaseId)
  | fresh (grant : LeaseGrant) (hwritable : request.readOnly = false)
      (hresuming : request.resuming = false)
      (hfree : request.takeover = true ∨
        (t.expireDue now).lease = none ∧ (t.expireDue now).recovery = none)
      (hgrant : grant.leaseId = newLeaseId ∧ grant.resumeToken = newToken) :
      Acquires t request now newToken newLeaseId (.ok grant)
        ((t.expireDue now).granted request now (t.recoveryGeneration + 1) newToken newLeaseId)

theorem expireDue_recovery (t : InputState) (now : Nat) :
    (t.expireDue now).recovery = t.recovery := by
  unfold expireDue
  split
  · rfl
  · split <;> rfl

theorem expireDue_recoveryGeneration (t : InputState) (now : Nat) :
    (t.expireDue now).recoveryGeneration = t.recoveryGeneration := by
  unfold expireDue
  split
  · rfl
  · split <;> rfl

theorem expireDue_lease (t : InputState) (now : Nat) :
    (t.expireDue now).lease = t.lease ∨ (t.expireDue now).lease = none := by
  unfold expireDue
  split
  · exact .inl rfl
  · split
    · exact .inr rfl
    · exact .inl rfl

theorem acquireResumableLeaseAt_cases {result : Except String LeaseGrant}
    (h : t.acquireResumableLeaseAt request now newToken newLeaseId = (result, t')) :
    t.Acquires request now newToken newLeaseId result t' := by
  unfold acquireResumableLeaseAt at h
  split at h
  · cases h
    exact .malformed _
  split at h
  next hreadOnly =>
    cases h
    exact .readOnly hreadOnly
  next hwritable =>
    rw [Bool.not_eq_true] at hwritable
    dsimp only at h
    split at h
    · cases h
      exact .refused _
    next generation hok =>
      cases h
      obtain ⟨⟨⟩, hauthority, hgeneration⟩ := bind_eq_ok_iff.1 hok
      unfold checkAuthority at hauthority
      unfold grantGeneration at hgeneration
      rw [expireDue_recoveryGeneration] at hgeneration
      unfold grantToken
      -- A resumption passes the credential check, any other grant the ownership check.
      split at hauthority
      next hresuming =>
        rw [if_pos hresuming] at hgeneration ⊢
        cases hgeneration
        exact .resumed _ hwritable hresuming (ensure_eq_ok_iff.1 hauthority) ⟨rfl, rfl⟩
      next hresuming =>
        rw [if_neg hresuming, context_eq_ok_iff, checkedAdd_eq_some_iff] at hgeneration
        rw [if_neg hresuming]
        obtain ⟨-, rfl⟩ := hgeneration
        refine .fresh _ hwritable (by simpa using hresuming) ?_ ⟨rfl, rfl⟩
        have hfree := ensure_eq_ok_iff.1 hauthority
        by_cases htakeover : request.takeover = true
        · exact .inl htakeover
        · refine .inr ?_
          simpa [htakeover] using hfree

/-- A well-formed request that presents a credential is decided by it alone. -/
theorem acquireResumableLeaseAt_of_resuming (hcheck : request.check = .ok ())
    (hwritable : request.readOnly = false) (hresuming : request.resuming = true) :
    t.acquireResumableLeaseAt request now newToken newLeaseId =
      if (t.expireDue now).authorized request then
        (.ok {
          leaseId := newLeaseId
          resumeToken := request.resumeToken
          recoveryGeneration := if request.clientId.isSome then t.recoveryGeneration else 0
          ttl := request.ttl },
        (t.expireDue now).granted request now t.recoveryGeneration request.resumeToken newLeaseId)
      else (.error "input recovery eligibility is missing or revoked", t.expireDue now) := by
  have hgeneration : (t.expireDue now).grantGeneration request = .ok t.recoveryGeneration := by
    rw [grantGeneration, if_pos hresuming, expireDue_recoveryGeneration]
  have htoken : grantToken request newToken = request.resumeToken := by
    rw [grantToken, if_pos hresuming]
  rw [acquireResumableLeaseAt, hcheck, hwritable]
  dsimp only
  rw [if_neg (by simp), htoken, checkAuthority, if_pos hresuming]
  by_cases hauthorized : (t.expireDue now).authorized request
  · rw [if_pos hauthorized, ensure_bind_of _ _ hauthorized, hgeneration]
  · rw [if_neg hauthorized, ensure_bind_of_not _ _ hauthorized]

/-- Everything the locked section of a command can do to the lease and the recovery record. -/
inductive Acts (t : InputState) (command : Command) : Except String Unit → InputState → Prop
  /-- The command is refused, or the device fails. -/
  | refused (e : String) (t' : InputState) (hlease : t'.lease = t.lease)
      (hrecovery : t'.recovery = t.recovery)
      (hgeneration : t'.recoveryGeneration = t.recoveryGeneration) :
      Acts t command (.error e) t'
  | accepted (current renewed : Lease) (t' : InputState) (hkind : command.kind ≠ .release)
      (hlease : t.lease = some current)
      (hid : current.id = command.leaseId) (hsequence : current.lastSequence < command.sequence)
      (hlease' : t'.lease = some renewed)
      (hrenewed : renewed.id = current.id ∧ renewed.resumeToken = current.resumeToken ∧
        renewed.lastSequence = command.sequence)
      (hrecovery : t'.recovery = t.recovery)
      (hgeneration : t'.recoveryGeneration = t.recoveryGeneration) :
      Acts t command (.ok ()) t'
  | released (current : Lease) (t' : InputState) (hkind : command.kind = .release)
      (hlease : t.lease = some current) (hid : current.id = command.leaseId)
      (hsequence : current.lastSequence < command.sequence) (hlease' : t'.lease = none)
      (hrecovery : t'.recovery = none)
      (hgeneration : t'.recoveryGeneration = t.recoveryGeneration) :
      Acts t command (.ok ()) t'

theorem validateLease_eq_ok_iff {leaseId : String} {sequence : Nat} {current : Lease} :
    t.validateLease leaseId sequence = .ok current ↔
      t.lease = some current ∧ current.id = leaseId ∧ current.lastSequence < sequence := by
  simp only [validateLease, bind_eq_ok_iff, context_eq_ok_iff, ensure_eq_ok_iff, pure_eq_ok_iff]
  constructor
  · rintro ⟨a, hlease, ⟨⟩, hid, ⟨⟩, hsequence, rfl⟩
    exact ⟨hlease, hid, hsequence⟩
  · rintro ⟨hlease, hid, hsequence⟩
    exact ⟨current, hlease, ⟨⟩, hid, ⟨⟩, hsequence, rfl⟩

theorem act_cases {command : Command} {device : DeviceResult} {result : Except String Unit}
    (h : t.act command now device = (result, t')) : t.Acts command result t' := by
  unfold act at h
  -- Every command is validated first, and the lease stays when that fails.
  cases hvalid : t.validateLease command.leaseId command.sequence with
  | error e =>
    have hsame : t' = t ∧ result = .error e := by
      cases hkind : command.kind <;>
        simp_all [writeInput, resize, renewLeaseAt, releaseLeaseCommand]
    obtain ⟨rfl, rfl⟩ := hsame
    exact .refused _ _ rfl rfl rfl
  | ok current =>
    obtain ⟨hlease, hid, hsequence⟩ := validateLease_eq_ok_iff.1 hvalid
    cases hkind : command.kind <;>
      simp only [hkind, writeInput, resize, renewLeaseAt, releaseLeaseCommand, hvalid] at h
    case release =>
      cases h
      exact .released current _ hkind hlease hid hsequence rfl rfl rfl
    case renew =>
      cases h
      exact .accepted current _ _ (by simp [hkind]) hlease hid hsequence rfl ⟨rfl, rfl, rfl⟩ rfl rfl
    all_goals
      cases device with
      | failed taken e =>
        cases h
        exact .refused _ _ rfl rfl rfl
      | done =>
        cases h
        exact .accepted current _ _ (by simp [hkind]) hlease hid hsequence rfl ⟨rfl, rfl, rfl⟩
          rfl rfl

/-- An expiry or a cleanup drops the lease it names or does nothing. -/
theorem expireLeaseIfDueAt_cases (t : InputState) (leaseId : String) (now : Nat) :
    t.expireLeaseIfDueAt leaseId now = t ∨
      ∃ current, t.lease = some current ∧ current.id = leaseId ∧ current.due now ∧
        t.expireLeaseIfDueAt leaseId now =
          { t with lease := none, leaseEvents := t.leaseEvents ++ [⟨leaseId, .expired⟩] } := by
  unfold expireLeaseIfDueAt
  split
  · exact .inl rfl
  next current hlease =>
    split
    next hdue => exact .inr ⟨current, hlease, hdue.1, hdue.2, rfl⟩
    · exact .inl rfl

theorem releaseLease_cases (t : InputState) (leaseId : String) :
    t.releaseLease leaseId = t ∨
      ∃ current, t.lease = some current ∧ current.id = leaseId ∧
        t.releaseLease leaseId = { t with lease := none } := by
  unfold releaseLease
  split
  · exact .inl rfl
  · split
    · exact .inl rfl
    next current hlease =>
      split
      next hid => exact .inr ⟨current, hlease, hid, rfl⟩
      · exact .inl rfl

end InputState

end AstraShell.Terminal
