import Mathlib.Algebra.Order.BigOperators.Group.List
import AstraShell.Lib.Checked

/-!
# Resource claims and pools

`resources.rs` without its locks: claims over twelve resources, the limits of a pool, and the policy
of a server. A claim of the source is a record of twelve counters; here it is a function of the
resource, and `Resource.all` is the order in which the source goes through the fields.

A pool admits a claim when no counter overflows and no limit is passed
(`ResourcePool.reserve_ok_iff`), and the bundle of a worker fits into the pools of every policy that
validates (`ResourcePolicy.reserve_worker`).
-/

set_option autoImplicit false

namespace AstraShell.Resources

open Lib

inductive Resource where
  | connections
  | streams
  | workers
  | terminals
  | attachments
  | terminalMemoryBytes
  | historyBytes
  | forwardConnections
  | forwardBufferBytes
  | fileHandles
  | uploads
  | uploadBytes
  deriving DecidableEq

namespace Resource

/-- The order of `dimensions`. -/
def all : List Resource :=
  [connections, streams, workers, terminals, attachments, terminalMemoryBytes, historyBytes,
    forwardConnections, forwardBufferBytes, fileHandles, uploads, uploadBytes]

theorem mem_all (r : Resource) : r ∈ all := by
  cases r <;> decide

def name : Resource → String
  | connections => "connections"
  | streams => "streams"
  | workers => "workers"
  | terminals => "terminals"
  | attachments => "attachments"
  | terminalMemoryBytes => "terminal_memory_bytes"
  | historyBytes => "history_bytes"
  | forwardConnections => "forward_connections"
  | forwardBufferBytes => "forward_buffer_bytes"
  | fileHandles => "file_handles"
  | uploads => "uploads"
  | uploadBytes => "upload_bytes"

end Resource

/-! ## Claims -/

abbrev ResourceClaim : Type := Resource → Nat

abbrev ResourceLimits : Type := Resource → Nat

namespace ResourceClaim

/-- An amount of one resource. -/
def only (r : Resource) (amount : Nat) : ResourceClaim := fun r' => if r' = r then amount else 0

def connection : ResourceClaim := only .connections 1

def stream : ResourceClaim := only .streams 1

def attachment : ResourceClaim := only .attachments 1

def fileHandle : ResourceClaim := only .fileHandles 1

def upload (bytes : Nat) : ResourceClaim
  | .uploads => 1
  | .uploadBytes => bytes
  | _ => 0

/-- Addition of 64-bit counters; one that overflows fails the whole. -/
def checkedAdd (a b : ResourceClaim) : Option ResourceClaim :=
  if ∀ r ∈ Resource.all, a r + b r < 2 ^ 64 then some fun r => a r + b r else none

def checkedSub (a b : ResourceClaim) : Option ResourceClaim :=
  if ∀ r ∈ Resource.all, b r ≤ a r then some fun r => a r - b r else none

theorem checkedAdd_eq_some_iff {a b c : ResourceClaim} :
    checkedAdd a b = some c ↔ (∀ r, a r + b r < 2 ^ 64) ∧ c = fun r => a r + b r := by
  rw [checkedAdd]
  split
  next h =>
    rw [Option.some.injEq, eq_comm]
    exact ⟨fun hc => ⟨fun r => h r r.mem_all, hc⟩, fun hc => hc.2⟩
  next h =>
    constructor
    · intro hc
      cases hc
    · intro hc
      exact absurd (fun r _ => hc.1 r) h

end ResourceClaim

/-! ## Pools -/

structure QuotaExceeded where
  scope : String
  resource : String
  requested : Nat
  current : Nat
  limit : Nat
  deriving DecidableEq

def QuotaExceeded.text (e : QuotaExceeded) : String :=
  e.scope ++ " quota exceeded for " ++ e.resource ++ ": requested " ++ toString e.requested ++
    ", current " ++ toString e.current ++ ", limit " ++ toString e.limit

structure ResourcePool where
  scope : String
  limits : ResourceLimits
  usage : ResourceClaim

namespace ResourceLimits

def globalDefaults : ResourceLimits
  | .connections => 1024
  | .streams => 8192
  | .workers => 64
  | .terminals => 4096
  | .attachments => 16384
  | .terminalMemoryBytes => 16 * 2 ^ 30
  | .historyBytes => 32 * 2 ^ 30
  | .forwardConnections => 256
  | .forwardBufferBytes => 64 * 2 ^ 20
  | .fileHandles => 16384
  | .uploads => 1024
  | .uploadBytes => 512 * 2 ^ 30

def userDefaults : ResourceLimits
  | .connections => 8
  | .streams => 256
  | .workers => 1
  | .terminals => 64
  | .attachments => 256
  | .terminalMemoryBytes => 256 * 2 ^ 20
  | .historyBytes => 512 * 2 ^ 20
  | .forwardConnections => 32
  | .forwardBufferBytes => 8 * 2 ^ 20
  | .fileHandles => 256
  | .uploads => 16
  | .uploadBytes => 8 * 2 ^ 30

/-- Only forwarding may be switched off. -/
def validate (limits : ResourceLimits) (scope : String) : Except String Unit :=
  checkEach (fun r => ensure (0 < limits r ∨ "forward_".toList.isPrefixOf r.name.toList = true)
    (scope ++ " " ++ r.name ++ " limit must be nonzero")) Resource.all

end ResourceLimits

namespace ResourcePool

def new (scope : String) (limits : ResourceLimits) : Except String ResourcePool := do
  limits.validate scope
  return ⟨scope, limits, fun _ => 0⟩

/-- The pool after a claim was added. -/
def reserve (pool : ResourcePool) (claim : ResourceClaim) : Except QuotaExceeded ResourcePool :=
  match pool.usage.checkedAdd claim with
  | none => .error ⟨pool.scope, "counter", 1, 2 ^ 64 - 1, 2 ^ 64 - 1⟩
  | some next =>
    match Resource.all.find? fun r => pool.limits r < next r with
    | some r => .error ⟨pool.scope, r.name, claim r, pool.usage r, pool.limits r⟩
    | none => .ok { pool with usage := next }

/-- The end of a reservation; `none` is the panic of an accounting underflow. -/
def release (pool : ResourcePool) (claim : ResourceClaim) : Option ResourcePool :=
  (pool.usage.checkedSub claim).map fun usage => { pool with usage := usage }

theorem reserve_ok_iff {pool pool' : ResourcePool} {claim : ResourceClaim} :
    pool.reserve claim = .ok pool' ↔
      (∀ r, pool.usage r + claim r < 2 ^ 64) ∧ (∀ r, pool.usage r + claim r ≤ pool.limits r) ∧
        pool' = { pool with usage := fun r => pool.usage r + claim r } := by
  rw [reserve]
  cases hadd : pool.usage.checkedAdd claim with
  | none =>
    constructor
    · intro h
      cases h
    · intro h
      rw [ResourceClaim.checkedAdd_eq_some_iff.2 ⟨h.1, rfl⟩] at hadd
      cases hadd
  | some next =>
    obtain ⟨hfits, rfl⟩ := ResourceClaim.checkedAdd_eq_some_iff.1 hadd
    dsimp only
    cases hfind : Resource.all.find? fun r => pool.limits r < pool.usage r + claim r with
    | some r =>
      have hover := List.find?_some hfind
      rw [decide_eq_true_eq] at hover
      constructor
      · intro h
        cases h
      · intro h
        exact absurd (h.2.1 r) (Nat.not_le.2 hover)
    | none =>
      have hunder : ∀ r, pool.usage r + claim r ≤ pool.limits r := by
        intro r
        have hr := List.find?_eq_none.1 hfind r r.mem_all
        rw [decide_eq_true_eq, Nat.not_lt] at hr
        exact hr
      constructor
      · intro h
        cases h
        exact ⟨hfits, hunder, rfl⟩
      · rintro ⟨-, -, rfl⟩
        rfl

theorem release_of_le {pool : ResourcePool} {claim : ResourceClaim}
    (h : ∀ r, claim r ≤ pool.usage r) :
    pool.release claim = some { pool with usage := fun r => pool.usage r - claim r } := by
  rw [release, ResourceClaim.checkedSub, if_pos fun r _ => h r]
  rfl

end ResourcePool

/-! ## Accounts -/

namespace ResourceAccount

variable {claim : ResourceClaim} {pools pools' : List ResourcePool}

/-- `ResourceAccount::reserve`: in all pools of the account or in none. -/
def reserve (claim : ResourceClaim) : List ResourcePool → Except QuotaExceeded (List ResourcePool)
  | [] => .ok []
  | pool :: rest => do
    let pool ← pool.reserve claim
    let rest ← reserve claim rest
    return pool :: rest

/-- A reservation of the account is dropped. -/
def release (claim : ResourceClaim) (pools : List ResourcePool) : List ResourcePool :=
  pools.map fun pool => (pool.release claim).getD pool

theorem reserve_ok (h : reserve claim pools = .ok pools') :
    pools' = pools.map fun pool => { pool with usage := fun r => pool.usage r + claim r } := by
  induction pools generalizing pools' with
  | nil =>
    cases h
    rfl
  | cons pool rest ih =>
    obtain ⟨pool', hpool, hrest⟩ := bind_eq_ok_iff.1 h
    obtain ⟨rest', hrest', hpure⟩ := bind_eq_ok_iff.1 hrest
    cases hpure
    obtain ⟨-, -, rfl⟩ := ResourcePool.reserve_ok_iff.1 hpool
    rw [ih hrest', List.map_cons]

/-- No limit is passed by a reservation. -/
theorem reserve_le_limits (h : reserve claim pools = .ok pools') :
    ∀ pool ∈ pools', ∀ r, pool.usage r ≤ pool.limits r := by
  induction pools generalizing pools' with
  | nil =>
    cases h
    simp
  | cons pool rest ih =>
    obtain ⟨pool', hpool, hrest⟩ := bind_eq_ok_iff.1 h
    obtain ⟨rest', hrest', hpure⟩ := bind_eq_ok_iff.1 hrest
    cases hpure
    obtain ⟨-, hlimits, rfl⟩ := ResourcePool.reserve_ok_iff.1 hpool
    exact List.forall_mem_cons.2 ⟨hlimits, ih hrest'⟩

/-- A reservation that is counted can be given back. -/
theorem release_of_le (h : ∀ pool ∈ pools, ∀ r, claim r ≤ pool.usage r) :
    release claim pools =
      pools.map fun pool => { pool with usage := fun r => pool.usage r - claim r } := by
  apply List.map_congr_left
  intro pool hpool
  rw [ResourcePool.release_of_le (h pool hpool)]
  rfl

theorem release_reserve (h : reserve claim pools = .ok pools') : release claim pools' = pools := by
  rw [reserve_ok h, release_of_le]
  · rw [List.map_map]
    conv_rhs => rw [← List.map_id pools]
    apply List.map_congr_left
    intro pool _
    simp
  · intro pool hpool r
    obtain ⟨pool', -, rfl⟩ := List.mem_map.1 hpool
    exact Nat.le_add_left _ _

end ResourceAccount

/-! ## Policies -/

structure ResourcePolicy where
  global : ResourceLimits
  user : ResourceLimits
  terminalBaseMemoryBytes : Nat
  terminalCellMemoryBytes : Nat
  terminalHistoryRows : Nat
  terminalHistoryBytes : Nat

def defaultTerminalHistoryRows : Nat := 10000

def maxTerminalHistoryRows : Nat := 1000000

/-- One GiB. -/
def maxTerminalHistoryBytes : Nat := 2 ^ 30

namespace ResourcePolicy

def default : ResourcePolicy where
  global := .globalDefaults
  user := .userDefaults
  terminalBaseMemoryBytes := 4 * 2 ^ 20
  terminalCellMemoryBytes := 64
  terminalHistoryRows := defaultTerminalHistoryRows
  terminalHistoryBytes := 8 * 2 ^ 20

def validate (policy : ResourcePolicy) : Except String Unit := do
  policy.global.validate "global"
  policy.user.validate "user"
  ensure (policy.user .workers = 1) "each Unix user must own exactly one managed worker capacity"
  ensure (0 < policy.terminalBaseMemoryBytes ∧ 0 < policy.terminalCellMemoryBytes ∧
      0 < policy.terminalHistoryRows ∧ 0 < policy.terminalHistoryBytes)
    "per-terminal capacity values must be nonzero"
  ensure (policy.terminalHistoryRows ≤ maxTerminalHistoryRows)
    "per-terminal history rows exceed the server hard limit"
  ensure (policy.terminalHistoryBytes ≤ maxTerminalHistoryBytes)
    "per-terminal history bytes exceed the server hard limit"
  ensure (policy.terminalBaseMemoryBytes ≤ policy.user .terminalMemoryBytes)
    "user terminal memory must fit one terminal base reservation"
  ensure (policy.terminalHistoryBytes ≤ policy.user .historyBytes)
    "user history capacity must fit one terminal reservation"
  checkEach (fun r => ensure (policy.user r ≤ policy.global r)
    ("global " ++ r.name ++ " limit must fit one complete user capacity")) Resource.all

/-- The bundle of a worker: everything a user may have, apart from connections and streams. -/
def workerCapacityClaim (policy : ResourcePolicy) : ResourceClaim
  | .workers => 1
  | .connections => 0
  | .streams => 0
  | r => policy.user r

variable {policy : ResourcePolicy}

section

variable (h : policy.validate = .ok ())

include h

theorem validate_user_workers : policy.user .workers = 1 := by
  simp only [validate, bind_eq_ok_iff, ensure_eq_ok_iff] at h
  obtain ⟨-, -, -, -, -, hworkers, -⟩ := h
  exact hworkers

theorem validate_user_le_global (r : Resource) : policy.user r ≤ policy.global r := by
  simp only [validate, bind_eq_ok_iff, ensure_eq_ok_iff, checkEach_eq_ok_iff] at h
  obtain ⟨-, -, -, -, -, -, -, -, -, -, -, -, -, -, -, -, hglobal⟩ := h
  exact hglobal r r.mem_all

theorem workerCapacityClaim_le_user
    (r : Resource) : policy.workerCapacityClaim r ≤ policy.user r := by
  cases r with
  | workers => exact (validate_user_workers h).ge
  | connections | streams => exact Nat.zero_le _
  | _ => exact le_rfl

/-- An empty pool with the limits of a user, or larger ones, admits the bundle of a worker. -/
theorem reserve_worker (hfits : ∀ r, policy.user r < 2 ^ 64) {pool : ResourcePool}
    (hempty : ∀ r, pool.usage r = 0) (hlimits : ∀ r, policy.user r ≤ pool.limits r) :
    ∃ pool', pool.reserve policy.workerCapacityClaim = .ok pool' := by
  refine ⟨_, ResourcePool.reserve_ok_iff.2 ⟨fun r => ?_, fun r => ?_, rfl⟩⟩
  · rw [hempty r, Nat.zero_add]
    exact (workerCapacityClaim_le_user h r).trans_lt (hfits r)
  · rw [hempty r, Nat.zero_add]
    exact (workerCapacityClaim_le_user h r).trans (hlimits r)

end

end ResourcePolicy

end AstraShell.Resources
