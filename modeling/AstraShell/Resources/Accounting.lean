import Mathlib.Data.String.Basic
import AstraShell.Lib.OrdMap
import AstraShell.Resources.Policy

/-!
# Quota accounting

`ResourceGovernor` and `ResourceAccount::reserve` of `resources.rs`, used by any number of threads.
A call reserves its claim in the pools of its account one after the other, each under the lock of
that pool; when one refuses, the reservations made so far are dropped, again one lock at a time. A
reservation that was returned is dropped in the same way. `Quotas.step` is one lock.

The usage of a pool is what the calls and reservations hold of it at that moment, in every resource
(`Quotas.Inv`); `quota_accounting` is what follows.
-/

set_option autoImplicit false

namespace AstraShell.Resources

open Lib

/-! ## The governor -/

inductive PoolId where
  | global
  | user (name : String)
  deriving DecidableEq

structure ResourceGovernor where
  global : ResourcePool
  users : OrdMap String ResourcePool
  userLimits : ResourceLimits

namespace ResourceGovernor

def new (policy : ResourcePolicy) : Except String ResourceGovernor := do
  policy.validate
  let global ← ResourcePool.new "global" policy.global
  return ⟨global, .empty, policy.user⟩

def pool? (governor : ResourceGovernor) : PoolId → Option ResourcePool
  | .global => some governor.global
  | .user name => governor.users.get? name

/-- The lock of a pool is given back with this content. -/
def setPool (governor : ResourceGovernor) (pool : ResourcePool) : PoolId → ResourceGovernor
  | .global => { governor with global := pool }
  | .user name => { governor with users := governor.users.insert name pool }

/-- The pools of `ResourceAccount::layered`, in the order they are reserved in. -/
def accountPools (user : String) : List PoolId := [.global, .user user]

/-- The account of a user; its pool is made when it is first asked for. -/
def account (governor : ResourceGovernor) (user : String) : Except String ResourceGovernor := do
  ensure (user ≠ "") "resource account user is empty"
  match governor.users.get? user with
  | some _ => return governor
  | none =>
    let pool ← ResourcePool.new ("user " ++ user) governor.userLimits
    return governor.setPool pool (.user user)

theorem pool?_setPool (governor : ResourceGovernor) (pool : ResourcePool) (id id' : PoolId) :
    (governor.setPool pool id).pool? id' = if id' = id then some pool else governor.pool? id' := by
  cases id with
  | global => cases id' <;> simp [setPool, pool?]
  | user name =>
    cases id' with
    | global => simp [setPool, pool?]
    | user name' => simp [setPool, pool?, OrdMap.get?_insert]

end ResourceGovernor

open ResourceGovernor

/-! ## Calls and reservations -/

inductive Phase where
  /-- Inside `reserve`. -/
  | reserving
  /-- The reservation is with the caller. -/
  | held
  /-- The reservations are being dropped: after a refusal, or because the caller dropped them. -/
  | releasing (refusal : Option QuotaExceeded)
  | returned (refusal : Option QuotaExceeded)
  deriving DecidableEq

/-- A call of `reserve` and what becomes of it. -/
structure Task where
  pools : List PoolId
  claim : ResourceClaim
  held : List PoolId
  phase : Phase

namespace Task

/-- Dropping an empty list of reservations takes no lock. -/
def release (t : Task) (held : List PoolId) (refusal : Option QuotaExceeded) : Task :=
  { t with
    held := held
    phase := if held = [] then .returned refusal else .releasing refusal }

/-- The reservation of one more pool; after the last one the call returns. -/
def reserved (t : Task) (id : PoolId) : Task :=
  { t with
    held := t.held ++ [id]
    phase := if t.held.length + 1 = t.pools.length then .held else .reserving }

/-- What the task holds of a pool. -/
def charge (t : Task) (id : PoolId) (r : Resource) : Nat := t.held.count id * t.claim r

/-- The pools of a task are reserved from the first to the last. -/
def Ordered (t : Task) : Prop :=
  (t.phase = .reserving → t.held = t.pools.take t.held.length) ∧
  (t.phase = .held → t.held = t.pools)

variable {t : Task}

theorem release_returned {held : List PoolId} {e refusal : Option QuotaExceeded}
    (h : (t.release held e).phase = .returned refusal) : (t.release held e).held = [] := by
  rw [release] at h ⊢
  split at h
  next hnil => exact hnil
  next => cases h

theorem charge_reserved (t : Task) (id id' : PoolId) (r : Resource) :
    (t.reserved id).charge id' r = t.charge id' r + if id' = id then t.claim r else 0 := by
  rw [charge, charge, reserved]
  rw [List.count_append, Nat.add_mul, List.count_singleton]
  by_cases heq : id' = id
  · subst heq
    simp
  · rw [if_neg heq, beq_eq_false_iff_ne.2 (Ne.symm heq)]
    simp

theorem charge_release {id : PoolId} {rest : List PoolId} (h : t.held = id :: rest)
    (e : Option QuotaExceeded) (id' : PoolId) (r : Resource) :
    t.charge id' r = (t.release rest e).charge id' r + if id' = id then t.claim r else 0 := by
  rw [charge, charge, release, h]
  rw [List.count_cons, Nat.add_mul]
  by_cases heq : id' = id
  · subst heq
    simp
  · rw [if_neg heq, beq_eq_false_iff_ne.2 (Ne.symm heq)]
    simp

end Task

structure Quotas where
  governor : ResourceGovernor
  tasks : List Task
  /-- A drop has failed with an accounting underflow. -/
  panicked : Bool

inductive Event where
  | account (user : String)
  | reserve (user : String) (claim : ResourceClaim)
  /-- The task takes the next lock. -/
  | lock (i : Nat)
  /-- The caller drops the reservation. -/
  | drop (i : Nat)

namespace Quotas

/-- The next lock of a task. -/
def lockTask (q : Quotas) (i : Nat) (t : Task) : Quotas :=
  match t.phase with
  | .reserving =>
    match t.pools[t.held.length]? with
    | none => q
    | some id =>
      match q.governor.pool? id with
      | none => q
      | some pool =>
        match pool.reserve t.claim with
        | .error e => { q with tasks := q.tasks.set i (t.release t.held (some e)) }
        | .ok pool => { q with
            governor := q.governor.setPool pool id
            tasks := q.tasks.set i (t.reserved id) }
  | .releasing refusal =>
    match t.held with
    | [] => q
    | id :: rest =>
      match q.governor.pool? id with
      | none => q
      | some pool =>
        match pool.release t.claim with
        | none => { q with panicked := true }
        | some pool => { q with
            governor := q.governor.setPool pool id
            tasks := q.tasks.set i (t.release rest refusal) }
  | _ => q

def step (q : Quotas) : Event → Quotas
  | .account user =>
    match q.governor.account user with
    | .error _ => q
    | .ok governor => { q with governor := governor }
  | .reserve user claim =>
    -- The caller has the account of the user.
    if (q.governor.pool? (.user user)).isSome then
      { q with
        tasks := q.tasks ++ [⟨accountPools user, claim, [], .reserving⟩] }
    else q
  | .lock i =>
    match q.tasks[i]? with
    | none => q
    | some t => q.lockTask i t
  | .drop i =>
    match q.tasks[i]? with
    | none => q
    | some t =>
      if t.phase = .held then { q with tasks := q.tasks.set i (t.release t.held none) } else q

variable {user : String} {q : Quotas}

theorem step_reserve_of (h : (q.governor.pool? (.user user)).isSome) (claim : ResourceClaim) :
    (q.step (.reserve user claim)).tasks =
      q.tasks ++ [⟨accountPools user, claim, [], .reserving⟩] := by
  rw [step, if_pos h]

theorem step_reserve_of_not (h : ¬ (q.governor.pool? (.user user)).isSome) (claim : ResourceClaim) :
    q.step (.reserve user claim) = q := by
  rw [step, if_neg h]

variable {i : Nat}

theorem step_lock_of_none (h : q.tasks[i]? = none) : q.step (.lock i) = q := by
  rw [step, h]

inductive Reachable (policy : ResourcePolicy) : Quotas → Prop
  | start {governor : ResourceGovernor} (h : ResourceGovernor.new policy = .ok governor) :
      Reachable policy ⟨governor, [], false⟩
  | step {q : Quotas} (h : Reachable policy q) (event : Event) : Reachable policy (q.step event)

/-! ## The invariant -/

/-- What the tasks hold of a pool together. -/
def charged (tasks : List Task) (id : PoolId) (r : Resource) : Nat :=
  (tasks.map fun t => t.charge id r).sum

variable {tasks : List Task}

/-- Replacing one task changes the sum by the difference of the two. -/
theorem charged_set {t : Task} (h : tasks[i]? = some t) (t' : Task) (id : PoolId) (r : Resource) :
    charged (tasks.set i t') id r + t.charge id r = charged tasks id r + t'.charge id r := by
  induction tasks generalizing i with
  | nil => cases h
  | cons first rest ih =>
    cases i with
    | zero =>
      cases h
      simp only [charged, List.set_cons_zero, List.map_cons, List.sum_cons]
      omega
    | succ i =>
      have hrest := ih (i := i) h
      simp only [charged, List.set_cons_succ, List.map_cons, List.sum_cons] at hrest ⊢
      omega

theorem charged_eraseIdx {t : Task} (h : tasks[i]? = some t) (id : PoolId) (r : Resource) :
    charged (tasks.eraseIdx i) id r + t.charge id r = charged tasks id r := by
  induction tasks generalizing i with
  | nil => cases h
  | cons first rest ih =>
    cases i with
    | zero =>
      cases h
      simp only [charged, List.eraseIdx_cons_zero, List.map_cons, List.sum_cons]
      omega
    | succ i =>
      have hrest := ih (i := i) h
      simp only [charged, List.eraseIdx_cons_succ, List.map_cons, List.sum_cons] at hrest ⊢
      omega

variable {policy : ResourcePolicy} {q : Quotas} {t : Task} {i : Nat}

structure Inv (policy : ResourcePolicy) (q : Quotas) : Prop where
  /-- Pools have the limits of the policy. -/
  limits : ∀ id pool, q.governor.pool? id = some pool →
    pool.limits = if id = .global then policy.global else policy.user
  userLimits : q.governor.userLimits = policy.user
  usage : ∀ id pool, q.governor.pool? id = some pool → ∀ r, pool.usage r = charged q.tasks id r
  within : ∀ id pool, q.governor.pool? id = some pool → ∀ r, pool.usage r ≤ pool.limits r
  /-- A task holds and asks for pools that exist. -/
  known : ∀ t ∈ q.tasks, ∀ id, id ∈ t.pools ∨ id ∈ t.held → (q.governor.pool? id).isSome
  returned : ∀ t ∈ q.tasks, ∀ refusal, t.phase = .returned refusal → t.held = []
  calm : q.panicked = false

theorem new_eq_ok {scope : String} {limits : ResourceLimits} {pool : ResourcePool}
    (h : ResourcePool.new scope limits = .ok pool) :
    pool.limits = limits ∧ ∀ r, pool.usage r = 0 := by
  obtain ⟨⟨⟩, -, hpool⟩ := bind_eq_ok_iff.1 h
  cases hpool
  exact ⟨rfl, fun _ => rfl⟩

theorem inv_start {governor : ResourceGovernor} (h : ResourceGovernor.new policy = .ok governor) :
    Inv policy ⟨governor, [], false⟩ := by
  obtain ⟨⟨⟩, -, hnew⟩ := bind_eq_ok_iff.1 h
  obtain ⟨global, hglobal, hgovernor⟩ := bind_eq_ok_iff.1 hnew
  cases hgovernor
  obtain ⟨hlimits, hempty⟩ := new_eq_ok hglobal
  -- The only pool is the global one, and nothing is held of it.
  have honly : ∀ id pool, ResourceGovernor.pool? ⟨global, .empty, policy.user⟩ id = some pool →
      id = .global ∧ pool = global := by
    intro id pool hpool
    cases id with
    | global => exact ⟨rfl, (Option.some.inj hpool).symm⟩
    | user name => cases hpool
  refine
    { limits := ?_
      userLimits := rfl
      usage := ?_
      within := ?_
      known := fun t ht => by cases ht
      returned := fun t ht => by cases ht
      calm := rfl }
  · intro id pool hpool
    obtain ⟨rfl, rfl⟩ := honly id pool hpool
    exact hlimits
  · intro id pool hpool r
    obtain ⟨rfl, rfl⟩ := honly id pool hpool
    exact hempty r
  · intro id pool hpool r
    obtain ⟨rfl, rfl⟩ := honly id pool hpool
    rw [hempty r]
    exact Nat.zero_le _

variable {t' : Task}

section

variable (h : Inv policy q) (ht : q.tasks[i]? = some t)

include h ht

/-- The reservations are about to be dropped: this takes no lock yet. -/
theorem Inv.startRelease (e : Option QuotaExceeded) :
    Inv policy { q with tasks := q.tasks.set i (t.release t.held e) } := by
  refine { h with usage := ?_, known := ?_, returned := ?_ }
  · intro id pool hpool r
    have hset := charged_set ht (t.release t.held e) id r
    exact (h.usage id pool hpool r).trans (Nat.add_right_cancel hset).symm
  · intro u hu id hid
    rcases List.mem_or_eq_of_mem_set hu with hu | rfl
    · exact h.known u hu id hid
    · exact h.known t (List.mem_of_getElem? ht) id hid
  · intro u hu refusal hphase
    rcases List.mem_or_eq_of_mem_set hu with hu | rfl
    · exact h.returned u hu refusal hphase
    · exact Task.release_returned hphase

/-- One lock of a pool: the usage moves by what the task holds more or less of this pool. -/
theorem Inv.setPool {id : PoolId}
    {pool pool' : ResourcePool} (hpool : q.governor.pool? id = some pool)
    (hlimits : pool'.limits = pool.limits) (hwithin : ∀ r, pool'.usage r ≤ pool.limits r)
    (husage : ∀ r, pool'.usage r + t.charge id r = pool.usage r + t'.charge id r)
    (hother : ∀ id', id' ≠ id → ∀ r, t'.charge id' r = t.charge id' r)
    (hpools : t'.pools = t.pools) (hheld : ∀ id', id' ∈ t'.held → id' ∈ t.pools ∨ id' ∈ t.held)
    (hreturned : ∀ refusal, t'.phase = .returned refusal → t'.held = []) :
    Inv policy { q with
      governor := q.governor.setPool pool' id
      tasks := q.tasks.set i t' } := by
  have hsome : ∀ id', (q.governor.pool? id').isSome →
      ((q.governor.setPool pool' id).pool? id').isSome := by
    intro id' hid'
    rw [pool?_setPool]
    split
    · rfl
    · exact hid'
  constructor
  case userLimits => cases id <;> exact h.userLimits
  case calm => exact h.calm
  case limits =>
    intro id' p hp
    rw [pool?_setPool] at hp
    split at hp
    next heq =>
      cases hp
      rw [hlimits, heq]
      exact h.limits id pool hpool
    next => exact h.limits id' p hp
  case within =>
    intro id' p hp r
    rw [pool?_setPool] at hp
    split at hp
    next =>
      cases hp
      rw [hlimits]
      exact hwithin r
    next => exact h.within id' p hp r
  case usage =>
    intro id' p hp r
    have hset := charged_set ht t' id' r
    rw [pool?_setPool] at hp
    split at hp
    next heq =>
      cases hp
      subst heq
      have hold := h.usage _ pool hpool r
      have hmove := husage r
      dsimp only
      omega
    next hne =>
      rw [hother id' hne r] at hset
      exact (h.usage id' p hp r).trans (Nat.add_right_cancel hset).symm
  case known =>
    intro u hu id' hid'
    apply hsome
    rcases List.mem_or_eq_of_mem_set hu with hu | rfl
    · exact h.known u hu id' hid'
    · rw [hpools] at hid'
      exact h.known t (List.mem_of_getElem? ht) id' (hid'.elim .inl (hheld id'))
  case returned =>
    intro u hu refusal hphase
    rcases List.mem_or_eq_of_mem_set hu with hu | rfl
    · exact h.returned u hu refusal hphase
    · exact hreturned refusal hphase

theorem Inv.lockTask : Inv policy (q.lockTask i t) := by
  rw [Quotas.lockTask]
  cases hphase : t.phase with
  | held => exact h
  | returned refusal => exact h
  | reserving =>
    cases hid : t.pools[t.held.length]? with
    | none => exact h
    | some id =>
      dsimp only
      cases hpool : q.governor.pool? id with
      | none => exact h
      | some pool =>
        dsimp only
        cases hreserve : pool.reserve t.claim with
        | error e =>
          exact h.startRelease ht (some e)
        | ok pool' =>
          obtain ⟨-, hunder, rfl⟩ := ResourcePool.reserve_ok_iff.1 hreserve
          dsimp only
          apply h.setPool ht hpool
          · rfl
          · exact hunder
          · intro r
            rw [Task.charge_reserved, if_pos rfl]
            dsimp only
            omega
          · intro id' hne r
            rw [Task.charge_reserved, if_neg hne, Nat.add_zero]
          · rfl
          · intro id' hid'
            rcases List.mem_append.1 hid' with hid' | hid'
            · exact .inr hid'
            · rw [List.mem_singleton.1 hid']
              exact .inl (List.mem_of_getElem? hid)
          · intro refusal hrefusal
            rw [Task.reserved] at hrefusal
            split at hrefusal <;> cases hrefusal
  | releasing refusal =>
    cases hheld : t.held with
    | nil => exact h
    | cons id rest =>
      dsimp only
      cases hpool : q.governor.pool? id with
      | none => exact h
      | some pool =>
        -- The task is one of those the usage is the sum of.
        have hcharge : ∀ r, t.claim r ≤ t.charge id r := by
          intro r
          rw [Task.charge_release hheld refusal, if_pos rfl]
          exact Nat.le_add_left _ _
        have hle : ∀ r, t.claim r ≤ pool.usage r := by
          intro r
          rw [h.usage id pool hpool r]
          apply (hcharge r).trans
          exact List.single_le_sum (by simp) _ (List.mem_map_of_mem (List.mem_of_getElem? ht))
        dsimp only
        rw [ResourcePool.release_of_le hle]
        apply h.setPool ht hpool
        · rfl
        · intro r
          exact (Nat.sub_le _ _).trans (h.within id pool hpool r)
        · intro r
          have hmove := Task.charge_release hheld refusal id r
          rw [if_pos rfl] at hmove
          have hfits := hle r
          dsimp only
          omega
        · intro id' hne r
          rw [Task.charge_release hheld refusal id' r, if_neg hne, Nat.add_zero]
        · rfl
        · intro id' hid'
          rw [hheld]
          exact .inr (List.mem_cons_of_mem _ hid')
        · intro refusal' hrefusal
          exact Task.release_returned hrefusal

end

theorem Inv.reserve (h : Inv policy q) (claim : ResourceClaim)
    (huser : (q.governor.pool? (.user user)).isSome) :
    Inv policy { q with
      tasks := q.tasks ++ [⟨accountPools user, claim, [], .reserving⟩] } := by
  refine { h with usage := ?_, known := ?_, returned := ?_ }
  · intro id pool hpool r
    rw [h.usage id pool hpool r]
    simp [charged, Task.charge]
  · intro u hu id hid
    rcases List.mem_append.1 hu with hu | hu
    · exact h.known u hu id hid
    · rw [List.mem_singleton.1 hu] at hid
      rcases hid with hid | hid
      · rcases List.mem_pair.1 hid with rfl | rfl
        · rfl
        · exact huser
      · cases hid
  · intro u hu refusal hphase
    rcases List.mem_append.1 hu with hu | hu
    · exact h.returned u hu refusal hphase
    · rw [List.mem_singleton.1 hu] at hphase
      cases hphase

/-- Nothing is held of a pool that does not exist. -/
theorem Inv.charged_of_none (h : Inv policy q) {id : PoolId} (hid : q.governor.pool? id = none)
    (r : Resource) : charged q.tasks id r = 0 := by
  rw [charged, List.sum_eq_zero_iff]
  intro n hn
  obtain ⟨t, ht, rfl⟩ := List.mem_map.1 hn
  have hout : id ∉ t.held := by
    intro hmem
    have hsome := h.known t ht id (.inr hmem)
    rw [hid] at hsome
    cases hsome
  rw [Task.charge, List.count_eq_zero.2 hout, Nat.zero_mul]

theorem Inv.account (h : Inv policy q) {governor : ResourceGovernor}
    (haccount : q.governor.account user = .ok governor) :
    Inv policy { q with governor := governor } := by
  rw [ResourceGovernor.account] at haccount
  obtain ⟨⟨⟩, -, hmatch⟩ := bind_eq_ok_iff.1 haccount
  cases hget : q.governor.users.get? user with
  | some pool =>
    rw [hget] at hmatch
    cases hmatch
    exact h
  | none =>
    rw [hget] at hmatch
    obtain ⟨pool, hnew, hgovernor⟩ := bind_eq_ok_iff.1 hmatch
    cases hgovernor
    obtain ⟨hlimits, hempty⟩ := new_eq_ok hnew
    constructor
    case userLimits => exact h.userLimits
    case calm => exact h.calm
    case returned => exact h.returned
    case limits =>
      intro id p hp
      rw [pool?_setPool] at hp
      split at hp
      next heq =>
        cases hp
        rw [heq, hlimits, h.userLimits]
        rfl
      next => exact h.limits id p hp
    case usage =>
      intro id p hp r
      rw [pool?_setPool] at hp
      split at hp
      next heq =>
        cases hp
        have hnone : q.governor.pool? (.user user) = none := hget
        rw [heq, hempty r]
        exact (h.charged_of_none hnone r).symm
      next => exact h.usage id p hp r
    case within =>
      intro id p hp r
      rw [pool?_setPool] at hp
      split at hp
      next =>
        cases hp
        rw [hempty r]
        exact Nat.zero_le _
      next => exact h.within id p hp r
    case known =>
      intro t ht id hid
      rw [pool?_setPool]
      split
      · rfl
      · exact h.known t ht id hid

theorem Inv.step (h : Inv policy q) (event : Event) : Inv policy (q.step event) := by
  cases event with
  | account user =>
    rw [Quotas.step]
    cases haccount : q.governor.account user with
    | error e => exact h
    | ok governor => exact h.account haccount
  | reserve user claim =>
    rw [Quotas.step]
    split
    next huser => exact h.reserve claim huser
    next => exact h
  | lock i =>
    rw [Quotas.step]
    cases ht : q.tasks[i]? with
    | none => exact h
    | some t => exact h.lockTask ht
  | drop i =>
    rw [Quotas.step]
    cases ht : q.tasks[i]? with
    | none => exact h
    | some t =>
      dsimp only
      split
      · exact h.startRelease ht none
      · exact h

theorem Reachable.inv (h : Reachable policy q) : Inv policy q := by
  induction h with
  | start hnew => exact inv_start hnew
  | step _ event ih => exact ih.step event

theorem Reachable.validate (h : Reachable policy q) : policy.validate = .ok () := by
  induction h with
  | start hnew =>
    obtain ⟨⟨⟩, hvalidate, -⟩ := bind_eq_ok_iff.1 hnew
    exact hvalidate
  | step _ _ ih => exact ih

/-! ## Held reservations -/

theorem Reachable.foldl (h : Reachable policy q) (events : List Event) :
    Reachable policy (events.foldl Quotas.step q) := by
  induction events generalizing q with
  | nil => exact h
  | cons event rest ih => exact ih (h.step event)

/-- What a step does to the task it is about. -/
inductive Move (event : Event) (i : Nat) : Task → Task → Prop
  | refuse {t : Task} (e : QuotaExceeded) (hphase : t.phase = .reserving) :
      Move event i t (t.release t.held (some e))
  | reserve {t : Task} {id : PoolId} (hphase : t.phase = .reserving)
      (hid : t.pools[t.held.length]? = some id) : Move event i t (t.reserved id)
  | release {t : Task} {id : PoolId} {rest : List PoolId} {refusal : Option QuotaExceeded}
      (hphase : t.phase = .releasing refusal) (hheld : t.held = id :: rest) :
      Move event i t (t.release rest refusal)
  | drop {t : Task} (hphase : t.phase = .held) (hevent : event = .drop i) :
      Move event i t (t.release t.held none)

theorem lockTask_tasks (event : Event) (q : Quotas) (i : Nat) (t : Task) :
    (q.lockTask i t).tasks = q.tasks ∨
      ∃ t', Move event i t t' ∧ (q.lockTask i t).tasks = q.tasks.set i t' := by
  rw [Quotas.lockTask]
  cases hphase : t.phase with
  | held | returned refusal => exact .inl rfl
  | reserving =>
    cases hid : t.pools[t.held.length]? with
    | none => exact .inl rfl
    | some id =>
      dsimp only
      split
      · exact .inl rfl
      · split
        · exact .inr ⟨_, .refuse _ hphase, rfl⟩
        · exact .inr ⟨_, .reserve hphase hid, rfl⟩
  | releasing refusal =>
    cases hheld : t.held with
    | nil => exact .inl rfl
    | cons id rest =>
      dsimp only
      split
      · exact .inl rfl
      · split
        · exact .inl rfl
        · exact .inr ⟨_, .release hphase hheld, rfl⟩

/-- A step adds a task or moves one. -/
theorem step_tasks (q : Quotas) (event : Event) :
    (q.step event).tasks = q.tasks ∨
      (∃ user claim, (q.step event).tasks =
        q.tasks ++ [⟨accountPools user, claim, [], .reserving⟩]) ∨
      ∃ i t t', q.tasks[i]? = some t ∧ Move event i t t' ∧
        (q.step event).tasks = q.tasks.set i t' := by
  cases event with
  | account user =>
    rw [Quotas.step]
    split <;> exact .inl rfl
  | reserve user claim =>
    rw [Quotas.step]
    split
    · exact .inr (.inl ⟨user, claim, rfl⟩)
    · exact .inl rfl
  | lock i =>
    rw [Quotas.step]
    cases ht : q.tasks[i]? with
    | none => exact .inl rfl
    | some t =>
      rcases lockTask_tasks (.lock i) q i t with hsame | ⟨t', hmove, hset⟩
      · exact .inl hsame
      · exact .inr (.inr ⟨i, t, t', ht, hmove, hset⟩)
  | drop i =>
    rw [Quotas.step]
    cases ht : q.tasks[i]? with
    | none => exact .inl rfl
    | some t =>
      dsimp only
      split
      next hphase => exact .inr (.inr ⟨i, t, _, ht, .drop hphase rfl, rfl⟩)
      next => exact .inl rfl

/-- Every task stays in its place. -/
theorem getElem?_step (ht : q.tasks[i]? = some t) (event : Event) :
    (q.step event).tasks[i]? = some t ∨
      ∃ t', Move event i t t' ∧ (q.step event).tasks[i]? = some t' := by
  have hlt := (List.getElem?_eq_some_iff.1 ht).1
  rcases step_tasks q event with hsame | ⟨user, claim, hadd⟩ | ⟨j, u, u', hu, hmove, hset⟩
  · exact .inl (hsame ▸ ht)
  · rw [hadd, List.getElem?_append_left hlt]
    exact .inl ht
  · rw [hset]
    by_cases hij : j = i
    · subst hij
      cases ht.symm.trans hu
      exact .inr ⟨u', hmove, List.getElem?_set_self hlt⟩
    · exact .inl ((List.getElem?_set_ne hij).trans ht)

variable {event : Event}

/-- A reservation is with its caller until the caller drops it. -/
theorem held_step (ht : q.tasks[i]? = some t) (hheld : t.phase = .held)
    (hevent : event ≠ .drop i) : (q.step event).tasks[i]? = some t := by
  rcases getElem?_step ht event with hsame | ⟨t', hmove, -⟩
  · exact hsame
  · cases hmove with
    | refuse e hphase | reserve hphase _ | release hphase _ => cases hheld.symm.trans hphase
    | drop _ hdrop => exact absurd hdrop hevent

theorem held_foldl (ht : q.tasks[i]? = some t) (hheld : t.phase = .held) {events : List Event}
    (hevents : .drop i ∉ events) : (events.foldl Quotas.step q).tasks[i]? = some t := by
  induction events generalizing q with
  | nil => exact ht
  | cons event rest ih =>
    rw [List.mem_cons, not_or] at hevents
    exact ih (held_step ht hheld (Ne.symm hevents.1)) hevents.2

theorem Move.ordered {t : Task} (hmove : Move event i t t') (h : t.Ordered) : t'.Ordered := by
  have hrelease : ∀ held refusal, (t.release held refusal).Ordered := by
    intro held refusal
    rw [Task.release, Task.Ordered]
    constructor <;> intro hphase <;> split at hphase <;> cases hphase
  cases hmove with
  | refuse e _ | release _ _ | drop _ _ => exact hrelease _ _
  | @reserve id hphase hid =>
    have htake : (t.reserved id).held = t.pools.take (t.held.length + 1) := by
      rw [List.take_add_one, hid, ← h.1 hphase]
      rfl
    constructor
    · intro _
      rw [htake, List.length_take]
      have hlt := (List.getElem?_eq_some_iff.1 hid).1
      rw [Nat.min_eq_left hlt]
      rfl
    · intro hheld
      rw [Task.reserved] at hheld
      split at hheld
      next hlast =>
        rw [htake, hlast, List.take_length]
        rfl
      next => cases hheld

theorem Move.pools {t : Task} (hmove : Move event i t t') :
    t'.pools = t.pools ∧ t'.claim = t.claim := by
  cases hmove <;> exact ⟨rfl, rfl⟩

theorem Reachable.ordered (h : Reachable policy q) : ∀ t ∈ q.tasks, t.Ordered := by
  induction h with
  | start _ =>
    intro t ht
    cases ht
  | @step q _ event ih =>
    intro t ht
    rcases step_tasks q event with hsame | ⟨user, claim, hadd⟩ | ⟨i, u, u', hu, hmove, hset⟩
    · exact ih t (hsame ▸ ht)
    · rw [hadd, List.mem_append, List.mem_singleton] at ht
      rcases ht with ht | rfl
      · exact ih t ht
      · constructor
        · intro _
          rfl
        · intro hphase
          cases hphase
    · rw [hset] at ht
      rcases List.mem_or_eq_of_mem_set ht with ht | rfl
      · exact ih t ht
      · exact hmove.ordered (ih u (List.mem_of_getElem? hu))

theorem pools_foldl (ht : q.tasks[i]? = some t) (events : List Event) :
    ∃ t', (events.foldl Quotas.step q).tasks[i]? = some t' ∧ t'.pools = t.pools ∧
      t'.claim = t.claim := by
  induction events generalizing q t with
  | nil => exact ⟨t, ht, rfl, rfl⟩
  | cons event rest ih =>
    rcases getElem?_step ht event with hsame | ⟨u, hmove, hu⟩
    · exact ih hsame
    · obtain ⟨t', ht', hpools, hclaim⟩ := ih hu
      exact ⟨t', ht', hpools.trans hmove.pools.1, hclaim.trans hmove.pools.2⟩

/-- Tasks that each hold so much hold it together. -/
theorem length_mul_le_charged {indices : List Nat} {id : PoolId} {r : Resource} {amount : Nat}
    (hnodup : indices.Nodup) (h : ∀ i ∈ indices, ∃ t, tasks[i]? = some t ∧ amount ≤ t.charge id r) :
    indices.length * amount ≤ charged tasks id r := by
  induction indices generalizing tasks with
  | nil => exact (Nat.zero_mul _).trans_le (Nat.zero_le _)
  | cons i rest ih =>
    obtain ⟨hi, hrest⟩ := List.nodup_cons.1 hnodup
    obtain ⟨t, ht, hamount⟩ := h i List.mem_cons_self
    -- Without the first task the others still hold what they hold.
    have hothers :
        rest.length * amount ≤ charged (tasks.set i (t.release [] none)) id r := by
      apply ih hrest
      intro j hj
      obtain ⟨u, hu, hle⟩ := h j (List.mem_cons_of_mem _ hj)
      have hij : i ≠ j := by
        rintro rfl
        exact hi hj
      exact ⟨u, (List.getElem?_set_ne hij).trans hu, hle⟩
    have hset := charged_set ht (t.release [] none) id r
    have hzero : (t.release [] none).charge id r = 0 := Nat.zero_mul _
    rw [List.length_cons, Nat.succ_mul]
    omega

/-! ## Main result -/

/-- At every moment of every interleaving: the usage of a pool is the sum of what is held of it and
within its limits; no drop has underflowed; a call that was refused and has returned counts for
nothing; and the bundle of a worker is admitted by the global pool and by that of a user when both
are empty. -/
theorem quota_accounting (hu64 : ∀ r, policy.user r < 2 ^ 64) (h : Reachable policy q) :
    (∀ id pool, q.governor.pool? id = some pool → ∀ r,
      pool.usage r = charged q.tasks id r ∧ pool.usage r ≤ pool.limits r) ∧
    q.panicked = false ∧
    (∀ i t refusal, q.tasks[i]? = some t → t.phase = .returned (some refusal) → ∀ id r,
      charged (q.tasks.eraseIdx i) id r = charged q.tasks id r) ∧
    (∀ user pool, q.governor.pool? (.user user) = some pool →
      (∀ r, q.governor.global.usage r = 0) → (∀ r, pool.usage r = 0) →
      ∃ global' pool', q.governor.global.reserve policy.workerCapacityClaim = .ok global' ∧
        pool.reserve policy.workerCapacityClaim = .ok pool') := by
  have hinv := h.inv
  refine ⟨?_, hinv.calm, ?_, ?_⟩
  · intro id pool hpool r
    exact ⟨hinv.usage id pool hpool r, hinv.within id pool hpool r⟩
  · intro i t refusal ht hphase id r
    have hheld := hinv.returned t (List.mem_of_getElem? ht) _ hphase
    have herase := charged_eraseIdx ht id r
    rw [Task.charge, hheld, List.count_nil, Nat.zero_mul] at herase
    exact herase
  · intro user pool hpool hglobal huser
    have hvalidate := h.validate
    obtain ⟨global', hglobal'⟩ := ResourcePolicy.reserve_worker hvalidate hu64 hglobal fun r => by
      rw [hinv.limits .global _ rfl, if_pos rfl]
      exact ResourcePolicy.validate_user_le_global hvalidate r
    obtain ⟨pool', hpool'⟩ := ResourcePolicy.reserve_worker hvalidate hu64 huser fun r => by
      rw [hinv.limits _ _ hpool, if_neg (by intro heq; cases heq)]
    exact ⟨global', pool', hglobal', hpool'⟩

/-- One connection of one user, with the default policy. -/
def oneConnection : Quotas :=
  [Event.account "a", .reserve "a" .connection, .lock 0, .lock 0].foldl Quotas.step
    ⟨⟨⟨"global", .globalDefaults, fun _ => 0⟩, .empty, .userDefaults⟩, [], false⟩

theorem oneConnection_reachable : Reachable .default oneConnection := by
  rw [oneConnection]
  simp only [List.foldl_cons, List.foldl_nil]
  iterate 4 apply Reachable.step
  exact .start rfl

theorem quota_accounting_oneConnection :
    oneConnection.tasks.map Task.phase = [.held] ∧
      charged oneConnection.tasks (.user "a") .connections = 1 ∧
      oneConnection.governor.global.usage .connections = 1 := by
  have hcharged : ∀ id, id ∈ accountPools "a" →
      charged oneConnection.tasks id .connections = 1 := by decide
  refine ⟨by decide, hcharged _ (by decide), ?_⟩
  have haccounting := quota_accounting (by intro r; cases r <;> decide) oneConnection_reachable
  rw [(haccounting.1 .global _ rfl .connections).1]
  exact hcharged _ (by decide)

end Quotas

end AstraShell.Resources
