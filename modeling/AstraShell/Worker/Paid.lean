import AstraShell.Worker.Router

/-!
# Every running worker is paid for

A worker that the gateway has started or adopted may run without a reservation: a `connect` that
gives up on a slow worker gives the reservation back and leaves the process (`slow_worker_unpaid`).
The reservation of a worker is also lost when its predecessor exits after the admission of the call
that replaces it, and another user's admission finds the old PID dead.

In runs whose steps are `Orderly` every such worker has the reservation of its UID, and together the
bundles stay within the global limits (`running_workers_paid`).
-/

set_option autoImplicit false

namespace AstraShell.Worker

open Lib Resources OrdMap

/-! ## Reservations -/

section Reservations

variable {policy : ResourcePolicy} {q : Quotas} {i j : Nat} {t : Task}

/-- The reservation of a worker: the bundle, in the global pool and in that of the user. -/
def bundle (policy : ResourcePolicy) (user : String) : Task :=
  ⟨ResourceGovernor.accountPools user, policy.workerCapacityClaim,
    ResourceGovernor.accountPools user, .held⟩

theorem bundle_charge (policy : ResourcePolicy) (user : String) (r : Resource) :
    (bundle policy user).charge .global r = policy.workerCapacityClaim r := by
  have hcount : (ResourceGovernor.accountPools user).count .global = 1 := by
    rw [ResourceGovernor.accountPools, List.count_cons_self, List.count_singleton]
    rfl
  rw [Task.charge, bundle, hcount, Nat.one_mul]

theorem reachable_reserveNow (h : Quotas.Reachable policy q) (user : String)
    (claim : ResourceClaim) : Quotas.Reachable policy (reserveNow q user claim) :=
  h.foldl _

theorem reachable_dropNow (h : Quotas.Reachable policy q) (i : Nat) :
    Quotas.Reachable policy (dropNow q i) :=
  h.foldl _

theorem held_dropNow (ht : q.tasks[i]? = some t) (hheld : t.phase = .held) (hij : i ≠ j) :
    (dropNow q j).tasks[i]? = some t := by
  apply Quotas.held_foldl ht hheld
  simpa using hij

/-- A call that ends with its reservation has it in both pools. -/
theorem bundle_of_reserveNow (h : Quotas.Reachable policy q) {user : String}
    (hholds : holds (reserveNow q user policy.workerCapacityClaim) q.tasks.length = true) :
    (reserveNow q user policy.workerCapacityClaim).tasks[q.tasks.length]? =
      some (bundle policy user) := by
  have hordered := (reachable_reserveNow h user policy.workerCapacityClaim).ordered
  rw [holds, Option.any_eq_true] at hholds
  obtain ⟨t, ht, hphase⟩ := hholds
  rw [decide_eq_true_eq] at hphase
  have haccount : (q.step (.account user)).tasks = q.tasks := by
    rw [Quotas.step]
    split <;> rfl
  by_cases hguard : ((q.step (.account user)).governor.pool? (.user user)).isSome
  · -- The task is the one that the second event has added.
    have hadded := Quotas.step_reserve_of hguard policy.workerCapacityClaim
    rw [haccount] at hadded
    have hlast := congrArg (·[q.tasks.length]?) hadded
    rw [List.getElem?_concat_length] at hlast
    obtain ⟨t', ht', hpools, hclaim⟩ := Quotas.pools_foldl hlast
      [.lock q.tasks.length, .lock q.tasks.length, .lock q.tasks.length]
    cases ht.symm.trans ht'
    have hheld := (hordered t (List.mem_of_getElem? ht)).2 hphase
    rw [ht]
    obtain ⟨pools, claim, held, phase⟩ := t
    cases hpools
    cases hclaim
    cases hheld
    cases hphase
    rfl
  · -- There is no such user, and no task.
    have hnone : (q.step (.account user)).tasks[q.tasks.length]? = none := by
      rw [haccount]
      exact List.getElem?_eq_none (Nat.le_refl _)
    rw [reserveNow] at ht
    simp only [List.foldl_cons, List.foldl_nil, Quotas.step_reserve_of_not hguard,
      Quotas.step_lock_of_none hnone, hnone] at ht
    cases ht

end Reservations

namespace WorkerRouter

/-! ## Statement -/

/-- No other process of the UID that the gateway has started or adopted runs. -/
def Alone (s : WorkerRouter) (uid pid : Nat) : Prop :=
  ∀ p ∈ s.processes, p.owned = true → p.uid = uid → p.pid = pid

/-- The process that the call has started has exited, if it has started one. -/
def Gone (s : WorkerRouter) (c : Connect) : Prop :=
  ∀ p ∈ s.processes, p.owned = true → p.uid = c.account.uid → c.spawned ≠ some p.pid

/-- A call reaches or starts a worker only where no other one of its UID runs; a call that ends
without its worker leaves no process; and an admission finds no dead PID in the entry of a UID that
another call is busy with. -/
def Orderly (s : WorkerRouter) : Event → Prop
  | .advance i answer => ∀ c, s.connects[i]? = some c →
      match c.phase, answer with
      | .waiting, .alive exists? =>
        ∀ e ∈ s.reaped exists?, ∀ c' ∈ s.connects, c'.underWay = true → c'.account.uid ≠ e.1
      | .failed, _ => s.Gone c
      | _, .found pid => s.Alone c.account.uid pid
      | _, .spawned pid => s.Alone c.account.uid pid
      | _, _ => True
  | .cancel i => ∀ c, s.connects[i]? = some c → c.phase ≠ .done → s.Gone c
  | .recover account pid _ _ _ => s.Alone account.uid pid
  | _ => True

/-- The UID of the process has an entry, and the entry a reservation that is held. -/
def Paid (g : Config) (s : WorkerRouter) (p : Process) : Prop :=
  ∃ capacity user, s.capacities.get? p.uid = some capacity ∧
    s.quotas.tasks[capacity.reservation]? = some (bundle g.policy user)

/-! ## The invariant -/

/-- The entry is about the process. -/
def Recorded (p : Process) (capacity : WorkerCapacity) : Prop :=
  capacity.identity.isSome ∧ (capacity.peerPid = none ∨ capacity.peerPid = some p.pid)

/-- The call that has started the process is under way. -/
def Starting (s : WorkerRouter) (p : Process) : Prop :=
  ∃ c ∈ s.connects, c.underWay = true ∧ c.account.uid = p.uid ∧ c.spawned = some p.pid

structure Inv (g : Config) (s : WorkerRouter) : Prop where
  quotas : Quotas.Reachable g.policy s.quotas
  held : ∀ uid capacity, s.capacities.get? uid = some capacity →
    ∃ user, s.quotas.tasks[capacity.reservation]? = some (bundle g.policy user)
  distinct : ∀ uid uid' capacity capacity', s.capacities.get? uid = some capacity →
    s.capacities.get? uid' = some capacity' → capacity.reservation = capacity'.reservation →
    uid = uid'
  pids : s.processes.Pairwise fun p p' => p.pid ≠ p'.pid
  single : ∀ p ∈ s.processes, p.owned = true → s.Alone p.uid p.pid
  /-- One call for each UID has the gate. -/
  gate : ∀ (i j : Nat) (c c' : Connect), s.connects[i]? = some c → s.connects[j]? = some c' →
    c.underWay = true → c'.underWay = true → c.account.uid = c'.account.uid → i = j
  admitted : ∀ c ∈ s.connects, c.underWay = true → (s.capacities.get? c.account.uid).isSome
  reached : ∀ c ∈ s.connects, ∀ pid, c.phase = .connected pid → s.Alone c.account.uid pid
  paid : ∀ p ∈ s.processes, p.owned = true → ∃ capacity, s.capacities.get? p.uid = some capacity ∧
    (Recorded p capacity ∨ s.Starting p)
  idle : s.stage ≠ .serving → s.connects = []

variable {g : Config} {s : WorkerRouter} {i : Nat} {c : Connect}

theorem inv_start (g : Config) {processes : List Process}
    (hpids : processes.Pairwise fun p p' => p.pid ≠ p'.pid) : Inv g (start g processes) := by
  have howned : ∀ p ∈ (start g processes).processes, p.owned = false := by
    intro p hp
    obtain ⟨p', -, rfl⟩ := List.mem_map.1 hp
    rfl
  have hnone : ∀ p ∈ (start g processes).processes, p.owned = true → False := by
    intro p hp hown
    rw [howned p hp] at hown
    cases hown
  constructor
  case quotas => exact .start g.built
  case held => exact fun uid capacity h => by cases h
  case distinct => exact fun uid uid' capacity capacity' h => by cases h
  case pids => exact List.pairwise_map.2 hpids
  case single => exact fun p hp hown => (hnone p hp hown).elim
  case gate => exact fun i j c c' h => by cases h
  case admitted => exact fun c hc => by cases hc
  case reached => exact fun c hc => by cases hc
  case paid => exact fun p hp hown => (hnone p hp hown).elim
  case idle => exact fun _ => rfl

/-- After a step of one call the others are what they were. -/
theorem getElem?_set_cases {c' c'' : Connect} {j : Nat}
    (hj : (s.connects.set i c')[j]? = some c'') :
    j = i ∧ c'' = c' ∨ j ≠ i ∧ s.connects[j]? = some c'' := by
  rw [List.getElem?_set] at hj
  split at hj
  next hij =>
    split at hj
    · exact .inl ⟨hij.symm, (Option.some.inj hj).symm⟩
    · cases hj
  next hij => exact .inr ⟨Ne.symm hij, hj⟩

section

variable (h : Inv g s) (hc : s.connects[i]? = some c)

include h hc

/-- The call that has the gate of a UID. -/
theorem Inv.owner (hway : c.underWay = true) {c' : Connect} (hc' : c' ∈ s.connects)
    (hway' : c'.underWay = true) (huid : c'.account.uid = c.account.uid) : c' = c := by
  obtain ⟨j, hj⟩ := List.getElem?_of_mem hc'
  cases h.gate j i c' c hj hc hway' hway huid
  exact Option.some.inj (hj.symm.trans hc)

/-- A step of one call that leaves the rest alone. -/
theorem Inv.setConnect {c' : Connect}
    (haccount : c'.account = c.account)
    (hway : c'.underWay = true → c.underWay = true ∨
      (∀ c'' ∈ s.connects, c''.underWay = true → c''.account.uid ≠ c.account.uid) ∧
        (s.capacities.get? c.account.uid).isSome)
    (hreached : ∀ pid, c'.phase = .connected pid → s.Alone c.account.uid pid)
    (hend : ∀ p ∈ s.processes, p.owned = true → p.uid = c.account.uid → c.underWay = true →
      c.spawned = some p.pid → c'.underWay = true ∧ c'.spawned = some p.pid ∨
        ∃ capacity, s.capacities.get? p.uid = some capacity ∧ Recorded p capacity) :
    Inv g { s with connects := s.connects.set i c' } := by
  have hlt := (List.getElem?_eq_some_iff.1 hc).1
  have hmem := List.mem_of_getElem? hc
  -- No call at another index has the gate when this one has it.
  have hgate : ∀ j c'', j ≠ i → s.connects[j]? = some c'' → c'.underWay = true →
      c''.underWay = true → c''.account.uid ≠ c.account.uid := by
    intro j c'' hji hj hway' hway'' huid
    rcases hway hway' with hold | ⟨hfree, -⟩
    · exact hji (h.gate j i c'' c hj hc hway'' hold huid)
    · exact hfree c'' (List.mem_of_getElem? hj) hway'' huid
  refine { h with gate := ?_, admitted := ?_, reached := ?_, paid := ?_, idle := ?_ }
  · intro j k cj ck hj hk hwayj hwayk huid
    rcases getElem?_set_cases hj with ⟨rfl, rfl⟩ | ⟨hji, hj'⟩
    · rcases getElem?_set_cases hk with ⟨rfl, rfl⟩ | ⟨hki, hk'⟩
      · rfl
      · rw [haccount] at huid
        exact absurd huid.symm (hgate k ck hki hk' hwayj hwayk)
    · rcases getElem?_set_cases hk with ⟨rfl, rfl⟩ | ⟨hki, hk'⟩
      · rw [haccount] at huid
        exact absurd huid (hgate j cj hji hj' hwayk hwayj)
      · exact h.gate j k cj ck hj' hk' hwayj hwayk huid
  · intro c'' hc'' hway''
    rcases List.mem_or_eq_of_mem_set hc'' with hc'' | rfl
    · exact h.admitted c'' hc'' hway''
    · rw [haccount]
      rcases hway hway'' with hold | ⟨-, hentry⟩
      · exact h.admitted c hmem hold
      · exact hentry
  · intro c'' hc'' pid hphase
    rcases List.mem_or_eq_of_mem_set hc'' with hc'' | rfl
    · exact h.reached c'' hc'' pid hphase
    · rw [haccount]
      exact hreached pid hphase
  · intro p hp hown
    obtain ⟨capacity, hcapacity, hpaid⟩ := h.paid p hp hown
    rcases hpaid with hrecorded | ⟨c'', hc'', hway'', huid, hspawned⟩
    · exact ⟨capacity, hcapacity, .inl hrecorded⟩
    · obtain ⟨j, hj⟩ := List.getElem?_of_mem hc''
      by_cases hji : j = i
      · subst hji
        cases hc.symm.trans hj
        rcases hend p hp hown huid.symm hway'' hspawned with ⟨hway', hspawned'⟩ | ⟨cap, hcap, hrec⟩
        · refine ⟨capacity, hcapacity, .inr ⟨c', List.mem_set hlt c', hway', ?_, hspawned'⟩⟩
          rw [haccount, huid]
        · exact ⟨cap, hcap, .inl hrec⟩
      · have hmem' : c'' ∈ s.connects.set i c' :=
          List.mem_of_getElem? ((List.getElem?_set_ne (Ne.symm hji)).trans hj)
        exact ⟨capacity, hcapacity, .inr ⟨c'', hmem', hway'', huid, hspawned⟩⟩
  · intro hstage
    have hempty := h.idle hstage
    rw [hempty] at hmem
    cases hmem

/-- A call that is under way stays so, and reaches a worker only where it is the only one. -/
theorem Inv.setPhase (hway : c.underWay = true)
    {phase : Phase} (hphase : { c with phase := phase }.underWay = true)
    (hreached : ∀ pid, phase = .connected pid → s.Alone c.account.uid pid) :
    Inv g (s.setPhase i c phase) := by
  rw [WorkerRouter.setPhase]
  apply h.setConnect hc
  · rfl
  · intro _
    exact .inl hway
  · exact hreached
  · intro p _ _ _ _ hspawned
    exact .inl ⟨hphase, hspawned⟩

/-- A call ends. -/
theorem Inv.finish
    (hend : ∀ p ∈ s.processes, p.owned = true → p.uid = c.account.uid → c.underWay = true →
      c.spawned = some p.pid →
      ∃ capacity, s.capacities.get? p.uid = some capacity ∧ Recorded p capacity) :
    Inv g (s.setPhase i c .done) := by
  rw [WorkerRouter.setPhase]
  apply h.setConnect hc
  · rfl
  · intro hway
    cases hway
  · intro pid hphase
    cases hphase
  · intro p hp hown huid hway hspawned
    exact .inr (hend p hp hown huid hway hspawned)

end

/-! ### Reservations -/

theorem held_foldl_dropNow {q : Quotas} {t : Task} {entries : List (Nat × WorkerCapacity)}
    (ht : q.tasks[i]? = some t) (hheld : t.phase = .held)
    (hother : ∀ e ∈ entries, i ≠ e.2.reservation) :
    (entries.foldl (fun q e => dropNow q e.2.reservation) q).tasks[i]? = some t := by
  induction entries generalizing q with
  | nil => exact ht
  | cons e rest ih =>
    apply ih (held_dropNow ht hheld (hother e List.mem_cons_self))
    intro e' he'
    exact hother e' (List.mem_cons_of_mem _ he')

theorem reachable_foldl_dropNow {policy : ResourcePolicy} {q : Quotas}
    (h : Quotas.Reachable policy q) (entries : List (Nat × WorkerCapacity)) :
    Quotas.Reachable policy (entries.foldl (fun q e => dropNow q e.2.reservation) q) := by
  induction entries generalizing q with
  | nil => exact h
  | cons e rest ih => exact ih (reachable_dropNow h _)

variable {uid : Nat}

/-- An entry stays, or it is one of those that are reaped. -/
theorem get?_reap {exists? : Nat → Bool} {capacity : WorkerCapacity}
    (hget : s.capacities.get? uid = some capacity) :
    (s.reap exists?).capacities.get? uid = some capacity ∨ (uid, capacity) ∈ s.reaped exists? := by
  rw [reap]
  rw [get?_retain, hget]
  by_cases hstays : s.stays exists? capacity = true
  · rw [Option.all_some, if_pos hstays]
    exact .inl rfl
  · refine .inr (List.mem_filter.2 ⟨(get?_eq_some_iff _ _ _).1 hget, ?_⟩)
    rw [Bool.not_eq_true] at hstays
    rw [hstays]
    rfl

theorem get?_of_reap {exists? : Nat → Bool} {capacity : WorkerCapacity}
    (hget : (s.reap exists?).capacities.get? uid = some capacity) :
    s.capacities.get? uid = some capacity ∧ s.stays exists? capacity = true := by
  rw [reap] at hget
  obtain ⟨hall, hget⟩ := get?_of_get?_retain hget
  rw [hget, Option.all_some] at hall
  exact ⟨hget, hall⟩

theorem Inv.reap (h : Inv g s) {exists? : Nat → Bool}
    (hbusy : ∀ e ∈ s.reaped exists?, ∀ c ∈ s.connects, c.underWay = true → c.account.uid ≠ e.1) :
    Inv g (s.reap exists?) := by
  -- Nobody loses the entry of a running worker, or of a call that is under way.
  have hkept : ∀ c ∈ s.connects, c.underWay = true → ∀ capacity,
      s.capacities.get? c.account.uid = some capacity →
      (s.reap exists?).capacities.get? c.account.uid = some capacity := by
    intro c hc hway capacity hget
    rcases get?_reap hget with hstays | hreaped
    · exact hstays
    · exact absurd rfl (hbusy _ hreaped c hc hway)
  refine { h with
    quotas := reachable_foldl_dropNow h.quotas _, held := ?_, distinct := ?_, admitted :=
      ?_, paid := ?_ }
  · intro uid capacity hget
    obtain ⟨hold, hstays⟩ := get?_of_reap hget
    obtain ⟨user, huser⟩ := h.held uid capacity hold
    refine ⟨user, held_foldl_dropNow huser rfl ?_⟩
    rintro ⟨uid', capacity'⟩ he heq
    obtain ⟨hmem, hgone⟩ := List.mem_filter.1 he
    have hold' := (get?_eq_some_iff _ _ _).2 hmem
    -- The same reservation is in the same entry, and that one stays.
    cases h.distinct uid uid' capacity capacity' hold hold' heq
    cases hold.symm.trans hold'
    rw [hstays] at hgone
    cases hgone
  · intro uid uid' capacity capacity' hget hget'
    exact h.distinct uid uid' capacity capacity' (get?_of_reap hget).1 (get?_of_reap hget').1
  · intro c hc hway
    obtain ⟨capacity, hget⟩ := Option.isSome_iff_exists.1 (h.admitted c hc hway)
    rw [hkept c hc hway capacity hget]
    rfl
  · intro p hp hown
    obtain ⟨capacity, hget, hpaid⟩ := h.paid p hp hown
    refine ⟨capacity, ?_, hpaid⟩
    rcases hpaid with ⟨-, hpeer⟩ | ⟨c, hc, hway, huid, -⟩
    · rcases get?_reap hget with hstays | hreaped
      · exact hstays
      · exfalso
        obtain ⟨-, hgone⟩ := List.mem_filter.1 hreaped
        have hrunning : s.running p.pid = true :=
          List.any_eq_true.2 ⟨p, hp, decide_eq_true rfl⟩
        rw [stays] at hgone
        rcases hpeer with hpeer | hpeer
        · rw [hpeer] at hgone
          cases hgone
        · rw [hpeer, Option.all_some, hrunning, Bool.or_true] at hgone
          cases hgone
    · rw [← huid] at hget ⊢
      exact hkept c hc hway capacity hget

variable {admitted : Bool} {s' : WorkerRouter} {account : SystemAccount}

theorem Inv.reserve (h : Inv g s)
    (hnone : s.capacities.get? account.uid = none)
    (hreserve : s.reserve g account = (admitted, s')) :
    Inv g s' ∧ (admitted = true → (s'.capacities.get? account.uid).isSome) ∧
      s'.connects = s.connects ∧ s'.processes = s.processes := by
  have hheld : ∀ uid capacity, s.capacities.get? uid = some capacity →
      ∃ user, (reserveNow s.quotas account.username
        g.policy.workerCapacityClaim).tasks[capacity.reservation]? =
          some (bundle g.policy user) := by
    intro uid capacity hget
    obtain ⟨user, huser⟩ := h.held uid capacity hget
    exact ⟨user, Quotas.held_foldl huser rfl (by simp)⟩
  have hreach := reachable_reserveNow h.quotas account.username g.policy.workerCapacityClaim
  rw [WorkerRouter.reserve] at hreserve
  split at hreserve
  next hholds =>
    cases hreserve
    refine ⟨?_, fun _ => by rw [get?_insert_self]; rfl, rfl, rfl⟩
    -- The other entries have reservations that were made before.
    have hold : ∀ uid capacity, s.capacities.get? uid = some capacity →
        capacity.reservation < s.quotas.tasks.length := by
      intro uid capacity hget
      obtain ⟨user, huser⟩ := h.held uid capacity hget
      exact (List.getElem?_eq_some_iff.1 huser).1
    have hget : ∀ uid capacity, (s.capacities.insert account.uid
        ⟨s.quotas.tasks.length, none, none⟩).get? uid = some capacity →
          uid = account.uid ∧ capacity.reservation = s.quotas.tasks.length ∨
            s.capacities.get? uid = some capacity := by
      intro uid capacity hget
      exact (get?_insert_cases hget).imp_left (And.imp_right (congrArg _))
    have hkept : ∀ uid capacity, s.capacities.get? uid = some capacity →
        (s.capacities.insert account.uid ⟨s.quotas.tasks.length, none, none⟩).get? uid =
          some capacity := by
      intro uid capacity hcap
      rw [get?_insert, if_neg]
      · exact hcap
      · rintro rfl
        rw [hnone] at hcap
        cases hcap
    refine { h with quotas := hreach, held := ?_, distinct := ?_, admitted := ?_, paid := ?_ }
    · intro uid capacity hcap
      rcases hget uid capacity hcap with ⟨rfl, hlast⟩ | hcap
      · rw [hlast]
        exact ⟨_, bundle_of_reserveNow h.quotas hholds⟩
      · exact hheld uid capacity hcap
    · intro uid uid' capacity capacity' hcap hcap' heq
      rcases hget uid capacity hcap with ⟨rfl, hlast⟩ | hcap <;>
        rcases hget uid' capacity' hcap' with ⟨rfl, hlast'⟩ | hcap'
      · rfl
      · exact absurd (hold _ _ hcap') (by omega)
      · exact absurd (hold _ _ hcap) (by omega)
      · exact h.distinct uid uid' capacity capacity' hcap hcap' heq
    · intro c hc hway
      obtain ⟨capacity, hcap⟩ := Option.isSome_iff_exists.1 (h.admitted c hc hway)
      rw [hkept _ _ hcap]
      rfl
    · intro p hp hown
      obtain ⟨capacity, hcap, hpaid⟩ := h.paid p hp hown
      exact ⟨capacity, hkept _ _ hcap, hpaid⟩
  next =>
    cases hreserve
    refine ⟨{ h with quotas := hreach, held := hheld }, ?_, rfl, rfl⟩
    intro hadmitted
    cases hadmitted

theorem Inv.ensureWorkerCapacity (h : Inv g s) {exists? : Nat → Bool}
    (hbusy : ∀ e ∈ s.reaped exists?, ∀ c ∈ s.connects, c.underWay = true → c.account.uid ≠ e.1)
    (hensure : s.ensureWorkerCapacity g account exists? = (admitted, s')) :
    Inv g s' ∧ (admitted = true → (s'.capacities.get? account.uid).isSome) ∧
      s'.connects = s.connects ∧ s'.processes = s.processes := by
  have hreap := h.reap hbusy
  rw [WorkerRouter.ensureWorkerCapacity] at hensure
  split at hensure
  next hsome =>
    cases hensure
    exact ⟨hreap, fun _ => hsome, rfl, rfl⟩
  next hnone =>
    rw [Bool.not_eq_true, Option.isSome_eq_false_iff, Option.isNone_iff_eq_none] at hnone
    exact hreap.reserve hnone hensure

/-! ### Workers -/

variable {pid : Nat}

/-- The worker that a call has reached is written into the entry of its UID. -/
theorem Inv.meet (h : Inv g s) {peerPid : Option Nat} (identity : WorkerIdentity)
    (hsome : (s.capacities.get? uid).isSome) (halone : s.Alone uid pid)
    (hpeer : peerPid = none ∨ peerPid = some pid)
    (hreached : ∀ c ∈ s.connects, ∀ pid', c.phase = .connected pid' → c.account.uid = uid →
      pid' = pid) :
    Inv g ((s.record uid peerPid identity).adopt uid pid) ∧
      ∀ p ∈ ((s.record uid peerPid identity).adopt uid pid).processes, p.owned = true →
        p.uid = uid → ∃ capacity,
          ((s.record uid peerPid identity).adopt uid pid).capacities.get? p.uid = some capacity ∧
            Recorded p capacity := by
  obtain ⟨capacity, hget⟩ := Option.isSome_iff_exists.1 hsome
  have hrecord : s.record uid peerPid identity = { s with
      capacities := s.capacities.insert uid
        { capacity with identity := some identity, peerPid := peerPid } } := by
    rw [record, hget]
  -- A process of the gateway is one from before, or the one that was met.
  have hprocess : ∀ p ∈ (s.adopt uid pid).processes, p.owned = true →
      p ∈ s.processes ∧ p.owned = true ∨ p.uid = uid ∧ p.pid = pid := by
    intro p hp hown
    obtain ⟨p', hp', rfl⟩ := List.mem_map.1 hp
    by_cases hmet : p'.pid = pid ∧ p'.uid = uid
    · rw [if_pos hmet]
      exact .inr ⟨hmet.2, hmet.1⟩
    · rw [if_neg hmet] at hown ⊢
      exact .inl ⟨hp', hown⟩
  have halone' : (s.adopt uid pid).Alone uid pid := by
    intro p hp hown huid
    rcases hprocess p hp hown with ⟨hp', hown'⟩ | ⟨-, hpid⟩
    · exact halone p hp' hown' huid
    · exact hpid
  have hpaid : ∀ p ∈ (s.adopt uid pid).processes, p.owned = true → p.uid = uid →
      Recorded p { capacity with identity := some identity, peerPid := peerPid } := by
    intro p hp hown huid
    rw [Recorded, halone' p hp hown huid]
    exact ⟨rfl, hpeer⟩
  rw [hrecord]
  constructor
  · constructor
    case quotas => exact h.quotas
    case gate => exact h.gate
    case idle => exact h.idle
    case held =>
      intro uid' capacity' hget'
      obtain ⟨-, rfl⟩ | hold := get?_insert_cases hget'
      · exact h.held uid capacity hget
      · exact h.held uid' capacity' hold
    case distinct =>
      -- The reservations are those from before.
      have hold : ∀ uid' capacity', (s.capacities.insert uid
          { capacity with identity := some identity, peerPid := peerPid }).get? uid' =
            some capacity' → ∃ capacity'', s.capacities.get? uid' = some capacity'' ∧
              capacity''.reservation = capacity'.reservation := by
        intro uid' capacity' hget'
        obtain ⟨rfl, rfl⟩ | hold := get?_insert_cases hget'
        · exact ⟨capacity, hget, rfl⟩
        · exact ⟨capacity', hold, rfl⟩
      intro uid₁ uid₂ capacity₁ capacity₂ hget₁ hget₂ heq
      obtain ⟨old₁, hold₁, hres₁⟩ := hold uid₁ capacity₁ hget₁
      obtain ⟨old₂, hold₂, hres₂⟩ := hold uid₂ capacity₂ hget₂
      exact h.distinct uid₁ uid₂ old₁ old₂ hold₁ hold₂ (hres₁.trans (heq.trans hres₂.symm))
    case pids =>
      refine List.pairwise_map.2 (h.pids.imp ?_)
      intro p p' hne
      split <;> split <;> exact hne
    case single =>
      intro p hp hown p' hp' hown' huid
      rcases hprocess p hp hown with ⟨hold, hold'⟩ | ⟨huid', hpid⟩
      · rcases hprocess p' hp' hown' with ⟨hold₂, hold₂'⟩ | ⟨huid₂, hpid₂⟩
        · exact h.single p hold hold' p' hold₂ hold₂' huid
        · rw [hpid₂]
          exact (halone p hold hold' (huid.symm.trans huid₂)).symm
      · rw [hpid]
        exact halone' p' hp' hown' (huid.trans huid')
    case admitted =>
      intro c hc hway
      rw [adopt, get?_insert]
      split
      · rfl
      · exact h.admitted c hc hway
    case reached =>
      intro c hc pid' hphase p hp hown huid
      rcases hprocess p hp hown with ⟨hold, hold'⟩ | ⟨huid', hpid⟩
      · exact h.reached c hc pid' hphase p hold hold' huid
      · rw [hpid]
        exact (hreached c hc pid' hphase (huid.symm.trans huid')).symm
    case paid =>
      intro p hp hown
      by_cases huid : p.uid = uid
      · refine ⟨_, ?_, .inl (hpaid p hp hown huid)⟩
        rw [adopt, get?_insert, if_pos huid]
      · rcases hprocess p hp hown with ⟨hold, hold'⟩ | ⟨huid', -⟩
        · obtain ⟨capacity', hget', hpaid'⟩ := h.paid p hold hold'
          refine ⟨capacity', ?_, hpaid'⟩
          rw [adopt, get?_insert, if_neg huid]
          exact hget'
        · exact absurd huid' huid
  · intro p hp hown huid
    refine ⟨_, ?_, hpaid p hp hown huid⟩
    rw [adopt, get?_insert, if_pos huid]

/-- A failed call gives back a reservation that no worker is recorded for. -/
theorem Inv.release (h : Inv g s) (hc : s.connects[i]? = some c) (hfailed : c.phase = .failed)
    (hgone : s.Gone c) : Inv g ((s.release c.account.uid).setPhase i c .done) := by
  have hdone : Inv g (s.setPhase i c .done) := by
    apply h.finish hc
    intro p hp hown huid _ hspawned
    exact absurd hspawned (hgone p hp hown huid)
  rw [WorkerRouter.release]
  split
  next => exact hdone
  next capacity hget =>
    split
    next hidentity =>
      have hway : c.underWay = true := by
        rw [Connect.underWay, hfailed]
      refine { hdone with
        quotas := reachable_dropNow h.quotas _, held := ?_, distinct := ?_, admitted := ?_, paid :=
          ?_ }
      · intro uid capacity' hget'
        obtain ⟨hne, hold⟩ := get?_of_get?_erase hget'
        obtain ⟨user, huser⟩ := h.held uid capacity' hold
        refine ⟨user, held_dropNow huser rfl ?_⟩
        intro heq
        exact hne (h.distinct _ _ _ _ hold hget heq)
      · intro uid uid' capacity₁ capacity₂ hget₁ hget₂
        exact h.distinct uid uid' capacity₁ capacity₂ (get?_of_get?_erase hget₁).2
          (get?_of_get?_erase hget₂).2
      · intro c' hc' hway'
        -- Only this call had the gate of the UID.
        have hne : c'.account.uid ≠ c.account.uid := by
          intro huid
          obtain ⟨j, hj⟩ := List.getElem?_of_mem hc'
          rcases getElem?_set_cases hj with ⟨-, rfl⟩ | ⟨hji, hj⟩
          · cases hway'
          · exact hji (h.gate j i c' c hj hc hway' hway huid)
        have hsome := hdone.admitted c' hc' hway'
        rw [WorkerRouter.setPhase, get?_erase, if_neg hne]
        exact hsome
      · intro p hp hown
        obtain ⟨capacity', hget', hpaid⟩ := hdone.paid p hp hown
        refine ⟨capacity', ?_, hpaid⟩
        rw [WorkerRouter.setPhase, get?_erase, if_neg]
        · exact hget'
        · intro huid
          obtain ⟨old, hold, hpaid'⟩ := h.paid p hp hown
          rcases hpaid' with hrecorded | ⟨c', hc', hway', huid', hspawned⟩
          · rw [huid] at hold
            cases hget.symm.trans hold
            rw [Recorded, hidentity] at hrecorded
            cases hrecorded.1
          · cases h.owner hc hway hc' hway' (huid'.trans huid)
            exact hgone p hp hown huid hspawned
    next => exact hdone

/-- A process is started for a UID that has a reservation. -/
theorem Inv.spawn (h : Inv g s) (hc : s.connects[i]? = some c) (hphase : c.phase = .arbitrated)
    (hfresh : s.running pid = false) (halone : s.Alone c.account.uid pid) :
    Inv g { s with
      processes := ⟨pid, c.account.uid, true⟩ :: s.processes
      connects := s.connects.set i { c with phase := .started 100, spawned := some pid } } := by
  have hway : c.underWay = true := by
    rw [Connect.underWay, hphase]
  have hlt := (List.getElem?_eq_some_iff.1 hc).1
  have hmem := List.mem_of_getElem? hc
  have hnew : ∀ p ∈ s.processes, p.pid ≠ pid := by
    intro p hp hpid
    have hrunning : s.running pid = true := List.any_eq_true.2 ⟨p, hp, decide_eq_true hpid⟩
    rw [hfresh] at hrunning
    cases hrunning
  have hnone : ∀ p ∈ s.processes, p.owned = true → p.uid ≠ c.account.uid := by
    intro p hp hown huid
    exact hnew p hp (halone p hp hown huid)
  have hstarted : Inv g { s with
      connects := s.connects.set i { c with phase := .started 100, spawned := some pid } } := by
    apply h.setConnect hc
    · rfl
    · intro _
      exact .inl hway
    · intro pid' hphase'
      cases hphase'
    · intro p hp hown huid
      exact absurd huid (hnone p hp hown)
  refine { hstarted with pids := ?_, single := ?_, reached := ?_, paid := ?_ }
  · exact List.pairwise_cons.2 ⟨fun p hp => Ne.symm (hnew p hp), h.pids⟩
  · intro p hp hown p' hp' hown' huid
    rcases List.mem_cons.1 hp with rfl | hp <;> rcases List.mem_cons.1 hp' with rfl | hp'
    · rfl
    · exact absurd huid (hnone p' hp' hown')
    · exact absurd huid.symm (hnone p hp hown)
    · exact h.single p hp hown p' hp' hown' huid
  · intro c' hc' pid' hphase' p hp hown huid
    rcases List.mem_cons.1 hp with rfl | hp
    · -- A call that has reached a worker of this UID has the gate as well.
      exfalso
      obtain ⟨j, hj⟩ := List.getElem?_of_mem hc'
      rcases getElem?_set_cases hj with ⟨-, rfl⟩ | ⟨hji, hj⟩
      · cases hphase'
      · have hway' : c'.underWay = true := by
          rw [Connect.underWay, hphase']
        exact hji (h.gate j i c' c hj hc hway' hway huid.symm)
    · exact hstarted.reached c' hc' pid' hphase' p hp hown huid
  · intro p hp hown
    rcases List.mem_cons.1 hp with rfl | hp
    · obtain ⟨capacity, hget⟩ := Option.isSome_iff_exists.1 (h.admitted c hmem hway)
      exact ⟨capacity, hget, .inr ⟨_, List.mem_set hlt _, rfl, rfl, rfl⟩⟩
    · exact hstarted.paid p hp hown

/-- Processes that the gateway has not started come, and processes go. -/
theorem Inv.setProcesses (h : Inv g s) {processes : List Process}
    (hpids : processes.Pairwise fun p p' => p.pid ≠ p'.pid)
    (hold : ∀ p ∈ processes, p.owned = true → p ∈ s.processes) :
    Inv g { s with processes := processes } := by
  refine { h with pids := hpids, single := ?_, reached := ?_, paid := ?_ }
  · intro p hp hown p' hp' hown' huid
    exact h.single p (hold p hp hown) hown p' (hold p' hp' hown') hown' huid
  · intro c hc pid hphase p hp hown huid
    exact h.reached c hc pid hphase p (hold p hp hown) hown huid
  · intro p hp hown
    exact h.paid p (hold p hp hown) hown

/-- A call that knows its error. -/
theorem Inv.fail (h : Inv g s) (hc : s.connects[i]? = some c) (hway : c.underWay = true) :
    Inv g (s.setPhase i c .failed) := by
  apply h.setPhase hc hway
  · rfl
  · intro pid hphase
    cases hphase

/-- The phases in which a call looks for the socket. -/
def searches : Phase → Bool
  | .starting => true
  | .arbitrating _ => true
  | .arbitrated => true
  | .started _ => true
  | _ => false

theorem Inv.search (h : Inv g s) (hc : s.connects[i]? = some c) (hway : c.underWay = true)
    {next : Phase} (hnext : searches next = true) : Inv g (s.setPhase i c next) := by
  apply h.setPhase hc hway
  · cases next with
    | waiting => cases hnext
    | done => cases hnext
    | _ => rfl
  · rintro pid rfl
    cases hnext

theorem Inv.probe (h : Inv g s) (hc : s.connects[i]? = some c) (hway : c.underWay = true)
    {next : Phase} (hnext : searches next = true) {answer : Answer}
    (halone : ∀ pid, answer = .found pid → s.Alone c.account.uid pid) :
    Inv g (s.probe i c next answer) := by
  cases answer with
  | found pid =>
    rw [WorkerRouter.probe]
    split
    · apply h.setPhase hc hway
      · rfl
      · rintro pid' ⟨⟩
        exact halone pid rfl
    · exact h
  | absent => exact h.search hc hway hnext
  | error => exact h.fail hc hway
  | acquired => exact h
  | spawned pid => exact h
  | identity peerPid identity => exact h
  | alive exists? => exact h

theorem underWay_of_phase (h : c.phase ≠ .waiting) (h' : c.phase ≠ .done) : c.underWay = true := by
  rw [Connect.underWay]
  cases hphase : c.phase with
  | waiting => exact absurd hphase h
  | done => exact absurd hphase h'
  | _ => rfl

theorem Inv.admit (h : Inv g s) (hc : s.connects[i]? = some c) (hphase : c.phase = .waiting)
    {exists? : Nat → Bool}
    (hbusy : ∀ e ∈ s.reaped exists?, ∀ c' ∈ s.connects, c'.underWay = true → c'.account.uid ≠ e.1)
    (hfree : ∀ c' ∈ s.connects, c'.underWay = true → c'.account.uid ≠ c.account.uid)
    (hensure : s.ensureWorkerCapacity g c.account exists? = (admitted, s')) :
    Inv g (s'.setPhase i c (if admitted then .admitted else .done)) := by
  obtain ⟨hinv, hsome, hconnects, -⟩ := h.ensureWorkerCapacity hbusy hensure
  rw [← hconnects] at hc hfree
  have hidle : c.underWay = false := by
    rw [Connect.underWay, hphase]
  cases admitted with
  | false =>
    apply hinv.finish hc
    intro p _ _ _ hway
    rw [hidle] at hway
    cases hway
  | true =>
    rw [if_pos rfl, WorkerRouter.setPhase]
    apply hinv.setConnect hc
    · rfl
    · intro _
      exact .inr ⟨hfree, hsome rfl⟩
    · intro pid hphase'
      cases hphase'
    · intro p _ _ _ hway
      rw [hidle] at hway
      cases hway

theorem Inv.advance (h : Inv g s) (hc : s.connects[i]? = some c) {answer : Answer}
    (horderly : s.Orderly (.advance i answer)) : Inv g (s.advance g i c answer) := by
  have hcall := horderly c hc
  have hway : c.phase ≠ .waiting → c.phase ≠ .done → c.underWay = true := underWay_of_phase
  unfold WorkerRouter.advance
  cases hphase : c.phase with
  | waiting =>
    rw [hphase] at hcall
    cases answer with
    | alive exists? =>
      dsimp only at hcall ⊢
      split
      next => exact h
      next hfree =>
        apply h.admit hc hphase hcall _ rfl
        intro c' hc' hway' huid
        apply hfree
        apply List.any_eq_true.2
        exact ⟨c', hc', by simp [hway', huid]⟩
    | _ => exact h
  | done => cases answer <;> exact h
  | failed =>
    rw [hphase] at hcall
    exact h.release hc hphase hcall
  | admitted =>
    rw [hphase] at hcall hway
    dsimp only
    apply h.probe hc (hway nofun nofun)
    · rfl
    · rintro pid rfl
      exact hcall
  | starting =>
    rw [hphase] at hway
    cases answer with
    | acquired =>
      dsimp only
      split
      · exact h
      · apply h.search hc (hway nofun nofun)
        rfl
    | _ => exact h
  | arbitrating attempts =>
    rw [hphase] at hcall hway
    have hunder := hway nofun nofun
    cases attempts with
    | zero => exact h.fail hc hunder
    | succ attempts =>
      have hprobe : Inv g (s.probe i c (.arbitrating attempts) answer) := by
        apply h.probe hc hunder
        · rfl
        · rintro pid rfl
          exact hcall
      cases answer with
      | acquired =>
        apply h.search hc hunder
        rfl
      | _ => exact hprobe
  | arbitrated =>
    rw [hphase] at hcall hway
    have hunder := hway nofun nofun
    have hprobe : Inv g (s.probe i c .arbitrated answer) := by
      apply h.probe hc hunder
      · rfl
      · rintro pid rfl
        exact hcall
    cases answer with
    | spawned pid =>
      dsimp only
      split
      next => exact h
      next hfresh => exact h.spawn hc hphase (eq_false_of_ne_true hfresh) hcall
    | _ => exact hprobe
  | started attempts =>
    rw [hphase] at hcall hway
    have hunder := hway nofun nofun
    cases attempts with
    | zero => exact h.fail hc hunder
    | succ attempts =>
      dsimp only
      apply h.probe hc hunder
      · rfl
      · rintro pid rfl
        exact hcall
  | connected pid =>
    rw [hphase] at hway
    have hunder := hway nofun nofun
    cases answer with
    | error => exact h.fail hc hunder
    | identity peerPid identity =>
      dsimp only
      split
      next hintroduces =>
        have hmem := List.mem_of_getElem? hc
        rw [introduces, decide_eq_true_eq] at hintroduces
        obtain ⟨hinv, hrecorded⟩ := h.meet identity (h.admitted c hmem hunder)
          (h.reached c hmem pid hphase) hintroduces.1 (by
            intro c' hc' pid' hphase' huid
            have hunder' : c'.underWay = true := by
              rw [Connect.underWay, hphase']
            cases h.owner hc hunder hc' hunder' huid
            cases hphase.symm.trans hphase'
            rfl)
        apply hinv.finish
        · rw [adopt, record]
          split <;> exact hc
        · intro p hp hown huid _ _
          exact hrecorded p hp hown huid
      next => exact h.fail hc hunder
    | _ => exact h

theorem Inv.connect (h : Inv g s) (hserving : s.stage = .serving) (account : SystemAccount) :
    Inv g { s with connects := s.connects ++ [⟨account, .waiting, none⟩] } := by
  have hold : ∀ (j : Nat) (c : Connect), (s.connects ++ [⟨account, .waiting, none⟩])[j]? = some c →
      c.underWay = true → s.connects[j]? = some c := by
    intro j c hj hway
    by_cases hlt : j < s.connects.length
    · rwa [List.getElem?_append_left hlt] at hj
    · rw [List.getElem?_append_right (Nat.not_lt.1 hlt)] at hj
      cases List.mem_singleton.1 (List.mem_of_getElem? hj)
      cases hway
  have hmem : ∀ c ∈ s.connects ++ [(⟨account, .waiting, none⟩ : Connect)], c.phase ≠ .waiting →
      c ∈ s.connects := by
    intro c hc hphase
    rcases List.mem_append.1 hc with hc | hc
    · exact hc
    · cases List.mem_singleton.1 hc
      exact absurd rfl hphase
  refine { h with gate := ?_, admitted := ?_, reached := ?_, paid := ?_, idle := ?_ }
  · intro j k cj ck hj hk hwayj hwayk
    exact h.gate j k cj ck (hold j cj hj hwayj) (hold k ck hk hwayk) hwayj hwayk
  · intro c hc hway
    apply h.admitted c (hmem c hc _) hway
    intro hphase
    rw [Connect.underWay, hphase] at hway
    cases hway
  · intro c hc pid hphase
    apply h.reached c (hmem c hc _) pid hphase
    rw [hphase]
    exact nofun
  · intro p hp hown
    obtain ⟨capacity, hget, hpaid⟩ := h.paid p hp hown
    refine ⟨capacity, hget, hpaid.imp_right ?_⟩
    rintro ⟨c, hc, hrest⟩
    exact ⟨c, List.mem_append_left _ hc, hrest⟩
  · intro hstage
    exact absurd hserving hstage

theorem Inv.down (h : Inv g s) (hempty : s.connects = []) : Inv g { s with stage := .down } :=
  { h with idle := fun _ => hempty }

theorem Inv.recover (h : Inv g s) (hempty : s.connects = []) {peerPid : Option Nat}
    {identity : WorkerIdentity} (hintroduces : introduces account.uid pid peerPid identity = true)
    (halone : s.Alone account.uid pid) {exists? : Nat → Bool}
    (hensure : s.ensureWorkerCapacity g account exists? = (admitted, s')) :
    Inv g (if admitted then (s'.record account.uid peerPid identity).adopt account.uid pid
      else { s' with stage := .down }) := by
  have hbusy : ∀ e ∈ s.reaped exists?, ∀ c ∈ s.connects, c.underWay = true →
      c.account.uid ≠ e.1 := by
    intro e _ c hc
    rw [hempty] at hc
    cases hc
  obtain ⟨hinv, hsome, hconnects, hprocesses⟩ := h.ensureWorkerCapacity hbusy hensure
  rw [hempty] at hconnects
  cases admitted with
  | false => exact hinv.down hconnects
  | true =>
    rw [introduces, decide_eq_true_eq] at hintroduces
    rw [if_pos rfl]
    refine (hinv.meet identity (hsome rfl) ?_ hintroduces.1 ?_).1
    · rw [Alone, hprocesses]
      exact halone
    · intro c hc
      rw [hconnects] at hc
      cases hc

theorem Inv.step (h : Inv g s) {event : Event} (horderly : s.Orderly event) :
    Inv g (s.step g event) := by
  cases event with
  | connect account =>
    rw [WorkerRouter.step]
    split
    next hserving => exact h.connect hserving account
    next => exact h
  | advance i answer =>
    rw [WorkerRouter.step]
    cases hc : s.connects[i]? with
    | none => exact h
    | some c => exact h.advance hc horderly
  | cancel i =>
    rw [WorkerRouter.step]
    cases hc : s.connects[i]? with
    | none => exact h
    | some c =>
      apply h.finish hc
      intro p hp hown huid hway hspawned
      have hgone : s.Gone c := by
        apply horderly c hc
        intro hdone
        rw [Connect.underWay, hdone] at hway
        cases hway
      exact absurd hspawned (hgone p hp hown huid)
  | recover account pid peerPid identity exists? =>
    rw [WorkerRouter.step]
    split
    next hrecovering =>
      have hempty : s.connects = [] := by
        apply h.idle
        rw [hrecovering.1]
        exact nofun
      split
      next hintroduces => exact h.recover hempty hintroduces horderly rfl
      next => exact h.down hempty
    next => exact h
  | serve =>
    rw [WorkerRouter.step]
    split
    next hrecovering =>
      refine { h with idle := ?_ }
      intro hstage
      exact absurd rfl hstage
    next => exact h
  | appear pid uid =>
    rw [WorkerRouter.step]
    split
    next => exact h
    next hfresh =>
      apply h.setProcesses
      · refine List.pairwise_cons.2 ⟨?_, h.pids⟩
        intro p hp hpid
        apply hfresh
        exact List.any_eq_true.2 ⟨p, hp, decide_eq_true hpid.symm⟩
      · intro p hp hown
        rcases List.mem_cons.1 hp with rfl | hp
        · cases hown
        · exact hp
  | exit pid =>
    rw [WorkerRouter.step]
    apply h.setProcesses (h.pids.filter _)
    intro p hp _
    exact (List.mem_filter.1 hp).1
  | quota event =>
    rw [WorkerRouter.step]
    split
    next => exact h
    next hother =>
      refine { h with quotas := h.quotas.step event, held := ?_ }
      intro uid capacity hget
      obtain ⟨user, huser⟩ := h.held uid capacity hget
      refine ⟨user, Quotas.held_step huser rfl ?_⟩
      rintro rfl
      apply hother
      apply List.any_eq_true.2
      exact ⟨(uid, capacity), (get?_eq_some_iff _ _ _).1 hget, decide_eq_true rfl⟩
  | restart => exact inv_start g h.pids

theorem Run.inv (h : Run g Orderly s) : Inv g s := by
  induction h with
  | start processes hpids => exact inv_start g hpids
  | step _ event hevent ih => exact ih.step hevent

/-- The task of the reservation that a process is paid from. -/
def reservationOf (s : WorkerRouter) (p : Process) : Nat :=
  ((s.capacities.get? p.uid).map WorkerCapacity.reservation).getD 0

/-- Two running workers of the gateway never have the same reservation. -/
theorem Inv.nodup_reservations (h : Inv g s) :
    ((s.processes.filter (·.owned)).map s.reservationOf).Nodup := by
  have hpids : (s.processes.map Process.pid).Nodup := List.pairwise_map.2 h.pids
  refine (hpids.of_map.filter _).map_on ?_
  intro p hp p' hp' heq
  obtain ⟨hmem, hown⟩ := List.mem_filter.1 hp
  obtain ⟨hmem', hown'⟩ := List.mem_filter.1 hp'
  obtain ⟨capacity, hget, -⟩ := h.paid p hmem hown
  obtain ⟨capacity', hget', -⟩ := h.paid p' hmem' hown'
  rw [reservationOf, reservationOf, hget, hget'] at heq
  have huid := h.distinct p.uid p'.uid capacity capacity' hget hget' heq
  exact List.inj_on_of_nodup_map hpids hmem hmem' (h.single p' hmem' hown' p hmem hown huid)

/-! ## Main result -/

/-- In every run of orderly steps each running worker of the gateway has the reservation of its UID,
and the bundles of all of them fit into the global limits. -/
theorem running_workers_paid (h : Run g Orderly s) :
    (∀ p ∈ s.processes, p.owned = true → s.Paid g p) ∧
      ∀ r, (s.processes.filter (·.owned)).length * g.policy.workerCapacityClaim r ≤
        g.policy.global r := by
  have hinv := h.inv
  have hpaid : ∀ p ∈ s.processes, p.owned = true → s.Paid g p := by
    intro p hp hown
    obtain ⟨capacity, hget, -⟩ := hinv.paid p hp hown
    obtain ⟨user, huser⟩ := hinv.held p.uid capacity hget
    exact ⟨capacity, user, hget, huser⟩
  refine ⟨hpaid, ?_⟩
  intro r
  have hsum : ((s.processes.filter (·.owned)).map s.reservationOf).length *
      g.policy.workerCapacityClaim r ≤ Quotas.charged s.quotas.tasks .global r := by
    apply Quotas.length_mul_le_charged hinv.nodup_reservations
    intro i hi
    obtain ⟨p, hp, rfl⟩ := List.mem_map.1 hi
    obtain ⟨hmem, hown⟩ := List.mem_filter.1 hp
    obtain ⟨capacity, user, hget, huser⟩ := hpaid p hmem hown
    rw [reservationOf, hget]
    exact ⟨_, huser, (bundle_charge g.policy user r).ge⟩
  rw [List.length_map] at hsum
  have hquota := hinv.quotas.inv
  have hglobal : s.quotas.governor.pool? .global = some s.quotas.governor.global := rfl
  calc (s.processes.filter (·.owned)).length * g.policy.workerCapacityClaim r
      ≤ Quotas.charged s.quotas.tasks .global r := hsum
    _ = s.quotas.governor.global.usage r := (hquota.usage _ _ hglobal r).symm
    _ ≤ s.quotas.governor.global.limits r := hquota.within _ _ hglobal r
    _ = g.policy.global r := by rw [hquota.limits _ _ hglobal, if_pos rfl]

/-! ## A worker without a reservation -/

/-- The default policy with room for one worker. -/
def oneWorker : Config where
  policy := { ResourcePolicy.default with global := .userDefaults }
  governor := ⟨⟨"global", .userDefaults, fun _ => 0⟩, .empty, .userDefaults⟩
  built := rfl

/-- A call up to the start of its worker. -/
def startWorker (i : Nat) (account : SystemAccount) (pid : Nat) : List Event :=
  [.connect account, .advance i (.alive fun _ => false), .advance i .absent, .advance i .acquired,
    .advance i .acquired, .advance i (.spawned pid)]

theorem Run.foldl {allowed : WorkerRouter → Event → Prop} (h : Run g allowed s)
    (hall : ∀ s event, allowed s event) (events : List Event) :
    Run g allowed (events.foldl (WorkerRouter.step g) s) := by
  induction events generalizing s with
  | nil => exact h
  | cons event rest ih => exact ih (h.step event (hall s event))

/-- The worker of a first user starts while its call is under way. -/
theorem running_workers_paid_oneWorker :
    ∃ s, Run oneWorker Orderly s ∧ (s.processes.filter (·.owned)).length = 1 ∧
      (∀ p ∈ s.processes, p.owned = true → s.Paid oneWorker p) ∧
      1 * oneWorker.policy.workerCapacityClaim .workers ≤ oneWorker.policy.global .workers := by
  have hrun : Run oneWorker Orderly
      ((.serve :: startWorker 0 ⟨1, "a"⟩ 7).foldl (step oneWorker) (start oneWorker [])) := by
    rw [startWorker]
    simp only [List.foldl_cons, List.foldl_nil]
    refine .step (.step (.step (.step (.step (.step (.step (.start [] .nil) _ ?_) _ ?_) _ ?_) _ ?_)
      _ ?_) _ ?_) _ ?_
    · trivial
    · trivial
    · rintro c ⟨⟩ e he
      cases he
    · rintro c ⟨⟩
      trivial
    · rintro c ⟨⟩
      trivial
    · rintro c ⟨⟩
      trivial
    · rintro c ⟨⟩ p hp
      cases hp
  obtain ⟨hpaid, hlimit⟩ := running_workers_paid hrun
  exact ⟨_, hrun, rfl, hpaid, hlimit .workers⟩

/-- The call of the first user gives up on its worker, and that of the second one is admitted while
the first worker still runs. -/
def slowStart : List Event :=
  .serve :: startWorker 0 ⟨1, "a"⟩ 7 ++ List.replicate 102 (.advance 0 .absent) ++
    startWorker 1 ⟨2, "b"⟩ 8

theorem slow_worker_unpaid :
    ∃ s, Run oneWorker (fun _ _ => True) s ∧
      (∃ p ∈ s.processes, p.owned = true ∧ ¬ s.Paid oneWorker p) ∧
      oneWorker.policy.global .workers <
        (s.processes.filter (·.owned)).length * oneWorker.policy.workerCapacityClaim .workers := by
  have hrun : Run oneWorker (fun _ _ => True)
      (slowStart.foldl (step oneWorker) (start oneWorker [])) :=
    (Run.start [] .nil).foldl (fun _ _ => trivial) slowStart
  have hprocesses : (slowStart.foldl (step oneWorker) (start oneWorker [])).processes =
      [⟨8, 2, true⟩, ⟨7, 1, true⟩] := by
    decide +kernel
  have hnone : (slowStart.foldl (step oneWorker) (start oneWorker [])).capacities.get? 1 =
      none := by
    decide +kernel
  refine ⟨_, hrun, ⟨⟨7, 1, true⟩, ?_, rfl, ?_⟩, ?_⟩
  · rw [hprocesses]
    decide
  · rintro ⟨capacity, user, hget, -⟩
    rw [hnone] at hget
    cases hget
  · rw [hprocesses]
    decide

end WorkerRouter

end AstraShell.Worker
