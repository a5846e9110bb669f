import AstraShell.Resources.Accounting

/-!
# Worker admission

`WorkerRouter` of `worker.rs`: any number of `connect` calls, the worker processes they start or
find, and the capacity reservations they are paid from. The router has one reservation for each UID,
made before the first probe of a `connect` and kept under the lock of `worker_capacities`. A call
holds the gate of its UID from then on to its end, and the start lock while it starts a worker.

A step is what happens between two awaits, and `Run` are the states that steps lead to. What the
operating system answers (a probe of the socket, the start of a process, the handshake, whether a
PID exists) comes with the event. The reservations are tasks of `Quotas`, whose other events happen
at any time.
-/

set_option autoImplicit false

namespace AstraShell.Worker

open Lib Resources

/-! ## State -/

structure SystemAccount where
  uid : Nat
  username : String

structure WorkerIdentity where
  uid : Nat
  pid : Nat
  epoch : Nat

structure WorkerCapacity where
  /-- The task of `Quotas` that holds the bundle. -/
  reservation : Nat
  identity : Option WorkerIdentity
  peerPid : Option Nat

/-- A worker process that runs. -/
structure Process where
  pid : Nat
  uid : Nat
  /-- Started or adopted by this gateway process. -/
  owned : Bool
  deriving DecidableEq

inductive Phase where
  /-- Waits for the gate of its UID. -/
  | waiting
  /-- Has the gate and the capacity. -/
  | admitted
  /-- Waits for the start lock. -/
  | starting
  /-- Tries to lock the arbitration file, so many times more. -/
  | arbitrating (attempts : Nat)
  | arbitrated
  /-- Looks for the socket of the worker it has started, so many times more. -/
  | started (attempts : Nat)
  /-- Has a stream to this process. -/
  | connected (pid : Nat)
  /-- Has an error and is about to take the lock of the capacities. -/
  | failed
  | done

/-- A call of `connect`. -/
structure Connect where
  account : SystemAccount
  phase : Phase
  /-- The process it has started. -/
  spawned : Option Nat

namespace Connect

/-- Between the admission and the end of the call. -/
def underWay (c : Connect) : Bool :=
  match c.phase with
  | .waiting => false
  | .done => false
  | _ => true

def holdsStartLock (c : Connect) : Bool :=
  match c.phase with
  | .arbitrating _ => true
  | .arbitrated => true
  | .started _ => true
  | _ => false

end Connect

inductive Stage where
  | recovering
  | serving
  /-- `recover_existing` has failed. -/
  | down
  deriving DecidableEq

/-- A policy that the governor accepts. -/
structure Config where
  policy : ResourcePolicy
  governor : ResourceGovernor
  built : ResourceGovernor.new policy = .ok governor

structure WorkerRouter where
  quotas : Quotas
  capacities : OrdMap Nat WorkerCapacity
  processes : List Process
  connects : List Connect
  stage : Stage

/-- What a call is told at its next await. -/
inductive Answer where
  /-- The socket leads to this process. -/
  | found (pid : Nat)
  | absent
  | error
  /-- The lock the call waits for is free. -/
  | acquired
  | spawned (pid : Nat)
  | identity (peerPid : Option Nat) (identity : WorkerIdentity)
  /-- Which PIDs exist; a running worker always does. -/
  | alive (exists? : Nat → Bool)

inductive Event where
  | connect (account : SystemAccount)
  | advance (i : Nat) (answer : Answer)
  /-- The future of the call is dropped. -/
  | cancel (i : Nat)
  /-- One entry of the users directory during `recover_existing`. -/
  | recover (account : SystemAccount) (pid : Nat) (peerPid : Option Nat) (identity : WorkerIdentity)
      (exists? : Nat → Bool)
  | serve
  /-- A worker that this gateway has not started is there. -/
  | appear (pid uid : Nat)
  | exit (pid : Nat)
  /-- A lock or a drop of another reservation. -/
  | quota (event : Resources.Event)
  | restart

/-! ## Reservations -/

/-- The call of `reserve` with its three locks at most, from the account to the answer. -/
def reserveNow (q : Quotas) (user : String) (claim : ResourceClaim) : Quotas :=
  let i := q.tasks.length
  [Resources.Event.account user, .reserve user claim, .lock i, .lock i, .lock i].foldl Quotas.step q

def dropNow (q : Quotas) (i : Nat) : Quotas :=
  [Resources.Event.drop i, .lock i, .lock i].foldl Quotas.step q

/-- Whether a task holds its reservation. -/
def holds (q : Quotas) (i : Nat) : Bool :=
  (q.tasks[i]?).any fun t => t.phase = .held

def dropped? : Resources.Event → Option Nat
  | .drop i => some i
  | _ => none

namespace WorkerRouter

def running (s : WorkerRouter) (pid : Nat) : Bool := s.processes.any fun p => p.pid = pid

/-- `process_exists` for the PID of an entry. -/
def stays (s : WorkerRouter) (exists? : Nat → Bool) (capacity : WorkerCapacity) : Bool :=
  capacity.peerPid.all fun pid => exists? pid || s.running pid

def reaped (s : WorkerRouter) (exists? : Nat → Bool) : List (Nat × WorkerCapacity) :=
  s.capacities.entries.filter fun e => !s.stays exists? e.2

/-- The `retain` of `ensure_worker_capacity`. -/
def reap (s : WorkerRouter) (exists? : Nat → Bool) : WorkerRouter :=
  { s with
    quotas := (s.reaped exists?).foldl (fun q e => dropNow q e.2.reservation) s.quotas
    capacities := s.capacities.retain fun uid =>
      (s.capacities.get? uid).all fun capacity => s.stays exists? capacity }

/-- The reservation of a UID that has none; `false` is a refusal. -/
def reserve (g : Config) (s : WorkerRouter) (account : SystemAccount) : Bool × WorkerRouter :=
  let quotas := reserveNow s.quotas account.username g.policy.workerCapacityClaim
  if holds quotas s.quotas.tasks.length then
    (true, { s with
      quotas := quotas
      capacities := s.capacities.insert account.uid ⟨s.quotas.tasks.length, none, none⟩ })
  else
    (false, { s with quotas := quotas })

def ensureWorkerCapacity (g : Config) (s : WorkerRouter) (account : SystemAccount)
    (exists? : Nat → Bool) : Bool × WorkerRouter :=
  let s := s.reap exists?
  if (s.capacities.get? account.uid).isSome then (true, s) else s.reserve g account

/-- The process, if it still runs, becomes one of this gateway. -/
def adopt (s : WorkerRouter) (uid pid : Nat) : WorkerRouter :=
  { s with
    processes := s.processes.map fun p =>
      if p.pid = pid ∧ p.uid = uid then { p with owned := true } else p }

/-- The identity and the PID are written into the entry of the UID, if it is there. -/
def record (s : WorkerRouter) (uid : Nat) (peerPid : Option Nat) (identity : WorkerIdentity) :
    WorkerRouter :=
  match s.capacities.get? uid with
  | none => s
  | some capacity => { s with
      capacities := s.capacities.insert uid
        { capacity with identity := some identity, peerPid := peerPid } }

/-- The checks of `connect` and `discover` on what the other end says; the kernel gives the PID of
the process, or none. -/
def introduces (uid pid : Nat) (peerPid : Option Nat) (identity : WorkerIdentity) : Bool :=
  (peerPid = none ∨ peerPid = some pid) ∧ identity.uid = uid ∧ 0 < identity.pid ∧
    identity.epoch ≠ 0 ∧ peerPid.all fun pid => 0 < pid ∧ pid = identity.pid

/-- The end of a failed call: only a reservation without a worker is given back. -/
def release (s : WorkerRouter) (uid : Nat) : WorkerRouter :=
  match s.capacities.get? uid with
  | none => s
  | some capacity =>
    if capacity.identity = none then
      { s with
        quotas := dropNow s.quotas capacity.reservation
        capacities := s.capacities.erase uid }
    else s

def setPhase (s : WorkerRouter) (i : Nat) (c : Connect) (phase : Phase) : WorkerRouter :=
  { s with connects := s.connects.set i { c with phase := phase } }

/-- Whether the socket of the UID can lead to this process. -/
def reachable (s : WorkerRouter) (uid pid : Nat) : Bool :=
  s.processes.any fun p => p.pid = pid ∧ p.uid = uid

/-- A probe of the socket with the phases after an absent and after a found worker. -/
def probe (s : WorkerRouter) (i : Nat) (c : Connect) (next : Phase) : Answer → WorkerRouter
  | .found pid =>
    if s.reachable c.account.uid pid then s.setPhase i c (.connected pid) else s
  | .absent => s.setPhase i c next
  | .error => s.setPhase i c .failed
  | _ => s

/-- The next step of a call. -/
def advance (g : Config) (s : WorkerRouter) (i : Nat) (c : Connect) (answer : Answer) :
    WorkerRouter :=
  match c.phase, answer with
  | .waiting, .alive exists? =>
    if s.connects.any fun c' => c'.underWay && c'.account.uid = c.account.uid then s
    else
      let (admitted, s) := s.ensureWorkerCapacity g c.account exists?
      s.setPhase i c (if admitted then .admitted else .done)
  | .admitted, answer => s.probe i c .starting answer
  | .starting, .acquired =>
    if s.connects.any fun c' => c'.holdsStartLock then s
    else s.setPhase i c (.arbitrating 100)
  | .arbitrating 0, _ => s.setPhase i c .failed
  | .arbitrating (_ + 1), .acquired => s.setPhase i c .arbitrated
  | .arbitrating (attempts + 1), answer => s.probe i c (.arbitrating attempts) answer
  | .arbitrated, .spawned pid =>
    if s.running pid then s
    else
      { s with
        processes := ⟨pid, c.account.uid, true⟩ :: s.processes
        connects := s.connects.set i { c with phase := .started 100, spawned := some pid } }
  | .arbitrated, answer => s.probe i c .arbitrated answer
  | .started 0, _ => s.setPhase i c .failed
  | .started (attempts + 1), answer => s.probe i c (.started attempts) answer
  | .connected pid, .identity peerPid identity =>
    if introduces c.account.uid pid peerPid identity then
      ((s.record c.account.uid peerPid identity).adopt c.account.uid pid).setPhase i c .done
    else s.setPhase i c .failed
  | .connected _, .error => s.setPhase i c .failed
  | .failed, _ => (s.release c.account.uid).setPhase i c .done
  | _, _ => s

/-- A gateway process begins; the workers outlive the one before. -/
def start (g : Config) (processes : List Process) : WorkerRouter where
  quotas := ⟨g.governor, [], false⟩
  capacities := .empty
  processes := processes.map fun p => { p with owned := false }
  connects := []
  stage := .recovering

def step (g : Config) (s : WorkerRouter) : Event → WorkerRouter
  | .connect account =>
    if s.stage = .serving then { s with connects := s.connects ++ [⟨account, .waiting, none⟩] }
    else s
  | .advance i answer =>
    match s.connects[i]? with
    | none => s
    | some c => s.advance g i c answer
  | .cancel i =>
    match s.connects[i]? with
    | none => s
    | some c => s.setPhase i c .done
  | .recover account pid peerPid identity exists? =>
    if s.stage = .recovering ∧ s.reachable account.uid pid = true then
      if introduces account.uid pid peerPid identity then
        let (admitted, s) := s.ensureWorkerCapacity g account exists?
        if admitted then (s.record account.uid peerPid identity).adopt account.uid pid
        else { s with stage := .down }
      else { s with stage := .down }
    else s
  | .serve => if s.stage = .recovering then { s with stage := .serving } else s
  | .appear pid uid =>
    if s.running pid then s else { s with processes := ⟨pid, uid, false⟩ :: s.processes }
  | .exit pid => { s with processes := s.processes.filter fun p => p.pid ≠ pid }
  | .quota event =>
    -- Nobody else has the reservations of the router.
    if s.capacities.entries.any fun e => dropped? event = some e.2.reservation then s
    else { s with quotas := s.quotas.step event }
  | .restart => start g s.processes

/-- The states that the allowed events lead to, from any processes with different PIDs. -/
inductive Run (g : Config) (allowed : WorkerRouter → Event → Prop) : WorkerRouter → Prop
  | start (processes : List Process) (hpids : processes.Pairwise fun p p' => p.pid ≠ p'.pid) :
      Run g allowed (start g processes)
  | step {s : WorkerRouter} (h : Run g allowed s) (event : Event) (hevent : allowed s event) :
      Run g allowed (s.step g event)

end WorkerRouter

end AstraShell.Worker
