import AstraShell.Lib.Temporal

/-!
# The idle exit of a worker

The loop of `serve_worker` of `worker.rs`. It accepts connections, joins the requests that have
completed, and looks at a timer; requests and terminals run beside it. Whether the worker is empty
is only sampled when a request is joined and at a tick, which read the clock with the sample.
`idle_exit_only_when_idle` says that no busy time is missed between two samples.
-/

set_option autoImplicit false

namespace AstraShell.Worker

open Lib Lib.Temporal

/-! ## Model -/

structure WorkerIdleState where
  idleSince : Option ℕ

namespace WorkerIdleState

def markActive (_ : WorkerIdleState) : WorkerIdleState := ⟨none⟩

def observe (s : WorkerIdleState) (empty : Bool) (now : ℕ) : WorkerIdleState :=
  if empty then ⟨some (s.idleSince.getD now)⟩ else s.markActive

def shouldExit (s : WorkerIdleState) (empty : Bool) (now timeout : ℕ) :
    Bool × WorkerIdleState :=
  if timeout = 0 then (false, s.markActive)
  else
    let s := s.observe empty now
    (s.idleSince.any fun idleSince => timeout ≤ now - idleSince, s)

end WorkerIdleState

/-- A request of the `JoinSet`. It stays there when it has completed, until it is joined. -/
inductive RequestTask where
  | running
  | completed
  deriving DecidableEq

inductive TerminalStatus where
  | running
  | exited
  deriving DecidableEq

structure WorkerConfig where
  idleTimeout : ℕ
  maximumRequests : ℕ
  expectedUid : ℕ

structure ServedWorker where
  requests : List RequestTask
  terminals : List TerminalStatus
  idleState : WorkerIdleState
  clock : ℕ
  /-- The loop has returned through its idle exit. -/
  returned : Bool

inductive WorkerEvent where
  | accept (peerUid : ℕ)
  | complete (request : ℕ)
  /-- The loop joins a request that has completed. -/
  | join (request : ℕ)
  /-- A request in progress starts a terminal. -/
  | startTerminal (request : ℕ)
  | exitTerminal (terminal : ℕ)
  | tick
  | elapse (duration : ℕ)

namespace ServedWorker

def start : ServedWorker := ⟨[], [], ⟨none⟩, 0, false⟩

def hasActiveTerminals (s : ServedWorker) : Bool := .running ∈ s.terminals

def empty (s : ServedWorker) : Bool := s.requests.isEmpty && !s.hasActiveTerminals

/-- One event of a loop that has not returned. -/
def handle (config : WorkerConfig) (s : ServedWorker) : WorkerEvent → ServedWorker
  | .accept peerUid =>
    if config.maximumRequests ≤ s.requests.length then s
    else if peerUid ≠ 0 ∧ peerUid ≠ config.expectedUid then s
    else { s with requests := s.requests ++ [.running], idleState := s.idleState.markActive }
  | .complete request => { s with requests := s.requests.set request .completed }
  | .join request =>
    if s.requests[request]? = some .completed then
      let s := { s with requests := s.requests.eraseIdx request }
      { s with idleState := s.idleState.observe s.empty s.clock }
    else s
  | .startTerminal request =>
    if s.requests[request]? = some .running then
      { s with terminals := s.terminals ++ [.running] }
    else s
  | .exitTerminal terminal => { s with terminals := s.terminals.set terminal .exited }
  | .tick =>
    if config.idleTimeout = 0 then s
    else
      let (exit, idleState) := s.idleState.shouldExit s.empty s.clock config.idleTimeout
      { s with idleState := idleState, returned := exit }
  | .elapse duration => { s with clock := s.clock + duration }

def step (config : WorkerConfig) (s : ServedWorker) (event : WorkerEvent) : ServedWorker :=
  if s.returned then s else s.handle config event

def run (config : WorkerConfig) (act : ℕ → WorkerEvent) : ℕ → ServedWorker :=
  Temporal.run (step config) start act

/-- No request is in progress, or still to be joined, and no terminal is running. -/
def Idle (s : ServedWorker) : Prop := s.requests = [] ∧ .running ∉ s.terminals

/-! ## The time of the last sample -/

variable {config : WorkerConfig} {act : ℕ → WorkerEvent} {s : ServedWorker} {n since : ℕ}

/-- A time remembered at `t` was remembered at `s`, and idleness has lasted from there, or it is the
time of `t`, which is idle. -/
def Tracks (s t : ServedWorker) : Prop :=
  ∀ since, t.idleState.idleSince = some since →
    (s.idleState.idleSince = some since ∧ (s.Idle → t.Idle)) ∨ (t.clock = since ∧ t.Idle)

theorem Tracks.refl (s : ServedWorker) : Tracks s s := fun _ h => .inl ⟨h, id⟩

/-- A sample that leaves a time has found the worker idle. -/
theorem Tracks.observe (t : ServedWorker) (hold : t.idleState = s.idleState) (returned : Bool) :
    Tracks s { t with idleState := t.idleState.observe t.empty t.clock, returned := returned } := by
  intro since h
  cases hempty : t.empty with
  | false => cases hempty ▸ h
  | true =>
    have hidle : t.Idle := by simpa [empty, hasActiveTerminals, Idle] using hempty
    simp only [WorkerIdleState.observe, hempty, if_true, hold, Option.some.injEq] at h
    cases hsince : s.idleState.idleSince with
    | none => exact .inr ⟨by simpa [hsince] using h, hidle⟩
    | some time => exact .inl ⟨by simpa [hsince] using h, fun _ => hidle⟩

theorem tracks_handle (event : WorkerEvent) : Tracks s (s.handle config event) := by
  cases event with
  | accept peerUid =>
    simp only [handle]
    split_ifs
    · exact .refl s
    · exact .refl s
    · intro since h
      cases h
  | complete request => exact fun _ h => .inl ⟨h, fun hidle => ⟨by simp [handle, hidle.1], hidle.2⟩⟩
  | join request =>
    simp only [handle]
    split_ifs
    · exact .observe (s := s) { s with requests := s.requests.eraseIdx request } rfl s.returned
    · exact .refl s
  | startTerminal request =>
    -- An idle worker has no request that could start a terminal.
    simp only [handle]
    split_ifs with hrunning
    · exact fun _ h => .inl ⟨h, fun hidle => by cases hidle.1 ▸ hrunning⟩
    · exact .refl s
  | exitTerminal terminal =>
    refine fun _ h => .inl ⟨h, fun hidle => ⟨hidle.1, fun hmem => ?_⟩⟩
    rcases List.mem_or_eq_of_mem_set hmem with hold | hexited
    · exact hidle.2 hold
    · cases hexited
  | tick =>
    simp only [handle, WorkerIdleState.shouldExit]
    split_ifs
    · exact .refl s
    · exact .observe s rfl _
  | elapse duration => exact fun _ h => .inl ⟨h, id⟩

theorem tracks_step (event : WorkerEvent) : Tracks s (s.step config event) := by
  unfold step
  split_ifs
  · exact .refl s
  · exact tracks_handle event

/-- Only a tick ends the loop, when the remembered time is a timeout ago. -/
theorem handle_exit {event : WorkerEvent} (hserving : s.returned = false)
    (h : (s.handle config event).returned = true) :
    config.idleTimeout ≠ 0 ∧ (s.handle config event).clock = s.clock ∧
      ∃ since, (s.handle config event).idleState.idleSince = some since ∧
        config.idleTimeout ≤ s.clock - since := by
  cases event with
  | tick =>
    simp only [handle, WorkerIdleState.shouldExit] at h ⊢
    split_ifs at h ⊢ with htimeout
    · cases hserving.symm.trans h
    · obtain ⟨since, hsince, hpast⟩ := (Option.any_eq_true _ _).1 h
      exact ⟨htimeout, rfl, since, hsince, of_decide_eq_true hpast⟩
  | _ => simp [handle, apply_ite returned, hserving] at h

/-- The worker has been idle since the time it remembers. -/
theorem idle_since (h : (run config act n).idleState.idleSince = some since) :
    ∃ k ≤ n, (run config act k).clock = since ∧ ∀ m, k ≤ m → m ≤ n → (run config act m).Idle := by
  induction n with
  | zero => cases h
  | succ n ih =>
    rcases tracks_step (act n) since h with ⟨hold, hidle⟩ | ⟨hclock, hidle⟩
    · obtain ⟨k, hk, hclock, hall⟩ := ih hold
      refine ⟨k, by omega, hclock, fun m hkm hm => ?_⟩
      rcases Nat.le_succ_iff.1 hm with hle | rfl
      · exact hall m hkm hle
      · exact hidle (hall n hk le_rfl)
    · refine ⟨n + 1, le_rfl, hclock, fun m hkm hm => ?_⟩
      obtain rfl := le_antisymm hkm hm
      exact hidle

/-- The loop returns through its idle exit only with a timeout, and after it has been idle without a
break for that long. -/
theorem idle_exit_only_when_idle (config : WorkerConfig) (act : ℕ → WorkerEvent) (n : ℕ)
    (hserving : (run config act n).returned = false)
    (hexit : (run config act (n + 1)).returned = true) :
    config.idleTimeout ≠ 0 ∧
      ∃ k ≤ n, (run config act k).clock + config.idleTimeout ≤ (run config act n).clock ∧
        ∀ m, k ≤ m → m ≤ n → (run config act m).Idle := by
  have hstep : run config act (n + 1) = (run config act n).handle config (act n) :=
    if_neg (ne_true_of_eq_false hserving)
  rw [hstep] at hexit
  obtain ⟨htimeout, hclock, since, hsince, hpast⟩ := handle_exit hserving hexit
  rcases tracks_handle (act n) since hsince with ⟨hold, -⟩ | ⟨hnow, -⟩
  · obtain ⟨k, hk, rfl, hidle⟩ := idle_since hold
    exact ⟨htimeout, k, hk, by omega, hidle⟩
  · -- The sample that ends the loop is not the one that set the time.
    omega

/-- One request comes and goes, and the worker exits five ticks of the clock later. -/
def briefService : ℕ → WorkerEvent
  | 0 => .accept 0
  | 1 => .complete 0
  | 2 => .join 0
  | 3 => .elapse 5
  | _ => .tick

theorem idle_exit_after_request :
    ∃ k ≤ 4, (run ⟨5, 1, 0⟩ briefService k).clock + 5 ≤ (run ⟨5, 1, 0⟩ briefService 4).clock ∧
      ∀ m, k ≤ m → m ≤ 4 → (run ⟨5, 1, 0⟩ briefService m).Idle :=
  (idle_exit_only_when_idle ⟨5, 1, 0⟩ briefService 4 (by decide) (by decide)).2

end ServedWorker

end AstraShell.Worker
