import AstraShell.Lib.Temporal
import AstraShell.TerminalSync.Window

/-!
# Reliable state synchronization

A `StateSyncWindow` and a client joined by two first-in first-out channels. The client applies each
snapshot or diff to its own copy and acknowledges it once. `Exchange.Stage` lists the three stages
the pair goes round: nothing in flight, an update on its way, an acknowledgement on its way.

`SyncSystem` adds the engine whose newest state is passed to `prepare_update`. The main result is
`state_sync_reliable`.
-/

set_option autoImplicit false

namespace AstraShell.TerminalSync

open Lib Lib.Temporal TerminalState Filter

/-- What the client makes of an update, from its own copy. -/
def PreparedStateUpdate.apply (graphemeCount : String → Nat) (client : Option State) :
    PreparedStateUpdate → Except String State
  | .snapshot state => do
    withContext "terminal state is invalid" (validate graphemeCount state)
    return state
  | .diff d => do
    let base ← context client "terminal state diff has no base"
    applyTerminalStateDiff graphemeCount base d

/-! ## The two ends -/

structure Exchange where
  window : StateSyncWindow
  updates : List PreparedStateUpdate
  client : Option State
  acks : List TerminalStateAck

namespace Exchange

variable (graphemeCount : String → Nat)

/-- The initial state is in flight. -/
def begin (state : State) : Except String Exchange := do
  let window ← StateSyncWindow.empty.beginInitial state
  return ⟨window, [.snapshot state], none, []⟩

def markDirty (e : Exchange) : Exchange := { e with window := e.window.markDirty }

/-- A failure ends the attachment. -/
def prepare (e : Exchange) (latest : State) (allowDiff : Bool) : Except String Exchange :=
  match e.window.prepareUpdate graphemeCount latest allowDiff with
  | (.ok update, window) =>
    .ok { e with window := window, updates := e.updates ++ update.toList }
  | (.error e, _) => .error e

def deliverUpdate (e : Exchange) : Except String Exchange :=
  match e.updates with
  | [] => .error "no update is on the way"
  | update :: updates => do
    let state ← update.apply graphemeCount e.client
    return { e with
      updates := updates
      client := some state
      acks := e.acks ++ [⟨state.epoch, state.generation⟩] }

def deliverAck (e : Exchange) : Except String Exchange :=
  match e.acks with
  | [] => .error "no acknowledgement is on the way"
  | ack :: acks => do
    let (_, window) ← e.window.acknowledge ack
    return { e with window := window, acks := acks }

/-! ## The stages -/

/-- Where the exchange stands. -/
inductive Stage (e : Exchange) : Prop
  /-- The client has the acknowledged state. -/
  | idle (state : State) (hacked : e.window.acknowledged = some state)
      (hflight : e.window.inFlight = none) (hupdates : e.updates = [])
      (hclient : e.client = some state) (hacks : e.acks = [])
  /-- An update is on its way. -/
  | sent (target : State) (update : PreparedStateUpdate)
      (hflight : e.window.inFlight = some target) (hupdates : e.updates = [update])
      (hcarries : StateSyncWindow.Carries graphemeCount e.window.acknowledged target update)
      (hclient : e.client = e.window.acknowledged) (hacks : e.acks = [])
      (hnewer : ¬ e.window.covers target.epoch target.generation)
  /-- The client has the state in flight and its acknowledgement is on its way. -/
  | applied (target : State) (hflight : e.window.inFlight = some target) (hupdates : e.updates = [])
      (hclient : e.client = some target) (hacks : e.acks = [⟨target.epoch, target.generation⟩])
      (hnewer : ¬ e.window.covers target.epoch target.generation)

/-- The stage, and that the window holds states of `known`, which are valid. -/
structure Inv (known : List State) (e : Exchange) : Prop where
  stage : Stage graphemeCount e
  valid : ∀ s ∈ known, validate graphemeCount s = .ok ()
  acknowledged : ∀ s ∈ e.window.acknowledged, s ∈ known
  inFlight : ∀ s ∈ e.window.inFlight, s ∈ known

variable {graphemeCount} {known : List State} {e e' : Exchange} {latest : State} {allowDiff : Bool}

/-- The client that has the acknowledged state makes the target of an update. -/
theorem apply_of_carries {acknowledged : Option State} {target : State}
    {update : PreparedStateUpdate} (hvalid : validate graphemeCount target = .ok ())
    (h : StateSyncWindow.Carries graphemeCount acknowledged target update) :
    update.apply graphemeCount acknowledged = .ok target := by
  cases h with
  | snapshot =>
    rw [PreparedStateUpdate.apply, hvalid]
    rfl
  | diff base d hbase happly =>
    rw [PreparedStateUpdate.apply, hbase]
    exact happly

theorem inv_begin {state : State} (hvalid : validate graphemeCount state = .ok ())
    (h : begin state = .ok e) : Inv graphemeCount [state] e := by
  obtain ⟨-, ⟨⟨⟩, -, rfl⟩, rfl⟩ := h
  refine {
    stage := .sent state (.snapshot state) rfl rfl .snapshot rfl rfl (by
      rintro ⟨s, hs, -⟩
      cases hs)
    valid := ?_
    acknowledged := fun s hs => by cases hs
    inFlight := ?_ }
  · intro s hs
    rw [List.mem_singleton.1 hs]
    exact hvalid
  · intro s hs
    cases hs
    exact List.mem_singleton_self _

theorem Inv.mono (h : Inv graphemeCount known e) {known' : List State}
    (hsub : ∀ s ∈ known, s ∈ known') (hvalid : ∀ s ∈ known', validate graphemeCount s = .ok ()) :
    Inv graphemeCount known' e :=
  { h with
    valid := hvalid
    acknowledged := fun s hs => hsub s (h.acknowledged s hs)
    inFlight := fun s hs => hsub s (h.inFlight s hs) }

theorem Stage.markDirty (h : Stage graphemeCount e) : Stage graphemeCount e.markDirty := by
  cases h with
  | idle state hacked hflight hupdates hclient hacks =>
    exact .idle state hacked hflight hupdates hclient hacks
  | sent target update hflight hupdates hcarries hclient hacks hnewer =>
    exact .sent target update hflight hupdates hcarries hclient hacks hnewer
  | applied target hflight hupdates hclient hacks hnewer =>
    exact .applied target hflight hupdates hclient hacks hnewer

section

variable (h : Inv graphemeCount known e)

include h

theorem Inv.markDirty : Inv graphemeCount known e.markDirty :=
  { h with stage := h.stage.markDirty }

/-- With nothing in flight a known state can be passed in: it is covered, or goes in flight. -/
theorem Inv.prepare_cases (allowDiff : Bool) (hflight : e.window.inFlight = none)
    (hlatest : latest ∈ known) :
    (e.window.covers latest.epoch latest.generation ∧
      e.prepare graphemeCount latest allowDiff =
        .ok { e with window := { e.window with dirty := false } }) ∨
    (¬ e.window.covers latest.epoch latest.generation ∧ ∃ update,
      StateSyncWindow.Carries graphemeCount e.window.acknowledged latest update ∧
      e.prepare graphemeCount latest allowDiff = .ok { e with
        window := { e.window with dirty := false, inFlight := some latest }
        updates := e.updates ++ [update] }) := by
  have hbase : ∀ base ∈ e.window.acknowledged, validate graphemeCount base = .ok () :=
    fun base hmem => h.valid base (h.acknowledged base hmem)
  rcases StateSyncWindow.prepareUpdate_cases allowDiff hflight
    (h.valid latest hlatest) hbase with ⟨hcovers, hop⟩ | ⟨hcovers, update, hcarries, hop⟩
  · refine .inl ⟨hcovers, ?_⟩
    rw [prepare, hop]
    simp
  · refine .inr ⟨hcovers, update, hcarries, ?_⟩
    rw [prepare, hop]
    rfl

theorem Inv.prepare (hflight : e.window.inFlight = none) (hlatest : latest ∈ known)
    (hop : e.prepare graphemeCount latest allowDiff = .ok e') : Inv graphemeCount known e' := by
  cases h.stage with
  | idle state hacked hflight' hupdates hclient hacks =>
    rcases h.prepare_cases allowDiff hflight hlatest with
      ⟨-, heq⟩ | ⟨hcovers, update, hcarries, heq⟩
    · obtain rfl := Except.ok.inj (heq.symm.trans hop)
      exact { h with stage := .idle state hacked hflight hupdates hclient hacks }
    · obtain rfl := Except.ok.inj (heq.symm.trans hop)
      refine { h with
        stage := .sent latest update rfl (by rw [hupdates]; rfl) hcarries
          (hclient.trans hacked.symm) hacks hcovers
        inFlight := ?_ }
      intro s hs
      cases hs
      exact hlatest
  | sent target update hsome _ _ _ _ _ | applied target hsome _ _ _ _ =>
    rw [hflight] at hsome
    cases hsome

/-- An update on its way is applied, and gives the state in flight. -/
theorem Inv.deliverUpdate_cases (hne : e.updates ≠ []) :
    ∃ target, e.window.inFlight = some target ∧ e.deliverUpdate graphemeCount = .ok { e with
      updates := []
      client := some target
      acks := [⟨target.epoch, target.generation⟩] } := by
  cases h.stage with
  | idle _ _ _ hupdates _ _ | applied _ _ hupdates _ _ _ => exact absurd hupdates hne
  | sent target update hflight hupdates hcarries hclient hacks _ =>
    refine ⟨target, hflight, ?_⟩
    have happly := apply_of_carries (h.valid target (h.inFlight target hflight)) hcarries
    rw [Exchange.deliverUpdate, hupdates]
    dsimp only
    rw [hclient, happly, hacks]
    rfl

end

theorem updates_ne_nil (hop : e.deliverUpdate graphemeCount = .ok e') : e.updates ≠ [] := by
  intro hnil
  rw [Exchange.deliverUpdate, hnil] at hop
  cases hop

theorem acks_ne_nil (hop : e.deliverAck = .ok e') : e.acks ≠ [] := by
  intro hnil
  rw [Exchange.deliverAck, hnil] at hop
  cases hop

section

variable (h : Inv graphemeCount known e)

include h

theorem Inv.deliverUpdate
    (hop : e.deliverUpdate graphemeCount = .ok e') : Inv graphemeCount known e' := by
  have hne := updates_ne_nil hop
  obtain ⟨target, hflight, heq⟩ := h.deliverUpdate_cases hne
  obtain rfl := Except.ok.inj (heq.symm.trans hop)
  cases h.stage with
  | idle _ _ _ hupdates _ _ | applied _ _ hupdates _ _ _ => exact absurd hupdates hne
  | sent target' _ hflight' _ _ _ _ hnewer =>
    rw [hflight] at hflight'
    cases hflight'
    exact { h with stage := .applied target hflight rfl rfl rfl hnewer }

/-- An acknowledgement on its way is that of the state in flight, and is accepted. -/
theorem Inv.acknowledge_cases (hne : e.acks ≠ []) :
    ∃ target, e.acks = [⟨target.epoch, target.generation⟩] ∧ e.client = some target ∧
      e.updates = [] ∧ e.window.inFlight = some target ∧
      e.window.acknowledge ⟨target.epoch, target.generation⟩ =
        .ok (.accepted, { e.window with acknowledged := some target, inFlight := none }) := by
  cases h.stage with
  | idle _ _ _ _ _ hacks | sent _ _ _ _ _ _ hacks _ => exact absurd hacks hne
  | applied target hflight hupdates hclient hacks hnewer =>
    have hvalid := h.valid target (h.inFlight target hflight)
    exact ⟨target, hacks, hclient, hupdates, hflight,
      StateSyncWindow.acknowledge_in_flight hflight hvalid hnewer⟩

theorem Inv.deliverAck_cases (hne : e.acks ≠ []) :
    ∃ target, e.client = some target ∧ e.updates = [] ∧ e.window.inFlight = some target ∧
      e.deliverAck = .ok { e with
        window := { e.window with acknowledged := some target, inFlight := none }
        acks := [] } := by
  obtain ⟨target, hacks, hclient, hupdates, hflight, hop⟩ := h.acknowledge_cases hne
  refine ⟨target, hclient, hupdates, hflight, ?_⟩
  rw [deliverAck, hacks]
  dsimp only
  rw [hop]
  rfl

theorem Inv.deliverAck (hop : e.deliverAck = .ok e') : Inv graphemeCount known e' := by
  have hne := acks_ne_nil hop
  obtain ⟨target, hclient, hupdates, hflight, heq⟩ := h.deliverAck_cases hne
  obtain rfl := Except.ok.inj (heq.symm.trans hop)
  refine { h with
    stage := .idle target rfl rfl hupdates hclient rfl
    acknowledged := ?_
    inFlight := fun s hs => by cases hs }
  intro s hs
  cases hs
  exact h.inFlight target hflight

end

end Exchange

/-! ## The engine and the exchange -/

/-- An engine, whose states so far are `engine :: past`, and the exchange with one client. `marked`
records that `mark_dirty` was called after the last `prepare_update`; no operation reads it. -/
structure SyncSystem where
  exchange : Exchange
  engine : State
  past : List State
  marked : Bool

inductive SyncAction where
  /-- The engine moves to a new state. -/
  | change (state : State)
  | markDirty
  | prepare (allowDiff : Bool)
  | deliverUpdate
  | deliverAck

namespace SyncSystem

variable (graphemeCount : String → Nat)

def states (s : SyncSystem) : List State := s.engine :: s.past

def start (state : State) : Except String SyncSystem := do
  let exchange ← Exchange.begin state
  return ⟨exchange, state, [], false⟩

def step (s : SyncSystem) : SyncAction → Except String SyncSystem
  | .change state => .ok { s with engine := state, past := s.states }
  | .markDirty => .ok { s with exchange := s.exchange.markDirty, marked := true }
  | .prepare allowDiff => do
    let exchange ← s.exchange.prepare graphemeCount s.engine allowDiff
    return { s with exchange := exchange, marked := false }
  | .deliverUpdate => do
    let exchange ← s.exchange.deliverUpdate graphemeCount
    return { s with exchange := exchange }
  | .deliverAck => do
    let exchange ← s.exchange.deliverAck
    return { s with exchange := exchange }

/-- `state` is the newest of `states`, and the only one of its generation. -/
def IsLatest (states : List State) (state : State) : Prop :=
  ∀ s ∈ states, s.epoch = state.epoch →
    s.generation ≤ state.generation ∧ (s.generation = state.generation → s = state)

/-- The engine moves to newer valid states, and an update is prepared only when one is needed. -/
def Enabled (s : SyncSystem) : SyncAction → Prop
  | .change state => validate graphemeCount state = .ok () ∧ IsLatest s.states state
  | .prepare _ => s.exchange.window.needsUpdate = true
  | _ => True

inductive Reachable : SyncSystem → Prop
  | start {state : State} {s : SyncSystem} (hvalid : validate graphemeCount state = .ok ())
      (h : start state = .ok s) : Reachable s
  | step {s s' : SyncSystem} (h : Reachable s) (action : SyncAction)
      (henabled : s.Enabled graphemeCount action) (hstep : s.step graphemeCount action = .ok s') :
      Reachable s'

structure Inv (s : SyncSystem) : Prop where
  exchange : s.exchange.Inv graphemeCount s.states
  latest : IsLatest s.states s.engine
  dirty : s.exchange.window.dirty = s.marked

variable {graphemeCount} {s s' : SyncSystem} {allowDiff : Bool}

theorem needsUpdate_iff {w : StateSyncWindow} :
    w.needsUpdate = true ↔ w.dirty = true ∧ w.inFlight = none := by
  simp [StateSyncWindow.needsUpdate]

theorem engine_mem (s : SyncSystem) : s.engine ∈ s.states := List.mem_cons_self

/-- A covered engine state is the acknowledged one. -/
theorem Inv.acknowledged_of_covers (h : Inv graphemeCount s)
    (hcovers : s.exchange.window.covers s.engine.epoch s.engine.generation) :
    s.exchange.window.acknowledged = some s.engine := by
  obtain ⟨state, hstate, hepoch, hgen⟩ := hcovers
  obtain ⟨hle, hsame⟩ := h.latest state (h.exchange.acknowledged state hstate) hepoch
  obtain rfl := hsame (le_antisymm hle hgen)
  exact hstate

theorem inv_start {state : State} (hvalid : validate graphemeCount state = .ok ())
    (h : start state = .ok s) : Inv graphemeCount s := by
  obtain ⟨exchange, hbegin, hs⟩ := bind_eq_ok_iff.1 h
  cases hs
  have hinv := Exchange.inv_begin hvalid hbegin
  refine ⟨hinv, ?_, ?_⟩
  · intro p hp _
    obtain rfl := List.mem_singleton.1 hp
    exact ⟨le_rfl, fun _ => rfl⟩
  · simp only [Exchange.begin, StateSyncWindow.beginInitial, bind_eq_ok_iff, ensure_eq_ok_iff,
      pure_eq_ok_iff] at hbegin
    obtain ⟨-, ⟨⟨⟩, -, rfl⟩, rfl⟩ := hbegin
    rfl

/-- What `prepare_update` does when an update is needed. -/
theorem Inv.prepare_cases (h : Inv graphemeCount s) (allowDiff : Bool)
    (hneeds : s.exchange.window.needsUpdate = true) :
    (s.exchange.client = some s.engine ∧ s.exchange.updates = [] ∧
      s.step graphemeCount (.prepare allowDiff) = .ok { s with
        exchange := { s.exchange with window := { s.exchange.window with dirty := false } }
        marked := false }) ∨
    (¬ s.exchange.window.covers s.engine.epoch s.engine.generation ∧
      ∃ update, s.step graphemeCount (.prepare allowDiff) = .ok { s with
        exchange := { s.exchange with
          window := { s.exchange.window with dirty := false, inFlight := some s.engine }
          updates := s.exchange.updates ++ [update] }
        marked := false }) := by
  have hflight := (needsUpdate_iff.1 hneeds).2
  rcases h.exchange.prepare_cases allowDiff hflight s.engine_mem with
    ⟨hcovers, hop⟩ | ⟨hcovers, update, -, hop⟩
  · have hacked := h.acknowledged_of_covers hcovers
    cases h.exchange.stage with
    | idle state hacked' _ hupdates hclient _ =>
      rw [hacked] at hacked'
      cases hacked'
      refine .inl ⟨hclient, hupdates, ?_⟩
      rw [step, hop]
      rfl
    | sent _ _ hsome _ _ _ _ _ | applied _ hsome _ _ _ _ =>
      rw [hflight] at hsome
      cases hsome
  · refine .inr ⟨hcovers, update, ?_⟩
    rw [step, hop]
    rfl

theorem Inv.step (h : Inv graphemeCount s) {action : SyncAction}
    (henabled : s.Enabled graphemeCount action) (hstep : s.step graphemeCount action = .ok s') :
    Inv graphemeCount s' := by
  cases action with
  | change state =>
    cases hstep
    obtain ⟨hvalid, hlatest⟩ := henabled
    refine ⟨h.exchange.mono (fun p hp => List.mem_cons_of_mem _ hp) ?_, ?_, h.dirty⟩
    · exact List.forall_mem_cons.2 ⟨hvalid, h.exchange.valid⟩
    · intro p hp hepoch
      rcases List.mem_cons.1 hp with rfl | hp
      · exact ⟨le_rfl, fun _ => rfl⟩
      · exact hlatest p hp hepoch
  | markDirty =>
    cases hstep
    exact ⟨h.exchange.markDirty, h.latest, rfl⟩
  | prepare allowDiff =>
    have hneeds : s.exchange.window.needsUpdate = true := henabled
    have hdirty : s'.exchange.window.dirty = s'.marked := by
      rcases h.prepare_cases allowDiff hneeds with ⟨-, -, heq⟩ | ⟨-, update, heq⟩
      · obtain rfl := Except.ok.inj (heq.symm.trans hstep)
        rfl
      · obtain rfl := Except.ok.inj (heq.symm.trans hstep)
        rfl
    obtain ⟨exchange, hop, hs'⟩ := bind_eq_ok_iff.1 hstep
    cases hs'
    exact ⟨h.exchange.prepare (needsUpdate_iff.1 hneeds).2 s.engine_mem hop, h.latest, hdirty⟩
  | deliverUpdate =>
    obtain ⟨exchange, hop, hs'⟩ := bind_eq_ok_iff.1 hstep
    cases hs'
    refine ⟨h.exchange.deliverUpdate hop, h.latest, ?_⟩
    obtain ⟨target, -, heq⟩ := h.exchange.deliverUpdate_cases (Exchange.updates_ne_nil hop)
    obtain rfl := Except.ok.inj (heq.symm.trans hop)
    exact h.dirty
  | deliverAck =>
    obtain ⟨exchange, hop, hs'⟩ := bind_eq_ok_iff.1 hstep
    cases hs'
    refine ⟨h.exchange.deliverAck hop, h.latest, ?_⟩
    obtain ⟨target, -, -, -, heq⟩ := h.exchange.deliverAck_cases (Exchange.acks_ne_nil hop)
    obtain rfl := Except.ok.inj (heq.symm.trans hop)
    exact h.dirty

theorem Reachable.inv (h : Reachable graphemeCount s) : Inv graphemeCount s := by
  induction h with
  | start hvalid h => exact inv_start hvalid h
  | step _ action henabled hstep ih => exact ih.step henabled hstep

/-! ## Convergence -/

/-- The system at each time of a schedule. -/
def run (graphemeCount : String → Nat) (s : SyncSystem) (act : ℕ → SyncAction) : ℕ → SyncSystem :=
  Temporal.run (attempt (SyncSystem.step graphemeCount)) s act

/-- A schedule under which the engine stands still, `mark_dirty` has been called since the last
`prepare_update` or is called, and nothing that waits is put off for ever. -/
structure Settles (graphemeCount : String → Nat) (s : SyncSystem) (act : ℕ → SyncAction) :
    Prop where
  enabled : ∀ n, (s.run graphemeCount act n).Enabled graphemeCount (act n)
  quiet : ∀ n state, act n ≠ .change state
  marked : s.marked = true ∨ ∃ n, act n = .markDirty
  updates : ∀ n, (s.run graphemeCount act n).exchange.updates ≠ [] →
    ∃ m, n ≤ m ∧ act m = .deliverUpdate
  acks : ∀ n, (s.run graphemeCount act n).exchange.acks ≠ [] →
    ∃ m, n ≤ m ∧ act m = .deliverAck
  prepares : ∀ n, (s.run graphemeCount act n).exchange.window.needsUpdate = true →
    ∃ m, n ≤ m ∧ ∃ allowDiff, act m = .prepare allowDiff

/-- The client has the engine's state and nothing else is coming. -/
def Done (s : SyncSystem) : Prop :=
  s.exchange.client = some s.engine ∧ s.exchange.updates = []

theorem attempt_deliverUpdate_of_nil (hnil : s.exchange.updates = []) :
    attempt (SyncSystem.step graphemeCount) s .deliverUpdate = s := by
  rw [attempt, SyncSystem.step, Exchange.deliverUpdate, hnil]
  rfl

theorem attempt_deliverAck_of_nil (hnil : s.exchange.acks = []) :
    attempt (SyncSystem.step graphemeCount) s .deliverAck = s := by
  rw [attempt, SyncSystem.step, Exchange.deliverAck, hnil]
  rfl

/-- The engine's state is on its way to the client, or will be. -/
def Coming (s : SyncSystem) : Prop :=
  s.exchange.window.dirty = true ∨
    s.exchange.window.inFlight = some s.engine ∧ s.exchange.updates ≠ []

/-- How far the client is from the engine's state: an older update is to be applied and
acknowledged, an update to be prepared, and that one to be applied. -/
def distance (s : SyncSystem) : ℕ :=
  if s.exchange.window.inFlight = some s.engine ∧ s.exchange.updates ≠ [] then 1
  else if s.exchange.updates ≠ [] then 4
  else if s.exchange.acks ≠ [] then 3
  else 2

/-- The action that is needed at a distance. -/
def Helps : ℕ → SyncAction → Prop
  | 2, action => ∃ allowDiff, action = .prepare allowDiff
  | 3, action => action = .deliverAck
  | _, action => action = .deliverUpdate

/-- What an action does while the engine stands still. -/
def Advances (s : SyncSystem) (action : SyncAction) (s' : SyncSystem) : Prop :=
  Done s' ∨ Coming s' ∧ s'.distance ≤ s.distance ∧
    (Helps s.distance action → s'.distance < s.distance)

theorem Advances.refl {action : SyncAction} (hcoming : Coming s) (h : ¬ Helps s.distance action) :
    Advances s action s :=
  .inr ⟨hcoming, le_rfl, fun hhelps => absurd hhelps h⟩

section

variable (h : Inv graphemeCount s)

include h

theorem Inv.attempt_deliverUpdate (hne : s.exchange.updates ≠ []) :
    ∃ target, s.exchange.window.inFlight = some target ∧
      attempt (SyncSystem.step graphemeCount) s .deliverUpdate = { s with
        exchange := { s.exchange with
          updates := []
          client := some target
          acks := [⟨target.epoch, target.generation⟩] } } := by
  obtain ⟨target, hflight, hop⟩ := h.exchange.deliverUpdate_cases hne
  refine ⟨target, hflight, ?_⟩
  apply attempt_of_ok
  rw [SyncSystem.step, hop]
  rfl

theorem Inv.attempt_deliverAck (hne : s.exchange.acks ≠ []) :
    ∃ target, s.exchange.updates = [] ∧
      attempt (SyncSystem.step graphemeCount) s .deliverAck = { s with
        exchange := { s.exchange with
          window := { s.exchange.window with acknowledged := some target, inFlight := none }
          acks := [] } } := by
  obtain ⟨target, -, hupdates, -, hop⟩ := h.exchange.deliverAck_cases hne
  refine ⟨target, hupdates, ?_⟩
  apply attempt_of_ok
  rw [SyncSystem.step, hop]
  rfl

/-- Nothing undoes `Done` while the engine stands still. -/
theorem Inv.done_attempt {action : SyncAction}
    (henabled : s.Enabled graphemeCount action) (hquiet : ∀ state, action ≠ .change state)
    (hdone : Done s) : Done (attempt (SyncSystem.step graphemeCount) s action) := by
  have ⟨hclient, hupdates⟩ := hdone
  cases action with
  | change state => exact absurd rfl (hquiet state)
  | markDirty => exact hdone
  | prepare allowDiff =>
    rcases h.prepare_cases allowDiff henabled with ⟨-, -, hop⟩ | ⟨hcovers, -⟩
    · rw [attempt_of_ok hop]
      exact hdone
    · -- The acknowledged state is the engine's, so there is nothing to send.
      have hflight := (needsUpdate_iff.1 henabled).2
      cases h.exchange.stage with
      | idle state hacked _ _ hclient' _ =>
        obtain rfl := Option.some.inj (hclient.symm.trans hclient')
        exact absurd ⟨s.engine, hacked, rfl, le_rfl⟩ hcovers
      | sent _ _ hsome _ _ _ _ _ | applied _ hsome _ _ _ _ =>
        rw [hflight] at hsome
        cases hsome
  | deliverUpdate =>
    rw [attempt_deliverUpdate_of_nil hupdates]
    exact hdone
  | deliverAck =>
    by_cases hacks : s.exchange.acks = []
    · rw [attempt_deliverAck_of_nil hacks]
      exact hdone
    · obtain ⟨target, -, heq⟩ := h.attempt_deliverAck hacks
      rw [heq]
      exact hdone

theorem Inv.advances {action : SyncAction} (henabled : s.Enabled graphemeCount action)
    (hquiet : ∀ state, action ≠ .change state) (hcoming : Coming s) :
    Advances s action (attempt (SyncSystem.step graphemeCount) s action) := by
  cases action with
  | change state => exact absurd rfl (hquiet state)
  | markDirty =>
    refine .inr ⟨.inl rfl, le_rfl, ?_⟩
    unfold distance
    split_ifs <;> simp [Helps]
  | prepare allowDiff =>
    have hflight := (needsUpdate_iff.1 henabled).2
    rcases h.prepare_cases allowDiff henabled with ⟨hclient, hupdates, hop⟩ | ⟨-, update, hop⟩
    · rw [attempt_of_ok hop]
      exact .inl ⟨hclient, hupdates⟩
    · have hfar : 1 < s.distance := by
        unfold distance
        split_ifs <;> simp_all
      rw [attempt_of_ok hop]
      refine .inr ⟨.inr ⟨rfl, by simp⟩, ?_⟩
      simp [distance] at hfar ⊢
      omega
  | deliverUpdate =>
    by_cases hupdates : s.exchange.updates = []
    · rw [attempt_deliverUpdate_of_nil hupdates]
      apply Advances.refl hcoming
      unfold distance
      split_ifs <;> simp_all [Helps]
    · obtain ⟨target, hflight, heq⟩ := h.attempt_deliverUpdate hupdates
      rw [heq]
      by_cases hengine : target = s.engine
      · exact .inl ⟨by rw [hengine], rfl⟩
      · refine .inr ?_
        simp_all [Coming, distance]
  | deliverAck =>
    by_cases hacks : s.exchange.acks = []
    · rw [attempt_deliverAck_of_nil hacks]
      apply Advances.refl hcoming
      unfold distance
      split_ifs <;> simp_all [Helps]
    · obtain ⟨target, hupdates, heq⟩ := h.attempt_deliverAck hacks
      rw [heq]
      refine .inr ?_
      simp_all [Coming, distance]

end

namespace Settles

variable {act : ℕ → SyncAction}

theorem reachable (hs : Settles graphemeCount s act) (h : Reachable graphemeCount s) (n : ℕ) :
    Reachable graphemeCount (s.run graphemeCount act n) :=
  run_attempt_invariant h (fun n _ ih hok => ih.step (act n) (hs.enabled n) hok) n

theorem engine_eq (hs : Settles graphemeCount s act) (n : ℕ) :
    (s.run graphemeCount act n).engine = s.engine := by
  refine run_attempt_invariant (I := fun x : SyncSystem => x.engine = s.engine)
    rfl (fun n s' ih hok => ?_) n
  cases hact : act n with
  | change state => exact absurd hact (hs.quiet n state)
  | markDirty =>
    rw [hact] at hok
    cases hok
    exact ih
  | prepare allowDiff | deliverUpdate | deliverAck =>
    rw [hact] at hok
    obtain ⟨_, -, hs'⟩ := bind_eq_ok_iff.1 hok
    cases hs'
    exact ih

variable (hs : Settles graphemeCount s act) (h : Reachable graphemeCount s)

include hs h

/-- The action that is needed is not put off for ever. -/
theorem helps (n : ℕ) (hcoming : Coming (s.run graphemeCount act n)) :
    ∃ m, n ≤ m ∧ Helps (s.run graphemeCount act n).distance (act m) := by
  unfold distance
  split_ifs with hnewest hupdates hacks
  · exact hs.updates n hnewest.2
  · exact hs.updates n hupdates
  · exact hs.acks n hacks
  · -- Nothing is on the way, so nothing is in flight.
    refine hs.prepares n (needsUpdate_iff.2 ?_)
    cases (hs.reachable h n).inv.exchange.stage with
    | idle _ _ hflight _ _ _ => exact ⟨hcoming.resolve_right hnewest, hflight⟩
    | sent _ _ _ hone _ _ _ _ => simp [hone] at hupdates
    | applied _ _ _ _ hone _ => simp [hone] at hacks

theorem leadsTo_done : LeadsTo (fun n => Coming (s.run graphemeCount act n))
    (fun n => Done (s.run graphemeCount act n)) := by
  have hadvances : ∀ n, Coming (s.run graphemeCount act n) →
      Advances (s.run graphemeCount act n) (act n) (s.run graphemeCount act (n + 1)) :=
    fun n => (hs.reachable h n).inv.advances (hs.enabled n) (hs.quiet n)
  refine leadsTo_of_phases (fun n => (s.run graphemeCount act n).distance)
    (fun d n => Helps d (act n)) ?_ (hs.helps h) ?_
  · intro n hcoming
    exact (hadvances n hcoming).imp_right fun hkept => ⟨hkept.1, hkept.2.1⟩
  · intro n hcoming hhelps
    exact (hadvances n hcoming).imp_right fun hkept => hkept.2.2 hhelps

theorem eventually_done : ∀ᶠ n in atTop, Done (s.run graphemeCount act n) := by
  refine eventually_of_stable ?_ fun n hdone =>
    (hs.reachable h n).inv.done_attempt (hs.enabled n) (hs.quiet n) hdone
  obtain ⟨n, hdirty⟩ :
      ∃ n, (s.run graphemeCount act n).exchange.window.dirty = true := by
    rcases hs.marked with hmarked | ⟨n, hact⟩
    · exact ⟨0, h.inv.dirty.trans hmarked⟩
    · refine ⟨n + 1, ?_⟩
      show (attempt (SyncSystem.step graphemeCount) _ (act n)).exchange.window.dirty = true
      rw [hact]
      rfl
  obtain ⟨m, -, hdone⟩ := hs.leadsTo_done h n (.inl hdirty)
  exact ⟨m, hdone⟩

end Settles

end SyncSystem

/-- Reliable synchronization, on every run. At most one update is in flight; an update on its way
applies to the client's copy and gives the state in flight; its acknowledgement is accepted; when it
arrives an update is needed exactly if `mark_dirty` was called after the last `prepare_update`; and
once the engine stands still and the messages arrive, the client's copy is the engine's state from
some time on. -/
theorem state_sync_reliable (graphemeCount : String → Nat) {s : SyncSystem}
    (h : SyncSystem.Reachable graphemeCount s) :
    s.exchange.updates.length + s.exchange.acks.length ≤ 1 ∧
    (∀ update updates, s.exchange.updates = update :: updates →
      ∃ target, s.exchange.window.inFlight = some target ∧
        update.apply graphemeCount s.exchange.client = .ok target) ∧
    (∀ ack ∈ s.exchange.acks, ∃ window,
      s.exchange.window.acknowledge ack = .ok (.accepted, window)) ∧
    (∀ s', s.step graphemeCount .deliverAck = .ok s' →
      s'.exchange.window.needsUpdate = s.marked) ∧
    (∀ act, SyncSystem.Settles graphemeCount s act →
      ∀ᶠ n in atTop, (s.run graphemeCount act n).exchange.client = some s.engine) := by
  have hinv := h.inv
  refine ⟨?_, ?_, ?_, ?_, ?_⟩
  · cases hinv.exchange.stage with
    | idle _ _ _ hupdates _ hacks
    | sent _ _ _ hupdates _ _ hacks _
    | applied _ _ hupdates _ hacks _ => simp [hupdates, hacks]
  · intro update updates hupdates
    cases hinv.exchange.stage with
    | idle _ _ _ hnil _ _
    | applied _ _ hnil _ _ _ => exact absurd (hupdates.symm.trans hnil) (by simp)
    | sent target update' hflight hone hcarries hclient _ _ =>
      obtain ⟨rfl, -⟩ : update = update' ∧ updates = [] := by simpa [hupdates] using hone
      refine ⟨target, hflight, ?_⟩
      rw [hclient]
      exact Exchange.apply_of_carries
        (hinv.exchange.valid target (hinv.exchange.inFlight target hflight)) hcarries
  · intro ack hack
    obtain ⟨target, hacks, -, -, -, hop⟩ :=
      hinv.exchange.acknowledge_cases (List.ne_nil_of_mem hack)
    rw [hacks] at hack
    rw [List.mem_singleton.1 hack]
    exact ⟨_, hop⟩
  · intro s' hstep
    obtain ⟨exchange, hop, hs'⟩ := bind_eq_ok_iff.1 hstep
    cases hs'
    obtain ⟨target, -, -, -, heq⟩ :=
      hinv.exchange.deliverAck_cases (Exchange.acks_ne_nil hop)
    obtain rfl := Except.ok.inj (heq.symm.trans hop)
    simp [StateSyncWindow.needsUpdate, hinv.dirty]
  · intro act hs
    filter_upwards [hs.eventually_done h] with n hn
    rw [hn.1, hs.engine_eq n]

/-! ## A run -/

/-- The smallest terminal, with its first state in flight. -/
def firstSync : SyncSystem := okValue (SyncSystem.start (blankState 0 1)) (by decide +kernel)

/-- The engine moves on before the first state is acknowledged. -/
def changedSync : SyncSystem :=
  { firstSync with engine := blankState 0 2, past := firstSync.states }

def dirtySync : SyncSystem :=
  okValue (changedSync.step (fun _ => 1) .markDirty) (by decide +kernel)

def appliedSync : SyncSystem :=
  okValue (dirtySync.step (fun _ => 1) .deliverUpdate) (by decide +kernel)

def acknowledgedSync : SyncSystem :=
  okValue (appliedSync.step (fun _ => 1) .deliverAck) (by decide +kernel)

/-- The second state is in flight. -/
def preparedSync : SyncSystem :=
  okValue (acknowledgedSync.step (fun _ => 1) (.prepare true)) (by decide +kernel)

theorem preparedSync_reachable : SyncSystem.Reachable (fun _ => 1) preparedSync := by
  have hfirst : SyncSystem.Reachable (fun _ => 1) firstSync :=
    .start (by decide +kernel : validate (fun _ => 1) (blankState 0 1) = .ok ()) (eq_ok_okValue _ _)
  have hchanged : SyncSystem.Reachable (fun _ => 1) changedSync := by
    refine hfirst.step (.change (blankState 0 2)) ⟨by decide +kernel, ?_⟩ rfl
    have hstates : firstSync.states = [blankState 0 1] := by decide +kernel
    intro p hp _
    rw [hstates] at hp
    rw [List.mem_singleton.1 hp]
    exact ⟨by decide, fun heq => absurd heq (by decide)⟩
  have hdirty : SyncSystem.Reachable (fun _ => 1) dirtySync :=
    hchanged.step .markDirty trivial (eq_ok_okValue _ _)
  have happlied : SyncSystem.Reachable (fun _ => 1) appliedSync :=
    hdirty.step .deliverUpdate trivial (eq_ok_okValue _ _)
  have hacknowledged : SyncSystem.Reachable (fun _ => 1) acknowledgedSync :=
    happlied.step .deliverAck trivial (eq_ok_okValue _ _)
  have hneeds : acknowledgedSync.exchange.window.needsUpdate = true := by decide +kernel
  exact hacknowledged.step (.prepare true) hneeds (eq_ok_okValue _ _)

theorem preparedSync_applies : preparedSync.exchange.updates.length = 1 ∧
    ∀ update updates, preparedSync.exchange.updates = update :: updates →
      ∃ target, preparedSync.exchange.window.inFlight = some target ∧
        update.apply (fun _ => 1) preparedSync.exchange.client = .ok target :=
  ⟨by decide +kernel, (state_sync_reliable (fun _ => 1) preparedSync_reachable).2.1⟩

end AstraShell.TerminalSync
