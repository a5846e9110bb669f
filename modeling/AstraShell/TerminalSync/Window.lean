import AstraShell.TerminalSync.Diff

/-!
# The reliable synchronization window

`StateSyncWindow` of `terminal_sync.rs`. At most one generation is in flight; output that arrives
while it is unacknowledged is one dirty bit. An update is a snapshot, or a diff from the
acknowledged state when that is smaller.

`prepareUpdate_cases` and `acknowledge_in_flight` say what the operations do between two honest
ends.
-/

set_option autoImplicit false

namespace AstraShell.TerminalSync

open Lib TerminalState

inductive PreparedStateUpdate where
  | snapshot (state : State)
  | diff (diff : TerminalStateDiff)

structure StateSyncWindow where
  acknowledged : Option State
  inFlight : Option State
  dirty : Bool

namespace StateSyncWindow

/-- The `Default` of the source. -/
def empty : StateSyncWindow := ⟨none, none, false⟩

def beginInitial (w : StateSyncWindow) (state : State) : Except String StateSyncWindow := do
  ensure (w.inFlight = none) "terminal state is already in flight"
  return { w with inFlight := some state }

def markDirty (w : StateSyncWindow) : StateSyncWindow := { w with dirty := true }

def needsUpdate (w : StateSyncWindow) : Bool := w.dirty && w.inFlight.isNone

/-- The acknowledged state is of the same epoch and at least as new. -/
def covers (w : StateSyncWindow) (epoch : Bytes) (generation : Nat) : Prop :=
  ∃ state ∈ w.acknowledged, state.epoch = epoch ∧ generation ≤ state.generation

instance (w : StateSyncWindow) (epoch : Bytes) (generation : Nat) :
    Decidable (w.covers epoch generation) :=
  match h : w.acknowledged with
  | none => isFalse (by simp [covers, h])
  | some state => decidable_of_iff (state.epoch = epoch ∧ generation ≤ state.generation)
      (by simp [covers, h])

variable (graphemeCount : String → Nat)

/-- The choice between a diff and a snapshot. -/
def chooseUpdate (w : StateSyncWindow) (latest : State) (allowDiff : Bool) :
    Except String PreparedStateUpdate :=
  if allowDiff then
    match w.acknowledged.filter fun base =>
        base.epoch = latest.epoch ∧ latest.generation > base.generation with
    | none => .ok (.snapshot latest)
    | some base => do
      let diff ← terminalStateDiff graphemeCount base latest
      if diff.encodedLen < latest.encodedLen then return .diff diff
      else return .snapshot latest
  else .ok (.snapshot latest)

/-- The result and the window that is left: a diff that fails has already cleared the dirty bit. -/
def prepareUpdate (w : StateSyncWindow) (latest : State) (allowDiff : Bool) :
    Except String (Option PreparedStateUpdate) × StateSyncWindow :=
  if w.inFlight ≠ none then (.error "terminal state ACK is still pending", w)
  else
    let w := { w with dirty := false }
    if w.covers latest.epoch latest.generation then (.ok none, w)
    else
      match w.chooseUpdate graphemeCount latest allowDiff with
      | .error e => (.error e, w)
      | .ok update => (.ok (some update), { w with inFlight := some latest })

def acknowledge (w : StateSyncWindow) (ack : TerminalStateAck) :
    Except String (AckDisposition × StateSyncWindow) := do
  ensure (ack.epoch.length = epochBytes) "terminal state ACK epoch is invalid"
  ensure (ack.generation > 0) "terminal state ACK generation is zero"
  if w.covers ack.epoch ack.generation then return (.duplicate, w)
  else do
    let sent ← context w.inFlight "terminal state ACK has no matching in-flight update"
    ensure (sent.epoch = ack.epoch ∧ sent.generation = ack.generation)
      "terminal state ACK does not match the in-flight generation"
    return (.accepted, { w with acknowledged := w.inFlight, inFlight := none })

/-! ## What the operations do -/

variable {graphemeCount} {w : StateSyncWindow} {latest : State} {allowDiff : Bool}

/-- An update that leads from the acknowledged state to `target`. -/
inductive Carries (graphemeCount : String → Nat) (acknowledged : Option State) (target : State) :
    PreparedStateUpdate → Prop
  | snapshot : Carries graphemeCount acknowledged target (.snapshot target)
  | diff (base : State) (d : TerminalStateDiff) (hbase : acknowledged = some base)
      (happly : applyTerminalStateDiff graphemeCount base d = .ok target) :
      Carries graphemeCount acknowledged target (.diff d)

theorem chooseUpdate_eq_ok (allowDiff : Bool) (hvalid : validate graphemeCount latest = .ok ())
    (hacked : ∀ base ∈ w.acknowledged, validate graphemeCount base = .ok ()) :
    ∃ update, w.chooseUpdate graphemeCount latest allowDiff = .ok update ∧
      Carries graphemeCount w.acknowledged latest update := by
  unfold chooseUpdate
  split
  · split
    · exact ⟨_, rfl, .snapshot⟩
    next base hfilter =>
      obtain ⟨hbase, hnewer⟩ := Option.filter_eq_some_iff.1 hfilter
      obtain ⟨hepoch, hgen⟩ : base.epoch = latest.epoch ∧ base.generation < latest.generation := by
        simpa using hnewer
      obtain ⟨d, hd, happly⟩ := applyTerminalStateDiff_terminalStateDiff (hacked base hbase)
        hvalid hepoch hgen
      rw [hd]
      by_cases hsmall : d.encodedLen < latest.encodedLen
      · exact ⟨.diff d, if_pos hsmall, .diff base d hbase happly⟩
      · exact ⟨.snapshot latest, if_neg hsmall, .snapshot⟩
  · exact ⟨_, rfl, .snapshot⟩

/-- With nothing in flight and valid states, a newer state goes in flight with an update that
carries it; a state that is not newer changes nothing but the dirty bit. -/
theorem prepareUpdate_cases (allowDiff : Bool) (hflight : w.inFlight = none)
    (hvalid : validate graphemeCount latest = .ok ())
    (hacked : ∀ base ∈ w.acknowledged, validate graphemeCount base = .ok ()) :
    (w.covers latest.epoch latest.generation ∧
      w.prepareUpdate graphemeCount latest allowDiff = (.ok none, { w with dirty := false })) ∨
    (¬ w.covers latest.epoch latest.generation ∧
      ∃ update, Carries graphemeCount w.acknowledged latest update ∧
        w.prepareUpdate graphemeCount latest allowDiff =
          (.ok (some update), { w with dirty := false, inFlight := some latest })) := by
  unfold prepareUpdate
  rw [if_neg (by simp [hflight])]
  by_cases hcovers : w.covers latest.epoch latest.generation
  · refine .inl ⟨hcovers, ?_⟩
    exact if_pos hcovers
  · refine .inr ⟨hcovers, ?_⟩
    obtain ⟨update, hchoose, hcarries⟩ := chooseUpdate_eq_ok (w := { w with dirty := false })
      allowDiff hvalid hacked
    refine ⟨update, hcarries, ?_⟩
    rw [if_neg (show ¬ covers { w with dirty := false } latest.epoch latest.generation
      from hcovers), hchoose]

/-- The acknowledgement of the state in flight is accepted. -/
theorem acknowledge_in_flight {state : State} (hflight : w.inFlight = some state)
    (hvalid : validate graphemeCount state = .ok ())
    (hnewer : ¬ w.covers state.epoch state.generation) :
    w.acknowledge ⟨state.epoch, state.generation⟩ =
      .ok (.accepted, { w with acknowledged := some state, inFlight := none }) := by
  have haccepted := (validate_eq_ok_iff _ _).1 hvalid
  simp only [acknowledge, haccepted.epoch, gt_iff_lt, haccepted.generation, ensure_bind_of]
  rw [if_neg hnewer, hflight]
  simp only [context, bind, Except.bind, and_self, ensure, if_true]
  rfl

end StateSyncWindow

end AstraShell.TerminalSync
