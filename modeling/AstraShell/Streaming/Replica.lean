import AstraShell.Streaming.Window

/-!
# The client's replica

`StreamingReplica` of `terminal_streaming.rs`. The replica holds a current viewport and recent
bases, so that a cumulative delta can be applied although earlier ones were lost. `InPlace` has the
methods with their assignments, and what was assigned before a failure stays.
-/

set_option autoImplicit false

namespace AstraShell.Streaming

open Lib Effect TerminalState TerminalSync OrdMap StreamingStateWindow

/-- What became of an update that is not an error. -/
inductive ApplyDisposition where
  | applied
  | stale
  | missingBase
  deriving DecidableEq

structure StreamingReplica where
  terminalId : String
  attachmentId : String
  current : Option State
  retained : OrdMap Nat State
  pinnedBaseGeneration : Option Nat
  retainedGenerations : Nat

namespace StreamingReplica

def forRoute (terminalId attachmentId : String) : Except String StreamingReplica := do
  ensure (terminalId ≠ "" ∧ attachmentId ≠ "") "terminal viewport datagram route is empty"
  return {
    terminalId := terminalId
    attachmentId := attachmentId
    current := none
    retained := OrdMap.empty
    pinnedBaseGeneration := none
    retainedGenerations := defaultRetainedGenerations }

/-- The acknowledgement of the current state. -/
def stateAck (r : StreamingReplica) : Option TerminalStateAck :=
  r.current.map fun state => ⟨state.epoch, state.generation⟩

/-- The retained generations after `state` is added: the oldest other than the pinned one go. -/
def remember (r : StreamingReplica) (state : State) : OrdMap Nat State :=
  let retained := r.retained.insert state.generation state
  OrdMap.trim r.retainedGenerations
    (fun m => m.firstKey? fun generation => some generation ≠ r.pinnedBaseGeneration)
    retained.size retained

/-- Make `state` current, built on `pinned`. -/
def advance (r : StreamingReplica) (pinned : Nat) (state : State) : StreamingReplica :=
  let r := { r with pinnedBaseGeneration := some pinned }
  { r with retained := r.remember state, current := some state }

/-- The current state is of the same epoch and at least as new. -/
def covers (r : StreamingReplica) (epoch : Bytes) (generation : Nat) : Prop :=
  ∃ current ∈ r.current, current.epoch = epoch ∧ generation ≤ current.generation

/-- The current state is of another epoch. -/
def otherEpoch (r : StreamingReplica) (epoch : Bytes) : Prop :=
  ∃ current ∈ r.current, current.epoch ≠ epoch

instance (r : StreamingReplica) (epoch : Bytes) (generation : Nat) :
    Decidable (r.covers epoch generation) :=
  match hr : r.current with
  | none => isFalse (by rintro ⟨c, hc, -⟩; rw [hr] at hc; cases hc)
  | some c => decidable_of_iff (c.epoch = epoch ∧ generation ≤ c.generation)
      (by simp [covers, hr])

instance (r : StreamingReplica) (epoch : Bytes) : Decidable (r.otherEpoch epoch) :=
  match hr : r.current with
  | none => isFalse (by rintro ⟨c, hc, -⟩; rw [hr] at hc; cases hc)
  | some c => decidable_of_iff (c.epoch ≠ epoch) (by simp [otherEpoch, hr])

/-- The replica that has taken over a keyframe; the bases of another epoch are forgotten. -/
def rebased (r : StreamingReplica) (state : State) : StreamingReplica :=
  let r := if r.otherEpoch state.epoch then { r with retained := OrdMap.empty } else r
  r.advance state.generation state

namespace InPlace

/-- A method with `&mut self`: its assignments stay when it fails. -/
abbrev Method := Effect StreamingReplica String

/-- The assignments that make `state` current, built on `pinned`. -/
def advance (pinned : Nat) (state : State) : Method ApplyDisposition := do
  modify fun r => { r with pinnedBaseGeneration := some pinned }
  modify fun r => { r with retained := r.remember state }
  modify fun r => { r with current := some state }
  return .applied

def applyKeyframe (lib : External) (state : State) : Method ApplyDisposition := do
  check (validateViewportState lib.graphemeCount state)
  let r ← gets id
  if r.covers state.epoch state.generation then return .stale
  else do
    modify fun r => if r.otherEpoch state.epoch then { r with retained := OrdMap.empty } else r
    advance state.generation state

def applyDatagram (lib : External) (delta : TerminalViewportDatagram) :
    Method ApplyDisposition := do
  require (delta.fragment = none) "v3 fragment must be reassembled before replica application"
  let r ← gets id
  require (delta.terminalId = r.terminalId ∧ delta.attachmentId = r.attachmentId)
    "terminal viewport datagram targets the wrong attachment"
  let diff ← check delta.getDiff
  if r.otherEpoch diff.epoch then return .stale
  else if r.covers diff.epoch diff.targetGeneration then return .stale
  else
    match r.retained.get? diff.baseGeneration with
    | none => return .missingBase
    | some base =>
      if base.epoch ≠ diff.epoch then return .missingBase
      else do
        let target ← check (applyCompactViewportDelta lib.graphemeCount base delta)
        check (validateViewportState lib.graphemeCount target)
        advance diff.baseGeneration target

end InPlace

def applyKeyframe (lib : External) (r : StreamingReplica) (state : State) :
    Except String (ApplyDisposition × StreamingReplica) :=
  (InPlace.applyKeyframe lib state).result r

def applyDatagram (lib : External) (r : StreamingReplica) (delta : TerminalViewportDatagram) :
    Except String (ApplyDisposition × StreamingReplica) :=
  (InPlace.applyDatagram lib delta).result r

/-- A keyframe that fits is covered already or taken over. -/
theorem applyKeyframe_spec {lib : External} {r : StreamingReplica} {state : State} :
    wp (InPlace.applyKeyframe lib state)
      (fun disposition r' => validateViewportState lib.graphemeCount state = .ok () ∧
        (r.covers state.epoch state.generation ∧ disposition = .stale ∧ r' = r ∨
          ¬ r.covers state.epoch state.generation ∧ disposition = .applied ∧
            r' = r.rebased state)) (fun _ r' => r' = r) r := by
  refine wp_bind.2 (wp_check (fun _ hvalid => ?_) fun _ _ => rfl)
  rw [wp_bind, wp_gets, id_eq]
  split
  next hcovers => exact ⟨hvalid, .inl ⟨hcovers, rfl, rfl⟩⟩
  next hnew => exact ⟨hvalid, .inr ⟨hnew, rfl, rfl⟩⟩

/-! ## The retained generations -/

section

variable {r : StreamingReplica} {state : State} {pinned : Nat}

theorem get?_advance {k : Nat} {v : State} (h : (r.advance pinned state).retained.get? k = some v) :
    (k = state.generation ∧ v = state) ∨ r.retained.get? k = some v :=
  get?_insert_cases (get?_of_get?_trim h)

/-- Advancing forgets at most the oldest generation other than the one built on. -/
theorem advance_evicts (r : StreamingReplica) (state : State) (pinned : Nat)
    (hsize : r.retained.support.card ≤ r.retainedGenerations) (hpos : 0 < r.retainedGenerations) :
    Cumulative.Evicts r.retainedGenerations pinned (insert state.generation r.retained.support)
      (r.advance pinned state).retained.support := by
  refine evicts_trim hsize fun heq => ?_
  cases hpick : (r.retained.insert state.generation state).firstKey?
      fun generation => decide (some generation ≠ some pinned) with
  | none =>
    -- All generations would be the pinned one.
    have hall := (firstKey?_eq_none_iff _ _).1 hpick
    have hone : (r.retained.insert state.generation state).support ⊆ {pinned} := by
      intro k hk
      simpa using hall k hk
    have hle := Finset.card_le_card hone
    rw [card_support, Finset.card_singleton] at hle
    omega
  | some m =>
    obtain ⟨hm, hne, hmin⟩ := (firstKey?_eq_some_iff _ _ _).1 hpick
    refine ⟨m, hm, by simpa using hne, fun k hk hk' => ?_, rfl⟩
    exact hmin k hk (by simpa using hk')

/-- Within an epoch a keyframe only adds to the retained generations. -/
theorem rebased_of_not_otherEpoch (h : ¬ r.otherEpoch state.epoch) :
    r.rebased state = r.advance state.generation state := by
  rw [rebased, if_neg h]

theorem get?_rebased {k : Nat} {v : State} (h : (r.rebased state).retained.get? k = some v) :
    (k = state.generation ∧ v = state) ∨
      (¬ r.otherEpoch state.epoch ∧ r.retained.get? k = some v) := by
  by_cases hother : r.otherEpoch state.epoch
  · rw [rebased, if_pos hother] at h
    exact (get?_advance h).imp_right nofun
  · rw [rebased_of_not_otherEpoch hother] at h
    exact (get?_advance h).imp_right fun hold => ⟨hother, hold⟩

/-- The first keyframe of an epoch is the only generation retained. -/
theorem rebased_support (hpos : 0 < r.retainedGenerations)
    (h : r.otherEpoch state.epoch ∨ r.retained.support = ∅) :
    (r.rebased state).retained.support = {state.generation} := by
  have hone : ∀ r' : StreamingReplica, 0 < r'.retainedGenerations → r'.retained.support = ∅ →
      (r'.advance state.generation state).retained.support = {state.generation} := by
    intro r' hpos' hempty
    have hevicts := advance_evicts r' state state.generation
      (by rw [hempty, Finset.card_empty]; omega) hpos'
    rw [hempty] at hevicts
    rcases hevicts with ⟨-, hsupport⟩ | ⟨hcard, -⟩
    · exact hsupport
    · rw [Finset.card_insert_of_notMem (Finset.notMem_empty _), Finset.card_empty] at hcard
      omega
  by_cases hother : r.otherEpoch state.epoch
  · rw [rebased, if_pos hother]
    exact hone _ hpos support_empty
  · rw [rebased_of_not_otherEpoch hother]
    exact hone r hpos (h.resolve_left hother)

@[simp] theorem rebased_current (r : StreamingReplica) (state : State) :
    (r.rebased state).current = some state := rfl

theorem rebased_fixed (r : StreamingReplica) (state : State) :
    (r.rebased state).terminalId = r.terminalId ∧
      (r.rebased state).attachmentId = r.attachmentId ∧
      (r.rebased state).retainedGenerations = r.retainedGenerations := by
  unfold rebased
  split <;> exact ⟨rfl, rfl, rfl⟩

end

end StreamingReplica

end AstraShell.Streaming
