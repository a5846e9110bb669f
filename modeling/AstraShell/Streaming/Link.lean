import AstraShell.Streaming.Replica

/-!
# The streaming link

A sender window and a client replica joined by a network. Keyframes and acknowledgements travel in
reliable order. A delta that was sent may be delivered at any later time, any number of times, or
never. The client acknowledges its current state after every applied delta and after every keyframe
it applies or finds stale.

`Link.step` composes the source's operations; an operation that fails is a step that fails. The list
`given` records the states passed to the sender, newest first, and `shown` the states the replica
has made current; no operation reads either.
-/

set_option autoImplicit false

namespace AstraShell.Streaming

open Lib TerminalState TerminalSync StreamingStateWindow
open Effect (of_wp_result)

structure Link where
  window : StreamingStateWindow
  replica : StreamingReplica
  keyframes : List State
  deltas : List TerminalViewportDatagram
  acks : List TerminalStateAck
  given : List State
  shown : List State

/-- What can happen on a link. -/
inductive Action where
  | prepare (latest : State) (budget : Nat)
  | retry (budget : Nat)
  | rekey
  | repair (request : TerminalStateRepairRequest)
  | deliverKeyframe
  | deliverDelta (delta : TerminalViewportDatagram)
  | deliverAck

/-- The keyframe an update is. -/
def StreamingUpdate.keyframe? : StreamingUpdate → Option State
  | .reliableKeyframe state => some state
  | .datagramDelta _ => none
  | .fragmentedDelta _ => none

namespace Link

/-- A window with its initial keyframe on the way to a new replica. -/
def start (lib : External) (initialKeyframe : State) (terminalId attachmentId : String)
    (version : Nat) : Except String Link := do
  let window ← StreamingStateWindow.withRouteVersion lib initialKeyframe terminalId attachmentId
    version
  let replica ← StreamingReplica.forRoute terminalId attachmentId
  return {
    window := window
    replica := replica
    keyframes := [initialKeyframe]
    deltas := []
    acks := []
    given := [initialKeyframe]
    shown := [] }

/-- The window after an operation, with its update on the way. -/
def emit (l : Link) (update : Option StreamingUpdate) (window : StreamingStateWindow) : Link :=
  { l with
    window := window
    keyframes := l.keyframes ++ (update.bind StreamingUpdate.keyframe?).toList
    deltas := (update.bind StreamingUpdate.delta?).toList ++ l.deltas }

/-- The replica after an update, with the acknowledgement on the way. -/
def receive (l : Link) (disposition : ApplyDisposition) (replica : StreamingReplica)
    (acknowledges : Bool) : Link :=
  { l with
    replica := replica
    acks := l.acks ++ if acknowledges then replica.stateAck.toList else []
    shown := if disposition = .applied then replica.current.toList ++ l.shown else l.shown }

def step (lib : External) (l : Link) : Action → Except String Link
  | .prepare latest budget => do
    let (update, window) ← l.window.prepareUpdate lib latest budget
    return emit { l with given := latest :: l.given } update window
  | .retry budget => do
    let (update, window) ← l.window.retryLatest lib budget
    return l.emit update window
  | .rekey => do
    let (update, window) ← l.window.rekeyLatest lib
    return l.emit update window
  | .repair request => do
    let (update, window) ← l.window.repair lib request
    return l.emit update window
  | .deliverKeyframe =>
    match l.keyframes with
    | [] => .error "no keyframe is on the way"
    | keyframe :: keyframes => do
      let (disposition, replica) ← l.replica.applyKeyframe lib keyframe
      return receive { l with keyframes := keyframes } disposition replica
        (disposition == .applied || disposition == .stale)
  | .deliverDelta delta => do
    let (disposition, replica) ← l.replica.applyDatagram lib delta
    return l.receive disposition replica (disposition == .applied)
  | .deliverAck =>
    match l.acks with
    | [] => .error "no acknowledgement is on the way"
    | ack :: acks => do
      let (_, window) ← l.window.acknowledge ack
      return { l with window := window, acks := acks }

/-- A state the sender may be given after `given`: one state per generation of an epoch, generations
that never decrease inside an epoch, and no return to an earlier epoch. -/
def Admissible (given : List State) (state : State) : Prop :=
  (∀ s ∈ given, s.epoch = state.epoch →
    s.generation ≤ state.generation ∧ (s.generation = state.generation → s = state)) ∧
  ∀ newest ∈ given.head?, (∃ s ∈ given, s.epoch = state.epoch) → newest.epoch = state.epoch

/-- What the environment may do: pass admissible states and deliver deltas that were sent. -/
def Enabled (l : Link) : Action → Prop
  | .prepare latest _ => Admissible l.given latest
  | .deliverDelta delta => delta ∈ l.deltas
  | _ => True

/-- One step of a run. -/
def Next (lib : External) (l l' : Link) : Prop := ∃ a, l.Enabled a ∧ l.step lib a = .ok l'

/-- The links some run from an initial keyframe leads to. -/
inductive Reachable (lib : External) : Link → Prop
  | start {initialKeyframe : State} {terminalId attachmentId : String} {version : Nat} {l : Link}
      (h : start lib initialKeyframe terminalId attachmentId version = .ok l) : Reachable lib l
  | next {l l' : Link} (h : Reachable lib l) (hnext : Next lib l l') : Reachable lib l'

/-! ## Steps by who takes them -/

/-- The states the sender has been given when an operation leads to `window`, and the state that the
operation may send: the latest target, or a state just passed in. -/
inductive Offered (lib : External) (l : Link) (window : StreamingStateWindow) :
    List State → Option State → Prop
  | waiting : Offered lib l window l.given l.window.latestTarget
  | passed (latest : State) (hadmissible : Admissible l.given latest)
      (hvalid : validateViewportState lib.graphemeCount latest = .ok ())
      (hlatest : l.window.isStale latest ∧ window = l.window ∨
        window.latestTarget = some latest) :
      Offered lib l window (latest :: l.given) (some latest)

/-- A step of the sender. -/
def SenderStep (lib : External) (l : Link) (given' : List State)
    (update : Option StreamingUpdate) (window : StreamingStateWindow) : Prop :=
  ∃ candidate, l.window.Sends lib candidate update window ∧
    Offered lib l window given' candidate

/-- Every step is taken by the sender, by the client or by an acknowledgement. -/
theorem next_cases {lib : External} {l l' : Link} (h : Next lib l l') :
    (∃ given' update window, SenderStep lib l given' update window ∧
      l' = emit { l with given := given' } update window) ∨
    (∃ keyframe keyframes disposition replica, l.keyframes = keyframe :: keyframes ∧
      l.replica.applyKeyframe lib keyframe = .ok (disposition, replica) ∧
      l' = receive { l with keyframes := keyframes } disposition replica
        (disposition == .applied || disposition == .stale)) ∨
    (∃ delta disposition replica, delta ∈ l.deltas ∧
      l.replica.applyDatagram lib delta = .ok (disposition, replica) ∧
      l' = l.receive disposition replica (disposition == .applied)) ∨
    (∃ ack acks window, l.acks = ack :: acks ∧ l.window.Acknowledges ack window ∧
      l' = { l with window := window, acks := acks }) := by
  obtain ⟨a, henabled, hstep⟩ := h
  cases a with
  | prepare latest budget =>
    obtain ⟨⟨update, window⟩, hop, hstep⟩ := bind_eq_ok_iff.1 hstep
    obtain ⟨hvalid, hsends, hlatest, -⟩ := of_wp_result prepareUpdate_spec hop
    cases hstep
    exact .inl ⟨latest :: l.given, update, window,
      ⟨some latest, hsends, .passed latest henabled hvalid hlatest⟩, rfl⟩
  | retry budget =>
    obtain ⟨⟨update, window⟩, hop, hstep⟩ := bind_eq_ok_iff.1 hstep
    cases hstep
    exact .inl ⟨l.given, update, window,
      ⟨_, of_wp_result retryLatest_spec hop, .waiting⟩, rfl⟩
  | rekey =>
    obtain ⟨⟨update, window⟩, hop, hstep⟩ := bind_eq_ok_iff.1 hstep
    cases hstep
    exact .inl ⟨l.given, update, window,
      ⟨_, (of_wp_result rekeyLatest_spec hop).1, .waiting⟩, rfl⟩
  | repair request =>
    obtain ⟨⟨update, window⟩, hop, hstep⟩ := bind_eq_ok_iff.1 hstep
    cases hstep
    exact .inl ⟨l.given, update, window,
      ⟨_, of_wp_result repair_spec hop, .waiting⟩, rfl⟩
  | deliverKeyframe =>
    rw [step] at hstep
    cases hkeyframes : l.keyframes with
    | nil =>
      rw [hkeyframes] at hstep
      cases hstep
    | cons keyframe keyframes =>
      rw [hkeyframes] at hstep
      obtain ⟨⟨disposition, replica⟩, hop, hstep⟩ := bind_eq_ok_iff.1 hstep
      cases hstep
      exact .inr (.inl ⟨keyframe, keyframes, disposition, replica, rfl, hop, rfl⟩)
  | deliverDelta delta =>
    obtain ⟨⟨disposition, replica⟩, hop, hstep⟩ := bind_eq_ok_iff.1 hstep
    cases hstep
    exact .inr (.inr (.inl ⟨delta, disposition, replica, henabled, hop, rfl⟩))
  | deliverAck =>
    rw [step] at hstep
    cases hacks : l.acks with
    | nil =>
      rw [hacks] at hstep
      cases hstep
    | cons ack acks =>
      rw [hacks] at hstep
      obtain ⟨⟨disposition, window⟩, hop, hstep⟩ := bind_eq_ok_iff.1 hstep
      cases hstep
      exact .inr (.inr (.inr ⟨ack, acks, window, rfl,
        acknowledge_cases hop, rfl⟩))

end Link

end AstraShell.Streaming
