import AstraShell.Lib.Broadcast
import AstraShell.Streaming.Link
import AstraShell.TerminalSync.Exchange

/-!
# The attachments of a terminal

`handle_attach_inner` of `server.rs`, any number of times on one terminal, with the PTY reader and
the child monitor of `terminal.rs`. The shared state is the terminal information, the terminal
engine and the broadcast channel of PTY events; every attachment has its own position in the channel
and its own way to keep the client up to date (`Sync`): the raw output of a legacy client, full
states sent independently, full states gated by acknowledgements, or a viewport in datagrams.

A step of `Host.step` is what a thread or task does under one lock, or one turn of an event loop.
In the source the terminal information is read before the channel is subscribed to, and the monitor
writes the exit code before it announces it; these are separate steps here. The engine is known by
what it exports. Steps of the network and of honest clients are included, so that a run is a run of
all parties.

Left out: admission, leases, history pages and pacing timers, which neither read nor write what is
modelled here.
-/

set_option autoImplicit false

namespace AstraShell.Attach

open Lib TerminalState TerminalSync Streaming

/-! ## The terminal -/

inductive ClipboardSelection where
  | clipboard
  | primary
  deriving DecidableEq

inductive PtyEvent where
  | output (bytes : Bytes)
  | exited (code : Int)
  | error (message : String)
  | interactive (interactive : Bool)
  | clipboardWrite (selection : ClipboardSelection) (contents : Option Bytes)
  deriving DecidableEq

/-- The channel of PTY events keeps this many. -/
def eventCapacity : Nat := 1024

inductive Status where
  | running
  | exited
  | lost
  deriving DecidableEq

/-- The fields of `TerminalInfo` that an attachment decides by. -/
structure Info where
  status : Status
  exitCode : Option Int

/-- A revision of the screen: epoch and generation. -/
abbrev Revision : Type := Bytes × Nat

def revisionOf (state : State) : Revision := (state.epoch, state.generation)

/-- What the engine exports: `semantic_state` and `semantic_viewport`. -/
structure Engine where
  full : State
  viewport : State

def Engine.revision (engine : Engine) : Revision := revisionOf engine.full

/-- Where the child monitor is. -/
inductive Monitor where
  | waiting
  /-- The child's status is known. -/
  | exited (code : Int)
  /-- The terminal information says so. -/
  | marked (code : Int)
  /-- The attachments have been told. -/
  | announced (code : Int)
  | failed (message : String)
  | lost (message : String)
  | reported
  deriving DecidableEq

/-! ## Keeping one client up to date -/

/-- What the client negotiated. -/
inductive Kind where
  | legacy
  | independent
  | acked (allowDiff : Bool)
  | streaming (version : Nat)
  deriving DecidableEq

/-- The synchronization state of one attachment, with the client at the other end. -/
inductive Sync where
  | legacy
  | independent (revision : Revision) (dirty : Bool)
  | acked (exchange : Exchange) (allowDiff : Bool)
  | streaming (link : Link) (dirty : Bool)

/-- What a streaming update brings the client to. -/
def updateRevision (update : StreamingUpdate) : Option Revision :=
  match update with
  | .reliableKeyframe state => some (revisionOf state)
  | update => (update.delta?.bind TerminalViewportDatagram.diff).map fun diff =>
    (diff.epoch, diff.targetGeneration)

namespace Sync

variable (lib : External)

/-- The state is taken under the lock that the subscription is made under. -/
def start (kind : Kind) (engine : Engine) (terminalId attachmentId : String) :
    Except String Sync :=
  match kind with
  | .legacy => .ok .legacy
  | .independent => .ok (.independent engine.revision false)
  | .acked allowDiff => do
    let exchange ← Exchange.begin engine.full
    return .acked exchange allowDiff
  | .streaming version => do
    let link ← Link.start lib engine.viewport terminalId attachmentId version
    return .streaming link false

def markDirty : Sync → Sync
  | .legacy => .legacy
  | .independent revision _ => .independent revision true
  | .acked exchange allowDiff => .acked exchange.markDirty allowDiff
  | .streaming link _ => .streaming link true

/-- `should_send_state`. -/
def shouldSend : Sync → Bool
  | .legacy => false
  | .independent _ dirty => dirty
  | .acked exchange _ => exchange.window.needsUpdate
  | .streaming _ dirty => dirty

/-- The branch `wait_for_state_update`: the revisions sent and the new state. -/
def update (engine : Engine) (budget : Nat) : Sync → Except String (List Revision × Sync)
  | .legacy => .ok ([], .legacy)
  | .independent revision _ =>
    if engine.revision = revision then .ok ([], .independent revision false)
    else .ok ([engine.revision], .independent engine.revision false)
  | .acked exchange allowDiff =>
    match exchange.window.prepareUpdate lib.graphemeCount engine.full allowDiff with
    | (.error e, _) => .error e
    | (.ok none, window) => .ok ([], .acked { exchange with window := window } allowDiff)
    | (.ok (some update), window) => .ok ([engine.revision], .acked { exchange with
        window := window
        updates := exchange.updates ++ [update] } allowDiff)
  | .streaming link _ => do
    let (update, window) ← link.window.prepareUpdate lib engine.viewport budget
    return ((update.bind updateRevision).toList,
      .streaming (Link.emit { link with given := engine.viewport :: link.given } update window)
        false)

/-- The branch `wait_for_streaming_retry`. -/
def retry (budget : Nat) : Sync → Except String (List Revision × Sync)
  | .streaming link dirty =>
    if link.window.hasPendingUpdate = true ∧ link.window.baseAcknowledged = true ∧
        dirty = false then do
      let (update, window) ← link.window.retryLatest lib budget
      return ((update.bind updateRevision).toList, .streaming (link.emit update window) dirty)
    else .ok ([], .streaming link dirty)
  | sync => .ok ([], sync)

/-- The branch `wait_for_streaming_rekey`. -/
def rekey : Sync → Except String (List Revision × Sync)
  | .streaming link dirty =>
    if link.window.hasPendingUpdate = true ∧ link.window.baseAcknowledged = true then do
      let (update, window) ← link.window.rekeyLatest lib
      return ((update.bind updateRevision).toList, .streaming (link.emit update window) dirty)
    else .ok ([], .streaming link dirty)
  | sync => .ok ([], sync)

/-- The command `StateRepair`. -/
def repair (request : TerminalStateRepairRequest) : Sync → Except String (List Revision × Sync)
  | .streaming link dirty => do
    let (update, window) ← link.window.repair lib request
    return ((update.bind updateRevision).toList, .streaming (link.emit update window) dirty)
  | _ => .error "terminal state repair requested without negotiated datagram capability"

/-- The command `StateAck`, when one has arrived. -/
def ack : Sync → Except String Sync
  | .acked exchange allowDiff =>
    if exchange.acks = [] then .ok (.acked exchange allowDiff)
    else do
      let exchange ← exchange.deliverAck
      return .acked exchange allowDiff
  | .streaming link dirty =>
    if link.acks = [] then .ok (.streaming link dirty)
    else do
      let link ← link.step lib .deliverAck
      return .streaming link
        (dirty || (link.window.baseAcknowledged && link.window.hasPendingUpdate))
  | sync => .ok sync

/-- The client takes the next reliable update and acknowledges it. -/
def deliver : Sync → Except String Sync
  | .acked exchange allowDiff =>
    if exchange.updates = [] then .ok (.acked exchange allowDiff)
    else do
      let exchange ← exchange.deliverUpdate lib.graphemeCount
      return .acked exchange allowDiff
  | .streaming link dirty =>
    if link.keyframes = [] then .ok (.streaming link dirty)
    else do
      let link ← link.step lib .deliverKeyframe
      return .streaming link dirty
  | sync => .ok sync

/-- The client takes a datagram. -/
def deliverDelta (delta : TerminalViewportDatagram) : Sync → Except String Sync
  | .streaming link dirty => do
    let link ← link.step lib (.deliverDelta delta)
    return .streaming link dirty
  | sync => .ok sync

end Sync

/-! ## One attachment -/

inductive Phase where
  /-- Before the terminal information is read. -/
  | arriving
  /-- Before the channel is subscribed to. -/
  | informed
  /-- In the event loop. -/
  | live
  /-- A legacy client between the lag and its new subscription. -/
  | lagged
  /-- `Exited` was sent. -/
  | finished
  /-- The connection is lost, the client has detached or there was an error. -/
  | left
  deriving DecidableEq

/-- What is written to the client. -/
inductive Message where
  | output (bytes : Bytes)
  | exited (code : Int)
  | error (message : String)
  | interactive (interactive : Bool)
  | clipboardWrite (selection : ClipboardSelection) (contents : Option Bytes)
  | snapshot
  | state (revision : Revision)
  deriving DecidableEq

structure Attachment where
  id : String
  kind : Kind
  allowsClipboard : Bool
  phase : Phase
  info : Info
  cursor : Nat
  sync : Sync
  emitted : List Message

namespace Attachment

def arrive (id : String) (kind : Kind) (allowsClipboard : Bool) : Attachment where
  id := id
  kind := kind
  allowsClipboard := allowsClipboard
  phase := .arriving
  info := ⟨.running, none⟩
  cursor := 0
  sync := .legacy
  emitted := []

def say (x : Attachment) (messages : List Message) : Attachment :=
  { x with emitted := x.emitted ++ messages }

/-- The end of the event loop by an error. -/
def fail (x : Attachment) (error : String) : Attachment :=
  { x with phase := .left, emitted := x.emitted ++ [.error error] }

/-- The result of a branch that may send states. -/
def updated (x : Attachment) : Except String (List Revision × Sync) → Attachment
  | .ok (revisions, sync) => say { x with sync := sync } (revisions.map .state)
  | .error e => x.fail e

/-- The result of a branch that sends nothing. -/
def synced (x : Attachment) : Except String Sync → Attachment
  | .ok sync => { x with sync := sync }
  | .error e => x.fail e

end Attachment

/-! ## The system -/

structure Host where
  terminalId : String
  info : Info
  events : List PtyEvent
  engine : Engine
  /-- The states the engine was in before, newest first; no step reads them. -/
  past : List Engine
  monitor : Monitor
  attachments : List Attachment

/-- What an attachment and its client do. -/
inductive Turn where
  /-- The next step towards the event loop. -/
  | advance
  | receive
  | update (budget : Nat)
  | retry (budget : Nat)
  | rekey
  | repair (request : TerminalStateRepairRequest)
  | ack
  /-- A resize is accepted, and leads the engine to a new state. -/
  | resize (engine : Engine)
  | deliver
  | deliverDelta (delta : TerminalViewportDatagram)
  | leave

inductive Action where
  /-- The PTY reader has a chunk: the engine advances and the chunk is published. -/
  | output (bytes : Bytes) (engine : Engine)
  /-- Any event but `Output` and `Exited`. -/
  | publish (event : PtyEvent)
  | childExits (code : Int)
  | waitFails (message : String)
  /-- The next step of the child monitor. -/
  | monitor
  | attach (attachmentId : String) (kind : Kind) (allowsClipboard : Bool)
  | turn (i : Nat) (turn : Turn)

namespace Attachment

variable (lib : External)

/-- The subscription, with the initial state on its way to a semantic client. -/
def subscribe (s : Host) (x : Attachment) (sync : Sync) : Attachment :=
  say { x with cursor := s.events.length, sync := sync }
    (if x.kind = .legacy then [] else [.state s.engine.revision])

/-- The event loop is entered when the terminal was running. -/
def enter (x : Attachment) : Attachment :=
  if x.info.status = .running then { x with phase := .live }
  else say { x with phase := .finished } [.exited (x.info.exitCode.getD 1)]

/-- The steps before the event loop, and the new subscription of a legacy client. -/
def advance (s : Host) (x : Attachment) : Attachment :=
  match x.phase with
  | .arriving => { x with phase := .informed, info := s.info }
  | .informed =>
    match Sync.start lib x.kind s.engine s.terminalId x.id with
    | .error _ => { x with phase := .left }
    | .ok sync => (x.subscribe s sync).enter
  | .lagged => say { x with phase := .live, cursor := s.events.length } [.snapshot]
  | _ => x

/-- An event that was received. -/
def handle (s : Host) (x : Attachment) : PtyEvent → Attachment
  | .output bytes =>
    if x.kind = .legacy then x.say [.output bytes] else { x with sync := x.sync.markDirty }
  | .exited code =>
    let final := if x.kind = .legacy then [] else [Message.state s.engine.revision]
    say { x with phase := .finished } (final ++ [.exited code])
  | .error message => x.say [.error message]
  | .interactive interactive => x.say [.interactive interactive]
  | .clipboardWrite selection contents =>
    if x.allowsClipboard then x.say [.clipboardWrite selection contents] else x

/-- The branch `events.recv()`. A legacy client that lags drops its receiver, the others keep it. -/
def receive (s : Host) (x : Attachment) : Attachment :=
  match Broadcast.receive eventCapacity s.events x.cursor with
  | none => x
  | some (.value event, next) => handle s { x with cursor := next } event
  | some (.lagged _, next) =>
    if x.kind = .legacy then { x with phase := .lagged, cursor := next }
    else { x with cursor := next, sync := x.sync.markDirty }

/-- One turn of the event loop. -/
def loopTurn (s : Host) (x : Attachment) : Turn → Attachment
  | .receive => x.receive s
  | .update budget =>
    if x.sync.shouldSend then x.updated (x.sync.update lib s.engine budget) else x
  | .retry budget => x.updated (x.sync.retry lib budget)
  | .rekey => x.updated (x.sync.rekey lib)
  | .repair request => x.updated (x.sync.repair lib request)
  | .ack => x.synced (x.sync.ack lib)
  | .resize _ => { x with sync := x.sync.markDirty }
  | .deliver => x.synced (x.sync.deliver lib)
  | .deliverDelta delta => x.synced (x.sync.deliverDelta lib delta)
  | .advance => x
  | .leave => x

def turn (s : Host) (x : Attachment) : Turn → Attachment
  | .advance => x.advance lib s
  | .leave => { x with phase := .left }
  | t => if x.phase = .live then x.loopTurn lib s t else x

end Attachment

namespace Host

/-- A terminal that has just been started. -/
def start (terminalId : String) (engine : Engine) : Host where
  terminalId := terminalId
  info := ⟨.running, none⟩
  events := []
  engine := engine
  past := []
  monitor := .waiting
  attachments := []

/-- The engine has moved on. -/
def moved (s : Host) (engine : Engine) : Host :=
  { s with engine := engine, past := s.engine :: s.past }

/-- An event is sent to every receiver. -/
def send (s : Host) (event : PtyEvent) : Host := { s with events := s.events ++ [event] }

/-- The next step of the child monitor. -/
def monitorStep (s : Host) : Host :=
  match s.monitor with
  | .exited code => { s with info := ⟨.exited, some code⟩, monitor := .marked code }
  | .marked code => send { s with monitor := .announced code } (.exited code)
  | .failed message => { s with info := { s.info with status := .lost }, monitor := .lost message }
  | .lost message => send { s with monitor := .reported } (.error message)
  | _ => s

/-- The terminal after a turn of an attachment. -/
def afterTurn (s : Host) : Turn → Host
  | .resize engine => s.moved engine
  | _ => s

def step (lib : External) (s : Host) : Action → Host
  | .output bytes engine => (s.moved engine).send (.output bytes)
  | .publish event => s.send event
  | .childExits code => if s.monitor = .waiting then { s with monitor := .exited code } else s
  | .waitFails message => if s.monitor = .waiting then { s with monitor := .failed message } else s
  | .monitor => s.monitorStep
  | .attach attachmentId kind allowsClipboard =>
    { s with attachments := s.attachments ++ [.arrive attachmentId kind allowsClipboard] }
  | .turn i t =>
    { s.afterTurn t with attachments := s.attachments.modify i fun x => x.turn lib s t }

/-- The attachment `i`, when it is in its event loop. -/
def Live (s : Host) (i : Nat) (x : Attachment) : Prop :=
  s.attachments[i]? = some x ∧ x.phase = .live

/-- The attachment `i` is live and has an event to read. -/
def Unread (s : Host) (i : ℕ) : Prop := ∃ x, s.Live i x ∧ x.cursor < s.events.length

/-- A state that the engine may go to: both exports are of one revision and valid, with one state
per generation of an epoch, generations that never decrease inside an epoch, and no return to an
earlier epoch. -/
structure Follows (lib : External) (past : List Engine) (engine : Engine) : Prop where
  full : validate lib.graphemeCount engine.full = .ok ()
  viewport : validateViewportState lib.graphemeCount engine.viewport = .ok ()
  same : revisionOf engine.viewport = engine.revision
  newest : ∀ p ∈ past, p.full.epoch = engine.full.epoch →
    p.full.generation ≤ engine.full.generation ∧
      (p.full.generation = engine.full.generation → p = engine)
  forward : ∀ p ∈ past.head?, (∃ q ∈ past, q.full.epoch = engine.full.epoch) →
    p.full.epoch = engine.full.epoch

/-- What the program and the network may do. -/
def Enabled (lib : External) (s : Host) : Action → Prop
  | .output _ engine => Follows lib (s.engine :: s.past) engine
  | .publish event => (∀ code, event ≠ .exited code) ∧ ∀ bytes, event ≠ .output bytes
  | .turn i (.resize engine) => Follows lib (s.engine :: s.past) engine ∧ ∃ x, s.Live i x
  | .turn i (.deliverDelta delta) => ∀ x link dirty, s.Live i x → x.sync = .streaming link dirty →
      delta ∈ link.deltas
  | _ => True

/-- The system at each time of a schedule. -/
def run (lib : External) (s : Host) (act : ℕ → Action) : ℕ → Host :=
  Temporal.run (step lib) s act

/-- The attachment `i` never loses its connection, detaches or hits an error. -/
def Stays (lib : External) (s : Host) (act : ℕ → Action) (i : ℕ) : Prop :=
  ∀ n x, (s.run lib act n).attachments[i]? = some x → x.phase ≠ .left

theorem run_succ (lib : External) (s : Host) (act : ℕ → Action) (n : ℕ) :
    s.run lib act (n + 1) = (s.run lib act n).step lib (act n) := rfl

end Host

/-! ## What a turn does -/

namespace Attachment

variable {lib : External} {s : Host} {x : Attachment}

theorem turn_eq {t : Turn} (hadvance : t ≠ .advance) (hleave : t ≠ .leave) :
    x.turn lib s t = if x.phase = .live then x.loopTurn lib s t else x := by
  cases t with
  | advance => exact absurd rfl hadvance
  | leave => exact absurd rfl hleave
  | _ => rfl

/-- What the steps outside the event loop do. -/
inductive Advances (lib : External) (s : Host) (x : Attachment) : Attachment → Prop
  | informed (hphase : x.phase = .arriving) :
      Advances lib s x { x with phase := .informed, info := s.info }
  | refused (hphase : x.phase = .informed) : Advances lib s x { x with phase := .left }
  | entered (sync : Sync) (hphase : x.phase = .informed)
      (hstart : Sync.start lib x.kind s.engine s.terminalId x.id = .ok sync)
      (hrunning : x.info.status = .running) :
      Advances lib s x { x.subscribe s sync with phase := .live }
  | over (sync : Sync) (hphase : x.phase = .informed) (hover : x.info.status ≠ .running) :
      Advances lib s x (say { x.subscribe s sync with phase := .finished }
        [.exited (x.info.exitCode.getD 1)])
  | resubscribed (hphase : x.phase = .lagged) :
      Advances lib s x (say { x with phase := .live, cursor := s.events.length } [.snapshot])
  | idle (hphase : x.phase = .live ∨ x.phase = .finished ∨ x.phase = .left) : Advances lib s x x

theorem advance_cases (lib : External) (s : Host) (x : Attachment) :
    Advances lib s x (x.advance lib s) := by
  rw [advance]
  cases hphase : x.phase with
  | arriving => exact .informed hphase
  | informed =>
    cases hstart : Sync.start lib x.kind s.engine s.terminalId x.id with
    | error e => exact .refused hphase
    | ok sync =>
      dsimp only
      rw [enter]
      split
      next hrunning => exact .entered sync hphase hstart hrunning
      next hover => exact .over sync hphase hover
  | lagged => exact .resubscribed hphase
  | live => exact .idle (.inl hphase)
  | finished => exact .idle (.inr (.inl hphase))
  | left => exact .idle (.inr (.inr hphase))

theorem handle_of_ne_exited {event : PtyEvent} (h : ∀ code, event ≠ .exited code) :
    (handle s x event).phase = x.phase ∧ (handle s x event).cursor = x.cursor := by
  cases event with
  | exited code => exact absurd rfl (h code)
  | output bytes | clipboardWrite selection contents =>
    rw [handle]
    split <;> exact ⟨rfl, rfl⟩
  | _ => exact ⟨rfl, rfl⟩

/-- What receiving does. -/
inductive Receives (s : Host) (x : Attachment) : Attachment → Prop
  | waits (hread : s.events.length ≤ x.cursor) : Receives s x x
  | handled (event : PtyEvent) (hevent : s.events[x.cursor]? = some event) :
      Receives s x (handle s { x with cursor := x.cursor + 1 } event)
  | dropped (hlag : x.cursor + eventCapacity < s.events.length) (hkind : x.kind = .legacy) :
      Receives s x { x with phase := .lagged, cursor := s.events.length - eventCapacity }
  | skipped (hlag : x.cursor + eventCapacity < s.events.length) (hkind : x.kind ≠ .legacy) :
      Receives s x { x with
        cursor := s.events.length - eventCapacity
        sync := x.sync.markDirty }

theorem receive_cases (s : Host) (x : Attachment) : Receives s x (x.receive s) := by
  rw [receive]
  cases hop : Broadcast.receive eventCapacity s.events x.cursor with
  | none => exact .waits (Broadcast.receive_eq_none_iff.1 hop)
  | some r =>
    obtain ⟨received, next⟩ := r
    cases received with
    | value event =>
      obtain ⟨hevent, rfl⟩ := Broadcast.receive_value hop
      exact .handled event hevent
    | lagged missed =>
      obtain ⟨hlag, hnext⟩ := Broadcast.receive_lagged hop
      rw [hnext]
      dsimp only
      split
      next hkind => exact .dropped hlag hkind
      next hkind => exact .skipped hlag hkind

/-- What a turn does: the attachment leaves, goes on towards its event loop, or takes a turn of it.
A turn of the event loop receives, or sends messages and changes the synchronization. -/
inductive Turns (lib : External) (s : Host) (x : Attachment) (t : Turn) : Attachment → Prop
  | leaves (y : Attachment) (hleft : y.phase = .left) (hkind : y.kind = x.kind) : Turns lib s x t y
  | advances (ht : t = .advance) (hphase : x.phase ≠ .live) : Turns lib s x t (x.advance lib s)
  | receives (ht : t = .receive) (hlive : x.phase = .live) : Turns lib s x t (x.receive s)
  | works (sync : Sync) (messages : List Message) (ht : t ≠ .receive) (hlive : x.phase = .live) :
      Turns lib s x t (say { x with sync := sync } messages)
  | idle (hphase : x.phase ≠ .live) : Turns lib s x t x

section

variable {t : Turn} (hlive : x.phase = .live) (ht : t ≠ .receive)

include hlive ht

theorem Turns.sync (sync : Sync) : Turns lib s x t { x with sync := sync } := by
  have hworks : Turns lib s x t (say { x with sync := sync } []) := .works sync [] ht hlive
  simpa [say] using hworks

theorem Turns.updated (r : Except String (List Revision × Sync)) :
    Turns lib s x t (x.updated r) := by
  cases r with
  | error e => exact .leaves _ rfl rfl
  | ok r => exact .works r.2 _ ht hlive

theorem Turns.synced (r : Except String Sync) : Turns lib s x t (x.synced r) := by
  cases r with
  | error e => exact .leaves _ rfl rfl
  | ok sync => exact .sync hlive ht sync

end

theorem turn_cases (lib : External) (s : Host) (x : Attachment) (t : Turn) :
    Turns lib s x t (x.turn lib s t) := by
  by_cases hlive : x.phase = .live
  · cases t with
    | leave => exact .leaves _ rfl rfl
    | advance =>
      rw [turn, advance, hlive]
      exact .sync hlive (by simp) x.sync
    | receive =>
      rw [turn_eq (by simp) (by simp), if_pos hlive]
      exact .receives rfl hlive
    | update budget =>
      rw [turn_eq (by simp) (by simp), if_pos hlive, loopTurn]
      split
      · exact .updated hlive (by simp) _
      · exact .sync hlive (by simp) x.sync
    | retry budget | rekey | repair request =>
      rw [turn_eq (by simp) (by simp), if_pos hlive]
      exact .updated hlive (by simp) _
    | ack | deliver | deliverDelta delta =>
      rw [turn_eq (by simp) (by simp), if_pos hlive]
      exact .synced hlive (by simp) _
    | resize engine =>
      rw [turn_eq (by simp) (by simp), if_pos hlive]
      exact .sync hlive (by simp) _
  · cases t with
    | leave => exact .leaves _ rfl rfl
    | advance => exact .advances rfl hlive
    | _ =>
      rw [turn_eq (by simp) (by simp), if_neg hlive]
      exact .idle hlive

end Attachment

namespace Host

variable {lib : External} {s : Host} {a : Action} {i : ℕ} {x : Attachment}

/-- Only a new attachment and turns change the list of attachments. -/
theorem step_attachments (hattach : ∀ attachmentId kind allowsClipboard,
      a ≠ .attach attachmentId kind allowsClipboard) (hturn : ∀ j t, a ≠ .turn j t) :
    (s.step lib a).attachments = s.attachments := by
  cases a with
  | output bytes engine | publish event => rfl
  | childExits code | waitFails message =>
    rw [step]
    split <;> rfl
  | monitor =>
    rw [step, monitorStep]
    split <;> rfl
  | attach attachmentId kind allowsClipboard => exact absurd rfl (hattach _ _ _)
  | turn j t => exact absurd rfl (hturn j t)

theorem step_turn_getElem? (lib : External) (s : Host) (i j : ℕ) (t : Turn) :
    (s.step lib (.turn j t)).attachments[i]? =
      (fun x => if j = i then x.turn lib s t else x) <$> s.attachments[i]? :=
  List.getElem?_modify _ _ _ _

/-- An action is a turn of the attachment, or leaves it alone. -/
theorem step_attachment (lib : External) (a : Action) (h : s.attachments[i]? = some x) :
    (∃ t, a = .turn i t ∧ (s.step lib a).attachments[i]? = some (x.turn lib s t)) ∨
      ((∀ t, a ≠ .turn i t) ∧ (s.step lib a).attachments[i]? = some x) := by
  cases a with
  | attach attachmentId kind allowsClipboard =>
    refine .inr ⟨by simp, ?_⟩
    have hlt : i < s.attachments.length := (List.getElem?_eq_some_iff.1 h).1
    rw [step, List.getElem?_append_left hlt]
    exact h
  | turn j t =>
    have hmodify := step_turn_getElem? lib s i j t
    rw [h, Option.map_eq_map, Option.map_some] at hmodify
    by_cases hj : j = i
    · subst hj
      rw [if_pos rfl] at hmodify
      exact .inl ⟨t, rfl, hmodify⟩
    · rw [if_neg hj] at hmodify
      refine .inr ⟨?_, hmodify⟩
      rintro t' heq
      cases heq
      exact hj rfl
  | _ =>
    refine .inr ⟨by simp, ?_⟩
    rw [step_attachments (by simp) (by simp), h]

/-- A new attachment is arriving. -/
theorem step_attachment_new (lib : External) (a : Action) (h : s.attachments[i]? = none)
    (hx : (s.step lib a).attachments[i]? = some x) : x.phase = .arriving := by
  cases a with
  | attach attachmentId kind allowsClipboard =>
    rw [step, List.getElem?_append_right (List.getElem?_eq_none_iff.1 h)] at hx
    obtain rfl := List.mem_singleton.1 (List.mem_of_getElem? hx)
    rfl
  | turn j t =>
    rw [step_turn_getElem?, h] at hx
    cases hx
  | _ =>
    rw [step_attachments (by simp) (by simp), h] at hx
    cases hx

/-- A live attachment was left alone, or this is its turn. -/
theorem Live.before (h : (s.step lib a).Live i x) :
    ((∀ t, a ≠ .turn i t) ∧ s.Live i x) ∨
      ∃ y t, a = .turn i t ∧ s.attachments[i]? = some y ∧ x = y.turn lib s t := by
  obtain ⟨hx, hphase⟩ := h
  cases hy : s.attachments[i]? with
  | none =>
    have harriving := step_attachment_new lib a hy hx
    rw [hphase] at harriving
    cases harriving
  | some y =>
    rcases step_attachment lib a hy with ⟨t, rfl, hturn⟩ | ⟨hother, hsame⟩
    · exact .inr ⟨y, t, rfl, rfl, Option.some.inj (hx.symm.trans hturn)⟩
    · obtain rfl := Option.some.inj (hx.symm.trans hsame)
      exact .inl ⟨hother, hy, hphase⟩

end Host

end AstraShell.Attach
