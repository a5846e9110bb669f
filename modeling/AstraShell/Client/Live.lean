import AstraShell.Lib.Watch
import AstraShell.Client.Recover

/-!
# A live session: the driver task and its consumer

`streaming_client.rs` as two tasks. The driver holds the attachment, publishes the states that it
gets and the state of the connection on watch channels, and queues all other events; the consumer
queues its commands and waits for events. When the attachment fails the driver asks the server for
another one under the next incarnation.

`LiveSession.step` lets either task make its next step, so a run is any interleaving: a call of
`send_input` reads the state of the connection and queues its command in two steps, and `next_event`
polls one channel a step. What the attachments and the attempts to recover give is up to the run;
`Client.Recover` has the server's side of an attempt.
-/

set_option autoImplicit false

namespace AstraShell.Client

open Lib

/-! ## Data -/

inductive ConnectionState where
  | synchronizing
  | live (incarnation : Nat)
  | recovering (attempt retryAfter : Nat) (reason : String)
  deriving DecidableEq

/-- `StreamingAttachmentEvent` without `State`. -/
inductive ControlEvent (P : Type) where
  | exited (code : Int)
  | error (message : String)
  | interactive (enabled : Bool)
  | leaseChanged (readOnly : Bool)
  | clipboardWrite (text : String)
  | historyPage (page : P)
  deriving DecidableEq

/-- `LiveTerminalEvent`. -/
inductive LiveTerminalEvent (S P : Type) where
  | state (state : S)
  | control (event : ControlEvent P)
  | connection (state : ConnectionState)
  deriving DecidableEq

/-- What the consumer asks for. -/
inductive Request where
  | input (bytes : List UInt8)
  | resize (size : Size)
  | history
  | detach

/-- An `Action` in the queue; the reply goes to a call. -/
structure Command where
  call : Nat
  kind : ActionKind
  deriving DecidableEq

inductive Stage where
  /-- The command is made up and not queued yet. -/
  | ready
  | queued
  /-- An operation of the attachment is under way for it. -/
  | taken
  | answered (result : Except String Unit)

/-- A call of the consumer, with the command that it made up. -/
structure Call where
  request : Request
  kind : Option ActionKind
  stage : Stage

/-- What an attachment was given to send. Attachments are numbered from one. -/
structure Handed where
  attachment : Nat
  call : Nat
  bytes : List UInt8

/-- Where the driver is. -/
inductive Phase where
  /-- With a new attachment, before it is told the size. -/
  | installed
  /-- In the `select` of the inner loop. -/
  | serving
  /-- A state is published and the status is not yet. -/
  | published
  /-- An operation of the attachment is awaited. -/
  | sending (command : Command)
  | failed (error : AttachError)
  /-- In the `select` of `recover`, before the poll of the commands. -/
  | recovering (attempt : Nat)
  /-- There was no command; the attempt is polled next. -/
  | polled (attempt : Nat)
  | ended (result : Except AttachError Unit)
  /-- The fields of the driver are dropped one by one. -/
  | closing
  deriving DecidableEq

/-- Where the consumer is in `next_event`; `enabled` says whether the branch of the states is. -/
inductive Waiter where
  | idle
  /-- At the top of the loop. -/
  | start
  | checkFinished
  | pollStates (enabled : Bool)
  /-- The states have changed. -/
  | borrowState
  | pollEvents (enabled : Bool)
  | pollStatus (enabled : Bool)
  | borrowStatus
  | waiting (enabled : Bool)
  deriving DecidableEq

structure LiveSession (S P : Type) where
  -- the driver
  phase : Phase
  incarnation : Nat
  request : AttachRequest
  size : Option Size
  finished : Bool
  -- the channels
  states : Watch (Option S)
  status : Watch ConnectionState
  events : List (Except AttachError (ControlEvent P))
  eventsClosed : Bool
  commands : List Command
  commandsClosed : Bool
  -- the consumer
  calls : List Call
  waiter : Waiter
  seenStates : Nat
  seenStatus : Nat
  -- the attachments
  attachments : Nat
  handed : List Handed

/-! ## The driver -/

/-- The upper bound of the delay before an attempt, in milliseconds. -/
def retryCeiling (attempt : Nat) : Nat := min (250 * 2 ^ min (attempt - 1) 5) 5000

/-- A random delay between half of the bound and the bound. -/
def retryDelay (attempt random : Nat) : Nat :=
  let ceiling := retryCeiling attempt
  ceiling / 2 + random % (ceiling - ceiling / 2 + 1)

def AttachError.text : AttachError → String
  | .server error => error.code ++ ": " ++ error.message
  | .other message => message

/-- A step of the driver. The result is what an awaited operation gives. -/
inductive DriverEvent (S P : Type) where
  | resized (result : Except String Unit)
  | state (state : S)
  | publish
  | control (event : ControlEvent P)
  | failure (message : String)
  | receive
  /-- The consumer is gone, so that `recv` gives `None`. -/
  | unclaimed
  | completed (result : Except String Unit)
  | recover (random : Nat)
  | attempted (outcome : Option (Except AttachError AttachResponse)) (random : Nat)
  | settle

/-- The capacity of the queues. -/
def queueCapacity : Nat := 32

namespace LiveSession

variable {S P : Type}

def start (request : AttachRequest) : LiveSession S P where
  phase := .installed
  incarnation := 1
  request := request
  size := none
  finished := false
  states := .channel none
  status := .channel .synchronizing
  events := []
  eventsClosed := false
  commands := []
  commandsClosed := false
  calls := []
  waiter := .idle
  seenStates := 0
  seenStatus := 0
  attachments := 1
  handed := []

def setStage (calls : List Call) (i : Nat) (stage : Stage) : List Call :=
  calls.modify i fun call => { call with stage := stage }

def answer (s : LiveSession S P) (i : Nat) (result : Except String Unit) : LiveSession S P :=
  { s with calls := setStage s.calls i (.answered result) }

/-- The top of a turn of the loop in `recover`. -/
def retry (s : LiveSession S P) (attempt random : Nat) (error : AttachError) : LiveSession S P :=
  { s with
    phase := .recovering attempt
    status := s.status.send (.recovering attempt (retryDelay attempt random) error.text) }

/-- A command while an attachment is served. -/
def perform (s : LiveSession S P) (command : Command) : LiveSession S P :=
  let taken := { s with phase := .sending command, calls := setStage s.calls command.call .taken }
  match command.kind with
  | .input incarnation bytes =>
    if incarnation ≠ s.incarnation then
      s.answer command.call (.error "stale input discarded after recovery")
    else { taken with handed := s.handed ++ [⟨s.attachments, command.call, bytes⟩] }
  | .resize size =>
    if s.request.readOnly then { s.answer command.call (.ok ()) with size := some size }
    else { taken with size := some size }
  | .history => taken
  | .detach => taken

/-- A command while the session recovers. -/
def discard (s : LiveSession S P) (command : Command) : LiveSession S P :=
  match command.kind with
  | .resize size => { s.answer command.call (.ok ()) with size := some size }
  | .detach =>
    { s.answer command.call (.ok ()) with
      phase := .ended (.error (.other "terminal detached during recovery")) }
  | _ => s.answer command.call (.error "disconnected command discarded; input is never replayed")

/-- An event of the attachment other than a state. -/
def forward (s : LiveSession S P) (event : ControlEvent P) : LiveSession S P :=
  let request := match event with
    | .leaseChanged readOnly => { s.request with readOnly := readOnly }
    | _ => s.request
  if s.events.length < queueCapacity then
    { s with
      request := request
      events := s.events ++ [.ok event]
      phase := match event with
        | .exited _ => .ended (.ok ())
        | _ => .serving }
  else
    { s with
      request := request
      phase := .ended (.error (.other "terminal control event consumer is too slow")) }

/-- The task reports the error of the driver and drops its queue of commands. -/
def finish (s : LiveSession S P) (result : Except AttachError Unit) : LiveSession S P :=
  { s with
    phase := .closing
    events := match result with
      | .error error => if s.events.length < queueCapacity then s.events ++ [.error error]
          else s.events
      | .ok _ => s.events
    calls := s.commands.foldl
      (fun calls command => setStage calls command.call
        (.answered (.error "streaming session ended")))
      s.calls
    commands := []
    commandsClosed := true }

/-- The senders are dropped in the order of the fields, then the task is finished. -/
def dropNext (s : LiveSession S P) : LiveSession S P :=
  if s.states.closed = false then { s with states := s.states.close }
  else if s.status.closed = false then { s with status := s.status.close }
  else if s.eventsClosed = false then { s with eventsClosed := true }
  else { s with finished := true }

def drive (s : LiveSession S P) : DriverEvent S P → LiveSession S P
  | .resized result =>
    match s.phase with
    | .installed =>
      if s.size.isSome ∧ s.request.readOnly = false then
        match result with
        | .ok _ => { s with phase := .serving }
        | .error e => { s with phase := .failed (.other e) }
      else { s with phase := .serving }
    | _ => s
  | .state state =>
    match s.phase with
    | .serving => { s with phase := .published, states := s.states.send (some state) }
    | _ => s
  | .publish =>
    match s.phase with
    | .published =>
      { s with
        phase := .serving
        status := if s.status.value = .live s.incarnation then s.status
          else s.status.send (.live s.incarnation) }
    | _ => s
  | .control event =>
    match s.phase with
    | .serving => s.forward event
    | _ => s
  | .failure message =>
    match s.phase with
    | .serving => { s with phase := .failed (.other message) }
    | _ => s
  | .receive =>
    match s.phase, s.commands with
    | .serving, command :: rest => { s with commands := rest }.perform command
    | .recovering _, command :: rest => { s with commands := rest }.discard command
    | .recovering attempt, [] => { s with phase := .polled attempt }
    | _, _ => s
  | .unclaimed =>
    match s.phase, s.commands with
    | .serving, [] => { s with phase := .ended (.ok ()) }
    | .recovering _, [] =>
      { s with phase := .ended (.error (.other "terminal closed during recovery")) }
    | _, _ => s
  | .completed result =>
    match s.phase with
    | .sending command =>
      { s.answer command.call result with
        phase := match command.kind, result with
          | .detach, _ => .ended (.ok ())
          | _, .ok _ => .serving
          | _, .error e => .failed (.other e) }
    | _ => s
  | .recover random =>
    match s.phase with
    | .failed error =>
      if s.incarnation + 1 < 2 ^ 64 then
        { s with incarnation := s.incarnation + 1 }.retry 1 random error
      else { s with phase := .ended (.error (.other "connection incarnation overflow")) }
    | _ => s
  | .attempted outcome random =>
    match s.phase with
    | .polled attempt =>
      match outcome with
      | none => { s with phase := .recovering attempt }
      | some (.ok response) =>
        { s with
          phase := .installed
          request := { s.request with resumeToken := response.resumeToken }
          status := s.status.send .synchronizing
          attachments := s.attachments + 1 }
      | some (.error failure) =>
        if isPermanentRecoveryError failure then { s with phase := .ended (.error failure) }
        else s.retry (min (attempt + 1) (2 ^ 32 - 1)) random failure
    | _ => s
  | .settle =>
    match s.phase with
    | .ended result => s.finish result
    | .closing => s.dropNext
    | _ => s

/-! ## The consumer -/

/-- The call up to its command: the input is checked and the state of the connection is read. -/
def prepare (s : LiveSession S P) (request : Request) : Call :=
  match request with
  | .input bytes =>
    if bytes.length ≤ 64 * 1024 then
      match s.status.value with
      | .live incarnation => ⟨request, some (.input incarnation bytes), .ready⟩
      | _ => ⟨request, none,
          .answered (.error "disconnected input discarded; input is never replayed")⟩
    else ⟨request, none, .answered (.error "input batch is too large")⟩
  | .resize size => ⟨request, some (.resize size), .ready⟩
  | .history => ⟨request, some .history, .ready⟩
  | .detach => ⟨request, some .detach, .ready⟩

/-- The command of a call is queued, or refused. -/
def submit (s : LiveSession S P) (i : Nat) : LiveSession S P :=
  match s.calls[i]? with
  | some ⟨_, some kind, .ready⟩ =>
    if s.commandsClosed = false ∧ s.commands.length < queueCapacity then
      { s with calls := setStage s.calls i .queued, commands := s.commands ++ [⟨i, kind⟩] }
    else s.answer i (.error "terminal command queue unavailable")
  | _ => s

/-- A step of `next_event`, with what it returns if it returns. -/
def consume (s : LiveSession S P) :
    LiveSession S P × Option (Except AttachError (LiveTerminalEvent S P)) :=
  match s.waiter with
  | .idle => ({ s with waiter := .start }, none)
  | .start =>
    match s.states.hasChanged s.seenStates with
    | .ok true => ({ s with waiter := .pollStates true }, none)
    | _ => ({ s with waiter := .checkFinished }, none)
  | .checkFinished => ({ s with waiter := .pollStates (!s.finished) }, none)
  | .pollStates false => ({ s with waiter := .pollEvents false }, none)
  | .pollStates true =>
    match s.states.changed s.seenStates with
    | some (.ok _) => ({ s with waiter := .borrowState, seenStates := s.states.version }, none)
    | some (.error _) => ({ s with waiter := .start }, none)
    | none => ({ s with waiter := .pollEvents true }, none)
  | .borrowState =>
    match s.states.value with
    | some state =>
      ({ s with waiter := .idle, seenStates := s.states.version }, some (.ok (.state state)))
    | none => ({ s with waiter := .start, seenStates := s.states.version }, none)
  | .pollEvents enabled =>
    match s.events with
    | .ok event :: rest => ({ s with waiter := .idle, events := rest }, some (.ok (.control event)))
    | .error error :: rest => ({ s with waiter := .idle, events := rest }, some (.error error))
    | [] =>
      if s.eventsClosed then
        ({ s with waiter := .idle }, some (.error (.other "streaming session ended")))
      else ({ s with waiter := .pollStatus enabled }, none)
  | .pollStatus enabled =>
    match s.status.changed s.seenStatus with
    | some (.ok _) => ({ s with waiter := .borrowStatus, seenStatus := s.status.version }, none)
    | some (.error _) =>
      ({ s with waiter := .idle }, some (.error (.other "streaming session ended")))
    | none => ({ s with waiter := .waiting enabled }, none)
  | .borrowStatus =>
    ({ s with waiter := .idle, seenStatus := s.status.version },
      some (.ok (.connection s.status.value)))
  | .waiting enabled => ({ s with waiter := .pollStates enabled }, none)

end LiveSession

/-! ## Runs -/

inductive LiveEvent (S P : Type) where
  | driver (event : DriverEvent S P)
  | call (request : Request)
  | submit (call : Nat)
  | consume
  /-- The future of `next_event` is dropped while it waits. -/
  | cancel

namespace LiveSession

variable {S P : Type}

def step (s : LiveSession S P) : LiveEvent S P → LiveSession S P
  | .driver event => s.drive event
  | .call request => { s with calls := s.calls ++ [s.prepare request] }
  | .submit call => s.submit call
  | .consume => s.consume.1
  | .cancel =>
    match s.waiter with
    | .waiting _ => { s with waiter := .idle }
    | _ => s

/-- What `next_event` returns in a step. -/
def returns (s : LiveSession S P) :
    LiveEvent S P → Option (Except AttachError (LiveTerminalEvent S P))
  | .consume => s.consume.2
  | _ => none

def run (request : AttachRequest) (act : ℕ → LiveEvent S P) : ℕ → LiveSession S P :=
  Temporal.run step (start request) act

/-- The events of a list, and nothing after them. -/
def listed (events : List (LiveEvent S P)) (n : ℕ) : LiveEvent S P := events[n]?.getD .cancel

/-- The request of a session that may write. -/
def plainRequest : AttachRequest where
  terminalId := "t"
  readOnly := false
  takeover := false
  resumeToken := "r"
  workspaceId := "w"
  clientInstanceId := ""

end LiveSession

end AstraShell.Client
