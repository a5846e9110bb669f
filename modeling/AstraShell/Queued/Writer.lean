import AstraShell.Protocol.Frame

/-!
# The queued writer

`queued_writer.rs`: the producer puts the bytes it writes in a queue, within a budget of bytes and a
budget of fragments, and the drain future writes them to the peer. `write_message` of `protocol.rs`
makes two writes for a frame, the header and the payload.

The producer and the drain take turns at every atomic operation: the load and the exchange of the
counter, the send on the channel, and on the other side the receipt of a fragment, each partial
write of it and its release.
-/

set_option autoImplicit false

namespace AstraShell.Queued

open Protocol

def maxQueuedBytes : Nat := 20 * 1024 * 1024

/-- The capacity of the channel, in fragments. -/
def maxFragments : Nat := 1024

/-- The two writes of a frame. -/
inductive Part where
  | header
  | body
  deriving DecidableEq

def Part.bytes (payload : List UInt8) : Part → List UInt8
  | .header => frameHeader payload.length
  | .body => payload

/-- Where the producer is. -/
inductive Producer where
  | idle
  /-- `poll_write` loads the counter. -/
  | load (payload : List UInt8) (part : Part)
  /-- It knows a value of the counter, and exchanges it. -/
  | compare (payload : List UInt8) (part : Part) (current : Nat)
  /-- The bytes are counted and not sent yet. -/
  | push (payload : List UInt8) (part : Part)
  /-- The channel was full or closed. -/
  | undo (payload : List UInt8) (part : Part)
  | flush (payload : List UInt8)
  /-- The top of the loop in `wait_until_drained`. -/
  | checkDrained
  | awaitDrained
  deriving DecidableEq

/-- Where the drain future is. -/
inductive Drain where
  | waiting
  /-- The rest of a fragment is written. -/
  | writing (rest : List UInt8) (total : Nat)
  | releasing (total : Nat)
  | notifying
  /-- The producer is gone and the stream is shut down. -/
  | closed
  | failed
  deriving DecidableEq

/-- What is left of the fragment that the drain has received. -/
def Drain.rest : Drain → List UInt8
  | .writing rest _ => rest
  | _ => []

/-- The receiver of the channel is dropped. -/
def Drain.dropped : Drain → Bool
  | .closed | .failed => true
  | _ => false

structure QueuedWriter where
  /-- The producer has not shut the writer down. -/
  sender : Bool
  queue : List (List UInt8)
  queued : Nat
  /-- The permit of the notification. -/
  permit : Bool
  producer : Producer
  drain : Drain
  /-- What the peer has got. -/
  received : List UInt8
  /-- The calls of `write_message` that have returned. -/
  results : List (List UInt8 × Except String Unit)

inductive Event where
  | write (payload : List UInt8)
  | wait
  | cancelWait
  | shutdown
  /-- The producer goes on; a weak exchange may fail for no reason. -/
  | produce (spurious : Bool)
  | receive
  /-- The sink takes so many bytes. -/
  | sink (count : Nat)
  | sinkFails
  | release
  | notify
  deriving DecidableEq

namespace QueuedWriter

def start : QueuedWriter where
  sender := true
  queue := []
  queued := 0
  permit := false
  producer := .idle
  drain := .waiting
  received := []
  results := []

/-- `write_message` returns. -/
def finish (s : QueuedWriter) (payload : List UInt8) (result : Except String Unit) : QueuedWriter :=
  { s with producer := .idle, results := s.results ++ [(payload, result)] }

/-- A write was accepted: the payload comes after the header, unless it is empty. -/
def accepted (payload : List UInt8) : Part → Producer
  | .header => if payload = [] then .flush payload else .load payload .body
  | .body => .flush payload

def produce (s : QueuedWriter) (spurious : Bool) : QueuedWriter :=
  match s.producer with
  | .idle => s
  | .load payload part =>
    if s.sender then { s with producer := .compare payload part s.queued }
    else s.finish payload (.error "broken pipe")
  | .compare payload part current =>
    if maxQueuedBytes < current + (part.bytes payload).length then
      s.finish payload (.error "reliable attachment output budget exceeded")
    else if s.queued = current ∧ spurious = false then
      { s with queued := current + (part.bytes payload).length, producer := .push payload part }
    else { s with producer := .compare payload part s.queued }
  | .push payload part =>
    if s.drain.dropped = false ∧ s.queue.length < maxFragments then
      { s with queue := s.queue ++ [part.bytes payload], producer := accepted payload part }
    else { s with producer := .undo payload part }
  | .undo payload part =>
    { s with queued := s.queued - (part.bytes payload).length }.finish payload
      (.error "broken pipe")
  | .flush payload =>
    if s.sender = false ∨ s.drain.dropped then s.finish payload (.error "broken pipe")
    else s.finish payload (.ok ())
  | .checkDrained =>
    if s.queued = 0 then { s with producer := .idle } else { s with producer := .awaitDrained }
  | .awaitDrained => if s.permit then { s with permit := false, producer := .checkDrained } else s

def step (s : QueuedWriter) : Event → QueuedWriter
  | .write payload =>
    match s.producer with
    | .idle =>
      if maxFrameSize < payload.length then
        s.finish payload
          (.error ("frame is too large: " ++ toString payload.length ++ " bytes"))
      else { s with producer := .load payload .header }
    | _ => s
  | .wait =>
    match s.producer with
    | .idle => { s with producer := .checkDrained }
    | _ => s
  | .cancelWait =>
    match s.producer with
    | .awaitDrained => { s with producer := .idle }
    | _ => s
  | .shutdown =>
    match s.producer with
    | .idle => { s with sender := false }
    | _ => s
  | .produce spurious => s.produce spurious
  | .receive =>
    match s.drain, s.queue with
    | .waiting, fragment :: rest =>
      { s with queue := rest, drain := .writing fragment fragment.length }
    | .waiting, [] => if s.sender then s else { s with drain := .closed }
    | _, _ => s
  | .sink count =>
    match s.drain with
    | .writing rest total =>
      if rest.drop count = [] then
        { s with received := s.received ++ rest, drain := .releasing total }
      else { s with received := s.received ++ rest.take count,
                    drain := .writing (rest.drop count) total }
    | _ => s
  | .sinkFails =>
    match s.drain with
    | .writing _ _ => { s with drain := .failed, queue := [] }
    | _ => s
  | .release =>
    match s.drain with
    | .releasing total =>
      { s with
        queued := s.queued - total
        drain := if s.queued = total then .notifying else .waiting }
    | _ => s
  | .notify =>
    match s.drain with
    | .notifying => { s with permit := true, drain := .waiting }
    | _ => s

end QueuedWriter

end AstraShell.Queued
