import AstraShell.Lib.Temporal
import AstraShell.Queued.Frames

/-!
# The counter of the queue

The counter of queued bytes is raised by the producer before a fragment is sent, and lowered by the
drain when it has written one and by the producer when the channel does not take one. Only the drain
notifies, and only when it has lowered the counter to zero.

`Balanced` says what the counter stands for at every moment, and that a producer that waits at zero
has been notified or is about to be. From it `queue_drained` says that a wait ends only when
everything accepted is written, and that it does end then.
-/

set_option autoImplicit false

namespace AstraShell.Queued

open Lib

/-- Bytes that the producer has counted and not handed over. -/
def Producer.counted : Producer → Nat
  | .push payload part | .undo payload part => (part.bytes payload).length
  | _ => 0

/-- Bytes of the fragment that the drain has not written to the end. -/
def Drain.unwritten : Drain → Nat
  | .writing _ total => total
  | _ => 0

/-- Bytes of the fragment that the drain has written, and is about to take off the counter. -/
def Drain.unreleased : Drain → Nat
  | .releasing total => total
  | _ => 0

/-- The drain future is at one of its awaits, or has ended. -/
def Drain.suspended : Drain → Bool
  | .releasing _ | .notifying => false
  | _ => true

namespace QueuedWriter

/-- The calls of a producer, and what happens to them. A write of bytes is followed by a flush. -/
inductive Call where
  | event (e : Event)
  | write (bytes : List UInt8)
  deriving DecidableEq

def act (s : QueuedWriter) : Call → QueuedWriter
  | .event e => s.step e
  | .write bytes =>
    match s.producer with
    | .idle => if bytes = [] then s else { s with producer := .load bytes .body }
    | _ => s

/-- All bytes that the channel takes. A call takes none before the producer goes on. -/
def acceptedBytes : QueuedWriter → List Call → List UInt8
  | _, [] => []
  | s, .event e :: calls => s.acceptedBy e ++ acceptedBytes (s.step e) calls
  | s, .write bytes :: calls => acceptedBytes (s.act (.write bytes)) calls

/-- The bytes of the fragments that are not written to the end. -/
def unwritten (s : QueuedWriter) : Nat := s.queue.flatten.length + s.drain.unwritten

structure Balanced (s : QueuedWriter) : Prop where
  count : s.queued = s.unwritten + s.drain.unreleased + s.producer.counted
  bounded : s.queued ≤ maxQueuedBytes
  rest : s.drain.rest.length ≤ s.drain.unwritten
  woken : s.producer = .awaitDrained → s.queued = 0 → s.permit = true ∨ s.drain = .notifying

variable {s : QueuedWriter} {c : Call}

theorem counted_accepted (payload : List UInt8) (part : Part) :
    (accepted payload part).counted = 0 ∧ accepted payload part ≠ .awaitDrained := by
  cases part <;> grind [accepted, Producer.counted]

/-- A step of the producer moves counted bytes along, or takes them back. -/
theorem Balanced.produce (h : Balanced s) (spurious : Bool) : Balanced (s.produce spurious) := by
  obtain ⟨hcount, hbounded, hrest, hwoken⟩ := h
  rw [QueuedWriter.produce]
  split
  all_goals constructor <;> grind [unwritten, Producer.counted, counted_accepted, finish]

theorem Balanced.act (h : Balanced s) (hc : c ≠ .event .sinkFails) : Balanced (s.act c) := by
  have hproduce := h.produce
  obtain ⟨hcount, hbounded, hrest, hwoken⟩ := h
  rcases c with (_ | _ | _ | _ | _ | _ | _ | _ | _ | _) | bytes
  case event.produce spurious => exact hproduce spurious
  case event.sinkFails => exact absurd rfl hc
  case event.receive | event.sink count | event.release | event.notify =>
    simp only [QueuedWriter.act, step]
    constructor <;> grind [unwritten, Drain.unwritten, Drain.unreleased, Drain.rest]
  all_goals
    simp only [QueuedWriter.act, step]
    constructor <;> grind [unwritten, Producer.counted, finish]

theorem stream_foldl {calls : List Call} (hsink : .event .sinkFails ∉ calls) (s : QueuedWriter) :
    (calls.foldl QueuedWriter.act s).stream = s.stream ++ s.acceptedBytes calls := by
  induction calls generalizing s with
  | nil => simp [acceptedBytes]
  | cons c calls ih =>
    rw [List.mem_cons, not_or] at hsink
    rw [List.foldl_cons, ih hsink.2]
    cases c with
    | event e =>
      have hstep : (s.act (.event e)).stream = s.stream ++ s.acceptedBy e :=
        stream_step (by rintro rfl; exact hsink.1 rfl)
      rw [hstep, acceptedBytes, List.append_assoc]
      rfl
    | write bytes =>
      have hstream : (s.act (.write bytes)).stream = s.stream := by grind [QueuedWriter.act, stream]
      rw [hstream, acceptedBytes]

theorem balanced_foldl {calls : List Call} (hsink : .event .sinkFails ∉ calls) (h : Balanced s) :
    Balanced (calls.foldl QueuedWriter.act s) :=
  List.foldlRecOn calls _ h fun _ h c hc => h.act (by rintro rfl; exact hsink hc)

/-! ## Waits -/

/-- The producer waits, and everything is written. -/
structure Waits (s : QueuedWriter) : Prop where
  balanced : Balanced s
  waiting : s.producer = .awaitDrained ∨ s.producer = .checkDrained
  written : s.unwritten = 0

/-- How far the wait is from its end: the last fragment is to be released, the producer to be
notified, to be woken, and to look at the counter. -/
def distance (s : QueuedWriter) : Nat :=
  if s.queued ≠ 0 then 3
  else if s.producer = .checkDrained then 0
  else if s.permit = true then 1
  else 2

/-- The event that the wait needs next. -/
def Helps : Nat → Call → Prop
  | 3, c => c = .event .release
  | 2, c => c = .event .notify
  | _, c => ∃ spurious, c = .event (.produce spurious)

/-- What is counted is what the drain has written and not released. -/
theorem Waits.queued_eq (h : Waits s) : s.queued = s.drain.unreleased := by
  have hcounted : s.producer.counted = 0 := by
    rcases h.waiting with hproducer | hproducer <;> rw [hproducer] <;> rfl
  rw [h.balanced.count, h.written, hcounted, Nat.zero_add, Nat.add_zero]

/-- Only a look at the counter that finds zero returns from a wait, and a cancellation. -/
theorem queued_eq_zero_of_returns
    (hwaiting : s.producer = .awaitDrained ∨ s.producer = .checkDrained)
    (hc : c ≠ .event .cancelWait) (hidle : (s.act c).producer = .idle) : s.queued = 0 := by
  rcases c with (_ | _ | _ | _ | _ | _ | _ | _ | _ | _) | bytes
  case event.cancelWait => exact absurd rfl hc
  all_goals grind [QueuedWriter.act, step, produce]

theorem Waits.act (h : Waits s) (hc : c ≠ .event .sinkFails) :
    (s.act c).producer = .idle ∨ Waits (s.act c) ∧ (s.act c).distance ≤ s.distance := by
  have hbalanced := h.balanced.act hc
  have hqueued := h.queued_eq
  obtain ⟨⟨-, -, -, hwoken⟩, hwaiting, hwritten⟩ := h
  suffices hnext : (s.act c).producer = .idle ∨
      ((s.act c).producer = .awaitDrained ∨ (s.act c).producer = .checkDrained) ∧
        (s.act c).unwritten = 0 ∧ (s.act c).distance ≤ s.distance from
    hnext.imp_right fun h => ⟨⟨hbalanced, h.1, h.2.1⟩, h.2.2⟩
  rcases c with (_ | _ | _ | _ | _ | _ | _ | _ | _ | _) | bytes
  case event.sinkFails => exact absurd rfl hc
  case event.produce spurious =>
    rcases hwaiting with hproducer | hproducer
    all_goals
      simp only [QueuedWriter.act, step, QueuedWriter.produce, hproducer]
      grind [distance, unwritten]
  all_goals
    simp only [QueuedWriter.act, step]
    grind [distance, unwritten, Drain.unwritten, Drain.unreleased]

theorem Waits.helped (h : Waits s) (hc : Helps s.distance c) :
    (s.act c).producer = .idle ∨ (s.act c).distance < s.distance := by
  have hqueued := h.queued_eq
  obtain ⟨⟨-, -, -, hwoken⟩, hwaiting, hwritten⟩ := h
  have hdistance : s.distance = 3 ∨ s.distance = 2 ∨ s.distance = 1 ∨ s.distance = 0 := by
    grind [distance]
  rcases hdistance with hd | hd | hd | hd <;> rw [hd] at hc
  · obtain rfl : c = .event .release := hc
    simp only [QueuedWriter.act, step]
    grind [distance, unwritten, Drain.unreleased]
  · obtain rfl : c = .event .notify := hc
    simp only [QueuedWriter.act, step]
    grind [distance]
  all_goals
    obtain ⟨spurious, rfl⟩ := hc
    simp only [QueuedWriter.act, step, QueuedWriter.produce]
    grind [distance]

/-- The events that a wait needs come again and again. -/
def Fair (schedule : ℕ → Call) : Prop := ∀ d n, ∃ m, n ≤ m ∧ Helps d (schedule m)

theorem Waits.ends (h : Waits s) {schedule : ℕ → Call} (hfair : Fair schedule)
    (hsink : ∀ n, schedule n ≠ .event .sinkFails) :
    ∃ n, (Temporal.run QueuedWriter.act s schedule n).producer = .idle := by
  have hleads := Temporal.leadsTo_of_phases
    (P := fun n => Waits (Temporal.run QueuedWriter.act s schedule n))
    (Q := fun n => (Temporal.run QueuedWriter.act s schedule n).producer = .idle)
    (fun n => (Temporal.run QueuedWriter.act s schedule n).distance)
    (fun d n => Helps d (schedule n)) (fun n hn => hn.act (hsink n)) (fun n _ => hfair _ n)
    fun n hn hhelps => hn.helped hhelps
  obtain ⟨n, -, hn⟩ := hleads 0 h
  exact ⟨n, hn⟩

/-! ## Main result -/

/-- The writer after any calls and events. -/
def after (calls : List Call) : QueuedWriter := calls.foldl QueuedWriter.act start

/-- While the sink does not fail, the counter stays within the budget, and between the producer's
calls it is the number of accepted bytes that are not written, but for those the drain is about to
take off in the poll that wrote them. A wait that is not cancelled ends only when all accepted bytes
are written, and does not last for ever once they are. -/
theorem queue_drained (calls : List Call) (hsink : .event .sinkFails ∉ calls) :
    (after calls).queued ≤ maxQueuedBytes ∧
    ((after calls).producer = .idle →
      (after calls).queued = (after calls).unwritten + (after calls).drain.unreleased ∧
      ((after calls).drain.suspended = true → (after calls).queued = (after calls).unwritten)) ∧
    ((after calls).producer = .awaitDrained ∨ (after calls).producer = .checkDrained →
      ∀ c, c ≠ .event .cancelWait → ((after calls).act c).producer = .idle →
      (after calls).received = start.acceptedBytes calls) ∧
    ∀ schedule, Fair schedule → (∀ n, schedule n ≠ .event .sinkFails) →
      (after calls).producer = .awaitDrained ∨ (after calls).producer = .checkDrained →
      (after calls).unwritten = 0 →
      ∃ n, (Temporal.run QueuedWriter.act (after calls) schedule n).producer = .idle := by
  have hbalanced : Balanced (after calls) :=
    balanced_foldl hsink ⟨rfl, Nat.zero_le _, le_rfl, by simp [start]⟩
  have hcount := hbalanced.count
  refine ⟨hbalanced.bounded, fun hidle => ?_, fun hwaiting c hc hidle => ?_,
    fun schedule hfair hsink' hwaiting hwritten =>
      Waits.ends ⟨hbalanced, hwaiting, hwritten⟩ hfair hsink'⟩
  · rw [hidle] at hcount
    refine ⟨hcount, fun hsuspended => ?_⟩
    cases hdrain : (after calls).drain
    all_goals simp_all [Drain.unreleased, Producer.counted, Drain.suspended]
  · -- The counter is zero, so neither the queue nor the drain holds anything.
    have hzero := queued_eq_zero_of_returns hwaiting hc hidle
    have hrest := hbalanced.rest
    rw [hzero, unwritten] at hcount
    have hstream : (after calls).stream = start.stream ++ start.acceptedBytes calls :=
      stream_foldl hsink start
    have hflatten : (after calls).queue.flatten = [] := List.length_eq_zero_iff.1 (by omega)
    have hnothing : (after calls).drain.rest = [] := List.length_eq_zero_iff.1 (by omega)
    rw [stream, hflatten, hnothing, List.append_nil, List.append_nil] at hstream
    exact hstream

/-- A byte is written and waited for, and the drain has written it and not released it. -/
def oneByte : List Call :=
  .write [1] :: ([.produce false, .produce false, .produce false, .produce false, .wait,
    .produce false, .receive, .sink 1] : List Event).map .event

/-- The events that a wait needs, in turn. -/
def inTurn (n : ℕ) : Call :=
  .event (if n % 3 = 0 then .release else if n % 3 = 1 then .notify else .produce false)

theorem fair_inTurn : Fair inTurn := by
  intro d n
  rcases d with _ | _ | _ | _ | d
  case succ.succ.succ.zero => exact ⟨3 * n, by omega, by simp [Helps, inTurn]⟩
  case succ.succ.zero => exact ⟨3 * n + 1, by omega, by simp [Helps, inTurn, Nat.add_mod]⟩
  all_goals exact ⟨3 * n + 2, by omega, false, by simp [inTurn, Nat.add_mod]⟩

theorem queue_drained_oneByte :
    ∃ n, (Temporal.run QueuedWriter.act (after oneByte) inTurn n).producer = .idle := by
  refine (queue_drained oneByte (by decide)).2.2.2 inTurn fair_inTurn ?_ (.inl rfl) rfl
  intro n
  simp only [inTurn]
  split_ifs <;> simp

/-! ## Delivery -/

/-- Only a failure of the sink loses what was sent, and then only its end. -/
structure Delivers (s : QueuedWriter) (sent : List UInt8) : Prop where
  received : s.received <+: sent
  whole : s.drain ≠ .failed → s.stream = sent
  closed : s.drain = .closed → s.queue = []

variable {sent : List UInt8}

theorem Delivers.step (h : Delivers s sent) (e : Event) :
    Delivers (s.step e) (sent ++ s.acceptedBy e) := by
  obtain ⟨hstays, hsame, hclosed⟩ : (s.drain = .failed → (s.step e).drain = .failed) ∧
      ((s.step e).drain = .failed → (s.step e).received = s.received) ∧
      ((s.step e).drain = .closed → (s.step e).queue = []) := by
    have hclosed := h.closed
    cases e <;> grind [QueuedWriter.step, produce, finish, Drain.dropped]
  have hwhole : (s.step e).drain ≠ .failed → (s.step e).stream = sent ++ s.acceptedBy e := by
    intro hdrain
    rw [← h.whole (mt hstays hdrain)]
    by_cases hsink : e = .sinkFails
    · grind [QueuedWriter.step, acceptedBy]
    · exact stream_step hsink
  refine ⟨?_, hwhole, hclosed⟩
  by_cases hdrain : (s.step e).drain = .failed
  · rw [hsame hdrain]
    exact h.received.trans (List.prefix_append _ _)
  · rw [← hwhole hdrain, stream, List.append_assoc]
    exact List.prefix_append _ _

theorem Delivers.foldl (h : Delivers s sent) (calls : List Call) :
    Delivers (calls.foldl QueuedWriter.act s) (sent ++ s.acceptedBytes calls) := by
  induction calls generalizing s sent with
  | nil => simpa [acceptedBytes] using h
  | cons c calls ih =>
    cases c with
    | event e =>
      rw [acceptedBytes, ← List.append_assoc]
      exact ih (h.step e)
    | write bytes =>
      obtain ⟨hreceived, hwhole, hclosed⟩ := h
      exact ih (by constructor <;> grind [QueuedWriter.act, stream])

/-- The peer has got accepted bytes in their order, and all of them when the stream is shut down. -/
theorem received_accepted (calls : List Call) :
    (after calls).received <+: start.acceptedBytes calls ∧
      ((after calls).drain = .closed → (after calls).received = start.acceptedBytes calls) := by
  have h : Delivers (after calls) ([] ++ start.acceptedBytes calls) :=
    Delivers.foldl ⟨List.nil_prefix, fun _ => rfl, fun _ => rfl⟩ calls
  refine ⟨h.received, fun hdrain => ?_⟩
  have hwhole := h.whole (by simp [hdrain])
  simpa [stream, h.closed hdrain, hdrain, Drain.rest] using hwhole

end QueuedWriter

end AstraShell.Queued
