import AstraShell.Queued.Writer

/-!
# Frames in the queue

A frame is two writes against budgets that do not know of each other, so the header may be accepted
and the payload rejected: `rejected_message_tears_stream`. The peer then takes what comes next for
the payload.

`Orderly` asks for room for the payload where the header is sent. The drain only makes more room, so
the payload is accepted too (`Intact`, with `HasRoom`), and the stream is made of whole frames:
`accepted_frames_arrive`.
-/

set_option autoImplicit false

namespace AstraShell.Queued

open Protocol

/-- What was sent of the frame that is being written. -/
def Producer.sent : Producer → List UInt8
  | .load payload .body | .compare payload .body _ | .push payload .body | .undo payload .body =>
    frameHeader payload.length
  | .flush payload => frame payload
  | _ => []

/-- The message that is being written. -/
def Producer.message : Producer → Option (List UInt8)
  | .load payload _ | .compare payload _ _ | .push payload _ | .undo payload _ | .flush payload =>
    some payload
  | _ => none

/-- The writer was open when the write began. -/
def Producer.engaged : Producer → Bool
  | .compare _ _ _ | .push _ _ | .undo _ _ | .flush _ | .load _ .body => true
  | _ => false

namespace QueuedWriter

/-- All that was sent: what the peer has, what the drain holds and what waits. -/
def stream (s : QueuedWriter) : List UInt8 := s.received ++ s.drain.rest ++ s.queue.flatten

/-- The messages whose `write_message` returned `Ok`. -/
def acceptedMessages (results : List (List UInt8 × Except String Unit)) : List (List UInt8) :=
  results.filterMap fun result =>
    match result.2 with
    | .ok _ => some result.1
    | .error _ => none

/-- The rest of the frame fits, if the header was sent. -/
def HasRoom (s : QueuedWriter) : Prop :=
  match s.producer with
  | .load payload .body =>
    s.queued + payload.length ≤ maxQueuedBytes ∧ s.queue.length < maxFragments
  | .compare payload .body current =>
    current + payload.length ≤ maxQueuedBytes ∧ s.queued + payload.length ≤ maxQueuedBytes ∧
      s.queue.length < maxFragments
  | .push _ .body => s.queue.length < maxFragments
  | .undo _ .body => False
  | _ => True

/-- Where the header of a message is sent there is room for the payload. -/
def Orderly (s : QueuedWriter) (e : Event) : Prop :=
  ∀ spurious payload, e = .produce spurious → s.producer = .push payload .header →
    payload ≠ [] → s.queue.length < maxFragments →
    s.queued + payload.length ≤ maxQueuedBytes ∧ s.queue.length + 1 < maxFragments

/-- As long as the sink does not fail. -/
structure Intact (s : QueuedWriter) : Prop where
  whole : s.stream = (acceptedMessages s.results).flatMap frame ++ s.producer.sent
  room : s.HasRoom
  sender : s.producer.engaged = true → s.sender = true
  closed : s.drain = .closed → s.sender = false
  sizes : ∀ payload ∈ acceptedMessages s.results, payload.length ≤ maxFrameSize
  size : ∀ payload, s.producer.message = some payload → payload.length ≤ maxFrameSize

def run (events : List Event) : QueuedWriter := events.foldl step start

/-- The bytes that the channel takes in a step. -/
def acceptedBy (s : QueuedWriter) : Event → List UInt8
  | .produce _ =>
    match s.producer with
    | .push payload part =>
      if s.drain.dropped = false ∧ s.queue.length < maxFragments then part.bytes payload else []
    | _ => []
  | _ => []

variable {s : QueuedWriter} {e : Event}

/-- Nothing that was sent is lost, and nothing else gets into the stream. -/
theorem stream_step (hsink : e ≠ .sinkFails) : (s.step e).stream = s.stream ++ s.acceptedBy e := by
  cases e with
  | sinkFails => exact absurd rfl hsink
  | produce spurious =>
    simp only [step, produce, acceptedBy]
    grind [stream, finish]
  | _ =>
    simp only [step, acceptedBy]
    grind [stream, finish, Drain.rest, List.take_append_drop]

/-! ## The drain -/

/-- A step of the drain sends nothing more and makes room. -/
theorem Intact.of_drain {s' : QueuedWriter} (h : Intact s) (hstream : s'.stream = s.stream)
    (hresults : s'.results = s.results) (hproducer : s'.producer = s.producer)
    (hqueued : s'.queued ≤ s.queued) (hqueue : s'.queue.length ≤ s.queue.length)
    (hsender : s'.sender = s.sender) (hclosed : s'.drain = .closed → s.sender = false) :
    Intact s' := by
  refine ⟨?_, ?_, ?_, ?_, ?_, ?_⟩
  · rw [hstream, hresults, hproducer]
    exact h.whole
  · have hroom := h.room
    unfold HasRoom at hroom ⊢
    rw [hproducer]
    split at hroom
    · exact ⟨by omega, by omega⟩
    · exact ⟨hroom.1, by omega, by omega⟩
    · exact Nat.lt_of_le_of_lt hqueue hroom
    · exact hroom
    · trivial
  · rw [hproducer, hsender]
    exact h.sender
  · rw [hsender]
    exact hclosed
  · rw [hresults]
    exact h.sizes
  · rw [hproducer]
    exact h.size

theorem Intact.drain (h : Intact s)
    (he : e = .receive ∨ (∃ count, e = .sink count) ∨ e = .release ∨ e = .notify) :
    Intact (s.step e) := by
  have hclosed := h.closed
  have hstream : (s.step e).stream = s.stream := by
    rcases he with rfl | ⟨count, rfl⟩ | rfl | rfl
    all_goals exact (stream_step (by simp)).trans (List.append_nil _)
  refine h.of_drain hstream ?_ ?_ ?_ ?_ ?_ ?_
  all_goals
    rcases he with rfl | ⟨count, rfl⟩ | rfl | rfl
    all_goals
      simp only [step]
      grind

/-! ## The producer -/

theorem acceptedMessages_error (results : List (List UInt8 × Except String Unit))
    (payload : List UInt8) (e : String) :
    acceptedMessages (results ++ [(payload, .error e)]) = acceptedMessages results := by
  simp [acceptedMessages]

theorem acceptedMessages_ok (results : List (List UInt8 × Except String Unit))
    (payload : List UInt8) :
    acceptedMessages (results ++ [(payload, .ok ())]) = acceptedMessages results ++ [payload] := by
  simp [acceptedMessages]

/-- A write that fails before anything was sent. -/
theorem Intact.refuse (h : Intact s) (hsent : s.producer.sent = [])
    (payload : List UInt8) (e : String) : Intact (s.finish payload (.error e)) := by
  refine ⟨?_, trivial, nofun, h.closed, ?_, nofun⟩
  · have hwhole := h.whole
    rw [hsent] at hwhole
    rw [finish, acceptedMessages_error]
    exact hwhole
  · rw [finish, acceptedMessages_error]
    exact h.sizes

/-- A step of the producer that sends nothing. -/
theorem Intact.goOn (h : Intact s) {queued : Nat} {permit : Bool} {producer : Producer}
    (hsent : producer.sent = s.producer.sent)
    (hmessage : ∀ payload, producer.message = some payload → s.producer.message = some payload)
    (hengaged : producer.engaged = true → s.sender = true)
    (hroom : HasRoom { s with queued := queued, permit := permit, producer := producer }) :
    Intact { s with queued := queued, permit := permit, producer := producer } := by
  refine ⟨?_, hroom, hengaged, h.closed, h.sizes, fun payload hp => h.size payload (hmessage _ hp)⟩
  rw [hsent]
  exact h.whole

variable {payload : List UInt8} {part : Part}

theorem Intact.load (h : Intact s) (hproducer : s.producer = .load payload part) (spurious : Bool) :
    Intact (s.produce spurious) := by
  have hroom := h.room
  rw [HasRoom, hproducer] at hroom
  unfold produce
  rw [hproducer]
  dsimp only
  split
  next hsender =>
    refine h.goOn ?_ (by simp [hproducer, Producer.message]) (fun _ => hsender) ?_
    · rw [hproducer]
      cases part <;> rfl
    · cases part with
      | header => trivial
      | body => exact ⟨hroom.1, hroom.1, hroom.2⟩
  next hsender =>
    cases part with
    | header => exact h.refuse (by rw [hproducer]; rfl) payload _
    | body => exact absurd (h.sender (by rw [hproducer]; rfl)) hsender

theorem Intact.compare (h : Intact s)
    {current : Nat} (hproducer : s.producer = .compare payload part current) (spurious : Bool) :
    Intact (s.produce spurious) := by
  have hsender : s.sender = true := h.sender (by rw [hproducer]; rfl)
  have hroom := h.room
  rw [HasRoom, hproducer] at hroom
  unfold produce
  rw [hproducer]
  dsimp only
  split
  next hover =>
    cases part with
    | header => exact h.refuse (by rw [hproducer]; rfl) payload _
    | body => exact absurd hroom.1 (Nat.not_le.2 hover)
  · split
    all_goals refine h.goOn ?_ (by simp [hproducer, Producer.message]) (fun _ => hsender) ?_
    any_goals
      rw [hproducer]
      cases part <;> rfl
    · cases part with
      | header => trivial
      | body => exact hroom.2.2
    · cases part with
      | header => trivial
      | body => exact ⟨hroom.2.1, hroom.2.1, hroom.2.2⟩

/-- A fragment that is sent goes to the end of the stream. -/
theorem stream_push (s : QueuedWriter) (fragment : List UInt8) (producer : Producer) :
    { s with queue := s.queue ++ [fragment], producer := producer }.stream =
    s.stream ++ fragment := by
  simp [stream]

theorem Intact.pushHeader (h : Intact s)
    (hproducer : s.producer = .push payload .header)
    (hroom : payload ≠ [] → s.queued + payload.length ≤ maxQueuedBytes ∧
      s.queue.length + 1 < maxFragments) :
    Intact { s with queue := s.queue ++ [frameHeader payload.length],
                    producer := accepted payload .header } := by
  have hsize : payload.length ≤ maxFrameSize := h.size payload (by rw [hproducer]; rfl)
  have hsender : s.sender = true := h.sender (by rw [hproducer]; rfl)
  have hwhole := h.whole
  have hsent : (Producer.push payload .header).sent = [] := rfl
  rw [hproducer, hsent, List.append_nil] at hwhole
  rw [accepted]
  split
  next hnil =>
    -- The frame of an empty message is its header.
    subst hnil
    refine ⟨?_, trivial, fun _ => hsender, h.closed, h.sizes, ?_⟩
    · rw [stream_push, hwhole]
      rfl
    · rintro _ ⟨⟩
      exact hsize
  next hne =>
    obtain ⟨hbytes, hfragments⟩ := hroom hne
    refine ⟨?_, ⟨hbytes, ?_⟩, fun _ => hsender, h.closed, h.sizes, ?_⟩
    · rw [stream_push, hwhole]
      rfl
    · rw [List.length_append]
      exact hfragments
    · rintro _ ⟨⟩
      exact hsize

/-- The channel of a write that is under way has its receiver. -/
theorem Intact.live (h : Intact s) (hengaged : s.producer.engaged = true)
    (hfailed : s.drain ≠ .failed) : s.drain.dropped = false := by
  cases hdrain : s.drain with
  | closed => cases (h.closed hdrain).symm.trans (h.sender hengaged)
  | failed => exact absurd hdrain hfailed
  | _ => rfl

theorem Intact.push (h : Intact s)
    (hproducer : s.producer = .push payload part) (hfailed : s.drain ≠ .failed) {spurious : Bool}
    (horderly : Orderly s (.produce spurious)) : Intact (s.produce spurious) := by
  have hsize : payload.length ≤ maxFrameSize := h.size payload (by rw [hproducer]; rfl)
  have hsender : s.sender = true := h.sender (by rw [hproducer]; rfl)
  have hlive : s.drain.dropped = false := h.live (by rw [hproducer]; rfl) hfailed
  have hroom := h.room
  rw [HasRoom, hproducer] at hroom
  unfold produce
  rw [hproducer]
  dsimp only
  split
  next hpush =>
    cases part with
    | header =>
      apply h.pushHeader hproducer
      intro hne
      exact horderly spurious payload rfl hproducer hne hpush.2
    | body =>
      refine ⟨?_, trivial, fun _ => hsender, h.closed, h.sizes, ?_⟩
      · have hwhole := h.whole
        rw [hproducer, Producer.sent] at hwhole
        rw [stream_push, hwhole, List.append_assoc]
        rfl
      · rintro _ ⟨⟩
        exact hsize
  next hfull =>
    cases part with
    | header =>
      refine h.goOn ?_ (by simp [hproducer, Producer.message]) (fun _ => hsender) trivial
      rw [hproducer]
      rfl
    | body => exact absurd ⟨hlive, hroom⟩ hfull

theorem Intact.flush (h : Intact s) (hproducer : s.producer = .flush payload)
    (hfailed : s.drain ≠ .failed) (spurious : Bool) : Intact (s.produce spurious) := by
  have hsender : s.sender = true := h.sender (by rw [hproducer]; rfl)
  unfold produce
  rw [hproducer]
  dsimp only
  split
  next hbroken =>
    exfalso
    rcases hbroken with hclosed | hdropped
    · rw [hsender] at hclosed
      cases hclosed
    · rw [h.live (by rw [hproducer]; rfl) hfailed] at hdropped
      cases hdropped
  · refine ⟨?_, trivial, nofun, h.closed, ?_, nofun⟩
    · have hwhole := h.whole
      rw [hproducer, Producer.sent] at hwhole
      rw [finish, acceptedMessages_ok, List.flatMap_append, List.flatMap_singleton]
      exact hwhole.trans (List.append_nil _).symm
    · rw [finish, acceptedMessages_ok]
      exact List.forall_mem_append.2 ⟨h.sizes,
        List.forall_mem_singleton.2 (h.size payload (by rw [hproducer]; rfl))⟩

theorem Intact.produce (h : Intact s) (hfailed : s.drain ≠ .failed)
    {spurious : Bool} (horderly : Orderly s (.produce spurious)) : Intact (s.produce spurious) := by
  cases hproducer : s.producer with
  | idle =>
    unfold QueuedWriter.produce
    rw [hproducer]
    exact h
  | load payload part => exact h.load hproducer spurious
  | compare payload part current => exact h.compare hproducer spurious
  | push payload part => exact h.push hproducer hfailed horderly
  | undo payload part =>
    have hroom := h.room
    rw [HasRoom, hproducer] at hroom
    cases part with
    | header =>
      have hrefused := h.refuse (by rw [hproducer]; rfl) payload "broken pipe"
      unfold QueuedWriter.produce
      rw [hproducer]
      exact ⟨hrefused.whole, trivial, nofun, h.closed, hrefused.sizes, nofun⟩
    | body => exact hroom.elim
  | flush payload => exact h.flush hproducer hfailed spurious
  | checkDrained =>
    unfold QueuedWriter.produce
    rw [hproducer]
    dsimp only
    split
    · exact h.goOn (by rw [hproducer]; rfl) nofun nofun trivial
    · exact h.goOn (by rw [hproducer]; rfl) nofun nofun trivial
  | awaitDrained =>
    unfold QueuedWriter.produce
    rw [hproducer]
    dsimp only
    split
    · exact h.goOn (by rw [hproducer]; rfl) nofun nofun trivial
    · exact h

/-! ## Runs -/

theorem intact_start : Intact start :=
  ⟨rfl, trivial, nofun, nofun, nofun, nofun⟩

theorem Intact.step (h : Intact s) (hfailed : s.drain ≠ .failed)
    (horderly : Orderly s e) : (s.step e).drain = .failed ∨ Intact (s.step e) := by
  cases e with
  | write payload =>
    right
    rw [QueuedWriter.step]
    split
    next hidle =>
      split
      · exact h.refuse (by rw [hidle]; rfl) payload _
      next hsize =>
        have hwhole := h.whole
        rw [hidle] at hwhole
        refine ⟨hwhole, trivial, nofun, h.closed, h.sizes, ?_⟩
        rintro _ ⟨⟩
        exact Nat.le_of_not_lt hsize
    · exact h
  | wait =>
    right
    rw [QueuedWriter.step]
    split
    next hidle => exact h.goOn (by rw [hidle]; rfl) nofun nofun trivial
    · exact h
  | cancelWait =>
    right
    rw [QueuedWriter.step]
    split
    next hwaits => exact h.goOn (by rw [hwaits]; rfl) nofun nofun trivial
    · exact h
  | shutdown =>
    right
    rw [QueuedWriter.step]
    split
    next hidle =>
      refine ⟨h.whole, h.room, ?_, fun _ => rfl, h.sizes, h.size⟩
      intro hengaged
      rw [hidle] at hengaged
      cases hengaged
    · exact h
  | produce spurious => exact .inr (h.produce hfailed horderly)
  | receive => exact .inr (h.drain (.inl rfl))
  | sink count => exact .inr (h.drain (.inr (.inl ⟨count, rfl⟩)))
  | sinkFails =>
    rw [QueuedWriter.step]
    split
    · exact .inl rfl
    · exact .inr h
  | release => exact .inr (h.drain (by simp))
  | notify => exact .inr (h.drain (by simp))

theorem produce_drain (s : QueuedWriter) (spurious : Bool) :
    (s.produce spurious).drain = s.drain := by
  unfold produce
  cases s.producer with
  | idle => rfl
  | load payload part | push payload part | flush payload | checkDrained | awaitDrained =>
    dsimp only
    split <;> rfl
  | compare payload part current =>
    dsimp only
    split
    · rfl
    · split <;> rfl
  | undo payload part => rfl

/-- A drain that has failed does not start again. -/
theorem step_failed (h : s.drain = .failed) (e : Event) : (s.step e).drain = .failed := by
  cases e with
  | produce spurious => exact (produce_drain s spurious).trans h
  | write payload =>
    rw [step]
    split
    · split <;> exact h
    · exact h
  | wait | cancelWait | shutdown =>
    rw [step]
    split <;> exact h
  | receive | sink count | sinkFails | release | notify => rw [step, h]; exact h

theorem intact_foldl (events : List Event) (h : s.drain = .failed ∨ Intact s)
    (horderly : ∀ before e after, events = before ++ e :: after → Orderly (before.foldl step s) e) :
    (events.foldl step s).drain = .failed ∨ Intact (events.foldl step s) := by
  induction events generalizing s with
  | nil => exact h
  | cons e events ih =>
    apply ih
    · by_cases hfailed : s.drain = .failed
      · exact .inl (step_failed hfailed e)
      · exact (h.resolve_left hfailed).step hfailed (horderly [] e events rfl)
    · intro before e' after hevents
      apply horderly (e :: before) e' after
      rw [hevents]
      rfl

/-! ## Main result -/

/-- When the headers of messages are sent with room for their payloads and the sink does not fail,
the peer of a drained writer has the frames of the accepted messages, whole and in order, and reads
those messages. -/
theorem accepted_frames_arrive (events : List Event)
    (horderly : ∀ before e after, events = before ++ e :: after → Orderly (run before) e)
    (hidle : (run events).producer = .idle) (hsink : (run events).drain ≠ .failed)
    (hqueue : (run events).queue = []) (hdrained : (run events).drain.rest = []) :
    (run events).received = (acceptedMessages (run events).results).flatMap frame ∧
      readFrames (acceptedMessages (run events).results).length (run events).received =
        .ok (acceptedMessages (run events).results, []) := by
  have hintact : Intact (run events) :=
    (intact_foldl events (.inr intact_start) horderly).resolve_left hsink
  have hwhole := hintact.whole
  have hsent : Producer.idle.sent = [] := rfl
  rw [stream, hqueue, hdrained, hidle, hsent, List.flatten_nil, List.append_nil, List.append_nil,
    List.append_nil] at hwhole
  refine ⟨hwhole, ?_⟩
  rw [hwhole]
  exact readFrames_flatMap hintact.sizes

/-- A call of `write_message` without a step of the drain. -/
def writing (payload : List UInt8) : List Event :=
  .write payload :: List.replicate 7 (.produce false)

/-- The drain writes a fragment of so many bytes. -/
def draining (count : Nat) : List Event := [.receive, .sink count, .release, .notify]

/-- A message of one byte is written and drained. -/
def oneMessage : List Event := writing [1] ++ draining 4 ++ draining 1

/-- There is room for a payload, whether or not a header is to be sent. -/
def roomy (s : QueuedWriter) : Bool :=
  match s.producer with
  | .push payload .header =>
    s.queued + payload.length ≤ maxQueuedBytes ∧ s.queue.length + 1 < maxFragments
  | _ => true

theorem orderly_of_roomy (h : s.roomy = true) (e : Event) : Orderly s e := by
  intro spurious payload _ hproducer _ _
  rw [roomy, hproducer] at h
  exact of_decide_eq_true h

theorem accepted_frames_arrive_oneMessage :
    (run oneMessage).received = (acceptedMessages (run oneMessage).results).flatMap frame ∧
      readFrames (acceptedMessages (run oneMessage).results).length (run oneMessage).received =
        .ok (acceptedMessages (run oneMessage).results, []) := by
  refine accepted_frames_arrive oneMessage ?_ rfl nofun rfl rfl
  intro before e after hevents
  apply orderly_of_roomy
  have hall : ∀ n ≤ 16, (run (oneMessage.take n)).roomy = true := by decide +kernel
  have hlength := congrArg List.length hevents
  have hbefore : oneMessage.take before.length = before := by
    rw [hevents, List.take_left]
  rw [List.length_append, List.length_cons] at hlength
  rw [← hbefore]
  apply hall
  have htotal : oneMessage.length = 16 := rfl
  omega

section

variable {queue : List (List UInt8)} {queued : Nat} {permit : Bool} {received : List UInt8}
  {results : List (List UInt8 × Except String Unit)}

theorem foldl_writing (hne : payload ≠ []) (hsize : payload.length ≤ maxFrameSize)
    (hbytes : queued + 4 + payload.length ≤ maxQueuedBytes)
    (hfragments : queue.length + 1 < maxFragments) :
    (writing payload).foldl step ⟨true, queue, queued, permit, .idle, .waiting, received, results⟩ =
      ⟨true, queue ++ [frameHeader payload.length, payload], queued + 4 + payload.length, permit,
        .idle, .waiting, received, results ++ [(payload, .ok ())]⟩ := by
  have hheader : ¬ maxQueuedBytes < queued + 4 := by omega
  have hbody : ¬ maxQueuedBytes < queued + 4 + payload.length := by omega
  have hfits : ¬ maxFrameSize < payload.length := by omega
  have hfirst : queue.length < maxFragments := by omega
  simp [writing, List.replicate, step, produce, accepted, finish, Part.bytes, Drain.dropped,
    hheader, hbody, hfits, hfirst, hfragments, hne]

/-- The header fits and the payload does not. -/
theorem foldl_writing_torn (hne : payload ≠ []) (hsize : payload.length ≤ maxFrameSize)
    (hheader : queued + 4 ≤ maxQueuedBytes) (hbody : maxQueuedBytes < queued + 4 + payload.length)
    (hfragments : queue.length < maxFragments) :
    (writing payload).foldl step ⟨true, queue, queued, permit, .idle, .waiting, received, results⟩ =
      ⟨true, queue ++ [frameHeader payload.length], queued + 4, permit, .idle, .waiting, received,
        results ++ [(payload, .error "reliable attachment output budget exceeded")]⟩ := by
  have hfirst : ¬ maxQueuedBytes < queued + 4 := by omega
  have hfits : ¬ maxFrameSize < payload.length := by omega
  simp [writing, List.replicate, step, produce, accepted, finish, Part.bytes, Drain.dropped, hfirst,
    hbody, hfits, hfragments, hne]

end

/-- A drain that is left alone empties the queue. -/
theorem exists_drained (s : QueuedWriter) (hdrain : s.drain = .waiting) :
    ∃ events : List Event, (events.foldl step s).queue = [] ∧
      (events.foldl step s).drain = .waiting ∧
      (events.foldl step s).producer = s.producer ∧ (events.foldl step s).results = s.results ∧
      (events.foldl step s).received = s.received ++ s.queue.flatten := by
  obtain ⟨sender, queue, queued, permit, producer, drain, received, results⟩ := s
  subst hdrain
  induction queue generalizing queued permit received with
  | nil => exact ⟨[], rfl, rfl, rfl, rfl, (List.append_nil _).symm⟩
  | cons fragment rest ih =>
    have hone : ∃ permit', (draining fragment.length).foldl step
        ⟨sender, fragment :: rest, queued, permit, producer, .waiting, received, results⟩ =
          ⟨sender, rest, queued - fragment.length, permit', producer, .waiting,
            received ++ fragment, results⟩ := by
      by_cases hlast : queued = fragment.length
      · exact ⟨true, by simp [draining, step, hlast]⟩
      · exact ⟨permit, by simp [draining, step, hlast]⟩
    obtain ⟨permit', hone⟩ := hone
    obtain ⟨events, hqueue, hdrain, hproducer, hresults, hreceived⟩ :=
      ih (queued - fragment.length) permit' (received ++ fragment)
    refine ⟨draining fragment.length ++ events, ?_⟩
    rw [List.foldl_append, hone]
    refine ⟨hqueue, hdrain, hproducer, hresults, ?_⟩
    rw [hreceived, List.flatten_cons, List.append_assoc]

/-- Four messages of the largest size leave room for the header of a fifth one. -/
theorem exists_torn (hpayload : payload.length = maxFrameSize) :
    ∃ events : List Event, (run events).producer = .idle ∧ (run events).drain = .waiting ∧
      (run events).queue = [] ∧
      (run events).results = List.replicate 4 (payload, .ok ()) ++
        [(payload, .error "reliable attachment output budget exceeded"), ([1], .ok ())] ∧
      (run events).received = (List.replicate 4 payload).flatMap frame ++
        (frameHeader payload.length ++ frame [1]) := by
  have hsize : payload.length ≤ maxFrameSize := Nat.le_of_eq hpayload
  have hbudget : maxQueuedBytes = 5 * maxFrameSize := rfl
  have hcapacity : maxFragments = 1024 := rfl
  have hlarge : 1024 ≤ maxFrameSize := by decide
  have hne : payload ≠ [] := by
    rintro rfl
    rw [List.length_nil] at hpayload
    omega
  obtain ⟨written, queued, hrun⟩ : ∃ written queued, run written = { start with
      queue := (List.replicate 4 [frameHeader payload.length, payload]).flatten ++
        [frameHeader payload.length, frameHeader 1, [1]]
      queued
      results := List.replicate 4 (payload, .ok ()) ++
        [(payload, .error "reliable attachment output budget exceeded"), ([1], .ok ())] } := by
    refine ⟨writing payload ++ writing payload ++ writing payload ++ writing payload ++
      writing payload ++ writing [1], ?_⟩
    apply Exists.intro
    simp only [run, start, List.foldl_append]
    rw [foldl_writing hne hsize, foldl_writing hne hsize, foldl_writing hne hsize,
      foldl_writing hne hsize, foldl_writing_torn hne hsize, foldl_writing (List.cons_ne_nil 1 [])]
    · rfl
    all_goals
      try simp only [List.length_append, List.length_cons, List.length_nil]
      omega
  obtain ⟨events, hempty, hwaiting, hidle, hsame, hall⟩ := exists_drained _ (congrArg drain hrun)
  rw [hrun] at hidle hsame hall
  refine ⟨written ++ events, ?_⟩
  rw [run, List.foldl_append, ← run, hrun]
  refine ⟨hidle, ?_, ?_, hsame, hall.trans ?_⟩
  · rwa [hrun] at hwaiting
  · rwa [hrun] at hempty
  · simp [start, frame, List.replicate]

/-- Four messages of the largest size are accepted and a fifth one is rejected, but its header is in
the stream. The peer takes the next message, which is accepted, for a part of its payload. -/
theorem rejected_message_tears_stream :
    ∃ events, (run events).producer = .idle ∧ (run events).drain ≠ .failed ∧
      (run events).queue = [] ∧ (run events).drain.rest = [] ∧
      (∃ rejected, (rejected, .error "reliable attachment output budget exceeded") ∈
        (run events).results) ∧
      (run events).received ≠ (acceptedMessages (run events).results).flatMap frame ∧
      readFrames 5 (run events).received = .error "truncated protocol frame payload" := by
  have hpayload : (List.replicate maxFrameSize (0 : UInt8)).length = maxFrameSize :=
    List.length_replicate
  generalize List.replicate maxFrameSize (0 : UInt8) = payload at hpayload
  have hsize : payload.length ≤ maxFrameSize := Nat.le_of_eq hpayload
  obtain ⟨events, hidle, hdrain, hqueue, hresults, hreceived⟩ := exists_torn hpayload
  refine ⟨events, hidle, ?_, hqueue, ?_, ⟨payload, ?_⟩, ?_, ?_⟩
  · rw [hdrain]
    nofun
  · rw [hdrain]
    rfl
  · rw [hresults]
    simp
  · -- The stream has one header more than the accepted messages.
    rw [hresults, hreceived]
    intro heq
    have hlengths := congrArg List.length heq
    simp [acceptedMessages, List.replicate] at hlengths
  · have hlast : readFrames 1 (frameHeader payload.length ++ frame [1]) =
        .error "truncated protocol frame payload" := by
      rw [hpayload]
      decide +kernel
    rw [hreceived]
    simp only [List.replicate, List.flatMap_cons, List.flatMap_nil, List.append_nil,
      List.append_assoc]
    rw [readFrames_append hsize, readFrames_append hsize, readFrames_append hsize,
      readFrames_append hsize, hlast]
    rfl

end QueuedWriter

end AstraShell.Queued
