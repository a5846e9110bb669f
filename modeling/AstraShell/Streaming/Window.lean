import AstraShell.Lib.Cumulative
import AstraShell.Lib.Effect
import AstraShell.Lib.OrdMap
import AstraShell.Streaming.Transfer

/-!
# The sender's window

`StreamingStateWindow` of `terminal_streaming.rs`. The window prepares updates without waiting for
acknowledgements: a delta is cumulative from an acknowledged base, a keyframe replaces the base and
suspends deltas until it is acknowledged. `InPlace` has the methods with their assignments, and what
was assigned before a failure stays.

The lemmas `prepareUpdate_spec`, `retryLatest_spec`, `rekeyLatest_spec`, `repair_spec` and
`acknowledge_spec` say all a method can do; later modules use these.
-/

set_option autoImplicit false

namespace AstraShell.Streaming

open Lib Effect TerminalState TerminalSync OrdMap

def defaultRetainedGenerations : Nat := 128

/-- A reliable keyframe or a lossy cumulative delta. -/
inductive StreamingUpdate where
  | reliableKeyframe (state : State)
  | datagramDelta (delta : TerminalViewportDatagram)
  | fragmentedDelta (transfer : ViewportTransfer)
  deriving DecidableEq

/-- The delta an update carries. -/
def StreamingUpdate.delta? : StreamingUpdate → Option TerminalViewportDatagram
  | .reliableKeyframe _ => none
  | .datagramDelta delta => some delta
  | .fragmentedDelta transfer => some transfer.body

/-- A client's report that it lacks the base of a delta. -/
structure TerminalStateRepairRequest where
  epoch : Bytes
  missingBaseGeneration : Nat
  newestSeenGeneration : Nat

structure StreamingStateWindow where
  terminalId : String
  attachmentId : String
  base : State
  baseAcknowledged : Bool
  sent : OrdMap Nat State
  latestTarget : Option State
  retainedGenerations : Nat
  retiredEpochs : List Bytes
  datagramVersion : Nat

namespace StreamingStateWindow

-- Named, so that the definitions below hold no proof of their own.
local instance : LawfulBEq Bytes := inferInstance

variable (lib : External)

def withRetainedGenerations (initialKeyframe : State) (terminalId attachmentId : String)
    (retainedGenerations : Nat) : Except String StreamingStateWindow := do
  ensure (retainedGenerations > 0) "retained generation limit is zero"
  validateViewportState lib.graphemeCount initialKeyframe
  return {
    terminalId := terminalId
    attachmentId := attachmentId
    base := initialKeyframe
    baseAcknowledged := false
    sent := OrdMap.empty.insert initialKeyframe.generation initialKeyframe
    latestTarget := none
    retainedGenerations := retainedGenerations
    retiredEpochs := []
    datagramVersion := 2 }

def withRoute (initialKeyframe : State) (terminalId attachmentId : String) :
    Except String StreamingStateWindow := do
  ensure (terminalId ≠ "" ∧ attachmentId ≠ "") "terminal viewport datagram route is empty"
  withRetainedGenerations lib initialKeyframe terminalId attachmentId defaultRetainedGenerations

def withRouteVersion (initialKeyframe : State) (terminalId attachmentId : String)
    (version : Nat) : Except String StreamingStateWindow := do
  ensure (version = 2 ∨ version = 3) "unsupported terminal datagram version"
  let window ← withRoute lib initialKeyframe terminalId attachmentId
  return { window with datagramVersion := version }

def latestGeneration (w : StreamingStateWindow) : Nat :=
  match w.latestTarget with
  | none => w.base.generation
  | some state => state.generation

/-- The generation the loop of `remember` removes: the oldest, or the one after it when the oldest
is the base. -/
def removable (base : State) (sent : OrdMap Nat State) : Option Nat :=
  match sent.firstKey? fun _ => true with
  | none => none
  | some oldest =>
    if oldest = base.generation then sent.firstKey? fun generation => oldest + 1 ≤ generation
    else some oldest

def remember (w : StreamingStateWindow) (state : State) : StreamingStateWindow :=
  let sent := w.sent.insert state.generation state
  { w with
    latestTarget := some state
    sent := OrdMap.trim w.retainedGenerations (removable w.base) sent.size sent }

/-- The window with a new base whose keyframe is in flight; a base of another epoch retires the
old epoch. -/
def installed (w : StreamingStateWindow) (state : State) : StreamingStateWindow :=
  let retired :=
    if w.base.epoch ≠ state.epoch then
      let retired := w.retiredEpochs ++ [w.base.epoch]
      if retired.length > defaultRetainedGenerations then retired.tail else retired
    else w.retiredEpochs
  remember { w with
    retiredEpochs := retired
    base := state
    baseAcknowledged := false
    sent := OrdMap.empty } state

def updateFromBase (w : StreamingStateWindow) (latest : State) (datagramPayloadBudget : Nat) :
    Except String StreamingUpdate :=
  if latest.rows ≠ w.base.rows ∨ latest.cols ≠ w.base.cols then .ok (.reliableKeyframe latest)
  else do
    let delta ← compactViewportDatagram w.terminalId w.attachmentId w.base latest
    if w.datagramVersion = 3 then do
      let transfer ← ViewportTransfer.prepare lib delta datagramPayloadBudget latest.encodedLen
      match transfer with
      | some transfer => return .fragmentedDelta transfer
      | none => return .reliableKeyframe latest
    else if delta.encodedLen ≤ datagramPayloadBudget ∧ delta.encodedLen < latest.encodedLen then
      return .datagramDelta delta
    else return .reliableKeyframe latest

/-- The state passed in is not newer than what the window has. -/
def isStale (w : StreamingStateWindow) (latest : State) : Prop :=
  latest.epoch = w.base.epoch ∧
    (latest.generation ≤ w.base.generation ∨ latest.generation < w.latestGeneration ∨
      (latest.generation = w.latestGeneration ∧ (w.sent.get? latest.generation).isSome))

instance (w : StreamingStateWindow) (latest : State) : Decidable (w.isStale latest) :=
  inferInstanceAs (Decidable (_ ∧ _))

def hasPendingUpdate (w : StreamingStateWindow) : Bool :=
  match w.latestTarget with
  | none => false
  | some state => state.epoch ≠ w.base.epoch || state.generation > w.base.generation

/-- The latest target, unless the acknowledged generation reaches it. -/
def latestAfterAck (w : StreamingStateWindow) (ack : TerminalStateAck) : Option State :=
  w.latestTarget.filter fun state => ¬ (state.epoch = ack.epoch ∧ state.generation ≤ ack.generation)

namespace InPlace

/-- A method with `&mut self`: its assignments stay when it fails. -/
abbrev Method := Effect StreamingStateWindow String

def installKeyframe (state : State) : Method StreamingUpdate := do
  check (validateViewportState lib.graphemeCount state)
  let acknowledged ← gets baseAcknowledged
  require (acknowledged = true) "a reliable keyframe is already in flight"
  modify (installed · state)
  return .reliableKeyframe state

/-- The common end of `prepare_update` and `retry_latest`, with an acknowledged base. -/
def sendLatest (latest : State) (datagramPayloadBudget : Nat) :
    Method (Option StreamingUpdate) := do
  let w ← gets id
  if latest.epoch ≠ w.base.epoch then some <$> installKeyframe lib latest
  else do
    let update ← check (w.updateFromBase lib latest datagramPayloadBudget)
    match update with
    | .reliableKeyframe _ => some <$> installKeyframe lib latest
    | update => do
      modify (remember · latest)
      return some update

def prepareUpdate (latest : State) (datagramPayloadBudget : Nat) :
    Method (Option StreamingUpdate) := do
  check (validateViewportState lib.graphemeCount latest)
  let w ← gets id
  if w.isStale latest then return none
  else if w.baseAcknowledged = false then do
    modify fun w => { w with latestTarget := some latest }
    return none
  else sendLatest lib latest datagramPayloadBudget

def retryLatest (datagramPayloadBudget : Nat) : Method (Option StreamingUpdate) := do
  let w ← gets id
  match w.latestTarget with
  | none => return none
  | some latest =>
    if latest.epoch = w.base.epoch ∧ latest.generation ≤ w.base.generation then do
      modify fun w => { w with latestTarget := none }
      return none
    else if w.baseAcknowledged = false then return none
    else sendLatest lib latest datagramPayloadBudget

def rekeyLatest : Method (Option StreamingUpdate) := do
  let w ← gets id
  if w.baseAcknowledged = false then return none
  else
    match w.latestTarget with
    | none => return none
    | some latest =>
      if latest.epoch = w.base.epoch ∧ latest.generation ≤ w.base.generation then do
        modify fun w => { w with latestTarget := none }
        return none
      else some <$> installKeyframe lib latest

def repair (request : TerminalStateRepairRequest) : Method (Option StreamingUpdate) := do
  require (request.epoch.length = epochBytes) "terminal state repair epoch is invalid"
  require (request.missingBaseGeneration > 0) "terminal state repair base generation is zero"
  require (request.newestSeenGeneration ≥ request.missingBaseGeneration)
    "terminal state repair generation range is reversed"
  let w ← gets id
  if request.epoch ∈ w.retiredEpochs then return none
  else do
    require (request.epoch = w.base.epoch) "terminal state repair epoch changed"
    require (request.missingBaseGeneration ≤ w.latestGeneration)
      "terminal state repair names a future base"
    if w.baseAcknowledged = false then return none
    else do
      let update ← rekeyLatest lib
      match update with
      | some update => return some update
      | none => do
        modify fun w => { w with baseAcknowledged := false }
        let base ← gets base
        return some (.reliableKeyframe base)

def acknowledge (ack : TerminalStateAck) : Method AckDisposition := do
  require (ack.epoch.length = epochBytes) "terminal state ACK epoch is invalid"
  require (ack.generation > 0) "terminal state ACK generation is zero"
  let w ← gets id
  if ack.epoch ∈ w.retiredEpochs then return .duplicate
  else if ack.epoch = w.base.epoch ∧ ack.generation ≤ w.base.generation then do
    modify fun w => { w with
      baseAcknowledged := w.baseAcknowledged || ack.generation = w.base.generation }
    modify fun w => { w with latestTarget := w.latestAfterAck ack }
    return .duplicate
  else do
    require (ack.epoch = w.base.epoch) "terminal state ACK epoch changed"
    match w.sent.get? ack.generation with
    | none => do
      require (ack.generation ≤ w.latestGeneration)
        "terminal state ACK names a future generation"
      return .duplicate
    | some acknowledged => do
      modify fun w => { w with base := acknowledged }
      modify fun w => { w with baseAcknowledged := true }
      modify fun w => { w with sent := w.sent.retain fun generation => ack.generation ≤ generation }
      modify fun w => { w with latestTarget := w.latestAfterAck ack }
      return .accepted

end InPlace

/-- What a caller that stops at a failure sees of a method. -/
abbrev Returns (α : Type) := Except String (α × StreamingStateWindow)

def prepareUpdate (w : StreamingStateWindow) (latest : State) (datagramPayloadBudget : Nat) :
    Returns (Option StreamingUpdate) :=
  (InPlace.prepareUpdate lib latest datagramPayloadBudget).result w

def retryLatest (w : StreamingStateWindow) (datagramPayloadBudget : Nat) :
    Returns (Option StreamingUpdate) :=
  (InPlace.retryLatest lib datagramPayloadBudget).result w

def rekeyLatest (w : StreamingStateWindow) : Returns (Option StreamingUpdate) :=
  (InPlace.rekeyLatest lib).result w

def repair (w : StreamingStateWindow) (request : TerminalStateRepairRequest) :
    Returns (Option StreamingUpdate) :=
  (InPlace.repair lib request).result w

def acknowledge (w : StreamingStateWindow) (ack : TerminalStateAck) : Returns AckDisposition :=
  (InPlace.acknowledge ack).result w

/-! ## The error of a second keyframe

`install_keyframe` refuses a keyframe while one is in flight. No operation runs into that error:
each asks for the acknowledged base first, and no other check has the same text. -/

/-- The result is not that error. -/
abbrev NotInFlight {α : Type} (x : Except String α) : Prop :=
  x ≠ .error "a reliable keyframe is already in flight"

section

variable {lib : External} {w : StreamingStateWindow} {latest : State} {budget : Nat}

theorem NotInFlight.ok {α : Type} (a : α) : NotInFlight (.ok a) := by
  intro h
  cases h

theorem NotInFlight.bind {α β : Type} {x : Except String α} {f : α → Except String β}
    (hx : NotInFlight x) (hf : ∀ a, NotInFlight (f a)) : NotInFlight (x >>= f) := by
  intro h
  rcases bind_eq_error_iff.1 h with h | ⟨a, -, h⟩
  · exact hx h
  · exact hf a h

theorem validateViewportState_notInFlight {graphemeCount : String → Nat} {state : State} :
    NotInFlight (validateViewportState graphemeCount state) := by
  intro h
  simp only [validateViewportState, bind_eq_error_iff, withContext_eq_error_iff,
    context_eq_error_iff, ensure_eq_error_iff] at h
  obtain ⟨e, -, he⟩ : ∃ e, validate graphemeCount state = .error e ∧
      "terminal viewport state is invalid" ++ ": " ++ e =
        "a reliable keyframe is already in flight" := by simpa using h
  -- The two texts differ in their first character.
  have hhead := congrArg (fun s : String => s.toList.head?) he
  simp at hhead

theorem rowPatchesFrom_notInFlight (base : List Row) (index : Nat) (rows : List Row) :
    NotInFlight (rowPatchesFrom base index rows) := by
  induction rows generalizing index with
  | nil => exact .ok _
  | cons row rows ih =>
    refine .bind ?_ fun patch => .bind (ih (index + 1)) fun patches => .ok _
    rw [rowPatch]
    split
    · exact .ok _
    · exact .bind (by simp [context_eq_error_iff]) fun old => .ok _

theorem wireBytes_notInFlight (t : ViewportTransfer) (bytes : Nat) (indexes : List Nat) :
    NotInFlight (wireBytes t budget bytes indexes) := by
  induction indexes generalizing bytes with
  | nil => exact .ok _
  | cons index indexes ih =>
    rw [wireBytes]
    split
    · exact .ok _
    · exact .bind (by simp [context_eq_error_iff]) ih

theorem chooseCount_notInFlight (t : ViewportTransfer) (keyframeBytes : Nat) (counts : List Nat) :
    NotInFlight (chooseCount lib t budget keyframeBytes counts) := by
  induction counts with
  | nil => exact .ok _
  | cons count counts ih =>
    refine .bind (wireBytes_notInFlight _ _ _) fun bytes => ?_
    cases bytes with
    | none => exact ih
    | some bytes =>
      dsimp only
      split <;> exact .ok _

theorem prepare_notInFlight {delta : TerminalViewportDatagram} {keyframeBytes : Nat} :
    NotInFlight (ViewportTransfer.prepare lib delta budget keyframeBytes) := by
  intro h
  unfold ViewportTransfer.prepare at h
  dsimp only at h
  split at h
  · cases h
  simp only [bind_eq_error_iff, ensure_eq_error_iff, context_eq_error_iff] at h
  simp only [String.reduceEq, and_false, false_or] at h
  obtain ⟨-, -, -, -, diff, -, -, -, h⟩ := h
  split at h
  · cases h
  simp [bind_eq_error_iff, tryU32, context_eq_error_iff, chooseCount_notInFlight] at h

theorem updateFromBase_notInFlight : NotInFlight (w.updateFromBase lib latest budget) := by
  rw [updateFromBase]
  split
  · exact .ok _
  refine .bind (by simp [compactViewportDatagram, sparseRowPatches, bind_eq_error_iff,
    ensure_eq_error_iff, context_eq_error_iff, rowPatchesFrom_notInFlight, pure, Except.pure])
    fun delta => ?_
  split
  · refine .bind prepare_notInFlight fun transfer => ?_
    cases transfer <;> exact .ok _
  · split <;> exact .ok _

end

/-! ## What the operations can do -/

/-- The state is newer than what the window has of its epoch. -/
def IsNews (w : StreamingStateWindow) (state : State) : Prop :=
  state.epoch = w.base.epoch →
    w.base.generation < state.generation ∧ w.latestGeneration ≤ state.generation

/-- Everything a successful `prepare_update`, `retry_latest`, `rekey_latest` or `repair` can do to
the window, with the update it returns. Only the state of `candidate` can be sent. -/
inductive Sends (lib : External) (w : StreamingStateWindow) (candidate : Option State) :
    Option StreamingUpdate → StreamingStateWindow → Prop
  | unchanged : Sends lib w candidate none w
  /-- The state waits for the acknowledgement of the base. -/
  | pend (latest : State) (hcandidate : candidate = some latest) (hnews : w.IsNews latest)
      (hacked : w.baseAcknowledged = false) :
      Sends lib w candidate none { w with latestTarget := some latest }
  /-- The base has reached the latest target. -/
  | clear (latest : State) (hlatest : w.latestTarget = some latest)
      (hreached : latest.epoch = w.base.epoch ∧ latest.generation ≤ w.base.generation) :
      Sends lib w candidate none { w with latestTarget := none }
  /-- A delta from the base. -/
  | delta (latest : State) (update : StreamingUpdate) (d : TerminalViewportDatagram)
      (hcandidate : candidate = some latest) (hnews : w.IsNews latest)
      (hacked : w.baseAcknowledged = true) (hepoch : latest.epoch = w.base.epoch)
      (hgeometry : latest.rows = w.base.rows ∧ latest.cols = w.base.cols)
      (hcompact : compactViewportDatagram w.terminalId w.attachmentId w.base latest = .ok d)
      (hupdate : update.delta? = some d) :
      Sends lib w candidate (some update) (w.remember latest)
  /-- A new base. -/
  | keyframe (latest : State) (hcandidate : candidate = some latest) (hnews : w.IsNews latest)
      (hacked : w.baseAcknowledged = true)
      (hvalid : validateViewportState lib.graphemeCount latest = .ok ()) :
      Sends lib w candidate (some (.reliableKeyframe latest)) (w.installed latest)
  /-- The base once more, when nothing newer waits. -/
  | resend (hacked : w.baseAcknowledged = true)
      (hlatest : ∀ latest ∈ w.latestTarget,
        latest.epoch = w.base.epoch ∧ latest.generation ≤ w.base.generation) :
      Sends lib w candidate (some (.reliableKeyframe w.base))
        { w with latestTarget := none, baseAcknowledged := false }

section

variable {lib : External} {w w' : StreamingStateWindow} {latest : State} {budget : Nat}
  {update : Option StreamingUpdate}

/-- An update from the base is a keyframe of the new state or carries the delta to it. -/
theorem updateFromBase_cases {u : StreamingUpdate}
    (h : w.updateFromBase lib latest budget = .ok u) :
    u = .reliableKeyframe latest ∨
      (latest.rows = w.base.rows ∧ latest.cols = w.base.cols) ∧
        ∃ d, compactViewportDatagram w.terminalId w.attachmentId w.base latest = .ok d ∧
          u.delta? = some d := by
  unfold updateFromBase at h
  split at h
  · cases h
    exact .inl rfl
  next hgeometry =>
    rw [not_or, not_ne_iff, not_ne_iff] at hgeometry
    obtain ⟨d, hd, h⟩ := bind_eq_ok_iff.1 h
    split at h
    · obtain ⟨transfer, htransfer, h⟩ := bind_eq_ok_iff.1 h
      cases transfer with
      | none =>
        cases h
        exact .inl rfl
      | some transfer =>
        cases h
        exact .inr ⟨hgeometry, d, hd, congrArg some (ViewportTransfer.prepare_body htransfer)⟩
    · split at h
      · cases h
        exact .inr ⟨hgeometry, d, hd, rfl⟩
      · cases h
        exact .inl rfl

/-- A failure leaves the window as it was, and is not that of a second keyframe. -/
def Refuses (w : StreamingStateWindow) (e : String) (w' : StreamingStateWindow) : Prop :=
  w' = w ∧ e ≠ "a reliable keyframe is already in flight"

section

variable {α β : Type} {Q : β → StreamingStateWindow → Prop}

theorem wp_check_bind {x : Except String α} {f : α → InPlace.Method β} (hx : NotInFlight x)
    (h : ∀ a, x = .ok a → wp (f a) Q w.Refuses w) : wp (check x >>= f) Q w.Refuses w :=
  wp_bind.2 (wp_check h fun _ he => ⟨rfl, fun heq => hx (heq ▸ he)⟩)

theorem wp_require_bind {p : Prop} [Decidable p] {e : String} {f : Unit → InPlace.Method β}
    (he : e ≠ "a reliable keyframe is already in flight")
    (h : p → wp (f ()) Q w.Refuses w) : wp (require p e >>= f) Q w.Refuses w :=
  wp_bind.2 (wp_require h fun _ => ⟨rfl, he⟩)

theorem notInFlight_of_wp {m : InPlace.Method β} (h : wp m Q w.Refuses w) :
    NotInFlight (m.result w) := by
  intro herror
  obtain ⟨-, -, hne⟩ := of_wp_result_error h herror
  exact hne rfl

end

theorem installKeyframe_spec {Q : Option StreamingUpdate → StreamingStateWindow → Prop}
    (hacked : w.baseAcknowledged = true)
    (h : validateViewportState lib.graphemeCount latest = .ok () →
      Q (some (.reliableKeyframe latest)) (w.installed latest)) :
    wp (some <$> InPlace.installKeyframe lib latest) Q w.Refuses w := by
  refine wp_bind.2 (wp_check_bind validateViewportState_notInFlight fun _ hvalid => ?_)
  rw [wp_bind, wp_gets, hacked]
  exact h hvalid

theorem installKeyframe_result (hvalid : validateViewportState lib.graphemeCount latest = .ok ())
    (hacked : w.baseAcknowledged = true) :
    (some <$> InPlace.installKeyframe lib latest).result w =
      .ok (some (.reliableKeyframe latest), w.installed latest) := by
  simp only [InPlace.installKeyframe, hvalid, result, Functor.map, bind, andThen, check, gets,
    hacked]
  rfl

/-- With an acknowledged base the state is sent as a delta or becomes the base; either way it is
the latest target. -/
theorem sendLatest_spec (hacked : w.baseAcknowledged = true) (hnews : w.IsNews latest) :
    wp (InPlace.sendLatest lib latest budget)
      (fun update w' => Sends lib w (some latest) update w' ∧ w'.latestTarget = some latest ∧
        update ≠ none) w.Refuses w := by
  rw [InPlace.sendLatest, wp_bind, wp_gets, id_eq]
  split
  · exact installKeyframe_spec hacked fun hvalid =>
      ⟨.keyframe latest rfl hnews hacked hvalid, rfl, Option.some_ne_none _⟩
  next hepoch =>
    refine wp_check_bind updateFromBase_notInFlight fun u hu => ?_
    rcases updateFromBase_cases hu with rfl | ⟨hgeometry, d, hd, hud⟩
    · exact installKeyframe_spec hacked fun hvalid =>
        ⟨.keyframe latest rfl hnews hacked hvalid, rfl, Option.some_ne_none _⟩
    · cases u with
      | reliableKeyframe state => cases hud
      | datagramDelta d' | fragmentedDelta transfer =>
        exact ⟨.delta latest _ d rfl hnews hacked (not_ne_iff.1 hepoch) hgeometry hd hud, rfl,
          Option.some_ne_none _⟩

theorem isNews_of_not_isStale (h : ¬ w.isStale latest) : w.IsNews latest := by
  intro hepoch
  rw [isStale, not_and, not_or, not_or] at h
  obtain ⟨h1, h2, -⟩ := h hepoch
  exact ⟨by omega, by omega⟩

/-- A state that is not sent is stale or waits for the acknowledgement of the base. -/
theorem prepareUpdate_spec :
    wp (InPlace.prepareUpdate lib latest budget)
      (fun update w' => validateViewportState lib.graphemeCount latest = .ok () ∧
        Sends lib w (some latest) update w' ∧
        (w.isStale latest ∧ w' = w ∨ w'.latestTarget = some latest) ∧
        (update = none → w.isStale latest ∨ ¬ w.isStale latest ∧ w.baseAcknowledged = false ∧
          w' = { w with latestTarget := some latest })) w.Refuses w := by
  refine wp_check_bind validateViewportState_notInFlight fun _ hvalid => ?_
  rw [wp_bind, wp_gets, id_eq]
  split
  next hstale => exact ⟨hvalid, .unchanged, .inl ⟨hstale, rfl⟩, fun _ => .inl hstale⟩
  next hstale =>
    have hnews := isNews_of_not_isStale hstale
    split
    next hacked =>
      exact ⟨hvalid, .pend latest rfl hnews hacked, .inr rfl, fun _ => .inr ⟨hstale, hacked, rfl⟩⟩
    next hacked =>
      exact wp_mono (sendLatest_spec (by simpa using hacked) hnews)
        (fun _ _ h => ⟨hvalid, h.1, .inr h.2.1, fun hnone => absurd hnone h.2.2⟩) fun _ _ h => h

/-- A latest target that the base has not reached is news. -/
theorem isNews_of_latestTarget (hlatest : w.latestTarget = some latest)
    (h : ¬ (latest.epoch = w.base.epoch ∧ latest.generation ≤ w.base.generation)) :
    w.IsNews latest := by
  intro hepoch
  have hgen : ¬ latest.generation ≤ w.base.generation := fun hle => h ⟨hepoch, hle⟩
  refine ⟨by omega, ?_⟩
  rw [latestGeneration, hlatest]

theorem retryLatest_spec :
    wp (InPlace.retryLatest lib budget) (Sends lib w w.latestTarget) w.Refuses w := by
  rw [InPlace.retryLatest, wp_bind, wp_gets, id_eq]
  cases hlatest : w.latestTarget with
  | none => exact .unchanged
  | some latest =>
    dsimp only
    split
    next hreached => exact .clear latest hlatest hreached
    next hreached =>
      split
      · exact .unchanged
      next hacked =>
        exact wp_mono
          (sendLatest_spec (by simpa using hacked) (isNews_of_latestTarget hlatest hreached))
          (fun _ _ h => h.1) fun _ _ h => h

/-- Besides what it can do, `rekey_latest` returns nothing only when nothing newer waits. -/
theorem rekeyLatest_spec :
    wp (InPlace.rekeyLatest lib) (fun update w' => Sends lib w w.latestTarget update w' ∧
      (w.baseAcknowledged = true → update = none →
        w' = { w with latestTarget := none } ∧ ∀ latest ∈ w.latestTarget,
          latest.epoch = w.base.epoch ∧ latest.generation ≤ w.base.generation)) w.Refuses w := by
  rw [InPlace.rekeyLatest, wp_bind, wp_gets, id_eq]
  split
  next hacked => exact ⟨.unchanged, fun htrue => absurd htrue (by simp [hacked])⟩
  next hacked =>
    cases hlatest : w.latestTarget with
    | none =>
      refine ⟨.unchanged, fun _ _ => ⟨?_, fun _ hmem => by cases hmem⟩⟩
      rw [← hlatest]
    | some latest =>
      dsimp only
      split
      next hreached =>
        refine ⟨.clear latest hlatest hreached, fun _ _ => ⟨rfl, ?_⟩⟩
        intro latest' hmem
        cases hmem
        exact hreached
      next hreached =>
        rw [Bool.not_eq_false] at hacked
        exact installKeyframe_spec hacked fun hvalid =>
          ⟨.keyframe latest rfl (isNews_of_latestTarget hlatest hreached) hacked hvalid,
            fun _ hnone => by cases hnone⟩

theorem repair_spec {request : TerminalStateRepairRequest} :
    wp (InPlace.repair lib request) (Sends lib w w.latestTarget) w.Refuses w := by
  refine wp_require_bind (by decide) fun _ => wp_require_bind (by decide) fun _ =>
    wp_require_bind (by decide) fun _ => ?_
  rw [wp_bind, wp_gets, id_eq]
  split
  · exact .unchanged
  refine wp_require_bind (by decide) fun _ => wp_require_bind (by decide) fun _ => ?_
  split
  · exact .unchanged
  next hacked =>
    refine wp_seq rekeyLatest_spec (fun _ _ h => h) fun update w' h => ?_
    obtain ⟨hsends, hnone⟩ := h
    cases update with
    | some u => exact hsends
    | none =>
      have htrue : w.baseAcknowledged = true := by simpa using hacked
      obtain ⟨rfl, hreached⟩ := hnone htrue rfl
      exact .resend htrue hreached

/-! ## Acknowledgements -/

/-- Everything an accepted or duplicate acknowledgement can do. -/
inductive Acknowledges (w : StreamingStateWindow) (ack : TerminalStateAck) :
    StreamingStateWindow → Prop
  | retired (hretired : ack.epoch ∈ w.retiredEpochs) : Acknowledges w ack w
  /-- The base or an older generation. -/
  | old (hepoch : ack.epoch = w.base.epoch) (hgen : ack.generation ≤ w.base.generation) :
      Acknowledges w ack { w with
        baseAcknowledged := w.baseAcknowledged || ack.generation = w.base.generation
        latestTarget := w.latestAfterAck ack }
  /-- A generation that is no longer retained. -/
  | evicted (hepoch : ack.epoch = w.base.epoch) (hsent : w.sent.get? ack.generation = none) :
      Acknowledges w ack w
  /-- A retained generation becomes the base. -/
  | advance (acknowledged : State) (hepoch : ack.epoch = w.base.epoch)
      (hgen : w.base.generation < ack.generation)
      (hsent : w.sent.get? ack.generation = some acknowledged) :
      Acknowledges w ack { w with
        base := acknowledged
        baseAcknowledged := true
        sent := w.sent.retain fun generation => ack.generation ≤ generation
        latestTarget := w.latestAfterAck ack }

theorem acknowledge_spec {ack : TerminalStateAck} :
    wp (InPlace.acknowledge ack) (fun _ => Acknowledges w ack) w.Refuses w := by
  refine wp_require_bind (by decide) fun _ => wp_require_bind (by decide) fun _ => ?_
  rw [wp_bind, wp_gets, id_eq]
  split
  next hretired => exact .retired hretired
  split
  next hold => exact .old hold.1 hold.2
  next hnew =>
    refine wp_require_bind (by decide) fun hepoch => ?_
    cases hsent : w.sent.get? ack.generation with
    | none => exact wp_require_bind (by decide) fun _ => .evicted hepoch hsent
    | some acknowledged =>
      refine .advance acknowledged hepoch ?_ hsent
      by_contra hle
      exact hnew ⟨hepoch, not_lt.1 hle⟩

theorem acknowledge_cases {ack : TerminalStateAck} {disposition : AckDisposition}
    (h : w.acknowledge ack = .ok (disposition, w')) : Acknowledges w ack w' :=
  of_wp_result (Q := fun _ => Acknowledges w ack) acknowledge_spec h

/-- An acknowledgement is not an error when it names a retired epoch, or a generation of the base's
epoch that the window has prepared. -/
theorem acknowledge_ok {ack : TerminalStateAck} (hlen : ack.epoch.length = epochBytes)
    (hpos : 0 < ack.generation)
    (h : ack.epoch ∈ w.retiredEpochs ∨ (ack.epoch = w.base.epoch ∧
      (ack.generation ≤ w.base.generation ∨ ack.generation ≤ w.latestGeneration))) :
    ∃ r, w.acknowledge ack = .ok r := by
  rw [acknowledge, InPlace.acknowledge, result_require_bind hlen, result_require_bind hpos,
    result_gets_bind, id_eq]
  by_cases hretired : ack.epoch ∈ w.retiredEpochs
  · rw [if_pos hretired]
    exact ⟨_, rfl⟩
  obtain ⟨hepoch, hgen⟩ := h.resolve_left hretired
  rw [if_neg hretired]
  by_cases hold : ack.epoch = w.base.epoch ∧ ack.generation ≤ w.base.generation
  · rw [if_pos hold]
    exact ⟨_, rfl⟩
  rw [if_neg hold]
  have hlatest : ack.generation ≤ w.latestGeneration :=
    hgen.resolve_left fun hle => hold ⟨hepoch, hle⟩
  rw [result_require_bind hepoch]
  cases w.sent.get? ack.generation with
  | none =>
    dsimp only
    rw [result_require_bind hlatest]
    exact ⟨_, rfl⟩
  | some acknowledged => exact ⟨_, rfl⟩

end

/-! ## The retained generations -/

section

variable {w : StreamingStateWindow} {state : State}

@[simp] theorem remember_base : (w.remember state).base = w.base := rfl

@[simp] theorem remember_latestTarget :
    (w.remember state).latestTarget = some state := rfl

@[simp] theorem remember_retiredEpochs :
    (w.remember state).retiredEpochs = w.retiredEpochs := rfl

theorem get?_remember {k : Nat} {v : State} (h : (w.remember state).sent.get? k = some v) :
    (k = state.generation ∧ v = state) ∨ w.sent.get? k = some v :=
  get?_insert_cases (get?_of_get?_trim h)

/-- The generation after the base is the one to remove. -/
theorem removable_eq (sent : OrdMap Nat State) (base state : State)
    (hbase : base.generation ∈ sent.support) (hle : ∀ k ∈ sent.support, base.generation ≤ k)
    (hlt : base.generation < state.generation) (hmem : state.generation ∈ sent.support) :
    ∃ m ∈ sent.support, m ≠ base.generation ∧
      (∀ k ∈ sent.support, k ≠ base.generation → m ≤ k) ∧ removable base sent = some m := by
  have hfirst : (sent.firstKey? fun _ => true) = some base.generation :=
    (firstKey?_eq_some_iff _ _ _).2 ⟨hbase, rfl, fun k hk _ => hle k hk⟩
  cases hnext : sent.firstKey? fun generation => decide (base.generation + 1 ≤ generation) with
  | none =>
    have hnone := (firstKey?_eq_none_iff _ _).1 hnext _ hmem
    rw [decide_eq_false_iff_not] at hnone
    omega
  | some m =>
    obtain ⟨hm, hgt, hmin⟩ := (firstKey?_eq_some_iff _ _ _).1 hnext
    rw [decide_eq_true_iff] at hgt
    refine ⟨m, hm, by omega, fun k hk hne => ?_, ?_⟩
    · have := hle k hk
      exact hmin k hk (by rw [decide_eq_true_iff]; omega)
    · rw [removable, hfirst]
      simpa using hnext

/-- A map that is trimmed after a state was added: at most the oldest generation other than `keep`
goes. -/
theorem evicts_trim {cap keep : Nat} {m : OrdMap Nat State} {pick : OrdMap Nat State → Option Nat}
    (hsize : m.support.card ≤ cap)
    (hpick : (m.insert state.generation state).size = cap + 1 →
      ∃ k ∈ (m.insert state.generation state).support, k ≠ keep ∧
        (∀ j ∈ (m.insert state.generation state).support, j ≠ keep → k ≤ j) ∧
        pick (m.insert state.generation state) = some k) :
    Cumulative.Evicts cap keep (insert state.generation m.support)
      (trim cap pick (m.insert state.generation state).size
        (m.insert state.generation state)).support := by
  rw [← support_insert m state.generation state]
  have hcard := size_insert_le m state.generation state
  rw [card_support] at hsize
  rcases Nat.lt_or_ge cap (m.insert state.generation state).size with hfull | hfits
  · have heq : (m.insert state.generation state).size = cap + 1 := by omega
    obtain ⟨k, hk, hne, hmin, hpick⟩ := hpick heq
    refine .inr ⟨by rw [card_support, heq], k, hk, hne, hmin, ?_⟩
    rw [← support_erase, heq, trim_of_size_eq_succ heq hpick hk]
  · refine .inl ⟨by rw [card_support]; exact hfits, ?_⟩
    rw [trim_of_size_le hfits]

/-- Remembering a newer generation forgets at most the oldest one other than the base. -/
theorem remember_evicts (hbase : w.base.generation ∈ w.sent.support)
    (hle : ∀ k ∈ w.sent.support, w.base.generation ≤ k)
    (hsize : w.sent.support.card ≤ w.retainedGenerations)
    (hlt : w.base.generation < state.generation) :
    Cumulative.Evicts w.retainedGenerations w.base.generation
      (insert state.generation w.sent.support) (w.remember state).sent.support := by
  refine evicts_trim hsize fun _ => removable_eq _ w.base state ?_ ?_ hlt ?_ <;>
    rw [support_insert]
  · exact Finset.mem_insert_of_mem hbase
  · exact (Finset.forall_mem_insert ..).2 ⟨hlt.le, hle⟩
  · exact Finset.mem_insert_self _ _

/-- An installed keyframe is the only generation retained. -/
theorem installed_sent (hpos : 0 < w.retainedGenerations) :
    (w.installed state).sent = empty.insert state.generation state := by
  have hsize : (empty.insert state.generation state).size ≤ w.retainedGenerations :=
    (size_insert_le _ _ _).trans (by rw [size_empty]; omega)
  rw [installed, remember]
  exact trim_of_size_le hsize _

theorem installed_retiredEpochs_of_eq (h : w.base.epoch = state.epoch) :
    (w.installed state).retiredEpochs = w.retiredEpochs := by
  simp [installed, h]

/-- The epoch that a keyframe leaves is the last one retired. -/
theorem getLast?_installed_retiredEpochs (h : w.base.epoch ≠ state.epoch) :
    (w.installed state).retiredEpochs.getLast? = some w.base.epoch := by
  simp only [installed, remember_retiredEpochs, h, ne_eq, not_false_eq_true, if_true]
  split
  next hlong =>
    cases hretired : w.retiredEpochs with
    | nil =>
      rw [hretired] at hlong
      exact absurd hlong (by simp [defaultRetainedGenerations])
    | cons e es => simp
  · simp

theorem installed_retiredEpochs_subset {e : Bytes} (h : e ∈ (w.installed state).retiredEpochs) :
    e ∈ w.retiredEpochs ∨ e = w.base.epoch := by
  simp only [installed, remember_retiredEpochs] at h
  split at h
  · split at h
    · have := List.mem_of_mem_tail h
      simpa using this
    · simpa using h
  · exact .inl h

end

end StreamingStateWindow

end AstraShell.Streaming
