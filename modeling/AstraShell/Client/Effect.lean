import AstraShell.Client.Live

/-!
# What a step of a live session does

`Effect` says what a step of either task does to the calls, the queue and the log of the input that
attachments were given, `Turn` what it does to the incarnation and the status, and `Screen` what the
driver does to what the consumer reads. The driver is taken apart once for all three
(`driven_drive`), and every invariant of a session is read off them.
-/

set_option autoImplicit false

namespace AstraShell.Client

open Lib Lib.Temporal

/-- The driver has returned. -/
def Phase.closed : Phase → Bool
  | .ended _ | .closing => true
  | _ => false

/-- There is an attachment, or there was one until now. -/
def Phase.attached : Phase → Bool
  | .installed | .serving | .published | .sending _ | .failed _ => true
  | _ => false

def Phase.recovers : Phase → Bool
  | .recovering _ | .polled _ => true
  | _ => false

/-- No input is handed over until there is another attachment, if ever. -/
def Phase.over : Phase → Bool
  | .failed _ | .ended _ | .closing => true
  | _ => false

/-- A change of phase that keeps what `Numbered` says. -/
structure Phase.Quiet (phase phase' : Phase) : Prop where
  attached : phase'.attached = true → phase.attached = true
  recovers : phase'.recovers = true → phase.recovers = true
  finished : phase.over = true → phase'.over = true

theorem Phase.Quiet.refl (phase : Phase) : Phase.Quiet phase phase := ⟨id, id, id⟩

theorem Phase.Quiet.ended (phase : Phase) (result : Except AttachError Unit) :
    Phase.Quiet phase (.ended result) := ⟨nofun, nofun, fun _ => rfl⟩

namespace LiveSession

variable {S P : Type}

/-! ## Calls by index -/

def stageOf (calls : List Call) (i : ℕ) : Option Stage := calls[i]?.map Call.stage

def kindOf (calls : List Call) (i : ℕ) : Option ActionKind := calls[i]?.bind Call.kind

section Calls

variable {calls : List Call} {i j : ℕ} {stage : Stage} {call : Call}

theorem getElem?_setStage (calls : List Call) (i : ℕ) (stage : Stage) (j : ℕ) :
    (setStage calls i stage)[j]? =
      if i = j then calls[j]?.map (fun call => { call with stage := stage }) else calls[j]? := by
  rw [setStage, List.getElem?_modify]
  split
  · rfl
  · exact id_map _

@[simp] theorem kindOf_setStage (calls : List Call) (i : ℕ) (stage : Stage) (j : ℕ) :
    kindOf (setStage calls i stage) j = kindOf calls j := by
  rw [kindOf, getElem?_setStage]
  split
  · cases h : calls[j]? <;> simp [kindOf, h]
  · rfl

theorem stageOf_setStage_self {old : Stage} (h : stageOf calls i = some old) :
    stageOf (setStage calls i stage) i = some stage := by
  rw [stageOf, getElem?_setStage, if_pos rfl]
  cases hcall : calls[i]? with
  | none => simp [stageOf, hcall] at h
  | some call => rfl

theorem stageOf_setStage_ne (h : i ≠ j) : stageOf (setStage calls i stage) j = stageOf calls j := by
  rw [stageOf, getElem?_setStage, if_neg h, stageOf]

@[simp] theorem length_setStage (calls : List Call) (i : ℕ) (stage : Stage) :
    (setStage calls i stage).length = calls.length := by
  rw [setStage, List.length_modify]

theorem lt_length_of_stageOf (h : stageOf calls i = some stage) : i < calls.length := by
  by_contra hle
  rw [stageOf, List.getElem?_eq_none (Nat.le_of_not_lt hle)] at h
  cases h

theorem stageOf_append (h : i < calls.length) (more : List Call) :
    stageOf (calls ++ more) i = stageOf calls i := by
  rw [stageOf, List.getElem?_append_left h, stageOf]

theorem kindOf_append (h : i < calls.length) (more : List Call) :
    kindOf (calls ++ more) i = kindOf calls i := by
  rw [kindOf, List.getElem?_append_left h, kindOf]

/-- The calls of a queue that is dropped. -/
def dropAll (calls : List Call) (commands : List Command) : List Call :=
  commands.foldl
    (fun calls command => setStage calls command.call
      (.answered (.error "streaming session ended")))
    calls

theorem kindOf_dropAll (commands : List Command) (calls : List Call) (j : ℕ) :
    kindOf (dropAll calls commands) j = kindOf calls j := by
  induction commands generalizing calls with
  | nil => rfl
  | cons command rest ih => exact (ih _).trans (kindOf_setStage _ _ _ _)

theorem stageOf_dropAll_of_notMem (commands : List Command) (calls : List Call)
    (h : j ∉ commands.map Command.call) : stageOf (dropAll calls commands) j = stageOf calls j := by
  induction commands generalizing calls with
  | nil => rfl
  | cons command rest ih =>
    rw [List.map_cons, List.mem_cons, not_or] at h
    exact (ih _ h.2).trans (stageOf_setStage_ne (Ne.symm h.1))

theorem stageOf_dropAll_of_mem (commands : List Command) (calls : List Call)
    (hj : (stageOf calls j).isSome) (h : j ∈ commands.map Command.call) :
    stageOf (dropAll calls commands) j =
      some (.answered (.error "streaming session ended")) := by
  induction commands generalizing calls with
  | nil => cases h
  | cons command rest ih =>
    obtain ⟨old, hold⟩ := Option.isSome_iff_exists.1 hj
    by_cases hcall : command.call = j
    · subst hcall
      have hset : stageOf (setStage calls command.call
          (.answered (.error "streaming session ended"))) command.call =
            some (.answered (.error "streaming session ended")) := stageOf_setStage_self hold
      by_cases hrest : command.call ∈ rest.map Command.call
      · exact ih _ (Option.isSome_iff_exists.2 ⟨_, hset⟩) hrest
      · exact (stageOf_dropAll_of_notMem rest _ hrest).trans hset
    · refine ih _ ?_ ((List.mem_cons.1 h).resolve_left (Ne.symm hcall))
      rwa [stageOf_setStage_ne hcall]

end Calls

/-! ## Effects -/

/-- What a step does to the calls, the queue and the log. -/
inductive Effect (s : LiveSession S P) (a : LiveEvent S P) (s' : LiveSession S P) : Prop where
  | kept (hcalls : s'.calls = s.calls) (hcommands : s'.commands = s.commands)
      (hhanded : s'.handed = s.handed)
      (hsending : ∀ command, s'.phase = .sending command → s.phase = .sending command)
  | called (request : Request) (ha : a = .call request)
      (hcalls : s'.calls = s.calls ++ [s.prepare request])
      (hcommands : s'.commands = s.commands) (hhanded : s'.handed = s.handed)
      (hphase : s'.phase = s.phase)
  | submitted (i : ℕ) (kind : ActionKind) (hready : stageOf s.calls i = some .ready)
      (hkind : kindOf s.calls i = some kind) (hcalls : s'.calls = setStage s.calls i .queued)
      (hcommands : s'.commands = s.commands ++ [⟨i, kind⟩]) (hhanded : s'.handed = s.handed)
      (hphase : s'.phase = s.phase)
  | refused (i : ℕ) (e : String) (hready : stageOf s.calls i = some .ready)
      (hcalls : s'.calls = setStage s.calls i (.answered (.error e)))
      (hcommands : s'.commands = s.commands) (hhanded : s'.handed = s.handed)
      (hphase : s'.phase = s.phase)
  | popped (command : Command) (result : Except String Unit)
      (hpop : s.commands = command :: s'.commands)
      (hcalls : s'.calls = setStage s.calls command.call (.answered result))
      (hhanded : s'.handed = s.handed) (hsending : ∀ command', s'.phase ≠ .sending command')
      (hinput : ∀ k bytes, command.kind = .input k bytes → ∃ e, result = .error e)
  | taken (command : Command) (hpop : s.commands = command :: s'.commands)
      (hcalls : s'.calls = setStage s.calls command.call .taken)
      (hphase : s.phase = .serving) (hphase' : s'.phase = .sending command)
      (hhanded : (∃ bytes, command.kind = .input s.incarnation bytes ∧
          s'.handed = s.handed ++ [⟨s.attachments, command.call, bytes⟩]) ∨
        (∀ k bytes, command.kind ≠ .input k bytes) ∧ s'.handed = s.handed)
  | completed (command : Command) (result : Except String Unit)
      (hphase : s.phase = .sending command)
      (hcalls : s'.calls = setStage s.calls command.call (.answered result))
      (hcommands : s'.commands = s.commands) (hhanded : s'.handed = s.handed)
      (hsending : ∀ command', s'.phase ≠ .sending command')
  | dropped (hcalls : s'.calls = dropAll s.calls s.commands) (hcommands : s'.commands = [])
      (hhanded : s'.handed = s.handed) (hsending : ∀ command', s'.phase ≠ .sending command')

theorem Effect.of_phase {s s' : LiveSession S P} {a : LiveEvent S P} (hcalls : s'.calls = s.calls)
    (hcommands : s'.commands = s.commands) (hhanded : s'.handed = s.handed)
    (hphase : ∀ command, s'.phase ≠ .sending command) : Effect s a s' :=
  .kept hcalls hcommands hhanded fun command h => absurd h (hphase command)

theorem Effect.refl (s : LiveSession S P) (a : LiveEvent S P) : Effect s a s :=
  .kept rfl rfl rfl fun _ h => h

/-- The least incarnation of input that can still be handed to an attachment. -/
def horizon (s : LiveSession S P) : ℕ := s.incarnation + s.phase.over.toNat

/-- What a step does to the incarnation and the status. -/
inductive Turn (s s' : LiveSession S P) : Prop where
  | same (hincarnation : s'.incarnation = s.incarnation)
      (hattachments : s'.attachments = s.attachments)
      (hstatus : s'.status.value = s.status.value) (hphase : s.phase.Quiet s'.phase)
  | live (hphase : s.phase = .published) (hincarnation : s'.incarnation = s.incarnation)
      (hattachments : s'.attachments = s.attachments)
      (hstatus : s'.status.value = .live s.incarnation) (hphase' : s'.phase = .serving)
  | lost (attempt : ℕ) (error : AttachError) (hphase : s.phase = .failed error)
      (hincarnation : s'.incarnation = s.incarnation + 1)
      (hattachments : s'.attachments = s.attachments)
      (hstatus : ∀ k, s'.status.value ≠ .live k) (hphase' : s'.phase = .recovering attempt)
  | again (attempt attempt' : ℕ) (hphase : s.phase = .polled attempt)
      (hincarnation : s'.incarnation = s.incarnation)
      (hattachments : s'.attachments = s.attachments)
      (hstatus : ∀ k, s'.status.value ≠ .live k) (hphase' : s'.phase = .recovering attempt')
  | restored (attempt : ℕ) (hphase : s.phase = .polled attempt)
      (hincarnation : s'.incarnation = s.incarnation)
      (hattachments : s'.attachments = s.attachments + 1)
      (hstatus : ∀ k, s'.status.value ≠ .live k) (hphase' : s'.phase = .installed)

theorem Turn.refl (s : LiveSession S P) : Turn s s := .same rfl rfl rfl (.refl _)

/-- A step from a phase with an attachment to another one. -/
theorem Turn.of_attached {s s' : LiveSession S P} (hincarnation : s'.incarnation = s.incarnation)
    (hattachments : s'.attachments = s.attachments) (hstatus : s'.status.value = s.status.value)
    {phase : Phase} (hphase : s.phase = phase) (hattached : phase.attached = true)
    (hover : phase.over = false) (hrecovers : s'.phase.recovers = false) : Turn s s' := by
  subst hphase
  refine .same hincarnation hattachments hstatus ⟨fun _ => hattached, ?_, ?_⟩
  · simp [hrecovers]
  · simp [hover]

/-- What a step of the driver does to what the consumer reads. -/
structure Screen (s s' : LiveSession S P) : Prop where
  waiter : s'.waiter = s.waiter
  seen : s'.seenStates = s.seenStates
  closed : s.phase.closed = true → s'.phase.closed = true
  states : s'.states.value = s.states.value ∧ s'.states.version = s.states.version ∨
    s.phase = .serving ∧ ∃ state, s'.states = s.states.send (some state)
  exited : ∀ code, .ok (.exited code) ∈ s'.events →
    .ok (.exited code) ∈ s.events ∨ s'.phase.closed = true
  finished : s'.finished = true → s.finished = true ∨ s'.phase.closed = true

theorem Screen.refl (s : LiveSession S P) : Screen s s :=
  ⟨rfl, rfl, id, .inl ⟨rfl, rfl⟩, fun _ h => .inl h, fun h => .inl h⟩

/-- A step that leaves the channels of the consumer alone. -/
theorem Screen.of_same {s s' : LiveSession S P} (hwaiter : s'.waiter = s.waiter)
    (hseen : s'.seenStates = s.seenStates) (hstates : s'.states = s.states)
    (hevents : s'.events = s.events) (hfinished : s'.finished = s.finished) {phase : Phase}
    (hphase : s.phase = phase) (hclosed : phase.closed = true → s'.phase.closed = true) :
    Screen s s' := by
  subst hphase
  refine ⟨hwaiter, hseen, hclosed, .inl ⟨by rw [hstates], by rw [hstates]⟩, ?_, ?_⟩
  · intro code h
    rw [hevents] at h
    exact .inl h
  · intro h
    rw [hfinished] at h
    exact .inl h

/-! ## Steps of the driver -/

/-- What a step of the driver does to everything that an invariant reads. -/
structure Driven (s : LiveSession S P) (event : DriverEvent S P) (s' : LiveSession S P) : Prop where
  effect : Effect s (.driver event) s'
  turn : Turn s s'
  screen : Screen s s'

section Driven

variable {s : LiveSession S P} {event : DriverEvent S P} {command : Command} {rest : List Command}
  {size : Option Size} {phase : Phase}

theorem Driven.refl (s : LiveSession S P) (event : DriverEvent S P) : Driven s event s :=
  ⟨.refl s _, .refl s, .refl s⟩

/-- The driver goes to another phase and does nothing else. -/
theorem Driven.moved {phase' : Phase} (hphase : s.phase = phase) (hquiet : phase.Quiet phase')
    (hopen : phase.closed = true → phase'.closed = true)
    (hsending : ∀ command, phase' ≠ .sending command) : Driven s event { s with phase := phase' } :=
  ⟨.of_phase rfl rfl rfl hsending, .same rfl rfl rfl (hphase ▸ hquiet),
    .of_same rfl rfl rfl rfl rfl hphase hopen⟩

/-- A command is answered at once. -/
theorem Driven.answered {result : Except String Unit} (hpop : s.commands = command :: rest)
    (hphase : ∀ command', s.phase ≠ .sending command')
    (hinput : ∀ k bytes, command.kind = .input k bytes → ∃ e, result = .error e) :
    Driven s event { s.answer command.call result with commands := rest, size := size } :=
  ⟨.popped command result hpop rfl rfl hphase hinput, .same rfl rfl rfl (.refl _),
    .of_same rfl rfl rfl rfl rfl rfl id⟩

/-- A command is handed to the attachment. -/
theorem Driven.taken {handed : List Handed} (hphase : s.phase = .serving)
    (hpop : s.commands = command :: rest)
    (hhanded : (∃ bytes, command.kind = .input s.incarnation bytes ∧
        handed = s.handed ++ [⟨s.attachments, command.call, bytes⟩]) ∨
      (∀ k bytes, command.kind ≠ .input k bytes) ∧ handed = s.handed) :
    Driven s event { s with
      phase := .sending command, calls := setStage s.calls command.call .taken
      commands := rest, size := size, handed := handed } :=
  ⟨.taken command hpop rfl hphase rfl hhanded, .of_attached rfl rfl rfl hphase rfl rfl rfl,
    .of_same rfl rfl rfl rfl rfl hphase nofun⟩

theorem driven_perform (hphase : s.phase = .serving) (hpop : s.commands = command :: rest) :
    Driven s event ({ s with commands := rest }.perform command) := by
  have hsending : ∀ command', s.phase ≠ .sending command' := by simp [hphase]
  unfold perform
  cases hkind : command.kind with
  | input incarnation bytes =>
    dsimp only
    split
    · exact .answered hpop hsending fun _ _ _ => ⟨_, rfl⟩
    next heq =>
      obtain rfl := not_not.1 heq
      exact .taken hphase hpop (.inl ⟨bytes, hkind, rfl⟩)
  | resize size =>
    dsimp only
    split
    · exact .answered hpop hsending (by simp [hkind])
    · exact .taken hphase hpop (.inr ⟨by simp [hkind], rfl⟩)
  | history | detach => exact .taken hphase hpop (.inr ⟨by simp [hkind], rfl⟩)

theorem driven_discard {attempt : ℕ} (hphase : s.phase = .recovering attempt)
    (hpop : s.commands = command :: rest) :
    Driven s event ({ s with commands := rest }.discard command) := by
  have hsending : ∀ command', s.phase ≠ .sending command' := by simp [hphase]
  unfold discard
  cases hkind : command.kind with
  | input incarnation bytes | history => exact .answered hpop hsending fun _ _ _ => ⟨_, rfl⟩
  | resize size => exact .answered hpop hsending (by simp [hkind])
  | detach =>
    exact ⟨.popped command _ hpop rfl rfl nofun (by simp [hkind]), .same rfl rfl rfl (.ended _ _),
      .of_same rfl rfl rfl rfl rfl hphase nofun⟩

/-- An event of the attachment, which is queued when there is room. -/
theorem driven_forward {e : ControlEvent P} (hphase : s.phase = .serving) :
    Driven s event (s.forward e) := by
  unfold forward
  dsimp only
  split
  · refine ⟨.of_phase rfl rfl rfl ?_, .of_attached rfl rfl rfl hphase rfl rfl ?_,
      rfl, rfl, ?_, .inl ⟨rfl, rfl⟩, ?_, .inl⟩
    · intro command
      split <;> nofun
    · dsimp only
      split <;> rfl
    · rw [hphase]
      nofun
    · intro code hmem
      rcases List.mem_append.1 hmem with hold | hnew
      · exact .inl hold
      · cases List.mem_singleton.1 hnew
        exact .inr rfl
  · exact ⟨.of_phase rfl rfl rfl nofun, .same rfl rfl rfl (.ended _ _),
      .of_same rfl rfl rfl rfl rfl hphase nofun⟩

theorem driven_dropNext (hphase : s.phase = .closing) : Driven s event s.dropNext := by
  have hsending : ∀ command', s.phase ≠ .sending command' := by simp [hphase]
  have hclosed : s.phase.closed = true := by rw [hphase]; rfl
  have hscreen : ∀ s' : LiveSession S P, s'.waiter = s.waiter → s'.seenStates = s.seenStates →
      s'.phase = s.phase → s'.states.value = s.states.value ∧ s'.states.version = s.states.version →
      s'.events = s.events → Screen s s' := by
    intro s' hwaiter hseen hphase' hstates hevents
    refine ⟨hwaiter, hseen, ?_, .inl hstates, ?_, ?_⟩
    · rw [hphase']
      exact id
    · rw [hevents]
      exact fun _ => .inl
    · rw [hphase']
      exact fun _ => .inr hclosed
  unfold dropNext
  -- Whichever field is dropped next, it is none of those that an invariant reads.
  split_ifs
  all_goals
    exact ⟨.of_phase rfl rfl rfl hsending, .same rfl rfl rfl (.refl _),
      hscreen _ rfl rfl rfl ⟨rfl, rfl⟩ rfl⟩

theorem driven_drive (s : LiveSession S P) (event : DriverEvent S P) :
    Driven s event (s.drive event) := by
  cases event with
  | resized result =>
    unfold drive
    dsimp only
    split
    next hphase =>
      split
      · split
        · exact .moved hphase ⟨fun _ => rfl, nofun, nofun⟩ nofun nofun
        · exact .moved hphase ⟨fun _ => rfl, nofun, nofun⟩ nofun nofun
      · exact .moved hphase ⟨fun _ => rfl, nofun, nofun⟩ nofun nofun
    · exact .refl s _
  | state state =>
    rw [drive]
    split
    next hphase =>
      refine ⟨.of_phase rfl rfl rfl nofun, .of_attached rfl rfl rfl hphase rfl rfl rfl,
        rfl, rfl, ?_, .inr ⟨hphase, state, rfl⟩, fun _ h => .inl h, .inl⟩
      rw [hphase]
      nofun
    · exact .refl s _
  | publish =>
    rw [drive]
    split
    next hphase =>
      refine ⟨.of_phase rfl rfl rfl nofun, .live hphase rfl rfl ?_ rfl,
        .of_same rfl rfl rfl rfl rfl hphase nofun⟩
      split
      next hlive => exact hlive
      · rfl
    · exact .refl s _
  | control event =>
    rw [drive]
    split
    next hphase => exact driven_forward hphase
    · exact .refl s _
  | failure message =>
    rw [drive]
    split
    next hphase => exact .moved hphase ⟨fun _ => rfl, nofun, nofun⟩ nofun nofun
    · exact .refl s _
  | receive =>
    rw [drive]
    split
    next hphase hcommands => exact driven_perform hphase hcommands
    next hphase hcommands => exact driven_discard hphase hcommands
    next hphase _ => exact .moved hphase ⟨nofun, fun _ => rfl, nofun⟩ nofun nofun
    · exact .refl s _
  | unclaimed =>
    rw [drive]
    split
    next hphase _ => exact .moved hphase (.ended _ _) nofun nofun
    next hphase _ => exact .moved hphase (.ended _ _) nofun nofun
    · exact .refl s _
  | completed result =>
    rw [drive]
    split
    next command hphase =>
      refine ⟨.completed command result hphase rfl rfl rfl ?_,
        .of_attached rfl rfl rfl hphase rfl rfl ?_, .of_same rfl rfl rfl rfl rfl hphase nofun⟩
      · intro command'
        split <;> nofun
      · dsimp only
        split <;> rfl
    · exact .refl s _
  | recover random =>
    rw [drive]
    split
    next error hphase =>
      split
      · exact ⟨.of_phase rfl rfl rfl nofun, .lost 1 error hphase rfl rfl nofun rfl,
          .of_same rfl rfl rfl rfl rfl hphase nofun⟩
      · exact .moved hphase (.ended _ _) nofun nofun
    · exact .refl s _
  | attempted outcome random =>
    rw [drive]
    split
    next attempt hphase =>
      split
      · exact .moved hphase ⟨nofun, fun _ => rfl, nofun⟩ nofun nofun
      · exact ⟨.of_phase rfl rfl rfl nofun, .restored attempt hphase rfl rfl nofun rfl,
          .of_same rfl rfl rfl rfl rfl hphase nofun⟩
      · split
        · exact .moved hphase (.ended _ _) nofun nofun
        · exact ⟨.of_phase rfl rfl rfl nofun, .again attempt _ hphase rfl rfl nofun rfl,
            .of_same rfl rfl rfl rfl rfl hphase nofun⟩
    · exact .refl s _
  | settle =>
    rw [drive]
    split
    · exact ⟨.dropped rfl rfl rfl nofun, .same rfl rfl rfl ⟨nofun, nofun, fun _ => rfl⟩,
        rfl, rfl, fun _ => rfl, .inl ⟨rfl, rfl⟩, fun _ _ => .inr rfl, fun _ => .inr rfl⟩
    next hphase => exact driven_dropNext hphase
    · exact .refl s _

end Driven

/-- Waiting for an event touches neither the calls nor the driver. -/
theorem consume_kept (s : LiveSession S P) :
    s.consume.1.calls = s.calls ∧ s.consume.1.commands = s.commands ∧
      s.consume.1.handed = s.handed ∧ s.consume.1.phase = s.phase ∧
      s.consume.1.incarnation = s.incarnation ∧ s.consume.1.attachments = s.attachments ∧
      s.consume.1.status = s.status := by
  unfold consume
  split
  all_goals first
    | exact ⟨rfl, rfl, rfl, rfl, rfl, rfl, rfl⟩
    | (split <;> first
        | exact ⟨rfl, rfl, rfl, rfl, rfl, rfl, rfl⟩
        | (split <;> exact ⟨rfl, rfl, rfl, rfl, rfl, rfl, rfl⟩))

theorem effect_step (s : LiveSession S P) (a : LiveEvent S P) : Effect s a (s.step a) := by
  cases a with
  | driver event => exact (driven_drive s event).effect
  | call request => exact .called request rfl rfl rfl rfl rfl
  | submit i =>
    rw [step, submit]
    split
    next request kind hcall =>
      have hready : stageOf s.calls i = some .ready := by rw [stageOf, hcall]; rfl
      have hkind : kindOf s.calls i = some kind := by rw [kindOf, hcall]; rfl
      split
      · exact .submitted i kind hready hkind rfl rfl rfl rfl
      · exact .refused i _ hready rfl rfl rfl rfl
    · exact .refl s _
  | consume =>
    obtain ⟨hcalls, hcommands, hhanded, hphase, -⟩ := consume_kept s
    refine .kept hcalls hcommands hhanded ?_
    intro command h
    rwa [step, hphase] at h
  | cancel =>
    rw [step]
    split
    · exact .kept rfl rfl rfl fun _ h => h
    · exact .refl s _

theorem kindOf_step (s : LiveSession S P) (a : LiveEvent S P) (i : ℕ) :
    kindOf (s.step a).calls i = kindOf s.calls i ∨
      ∃ request, a = .call request ∧ i = s.calls.length ∧
        kindOf (s.step a).calls i = (s.prepare request).kind := by
  cases effect_step s a with
  | kept hcalls => rw [hcalls]; exact .inl rfl
  | called request ha hcalls =>
    rw [hcalls]
    rcases Nat.lt_trichotomy i s.calls.length with hlt | rfl | hgt
    · exact .inl (kindOf_append hlt _)
    · exact .inr ⟨request, ha, rfl, by simp [kindOf]⟩
    · left
      have hlength : (s.calls ++ [s.prepare request]).length ≤ i := by
        rw [List.length_append]
        exact hgt
      rw [kindOf, kindOf, List.getElem?_eq_none hlength, List.getElem?_eq_none hgt.le]
  | submitted j kind _ _ hcalls
  | refused j e _ hcalls
  | popped command result _ hcalls
  | taken command _ hcalls
  | completed command result _ hcalls => rw [hcalls, kindOf_setStage]; exact .inl rfl
  | dropped hcalls => rw [hcalls, kindOf_dropAll]; exact .inl rfl

/-- Only input of a live connection makes up a command of its incarnation. -/
theorem prepare_kind {s : LiveSession S P} {request : Request} {k : ℕ} {bytes : List UInt8}
    (h : (s.prepare request).kind = some (.input k bytes)) :
    request = .input bytes ∧ s.status.value = .live k := by
  unfold prepare at h
  cases request with
  | input bytes' =>
    dsimp only at h
    split at h
    · split at h
      next hlive =>
        cases h
        exact ⟨rfl, hlive⟩
      · cases h
    · cases h
  | resize size | history | detach => cases h

theorem prepare_not_queued (s : LiveSession S P) (request : Request) :
    (s.prepare request).stage ≠ .queued := by
  unfold prepare
  cases request with
  | input bytes =>
    dsimp only
    split
    · split <;> nofun
    · nofun
  | resize size | history | detach => nofun

/-! ## Incarnations -/

theorem turn_step (s : LiveSession S P) (a : LiveEvent S P) : Turn s (s.step a) := by
  cases a with
  | driver event => exact (driven_drive s event).turn
  | call request => exact .same rfl rfl rfl (.refl _)
  | submit i =>
    rw [step, submit]
    split
    · split
      · exact .same rfl rfl rfl (.refl _)
      · exact .same rfl rfl rfl (.refl _)
    · exact .refl s
  | consume =>
    obtain ⟨-, -, -, hphase, hincarnation, hattachments, hstatus⟩ := consume_kept s
    refine .same hincarnation hattachments (congrArg Watch.value hstatus) ?_
    rw [step, hphase]
    exact .refl _
  | cancel =>
    rw [step]
    split
    · exact .same rfl rfl rfl (.refl _)
    · exact .refl s

theorem horizon_le_step (s : LiveSession S P) (a : LiveEvent S P) :
    s.horizon ≤ (s.step a).horizon := by
  unfold horizon
  cases turn_step s a with
  | same hincarnation _ _ hphase =>
    rw [hincarnation]
    apply Nat.add_le_add_left
    cases hover : s.phase.over with
    | false => exact Nat.zero_le _
    | true => rw [hphase.finished hover]
  | live hphase hincarnation _ _ hphase'
  | lost attempt error hphase hincarnation _ _ hphase'
  | again attempt attempt' hphase hincarnation _ _ hphase'
  | restored attempt hphase hincarnation _ _ hphase' =>
    rw [hincarnation, hphase, hphase']
    exact Nat.le_refl _

end LiveSession

end AstraShell.Client
