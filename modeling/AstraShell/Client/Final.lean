import AstraShell.Client.Effect

/-!
# The last state and the end of a session

The driver publishes states on a watch channel and queues `Exited` on another channel, and
`next_event` polls the states first. That alone does not put the last state before `Exited`:
`exited_before_last_state` is a run in which the driver ends before the consumer looks. The test
for a change then fails on the channel without a sender and counts as no change, the task is
finished, and the branch of the states is off.

`Orderly` excludes this, and a driver that publishes between the two polls of one turn.
`Screen` says what the driver does to what `next_event` reads; `Abreast` is what the order of the
polls gives. The main result is `last_state_precedes_exited`.
-/

set_option autoImplicit false

namespace AstraShell.Client

open Lib Lib.Temporal

/-- The branch of the states is off for the rest of the turn. -/
def Waiter.disabled : Waiter → Bool
  | .pollStates false | .pollEvents false | .pollStatus false | .waiting false => true
  | _ => false

/-- Whether the branch of the states is on and not yet polled in this turn. -/
def Waiter.open : Waiter → Bool
  | .pollEvents _ => false
  | waiter => !waiter.disabled

namespace LiveSession

variable {S P : Type} {s : LiveSession S P}

/-! ## The consumer's side -/

/-- The last state that was sent is there, and the driver sends no state after `Exited`. -/
structure Sound (s : LiveSession S P) : Prop where
  sent : s.states.version ≠ 0 → ∃ state, s.states.value = some state
  exited : ∀ code, .ok (.exited code) ∈ s.events → s.phase.closed = true
  finished : s.finished = true → s.phase.closed = true

/-- The states that next_event has seen, by where it is. -/
structure Abreast (s : LiveSession S P) : Prop where
  events : ∀ enabled, s.waiter = .pollEvents enabled → s.seenStates = s.states.version
  disabled : s.waiter.disabled = true →
    s.phase.closed = true ∧ s.seenStates = s.states.version

/-- No state is published between the poll of the states and the poll of the events, and when the
task is found finished the consumer has seen the last state. -/
structure Orderly (s : LiveSession S P) (a : LiveEvent S P) : Prop where
  quiet : ∀ enabled, s.waiter = .pollEvents enabled →
    (s.step a).states.version = s.states.version
  seen : a = .consume → s.waiter = .checkFinished → s.finished = true →
    s.seenStates = s.states.version

variable {a : LiveEvent S P}

/-- Neither the calls of the consumer nor its waiting change what the driver published. -/
theorem step_published (h : ∀ event, a ≠ .driver event) :
    (s.step a).states = s.states ∧ (s.step a).phase = s.phase ∧
      (s.step a).finished = s.finished ∧ ∀ e ∈ (s.step a).events, e ∈ s.events := by
  cases a with
  | driver event => exact absurd rfl (h event)
  | call request => exact ⟨rfl, rfl, rfl, fun _ h => h⟩
  | submit i =>
    rw [step, submit]
    split
    · split
      · exact ⟨rfl, rfl, rfl, fun _ h => h⟩
      · exact ⟨rfl, rfl, rfl, fun _ h => h⟩
    · exact ⟨rfl, rfl, rfl, fun _ h => h⟩
  | consume =>
    rw [step]
    unfold consume
    cases s.waiter with
    | idle | checkFinished | borrowStatus | waiting enabled => exact ⟨rfl, rfl, rfl, fun _ h => h⟩
    | start | borrowState | pollStatus enabled =>
      dsimp only
      split <;> exact ⟨rfl, rfl, rfl, fun _ h => h⟩
    | pollStates enabled =>
      cases enabled with
      | false => exact ⟨rfl, rfl, rfl, fun _ h => h⟩
      | true =>
        dsimp only
        split <;> exact ⟨rfl, rfl, rfl, fun _ h => h⟩
    | pollEvents enabled =>
      dsimp only
      split
      next event rest hevents =>
        rw [hevents]
        exact ⟨rfl, rfl, rfl, fun _ h => List.mem_cons_of_mem _ h⟩
      next error rest hevents =>
        rw [hevents]
        exact ⟨rfl, rfl, rfl, fun _ h => List.mem_cons_of_mem _ h⟩
      · split <;> exact ⟨rfl, rfl, rfl, fun _ h => h⟩
  | cancel =>
    rw [step]
    split <;> exact ⟨rfl, rfl, rfl, fun _ h => h⟩

theorem Sound.start (request : AttachRequest) :
    Sound (LiveSession.start request : LiveSession S P) where
  sent h := absurd rfl h
  exited _ h := by cases h
  finished h := by cases h

theorem Sound.step (h : Sound s) (a : LiveEvent S P) : Sound (s.step a) := by
  by_cases hdriver : ∃ event, a = .driver event
  · obtain ⟨event, rfl⟩ := hdriver
    have hscreen := (driven_drive s event).screen
    constructor
    · intro hversion
      rcases hscreen.states with ⟨hvalue, hsame⟩ | ⟨-, state, hsent⟩
      · rw [LiveSession.step, hvalue]
        exact h.sent (hsame ▸ hversion)
      · rw [LiveSession.step, hsent]
        exact ⟨state, rfl⟩
    · intro code hmem
      rcases hscreen.exited code hmem with hold | hclosed
      · exact hscreen.closed (h.exited code hold)
      · exact hclosed
    · intro hfinished
      rcases hscreen.finished hfinished with hold | hclosed
      · exact hscreen.closed (h.finished hold)
      · exact hclosed
  · obtain ⟨hstates, hphase, hfinished, hevents⟩ :=
      step_published (s := s) (a := a) fun event ha => hdriver ⟨event, ha⟩
    constructor
    · rw [hstates]
      exact h.sent
    · intro code hmem
      rw [hphase]
      exact h.exited code (hevents _ hmem)
    · rw [hfinished, hphase]
      exact h.finished

theorem sound_run (request : AttachRequest) (act : ℕ → LiveEvent S P) (n : ℕ) :
    Sound (run request act n) := by
  apply run_invariant (Sound.start request)
  intro m h
  exact h.step _

theorem Abreast.start (request : AttachRequest) :
    Abreast (LiveSession.start request : LiveSession S P) where
  events _ h := by cases h
  disabled h := by cases h

theorem Abreast.of_open (hopen : s.waiter.open = true) : Abreast s := by
  constructor
  · intro enabled h
    rw [h] at hopen
    cases hopen
  · intro h
    unfold Waiter.open at hopen
    split at hopen
    · cases hopen
    · rw [h] at hopen
      cases hopen

theorem Abreast.of_seen (hclosed : s.phase.closed = true)
    (hseen : s.seenStates = s.states.version) : Abreast s :=
  ⟨fun _ _ => hseen, fun _ => ⟨hclosed, hseen⟩⟩

theorem Abreast.consume (h : Abreast s) (hsound : Sound s)
    (horderly : Orderly s .consume) : Abreast s.consume.1 := by
  have hoff : s.waiter.disabled = true → ∀ waiter, Abreast { s with waiter := waiter } :=
    fun hdisabled _ => .of_seen (h.disabled hdisabled).1 (h.disabled hdisabled).2
  unfold LiveSession.consume
  cases hwaiter : s.waiter with
  | idle | borrowStatus => exact .of_open rfl
  | start | borrowState =>
    dsimp only
    split
    · exact .of_open rfl
    · exact .of_open rfl
  | checkFinished =>
    -- The branch of the states is off for this turn exactly when the task is finished.
    cases hfinished : s.finished with
    | false => exact .of_open rfl
    | true => exact .of_seen (hsound.finished hfinished) (horderly.seen rfl hwaiter hfinished)
  | pollStates enabled =>
    cases enabled with
    | false => exact hoff (by rw [hwaiter]; rfl) _
    | true =>
      dsimp only
      split
      · exact .of_open rfl
      · exact .of_open rfl
      next hnone => exact ⟨fun _ _ => Watch.changed_eq_none hnone, nofun⟩
  | pollEvents enabled =>
    dsimp only
    split
    · exact .of_open rfl
    · exact .of_open rfl
    · split
      · exact .of_open rfl
      · cases enabled with
        | true => exact .of_open rfl
        | false => exact hoff (by rw [hwaiter]; rfl) _
  | pollStatus enabled =>
    dsimp only
    split
    · exact .of_open rfl
    · exact .of_open rfl
    · cases enabled with
      | true => exact .of_open rfl
      | false => exact hoff (by rw [hwaiter]; rfl) _
  | waiting enabled =>
    cases enabled with
    | true => exact .of_open rfl
    | false => exact hoff (by rw [hwaiter]; rfl) _

theorem Abreast.step (h : Abreast s) (hsound : Sound s)
    (horderly : Orderly s a) : Abreast (s.step a) := by
  cases a with
  | driver event =>
    have hscreen := (driven_drive s event).screen
    refine ⟨?_, ?_⟩
    · intro enabled hwaiter
      rw [LiveSession.step, hscreen.waiter] at hwaiter
      rw [horderly.quiet enabled hwaiter, LiveSession.step, hscreen.seen]
      exact h.events enabled hwaiter
    · intro hoff
      rw [LiveSession.step, hscreen.waiter] at hoff
      obtain ⟨hclosed, hseen⟩ := h.disabled hoff
      refine ⟨hscreen.closed hclosed, ?_⟩
      rw [LiveSession.step, hscreen.seen, hseen]
      rcases hscreen.states with ⟨-, hversion⟩ | ⟨hserving, -⟩
      · exact hversion.symm
      · rw [hserving] at hclosed
        cases hclosed
  | call request => exact ⟨h.events, h.disabled⟩
  | submit i =>
    rw [LiveSession.step, submit]
    split
    · split
      · exact ⟨h.events, h.disabled⟩
      · exact ⟨h.events, h.disabled⟩
    · exact h
  | consume => exact h.consume hsound horderly
  | cancel =>
    rw [LiveSession.step]
    split
    · exact .of_open rfl
    · exact h

theorem abreast_run {request : AttachRequest} {act : ℕ → LiveEvent S P}
    (horderly : ∀ n, Orderly (run request act n) (act n)) (n : ℕ) :
    Abreast (run request act n) := by
  induction n with
  | zero => exact .start request
  | succ n ih => exact ih.step (sound_run request act n) (horderly n)

/-! ## What was returned -/

/-- The step returns the last state published so far, the one with that version. -/
def ReturnsVersion (request : AttachRequest) (act : ℕ → LiveEvent S P) (version m : ℕ) : Prop :=
  ∃ state, (run request act m).returns (act m) = some (.ok (.state state)) ∧
    (run request act m).states.value = some state ∧
    (run request act m).states.version = version

/-- What `next_event` has seen changes when it finds a change, and when it looks at the value. -/
theorem seen_step (s : LiveSession S P) (a : LiveEvent S P) :
    (s.step a).waiter = .borrowState ∨
      s.waiter ≠ .borrowState ∧ (s.step a).seenStates = s.seenStates ∨
      a = .consume ∧ s.waiter = .borrowState ∧ (s.step a).seenStates = s.states.version := by
  by_cases hborrow : s.waiter = .borrowState
  · cases a with
    | driver event => exact .inl ((driven_drive s event).screen.waiter.trans hborrow)
    | call request => exact .inl hborrow
    | submit i =>
      left
      rw [step, submit]
      split
      · split
        · exact hborrow
        · exact hborrow
      · exact hborrow
    | consume =>
      refine .inr (.inr ⟨rfl, hborrow, ?_⟩)
      rw [step, consume, hborrow]
      dsimp only
      split <;> rfl
    | cancel =>
      left
      rw [step, hborrow]
      exact hborrow
  · cases a with
    | driver event => exact .inr (.inl ⟨hborrow, (driven_drive s event).screen.seen⟩)
    | call request => exact .inr (.inl ⟨hborrow, rfl⟩)
    | submit i =>
      refine .inr (.inl ⟨hborrow, ?_⟩)
      rw [step, submit]
      split
      · split <;> rfl
      · rfl
    | consume =>
      have hseen : s.consume.1.waiter = .borrowState ∨ s.consume.1.seenStates = s.seenStates := by
        unfold consume
        cases hwaiter : s.waiter with
        | idle | checkFinished | borrowStatus | waiting enabled => exact .inr rfl
        | start | pollStatus enabled =>
          right
          dsimp only
          split <;> rfl
        | pollStates enabled =>
          cases enabled with
          | false => exact .inr rfl
          | true =>
            dsimp only
            split
            · exact .inl rfl
            · exact .inr rfl
            · exact .inr rfl
        | borrowState => exact absurd hwaiter hborrow
        | pollEvents enabled =>
          right
          dsimp only
          split
          · rfl
          · rfl
          · split <;> rfl
      exact hseen.imp_right fun hsame => .inl ⟨hborrow, hsame⟩
    | cancel =>
      refine .inr (.inl ⟨hborrow, ?_⟩)
      rw [step]
      split <;> rfl

/-- Whatever `next_event` has seen it has returned, or is about to look at. -/
theorem returned_run (request : AttachRequest) (act : ℕ → LiveEvent S P) (n : ℕ)
    (hseen : (run request act n).seenStates ≠ 0)
    (hborrow : (run request act n).waiter ≠ .borrowState) :
    ∃ m < n, ReturnsVersion request act (run request act n).seenStates m := by
  induction n with
  | zero => exact absurd rfl hseen
  | succ n ih =>
    rcases seen_step (run request act n) (act n) with hlook | ⟨hnot, hsame⟩ | ⟨hact, hat, hnew⟩
    · exact absurd hlook hborrow
    · have heq : (run request act (n + 1)).seenStates = (run request act n).seenStates := hsame
      rw [heq] at hseen ⊢
      obtain ⟨m, hm, hreturned⟩ := ih hseen hnot
      exact ⟨m, hm.trans (Nat.lt_succ_self n), hreturned⟩
    · -- The value that is looked at was sent, since its version is not that of the start.
      have heq : (run request act (n + 1)).seenStates = (run request act n).states.version := hnew
      rw [heq] at hseen ⊢
      obtain ⟨state, hstate⟩ := (sound_run request act n).sent hseen
      refine ⟨n, Nat.lt_succ_self n, state, ?_, hstate, rfl⟩
      rw [hact, returns, consume, hat]
      rw [hstate]

/-- A step publishes nothing, or the driver is open and publishes one state. -/
theorem states_step (s : LiveSession S P) (a : LiveEvent S P) :
    (s.step a).states.value = s.states.value ∧ (s.step a).states.version = s.states.version ∨
      s.phase.closed = false ∧ (s.step a).states.version = s.states.version + 1 := by
  by_cases hdriver : ∃ event, a = .driver event
  · obtain ⟨event, rfl⟩ := hdriver
    rcases (driven_drive s event).screen.states with hsame | ⟨hserving, state, hsent⟩
    · exact .inl hsame
    · right
      rw [hserving, step, hsent]
      exact ⟨rfl, rfl⟩
  · have hother : ∀ event, a ≠ .driver event := fun event h => hdriver ⟨event, h⟩
    obtain ⟨hstates, -⟩ := step_published (s := s) hother
    rw [hstates]
    exact .inl ⟨rfl, rfl⟩

theorem closed_step (s : LiveSession S P) (a : LiveEvent S P) (h : s.phase.closed = true) :
    (s.step a).phase.closed = true := by
  by_cases hdriver : ∃ event, a = .driver event
  · obtain ⟨event, rfl⟩ := hdriver
    exact (driven_drive s event).screen.closed h
  · have hother : ∀ event, a ≠ .driver event := fun event h => hdriver ⟨event, h⟩
    obtain ⟨-, hphase, -⟩ := step_published (s := s) hother
    rw [hphase]
    exact h

/-- The version tells the states of a run apart. -/
theorem value_of_version (request : AttachRequest) (act : ℕ → LiveEvent S P) {m n : ℕ}
    (hmn : m ≤ n) :
    (run request act m).states.version ≤ (run request act n).states.version ∧
      ((run request act m).states.version = (run request act n).states.version →
        (run request act n).states.value = (run request act m).states.value) := by
  induction n, hmn using Nat.le_induction with
  | base => exact ⟨Nat.le_refl _, fun _ => rfl⟩
  | succ n _ ih =>
    have hnext : run request act (n + 1) = (run request act n).step (act n) := rfl
    rw [hnext]
    rcases states_step (run request act n) (act n) with ⟨hvalue, hversion⟩ | ⟨-, hversion⟩
    · rw [hvalue, hversion]
      exact ih
    · rw [hversion]
      refine ⟨ih.1.trans (Nat.le_succ _), ?_⟩
      omega

/-- Once the driver has returned the states stay as they are. -/
theorem states_of_closed (request : AttachRequest) (act : ℕ → LiveEvent S P) {n : ℕ}
    (hclosed : (run request act n).phase.closed = true) {k : ℕ} (hk : n ≤ k) :
    (run request act k).phase.closed = true ∧
      (run request act k).states.value = (run request act n).states.value ∧
      (run request act k).states.version = (run request act n).states.version := by
  induction k, hk using Nat.le_induction with
  | base => exact ⟨hclosed, rfl, rfl⟩
  | succ k _ ih =>
    obtain ⟨hk, hvalue, hversion⟩ := ih
    have hnext : run request act (k + 1) = (run request act k).step (act k) := rfl
    rw [hnext]
    refine ⟨closed_step _ _ hk, ?_⟩
    rcases states_step (run request act k) (act k) with ⟨hvalue', hversion'⟩ | ⟨hopen, -⟩
    · exact ⟨hvalue'.trans hvalue, hversion'.trans hversion⟩
    · rw [hk] at hopen
      cases hopen

/-- `next_event` returns a control event only where it polls the events. -/
theorem control_of_returns {event : ControlEvent P}
    (h : s.returns a = some (.ok (.control event))) :
    (∃ enabled, s.waiter = .pollEvents enabled) ∧ .ok event ∈ s.events := by
  cases a with
  | driver event => cases h
  | call request => cases h
  | submit i => cases h
  | cancel => cases h
  | consume =>
    rw [returns] at h
    unfold consume at h
    cases hwaiter : s.waiter with
    | pollEvents enabled =>
      rw [hwaiter] at h
      dsimp only at h
      split at h
      next hevents =>
        cases h
        rw [hevents]
        exact ⟨⟨enabled, rfl⟩, List.mem_cons_self⟩
      · cases h
      · split at h
        · cases h
        · cases h
    | idle | checkFinished | borrowStatus | waiting enabled =>
      rw [hwaiter] at h
      cases h
    | start | borrowState | pollStatus enabled =>
      rw [hwaiter] at h
      dsimp only at h
      split at h <;> cases h
    | pollStates enabled =>
      rw [hwaiter] at h
      cases enabled with
      | false => cases h
      | true =>
        dsimp only at h
        split at h <;> cases h

/-! ## Main result -/

/-- In an orderly run, when `next_event` returns `Exited` and a state was published, an earlier call
has returned the last state there will be. -/
theorem last_state_precedes_exited (request : AttachRequest) (act : ℕ → LiveEvent S P)
    (horderly : ∀ n, Orderly (run request act n) (act n)) (n : ℕ) (code : Int)
    (hexited : (run request act n).returns (act n) = some (.ok (.control (.exited code))))
    (hpublished : (run request act n).states.version ≠ 0) :
    ∃ m < n, ∃ state, (run request act m).returns (act m) = some (.ok (.state state)) ∧
      ∀ k, n ≤ k → (run request act k).states.value = some state ∧
        (run request act k).states.version = (run request act m).states.version := by
  obtain ⟨⟨enabled, hwaiter⟩, hmem⟩ := control_of_returns hexited
  have hclosed := (sound_run request act n).exited code hmem
  have hseen := (abreast_run horderly n).events enabled hwaiter
  have hborrow : (run request act n).waiter ≠ .borrowState := by
    rw [hwaiter]
    nofun
  rw [← hseen] at hpublished
  obtain ⟨m, hm, state, hreturned, hvalue, hversion⟩ :=
    returned_run request act n hpublished hborrow
  refine ⟨m, hm, state, hreturned, ?_⟩
  intro k hk
  obtain ⟨-, hvalue', hversion'⟩ := states_of_closed request act hclosed hk
  refine ⟨?_, ?_⟩
  · rw [hvalue', (value_of_version request act hm.le).2 (hversion.trans hseen), hvalue]
  · rw [hversion', hversion, hseen]

/-- The consumer waits when the last state comes, and takes it before the driver ends. -/
def takenInTurn : List (LiveEvent ℕ Unit) :=
  [.driver (.resized (.ok ())), .consume, .consume, .consume, .consume, .consume, .consume,
    .driver (.state 5), .consume, .consume, .consume, .driver .publish,
    .driver (.control (.exited 0)), .consume, .consume, .consume, .consume, .consume]

theorem orderly_takenInTurn (n : ℕ) :
    Orderly (run plainRequest (listed takenInTurn) n) (listed takenInTurn n) := by
  by_cases hn : n < 18
  · have hall : ∀ n < 18, (∀ enabled,
        (run plainRequest (listed takenInTurn) n).waiter = .pollEvents enabled →
          (run plainRequest (listed takenInTurn) (n + 1)).states.version =
            (run plainRequest (listed takenInTurn) n).states.version) ∧
        (run plainRequest (listed takenInTurn) n).finished = false := by
      decide +kernel
    obtain ⟨hquiet, hrunning⟩ := hall n hn
    refine ⟨hquiet, ?_⟩
    intro _ _ hfinished
    rw [hrunning] at hfinished
    cases hfinished
  · have hcancel : listed takenInTurn n = .cancel := by
      rw [listed, List.getElem?_eq_none (Nat.le_of_not_lt hn)]
      rfl
    rw [hcancel]
    refine ⟨?_, nofun⟩
    intro enabled hwaiter
    rw [step, hwaiter]

/-- The state comes first there. -/
theorem last_state_precedes_exited_takenInTurn :
    ∃ m < 17, ∃ state, (run plainRequest (listed takenInTurn) m).returns (listed takenInTurn m) =
        some (.ok (.state state)) ∧
      ∀ k, 17 ≤ k → (run plainRequest (listed takenInTurn) k).states.value = some state ∧
        (run plainRequest (listed takenInTurn) k).states.version =
          (run plainRequest (listed takenInTurn) m).states.version :=
  last_state_precedes_exited plainRequest (listed takenInTurn) orderly_takenInTurn 17 0
    (by decide +kernel) (by decide +kernel)

/-- The driver is done before the consumer asks for the first time. -/
def driverFirst : List (LiveEvent ℕ Unit) :=
  [.driver (.resized (.ok ())), .driver (.state 5), .driver .publish,
    .driver (.control (.exited 0)), .driver .settle, .driver .settle, .driver .settle,
    .driver .settle, .driver .settle, .consume, .consume, .consume, .consume, .consume]

/-- The first call of `next_event` returns `Exited`, with the last state published and not seen. -/
theorem exited_before_last_state :
    (run plainRequest (listed driverFirst) 13).returns (listed driverFirst 13) =
        some (.ok (.control (.exited 0))) ∧
      (run plainRequest (listed driverFirst) 13).states.value = some 5 ∧
      (run plainRequest (listed driverFirst) 13).states.version ≠ 0 ∧
      ∀ m < 13, (run plainRequest (listed driverFirst) m).returns (listed driverFirst m) =
        none := by
  decide +kernel

end LiveSession

end AstraShell.Client
