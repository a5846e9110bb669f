import AstraShell.Lib.Locks
import AstraShell.Terminal.Lease

/-!
# Lease operations while a program does not read

The lease operations again, at the level of the mutexes they hold. `terminal.rs` guards the lease,
the recovery record and the PTY's input with a mutex each, in the order lease, recovery and lease,
writer. `write_input` keeps both of its guards while it writes, and a write blocks as long as the
input buffer of the PTY, which the kernel bounds, is full.

Each operation is a program of `Lib.Locks` that takes its guards in the order of the source and does
the section of `Terminal.Lease` between them. Any number of threads run operations; the child
process reads its input or does not.

`control_completes`: every operation comes to its end, as long as the buffer is not full for ever.
`unread_input_blocks_control`: when the child never reads, one input holds the lease for ever, and
no takeover, expiry, renewal or release gets it.
-/

set_option autoImplicit false

namespace AstraShell.Terminal.Blocking

open Lib Lib.Locks Lib.Temporal

/-! ## The operations -/

/-- The mutexes of `Terminal` that the lease operations take. -/
inductive Mutex where
  | lease
  | recovery
  | writer
  deriving DecidableEq

/-- The lease comes first; nothing takes both of the others. -/
def Mutex.rank : Mutex → ℕ
  | lease => 0
  | recovery => 1
  | writer => 1

/-- What an operation does while it holds its guards. -/
inductive Task where
  | acquire (request : AcquireRequest) (newToken newLeaseId : String)
  | expire (leaseId : String) (now : ℕ)
  | cleanup (leaseId : String)
  /-- The checks of `validate_lease_at`. -/
  | validate (leaseId : String) (sequence : ℕ)
  /-- `write_all`. -/
  | writeAll (bytes : List UInt8)
  /-- One `write`, which may take a part of the bytes. -/
  | write (bytes : List UInt8)
  /-- The sequence number of an input that was written. -/
  | record (sequence : ℕ)
  | act (command : Command)
  deriving DecidableEq

/-- The terminal, the clock and the PTY. -/
structure Shared where
  terminal : InputState
  clock : ℕ
  /-- How many bytes of input the child has not read. -/
  unread : ℕ
  /-- How many the PTY can hold. -/
  capacity : ℕ
  /-- A write that finds room fails. -/
  failing : Bool

/-- What the child and the clock do. -/
inductive Outside where
  | tick (duration : ℕ)
  | read (count : ℕ)
  | fail

namespace Shared

def spawned (rows cols capacity : ℕ) : Shared where
  terminal := .spawned rows cols
  clock := 0
  unread := 0
  capacity := capacity
  failing := false

/-- A write does not block. -/
def hasRoom (s : Shared) : Bool := s.unread < s.capacity

/-- The PTY takes the bytes it has room for. -/
def take (s : Shared) (bytes : List UInt8) : Shared :=
  let taken := bytes.take (s.capacity - s.unread)
  { s with
    terminal := { s.terminal with written := s.terminal.written ++ taken }
    unread := s.unread + taken.length }

def outside (s : Shared) : Outside → Shared
  | .tick duration => { s with clock := s.clock + duration }
  | .read count => { s with unread := s.unread - count }
  | .fail => { s with failing := true }

end Shared

def isWork : Instr Mutex Task → Bool
  | .work _ => true
  | _ => false

/-- A task, and what its thread does next. A command that `validate_lease_at` refuses drops the
guard of the lease; a write that fails drops the guards it was made under. -/
def exec (s : Shared) (task : Task) (rest : Program Mutex Task) :
    Option (Shared × Program Mutex Task) :=
  match task with
  | .acquire request newToken newLeaseId =>
    let (_, terminal) :=
      s.terminal.acquireResumableLeaseAt request s.clock newToken newLeaseId
    some ({ s with terminal := terminal }, rest)
  | .expire leaseId now =>
    some ({ s with terminal := s.terminal.expireLeaseIfDueAt leaseId now }, rest)
  | .cleanup leaseId => some ({ s with terminal := s.terminal.releaseLease leaseId }, rest)
  | .validate leaseId sequence =>
    match s.terminal.validateLease leaseId sequence with
    | .ok _ => some (s, rest)
    | .error _ => some (s, [.unlock .lease])
  | .writeAll bytes =>
    if bytes = [] then some (s, rest)
    -- A write that blocks goes on blocking, whatever becomes of the child.
    else if ¬ s.hasRoom then none
    else if s.failing then some (s, rest.dropWhile isWork)
    else
      let left := bytes.drop (s.capacity - s.unread)
      some (s.take bytes, if left = [] then rest else .work (.writeAll left) :: rest)
  | .write bytes =>
    if ¬ s.hasRoom then none
    else if s.failing then some (s, rest.dropWhile isWork)
    else some (s.take bytes, rest)
  | .record sequence =>
    let lease := s.terminal.lease.map fun current => { current with lastSequence := sequence }
    some ({ s with terminal := { s.terminal with lease := lease } }, rest)
  | .act command =>
    let (_, terminal) := s.terminal.act command s.clock .done
    some ({ s with terminal := terminal }, rest)

def machine : Machine Shared Mutex Task Outside where
  exec := exec
  outside := Shared.outside

/-- The operations of `Terminal` that take the lease, and the replies of the engine. -/
inductive Operation where
  /-- `acquire_resumable_lease`: an attach, with or without takeover. -/
  | acquire (request : AcquireRequest) (newToken newLeaseId : String)
  /-- `expire_lease_if_due`. -/
  | expiry (leaseId : String)
  /-- `release_lease`. -/
  | cleanup (leaseId : String)
  /-- `renew_lease`. -/
  | renew (leaseId : String) (sequence ttl : ℕ)
  /-- `release_lease_command`. -/
  | release (leaseId : String) (sequence : ℕ)
  /-- `write_input`. -/
  | input (leaseId : String) (sequence : ℕ) (bytes : List UInt8)
  /-- `HostReplyWriter::write`. -/
  | reply (bytes : List UInt8)

/-- `validate_lease`, with the clock read of its caller, and what is done under its guard. -/
def validated (leaseId : String) (sequence now : ℕ) (body : Program Mutex Task) :
    Program Mutex Task :=
  [.lock .lease, .work (.expire leaseId now), .unlock .lease, .lock .lease,
    .work (.validate leaseId sequence)] ++ body ++ [.unlock .lease]

/-- The program of an operation that starts at `now`. -/
def Operation.program (now : ℕ) : Operation → Program Mutex Task
  | .acquire request newToken newLeaseId =>
    match request.check with
    | .error _ => []
    | .ok _ =>
      if request.readOnly then []
      else [.lock .lease, .lock .recovery, .work (.acquire request newToken newLeaseId),
        .unlock .recovery, .unlock .lease]
  | .expiry leaseId => [.lock .lease, .work (.expire leaseId now), .unlock .lease]
  | .cleanup leaseId =>
    if leaseId = "" then [] else [.lock .lease, .work (.cleanup leaseId), .unlock .lease]
  | .renew leaseId sequence ttl =>
    validated leaseId sequence now [.work (.act ⟨leaseId, sequence, .renew ttl⟩)]
  | .release leaseId sequence =>
    validated leaseId sequence now
      [.lock .recovery, .work (.act ⟨leaseId, sequence, .release⟩), .unlock .recovery]
  | .input leaseId sequence bytes =>
    validated leaseId sequence now
      [.lock .writer, .work (.writeAll bytes), .work (.record sequence), .unlock .writer]
  | .reply bytes => [.lock .writer, .work (.write bytes), .unlock .writer]

variable {s : Shared}

/-- Writing an input and recording its number is the locked section of `write_input`. -/
theorem record_take_eq_writeInput {leaseId : String} {sequence : ℕ} {bytes : List UInt8}
    {current : Lease} (hvalid : s.terminal.validateLease leaseId sequence = .ok current)
    (hroom : s.unread + bytes.length ≤ s.capacity) (rest : Program Mutex Task) :
    (exec (s.take bytes) (.record sequence) rest).map (fun p => p.1.terminal) =
      some (s.terminal.writeInput leaseId sequence bytes .done).2 := by
  obtain ⟨hlease, -, -⟩ := InputState.validateLease_eq_ok_iff.1 hvalid
  have hall : bytes.take (s.capacity - s.unread) = bytes :=
    List.take_of_length_le (by omega)
  simp [exec, Shared.take, InputState.writeInput, hvalid, hlease, hall]

/-! ## The order of the mutexes -/

/-- What a thread can have left of an operation. -/
def Legal (program : Program Mutex Task) : Prop :=
  ∃ now operation, program <:+ Operation.program now operation

variable {rest : Program Mutex Task}

theorem Legal.tail {i : Instr Mutex Task} (h : Legal (i :: rest)) : Legal rest := by
  obtain ⟨now, operation, hsuffix⟩ := h
  exact ⟨now, operation, (List.suffix_cons i rest).trans hsuffix⟩

theorem ordered_program (now : ℕ) (operation : Operation) :
    Ordered Mutex.rank (operation.program now) ∧ pending (operation.program now) = [] := by
  cases operation with
  | acquire request newToken newLeaseId =>
    rw [Operation.program]
    split
    · exact ⟨trivial, rfl⟩
    · split
      · exact ⟨trivial, rfl⟩
      · simp [Ordered, pending, Mutex.rank]
  | cleanup leaseId =>
    rw [Operation.program]
    split
    · exact ⟨trivial, rfl⟩
    · simp [Ordered, pending]
  | expiry | reply => simp [Operation.program, Ordered, pending]
  | renew | release | input =>
    simp [Operation.program, validated, Ordered, pending, Mutex.rank]

variable {task : Task}

/-- What can be left after a task: its operation decides. -/
theorem Legal.work_cases (h : Legal (.work task :: rest)) :
    (∀ leaseId sequence, task = .validate leaseId sequence → pending rest = [.lease]) ∧
    (∀ bytes, task = .write bytes → rest = [.unlock .writer]) ∧
    (∀ bytes, task = .writeAll bytes →
      ∃ sequence, rest = [.work (.record sequence), .unlock .writer, .unlock .lease]) := by
  obtain ⟨now, operation, hsuffix⟩ := h
  cases operation with
  | acquire request newToken newLeaseId =>
    rw [Operation.program] at hsuffix
    split at hsuffix
    · simp at hsuffix
    · split at hsuffix
      · simp at hsuffix
      · simp [List.suffix_cons_iff] at hsuffix
        simp [hsuffix.1]
  | cleanup leaseId =>
    rw [Operation.program] at hsuffix
    split at hsuffix
    · simp at hsuffix
    · simp [List.suffix_cons_iff] at hsuffix
      simp [hsuffix.1]
  | expiry leaseId =>
    simp [Operation.program, List.suffix_cons_iff] at hsuffix
    simp [hsuffix.1]
  | reply bytes =>
    simp [Operation.program, List.suffix_cons_iff] at hsuffix
    simp [hsuffix]
  | renew leaseId sequence ttl | release leaseId sequence =>
    simp [Operation.program, validated, List.suffix_cons_iff] at hsuffix
    rcases hsuffix with ⟨rfl, rfl⟩ | ⟨rfl, rfl⟩ | ⟨rfl, rfl⟩ <;> simp [pending]
  | input leaseId sequence bytes =>
    simp [Operation.program, validated, List.suffix_cons_iff] at hsuffix
    rcases hsuffix with ⟨rfl, rfl⟩ | ⟨rfl, rfl⟩ | ⟨rfl, rfl⟩ | ⟨rfl, rfl⟩ <;> simp [pending]

/-- The tasks that need room in the PTY. -/
def Task.writes : Task → Bool
  | .writeAll _ | .write _ => true
  | _ => false

/-- A write is made under the writer's guard. -/
theorem Legal.holds_writer
    (h : Legal (.work task :: rest)) (hwrites : task.writes = true) : .writer ∈ pending rest := by
  obtain ⟨-, hwrite, hwriteAll⟩ := h.work_cases
  cases task with
  | write bytes =>
    rw [hwrite bytes rfl]
    simp [pending]
  | writeAll bytes =>
    obtain ⟨sequence, hrest⟩ := hwriteAll bytes rfl
    rw [hrest]
    simp [pending]
  | _ => cases hwrites

variable {s' : Shared} {rest' : Program Mutex Task}

/-- What a task can leave: the rest of its operation, the guards to drop after a failure, or the
bytes the PTY had no room for. -/
theorem exec_cases (h : exec s task rest = some (s', rest')) :
    rest' = rest ∨
      (∃ leaseId sequence, task = .validate leaseId sequence ∧ rest' = [.unlock .lease]) ∨
      (task.writes = true ∧ rest' = rest.dropWhile isWork) ∨
      ∃ bytes left, task = .writeAll bytes ∧ left.length < bytes.length ∧
        rest' = .work (.writeAll left) :: rest := by
  cases task with
  | validate leaseId sequence =>
    simp only [exec] at h
    split at h
    · cases h
      exact .inl rfl
    · cases h
      exact .inr (.inl ⟨leaseId, sequence, rfl, rfl⟩)
  | write bytes =>
    simp only [exec] at h
    split_ifs at h
    · cases h
      exact .inr (.inr (.inl ⟨rfl, rfl⟩))
    · cases h
      exact .inl rfl
  | writeAll bytes =>
    simp only [exec] at h
    split_ifs at h with hempty hroom hfailing hleft
    · cases h
      exact .inl rfl
    · cases h
      exact .inr (.inr (.inl ⟨rfl, rfl⟩))
    · cases h
      exact .inl rfl
    · cases h
      refine .inr (.inr (.inr ⟨bytes, _, rfl, ?_, rfl⟩))
      have hpos := List.length_pos_iff.2 hempty
      rw [Shared.hasRoom, decide_eq_true_eq] at hroom
      rw [List.length_drop]
      omega
  | _ =>
    cases h
    exact .inl rfl

/-- The guards are dropped in the order the discipline asks for. -/
theorem discipline : Discipline machine Mutex.rank Legal where
  ordered := by
    rintro program ⟨now, operation, hsuffix⟩
    exact (ordered_program now operation).1.of_suffix hsuffix
  nil := ⟨0, .expiry "", List.nil_suffix⟩
  lock := fun _ _ h => h.tail
  unlock := fun _ _ h => h.tail
  work := by
    intro s s' task rest rest' hlegal hexec
    obtain ⟨hvalidate, hwrite, hwriteAll⟩ := hlegal.work_cases
    rcases exec_cases hexec with rfl | ⟨leaseId, sequence, rfl, rfl⟩ | ⟨hwrites, rfl⟩ |
      ⟨bytes, left, rfl, -, rfl⟩
    · exact ⟨hlegal.tail, rfl⟩
    · refine ⟨⟨0, .expiry "", ⟨[.lock .lease, .work (.expire "" 0)], rfl⟩⟩, ?_⟩
      rw [hvalidate leaseId sequence rfl]
      rfl
    · refine ⟨?_, ?_⟩
      · obtain ⟨now, operation, hsuffix⟩ := hlegal.tail
        exact ⟨now, operation, (List.dropWhile_suffix isWork).trans hsuffix⟩
      · cases task with
        | write bytes =>
          rw [hwrite bytes rfl]
          rfl
        | writeAll bytes =>
          obtain ⟨sequence, hrest⟩ := hwriteAll bytes rfl
          rw [hrest]
          rfl
        | _ => cases hwrites
    · -- The bytes that are left are those of another input.
      obtain ⟨sequence, hrest⟩ := hwriteAll bytes rfl
      refine ⟨⟨0, .input "" sequence left, ?_⟩, rfl⟩
      rw [hrest]
      exact ⟨[.lock .lease, .work (.expire "" 0), .unlock .lease, .lock .lease,
        .work (.validate "" sequence), .lock .writer], rfl⟩

/-! ## Runs -/

section Runs

variable {T : Type*} [DecidableEq T]

inductive Action (T : Type*) where
  /-- A thread that is not busy starts an operation. -/
  | start (t : T) (operation : Operation)
  /-- A thread has its turn. -/
  | run (t : T)
  | outside (e : Outside)

abbrev World (T : Type*) := State Shared T Mutex Task

def Action.event (now : ℕ) : Action T → Event T Mutex Task Outside
  | .start t operation => .spawn t (operation.program now)
  | .run t => .run t
  | .outside e => .outside e

namespace World

/-- A terminal that was just spawned, with a PTY that can hold `capacity` bytes of input. -/
def start (T : Type*) (rows cols capacity : ℕ) : World T where
  data := .spawned rows cols capacity
  rest := fun _ => []
  holder := fun _ => none
  queue := fun _ => []

def step (w : World T) (a : Action T) : World T := State.step machine w (a.event w.data.clock)

/-- The thread is in an operation. -/
def Busy (w : World T) (t : T) : Prop := w.rest t ≠ []

instance (w : World T) (t : T) : Decidable (w.Busy t) := inferInstanceAs (Decidable (_ ≠ _))

end World

/-- Every thread has its turn again and again. -/
def Fair (act : ℕ → Action T) : Prop := ∀ t n, ∃ m, n ≤ m ∧ act m = .run t

variable {rows cols capacity : ℕ} {act : ℕ → Action T}

/-- The states of a schedule. -/
def states (T : Type*) [DecidableEq T] (rows cols capacity : ℕ) (act : ℕ → Action T) (n : ℕ) :
    World T :=
  Temporal.run World.step (World.start T rows cols capacity) act n

omit [DecidableEq T] in
theorem inv_start : Inv Legal (World.start T rows cols capacity) where
  legal := fun _ => discipline.nil
  holder := by simp [World.start, pending]
  queued := by simp [World.start]
  nodup := by simp [World.start]

theorem inv_states (n : ℕ) : Inv Legal (states T rows cols capacity act n) := by
  apply run_invariant inv_start
  intro m hinv
  apply hinv.step discipline
  intro t program hspawn
  -- Only whole operations are started.
  cases hact : act m with
  | start u operation =>
    rw [hact] at hspawn
    cases hspawn
    exact ⟨⟨_, operation, List.suffix_rfl⟩, (ordered_program _ operation).2⟩
  | run u | outside e =>
    rw [hact] at hspawn
    cases hspawn

def fairRun (hfair : Fair act) : FairRun T machine Legal where
  state := states T rows cols capacity act
  event := fun n => (act n).event (states T rows cols capacity act n).data.clock
  next := fun _ => rfl
  inv := inv_states
  fair := by
    intro t n
    obtain ⟨m, hnm, hm⟩ := hfair t n
    exact ⟨m, hnm, by rw [hm, Action.event]⟩

/-! ## Progress -/

/-- The task is done at the next turn of its thread. -/
def Ready (task : Task) (s : Shared) : Prop := task.writes = false ∨ s.hasRoom = true

theorem exec_of_ready (hready : Ready task s)
    (rest : Program Mutex Task) : ∃ s' rest', exec s task rest = some (s', rest') := by
  rw [← Option.isSome_iff_exists.trans Prod.exists]
  cases task with
  | validate leaseId sequence =>
    simp only [exec]
    split <;> rfl
  | write bytes | writeAll bytes =>
    have hroom := hready.resolve_left (by simp [Task.writes])
    simp only [exec, hroom]
    split_ifs <;> first | rfl | contradiction
  | _ => rfl

/-- A task that does not write leaves the PTY alone. -/
theorem hasRoom_of_exec (h : exec s task rest = some (s', rest')) (hwrites : task.writes = false) :
    s'.hasRoom = s.hasRoom := by
  cases task with
  | validate leaseId sequence =>
    simp only [exec] at h
    split at h <;> cases h <;> rfl
  | write | writeAll => cases hwrites
  | _ =>
    cases h
    rfl

theorem hasRoom_outside (hroom : s.hasRoom = true) (e : Outside) :
    (s.outside e).hasRoom = true := by
  cases e with
  | tick | fail => exact hroom
  | read count =>
    simp only [Shared.hasRoom, decide_eq_true_eq] at hroom ⊢
    exact Nat.lt_of_le_of_lt (Nat.sub_le _ _) hroom

variable (r : FairRun T machine Legal)

variable {n : ℕ} {t : T}

/-- Room in the PTY is left to the thread that holds the writer. -/
theorem ready_next
    (hrest : (r.state n).rest t = .work task :: rest) (hready : Ready task (r.state n).data)
    (hevent : r.event n ≠ .run t) : Ready task (r.state (n + 1)).data := by
  cases hwrites : task.writes with
  | false => exact .inl hwrites
  | true =>
    have hroom : (r.state n).data.hasRoom = true := by
      apply hready.resolve_left
      simp [hwrites]
    have hinv := r.inv n
    refine .inr ?_
    have hsteps := r.next_cases n
    generalize r.state (n + 1) = s' at hsteps ⊢
    generalize hcurrent : r.event n = event at hsteps
    cases hsteps with
    | idle | spawn | join | grant | unlock => exact hroom
    | outside e => exact hasRoom_outside hroom e
    | work u task' rest₁ rest₂ data hu hexec =>
      cases hwrites' : task'.writes with
      | false => rw [hasRoom_of_exec hexec hwrites', hroom]
      | true =>
        -- Two threads that write both hold the writer.
        exfalso
        have hlegal := hinv.legal t
        have hlegal' := hinv.legal u
        have hmine := hinv.holder .writer t
        have hother := hinv.holder .writer u
        rw [hrest] at hlegal hmine
        rw [hu] at hlegal' hother
        have hsame := (hmine.2 (hlegal.holds_writer hwrites)).symm.trans
          (hother.2 (hlegal'.holds_writer hwrites'))
        rw [Option.some.injEq] at hsame
        exact hevent (hsame ▸ hcurrent)

/-- The bytes a task still has to write. -/
def Task.size : Task → ℕ
  | .writeAll bytes => bytes.length
  | _ => 0

/-- What is left is less, or the same with fewer bytes to write. -/
def Less (task : Task) (rest program : Program Mutex Task) : Prop :=
  program.length ≤ rest.length ∨ ∃ task', task'.size < task.size ∧ program = .work task' :: rest

theorem less_of_exec
    (hlegal : Legal (.work task :: rest)) (h : exec s task rest = some (s', rest')) :
    Less task rest rest' := by
  rcases exec_cases h with rfl | ⟨leaseId, sequence, rfl, rfl⟩ | ⟨-, rfl⟩ |
    ⟨bytes, left, rfl, hless, rfl⟩
  · exact .inl le_rfl
  · have hpending := hlegal.work_cases.1 leaseId sequence rfl
    refine .inl ?_
    cases rest with
    | nil => cases hpending
    | cons i rest => simp
  · exact .inl (List.dropWhile_suffix isWork).length_le
  · exact .inr ⟨.writeAll left, hless, rfl⟩

/-- A turn does the task or finds it blocked. -/
theorem task_turn (hrest : (r.state n).rest t = .work task :: rest) (hevent : r.event n = .run t) :
    (exec (r.state n).data task rest = none ∧
      (r.state (n + 1)).rest t = .work task :: rest) ∨
    Less task rest ((r.state (n + 1)).rest t) := by
  have hlegal := (r.inv n).legal t
  rw [hrest] at hlegal
  rw [r.next n, hevent, State.step, State.turn]
  cases hexec : exec (r.state n).data task rest with
  | none =>
    refine .inl ⟨rfl, ?_⟩
    simp [hrest, machine, hexec]
  | some p =>
    refine .inr ?_
    simpa [hrest, machine, hexec] using less_of_exec hlegal hexec

theorem ready_turn
    (hrest : (r.state n).rest t = .work task :: rest) (hready : Ready task (r.state n).data)
    (hevent : r.event n = .run t) : Less task rest ((r.state (n + 1)).rest t) := by
  rcases task_turn r hrest hevent with ⟨hblocked, -⟩ | hless
  · obtain ⟨s', rest', hexec⟩ := exec_of_ready hready rest
    rw [hblocked] at hexec
    cases hexec
  · exact hless

/-- No task waits for ever when the PTY has room again and again. -/
theorem advances_task (hroom : ∀ n, ∃ m, n ≤ m ∧ (r.state m).data.hasRoom = true) (task : Task)
    (rest : Program Mutex Task) : r.Advances (.work task :: rest) := by
  intro t
  -- By induction on the bytes to write.
  induction hsize : task.size using Nat.strong_induction_on generalizing task with
  | _ size ih =>
    have hstep : ∀ n, (r.state n).rest t = .work task :: rest →
        Less task rest ((r.state (n + 1)).rest t) ∨
          (r.state (n + 1)).rest t = .work task :: rest := by
      intro n hrest
      by_cases hevent : r.event n = .run t
      · rcases task_turn r hrest hevent with ⟨-, hblocked⟩ | hless
        · exact .inr hblocked
        · exact .inl hless
      · refine .inr ?_
        rw [(r.next_cases n).rest_of_ne _ hevent, hrest]
        rw [hrest]
        exact List.cons_ne_nil _ rest
    have hready : LeadsTo
        (fun n => (r.state n).rest t = .work task :: rest ∧ Ready task (r.state n).data)
        (fun n => Less task rest ((r.state n).rest t)) := by
      apply leadsTo_of_helpful fun n => r.event n = .run t
      · rintro n ⟨hrest, hready⟩ hevent
        exact (hstep n hrest).imp_right fun hsame => ⟨hsame, ready_next r hrest hready hevent⟩
      · exact fun n _ => r.fair t n
      · rintro n ⟨hrest, hready⟩ hevent
        exact ready_turn r hrest hready hevent
    have hless : LeadsTo (fun n => (r.state n).rest t = .work task :: rest)
        (fun n => Less task rest ((r.state n).rest t)) := by
      intro n hrest
      obtain ⟨m, hnm, hm⟩ := hroom n
      have hkept := reached_or_kept (Q := fun k => Less task rest ((r.state k).rest t))
        (f := fun _ => 0) (fun k hk => (hstep k hk).imp_right fun h => ⟨h, le_rfl⟩) hrest m hnm
      rcases hkept with hreached | ⟨hkept, -⟩
      · exact hreached
      · obtain ⟨k, hmk, hk⟩ := hready m ⟨hkept, .inr hm⟩
        exact ⟨k, by omega, hk⟩
    intro n hrest
    obtain ⟨m, hnm, hle | ⟨task', hlt, hrest'⟩⟩ := hless n hrest
    · exact ⟨m, hnm, Nat.lt_succ_of_le hle⟩
    · obtain ⟨k, hmk, hk⟩ := ih task'.size (hsize ▸ hlt) task' rfl m hrest'
      exact ⟨k, by omega, hk⟩

theorem Mutex.rank_le (m : Mutex) : m.rank ≤ 1 := by
  cases m <;> decide

/-- Every thread comes to the end of its operation, whatever the operations of the others are, when
the PTY is not full for ever. -/
theorem control_completes (rows cols capacity : ℕ) (act : ℕ → Action T) (hfair : Fair act)
    (hroom : ∀ n, ∃ m, n ≤ m ∧ (states T rows cols capacity act m).data.hasRoom = true) (t : T)
    (n : ℕ) : ∃ m, n ≤ m ∧ ¬ (states T rows cols capacity act m).Busy t := by
  obtain ⟨m, hnm, hm⟩ := (fairRun hfair).finishes discipline (advances_task _ hroom)
    Mutex.rank_le t n
  exact ⟨m, hnm, not_not_intro hm⟩

end Runs

/-! ## Two schedules -/

/-- The actions of a list, and then the turns of `k + 1` threads in a round. -/
def roundRobin {k : ℕ} (opening : List (Action (Fin (k + 1)))) (n : ℕ) : Action (Fin (k + 1)) :=
  opening[n]?.getD (.run (Fin.ofNat (k + 1) n))

variable {k : ℕ}

theorem roundRobin_of_le {n : ℕ} {opening : List (Action (Fin (k + 1)))}
    (h : opening.length ≤ n) : roundRobin opening n = .run (Fin.ofNat (k + 1) n) := by
  rw [roundRobin, List.getElem?_eq_none h, Option.getD_none]

theorem fair_roundRobin (opening : List (Action (Fin (k + 1)))) : Fair (roundRobin opening) := by
  intro t n
  have hle : n + opening.length ≤ (k + 1) * (n + opening.length) :=
    Nat.le_mul_of_pos_left (n + opening.length) (Nat.succ_pos k)
  refine ⟨(k + 1) * (n + opening.length) + t, by omega, ?_⟩
  rw [roundRobin_of_le (by omega)]
  congr 1
  apply Fin.ext
  simp [Nat.mod_eq_of_lt t.isLt]

/-- A schedule whose turns no longer change anything stays where it is. -/
theorem states_roundRobin {rows cols capacity : ℕ} {opening : List (Action (Fin (k + 1)))}
    (hfixed : ∀ t, State.turn machine
      (states (Fin (k + 1)) rows cols capacity (roundRobin opening) opening.length) t =
        states (Fin (k + 1)) rows cols capacity (roundRobin opening) opening.length)
    {n : ℕ} (hn : opening.length ≤ n) :
    states (Fin (k + 1)) rows cols capacity (roundRobin opening) n =
      states (Fin (k + 1)) rows cols capacity (roundRobin opening) opening.length := by
  apply run_of_fixed _ hn
  intro m hm
  rw [roundRobin_of_le hm]
  exact hfixed _

/-- A controller attaches and sends an input of three bytes. -/
def oneInput : List (Action (Fin 1)) :=
  [.start 0 (.acquire ⟨false, false, "", some 30, none⟩ "token" "lease")] ++
    List.replicate 7 (.run 0) ++ [.start 0 (.input "lease" 1 [97, 98, 99])] ++
    List.replicate 14 (.run 0)

/-- While the PTY has room for the input, its operation ends. -/
theorem control_completes_oneInput :
    (states (Fin 1) 24 80 4 (roundRobin oneInput) 9).Busy 0 ∧
      ∃ m, 9 ≤ m ∧ ¬ (states (Fin 1) 24 80 4 (roundRobin oneInput) m).Busy 0 := by
  refine ⟨by decide +kernel, ?_⟩
  apply control_completes 24 80 4 (roundRobin oneInput) (fair_roundRobin oneInput)
  intro n
  refine ⟨n + oneInput.length, by omega, ?_⟩
  rw [states_roundRobin _ (by omega)]
  · decide +kernel
  · intro t
    have hrest : (states (Fin 1) 24 80 4 (roundRobin oneInput) oneInput.length).rest t = [] := by
      revert t
      decide +kernel
    simp [State.turn, hrest]

/-- A controller sends an input of three bytes to a PTY that has room for two. A takeover, an expiry
check, a renewal and a release are started after that. -/
def unreadInput : List (Action (Fin 5)) :=
  [.start 0 (.acquire ⟨false, false, "", some 30, none⟩ "token" "lease")] ++
    List.replicate 7 (.run 0) ++ [.start 0 (.input "lease" 1 [97, 98, 99])] ++
    List.replicate 14 (.run 0) ++
    [.start 1 (.acquire ⟨false, true, "", some 30, none⟩ "token'" "lease'"),
      .start 2 (.expiry "lease"), .start 3 (.renew "lease" 2 30), .start 4 (.release "lease" 3),
      .run 1, .run 2, .run 3, .run 4]

/-- The child never reads, every thread has its turn again and again, and no operation ends: the
input waits for room and holds the lease, the others wait for the lease. -/
theorem unread_input_blocks_control :
    Fair (roundRobin unreadInput) ∧ (∀ n e, roundRobin unreadInput n ≠ .outside e) ∧
      (∃ newToken newLeaseId, roundRobin unreadInput 23 =
        .start 1 (.acquire ⟨false, true, "", some 30, none⟩ newToken newLeaseId)) ∧
      roundRobin unreadInput 24 = .start 2 (.expiry "lease") ∧
      roundRobin unreadInput 25 = .start 3 (.renew "lease" 2 30) ∧
      roundRobin unreadInput 26 = .start 4 (.release "lease" 3) ∧
      ∀ n, 31 ≤ n → ∀ t, (states (Fin 5) 24 80 2 (roundRobin unreadInput) n).Busy t := by
  have hqueued : ∀ t, t ≠ 0 →
      t ∈ (states (Fin 5) 24 80 2 (roundRobin unreadInput) 31).queue .lease := by
    decide +kernel
  have hbusy : ∀ t, (states (Fin 5) 24 80 2 (roundRobin unreadInput) 31).Busy t := by
    decide +kernel
  have hstuck : ∀ t, State.turn machine
      (states (Fin 5) 24 80 2 (roundRobin unreadInput) 31) t =
        states (Fin 5) 24 80 2 (roundRobin unreadInput) 31 := by
    intro t
    by_cases ht : t = 0
    · subst ht
      have hrest : (states (Fin 5) 24 80 2 (roundRobin unreadInput) 31).rest 0 =
          [.work (.writeAll [99]), .work (.record 1), .unlock .writer, .unlock .lease] := by
        decide +kernel
      rw [State.turn, hrest]
      rfl
    · obtain ⟨rest, hrest⟩ := (inv_states 31).queued .lease t (hqueued t ht)
      have hheld : (states (Fin 5) 24 80 2 (roundRobin unreadInput) 31).holder .lease ≠ none := by
        decide +kernel
      simp [State.turn, hrest, hqueued t ht, hheld]
  refine ⟨fair_roundRobin unreadInput, ?_, ⟨_, _, rfl⟩, rfl, rfl, rfl, ?_⟩
  · intro n e
    rw [roundRobin]
    cases hopening : unreadInput[n]? with
    | none => simp
    | some a =>
      rintro rfl
      have hmem := List.mem_of_getElem? hopening
      simp [unreadInput] at hmem
  · intro n hn t
    have hsame : states (Fin 5) 24 80 2 (roundRobin unreadInput) n =
        states (Fin 5) 24 80 2 (roundRobin unreadInput) 31 := states_roundRobin hstuck hn
    rw [hsame]
    exact hbusy t

end AstraShell.Terminal.Blocking
