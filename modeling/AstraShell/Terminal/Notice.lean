import AstraShell.Lib.Broadcast
import AstraShell.Lib.Temporal
import AstraShell.Terminal.Fencing

/-!
# Notice of a revoked lease

The lease events of a terminal go out on a broadcast channel that keeps the last sixteen. The event
loop of an attachment (`handle_attach_inner` of `server.rs`) takes them one by one and tells its
client when its own lease is named; that it has missed some is no reason to say anything. `Site` is
the terminal with any number of attachments, `Site.step` a lease operation of anyone or a turn of
one loop.

Every section that takes a lease away announces it (`announces_step`). An attachment that is never
more than sixteen events behind when it looks gets to its own event: `revoked_controller_told`. One
that is further behind never hears of it: `revoked_controller_not_told`.
-/

set_option autoImplicit false

namespace AstraShell.Terminal

open Lib Lib.Temporal InputState

/-! ## Model -/

/-- The event that tells a client of its lease. -/
structure LeaseChanged where
  readOnly : Bool
  reason : String
  leaseId : String
  leaseTtlMs : Nat
  deriving DecidableEq

def LeaseRevocationReason.text : LeaseRevocationReason → String
  | .takenOver => "taken_over"
  | .expired => "expired"
  | .released => "released"

/-- The channel of lease events keeps this many. -/
def leaseEventCapacity : Nat := 16

inductive Stand where
  /-- Subscribed to the lease events, without a lease yet. -/
  | arrived
  /-- In the event loop. -/
  | running
  | left
  deriving DecidableEq

/-- An attachment, as far as its lease goes. A read-only one has no lease ID. -/
structure Attachment where
  stand : Stand
  leaseId : String
  cursor : Nat
  viewer : Bool
  sent : List LeaseChanged
  deriving DecidableEq

namespace Attachment

/-- Its own lease is named. -/
def told (x : Attachment) (event : LeaseEvent) : Attachment :=
  { x with viewer := true, sent := x.sent ++ [⟨true, event.reason.text, event.revokedLeaseId, 0⟩] }

/-- The branch of the lease events, with what the write to the client gives. -/
def poll (x : Attachment) (events : List LeaseEvent) (write : Except String Unit) : Attachment :=
  match Broadcast.receive leaseEventCapacity events x.cursor with
  | none => x
  | some (.lagged _, next) => { x with cursor := next }
  | some (.value event, next) =>
    if event.revokedLeaseId = x.leaseId then
      match write with
      | .ok _ => { x.told event with cursor := next }
      | .error _ => { x with stand := .left, viewer := true, cursor := next }
    else { x with cursor := next }

end Attachment

structure Site where
  world : World
  attachments : List Attachment

inductive Action where
  /-- A lease operation of anyone. -/
  | server (event : Event)
  /-- A connection asks to attach, and its handler subscribes. -/
  | arrive
  | acquire (i : Nat) (request : AcquireRequest) (newToken newLeaseId : String)
  | poll (i : Nat) (write : Except String Unit)
  /-- The loop ends. -/
  | leave (i : Nat)

namespace Site

def start (rows cols : Nat) : Site := ⟨.start rows cols, []⟩

def step (s : Site) : Action → Site
  | .server event => { s with world := s.world.step event }
  | .arrive =>
    { s with attachments := s.attachments ++
        [⟨.arrived, "", s.world.terminal.leaseEvents.length, false, []⟩] }
  | .acquire i request newToken newLeaseId =>
    match s.attachments[i]? with
    | some x =>
      if x.stand = .arrived then
        { world := s.world.step (.acquire request newToken newLeaseId)
          attachments := s.attachments.set i
            (match (s.world.terminal.acquireResumableLeaseAt request s.world.clock newToken
              newLeaseId).1 with
            | .ok grant =>
              { x with stand := .running, leaseId := grant.leaseId, viewer := request.readOnly }
            | .error _ => { x with stand := .left }) }
      else s
    | none => s
  | .poll i write =>
    match s.attachments[i]? with
    | some x =>
      if x.stand = .running ∧ x.leaseId ≠ "" then
        { s with attachments := s.attachments.set i (x.poll s.world.terminal.leaseEvents write) }
      else s
    | none => s
  | .leave i =>
    match s.attachments[i]? with
    | some x => { s with attachments := s.attachments.set i { x with stand := .left } }
    | none => s

/-- What can happen: random identifiers are new, and only an operation that waits gets a lock. -/
def Enabled (s : Site) : Action → Prop
  | .server event => s.world.Enabled event
  | .acquire _ request newToken newLeaseId => s.world.Enabled (.acquire request newToken newLeaseId)
  | _ => True

instance (w : World) (event : Event) : Decidable (w.Enabled event) :=
  match event with
  | .acquire _ _ _ => inferInstanceAs (Decidable (_ ∧ _ ∧ _ ∧ _))
  | .lock thread _ => inferInstanceAs (Decidable (thread ∈ w.threads))
  | .tick _ | .startExpiry _ | .startCommand _ | .cleanup _ => isTrue trivial

instance (s : Site) (a : Action) : Decidable (s.Enabled a) :=
  match a with
  | .server event => inferInstanceAs (Decidable (s.world.Enabled event))
  | .acquire _ request newToken newLeaseId =>
    inferInstanceAs (Decidable (s.world.Enabled (.acquire request newToken newLeaseId)))
  | .arrive | .poll _ _ | .leave _ => isTrue trivial

def run (rows cols : Nat) (act : ℕ → Action) : ℕ → Site := Temporal.run step (start rows cols) act

/-- The attachment is in its loop and has events to take. -/
def Unread (s : Site) (i : ℕ) : Prop :=
  ∃ x, s.attachments[i]? = some x ∧ x.stand = .running ∧
    x.cursor < s.world.terminal.leaseEvents.length

/-- A loop that has events to take gets to them. -/
def Fair (rows cols : ℕ) (act : ℕ → Action) : Prop :=
  ∀ i n, Unread (run rows cols act n) i →
    ∃ m, n ≤ m ∧ ((∃ write, act m = .poll i write) ∨ ¬ Unread (run rows cols act m) i)

/-- An attachment that looks has missed nothing. -/
def Prompt (s : Site) (a : Action) : Prop :=
  ∀ i write x, a = .poll i write → s.attachments[i]? = some x → x.stand = .running →
    s.world.terminal.leaseEvents.length ≤ x.cursor + leaseEventCapacity

/-- The client was told that its lease is gone. -/
def Told (s : Site) (i : ℕ) : Prop :=
  ∃ x, s.attachments[i]? = some x ∧ ∃ change ∈ x.sent, change.leaseId = x.leaseId

end Site

/-! ## Announcements -/

/-- The lease is kept, if there was one, or it is announced that it is gone. -/
inductive Announces (t t' : InputState) : Prop
  | kept (hevents : t'.leaseEvents = t.leaseEvents)
      (hlease : ∀ lease ∈ t.lease, t'.lease.map Lease.id = some lease.id)
  | revoked (lease : Lease) (reason : LeaseRevocationReason) (hlease : t.lease = some lease)
      (hevents : t'.leaseEvents = t.leaseEvents ++ [⟨lease.id, reason⟩])

theorem Announces.of_eq {t t' : InputState} (hevents : t'.leaseEvents = t.leaseEvents)
    (hlease : t'.lease = t.lease) : Announces t t' := by
  refine .kept hevents ?_
  intro lease hmem
  rw [hlease, Option.mem_def.1 hmem]
  rfl

theorem announces_expireDue (t : InputState) (now : Nat) : Announces t (t.expireDue now) := by
  unfold expireDue
  split
  · exact .of_eq rfl rfl
  next lease hlease =>
    split
    · exact .revoked lease .expired hlease rfl
    · exact .of_eq rfl rfl

/-- A grant after the expiry of a lease that was due: one of the two announces it. -/
theorem announces_granted (t : InputState) (request : AcquireRequest) (now generation : Nat)
    (token newLeaseId : String) :
    Announces t ((t.expireDue now).granted request now generation token newLeaseId) := by
  unfold expireDue
  cases hlease : t.lease with
  | none =>
    refine .kept ?_ ?_
    · simp [granted, hlease]
    · intro lease hmem
      rw [hlease] at hmem
      cases hmem
  | some lease =>
    dsimp only
    split
    · refine .revoked lease .expired hlease ?_
      simp [granted]
    · refine .revoked lease .takenOver hlease ?_
      simp [granted, hlease]

theorem announces_acquire (t : InputState) (request : AcquireRequest) (now : Nat)
    (newToken newLeaseId : String) :
    Announces t (t.acquireResumableLeaseAt request now newToken newLeaseId).2 := by
  have hcases : t.Acquires request now newToken newLeaseId
      (t.acquireResumableLeaseAt request now newToken newLeaseId).1
      (t.acquireResumableLeaseAt request now newToken newLeaseId).2 :=
    acquireResumableLeaseAt_cases rfl
  generalize (t.acquireResumableLeaseAt request now newToken newLeaseId).1 = result at hcases
  generalize (t.acquireResumableLeaseAt request now newToken newLeaseId).2 = t' at hcases ⊢
  cases hcases with
  | malformed e | readOnly hreadOnly => exact .of_eq rfl rfl
  | refused e => exact announces_expireDue t now
  | resumed grant | fresh grant => exact announces_granted t request now _ _ _

theorem announces_expiry (t : InputState) (leaseId : String) (now : Nat) :
    Announces t (t.expireLeaseIfDueAt leaseId now) := by
  rcases t.expireLeaseIfDueAt_cases leaseId now with hsame | ⟨lease, hlease, rfl, -, hexpired⟩
  · rw [hsame]
    exact .of_eq rfl rfl
  · rw [hexpired]
    exact .revoked lease .expired hlease rfl

theorem Announces.of_renewed {t t' : InputState} {current renewed : Lease}
    (hlease : t.lease = some current) (hevents : t'.leaseEvents = t.leaseEvents)
    (hlease' : t'.lease = some renewed) (hid : renewed.id = current.id) : Announces t t' := by
  refine .kept hevents ?_
  intro lease hmem
  rw [hlease] at hmem
  cases hmem
  rw [hlease', Option.map_some, hid]

theorem announces_act (t : InputState) (command : Command) (now : Nat)
    (device : InputState.DeviceResult) : Announces t (t.act command now device).2 := by
  unfold act
  cases hvalid : t.validateLease command.leaseId command.sequence with
  | error e =>
    cases command.kind <;>
      simp only [writeInput, resize, renewLeaseAt, releaseLeaseCommand, hvalid] <;>
      exact .of_eq rfl rfl
  | ok current =>
    obtain ⟨hlease, hid, -⟩ := validateLease_eq_ok_iff.1 hvalid
    cases command.kind <;>
      simp only [writeInput, resize, renewLeaseAt, releaseLeaseCommand, hvalid]
    case release =>
      rw [← hid]
      exact .revoked current .released hlease rfl
    case renew => exact .of_renewed hlease rfl rfl rfl
    all_goals
      cases device with
      | failed taken e => exact .of_eq rfl rfl
      | done => exact .of_renewed hlease rfl rfl rfl

/-- Only the cleanup of a connection takes a lease away in silence. -/
theorem announces_step (w : World) {event : Event} (h : ∀ leaseId, event ≠ .cleanup leaseId) :
    Announces w.terminal (w.step event).terminal := by
  rw [World.step_terminal]
  split
  · exact announces_acquire w.terminal _ w.clock _ _
  · exact announces_expiry w.terminal _ _
  · exact announces_expiry w.terminal _ _
  · exact announces_act w.terminal _ w.clock _
  next leaseId => exact absurd rfl (h leaseId)
  · exact .of_eq rfl rfl

theorem leaseEvents_step (w : World) (event : Event) :
    ∃ more, (w.step event).terminal.leaseEvents = w.terminal.leaseEvents ++ more := by
  by_cases hcleanup : ∃ leaseId, event = .cleanup leaseId
  · obtain ⟨leaseId, rfl⟩ := hcleanup
    refine ⟨[], ?_⟩
    rw [List.append_nil, World.step_terminal]
    dsimp only
    rcases w.terminal.releaseLease_cases leaseId with hsame | ⟨lease, -, -, hreleased⟩
    · rw [hsame]
    · rw [hreleased]
  · cases @announces_step w event fun leaseId h => hcleanup ⟨leaseId, h⟩ with
    | kept hevents => exact ⟨[], by rw [hevents, List.append_nil]⟩
    | revoked lease reason _ hevents => exact ⟨_, hevents⟩

/-- Lease IDs are not empty. -/
theorem World.Reachable.ids_ne {w : World} (h : w.Reachable) : ∀ id ∈ w.ids, id ≠ "" := by
  induction h with
  | start rows cols => nofun
  | @step w _ event henabled ih =>
    cases event with
    | acquire request newToken newLeaseId =>
      have hcases : w.terminal.Acquires request w.clock newToken newLeaseId
          (w.terminal.acquireResumableLeaseAt request w.clock newToken newLeaseId).1
          (w.terminal.acquireResumableLeaseAt request w.clock newToken newLeaseId).2 :=
        acquireResumableLeaseAt_cases rfl
      rw [World.step]
      generalize w.terminal.acquireResumableLeaseAt request w.clock newToken newLeaseId = result
        at hcases
      obtain ⟨outcome, terminal⟩ := result
      have hnew : newLeaseId ≠ "" := by
        rintro rfl
        cases henabled.2.1.1
      cases outcome with
      | error e => exact ih
      | ok grant =>
        dsimp only
        split
        · exact ih
        next hwritable =>
          have hgrant : grant.leaseId = newLeaseId := by
            cases hcases with
            | readOnly hreadOnly => exact absurd hreadOnly hwritable
            | resumed _ _ _ _ hgrant | fresh _ _ _ _ hgrant => exact hgrant.1
          intro id hmem
          rcases List.mem_cons.1 hmem with rfl | hold
          · rw [hgrant]
            exact hnew
          · exact ih id hold
    | tick _ | startExpiry _ | cleanup _ => exact ih
    | startCommand command =>
      rw [World.step]
      split <;> exact ih
    | lock thread device =>
      cases thread with
      | expiry _ _ | validate _ _ => exact ih
      | act command =>
        rw [World.step]
        split <;> exact ih

/-! ## Attachments -/

namespace Site

/-- What a step does to an attachment. -/
inductive Moves (s : Site) (a : Action) (i : ℕ) (x x' : Attachment) : Prop
  | same (hsame : x' = x)
      (hother : ∀ write, a = .poll i write → x.stand ≠ .running ∨ x.leaseId = "")
  | acquired (hstand : x.stand = .arrived) (hcursor : x'.cursor = x.cursor)
  | polled (write : Except String Unit) (ha : a = .poll i write) (hstand : x.stand = .running)
      (hlease : x.leaseId ≠ "") (hpoll : x' = x.poll s.world.terminal.leaseEvents write)
  | left (hstand : x'.stand = .left) (hcursor : x'.cursor = x.cursor)

variable {x : Attachment} {i : ℕ}

theorem getElem?_set_cases {xs : List Attachment} {j : ℕ} {y : Attachment} (h : xs[i]? = some x) :
    (xs.set j y)[i]? = some (if j = i then y else x) := by
  rw [List.getElem?_set]
  have hlt : i < xs.length := (List.getElem?_eq_some_iff.1 h).1
  split
  next heq =>
    subst heq
    rw [if_pos hlt]
  · exact h

variable {s : Site}

theorem moves_step (h : s.attachments[i]? = some x)
    (a : Action) : ∃ x', (s.step a).attachments[i]? = some x' ∧ Moves s a i x x' := by
  cases a with
  | server event => exact ⟨x, h, .same rfl nofun⟩
  | arrive =>
    refine ⟨x, ?_, .same rfl nofun⟩
    exact List.getElem?_append_left (List.getElem?_eq_some_iff.1 h).1 |>.trans h
  | acquire j request newToken newLeaseId =>
    rw [step]
    split
    next y hy =>
      split
      next hstand =>
        refine ⟨_, getElem?_set_cases h, ?_⟩
        split
        next heq =>
          subst heq
          rw [h] at hy
          cases hy
          refine .acquired hstand ?_
          split <;> rfl
        · exact .same rfl nofun
      · exact ⟨x, h, .same rfl nofun⟩
    · exact ⟨x, h, .same rfl nofun⟩
  | poll j write =>
    rw [step]
    split
    next y hy =>
      split
      next hpoll =>
        refine ⟨_, getElem?_set_cases h, ?_⟩
        split
        next heq =>
          subst heq
          rw [h] at hy
          cases hy
          exact .polled write rfl hpoll.1 hpoll.2 rfl
        next hne =>
          refine .same rfl ?_
          rintro write' ⟨⟩
          exact absurd rfl hne
      next hidle =>
        refine ⟨x, h, .same rfl ?_⟩
        rintro write' ⟨⟩
        rw [h] at hy
        cases hy
        by_cases hstand : x.stand = .running
        · exact .inr (not_not.1 fun hlease => hidle ⟨hstand, hlease⟩)
        · exact .inl hstand
    next hnone =>
      refine ⟨x, h, .same rfl ?_⟩
      rintro write' ⟨⟩
      rw [h] at hnone
      cases hnone
  | leave j =>
    rw [step]
    split
    next y hy =>
      refine ⟨_, getElem?_set_cases h, ?_⟩
      split
      next heq =>
        subst heq
        rw [h] at hy
        cases hy
        exact .left rfl rfl
      · exact .same rfl nofun
    · exact ⟨x, h, .same rfl nofun⟩

/-- A step is none of the terminal's, or one lease operation. -/
theorem world_step (s : Site) (a : Action) :
    (s.step a).world = s.world ∨ ∃ event, (s.step a).world = s.world.step event ∧
      (s.Enabled a → s.world.Enabled event) ∧
      ((∀ leaseId, a ≠ .server (.cleanup leaseId)) → ∀ leaseId, event ≠ .cleanup leaseId) := by
  cases a with
  | server event =>
    refine .inr ⟨event, rfl, id, ?_⟩
    rintro h leaseId rfl
    exact h leaseId rfl
  | arrive => exact .inl rfl
  | acquire j request newToken newLeaseId =>
    rw [step]
    split
    · split
      · exact .inr ⟨.acquire request newToken newLeaseId, rfl, id, fun _ => nofun⟩
      · exact .inl rfl
    · exact .inl rfl
  | poll j write =>
    rw [step]
    split
    · split <;> exact .inl rfl
    · exact .inl rfl
  | leave j =>
    rw [step]
    split <;> exact .inl rfl

theorem leaseEvents_step (s : Site) (a : Action) :
    ∃ more, (s.step a).world.terminal.leaseEvents = s.world.terminal.leaseEvents ++ more := by
  rcases world_step s a with hsame | ⟨event, hworld, -, -⟩
  · exact ⟨[], by rw [hsame, List.append_nil]⟩
  · rw [hworld]
    exact Terminal.leaseEvents_step s.world event

variable {rows cols n k : ℕ} {event : LeaseEvent}

/-- What was announced stays in its place. -/
theorem getElem?_leaseEvents {act : ℕ → Action} {m : ℕ} (hnm : n ≤ m)
    (h : (run rows cols act n).world.terminal.leaseEvents[k]? = some event) :
    (run rows cols act m).world.terminal.leaseEvents[k]? = some event := by
  induction m, hnm using Nat.le_induction with
  | base => exact h
  | succ m _ ih =>
    obtain ⟨more, hmore⟩ := leaseEvents_step (run rows cols act m) (act m)
    have hnext : (run rows cols act (m + 1)).world.terminal.leaseEvents =
        (run rows cols act m).world.terminal.leaseEvents ++ more := hmore
    rw [hnext, List.getElem?_append_left (List.getElem?_eq_some_iff.1 ih).1]
    exact ih

variable {events : List LeaseEvent}

/-- A poll that has missed nothing takes the next event. -/
theorem poll_next (hlag : events.length ≤ x.cursor + leaseEventCapacity)
    (h : events[x.cursor]? = some event) (write : Except String Unit) :
    (x.poll events write).stand = .left ∨
      (x.poll events write).leaseId = x.leaseId ∧ (x.poll events write).cursor = x.cursor + 1 ∧
        (event.revokedLeaseId = x.leaseId →
          ∃ change ∈ (x.poll events write).sent, change.leaseId = x.leaseId) := by
  unfold Attachment.poll
  rw [Broadcast.receive, if_neg (Nat.not_lt.2 hlag), h]
  dsimp only [Option.map]
  split
  next hown =>
    cases write with
    | ok _ =>
      refine .inr ⟨rfl, rfl, fun _ => ⟨_, List.mem_append_right _ List.mem_cons_self, hown⟩⟩
    | error e => exact .inl rfl
  next hother => exact .inr ⟨rfl, rfl, fun hown => absurd hown hother⟩

theorem poll_leaseId (x : Attachment) (events : List LeaseEvent) (write : Except String Unit) :
    (x.poll events write).leaseId = x.leaseId := by
  unfold Attachment.poll
  split
  · rfl
  · rfl
  · split
    · split <;> rfl
    · rfl

theorem poll_cursor_le (h : x.cursor ≤ events.length)
    (write : Except String Unit) : (x.poll events write).cursor ≤ events.length := by
  unfold Attachment.poll
  split
  · exact h
  next hlagged =>
    obtain ⟨-, rfl⟩ := Broadcast.receive_lagged hlagged
    exact Nat.sub_le _ _
  next hvalue =>
    obtain ⟨hevent, rfl⟩ := Broadcast.receive_value hvalue
    have hlt := (List.getElem?_eq_some_iff.1 hevent).1
    split
    · split <;> exact hlt
    · exact hlt

theorem step_new (h : s.attachments[i]? = none) (a : Action)
    (hx : (s.step a).attachments[i]? = some x) :
    x.cursor = s.world.terminal.leaseEvents.length := by
  cases a with
  | server event =>
    rw [step, h] at hx
    cases hx
  | arrive =>
    rw [step, List.getElem?_append_right (List.getElem?_eq_none_iff.1 h),
      List.getElem?_singleton] at hx
    split at hx
    · cases hx
      rfl
    · cases hx
  | acquire j request newToken newLeaseId | poll j write =>
    rw [step] at hx
    split at hx
    · split at hx
      · rw [List.getElem?_eq_none (by simpa using h)] at hx
        cases hx
      · rw [h] at hx
        cases hx
    · rw [h] at hx
      cases hx
  | leave j =>
    rw [step] at hx
    split at hx
    · rw [List.getElem?_eq_none (by simpa using h)] at hx
      cases hx
    · rw [h] at hx
      cases hx

/-- No attachment is ahead of the channel. -/
theorem cursor_le_run (rows cols : ℕ) (act : ℕ → Action) (n i : ℕ) (x : Attachment)
    (hx : (run rows cols act n).attachments[i]? = some x) :
    x.cursor ≤ (run rows cols act n).world.terminal.leaseEvents.length := by
  induction n generalizing x with
  | zero => cases hx
  | succ n ih =>
    have hnext : run rows cols act (n + 1) = (run rows cols act n).step (act n) := rfl
    rw [hnext] at hx ⊢
    obtain ⟨more, hmore⟩ := leaseEvents_step (run rows cols act n) (act n)
    rw [hmore, List.length_append]
    refine Nat.le_trans ?_ (Nat.le_add_right _ _)
    cases hold : (run rows cols act n).attachments[i]? with
    | none => exact Nat.le_of_eq (step_new hold _ hx)
    | some y =>
      have hle := ih y hold
      obtain ⟨x', hx', hmoves⟩ := moves_step hold (act n)
      rw [hx'] at hx
      cases hx
      cases hmoves with
      | same hsame =>
        rw [hsame]
        exact hle
      | acquired _ hcursor | left _ hcursor =>
        rw [hcursor]
        exact hle
      | polled write _ _ _ hpoll =>
        rw [hpoll]
        exact poll_cursor_le hle write

/-! ## Main result -/

/-- The attachment is in its loop, and its own event is still ahead. -/
def Ahead (s : Site) (i : ℕ) (leaseId : String) (k : ℕ) : Prop :=
  ∃ x, s.attachments[i]? = some x ∧ x.stand = .running ∧ x.leaseId = leaseId ∧ x.cursor ≤ k

/-- How many events there are before it. -/
def distance (s : Site) (i k : ℕ) : ℕ := k - (s.attachments[i]?.map Attachment.cursor).getD 0

variable {leaseId : String}

theorem Ahead.unread (h : Ahead s i leaseId k)
    (hevent : s.world.terminal.leaseEvents[k]? = some event) : Unread s i := by
  obtain ⟨x, hx, hrunning, -, hcursor⟩ := h
  exact ⟨x, hx, hrunning, Nat.lt_of_le_of_lt hcursor (List.getElem?_eq_some_iff.1 hevent).1⟩

/-- A step keeps the event ahead, or gets to it; a poll gets closer. -/
theorem Ahead.step {a : Action} {reason : LeaseRevocationReason}
    (h : Ahead s i leaseId k) (hlease : leaseId ≠ "")
    (hevent : s.world.terminal.leaseEvents[k]? = some ⟨leaseId, reason⟩) (hprompt : Prompt s a)
    (hstays : ∃ x, (s.step a).attachments[i]? = some x ∧ x.stand = .running) :
    Told (s.step a) i ∨ Ahead (s.step a) i leaseId k ∧
      (s.step a).distance i k ≤ s.distance i k ∧
      ((∃ write, a = .poll i write) → (s.step a).distance i k < s.distance i k) := by
  obtain ⟨x, hx, hrunning, rfl, hcursor⟩ := h
  obtain ⟨x', hx', hmoves⟩ := moves_step hx a
  obtain ⟨y, hy, hstill⟩ := hstays
  rw [hx'] at hy
  cases hy
  have hlt : k < s.world.terminal.leaseEvents.length := (List.getElem?_eq_some_iff.1 hevent).1
  have hdistance : s.distance i k = k - x.cursor := by rw [distance, hx]; rfl
  have hdistance' : (s.step a).distance i k = k - x'.cursor := by rw [distance, hx']; rfl
  cases hmoves with
  | same hsame hother =>
    subst hsame
    refine .inr ⟨⟨x', hx', hrunning, rfl, hcursor⟩, by omega, ?_⟩
    rintro ⟨write, ha⟩
    rcases hother write ha with hnot | hempty
    · exact absurd hrunning hnot
    · exact absurd hempty hlease
  | acquired harrived =>
    rw [hrunning] at harrived
    cases harrived
  | left hleft =>
    rw [hstill] at hleft
    cases hleft
  | polled write ha _ _ hpoll =>
    have hlag := hprompt i write x ha hx hrunning
    have hnext : ∃ event, s.world.terminal.leaseEvents[x.cursor]? = some event :=
      ⟨_, List.getElem?_eq_getElem (Nat.lt_of_le_of_lt hcursor hlt)⟩
    obtain ⟨event, hnext⟩ := hnext
    rcases poll_next hlag hnext write with hleft | ⟨hid, hcursor', hown⟩
    · rw [← hpoll, hstill] at hleft
      cases hleft
    rw [← hpoll] at hid hcursor' hown
    by_cases hnamed : event.revokedLeaseId = x.leaseId
    · obtain ⟨change, hmem, hchange⟩ := hown hnamed
      exact .inl ⟨x', hx', change, hmem, hchange.trans hid.symm⟩
    · -- The event at `k` names the lease, so this one comes before it.
      have hne : x.cursor ≠ k := by
        rintro heq
        rw [heq, hevent] at hnext
        cases hnext
        exact hnamed rfl
      refine .inr ⟨⟨x', hx', hstill, hid, by omega⟩, by omega, fun _ => by omega⟩

theorem reachable_run {act : ℕ → Action} (henabled : ∀ n, Enabled (run rows cols act n) (act n))
    (n : ℕ) : World.Reachable (run rows cols act n).world := by
  induction n with
  | zero => exact .start rows cols
  | succ n ih =>
    have hnext : (run rows cols act (n + 1)).world = ((run rows cols act n).step (act n)).world :=
      rfl
    rw [hnext]
    rcases world_step (run rows cols act n) (act n) with hsame | ⟨event, hworld, hevent, -⟩
    · rwa [hsame]
    · rw [hworld]
      exact .step ih event (hevent (henabled n))

/-- When the channel never overruns an attachment that looks, a controller whose lease is taken
over, expires or is released by command, and that stays in its loop, is told so. -/
theorem revoked_controller_told (rows cols : ℕ) (act : ℕ → Action)
    (henabled : ∀ n, Enabled (run rows cols act n) (act n)) (hfair : Fair rows cols act)
    (hprompt : ∀ n, Prompt (run rows cols act n) (act n)) (n i : ℕ) (x : Attachment)
    (hx : (run rows cols act n).attachments[i]? = some x)
    (hlease : (run rows cols act n).world.terminal.lease.map Lease.id = some x.leaseId)
    (hgone : (run rows cols act (n + 1)).world.terminal.lease.map Lease.id ≠ some x.leaseId)
    (hcommand : ∀ leaseId, act n ≠ .server (.cleanup leaseId))
    (hstays : ∀ m, n ≤ m →
      ∃ y, (run rows cols act m).attachments[i]? = some y ∧ y.stand = .running) :
    ∃ m, n ≤ m ∧ Told (run rows cols act m) i := by
  obtain ⟨lease, hcurrent, hid⟩ := Option.map_eq_some_iff.1 hlease
  have hreachable := reachable_run henabled n
  have hnonempty : x.leaseId ≠ "" := by
    rw [← hid]
    exact hreachable.ids_ne _ (hreachable.inv.lease_id lease hcurrent).1
  -- The step that takes the lease away announces it after all events so far.
  obtain ⟨reason, hevent⟩ : ∃ reason, (run rows cols act (n + 1)).world.terminal.leaseEvents[
      (run rows cols act n).world.terminal.leaseEvents.length]? = some ⟨x.leaseId, reason⟩ := by
    rcases world_step (run rows cols act n) (act n) with hsame | ⟨event, hworld, -, hcleanup⟩
    · have hkept : (run rows cols act (n + 1)).world = (run rows cols act n).world := hsame
      rw [hkept] at hgone
      exact absurd hlease hgone
    · have hnext : (run rows cols act (n + 1)).world = (run rows cols act n).world.step event :=
        hworld
      rw [hnext] at hgone ⊢
      cases announces_step _ (hcleanup hcommand) with
      | kept _ hkept =>
        rw [hkept lease hcurrent, hid] at hgone
        exact absurd rfl hgone
      | revoked lease' reason hlease' hevents =>
        rw [hcurrent] at hlease'
        cases hlease'
        refine ⟨reason, ?_⟩
        rw [hevents, List.getElem?_concat_length, hid]
  generalize hk : (run rows cols act n).world.terminal.leaseEvents.length = k at hevent
  have hahead : Ahead (run rows cols act (n + 1)) i x.leaseId k := by
    have hle := cursor_le_run rows cols act n i x hx
    obtain ⟨y, hy, hrunning⟩ := hstays n (Nat.le_refl n)
    obtain ⟨z, hz, hstill⟩ := hstays (n + 1) (Nat.le_succ n)
    rw [hx] at hy
    cases hy
    obtain ⟨x', hx', hmoves⟩ := moves_step hx (act n)
    have hz' : (run rows cols act (n + 1)).attachments[i]? = some x' := hx'
    rw [hz', Option.some.injEq] at hz
    rw [← hz] at hstill
    refine ⟨x', hz', hstill, ?_⟩
    cases hmoves with
    | same hsame =>
      subst hsame
      exact ⟨rfl, by omega⟩
    | acquired harrived =>
      rw [hrunning] at harrived
      cases harrived
    | left hleft =>
      rw [hstill] at hleft
      cases hleft
    | polled write _ _ _ hpoll =>
      rw [hpoll]
      exact ⟨poll_leaseId x _ write, hk ▸ poll_cursor_le hle write⟩
  have hleads : LeadsTo (fun m => n + 1 ≤ m ∧ Ahead (run rows cols act m) i x.leaseId k)
      (fun m => Told (run rows cols act m) i) := by
    have hstep : ∀ m, n + 1 ≤ m ∧ Ahead (run rows cols act m) i x.leaseId k →
        Told (run rows cols act (m + 1)) i ∨
          (n + 1 ≤ m + 1 ∧ Ahead (run rows cols act (m + 1)) i x.leaseId k) ∧
            (run rows cols act (m + 1)).distance i k ≤ (run rows cols act m).distance i k ∧
            ((∃ write, act m = .poll i write) →
              (run rows cols act (m + 1)).distance i k < (run rows cols act m).distance i k) := by
      rintro m ⟨hm, hm'⟩
      have hnext := hm'.step hnonempty (getElem?_leaseEvents hm hevent) (hprompt m)
        (hstays (m + 1) (by omega))
      exact hnext.imp_right fun h => ⟨⟨by omega, h.1⟩, h.2⟩
    refine leadsTo_of_variant (fun m => (run rows cols act m).distance i k)
      (fun m => (∃ write, act m = .poll i write) ∨ ¬ Unread (run rows cols act m) i) ?_ ?_ ?_
    · intro m hm
      exact (hstep m hm).imp_right fun h => ⟨h.1, h.2.1⟩
    · rintro m ⟨hm, hm'⟩
      exact hfair i m (hm'.unread (getElem?_leaseEvents hm hevent))
    · rintro m ⟨hm, hm'⟩ hhelpful
      rcases hhelpful with hpoll | hread
      · exact (hstep m ⟨hm, hm'⟩).imp_right fun h => ⟨h.1, h.2.2 hpoll⟩
      · exact absurd (hm'.unread (getElem?_leaseEvents hm hevent)) hread
  obtain ⟨m, hm, htold⟩ := hleads (n + 1) ⟨Nat.le_refl _, hahead⟩
  exact ⟨m, by omega, htold⟩

/-! ## Runs with one attachment -/

/-- Identifiers that are told apart by two digits. -/
def uuid (k : Nat) : String :=
  "00000000-0000-4000-8000-0000000000" ++
    String.ofList [Nat.digitChar (k / 10), Nat.digitChar (k % 10)]

def takeover : AcquireRequest := ⟨false, true, "", none, none⟩

/-- An attachment takes the lease, and after it as many others do. -/
def takenOverBy (others : Nat) : List Action :=
  .arrive :: .acquire 0 takeover (uuid 0) (uuid 0) ::
    (List.range others).map fun k => .server (.acquire takeover (uuid (k + 1)) (uuid (k + 1)))

/-- From then on the attachment polls. -/
def thenPolls (first : List Action) (n : ℕ) : Action := first.getD n (.poll 0 (.ok ()))

variable {first : List Action}

theorem thenPolls_of_le (h : first.length ≤ n) : thenPolls first n = .poll 0 (.ok ()) :=
  List.getD_eq_default _ _ h

theorem poll_world (s : Site) (i : ℕ) (write : Except String Unit) :
    (s.step (.poll i write)).world = s.world := by
  rw [step]
  split
  · split <;> rfl
  · rfl

/-- The attachment of these runs before it has polled. -/
def firstHolder : Attachment := ⟨.running, uuid 0, 0, false, []⟩

theorem enabled_thenPolls
    (h : ∀ n < first.length, Enabled (run rows cols (thenPolls first) n) (thenPolls first n))
    (n : ℕ) :
    Enabled (run rows cols (thenPolls first) n) (thenPolls first n) := by
  by_cases hn : n < first.length
  · exact h n hn
  · rw [thenPolls_of_le (Nat.le_of_not_lt hn)]
    trivial

section

variable (hk : first.length ≤ k)
  (hfixed : ((run rows cols (thenPolls first) k).step (.poll 0 (.ok ()))).attachments =
    (run rows cols (thenPolls first) k).attachments)

include hk hfixed

/-- Once a poll finds nothing the run stands still. -/
theorem run_read (hn : k ≤ n) :
    run rows cols (thenPolls first) n = run rows cols (thenPolls first) k := by
  refine run_of_fixed (fun m hm => ?_) hn
  rw [thenPolls_of_le (hk.trans hm)]
  have hworld := poll_world (run rows cols (thenPolls first) k) 0 (.ok ())
  exact congrArg₂ Site.mk hworld hfixed

theorem fair_of_read (hread : ∀ x ∈ (run rows cols (thenPolls first) k).attachments,
      (run rows cols (thenPolls first) k).world.terminal.leaseEvents.length ≤ x.cursor) :
    Fair rows cols (thenPolls first) := by
  intro i n _
  refine ⟨max n k, Nat.le_max_left _ _, .inr ?_⟩
  rw [run_read hk hfixed (Nat.le_max_right _ _)]
  rintro ⟨x, hx, -, hunread⟩
  exact absurd (hread x (List.mem_of_getElem? hx)) (Nat.not_le.2 hunread)

theorem stays_of_read (hruns : ∀ m ≤ k, 2 ≤ m →
      (run rows cols (thenPolls first) m).attachments[0]?.map Attachment.stand = some .running)
    (h : 2 ≤ k) (m : ℕ) (hm : 2 ≤ m) :
    ∃ y, (run rows cols (thenPolls first) m).attachments[0]? = some y ∧ y.stand = .running := by
  apply Option.map_eq_some_iff.1
  rcases Nat.le_total m k with hle | hge
  · exact hruns m hle hm
  · rw [run_read hk hfixed hge]
    exact hruns k le_rfl h

end

/-- One takeover is heard of. -/
theorem revoked_controller_told_once :
    ∃ m, 2 ≤ m ∧ Told (run 24 80 (thenPolls (takenOverBy 1)) m) 0 := by
  have hfixed : ((run 24 80 (thenPolls (takenOverBy 1)) 4).step (.poll 0 (.ok ()))).attachments =
      (run 24 80 (thenPolls (takenOverBy 1)) 4).attachments := by
    decide +kernel
  have hprompt : ∀ n ≤ 4, ∀ x ∈ (run 24 80 (thenPolls (takenOverBy 1)) n).attachments,
      (run 24 80 (thenPolls (takenOverBy 1)) n).world.terminal.leaseEvents.length ≤
        x.cursor + leaseEventCapacity := by
    decide +kernel
  refine revoked_controller_told 24 80 (thenPolls (takenOverBy 1)) ?_
    (fair_of_read (by decide) hfixed (by decide +kernel)) ?_ 2 0 firstHolder (by decide +kernel)
    (by decide +kernel) (by decide +kernel) nofun
    (stays_of_read (by decide) hfixed (by decide +kernel) (by decide))
  · exact enabled_thenPolls (by decide +kernel)
  · intro n i write x _ hx _
    rcases Nat.le_total n 4 with hle | hge
    · exact hprompt n hle x (List.mem_of_getElem? hx)
    · rw [run_read (by decide) hfixed hge] at hx ⊢
      exact hprompt 4 le_rfl x (List.mem_of_getElem? hx)

/-- The attachment has lost the first event, and has read all others after seventeen polls. -/
theorem fixed_takenOverOften :
    ((run 24 80 (thenPolls (takenOverBy 17)) 36).step (.poll 0 (.ok ()))).attachments =
      (run 24 80 (thenPolls (takenOverBy 17)) 36).attachments := by
  decide +kernel

theorem silent_takenOverOften (m : ℕ) : ¬ Told (run 24 80 (thenPolls (takenOverBy 17)) m) 0 := by
  have hsilent : ∀ m ≤ 36, ∀ x ∈ (run 24 80 (thenPolls (takenOverBy 17)) m).attachments,
      x.sent = [] := by
    decide +kernel
  rintro ⟨x, hx, change, hmem, -⟩
  rcases Nat.le_total m 36 with hle | hge
  · rw [hsilent m hle x (List.mem_of_getElem? hx)] at hmem
    cases hmem
  · rw [run_read (by decide) fixed_takenOverOften hge] at hx
    rw [hsilent 36 le_rfl x (List.mem_of_getElem? hx)] at hmem
    cases hmem

/-- Seventeen takeovers before the first poll: the attachment stays in its loop and is never told.
-/
theorem revoked_controller_not_told :
    (∀ n, Enabled (run 24 80 (thenPolls (takenOverBy 17)) n) (thenPolls (takenOverBy 17) n)) ∧
      Fair 24 80 (thenPolls (takenOverBy 17)) ∧
      (run 24 80 (thenPolls (takenOverBy 17)) 2).attachments[0]? = some firstHolder ∧
      (run 24 80 (thenPolls (takenOverBy 17)) 2).world.terminal.lease.map Lease.id =
        some firstHolder.leaseId ∧
      (run 24 80 (thenPolls (takenOverBy 17)) 3).world.terminal.lease.map Lease.id ≠
        some firstHolder.leaseId ∧
      (∀ leaseId, thenPolls (takenOverBy 17) 2 ≠ .server (.cleanup leaseId)) ∧
      (∀ m, 2 ≤ m → ∃ y, (run 24 80 (thenPolls (takenOverBy 17)) m).attachments[0]? = some y ∧
        y.stand = .running) ∧
      ∀ m, ¬ Told (run 24 80 (thenPolls (takenOverBy 17)) m) 0 := by
  exact ⟨enabled_thenPolls (by decide +kernel),
    fair_of_read (by decide) fixed_takenOverOften (by decide +kernel), by decide +kernel,
    by decide +kernel, by decide +kernel, nofun,
    stays_of_read (by decide) fixed_takenOverOften (by decide +kernel) (by decide),
    silent_takenOverOften⟩

end Site

end AstraShell.Terminal
