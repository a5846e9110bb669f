import AstraShell.Terminal.Lease

/-!
# Fencing of terminal input

Any number of connections work on one terminal. Their lease operations interleave section by
section: a command reads the clock, later expires its lease, and later still checks the lease and
acts, and between any two of these anything else may happen. Acquisitions, expiries and the cleanup
of ended connections come in any order.

`World` adds to the terminal what happened so far: the lease IDs and tokens ever issued, the IDs
that have ended, the tokens that were revoked, and the sequence numbers that were accepted. No
operation reads these. Random identifiers are new when they are drawn (`Enabled`).

`World.Reachable.inv` is the invariant; `input_lease_fencing` is what it gives.
-/

set_option autoImplicit false

namespace AstraShell.Terminal

open Lib

/-- An operation that has read the clock and waits for the lease lock. -/
inductive Thread where
  /-- `expire_lease_if_due`. -/
  | expiry (leaseId : String) (now : Nat)
  /-- A command before the expiry of its lease. -/
  | validate (command : Command) (now : Nat)
  /-- A command after it. -/
  | act (command : Command)
  deriving DecidableEq

structure World where
  terminal : InputState
  clock : Nat
  threads : List Thread
  ids : List String
  tokens : List String
  ended : List String
  revoked : List String
  accepted : List (String × Nat)

/-- What can happen. -/
inductive Event where
  | tick (duration : Nat)
  | acquire (request : AcquireRequest) (newToken newLeaseId : String)
  | startExpiry (leaseId : String)
  | startCommand (command : Command)
  /-- A waiting operation gets the lock. -/
  | lock (thread : Thread) (device : InputState.DeviceResult)
  /-- A connection ends. -/
  | cleanup (leaseId : String)

/-- The lease ID that is current before and no longer after. -/
def endedId (t t' : InputState) : List String :=
  match t.lease with
  | none => []
  | some lease => if t'.lease.map Lease.id = some lease.id then [] else [lease.id]

namespace World

def start (rows cols : Nat) : World where
  terminal := .spawned rows cols
  clock := 0
  threads := []
  ids := []
  tokens := []
  ended := []
  revoked := []
  accepted := []

/-- The world after a section that leaves `terminal`. -/
def settle (w : World) (terminal : InputState) : World :=
  { w with terminal := terminal, ended := endedId w.terminal terminal ++ w.ended }

/-- The history after a writable grant. A grant that is not a resumption revokes every token. -/
def grant (w : World) (request : AcquireRequest) (grant : LeaseGrant) : World :=
  { w with
    ids := grant.leaseId :: w.ids
    tokens := grant.resumeToken :: w.tokens
    revoked := if request.resuming then w.revoked else w.tokens ++ w.revoked }

/-- The history after an accepted command. A release revokes the token of its lease. -/
def accept (w : World) (command : Command) (lease : Option Lease) : World :=
  { w with
    accepted := (command.leaseId, command.sequence) :: w.accepted
    revoked :=
      if command.kind = .release then (lease.map Lease.resumeToken).toList ++ w.revoked
      else w.revoked }

def step (w : World) : Event → World
  | .tick duration => { w with clock := w.clock + duration }
  | .acquire request newToken newLeaseId =>
    match w.terminal.acquireResumableLeaseAt request w.clock newToken newLeaseId with
    | (.ok granted, terminal) =>
      if request.readOnly then w.settle terminal
      else (w.settle terminal).grant request granted
    | (.error _, terminal) => w.settle terminal
  | .startExpiry leaseId => { w with threads := .expiry leaseId w.clock :: w.threads }
  | .startCommand command =>
    match command.check with
    | .error _ => w
    | .ok _ => { w with threads := .validate command w.clock :: w.threads }
  | .lock thread device =>
    let w := { w with threads := w.threads.erase thread }
    match thread with
    | .expiry leaseId now => w.settle (w.terminal.expireLeaseIfDueAt leaseId now)
    | .validate command now =>
      settle { w with threads := .act command :: w.threads }
        (w.terminal.expireLeaseIfDueAt command.leaseId now)
    | .act command =>
      match w.terminal.act command w.clock device with
      | (.ok _, terminal) => (w.settle terminal).accept command w.terminal.lease
      | (.error _, terminal) => w.settle terminal
  | .cleanup leaseId => w.settle (w.terminal.releaseLease leaseId)

/-- The terminal after a step, whatever becomes of the history. -/
theorem step_terminal (w : World) (event : Event) : (w.step event).terminal =
    match event with
    | .acquire request newToken newLeaseId =>
      (w.terminal.acquireResumableLeaseAt request w.clock newToken newLeaseId).2
    | .lock (.expiry leaseId now) _ => w.terminal.expireLeaseIfDueAt leaseId now
    | .lock (.validate command now) _ => w.terminal.expireLeaseIfDueAt command.leaseId now
    | .lock (.act command) device => (w.terminal.act command w.clock device).2
    | .cleanup leaseId => w.terminal.releaseLease leaseId
    | _ => w.terminal := by
  unfold step
  split
  · rfl
  · split
    · split <;> simp [*, settle, grant]
    · simp [*, settle]
  · rfl
  · split <;> rfl
  · dsimp only
    split
    · rfl
    · rfl
    · split <;> simp [*, settle, accept]
  · rfl

/-- Random identifiers are new, and only an operation that waits gets the lock. -/
def Enabled (w : World) : Event → Prop
  | .acquire _ newToken newLeaseId =>
    isCanonicalUuid newToken ∧ isCanonicalUuid newLeaseId ∧ newToken ∉ w.tokens ∧
      newLeaseId ∉ w.ids
  | .lock thread _ => thread ∈ w.threads
  | _ => True

inductive Reachable : World → Prop
  | start (rows cols : Nat) : Reachable (start rows cols)
  | step {w : World} (h : Reachable w) (event : Event) (henabled : w.Enabled event) :
      Reachable (w.step event)

/-! ## The invariant -/

structure Inv (w : World) : Prop where
  lease_id : ∀ lease ∈ w.terminal.lease, lease.id ∈ w.ids ∧ lease.id ∉ w.ended
  lease_token : ∀ lease ∈ w.terminal.lease,
    lease.resumeToken ∈ w.tokens ∧ lease.resumeToken ∉ w.revoked
  /-- The lease remembers the greatest sequence number accepted under it. -/
  lease_sequence : ∀ lease ∈ w.terminal.lease, ∀ p ∈ w.accepted, p.1 = lease.id →
    p.2 ≤ lease.lastSequence
  recovery_token : ∀ record ∈ w.terminal.recovery,
    record.token ∈ w.tokens ∧ record.token ∉ w.revoked
  ended_ids : ∀ id ∈ w.ended, id ∈ w.ids
  revoked_tokens : ∀ token ∈ w.revoked, token ∈ w.tokens
  accepted_ids : ∀ p ∈ w.accepted, p.1 ∈ w.ids
  increasing : w.accepted.Pairwise fun newer older => newer.1 = older.1 → older.2 < newer.2

variable {w : World}

theorem inv_start (rows cols : Nat) : Inv (start rows cols) := by
  constructor <;> simp [start, InputState.spawned]

/-- The IDs that end are those of the lease before. -/
theorem mem_endedId {t t' : InputState} {id : String} (h : id ∈ endedId t t') :
    ∃ lease, t.lease = some lease ∧ lease.id = id ∧ t'.lease.map Lease.id ≠ some id := by
  unfold endedId at h
  split at h
  · cases h
  next lease hlease =>
    split at h
    · cases h
    next hne =>
      obtain rfl := List.mem_singleton.1 h
      exact ⟨lease, hlease, rfl, hne⟩

variable {terminal : InputState}

/-- A section that keeps or drops the lease, and keeps or drops the recovery record. -/
theorem Inv.settle (h : Inv w) (hlease : terminal.lease = w.terminal.lease ∨ terminal.lease = none)
    (hrecovery : terminal.recovery = w.terminal.recovery ∨ terminal.recovery = none) :
    Inv (w.settle terminal) := by
  have hkept : ∀ lease ∈ terminal.lease, lease ∈ w.terminal.lease := by
    intro lease hmem
    rcases hlease with heq | heq
    · rw [← heq]
      exact hmem
    · rw [heq] at hmem
      cases hmem
  refine { h with
    lease_id := ?_
    lease_token := fun lease hmem => h.lease_token lease (hkept lease hmem)
    lease_sequence := fun lease hmem => h.lease_sequence lease (hkept lease hmem)
    recovery_token := ?_
    ended_ids := ?_ }
  · intro lease hmem
    obtain ⟨hid, hended⟩ := h.lease_id lease (hkept lease hmem)
    refine ⟨hid, fun hmem' => ?_⟩
    rcases List.mem_append.1 hmem' with hnow | hbefore
    · obtain ⟨-, -, -, hne⟩ := mem_endedId hnow
      apply hne
      rw [show terminal.lease = some lease from hmem]
      rfl
    · exact hended hbefore
  · intro record hmem
    rcases hrecovery with heq | heq
    · apply h.recovery_token
      rw [← heq]
      exact hmem
    · exact absurd (heq ▸ hmem : record ∈ (none : Option InputRecovery)) (by simp)
  · intro id hmem
    rcases List.mem_append.1 hmem with hnow | hbefore
    · obtain ⟨lease, hlease', rfl, -⟩ := mem_endedId hnow
      exact (h.lease_id lease hlease').1
    · exact h.ended_ids id hbefore

variable {request : AcquireRequest}

/-- A writable grant. -/
theorem Inv.grant (h : Inv w)
    {granted : LeaseGrant} {lease : Lease} (hlease : terminal.lease = some lease)
    (hid : lease.id = granted.leaseId) (htoken : lease.resumeToken = granted.resumeToken)
    (hrecovery : ∀ record ∈ terminal.recovery, record.token = granted.resumeToken)
    (hfresh : granted.leaseId ∉ w.ids)
    (hlive : granted.resumeToken ∉ if request.resuming then w.revoked else w.tokens ++ w.revoked) :
    Inv ((w.settle terminal).grant request granted) := by
  have hendedId : ∀ id ∈ endedId w.terminal terminal, id ∈ w.ids := by
    intro id hmem
    obtain ⟨old, hold, rfl, -⟩ := mem_endedId hmem
    exact (h.lease_id old hold).1
  have hended : ∀ id ∈ endedId w.terminal terminal ++ w.ended, id ∈ w.ids := by
    exact List.forall_mem_append.2 ⟨hendedId, h.ended_ids⟩
  have hnew : ∀ l ∈ terminal.lease, l = lease := by
    intro l hl
    rw [hlease] at hl
    cases hl
    rfl
  refine { h with
    lease_id := ?_
    lease_token := ?_
    lease_sequence := ?_
    recovery_token := ?_
    ended_ids := fun id hmem => List.mem_cons_of_mem _ (hended id hmem)
    revoked_tokens := ?_
    accepted_ids := fun p hp => List.mem_cons_of_mem _ (h.accepted_ids p hp) }
  · intro l hl
    rw [hnew l hl, hid]
    exact ⟨List.mem_cons_self, fun hmem => hfresh (hended _ hmem)⟩
  · intro l hl
    rw [hnew l hl, htoken]
    exact ⟨List.mem_cons_self, hlive⟩
  · -- Nothing was accepted yet under an ID that is new.
    intro l hl p hp hpid
    rw [hnew l hl, hid] at hpid
    exact absurd (hpid ▸ h.accepted_ids p hp) hfresh
  · intro record hmem
    rw [hrecovery record hmem]
    exact ⟨List.mem_cons_self, hlive⟩
  · intro token hmem
    apply List.mem_cons_of_mem
    simp only [World.grant] at hmem
    split at hmem
    · exact h.revoked_tokens token hmem
    · rcases List.mem_append.1 hmem with hmem | hmem
      · exact hmem
      · exact h.revoked_tokens token hmem

variable {command : Command} {current : Lease}

/-- Accepted sequence numbers increase under the current lease. -/
theorem Inv.increasing_cons (h : Inv w) (hlease : w.terminal.lease = some current)
    (hid : current.id = command.leaseId) (hsequence : current.lastSequence < command.sequence) :
    ((command.leaseId, command.sequence) :: w.accepted).Pairwise
      fun newer older => newer.1 = older.1 → older.2 < newer.2 := by
  refine List.pairwise_cons.2 ⟨fun p hp hpid => ?_, h.increasing⟩
  have hle := h.lease_sequence current hlease p hp (hpid.symm.trans hid.symm)
  exact Nat.lt_of_le_of_lt hle hsequence

theorem Inv.accepted_ids_cons (h : Inv w)
    (hlease : w.terminal.lease = some current) (hid : current.id = command.leaseId) :
    ∀ p ∈ (command.leaseId, command.sequence) :: w.accepted, p.1 ∈ w.ids := by
  intro p hp
  rcases List.mem_cons.1 hp with rfl | hp
  · rw [← hid]
    exact (h.lease_id current hlease).1
  · exact h.accepted_ids p hp

/-- A command that is not a release. -/
theorem Inv.accept (h : Inv w)
    {renewed : Lease} (hkind : command.kind ≠ .release)
    (hlease : w.terminal.lease = some current) (hid : current.id = command.leaseId)
    (hsequence : current.lastSequence < command.sequence)
    (hlease' : terminal.lease = some renewed)
    (hrenewed : renewed.id = current.id ∧ renewed.resumeToken = current.resumeToken ∧
      renewed.lastSequence = command.sequence)
    (hrecovery : terminal.recovery = w.terminal.recovery) :
    Inv ((w.settle terminal).accept command w.terminal.lease) := by
  have hended : endedId w.terminal terminal ++ w.ended = w.ended := by
    simp [endedId, hlease, hlease', hrenewed.1]
  have hrevoked : ((w.settle terminal).accept command w.terminal.lease).revoked = w.revoked :=
    if_neg hkind
  have hnew : ∀ l ∈ terminal.lease, l = renewed := by
    intro l hl
    rw [hlease'] at hl
    cases hl
    rfl
  refine { h with
    lease_id := ?_
    lease_token := ?_
    lease_sequence := ?_
    recovery_token := ?_
    ended_ids := ?_
    revoked_tokens := ?_
    accepted_ids := h.accepted_ids_cons hlease hid
    increasing := h.increasing_cons hlease hid hsequence }
  · intro l hl
    rw [hnew l hl, hrenewed.1]
    refine ⟨(h.lease_id current hlease).1, fun hmem => (h.lease_id current hlease).2 ?_⟩
    rw [← hended]
    exact hmem
  · intro l hl
    rw [hnew l hl, hrenewed.2.1, hrevoked]
    exact h.lease_token current hlease
  · intro l hl p hp hpid
    rw [hnew l hl, hrenewed.2.2]
    rw [hnew l hl, hrenewed.1] at hpid
    rcases List.mem_cons.1 hp with rfl | hp
    · exact Nat.le_refl _
    · exact Nat.le_trans (h.lease_sequence current hlease p hp hpid) (Nat.le_of_lt hsequence)
  · intro record hmem
    rw [hrevoked]
    apply h.recovery_token
    rw [← hrecovery]
    exact hmem
  · intro id hmem
    apply h.ended_ids
    rw [← hended]
    exact hmem
  · intro token hmem
    rw [hrevoked] at hmem
    exact h.revoked_tokens token hmem

/-- A release. -/
theorem Inv.release (h : Inv w)
    (hkind : command.kind = .release) (hlease : w.terminal.lease = some current)
    (hid : current.id = command.leaseId) (hsequence : current.lastSequence < command.sequence)
    (hlease' : terminal.lease = none) (hrecovery : terminal.recovery = none) :
    Inv ((w.settle terminal).accept command w.terminal.lease) := by
  have hsettle : Inv (w.settle terminal) := h.settle (.inr hlease') (.inr hrecovery)
  have hnone : ∀ l, l ∉ terminal.lease := by
    intro l hl
    rw [hlease'] at hl
    cases hl
  refine { hsettle with
    lease_token := fun l hl => absurd hl (hnone l)
    lease_sequence := fun l hl => absurd hl (hnone l)
    recovery_token := fun record hmem => ?_
    revoked_tokens := fun token hmem => ?_
    accepted_ids := h.accepted_ids_cons hlease hid
    increasing := h.increasing_cons hlease hid hsequence }
  · have hmem' : record ∈ terminal.recovery := hmem
    rw [hrecovery] at hmem'
    cases hmem'
  · have hmem' : token ∈ current.resumeToken :: w.revoked := by
      simpa [World.accept, World.settle, hkind, hlease] using hmem
    rcases List.mem_cons.1 hmem' with rfl | hmem'
    · exact (h.lease_token current hlease).1
    · exact h.revoked_tokens token hmem'

/-- The credential of an authorized request is a token in force. -/
theorem Inv.authorized_token (h : Inv w) {now : Nat}
    (hauthorized : (w.terminal.expireDue now).authorized request) :
    request.resumeToken ∈ w.tokens ∧ request.resumeToken ∉ w.revoked := by
  unfold InputState.authorized at hauthorized
  split at hauthorized
  · obtain ⟨record, hmem, -, htoken⟩ := hauthorized
    rw [InputState.expireDue_recovery] at hmem
    rw [← htoken]
    exact h.recovery_token record hmem
  · obtain ⟨-, lease, hmem, htoken⟩ := hauthorized
    rw [← htoken]
    rcases w.terminal.expireDue_lease now with heq | heq
    · rw [heq] at hmem
      exact h.lease_token lease hmem
    · rw [heq] at hmem
      cases hmem

variable {newToken newLeaseId : String}

theorem Inv.acquire (h : Inv w) (henabled : w.Enabled (.acquire request newToken newLeaseId)) :
    Inv (w.step (.acquire request newToken newLeaseId)) := by
  obtain ⟨-, -, htoken, hid⟩ := henabled
  rw [step]
  cases hop : w.terminal.acquireResumableLeaseAt request w.clock newToken newLeaseId with
  | mk result terminal =>
    have hcases := InputState.acquireResumableLeaseAt_cases hop
    cases hcases with
    | malformed e => exact h.settle (.inl rfl) (.inl rfl)
    | readOnly hreadOnly =>
      simp only [hreadOnly, if_true]
      exact h.settle (.inl rfl) (.inl rfl)
    | refused e =>
      exact h.settle (w.terminal.expireDue_lease w.clock)
        (.inl (w.terminal.expireDue_recovery w.clock))
    | resumed granted hwritable hresuming hauthorized hgrant =>
      simp only [hwritable, Bool.false_eq_true, if_false]
      refine h.grant rfl hgrant.1.symm hgrant.2.symm ?_ (hgrant.1 ▸ hid) ?_
      · simp [InputState.granted, hgrant.2]
      · rw [if_pos hresuming, hgrant.2]
        exact (h.authorized_token hauthorized).2
    | fresh granted hwritable hresuming hfree hgrant =>
      simp only [hwritable, Bool.false_eq_true, if_false]
      refine h.grant rfl hgrant.1.symm hgrant.2.symm ?_ (hgrant.1 ▸ hid) ?_
      · simp [InputState.granted, hgrant.2]
      · rw [hresuming, if_neg (by simp), hgrant.2]
        intro hmem
        rcases List.mem_append.1 hmem with hmem | hmem
        · exact htoken hmem
        · exact htoken (h.revoked_tokens _ hmem)

theorem Inv.expire (h : Inv w) (leaseId : String) (now : Nat) :
    Inv (w.settle (w.terminal.expireLeaseIfDueAt leaseId now)) := by
  rcases w.terminal.expireLeaseIfDueAt_cases leaseId now with heq | ⟨current, -, -, -, heq⟩
  · rw [heq]
    exact h.settle (.inl rfl) (.inl rfl)
  · rw [heq]
    exact h.settle (.inr rfl) (.inl rfl)

theorem Inv.lock (h : Inv w) (thread : Thread) (device : InputState.DeviceResult) :
    Inv (w.step (.lock thread device)) := by
  have herase : Inv { w with threads := w.threads.erase thread } := { h with }
  cases thread with
  | expiry leaseId now => exact herase.expire leaseId now
  | validate command now =>
    have hnext : Inv { w with
        threads := .act command :: w.threads.erase (.validate command now) } := { h with }
    exact hnext.expire command.leaseId now
  | act command =>
    rw [step]
    cases hop : w.terminal.act command w.clock device with
    | mk result terminal =>
      have hcases := InputState.act_cases hop
      cases hcases with
      | refused e _ hlease hrecovery _ =>
        exact herase.settle (.inl hlease) (.inl hrecovery)
      | accepted current renewed _ hkind hlease hid hsequence hlease' hrenewed hrecovery _ =>
        exact herase.accept hkind hlease hid hsequence hlease' hrenewed hrecovery
      | released current _ hkind hlease hid hsequence hlease' hrecovery _ =>
        exact herase.release hkind hlease hid hsequence hlease' hrecovery

theorem Inv.step (h : Inv w) (event : Event) (henabled : w.Enabled event) : Inv (w.step event) := by
  cases event with
  | tick duration | startExpiry leaseId => exact { h with }
  | acquire request newToken newLeaseId => exact h.acquire henabled
  | startCommand command =>
    rw [World.step]
    split
    · exact h
    · exact { h with }
  | lock thread device => exact h.lock thread device
  | cleanup leaseId =>
    rw [World.step]
    rcases w.terminal.releaseLease_cases leaseId with heq | ⟨current, -, -, heq⟩
    · rw [heq]
      exact h.settle (.inl rfl) (.inl rfl)
    · rw [heq]
      exact h.settle (.inr rfl) (.inl rfl)

/-- The invariant holds on every run. -/
theorem Reachable.inv (h : Reachable w) : Inv w := by
  induction h with
  | start rows cols => exact inv_start rows cols
  | step _ event henabled ih => exact ih.step event henabled

/-! ## What the invariant gives -/

theorem Inv.refuses_ended (h : Inv w) (hended : command.leaseId ∈ w.ended) {now : Nat}
    {device : InputState.DeviceResult} : ∃ e, (w.terminal.act command now device).1 = .error e := by
  cases hop : w.terminal.act command now device with
  | mk result terminal =>
    cases InputState.act_cases hop with
    | refused e _ _ _ _ => exact ⟨e, rfl⟩
    | accepted current _ _ _ hlease hid _ _ _ _ _ | released current _ _ hlease hid _ _ _ _ =>
      exact absurd (hid ▸ hended) (h.lease_id current hlease).2

theorem Inv.refuses_revoked (h : Inv w) (hresuming : request.resuming = true)
    (hwritable : request.readOnly = false) (hrevoked : request.resumeToken ∈ w.revoked) :
    ∃ e, (w.terminal.acquireResumableLeaseAt request w.clock newToken newLeaseId).1 =
      .error e := by
  cases hop : w.terminal.acquireResumableLeaseAt request w.clock newToken newLeaseId with
  | mk result terminal =>
    cases InputState.acquireResumableLeaseAt_cases hop with
    | malformed e | refused e => exact ⟨e, rfl⟩
    | readOnly hreadOnly => exact absurd (hreadOnly.symm.trans hwritable) (by simp)
    | resumed _ _ _ hauthorized _ => exact absurd hrevoked (h.authorized_token hauthorized).2
    | fresh _ _ hnot _ _ => exact absurd (hresuming.symm.trans hnot) (by simp)

theorem Inv.grant_token (h : Inv w)
    {granted : LeaseGrant}
    (henabled : w.Enabled (.acquire request newToken newLeaseId))
    (hop : w.terminal.acquireResumableLeaseAt request w.clock newToken newLeaseId =
      (.ok granted, terminal)) (hwritable : request.readOnly = false) :
    if request.resuming then
      granted.resumeToken = request.resumeToken ∧ granted.resumeToken ∈ w.tokens ∧
        terminal.recoveryGeneration = w.terminal.recoveryGeneration
    else
      granted.resumeToken ∉ w.tokens ∧
        w.terminal.recoveryGeneration < terminal.recoveryGeneration := by
  cases InputState.acquireResumableLeaseAt_cases hop with
  | readOnly hreadOnly => exact absurd (hreadOnly.symm.trans hwritable) (by simp)
  | resumed _ _ hresuming hauthorized hgrant =>
    rw [if_pos hresuming, hgrant.2]
    exact ⟨rfl, (h.authorized_token hauthorized).1, rfl⟩
  | fresh _ _ hresuming _ hgrant =>
    rw [if_neg (by simp [hresuming]), hgrant.2]
    exact ⟨henabled.2.2.1, Nat.lt_succ_self _⟩

theorem Inv.cleanup (h : Inv w) (leaseId : String) :
    (leaseId ∈ w.ended → w.terminal.releaseLease leaseId = w.terminal) ∧
      (w.terminal.releaseLease leaseId).recovery = w.terminal.recovery := by
  rcases w.terminal.releaseLease_cases leaseId with heq | ⟨current, hlease, hid, heq⟩
  · exact ⟨fun _ => heq, by rw [heq]⟩
  · refine ⟨fun hended => ?_, by rw [heq]⟩
    exact absurd (hid ▸ hended) (h.lease_id current hlease).2

end World

/-- While a recovery record exists only a takeover or its own credential gets a writable lease. -/
theorem InputState.recovery_guards {t terminal : InputState} {request : AcquireRequest} {now : Nat}
    {newToken newLeaseId : String} {granted : LeaseGrant} {record : InputRecovery}
    (hop : t.acquireResumableLeaseAt request now newToken newLeaseId = (.ok granted, terminal))
    (hwritable : request.readOnly = false) (hrecovery : t.recovery = some record) :
    request.takeover = true ∨
      request.clientId = some record.clientId ∧ request.resumeToken = record.token := by
  cases InputState.acquireResumableLeaseAt_cases hop with
  | readOnly hreadOnly => exact absurd (hreadOnly.symm.trans hwritable) (by simp)
  | resumed _ _ _ hauthorized _ =>
    refine .inr ?_
    unfold InputState.authorized at hauthorized
    rw [InputState.expireDue_recovery, hrecovery] at hauthorized
    split at hauthorized
    next id hclient =>
      obtain ⟨record', hmem, rfl, htoken⟩ := hauthorized
      cases hmem
      exact ⟨hclient, htoken.symm⟩
    · exact absurd hauthorized.1 (by simp)
  | fresh _ _ _ hfree _ =>
    rw [InputState.expireDue_recovery, hrecovery] at hfree
    exact .inl (hfree.resolve_right fun hnone => absurd hnone.2 (by simp))

/-- Input is fenced, whatever the interleaving. A lease ID that was superseded, expired or released
is refused for ever. The sequence numbers accepted under a lease ID increase. While a recovery
record exists only a takeover or its own credential gets a writable lease. A resumption keeps the
token and the counter of generations, every other writable grant increases the counter and issues a
new token. A token that a release or a newer grant revoked is refused for ever. The cleanup of a
lease ID that has ended changes nothing, and no cleanup changes the recovery record. -/
theorem input_lease_fencing {w : World} (h : World.Reachable w) :
    (∀ command : Command, command.leaseId ∈ w.ended → ∀ now device,
      ∃ e, (w.terminal.act command now device).1 = .error e) ∧
    (w.accepted.Pairwise fun newer older => newer.1 = older.1 → older.2 < newer.2) ∧
    (∀ request newToken newLeaseId granted terminal record,
      w.terminal.acquireResumableLeaseAt request w.clock newToken newLeaseId =
        (.ok granted, terminal) → request.readOnly = false → w.terminal.recovery = some record →
        request.takeover = true ∨
          request.clientId = some record.clientId ∧ request.resumeToken = record.token) ∧
    (∀ request newToken newLeaseId granted terminal,
      w.Enabled (.acquire request newToken newLeaseId) →
      w.terminal.acquireResumableLeaseAt request w.clock newToken newLeaseId =
        (.ok granted, terminal) → request.readOnly = false →
        if request.resuming then
          granted.resumeToken = request.resumeToken ∧ granted.resumeToken ∈ w.tokens ∧
            terminal.recoveryGeneration = w.terminal.recoveryGeneration
        else
          granted.resumeToken ∉ w.tokens ∧
            w.terminal.recoveryGeneration < terminal.recoveryGeneration) ∧
    (∀ request : AcquireRequest, request.resuming = true → request.readOnly = false →
      request.resumeToken ∈ w.revoked → ∀ newToken newLeaseId,
        ∃ e, (w.terminal.acquireResumableLeaseAt request w.clock newToken newLeaseId).1 =
          .error e) ∧
    (∀ leaseId, (leaseId ∈ w.ended → w.terminal.releaseLease leaseId = w.terminal) ∧
      (w.terminal.releaseLease leaseId).recovery = w.terminal.recovery) := by
  have hinv := h.inv
  refine ⟨fun command hended now device => hinv.refuses_ended hended, hinv.increasing, ?_, ?_,
    fun request hresuming hwritable hrevoked newToken newLeaseId =>
      hinv.refuses_revoked hresuming hwritable hrevoked,
    fun leaseId => hinv.cleanup leaseId⟩
  · intro request newToken newLeaseId granted terminal record hop hwritable hrecovery
    exact InputState.recovery_guards hop hwritable hrecovery
  · intro request newToken newLeaseId granted terminal henabled hop hwritable
    exact hinv.grant_token henabled hop hwritable

/-- A device gets the lease. -/
def firstGrant : Event :=
  .acquire ⟨false, false, "", some 15, some "11111111-1111-4111-8111-111111111111"⟩
    "aaaaaaaa-aaaa-4aaa-8aaa-aaaaaaaaaaaa" "aaaaaaaa-aaaa-4aaa-8aaa-aaaaaaaaaaa1"

def firstCommand : Command := ⟨"aaaaaaaa-aaaa-4aaa-8aaa-aaaaaaaaaaa1", 1, .input [0x61]⟩

/-- Another device takes the lease over. -/
def secondGrant : Event :=
  .acquire ⟨false, true, "", some 15, some "22222222-2222-4222-8222-222222222222"⟩
    "bbbbbbbb-bbbb-4bbb-8bbb-bbbbbbbbbbbb" "bbbbbbbb-bbbb-4bbb-8bbb-bbbbbbbbbbb1"

/-- The lease is taken over while a command of the first device waits. -/
def takenOver : World :=
  (((World.start 24 80).step firstGrant).step (.startCommand firstCommand)).step secondGrant

theorem takenOver_reachable : World.Reachable takenOver := by
  apply World.Reachable.step
  · apply World.Reachable.step
    · apply World.Reachable.step (.start 24 80)
      exact ⟨by decide +kernel, by decide +kernel, by decide +kernel, by decide +kernel⟩
    · trivial
  · exact ⟨by decide +kernel, by decide +kernel, by decide +kernel, by decide +kernel⟩

theorem takenOver_fenced : firstCommand.leaseId ∈ takenOver.ended ∧
    ∃ e, (takenOver.terminal.act firstCommand 0 .done).1 = .error e :=
  have hended : firstCommand.leaseId ∈ takenOver.ended := by decide +kernel
  ⟨hended, (input_lease_fencing takenOver_reachable).1 firstCommand hended 0 .done⟩

end AstraShell.Terminal
