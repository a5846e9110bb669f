import AstraShell.Lib.Temporal
import AstraShell.Lib.Text
import AstraShell.Terminal.Fencing

/-!
# Recovery of a streaming session

`Driver::recover` of `streaming_client.rs`, with the server's side of an attempt: the dispatch of an
`Attach` request and `handle_attach_inner` of `server.rs` up to the reply. The client asks again
with the credential of its session, and sorts the failures of an attempt into permanent ones, which
end the recovery, and others, which it retries. The server decides by the lease and the recovery
record of the terminal (`Terminal.Lease`); between two attempts anything may happen to them that
`Terminal.Fencing` allows, such as the cleanup of the old connection or the expiry of its lease.

A refusal by the lease is one of the failures that are retried. Whether recovery ends is settled by
the first attempt that the server answers: `recover_decides_iff`. A client without an instance ID
whose old connection was cleaned up first asks for ever (`recover_may_not_decide`).
-/

set_option autoImplicit false

namespace AstraShell.Client

open Lib Lib.Temporal Terminal InputState

/-! ## The server's side -/

/-- The capabilities that an attachment reads, with the version that was negotiated. -/
structure Negotiated where
  inputLease : Option Nat
  inputResume : Option Nat
  datagramState : Option Nat

/-- `NegotiatedProtocol::has`. -/
def has (selected : Option Nat) (minimumVersion : Nat) : Bool := selected.any (minimumVersion ≤ ·)

structure AttachRequest where
  terminalId : String
  readOnly : Bool
  takeover : Bool
  resumeToken : String
  workspaceId : String
  clientInstanceId : String

/-- The fields of `AttachResponse` that the driver reads, and the lease. -/
structure AttachResponse where
  terminalId : String
  leaseId : String
  resumeToken : String
  recoveryGeneration : Nat
  leaseTtl : Option Nat
  deriving DecidableEq

structure ServerResponseError where
  code : String
  message : String
  deriving DecidableEq

/-- Fifteen seconds, in milliseconds. -/
def inputLeaseTtl : Nat := 15000

/-- What the request asks of the lease. -/
def AttachRequest.acquire (negotiated : Negotiated) (request : AttachRequest) : AcquireRequest where
  readOnly := request.readOnly
  takeover := request.takeover
  resumeToken := request.resumeToken
  ttl := if has negotiated.inputLease 1 then some inputLeaseTtl else none
  clientId := if request.clientInstanceId = "" then none else some request.clientInstanceId

/-- Why the dispatch of the request fails. -/
inductive DispatchError where
  /-- The stream's resources cannot be reserved. -/
  | quota (message : String)
  | workspace (message : String)
  | notFound

def DispatchError.response : DispatchError → ServerResponseError
  | .quota message => ⟨"quota", message⟩
  | .workspace message => ⟨"workspace", message⟩
  | .notFound => ⟨"not_found", "terminal is not active in this daemon"⟩

/-- Why the attachment is not registered. -/
inductive RegistrationError where
  | quota (message : String)
  | other (message : String)

/-- `send_domain_error` with the default code `attachment`. -/
def RegistrationError.response : RegistrationError → ServerResponseError
  | .quota message => ⟨"quota", message⟩
  | .other message => ⟨"attachment", message⟩

/-- What the server finds when it handles an attempt. -/
structure Service where
  dispatch : Except DispatchError Unit
  registration : Except RegistrationError Unit
  /-- The identifiers that an acquisition draws. -/
  newToken : String
  newLeaseId : String
  /-- The initial state is exported and the datagram budget is there. -/
  prepared : Except String Unit
  /-- The reply is with the client in time. -/
  delivered : Bool

/-- How the handler ends the attempt. -/
inductive Reply where
  | attached (response : AttachResponse)
  | refused (error : ServerResponseError)
  /-- The stream ends without a reply. -/
  | ended (error : String)

/-- The attempt at the server. When the handler fails after the lease was granted, the lease is
released by the cleanup, which is an event of its own. -/
def handleAttach (negotiated : Negotiated) (w : World) (request : AttachRequest)
    (service : Service) : Reply × World :=
  match service.dispatch with
  | .error e => (.refused e.response, w)
  | .ok _ =>
    if request.clientInstanceId ≠ "" ∧ has negotiated.inputResume 2 = false then
      (.refused ⟨"capability", "input resume capability required"⟩, w)
    else
      match service.registration with
      | .error e => (.refused e.response, w)
      | .ok _ =>
        let acquire := request.acquire negotiated
        let w' := w.step (.acquire acquire service.newToken service.newLeaseId)
        match (w.terminal.acquireResumableLeaseAt acquire w.clock service.newToken
          service.newLeaseId).1 with
        | .error e => (.refused ⟨"lease_conflict", e⟩, w')
        | .ok grant =>
          match service.prepared with
          | .error e => (.ended e, w')
          | .ok _ => (.attached {
              terminalId := request.terminalId
              leaseId := grant.leaseId
              resumeToken := grant.resumeToken
              recoveryGeneration := grant.recoveryGeneration
              leaseTtl := grant.ttl }, w')

/-! ## The client's side -/

/-- An error of `attach_streaming`, or of the attempt around it. -/
inductive AttachError where
  | server (error : ServerResponseError)
  | other (message : String)
  deriving DecidableEq

def isPermanentRecoveryError : AttachError → Bool
  | .server error => error.code ∉ ["quota_exceeded", "lease_conflict", "unavailable", "busy"]
  | .other _ => false

/-- One attempt as the environment makes it. -/
inductive Attempt where
  /-- There is no connection, or the time limit passes before the request is served. -/
  | offline (message : String)
  | served (service : Service)

def attachStreaming (negotiated : Negotiated) (w : World) (request : AttachRequest) :
    Attempt → Except AttachError AttachResponse × World
  | .offline message => (.error (.other message), w)
  | .served service =>
    if has negotiated.datagramState 2 = false then
      (.error (.other "terminal datagram state was not negotiated"), w)
    else if request.workspaceId = "" then
      (.error (.other "streaming attachment requires a workspace ID"), w)
    else
      let (reply, w) := handleAttach negotiated w request service
      if service.delivered then
        match reply with
        | .attached response => (.ok response, w)
        | .refused error => (.error (.server error), w)
        | .ended _ => (.error (.other "attachment stream ended"), w)
      else (.error (.other "reconnection attempt timed out"), w)

structure Size where
  rows : Nat
  cols : Nat
  pixelWidth : Nat
  pixelHeight : Nat
  deriving DecidableEq

/-- What the consumer may ask for while the session recovers. -/
inductive ActionKind where
  | input (incarnation : Nat) (bytes : List UInt8)
  | resize (size : Size)
  | history
  | detach
  deriving DecidableEq

/-- The driver inside `recover`; `result` is what it returns. -/
structure Driver where
  request : AttachRequest
  size : Option Size
  attempt : Nat
  error : AttachError
  replies : List (Except String Unit)
  result : Option (Except AttachError AttachResponse)

namespace Driver

/-- `StreamingConnection::attach`: the session keeps the terminal and the token of the reply, and
never takes a lease over. -/
def opened (request : AttachRequest) (response : AttachResponse) : AttachRequest :=
  { request with
    terminalId := response.terminalId
    resumeToken := response.resumeToken
    takeover := false }

/-- The connection is lost. -/
def recovering (request : AttachRequest) (size : Option Size) (error : AttachError) : Driver where
  request := request
  size := size
  attempt := 0
  error := error
  replies := []
  result := none

/-- The outcome of an attempt. -/
def conclude (d : Driver) : Except AttachError AttachResponse → Driver
  | .ok response =>
    { d with
      request := { d.request with resumeToken := response.resumeToken }
      result := some (.ok response) }
  | .error failure =>
    if isPermanentRecoveryError failure then { d with result := some (.error failure) }
    else { d with error := failure }

/-- A command while the session recovers. -/
def command (d : Driver) : ActionKind → Driver
  | .resize size => { d with size := some size, replies := d.replies ++ [.ok ()] }
  | .detach =>
    { d with
      replies := d.replies ++ [.ok ()]
      result := some (.error (.other "terminal detached during recovery")) }
  | _ => { d with
      replies := d.replies ++ [.error "disconnected command discarded; input is never replayed"] }

end Driver

/-- The terminal at the server and the client that recovers. -/
structure Session where
  world : World
  driver : Driver

inductive Action where
  /-- Anything else that happens at the server. -/
  | server (event : Event)
  | attempt (attempt : Attempt)
  | command (kind : ActionKind)
  /-- The consumer has dropped the session. -/
  | closed

namespace Session

def step (negotiated : Negotiated) (s : Session) : Action → Session
  | .server event => { s with world := s.world.step event }
  | .attempt attempt =>
    if s.driver.result.isSome then s
    else
      let (outcome, world) := attachStreaming negotiated s.world s.driver.request attempt
      { world := world
        driver := Driver.conclude
          { s.driver with attempt := min (s.driver.attempt + 1) (2 ^ 32 - 1) } outcome }
  | .command kind =>
    if s.driver.result.isSome then s else { s with driver := s.driver.command kind }
  | .closed =>
    if s.driver.result.isSome then s
    else { s with driver := { s.driver with
      result := some (.error (.other "terminal closed during recovery")) } }

def run (negotiated : Negotiated) (s : Session) (act : ℕ → Action) : ℕ → Session :=
  Temporal.run (step negotiated) s act

/-- What can happen; identifiers are new when they are drawn. -/
def Enabled (negotiated : Negotiated) (s : Session) : Action → Prop
  | .server event => s.world.Enabled event
  | .attempt (.served service) => s.world.Enabled
      (.acquire (s.driver.request.acquire negotiated) service.newToken service.newLeaseId)
  | _ => True

/-- Recovery has ended with an attachment or a permanent error. -/
def Decided (s : Session) : Prop :=
  (∃ response, s.driver.result = some (.ok response)) ∨
    ∃ error, s.driver.result = some (.error error) ∧ isPermanentRecoveryError error = true

end Session

/-! ## The credential at the server -/

/-- The request of a writable session, in the hands of its driver. -/
structure AttachRequest.Writable (negotiated : Negotiated) (request : AttachRequest) : Prop where
  readOnly : request.readOnly = false
  takeover : request.takeover = false
  token : request.resumeToken ≠ ""
  checked : (request.acquire negotiated).check = .ok ()
  workspace : request.workspaceId ≠ ""
  datagramState : has negotiated.datagramState 2 = true
  inputResume : request.clientInstanceId ≠ "" → has negotiated.inputResume 2 = true

theorem utf8ByteSize_of_canonical {id : String} (h : isCanonicalUuid id) :
    id.utf8ByteSize = 36 := by
  obtain ⟨hlength, hchars⟩ := h
  have hascii : ∀ d ∈ '-' :: "0123456789abcdef".toList, d.utf8Size = 1 :=
    Text.forall_of_all (by decide)
  have hsize : ∀ c ∈ id.toList, c.utf8Size = 1 := by
    intro c hc
    obtain ⟨i, hi, rfl⟩ := List.mem_iff_getElem.1 hc
    have hdigit := hchars (id.toList[i], i)
      (List.mk_mem_zipIdx_iff_getElem?.2 (List.getElem?_eq_getElem hi))
    apply hascii
    split at hdigit
    · exact List.mem_cons.2 (.inl hdigit)
    · exact List.mem_cons_of_mem _ hdigit
  rw [← String.ofList_toList (s := id), String.utf8ByteSize_ofList, Text.utf8Len_of_ascii hsize]
  exact hlength

variable {service : Service} {negotiated : Negotiated} {w : World} {request : AttachRequest}
  {response : AttachResponse}

theorem attachStreaming_ok
    (h : (attachStreaming negotiated w request (.served service)).1 = .ok response) :
    has negotiated.datagramState 2 = true ∧ request.workspaceId ≠ "" ∧
      (handleAttach negotiated w request service).1 = .attached response := by
  rw [attachStreaming] at h
  split at h
  · cases h
  next hdatagram =>
    split at h
    · cases h
    next hworkspace =>
      refine ⟨by simpa using hdatagram, hworkspace, ?_⟩
      generalize handleAttach negotiated w request service = handled at h
      obtain ⟨reply, world⟩ := handled
      dsimp only at h
      split at h
      · cases reply with
        | attached response' =>
          cases h
          rfl
        | refused error => cases h
        | ended error => cases h
      · cases h

theorem handleAttach_attached
    (h : (handleAttach negotiated w request service).1 = .attached response) :
    (request.clientInstanceId ≠ "" → has negotiated.inputResume 2 = true) ∧
      ∃ grant, (w.terminal.acquireResumableLeaseAt (request.acquire negotiated) w.clock
        service.newToken service.newLeaseId).1 = .ok grant ∧
        response.resumeToken = grant.resumeToken := by
  rw [handleAttach] at h
  split at h
  · cases h
  split at h
  · cases h
  next hcapability =>
    split at h
    · cases h
    dsimp only at h
    split at h
    · cases h
    next grant hgrant =>
      split at h
      · cases h
      · cases h
        refine ⟨fun hdevice => ?_, grant, hgrant, rfl⟩
        rw [not_and] at hcapability
        simpa using hcapability hdevice

/-- A writable attachment that was opened has such a request. -/
theorem writable_opened (hreadOnly : request.readOnly = false)
    (hnew : isCanonicalUuid service.newToken)
    (hop : (attachStreaming negotiated w request (.served service)).1 = .ok response) :
    (Driver.opened request response).Writable negotiated := by
  obtain ⟨hdatagram, hworkspace, hattached⟩ := attachStreaming_ok hop
  obtain ⟨hcapability, grant, hgrant, htoken⟩ := handleAttach_attached hattached
  have hcheck : (request.acquire negotiated).check = .ok () := by
    rw [acquireResumableLeaseAt] at hgrant
    split at hgrant
    · cases hgrant
    next hok => exact hok
  simp only [AcquireRequest.check, bind_eq_ok_iff, ensure_eq_ok_iff] at hcheck
  obtain ⟨-, hsize, hclient⟩ := hcheck
  -- The token is the one that was presented, or a new one.
  have hresponse : response.resumeToken ≠ "" ∧ response.resumeToken.utf8ByteSize ≤ 128 := by
    have hcases : w.terminal.Acquires (request.acquire negotiated) w.clock service.newToken
        service.newLeaseId (.ok grant) (w.terminal.acquireResumableLeaseAt
          (request.acquire negotiated) w.clock service.newToken service.newLeaseId).2 :=
      acquireResumableLeaseAt_cases (Prod.ext hgrant rfl)
    rw [htoken]
    generalize (w.terminal.acquireResumableLeaseAt (request.acquire negotiated) w.clock
      service.newToken service.newLeaseId).2 = t' at hcases
    cases hcases with
    | readOnly hviewer => exact absurd (hreadOnly.symm.trans hviewer) (by simp)
    | resumed _ _ hresuming _ hgranted =>
      rw [hgranted.2]
      refine ⟨?_, hsize⟩
      simp only [AcquireRequest.resuming, Bool.and_eq_true, decide_eq_true_eq] at hresuming
      exact hresuming.2
    | fresh _ _ _ _ hgranted =>
      rw [hgranted.2]
      have hbytes := utf8ByteSize_of_canonical hnew
      refine ⟨?_, by omega⟩
      intro hempty
      rw [hempty] at hbytes
      cases hbytes
  exact
    { readOnly := hreadOnly
      takeover := rfl
      token := hresponse.1
      checked := by
        simp only [AcquireRequest.check, bind_eq_ok_iff, ensure_eq_ok_iff]
        exact ⟨⟨⟩, hresponse.2, hclient⟩
      workspace := hworkspace
      datagramState := hdatagram
      inputResume := hcapability }

/-- The credential is in force: for a device the recovery record, for a client without an instance
ID its own lease, as long as it is stored and not due. -/
def Honours (w : World) (request : AttachRequest) : Prop :=
  if request.clientInstanceId = "" then
    w.terminal.recovery = none ∧ ∃ lease ∈ w.terminal.lease,
      ¬ lease.due w.clock ∧ lease.resumeToken = request.resumeToken
  else w.terminal.recovery = some ⟨request.clientInstanceId, request.resumeToken⟩

section

variable {negotiated : Negotiated} {w : World} {request : AttachRequest}

variable {t : InputState}

theorem mem_expireDue_lease {now : Nat} {lease : Lease} :
    lease ∈ (t.expireDue now).lease ↔ lease ∈ t.lease ∧ ¬ lease.due now := by
  rw [expireDue]
  cases hlease : t.lease with
  | none => simp [hlease]
  | some current =>
    dsimp only
    split
    next hdue =>
      constructor
      · intro hmem
        cases hmem
      · rintro ⟨hmem, hnot⟩
        obtain rfl := Option.mem_some_iff.1 hmem
        exact absurd hdue hnot
    next hdue =>
      rw [hlease]
      constructor
      · intro hmem
        obtain rfl := Option.mem_some_iff.1 hmem
        exact ⟨hmem, hdue⟩
      · exact fun h => h.1

theorem authorized_acquire_iff :
    t.authorized (request.acquire negotiated) ↔
      if request.clientInstanceId = "" then
        t.recovery = none ∧ ∃ lease ∈ t.lease, lease.resumeToken = request.resumeToken
      else t.recovery = some ⟨request.clientInstanceId, request.resumeToken⟩ := by
  rw [authorized, AttachRequest.acquire]
  by_cases hclient : request.clientInstanceId = ""
  · simp only [hclient, if_true]
  · simp only [hclient, if_false]
    constructor
    · rintro ⟨⟨clientId, token⟩, hrecord, rfl, rfl⟩
      exact hrecord
    · intro hrecord
      exact ⟨_, hrecord, rfl, rfl⟩

/-- What the acquisition checks, after it has dropped a lease that is due. -/
theorem honours_iff (negotiated : Negotiated) :
    Honours w request ↔ (w.terminal.expireDue w.clock).authorized (request.acquire negotiated) := by
  rw [authorized_acquire_iff, Honours, expireDue_recovery]
  simp only [mem_expireDue_lease, and_assoc]

/-- What the server does with an attempt of a writable session that is dispatched. -/
inductive Handles (negotiated : Negotiated) (w : World) (request : AttachRequest)
    (service : Service) : Reply → World → Prop
  | unregistered (e : RegistrationError) (hregistration : service.registration = .error e) :
      Handles negotiated w request service (.refused e.response) w
  | conflict (hregistration : service.registration = .ok ()) (hrefused : ¬ Honours w request) :
      Handles negotiated w request service
        (.refused ⟨"lease_conflict", "input recovery eligibility is missing or revoked"⟩)
        (w.settle (w.terminal.expireDue w.clock))
  | granted (response : AttachResponse) (w' : World)
      (hregistration : service.registration = .ok ()) (hhonours : Honours w request)
      (htoken : response.resumeToken = request.resumeToken)
      (hlease : ∃ lease ∈ w'.terminal.lease, lease.id = response.leaseId) :
      Handles negotiated w request service (.attached response) w'

theorem handleAttach_cases (h : request.Writable negotiated)
    (hdispatch : service.dispatch = .ok ()) (hprepared : service.prepared = .ok ()) :
    Handles negotiated w request service (handleAttach negotiated w request service).1
      (handleAttach negotiated w request service).2 := by
  have hcapability : ¬ (request.clientInstanceId ≠ "" ∧ has negotiated.inputResume 2 = false) := by
    rintro ⟨hdevice, hmissing⟩
    rw [h.inputResume hdevice] at hmissing
    cases hmissing
  rw [handleAttach, hdispatch]
  rw [if_neg hcapability]
  cases hregistration : service.registration with
  | error e => exact .unregistered e hregistration
  | ok _ =>
    dsimp only
    have hresuming : (request.acquire negotiated).resuming = true := by
      simp [AcquireRequest.resuming, AttachRequest.acquire, h.takeover, h.token]
    have hacquire := @acquireResumableLeaseAt_of_resuming w.terminal _ w.clock service.newToken
      service.newLeaseId h.checked h.readOnly hresuming
    have hwritable : ¬ (request.acquire negotiated).readOnly = true := by
      simp [AttachRequest.acquire, h.readOnly]
    by_cases hhonours : Honours w request
    · rw [if_pos ((honours_iff negotiated).1 hhonours)] at hacquire
      rw [World.step, hacquire, hprepared]
      dsimp only
      rw [if_neg hwritable]
      exact .granted _ _ hregistration hhonours rfl ⟨_, rfl, rfl⟩
    · rw [if_neg fun hauthorized => hhonours ((honours_iff negotiated).2 hauthorized)] at hacquire
      rw [World.step, hacquire]
      exact .conflict hregistration hhonours

/-- Nobody else asks for input, and the holder of the lease does not release it by command. -/
def Calm (w : World) : Event → Prop
  | .acquire request _ _ => request.readOnly = true
  | .lock (.act command) _ =>
    command.kind = .release → ∀ lease ∈ w.terminal.lease, lease.id ≠ command.leaseId
  | _ => True

/-- The recovery record is the same, and a lease has the token of the one before. -/
structure Keeps (t t' : InputState) : Prop where
  recovery : t'.recovery = t.recovery
  lease : ∀ lease ∈ t'.lease, ∃ before ∈ t.lease, before.resumeToken = lease.resumeToken

variable {t' : InputState}

theorem keeps_of_lease (hrecovery : t'.recovery = t.recovery)
    (hlease : t'.lease = t.lease ∨ t'.lease = none) : Keeps t t' := by
  refine ⟨hrecovery, fun lease hmem => ?_⟩
  rcases hlease with heq | heq
  · rw [heq] at hmem
    exact ⟨lease, hmem, rfl⟩
  · rw [heq] at hmem
    cases hmem

/-- A credential that is not in force does not come into force. -/
theorem Keeps.authorized (h : Keeps t t')
    (hauthorized : t'.authorized (request.acquire negotiated)) :
    t.authorized (request.acquire negotiated) := by
  rw [authorized_acquire_iff] at hauthorized ⊢
  rw [h.recovery] at hauthorized
  split at hauthorized
  next hclient =>
    rw [if_pos hclient]
    obtain ⟨hrecovery, lease, hmem, htoken⟩ := hauthorized
    obtain ⟨before, hbefore, heq⟩ := h.lease lease hmem
    exact ⟨hrecovery, before, hbefore, heq.trans htoken⟩
  next hclient =>
    rw [if_neg hclient]
    exact hauthorized

theorem keeps_expireLeaseIfDueAt (t : InputState) (leaseId : String) (now : Nat) :
    Keeps t (t.expireLeaseIfDueAt leaseId now) := by
  rcases expireLeaseIfDueAt_cases t leaseId now with heq | ⟨_, _, _, _, heq⟩
  · rw [heq]
    exact keeps_of_lease rfl (.inl rfl)
  · rw [heq]
    exact keeps_of_lease rfl (.inr rfl)

theorem keeps_releaseLease (t : InputState) (leaseId : String) :
    Keeps t (t.releaseLease leaseId) := by
  rcases releaseLease_cases t leaseId with heq | ⟨_, _, _, heq⟩
  · rw [heq]
    exact keeps_of_lease rfl (.inl rfl)
  · rw [heq]
    exact keeps_of_lease rfl (.inr rfl)

/-- The cleanup, the expiry and the commands of connections that go on keep the credential out of
force. -/
theorem Calm.keeps {event : Event} (h : Calm w event) :
    Keeps w.terminal (w.step event).terminal := by
  rw [World.step_terminal]
  split
  next acquire newToken newLeaseId =>
    have hreadOnly : acquire.readOnly = true := h
    have hterminal : (w.terminal.acquireResumableLeaseAt acquire w.clock newToken newLeaseId).2 =
        w.terminal := by
      rw [acquireResumableLeaseAt]
      split
      · rfl
      · rw [if_pos hreadOnly]
    rw [hterminal]
    exact keeps_of_lease rfl (.inl rfl)
  · exact keeps_expireLeaseIfDueAt w.terminal _ _
  · exact keeps_expireLeaseIfDueAt w.terminal _ _
  next command device =>
    have hacts : w.terminal.Acts command (w.terminal.act command w.clock device).1
        (w.terminal.act command w.clock device).2 := act_cases rfl
    generalize w.terminal.act command w.clock device = outcome at hacts
    obtain ⟨result, t'⟩ := outcome
    cases hacts with
    | refused e _ hlease hrecovery _ => exact keeps_of_lease hrecovery (.inl hlease)
    | accepted current renewed _ _ hlease _ _ hlease' hrenewed hrecovery _ =>
      refine ⟨hrecovery, fun lease hmem => ⟨current, hlease, ?_⟩⟩
      rw [hlease'] at hmem
      obtain rfl := Option.mem_some_iff.1 hmem
      exact hrenewed.2.1.symm
    | released current _ hkind hlease hid _ _ _ _ =>
      exact absurd hid (h hkind current hlease)
  · exact keeps_releaseLease w.terminal _
  · exact keeps_of_lease rfl (.inl rfl)

end

/-! ## Runs -/

namespace Session

variable {negotiated : Negotiated} {s s₀ : Session} {act : ℕ → Action}

/-- The server can be reached and has the terminal, nobody else asks for input, and the consumer
keeps the session. -/
structure Reachable (negotiated : Negotiated) (s : Session) (act : ℕ → Action) : Prop where
  served : ∀ n attempt, act n = .attempt attempt → ∃ service, attempt = .served service ∧
    service.dispatch = .ok () ∧ service.prepared = .ok () ∧ service.delivered = true
  calm : ∀ n event, act n = .server event → Calm (s.run negotiated act n).world event
  kept : ∀ n, act n ≠ .closed ∧ act n ≠ .command .detach

/-- Recovery goes on, with the request it began with. -/
def Pending (s₀ s : Session) : Prop :=
  s.driver.result = none ∧ s.driver.request = s₀.driver.request

theorem permanent_of_registration (e : RegistrationError) :
    isPermanentRecoveryError (.server e.response) = true := by
  cases e with
  | quota message | other message => simp [isPermanentRecoveryError, RegistrationError.response]

/-- What an attempt that the server answers does. -/
inductive Tries (service : Service) (s s' : Session) : Prop
  | decided (hdecided : s'.Decided)
      (hwhy : (∃ e, service.registration = .error e) ∨ Honours s.world s.driver.request)
  | conflict (hregistration : service.registration = .ok ())
      (hrefused : ¬ Honours s.world s.driver.request) (hresult : s'.driver.result = none)
      (hrequest : s'.driver.request = s.driver.request)
      (hterminal : s'.world.terminal = s.world.terminal.expireDue s.world.clock)

theorem step_attempt (hwritable : s.driver.request.Writable negotiated)
    (hresult : s.driver.result = none) (hdispatch : service.dispatch = .ok ())
    (hprepared : service.prepared = .ok ()) (hdelivered : service.delivered = true) :
    Tries service s (s.step negotiated (.attempt (.served service))) := by
  have hhandles := handleAttach_cases (w := s.world) hwritable hdispatch hprepared
  have hdatagram : ¬ has negotiated.datagramState 2 = false := by
    rw [hwritable.datagramState]
    simp
  rw [step, hresult]
  rw [if_neg (by simp), attachStreaming, if_neg hdatagram, if_neg hwritable.workspace, hdelivered]
  generalize handleAttach negotiated s.world s.driver.request service = handled at hhandles
  obtain ⟨reply, world⟩ := handled
  cases hhandles with
  | unregistered e hregistration =>
    refine .decided (.inr ⟨.server e.response, ?_, permanent_of_registration e⟩)
      (.inl ⟨e, hregistration⟩)
    simp [Driver.conclude, permanent_of_registration e]
  | conflict hregistration hrefused => exact .conflict hregistration hrefused hresult rfl rfl
  | granted response _ hregistration hhonours htoken hlease =>
    exact .decided (.inl ⟨response, rfl⟩) (.inr hhonours)

theorem Pending.not_decided (h : Pending s₀ s) : ¬ s.Decided := by
  rintro (⟨response, hresult⟩ | ⟨error, hresult, -⟩) <;>
    exact absurd (h.1.symm.trans hresult) (by simp)

theorem Decided.step (h : s.Decided) (a : Action) : (s.step negotiated a).Decided := by
  have hsome : s.driver.result.isSome = true := by
    rcases h with ⟨response, hresult⟩ | ⟨error, hresult, -⟩ <;> simp [hresult]
  cases a with
  | server event => exact h
  | attempt attempt | command kind | closed =>
    rw [Session.step, if_pos hsome]
    exact h

theorem Pending.command (h : Pending s₀ s) {kind : ActionKind} (hkind : kind ≠ .detach) :
    Pending s₀ (s.step negotiated (.command kind)) := by
  rw [Session.step, h.1]
  cases kind with
  | detach => exact absurd rfl hkind
  | _ => exact h

variable {n : ℕ}

section

variable (h : Reachable negotiated s₀ act) (hwritable : s₀.driver.request.Writable negotiated)

include h hwritable

/-- A step of a recovery that goes on: an attempt, or something that cannot bring the credential
into force. -/
theorem Reachable.step_cases (hpending : Pending s₀ (s₀.run negotiated act n)) :
    (∃ service, act n = .attempt (.served service) ∧
      Tries service (s₀.run negotiated act n) (s₀.run negotiated act (n + 1))) ∨
    (∀ attempt, act n ≠ .attempt attempt) ∧ Pending s₀ (s₀.run negotiated act (n + 1)) ∧
      Keeps (s₀.run negotiated act n).world.terminal
        (s₀.run negotiated act (n + 1)).world.terminal := by
  have hnext : s₀.run negotiated act (n + 1) = (s₀.run negotiated act n).step negotiated (act n) :=
    rfl
  rw [hnext]
  have hsame : Keeps (s₀.run negotiated act n).world.terminal
      (s₀.run negotiated act n).world.terminal := keeps_of_lease rfl (.inl rfl)
  cases hact : act n with
  | server event => exact .inr ⟨by simp, hpending, (h.calm n event hact).keeps⟩
  | attempt attempt =>
    obtain ⟨service, rfl, hdispatch, hprepared, hdelivered⟩ := h.served n attempt hact
    have hwritable' : (s₀.run negotiated act n).driver.request.Writable negotiated := by
      rw [hpending.2]
      exact hwritable
    exact .inl ⟨service, rfl,
      step_attempt hwritable' hpending.1 hdispatch hprepared hdelivered⟩
  | command kind =>
    have hkind : kind ≠ .detach := by
      rintro rfl
      exact (h.kept n).2 hact
    refine .inr ⟨by simp, hpending.command hkind, ?_⟩
    rw [Session.step]
    split <;> exact hsame
  | closed => exact absurd hact (h.kept n).1

theorem Reachable.pending_or_decided (hresult : s₀.driver.result = none)
    (n : ℕ) : Pending s₀ (s₀.run negotiated act n) ∨ (s₀.run negotiated act n).Decided := by
  induction n with
  | zero => exact .inl ⟨hresult, rfl⟩
  | succ n ih =>
    rcases ih with hpending | hdecided
    · rcases h.step_cases hwritable hpending with ⟨service, -, htries⟩ | ⟨-, hpending', -⟩
      · cases htries with
        | decided hdecided _ => exact .inr hdecided
        | conflict _ _ hnone hrequest _ => exact .inl ⟨hnone, hrequest.trans hpending.2⟩
      · exact .inl hpending'
    · exact .inr (hdecided.step (act n))

/-- When the first attempt finds the credential out of force and no attempt is refused at
registration, recovery never ends. -/
theorem Reachable.pending (hresult : s₀.driver.result = none)
    (hattempt : ∃ attempt, act n = .attempt attempt)
    (hfirst : ∀ m < n, ∀ attempt, act m ≠ .attempt attempt)
    (hrefused : ¬ Honours (s₀.run negotiated act n).world s₀.driver.request)
    (hregistered : ∀ m service, act m = .attempt (.served service) → service.registration = .ok ())
    (m : ℕ) :
    Pending s₀ (s₀.run negotiated act m) ∧ (n < m →
      ¬ (s₀.run negotiated act m).world.terminal.authorized
        (s₀.driver.request.acquire negotiated)) := by
  induction m with
  | zero => exact ⟨⟨hresult, rfl⟩, fun hlt => absurd hlt (Nat.not_lt_zero n)⟩
  | succ m ih =>
    obtain ⟨hpending, hdead⟩ := ih
    rcases h.step_cases hwritable hpending with
      ⟨service, hact, htries⟩ | ⟨hother, hpending', hkeeps⟩
    · -- From the first attempt on the credential is out of force.
      have hnot : ¬ Honours (s₀.run negotiated act m).world s₀.driver.request := by
        rcases Nat.lt_trichotomy m n with hlt | rfl | hgt
        · exact absurd hact (hfirst m hlt _)
        · exact hrefused
        · intro hhonours
          apply hdead hgt
          exact (keeps_of_lease (expireDue_recovery _ _) (expireDue_lease _ _)).authorized
            ((honours_iff negotiated).1 hhonours)
      cases htries with
      | decided _ hwhy =>
        rw [hpending.2] at hwhy
        rcases hwhy with ⟨e, he⟩ | hhonours
        · exact absurd (he.symm.trans (hregistered m service hact)) (by simp)
        · exact absurd hhonours hnot
      | conflict _ _ hnone hrequest hterminal =>
        refine ⟨⟨hnone, hrequest.trans hpending.2⟩, fun _ hauthorized => ?_⟩
        rw [hterminal] at hauthorized
        exact hnot ((honours_iff negotiated).2 hauthorized)
    · refine ⟨hpending', fun hlt hauthorized => ?_⟩
      have hne : n ≠ m := by
        rintro rfl
        obtain ⟨attempt, hact⟩ := hattempt
        exact hother attempt hact
      exact hdead (by omega) (hkeeps.authorized hauthorized)

end

/-- Recovery ends with an attachment or a permanent error exactly when the first attempt finds the
credential of the session in force, or an attempt is refused at registration. -/
theorem recover_decides_iff (negotiated : Negotiated) (s : Session) (act : ℕ → Action)
    (hwritable : s.driver.request.Writable negotiated) (hresult : s.driver.result = none)
    (h : Reachable negotiated s act) {n : ℕ} (hattempt : ∃ attempt, act n = .attempt attempt)
    (hfirst : ∀ m < n, ∀ attempt, act m ≠ .attempt attempt) :
    (∃ m, (s.run negotiated act m).Decided) ↔
      Honours (s.run negotiated act n).world s.driver.request ∨
        ∃ m service e, act m = .attempt (.served service) ∧ service.registration = .error e := by
  constructor
  · rintro ⟨m, hdecided⟩
    by_contra hnot
    rw [not_or] at hnot
    refine (h.pending hwritable hresult hattempt hfirst hnot.1 ?_ m).1.not_decided hdecided
    intro k service hact
    cases hregistration : service.registration with
    | ok _ => rfl
    | error e => exact absurd ⟨k, service, e, hact, hregistration⟩ hnot.2
  · -- An attempt ends a recovery that goes on until then.
    have hends : ∀ m service, act m = .attempt (.served service) →
        (Honours (s.run negotiated act m).world s.driver.request ∨
          ∃ e, service.registration = .error e) →
        ∃ k, (s.run negotiated act k).Decided := by
      intro m service hact hwhy
      rcases h.pending_or_decided hwritable hresult m with hpending | hdecided
      · rcases h.step_cases hwritable hpending with ⟨service', hact', htries⟩ | ⟨hother, -, -⟩
        · obtain rfl : service' = service := by
            rw [hact] at hact'
            cases hact'
            rfl
          cases htries with
          | decided hdecided _ => exact ⟨m + 1, hdecided⟩
          | conflict hregistration hrefused _ _ _ =>
            rw [hpending.2] at hrefused
            rcases hwhy with hhonours | ⟨e, he⟩
            · exact absurd hhonours hrefused
            · exact absurd (he.symm.trans hregistration) (by simp)
        · exact absurd hact (hother _)
      · exact ⟨m, hdecided⟩
    rintro (hhonours | ⟨m, service, e, hact, he⟩)
    · obtain ⟨attempt, hact⟩ := hattempt
      obtain ⟨service, rfl, -⟩ := h.served n attempt hact
      exact hends n service hact (Or.inl hhonours)
    · exact hends m service hact (Or.inr ⟨e, he⟩)

/-! ## Two sessions -/

def everything : Negotiated := ⟨some 1, some 2, some 2⟩

/-- An attempt that the server answers, with the given identifiers. -/
def answered (newToken newLeaseId : String) : Service where
  dispatch := .ok ()
  registration := .ok ()
  newToken := newToken
  newLeaseId := newLeaseId
  prepared := .ok ()
  delivered := true

/-- A terminal is opened for input. -/
def opening (clientInstanceId : String) : Except AttachError AttachResponse × World :=
  attachStreaming everything (.start 24 80)
    ⟨"terminal", false, false, "", "workspace", clientInstanceId⟩
    (.served (answered "aaaaaaaa-aaaa-4aaa-8aaa-aaaaaaaaaaa1"
      "bbbbbbbb-bbbb-4bbb-8bbb-bbbbbbbbbbb1"))

/-- The connection is lost. -/
def lost (clientInstanceId : String) : Session :=
  let request : AttachRequest := ⟨"terminal", false, false, "", "workspace", clientInstanceId⟩
  match opening clientInstanceId with
  | (.ok response, w) =>
    ⟨w, .recovering (Driver.opened request response) none (.other "attachment stream ended")⟩
  | (.error e, w) => ⟨w, .recovering request none e⟩

theorem lost_writable {clientInstanceId : String} (h : (opening clientInstanceId).1.isOk = true) :
    (lost clientInstanceId).driver.request.Writable everything := by
  rw [lost]
  split
  next response w hopening =>
    exact writable_opened rfl (by decide) (congrArg Prod.fst hopening)
  next e w hopening =>
    rw [hopening] at h
    cases h

/-- The server cleans the old connection up, and then answers every attempt. -/
def cleanedUp : ℕ → Action
  | 0 => .server (.cleanup "bbbbbbbb-bbbb-4bbb-8bbb-bbbbbbbbbbb1")
  | _ + 1 => .attempt (.served (answered "aaaaaaaa-aaaa-4aaa-8aaa-aaaaaaaaaaa2"
      "bbbbbbbb-bbbb-4bbb-8bbb-bbbbbbbbbbb2"))

theorem cleanedUp_reachable (s : Session) : Reachable everything s cleanedUp where
  served := by
    intro n attempt hact
    match n with
    | 0 => cases hact
    | n + 1 =>
      cases hact
      exact ⟨_, rfl, rfl, rfl, rfl⟩
  calm := by
    intro n event hact
    match n with
    | 0 =>
      cases hact
      exact trivial
    | n + 1 => cases hact
  kept := by
    intro n
    match n with
    | 0 | n + 1 => exact ⟨by simp [cleanedUp], by simp [cleanedUp]⟩

theorem cleanedUp_first (m : ℕ) (hm : m < 1) (attempt : Attempt) :
    cleanedUp m ≠ .attempt attempt := by
  obtain rfl : m = 0 := by omega
  simp [cleanedUp]

/-- A device resumes by its recovery record. -/
theorem recover_decides_device :
    ∃ m, ((lost "cccccccc-cccc-4ccc-8ccc-cccccccccccc").run everything cleanedUp m).Decided := by
  refine (recover_decides_iff everything (lost "cccccccc-cccc-4ccc-8ccc-cccccccccccc") cleanedUp
    (lost_writable (by decide)) rfl (cleanedUp_reachable _) (n := 1) ⟨_, rfl⟩
    cleanedUp_first).2 (.inl ?_)
  rw [Honours, if_neg (by decide)]
  decide +kernel

/-- A client without an instance ID whose connection was cleaned up. -/
theorem lost_cleanedUp_pending (n : ℕ) :
    Pending (lost "") ((lost "").run everything cleanedUp n) := by
  have hrefused : ¬ Honours ((lost "").run everything cleanedUp 1).world
      (lost "").driver.request := by
    have hclient : (lost "").driver.request.clientInstanceId = "" := by decide
    rw [Honours, if_pos hclient]
    rintro ⟨-, lease, hlease, -⟩
    cases hlease
  refine ((cleanedUp_reachable (lost "")).pending (lost_writable (by decide)) rfl (n := 1)
    ⟨_, rfl⟩ cleanedUp_first hrefused ?_ n).1
  intro m service hact
  match m with
  | 0 => cases hact
  | m + 1 =>
    cases hact
    rfl

/-- The refusals leave the server as it is. -/
theorem lost_cleanedUp_world (n : ℕ) : ((lost "").run everything cleanedUp (n + 1)).world =
    ((lost "").run everything cleanedUp 1).world := by
  induction n with
  | zero => rfl
  | succ n ih =>
    have hpending := lost_cleanedUp_pending (n + 1)
    have hnext : (lost "").run everything cleanedUp (n + 1 + 1) =
        ((lost "").run everything cleanedUp (n + 1)).step everything (cleanedUp (n + 1)) := rfl
    rw [hnext, cleanedUp, step, hpending.1]
    rw [if_neg (by simp), hpending.2, ih]
    rfl

/-- The server can be reached and answers every attempt, nobody holds or asks for input, and
recovery never ends. -/
theorem recover_may_not_decide :
    (lost "").driver.request.Writable everything ∧
    (∀ n, ((lost "").run everything cleanedUp n).Enabled everything (cleanedUp n)) ∧
    Reachable everything (lost "") cleanedUp ∧
    (∀ n, ∃ m, n ≤ m ∧ ∃ attempt, cleanedUp m = .attempt attempt) ∧
    (∀ n, ((lost "").run everything cleanedUp (n + 1)).world.terminal.lease = none ∧
      ((lost "").run everything cleanedUp (n + 1)).world.terminal.recovery = none) ∧
    ∀ n, ((lost "").run everything cleanedUp n).driver.result = none := by
  refine ⟨lost_writable (by decide), fun n => ?_, cleanedUp_reachable _,
    fun n => ⟨n + 1, Nat.le_succ n, _, rfl⟩, fun n => ?_, fun n => (lost_cleanedUp_pending n).1⟩
  · match n with
    | 0 => exact trivial
    | n + 1 =>
      rw [cleanedUp, Enabled, lost_cleanedUp_world]
      exact ⟨by decide, by decide, by decide, by decide⟩
  · rw [lost_cleanedUp_world]
    exact ⟨rfl, rfl⟩

/-! ## Failures that pass -/

/-- A step after which recovery should go on: anything at the server, a command other than a detach,
and an attempt that is lost, comes too late or meets a lease conflict. -/
def Passes (negotiated : Negotiated) (s : Session) : Action → Prop
  | .server _ => True
  | .command kind => kind ≠ .detach
  | .closed => False
  | .attempt (.offline _) => True
  | .attempt (.served service) =>
    service.delivered = false ∨ ∃ e, (handleAttach negotiated s.world s.driver.request service).1 =
      .refused ⟨"lease_conflict", e⟩

/-- Each step is judged in the session that it meets. -/
def AllPass (negotiated : Negotiated) : Session → List Action → Prop
  | _, [] => True
  | s, a :: acts => Passes negotiated s a ∧ AllPass negotiated (s.step negotiated a) acts

theorem Passes.transient {attempt : Attempt} (h : Passes negotiated s (.attempt attempt)) :
    ∃ failure, (attachStreaming negotiated s.world s.driver.request attempt).1 = .error failure ∧
      isPermanentRecoveryError failure = false := by
  cases attempt with
  | offline message => exact ⟨_, rfl, rfl⟩
  | served service =>
    rw [attachStreaming]
    split_ifs with hdatagrams hworkspace hdelivered
    · exact ⟨_, rfl, rfl⟩
    · exact ⟨_, rfl, rfl⟩
    · obtain hlate | ⟨e, he⟩ := h
      · exact absurd hdelivered (by simp [hlate])
      · generalize handleAttach negotiated s.world s.driver.request service = handled at he
        obtain ⟨reply, w⟩ := handled
        cases he
        exact ⟨_, rfl, rfl⟩
    · exact ⟨_, rfl, rfl⟩

theorem Passes.step {a : Action} (h : Passes negotiated s a) (hresult : s.driver.result = none) :
    (s.step negotiated a).driver.result = none := by
  cases a with
  | server event => exact hresult
  | command kind =>
    rw [Session.step, hresult]
    cases kind with
    | detach => exact absurd rfl h
    | input incarnation bytes | resize size | history => exact hresult
  | closed => exact h.elim
  | attempt attempt =>
    obtain ⟨failure, hfailure, htransient⟩ := h.transient
    simp [Session.step, hresult, hfailure, Driver.conclude, htransient]

theorem AllPass.run {acts : List Action} (h : AllPass negotiated s acts)
    (hresult : s.driver.result = none) :
    (acts.foldl (Session.step negotiated) s).driver.result = none := by
  induction acts generalizing s with
  | nil => exact hresult
  | cons a acts ih => exact ih h.2 (h.1.step hresult)

/-- However many attempts are lost, come too late or meet a lease conflict, the first one that the
server accepts gives the session its attachment. -/
theorem recover_after_transient (negotiated : Negotiated) (s : Session) (acts : List Action)
    (attempt : Attempt) (response : AttachResponse) (hresult : s.driver.result = none)
    (hpass : AllPass negotiated s acts)
    (haccepted : (attachStreaming negotiated (acts.foldl (Session.step negotiated) s).world
      (acts.foldl (Session.step negotiated) s).driver.request attempt).1 = .ok response) :
    ((acts ++ [Action.attempt attempt]).foldl (Session.step negotiated) s).driver.result =
      some (.ok response) := by
  rw [List.foldl_append]
  simp [Session.step, hpass.run hresult, haccepted, Driver.conclude]

/-- An attempt with new identifiers, which the server registers or refuses as given. -/
def retried (registration : Except RegistrationError Unit) : Action :=
  .attempt (.served { answered "aaaaaaaa-aaaa-4aaa-8aaa-aaaaaaaaaaa2"
    "bbbbbbbb-bbbb-4bbb-8bbb-bbbbbbbbbbb2" with registration := registration })

/-- The connection stays away for one attempt, and the next one is accepted. -/
theorem recover_after_offline :
    ∃ response, (([.attempt (.offline "connection lost"), retried (.ok ())]).foldl
      (Session.step everything) (lost "cccccccc-cccc-4ccc-8ccc-cccccccccccc")).driver.result =
        some (.ok response) :=
  ⟨_, recover_after_transient everything (lost "cccccccc-cccc-4ccc-8ccc-cccccccccccc")
    [.attempt (.offline "connection lost")] _ _ rfl ⟨trivial, trivial⟩ rfl⟩

/-- The server refuses an attachment over the quota under the code `quota`, for which the client
does not retry: the attempt after it, which the server would accept, is never made. -/
theorem quota_ends_recovery :
    (([retried (.error (.quota "attachment quota exceeded")), retried (.ok ())]).foldl
      (Session.step everything) (lost "cccccccc-cccc-4ccc-8ccc-cccccccccccc")).driver.result =
        some (.error (.server ⟨"quota", "attachment quota exceeded"⟩)) ∧
    ∃ response, ((lost "cccccccc-cccc-4ccc-8ccc-cccccccccccc").step everything
      (retried (.ok ()))).driver.result = some (.ok response) :=
  ⟨by decide +kernel, _, rfl⟩

end Session

end AstraShell.Client
