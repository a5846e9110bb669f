import Mathlib.Data.String.Basic
import Mathlib.Order.Bounds.Basic
import AstraShell.Lib.Requirements

/-!
# Version negotiation

`negotiation.rs`: the gateway chooses a version and capabilities from a client hello and what it
supports (`negotiateClientHello`), the client checks the choice it is told
(`validateServerHello`), and a worker checks what the gateway passes on
(`validateWorkerSelection`). The rules on which capability needs which others are applied by the
gateway as removals in a fixed order and by the other two as checks.

`negotiation_agrees` says that all three end with the same result, and that this is the largest one
the two hellos and the rules allow.
-/

set_option autoImplicit false

namespace AstraShell.Negotiation

open Lib OrdMap

/-! ## Messages -/

/-- The versions of a capability. -/
structure CapabilityRange where
  name : String
  minimumVersion : Nat
  maximumVersion : Nat

/-- What one side supports. -/
structure ProtocolSupport where
  minimumVersion : Nat
  maximumVersion : Nat
  capabilities : List CapabilityRange

/-- An offer of a client has the fields of a supported range. -/
abbrev CapabilityOffer : Type := CapabilityRange

structure CapabilitySelection where
  name : String
  version : Nat

/-- The offer of a client. -/
structure ClientHello where
  protocolVersion : Nat
  minimumProtocolVersion : Nat
  maximumProtocolVersion : Nat
  capabilities : List CapabilityOffer

/-- The answer to an offer. -/
structure ServerHello where
  protocolVersion : Nat
  capabilities : List CapabilitySelection

abbrev Capabilities : Type := OrdMap String Nat

structure NegotiatedProtocol where
  version : Nat
  capabilities : Capabilities

def maxCapabilities : Nat := 64

def maxCapabilityNameBytes : Nat := 64

/-! ## Checks -/

/-- Lower-case letters, digits, dots and underscores; no byte of another character is one of them.
-/
def validateCapabilityName (name : String) : Except String Unit :=
  ensure (name ≠ "" ∧ name.utf8ByteSize ≤ maxCapabilityNameBytes ∧
      name.toList.all (fun c => c.isLower || c.isDigit || c == '.' || c == '_') = true)
    "invalid protocol capability name"

/-- A client without a range speaks the one version of its hint. -/
def helloVersionRange (hello : ClientHello) : Except String (Nat × Nat) :=
  if hello.minimumProtocolVersion = 0 ∧ hello.maximumProtocolVersion = 0 then do
    ensure (0 < hello.protocolVersion) "legacy client protocol version is zero"
    return (hello.protocolVersion, hello.protocolVersion)
  else do
    ensure (0 < hello.minimumProtocolVersion ∧
        hello.minimumProtocolVersion ≤ hello.maximumProtocolVersion)
      "client protocol version range is invalid"
    ensure (hello.minimumProtocolVersion ≤ hello.protocolVersion ∧
        hello.protocolVersion ≤ hello.maximumProtocolVersion)
      "legacy protocol hint is outside the advertised client range"
    return (hello.minimumProtocolVersion, hello.maximumProtocolVersion)

/-- The check of one named range; `subject` is whose it is. -/
def validateRange (subject : String) (range : CapabilityRange) : Except String Unit := do
  validateCapabilityName range.name
  ensure (0 < range.minimumVersion ∧ range.minimumVersion ≤ range.maximumVersion)
    (subject ++ " capability " ++ range.name ++ " has an invalid version range")

def duplicated (subject : String) (range : CapabilityRange) : String :=
  subject ++ " capability " ++ range.name ++ " is duplicated"

def validateSupport (support : ProtocolSupport) : Except String Unit := do
  ensure (0 < support.minimumVersion ∧ support.minimumVersion ≤ support.maximumVersion)
    "server protocol support range is invalid"
  ensure (support.capabilities.length ≤ maxCapabilities) "server supports too many capabilities"
  let _ ← collectDistinct CapabilityRange.name (fun _ => ()) (validateRange "server")
    (duplicated "server") .empty support.capabilities
  return ()

/-- The checks of an offer. -/
def validateOffers (offers : List CapabilityOffer) : Except String (OrdMap String (Nat × Nat)) := do
  ensure (offers.length ≤ maxCapabilities) "client offered too many capabilities"
  collectDistinct CapabilityRange.name (fun offer => (offer.minimumVersion, offer.maximumVersion))
    (validateRange "client") (duplicated "client") .empty offers

/-! ## Dependencies -/

def capabilityHistoryPaging : String := "terminal.history_paging"

def capabilitySemanticState : String := "terminal.semantic_state"

def capabilityDatagramState : String := "terminal.datagram_state"

def capabilityStateAck : String := "terminal.state_ack"

def capabilitySemanticDiff : String := "terminal.semantic_diff"

def capabilityClipboardWrite : String := "terminal.clipboard_write"

def capabilitySessionObjects : String := "session.objects"

def capabilityInputResume : String := "terminal.input_resume"

def capabilityInputLease : String := "terminal.input_lease"

def capabilityTcpForward : String := "forward.tcp"

def capabilityStreamChannels : String := "transport.stream_channels"

def capabilityPayloadZstd : String := "payload.zstd"

def capabilityLegacyAnsiSnapshot : String := "terminal.legacy_ansi_snapshot"

/-- A need of any version. -/
def present (name : String) : String × Nat := (name, 0)

/-- The removals of `negotiate_client_hello`, in order. -/
def removals : List (Requirement String) :=
  [⟨capabilityClipboardWrite, [(capabilitySemanticState, 2)]⟩,
    ⟨capabilityHistoryPaging, [(capabilitySemanticState, 2)]⟩,
    ⟨capabilityStateAck, [(capabilitySemanticState, 2)]⟩,
    ⟨capabilitySemanticDiff, [present capabilityStateAck, (capabilitySemanticState, 2)]⟩,
    ⟨capabilityDatagramState,
      [present capabilityStateAck, present capabilitySessionObjects, (capabilitySemanticState, 2)]⟩,
    ⟨capabilityInputLease, [present capabilitySessionObjects]⟩,
    ⟨capabilityInputResume, [present capabilityInputLease]⟩,
    ⟨capabilityTcpForward, [present capabilityStreamChannels]⟩]

/-- The checks of `validate_capability_dependencies`, in order, with their messages. -/
def dependencyChecks : List (Requirement String × String) :=
  [(⟨capabilityTcpForward, [present capabilityStreamChannels]⟩,
      "forward.tcp requires transport.stream_channels v1"),
    (⟨capabilityClipboardWrite, [(capabilitySemanticState, 2)]⟩,
      "terminal.clipboard_write requires terminal.semantic_state v2"),
    (⟨capabilityHistoryPaging, [(capabilitySemanticState, 2)]⟩,
      "terminal.history_paging requires terminal.semantic_state v2"),
    (⟨capabilityStateAck, [(capabilitySemanticState, 2)]⟩,
      "terminal.state_ack requires terminal.semantic_state v2"),
    (⟨capabilitySemanticDiff, [present capabilityStateAck, (capabilitySemanticState, 2)]⟩,
      "terminal.semantic_diff requires terminal.state_ack and terminal.semantic_state v2"),
    (⟨capabilityDatagramState,
        [present capabilityStateAck, present capabilitySessionObjects,
          (capabilitySemanticState, 2)]⟩,
      "terminal.datagram_state requires terminal.state_ack, session.objects, and terminal.semantic_state v2"),
    (⟨capabilityInputLease, [present capabilitySessionObjects]⟩,
      "terminal.input_lease requires session.objects v1"),
    (⟨capabilityInputResume, [present capabilityInputLease]⟩,
      "terminal.input_resume requires terminal.input_lease v1")]

/-- A selection has what it depends on. -/
def validateCapabilityDependencies (capabilities : Capabilities) : Except String Unit :=
  checkEach (fun check => ensure ((capabilities.get? check.1.key).isSome = false ∨
    check.1.met capabilities = true) check.2) dependencyChecks

/-! ## The three parties -/

/-- The greatest common version of an offered and a supported capability. -/
def shared (offers : OrdMap String (Nat × Nat)) (supported : CapabilityRange) : Option Nat :=
  match offers.get? supported.name with
  | none => none
  | some offered =>
    if max offered.1 supported.minimumVersion ≤ min offered.2 supported.maximumVersion then
      some (min offered.2 supported.maximumVersion)
    else none

/-- The loop over the supported capabilities. -/
def commonCapabilities (offers : OrdMap String (Nat × Nat)) (support : List CapabilityRange) :
    Capabilities :=
  support.foldl (fun capabilities supported =>
    match shared offers supported with
    | none => capabilities
    | some version => capabilities.insert supported.name version) .empty

/-- The answer of the server. -/
def negotiateClientHello (hello : ClientHello) (server : ProtocolSupport) :
    Except String NegotiatedProtocol := do
  validateSupport server
  let client ← helloVersionRange hello
  ensure (max client.1 server.minimumVersion ≤ min client.2 server.maximumVersion)
    ("client protocol range " ++ toString client.1 ++ "..=" ++ toString client.2 ++
      " does not overlap server range " ++ toString server.minimumVersion ++ "..=" ++
      toString server.maximumVersion)
  let offers ← validateOffers hello.capabilities
  -- Removing a capability that is not there does nothing, so one form fits all the removals.
  return ⟨min client.2 server.maximumVersion,
    removals.foldl Requirement.enforce (commonCapabilities offers server.capabilities)⟩

/-- In the order of the names. -/
def selections (negotiated : NegotiatedProtocol) : List CapabilitySelection :=
  negotiated.capabilities.entries.map fun entry => ⟨entry.1, entry.2⟩

def validateWorkerSelection (version : Nat) (selected : List CapabilitySelection)
    (support : ProtocolSupport) : Except String NegotiatedProtocol := do
  validateSupport support
  ensure (support.minimumVersion ≤ version ∧ version ≤ support.maximumVersion)
    "worker stream selected an unsupported protocol version"
  ensure (selected.length ≤ maxCapabilities) "worker stream selected too many capabilities"
  let supported := support.capabilities.foldl (fun m c => m.insert c.name c) OrdMap.empty
  let capabilities ← collectDistinct CapabilitySelection.name CapabilitySelection.version
    (fun selection => do
      validateCapabilityName selection.name
      let capability ← context (supported.get? selection.name)
        "worker stream selected an unknown capability"
      ensure (capability.minimumVersion ≤ selection.version ∧
          selection.version ≤ capability.maximumVersion)
        "worker stream selected an unsupported capability version")
    (fun _ => "worker stream selected a capability more than once") .empty selected
  validateCapabilityDependencies capabilities
  return ⟨version, capabilities⟩

/-- The checks of the client. -/
def validateServerHello (client : ClientHello) (server : ServerHello) :
    Except String NegotiatedProtocol := do
  let range ← helloVersionRange client
  ensure (range.1 ≤ server.protocolVersion ∧ server.protocolVersion ≤ range.2)
    ("server selected protocol version " ++ toString server.protocolVersion ++
      " outside client range " ++ toString range.1 ++ "..=" ++ toString range.2)
  let offers ← validateOffers client.capabilities
  ensure (server.capabilities.length ≤ maxCapabilities) "server selected too many capabilities"
  let capabilities ← collectDistinct CapabilitySelection.name CapabilitySelection.version
    (fun selected => do
      validateCapabilityName selected.name
      ensure (0 < selected.version) "selected capability version is zero"
      let offered ← context (offers.get? selected.name)
        ("server selected unoffered capability " ++ selected.name)
      ensure (offered.1 ≤ selected.version ∧ selected.version ≤ offered.2)
        ("server selected unsupported version " ++ toString selected.version ++
          " for capability " ++ selected.name))
    (fun selected => "server selected capability " ++ selected.name ++ " more than once")
    .empty server.capabilities
  validateCapabilityDependencies capabilities
  return ⟨server.protocolVersion, capabilities⟩

/-! ## Supported capabilities -/

namespace ProtocolSupport

/-- What the daemon and its workers implement. -/
def runtime : ProtocolSupport where
  minimumVersion := 1
  maximumVersion := 2
  capabilities :=
    [⟨capabilityTcpForward, 1, 1⟩, ⟨capabilityStreamChannels, 1, 1⟩, ⟨capabilityPayloadZstd, 1, 1⟩,
      ⟨capabilityLegacyAnsiSnapshot, 1, 1⟩, ⟨capabilitySemanticState, 2, 2⟩,
      ⟨capabilityHistoryPaging, 1, 1⟩, ⟨capabilityStateAck, 1, 1⟩, ⟨capabilitySemanticDiff, 1, 1⟩,
      ⟨capabilityDatagramState, 2, 2⟩, ⟨capabilityClipboardWrite, 1, 1⟩,
      ⟨capabilitySessionObjects, 1, 1⟩, ⟨capabilityInputResume, 2, 2⟩, ⟨capabilityInputLease, 1, 1⟩]

/-- What the command-line renderer implements. -/
def commandLineClient : ProtocolSupport where
  minimumVersion := 1
  maximumVersion := 2
  capabilities :=
    [⟨capabilityTcpForward, 1, 1⟩, ⟨capabilityStreamChannels, 1, 1⟩,
      ⟨capabilityLegacyAnsiSnapshot, 1, 1⟩, ⟨capabilityPayloadZstd, 1, 1⟩]

end ProtocolSupport

/-- The hint stays at the legacy version. -/
def clientHello (support : ProtocolSupport) : ClientHello where
  protocolVersion := 1
  minimumProtocolVersion := support.minimumVersion
  maximumProtocolVersion := support.maximumVersion
  capabilities := support.capabilities

/-! ## What is allowed -/

/-- The versions of a client. -/
def Speaks (hello : ClientHello) (version : Nat) : Prop :=
  if hello.minimumProtocolVersion = 0 ∧ hello.maximumProtocolVersion = 0 then
    version = hello.protocolVersion
  else hello.minimumProtocolVersion ≤ version ∧ version ≤ hello.maximumProtocolVersion

/-- A version of a capability in a list of ranges. -/
def Has (ranges : List CapabilityRange) (name : String) (version : Nat) : Prop :=
  ∃ range ∈ ranges, range.name = name ∧ range.minimumVersion ≤ version ∧
    version ≤ range.maximumVersion

/-- The versions of a capability that both sides have. -/
def Common (hello : ClientHello) (server : ProtocolSupport) (name : String) : Set Nat :=
  { version | Has hello.capabilities name version ∧ Has server.capabilities name version }

/-- Capabilities at their greatest common versions that have what they need. -/
def Admissible (hello : ClientHello) (server : ProtocolSupport) (capabilities : Capabilities) :
    Prop :=
  (∀ name version, capabilities.get? name = some version →
    IsGreatest (Common hello server name) version) ∧
  ∀ rule ∈ removals, Requirement.Meets capabilities rule

/-! ## Proof -/

theorem ordered_removals : Requirement.Ordered removals := by
  unfold Requirement.Ordered
  decide

/-- The two lists of rules are the same. -/
theorem mem_removals_of_check : ∀ check ∈ dependencyChecks, check.1 ∈ removals := by
  decide

theorem get?_commonCapabilities {support : List CapabilityRange}
    {offers : OrdMap String (Nat × Nat)} (hnodup : (support.map CapabilityRange.name).Nodup)
    (name : String) (version : Nat) :
    (commonCapabilities offers support).get? name = some version ↔
      ∃ range ∈ support, range.name = name ∧ shared offers range = some version :=
  get?_foldl_insert (fun _ range => by cases shared offers range <;> rfl) hnodup name version

theorem validateCapabilityDependencies_iff {capabilities : Capabilities} :
    validateCapabilityDependencies capabilities = .ok () ↔
      ∀ check ∈ dependencyChecks, Requirement.Meets capabilities check.1 := by
  rw [validateCapabilityDependencies, checkEach_eq_ok_iff]
  refine forall₂_congr fun check _ => ?_
  rw [ensure_eq_ok_iff, Requirement.Meets]
  cases capabilities.get? check.1.key with
  | none => simp
  | some level => simp

/-- The supported names are valid and different, and their ranges are not empty. -/
theorem validateSupport_eq_ok {support : ProtocolSupport} (h : validateSupport support = .ok ()) :
    support.capabilities.length ≤ maxCapabilities ∧
      (support.capabilities.map CapabilityRange.name).Nodup ∧
      ∀ range ∈ support.capabilities, validateCapabilityName range.name = .ok () ∧
        0 < range.minimumVersion := by
  simp only [validateSupport, bind_eq_ok_iff, ensure_eq_ok_iff] at h
  obtain ⟨⟨⟩, -, ⟨⟩, hlength, names, hnames, -⟩ := h
  obtain ⟨hitems, hnodup, -⟩ := collectDistinct_eq_ok_iff.1 hnames
  refine ⟨hlength, hnodup, ?_⟩
  intro range hrange
  have hcheck := (hitems range hrange).1
  simp only [validateRange, bind_eq_ok_iff, ensure_eq_ok_iff] at hcheck
  obtain ⟨⟨⟩, hname, hpositive, -⟩ := hcheck
  exact ⟨hname, hpositive⟩

/-- The map of the offers is the list of the offers. -/
theorem validateOffers_eq_ok {hello : ClientHello} {offers : OrdMap String (Nat × Nat)}
    (h : validateOffers hello.capabilities = .ok offers) (name : String) (offered : Nat × Nat) :
    offers.get? name = some offered ↔ ∃ offer ∈ hello.capabilities, offer.name = name ∧
      (offer.minimumVersion, offer.maximumVersion) = offered := by
  simp only [validateOffers, bind_eq_ok_iff, ensure_eq_ok_iff] at h
  obtain ⟨⟨⟩, -, hoffers⟩ := h
  obtain ⟨-, hnodup, rfl⟩ := collectDistinct_eq_ok_iff.1 hoffers
  simpa using get?_foldl_insert (f := fun o => some (o.minimumVersion, o.maximumVersion))
    (fun _ _ => rfl) hnodup name offered

theorem helloVersionRange_eq_ok {hello : ClientHello} {range : Nat × Nat}
    (h : helloVersionRange hello = .ok range) (version : Nat) :
    Speaks hello version ↔ range.1 ≤ version ∧ version ≤ range.2 := by
  rw [helloVersionRange] at h
  rw [Speaks]
  split at h
  next hlegacy =>
    simp only [bind_eq_ok_iff, ensure_eq_ok_iff, pure_eq_ok_iff] at h
    obtain ⟨⟨⟩, -, rfl⟩ := h
    rw [if_pos hlegacy]
    omega
  next hranged =>
    simp only [bind_eq_ok_iff, ensure_eq_ok_iff, pure_eq_ok_iff] at h
    obtain ⟨⟨⟩, -, ⟨⟩, -, rfl⟩ := h
    rw [if_neg hranged]

/-- The version that the loop picks is the greatest common one. -/
theorem isGreatest_of_shared {hello : ClientHello} {server : ProtocolSupport}
    {offers : OrdMap String (Nat × Nat)} (hoffers : validateOffers hello.capabilities = .ok offers)
    (hnodup : (server.capabilities.map CapabilityRange.name).Nodup) {range : CapabilityRange}
    (hmem : range ∈ server.capabilities) (version : Nat) :
    shared offers range = some version ↔
      IsGreatest (Common hello server range.name) version := by
  -- The only range and the only offer of the name.
  have honly : ∀ range' ∈ server.capabilities, range'.name = range.name → range' = range := by
    intro range' hmem' hname
    exact List.inj_on_of_nodup_map hnodup hmem' hmem hname
  have hoffered : ∀ offer ∈ hello.capabilities, offer.name = range.name →
      offers.get? range.name = some (offer.minimumVersion, offer.maximumVersion) := by
    intro offer hoffer hname
    exact (validateOffers_eq_ok hoffers _ _).2 ⟨offer, hoffer, hname, rfl⟩
  rw [shared]
  cases hget : offers.get? range.name with
  | none =>
    constructor
    · intro h
      cases h
    · rintro ⟨⟨⟨offer, hoffer, hname, -⟩, -⟩, -⟩
      rw [hoffered offer hoffer hname] at hget
      cases hget
  | some offered =>
    obtain ⟨offer, hoffer, hname, rfl⟩ := (validateOffers_eq_ok hoffers _ _).1 hget
    -- Both sides are intervals.
    have hcommon : ∀ v, v ∈ Common hello server range.name ↔
        (offer.minimumVersion ≤ v ∧ v ≤ offer.maximumVersion) ∧
          range.minimumVersion ≤ v ∧ v ≤ range.maximumVersion := by
      intro v
      constructor
      · rintro ⟨⟨offer', hoffer', hname', hin⟩, range', hmem', hname'', hin'⟩
        have heq := (hoffered offer' hoffer' hname').symm.trans hget
        cases honly range' hmem' hname''
        injection heq with heq
        injection heq with hmin hmax
        rw [hmin, hmax] at hin
        exact ⟨hin, hin'⟩
      · rintro ⟨hin, hin'⟩
        exact ⟨⟨offer, hoffer, hname, hin⟩, range, hmem, rfl, hin'⟩
    dsimp only
    constructor
    · intro h
      split at h
      next hoverlap =>
        injection h with h
        refine ⟨(hcommon version).2 (by omega), ?_⟩
        intro v hv
        have hv' := (hcommon v).1 hv
        omega
      next => cases h
    · rintro ⟨hin, hgreatest⟩
      have hin' := (hcommon version).1 hin
      have hoverlap : max offer.minimumVersion range.minimumVersion ≤
          min offer.maximumVersion range.maximumVersion := by omega
      rw [if_pos hoverlap]
      have hbest := hgreatest ((hcommon
        (min offer.maximumVersion range.maximumVersion)).2 (by omega))
      congr 1
      omega

/-- Reading the selections back gives the map they were made from. -/
theorem collect_selections (n : NegotiatedProtocol)
    {check : CapabilitySelection → Except String Unit}
    {duplicate : CapabilitySelection → String}
    (hcheck : ∀ name version, n.capabilities.get? name = some version →
      check ⟨name, version⟩ = .ok ()) :
    collectDistinct CapabilitySelection.name CapabilitySelection.version check duplicate .empty
      (selections n) = .ok n.capabilities := by
  have hmem : ∀ selection ∈ selections n,
      n.capabilities.get? selection.name = some selection.version := by
    intro selection hselection
    obtain ⟨entry, hentry, rfl⟩ := List.mem_map.1 hselection
    exact (get?_eq_some_iff _ _ _).2 hentry
  have hnodup : ((selections n).map CapabilitySelection.name).Nodup := by
    rw [selections, List.map_map]
    exact n.capabilities.keys_nodup
  refine collectDistinct_eq_ok_iff.2
    ⟨fun selection h => ⟨hcheck _ _ (hmem selection h), rfl⟩, hnodup, ?_⟩
  apply ext_get?
  intro name
  apply Option.ext
  intro version
  refine (get?_foldl_insert (f := fun s => some s.version) (fun _ _ => rfl) hnodup _ _).trans ?_
  constructor
  · rintro ⟨selection, hselection, rfl, hversion⟩
    cases hversion
    exact hmem selection hselection
  · intro hget
    refine ⟨⟨name, version⟩, ?_, rfl, rfl⟩
    exact List.mem_map.2 ⟨(name, version), (get?_eq_some_iff _ _ _).1 hget, rfl⟩

section Agreement

variable {hello : ClientHello} {server : ProtocolSupport} {n : NegotiatedProtocol}

section

variable (h : negotiateClientHello hello server = .ok n)

include h

/-- The parts of a negotiation that succeeds. -/
theorem negotiateClientHello_eq_ok :
    ∃ range offers, validateSupport server = .ok () ∧ helloVersionRange hello = .ok range ∧
      max range.1 server.minimumVersion ≤ min range.2 server.maximumVersion ∧
      validateOffers hello.capabilities = .ok offers ∧
      n.version = min range.2 server.maximumVersion ∧
      n.capabilities =
        removals.foldl Requirement.enforce (commonCapabilities offers server.capabilities) := by
  simp only [negotiateClientHello, bind_eq_ok_iff, ensure_eq_ok_iff, pure_eq_ok_iff] at h
  obtain ⟨⟨⟩, hsupport, range, hrange, ⟨⟩, hoverlap, offers, hoffers, hn⟩ := h
  have hversion := congrArg NegotiatedProtocol.version hn
  have hcapabilities := congrArg NegotiatedProtocol.capabilities hn
  dsimp only at hversion hcapabilities
  exact ⟨range, offers, hsupport, hrange, hoverlap, hoffers, hversion.symm, hcapabilities.symm⟩

/-- Every selected capability is one of the supported ones, at the greatest common version. -/
theorem selected_common {name : String}
    {version : Nat} (hget : n.capabilities.get? name = some version) :
    (∃ range ∈ server.capabilities, range.name = name) ∧
      IsGreatest (Common hello server name) version := by
  obtain ⟨range, offers, hsupport, -, -, hoffers, -, hn⟩ := negotiateClientHello_eq_ok h
  obtain ⟨-, hnodup, -⟩ := validateSupport_eq_ok hsupport
  rw [hn] at hget
  have hcommon := Requirement.foldl_enforce_sub _ removals name version hget
  obtain ⟨supported, hmem, rfl, hshared⟩ := (get?_commonCapabilities hnodup name version).1 hcommon
  exact ⟨⟨supported, hmem, rfl⟩, (isGreatest_of_shared hoffers hnodup hmem version).1 hshared⟩

theorem admissible_of_negotiate : Admissible hello server n.capabilities := by
  constructor
  · intro name version hget
    exact (selected_common h hget).2
  · obtain ⟨range, offers, -, -, -, -, -, hn⟩ := negotiateClientHello_eq_ok h
    rw [hn]
    exact Requirement.foldl_enforce_meets ordered_removals _

/-- Every other admissible choice is part of the negotiated one. -/
theorem sub_of_admissible
    {capabilities : Capabilities} (hadmissible : Admissible hello server capabilities) :
    Requirement.Sub capabilities n.capabilities := by
  obtain ⟨range, offers, hsupport, -, -, hoffers, -, hn⟩ := negotiateClientHello_eq_ok h
  obtain ⟨-, hnodup, -⟩ := validateSupport_eq_ok hsupport
  rw [hn]
  apply Requirement.le_foldl_enforce _ hadmissible.2
  intro name version hget
  have hgreatest := hadmissible.1 name version hget
  obtain ⟨-, supported, hmem, rfl, -⟩ := hgreatest.1
  exact (get?_commonCapabilities hnodup _ _).2
    ⟨supported, hmem, rfl, (isGreatest_of_shared hoffers hnodup hmem version).2 hgreatest⟩

theorem length_selections_le : (selections n).length ≤ maxCapabilities := by
  obtain ⟨-, -, hsupport, -⟩ := negotiateClientHello_eq_ok h
  have hsubset : n.capabilities.keys ⊆ server.capabilities.map CapabilityRange.name := by
    intro name hname
    obtain ⟨entry, hentry, rfl⟩ := List.mem_map.1 hname
    have hget : n.capabilities.get? entry.1 = some entry.2 :=
      (get?_eq_some_iff _ _ _).2 hentry
    obtain ⟨range, hrange, hname⟩ := (selected_common h hget).1
    exact List.mem_map.2 ⟨range, hrange, hname⟩
  have hlength := (List.subperm_of_subset n.capabilities.keys_nodup hsubset).length_le
  rw [keys, List.length_map, List.length_map] at hlength
  rw [selections, List.length_map]
  exact hlength.trans (validateSupport_eq_ok hsupport).1

theorem dependencies_of_negotiate : validateCapabilityDependencies n.capabilities = .ok () := by
  rw [validateCapabilityDependencies_iff]
  intro check hcheck
  exact (admissible_of_negotiate h).2 check.1 (mem_removals_of_check check hcheck)

/-- The client accepts the choice it is told. -/
theorem client_accepts : validateServerHello hello ⟨n.version, selections n⟩ = .ok n := by
  obtain ⟨range, offers, hsupport, hrange, hoverlap, hoffers, hversion, -⟩ :=
    negotiateClientHello_eq_ok h
  obtain ⟨-, -, hranges⟩ := validateSupport_eq_ok hsupport
  simp only [validateServerHello, bind_eq_ok_iff, ensure_eq_ok_iff, pure_eq_ok_iff]
  refine ⟨range, hrange, ⟨⟩, by omega, offers, hoffers, ⟨⟩, length_selections_le h,
    n.capabilities, ?_, ⟨⟩, dependencies_of_negotiate h, rfl⟩
  apply collect_selections
  intro name version hget
  obtain ⟨⟨supported, hmem, rfl⟩, hgreatest⟩ := selected_common h hget
  obtain ⟨⟨offer, hoffer, hname, hoffered⟩, supported', hmem', -, hsupported⟩ := hgreatest.1
  simp only [bind_eq_ok_iff, ensure_eq_ok_iff, context_eq_ok_iff]
  refine ⟨⟨⟩, (hranges supported hmem).1, ⟨⟩, ?_, (offer.minimumVersion, offer.maximumVersion), ?_,
    hoffered⟩
  · exact (hranges supported' hmem').2.trans_le hsupported.1
  · exact (validateOffers_eq_ok hoffers _ _).2 ⟨offer, hoffer, hname, rfl⟩

/-- So does a worker with the same support. -/
theorem worker_accepts : validateWorkerSelection n.version (selections n) server = .ok n := by
  obtain ⟨range, offers, hsupport, hrange, hoverlap, hoffers, hversion, -⟩ :=
    negotiateClientHello_eq_ok h
  obtain ⟨-, hnodup, hranges⟩ := validateSupport_eq_ok hsupport
  simp only [validateWorkerSelection, bind_eq_ok_iff, ensure_eq_ok_iff, pure_eq_ok_iff]
  refine ⟨⟨⟩, hsupport, ⟨⟩, by omega, ⟨⟩, length_selections_le h, n.capabilities, ?_, ⟨⟩,
    dependencies_of_negotiate h, rfl⟩
  apply collect_selections
  intro name version hget
  obtain ⟨-, hgreatest⟩ := selected_common h hget
  obtain ⟨-, supported, hmem, rfl, hsupported⟩ := hgreatest.1
  simp only [bind_eq_ok_iff, ensure_eq_ok_iff, context_eq_ok_iff]
  refine ⟨⟨⟩, (hranges supported hmem).1, supported, ?_, hsupported⟩
  exact (get?_foldl_insert (f := some) (fun _ _ => rfl) hnodup _ _).2
    ⟨supported, hmem, rfl, rfl⟩

theorem isGreatest_version :
    IsGreatest { v | Speaks hello v ∧ server.minimumVersion ≤ v ∧ v ≤ server.maximumVersion }
      n.version := by
  obtain ⟨range, offers, -, hrange, hoverlap, -, hversion, -⟩ := negotiateClientHello_eq_ok h
  constructor
  · refine ⟨(helloVersionRange_eq_ok hrange _).2 ?_, ?_⟩ <;> omega
  · rintro v ⟨hspeaks, hserver⟩
    have hclient := (helloVersionRange_eq_ok hrange v).1 hspeaks
    omega

end

/-! ## Main result -/

/-- If the gateway chooses `n`, the client and the worker arrive at exactly `n`; its version is the
greatest that both sides have, and its capabilities are the largest admissible choice. -/
theorem negotiation_agrees (h : negotiateClientHello hello server = .ok n) :
    validateServerHello hello ⟨n.version, selections n⟩ = .ok n ∧
    validateWorkerSelection n.version (selections n) server = .ok n ∧
    IsGreatest { v | Speaks hello v ∧ server.minimumVersion ≤ v ∧ v ≤ server.maximumVersion }
      n.version ∧
    Admissible hello server n.capabilities ∧
    ∀ capabilities, Admissible hello server capabilities →
      ∀ name version, capabilities.get? name = some version →
        n.capabilities.get? name = some version :=
  ⟨client_accepts h, worker_accepts h, isGreatest_version h, admissible_of_negotiate h,
    fun _ hadmissible => sub_of_admissible h hadmissible⟩

theorem negotiation_agrees_commandLineClient :
    ∃ n, negotiateClientHello (clientHello .commandLineClient) .runtime = .ok n ∧
      validateServerHello (clientHello .commandLineClient) ⟨n.version, selections n⟩ = .ok n ∧
      validateWorkerSelection n.version (selections n) .runtime = .ok n := by
  have hok := eq_ok_okValue (negotiateClientHello (clientHello .commandLineClient) .runtime)
    (by decide +kernel)
  have hagrees := negotiation_agrees hok
  exact ⟨_, hok, hagrees.1, hagrees.2.1⟩

end Agreement

end AstraShell.Negotiation
