import AstraShell.Streaming.Delta

/-!
# Version 3 viewport transfers

`ViewportTransfer` of `terminal_datagram_v3.rs`: a delta is encoded, compressed when that pays, and
cut into the smallest number of fragments that fit the payload budget. `prepare` gives up, so that a
keyframe is sent instead, when the fragments would not be smaller than the keyframe.

Protobuf encoding, SHA-256 and zstd are outside the repository and enter as the functions of
`External`.
-/

set_option autoImplicit false

namespace AstraShell.Streaming

open Lib TerminalState

/-- The functions of external libraries that the data plane calls. -/
structure External where
  /-- The number of grapheme clusters of a string. -/
  graphemeCount : String → Nat
  /-- The protobuf bytes of a datagram. -/
  encodeToVec : TerminalViewportDatagram → Bytes
  sha256 : Bytes → Bytes
  /-- Compression into a buffer of the given size; it can fail for lack of space. -/
  compressToBuffer : Bytes → Nat → Option Bytes

def maxWorkingBytes : Nat := 65535
def maxFragments : Nat := 128

/-- The bytes of `astra-viewport-v3`. -/
def idDomain : Bytes :=
  [97, 115, 116, 114, 97, 45, 118, 105, 101, 119, 112, 111, 114, 116, 45, 118, 51]

/-- A prepared transfer. `body` is the delta the transfer carries; it is not a field of the source,
where a complete set of fragments decodes to it. -/
structure ViewportTransfer where
  terminalId : String
  attachmentId : String
  header : TerminalViewportFragment
  encoded : Bytes
  body : TerminalViewportDatagram
  deriving DecidableEq

def workingBytesFit (raw encoded : Nat) : Bool :=
  raw > 0 && encoded > 0 && encoded * 2 + raw + 1 ≤ maxWorkingBytes

/-- The bytes of the encoded body that fragment `index` of `count` carries. -/
def balancedRange (index count total : Nat) : Nat × Nat :=
  (index * total / count, (index + 1) * total / count)

/-- The loop of `varint_len`; ten rounds are enough for a `usize`. -/
def varintLenFrom : Nat → Nat → Nat
  | 0, _ => 1
  | fuel + 1, value => if value ≥ 128 then varintLenFrom fuel (value / 128) + 1 else 1

def varintLen (value : Nat) : Nat := varintLenFrom 10 value

def beBytes (value : Nat) : Bytes :=
  [value / 2 ^ 24, value / 2 ^ 16, value / 2 ^ 8, value].map (UInt8.ofNat ·)

def transferId (sha256 : Bytes → Bytes) (header : TerminalViewportFragment) : Bytes :=
  (sha256 (idDomain ++ header.sha256 ++ beBytes (header.encoding % 2 ^ 32).toNat ++
    beBytes header.totalEncoded ++ beBytes header.rawLength ++ beBytes header.count)).take 16

/-- The bytes of fragment `index` on the wire, counted without building it. -/
def ViewportTransfer.packetLen (t : ViewportTransfer) (index : Nat) : Nat :=
  let header := { t.header with index := index }
  let range := balancedRange index header.count t.encoded.length
  let dataLength := range.2 - range.1
  let inner := header.encodedLen + 1 + varintLen dataLength + dataLength
  let outerRoute := 1 + varintLen t.terminalId.utf8ByteSize + t.terminalId.utf8ByteSize + 1 +
    varintLen t.attachmentId.utf8ByteSize + t.attachmentId.utf8ByteSize
  outerRoute + 1 + varintLen inner + inner

/-- The bytes of all fragments, or nothing when one exceeds the budget. -/
def wireBytes (t : ViewportTransfer) (payloadBudget : Nat) :
    Nat → List Nat → Except String (Option Nat)
  | bytes, [] => .ok (some bytes)
  | bytes, index :: indexes =>
    if t.packetLen index > payloadBudget then .ok none
    else do
      let bytes ← context (checkedAdd 64 bytes (t.packetLen index)) "viewport wire size overflow"
      wireBytes t payloadBudget bytes indexes

/-- The loop over the number of fragments: the first that fits decides. -/
def chooseCount (lib : External) (t : ViewportTransfer) (payloadBudget keyframeBytes : Nat) :
    List Nat → Except String (Option ViewportTransfer)
  | [] => .ok none
  | count :: counts => do
    let candidate := { t with header := { t.header with count := count } }
    let bytes ← wireBytes candidate payloadBudget 0 (List.range count)
    match bytes with
    | none => chooseCount lib t payloadBudget keyframeBytes counts
    | some bytes =>
      if bytes ≥ keyframeBytes then return none
      else return some { candidate with
        header := { candidate.header with
          transferId := transferId lib.sha256 candidate.header } }

/-- The encoding of the body: compressed when that saves a twentieth and at least 64 bytes. -/
def encodeBody (lib : External) (raw : Bytes) (maximumEncoded : Nat) : Int × Bytes :=
  let compressed := if raw.length ≥ 1024 then lib.compressToBuffer raw maximumEncoded else none
  match compressed with
  | some bytes =>
    if bytes.length + max 64 ((raw.length + 19) / 20) ≤ raw.length then (1, bytes) else (0, raw)
  | none => (0, raw)

/-- A `u32` from a `usize`. -/
def tryU32 (n : Nat) : Except String Nat :=
  context (if n < 2 ^ 32 then some n else none)
    "out of range integral type conversion attempted"

theorem tryU32_of_lt {n : Nat} (h : n < 2 ^ 32) : tryU32 n = .ok n := by
  simp only [tryU32, if_pos h, context]

/-- `none` means that a keyframe must be used. -/
def ViewportTransfer.prepare (lib : External) (delta : TerminalViewportDatagram)
    (payloadBudget keyframeBytes : Nat) : Except String (Option ViewportTransfer) :=
  let rawLength := delta.encodedLen
  if rawLength = 0 ∨ rawLength ≥ maxWorkingBytes ∨ payloadBudget = 0 then .ok none
  else do
    ensure (delta.fragment = none) "nested viewport fragment"
    ensure (delta.terminalId ≠ "" ∧ delta.attachmentId ≠ "") "empty viewport route"
    let diff ← context delta.diff "viewport transfer has no diff"
    ensure (diff.epoch.length = 16 ∧ diff.baseGeneration > 0 ∧
      diff.targetGeneration > diff.baseGeneration) "invalid viewport transfer generation"
    let maximumEncoded := (maxWorkingBytes - rawLength - 1) / 2
    let raw := lib.encodeToVec delta
    let body := encodeBody lib raw maximumEncoded
    if maximumEncoded = 0 ∨ workingBytesFit rawLength body.2.length = false then return none
    else
      let totalEncoded ← tryU32 body.2.length
      let rawLength ← tryU32 rawLength
      chooseCount lib
        { terminalId := delta.terminalId
          attachmentId := delta.attachmentId
          header := {
            epoch := diff.epoch
            baseGeneration := diff.baseGeneration
            targetGeneration := diff.targetGeneration
            transferId := List.replicate 16 0
            index := 0
            count := 1
            totalEncoded := totalEncoded
            rawLength := rawLength
            encoding := body.1
            sha256 := lib.sha256 raw
            data := [] }
          encoded := body.2
          body := delta }
        payloadBudget keyframeBytes (List.range' 1 (min maxFragments totalEncoded))

theorem chooseCount_body {lib : External} {t t' : ViewportTransfer} {budget keyframe : Nat}
    {counts : List Nat} (h : chooseCount lib t budget keyframe counts = .ok (some t')) :
    t'.body = t.body := by
  induction counts with
  | nil => cases h
  | cons count counts ih =>
    simp only [chooseCount, bind_eq_ok_iff] at h
    obtain ⟨bytes, -, h⟩ := h
    cases bytes with
    | none => exact ih h
    | some bytes =>
      dsimp only at h
      split at h
      · cases h
      · cases h
        rfl

/-- A transfer carries the delta it was prepared from. -/
theorem ViewportTransfer.prepare_body {lib : External} {delta : TerminalViewportDatagram}
    {budget keyframe : Nat} {t : ViewportTransfer}
    (h : ViewportTransfer.prepare lib delta budget keyframe = .ok (some t)) : t.body = delta := by
  unfold ViewportTransfer.prepare at h
  dsimp only at h
  split at h
  · cases h
  simp only [bind_eq_ok_iff] at h
  obtain ⟨-, -, -, -, diff, -, -, -, h⟩ := h
  split at h
  · cases h
  simp only [bind_eq_ok_iff] at h
  obtain ⟨_, -, _, -, h⟩ := h
  exact chooseCount_body h

end AstraShell.Streaming
