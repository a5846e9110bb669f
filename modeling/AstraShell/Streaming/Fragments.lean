import AstraShell.Lib.Slots
import AstraShell.Streaming.Transfer
import AstraShell.TerminalState.Arithmetic

/-!
# The packets of a viewport transfer

`packet` of `terminal_datagram_v3.rs`, and `validate_worker_datagram` of `worker.rs`, which every
packet of a worker passes on its way to the client.

`Shaped` is what `prepare` knows before it looks for a number of packets; the number and the
identity that follows from it do not disturb it. `strictPrepare` is `prepare` in a build with
overflow checks. `fragmented_transfer` says that the two agree, and what holds of the transfer they
give.
-/

set_option autoImplicit false

namespace AstraShell.Streaming

open Lib Lib.Wire TerminalState TerminalSync TerminalViewportDatagram

/-! ## Packets -/

namespace ViewportTransfer

/-- The bytes of one fragment. -/
def fragmentData (t : ViewportTransfer) (index : Nat) : Bytes :=
  let range := balancedRange index t.header.count t.encoded.length
  Slots.slice t.encoded range.1 range.2

/-- The source asserts that the index is below the count. -/
def packet (t : ViewportTransfer) (index : Nat) : TerminalViewportDatagram where
  terminalId := t.terminalId
  attachmentId := t.attachmentId
  diff := none
  inheritedFields := 0
  sparseRows := false
  primaryPatches := []
  alternatePatches := []
  fragment := some { t.header with index := index, data := t.fragmentData index }

/-- The transfer with another number of packets. -/
def withCount (t : ViewportTransfer) (count : Nat) : ViewportTransfer :=
  { t with header := { t.header with count := count } }

end ViewportTransfer

/-! ## The gateway -/

def validateWorkerDatagram (packet : TerminalViewportDatagram) (version : Nat) :
    Except String Unit := do
  ensure (1 ≤ version ∧ version ≤ 3) "worker datagram was not negotiated"
  match packet.fragment with
  | some fragment =>
    ensure (version = 3 ∧ packet.diff = none ∧ packet.inheritedFields = 0 ∧
        packet.sparseRows = false ∧ packet.primaryPatches = [] ∧ packet.alternatePatches = [])
      "invalid or unnegotiated worker fragment"
    let total := fragment.totalEncoded
    let raw := fragment.rawLength
    let count := fragment.count
    let index := fragment.index
    ensure (fragment.epoch.length = 16 ∧ fragment.transferId.length = 16 ∧
        fragment.sha256.length = 32 ∧ fragment.baseGeneration > 0 ∧
        fragment.targetGeneration > fragment.baseGeneration ∧ count > 0 ∧ count ≤ 128 ∧
        index < count ∧ total ≥ count ∧ raw > 0 ∧ raw + 2 * total < 65535 ∧
        (fragment.encoding = 0 ∨ fragment.encoding = 1))
      "invalid worker fragment bounds"
    ensure (fragment.data.length = (index + 1) * total / count - index * total / count)
      "invalid worker fragment interval"
    ensure (fragment.encoding ≠ 0 ∨ raw = total) "invalid raw worker fragment length"
  | none =>
    ensure (version < 3 ∧ packet.diff ≠ none)
      "worker viewport format differs from negotiated version"

/-- The checks of the gateway on a packet that comes in an event with this route. -/
def checkWorkerEvent (terminalId attachmentId : String) (datagram : TerminalViewportDatagram)
    (version : Nat) : Except String Unit := do
  ensure (terminalId ≠ "" ∧ attachmentId ≠ "" ∧ terminalId = datagram.terminalId ∧
    attachmentId = datagram.attachmentId) "worker emitted an inconsistent terminal datagram route"
  validateWorkerDatagram datagram version

/-! ## The arithmetic -/

open TerminalState.Stop

/-- A plain multiplication of unsigned integers. -/
def plainMul (bits a b : Nat) : Except Stop Nat :=
  if a * b < 2 ^ bits then .ok (a * b) else .error (.panicked "attempt to multiply with overflow")

/-- A plain division. -/
def plainDiv (a b : Nat) : Except Stop Nat :=
  if b ≠ 0 then .ok (a / b) else .error (.panicked "attempt to divide by zero")

/-- Plain additions from left to right. -/
def plainSum (bits : Nat) : Nat → List Nat → Except Stop Nat
  | total, [] => .ok total
  | total, n :: ns => do
    let total ← plainAdd bits total n
    plainSum bits total ns

def strictRange (index count total : Nat) : Except Stop (Nat × Nat) := do
  let low ← plainMul 64 index total
  let low ← plainDiv low count
  let next ← plainAdd 64 index 1
  let high ← plainMul 64 next total
  let high ← plainDiv high count
  return (low, high)

def ViewportTransfer.strictPacketLen (t : ViewportTransfer) (index : Nat) : Except Stop Nat := do
  let header := { t.header with index := index }
  let range ← strictRange index header.count t.encoded.length
  let dataLength := range.2 - range.1
  let inner ← plainSum 64 header.encodedLen [1, varintLen dataLength, dataLength]
  let outerRoute ← plainSum 64 1 [varintLen t.terminalId.utf8ByteSize, t.terminalId.utf8ByteSize, 1,
    varintLen t.attachmentId.utf8ByteSize, t.attachmentId.utf8ByteSize]
  plainSum 64 outerRoute [1, varintLen inner, inner]

def strictWireBytes (t : ViewportTransfer) (payloadBudget : Nat) :
    Nat → List Nat → Except Stop (Option Nat)
  | bytes, [] => .ok (some bytes)
  | bytes, index :: indexes => do
    let size ← t.strictPacketLen index
    if size > payloadBudget then return none
    else do
      let bytes ← lift (context (checkedAdd 64 bytes size) "viewport wire size overflow")
      strictWireBytes t payloadBudget bytes indexes

def strictChooseCount (lib : External) (t : ViewportTransfer) (payloadBudget keyframeBytes : Nat) :
    List Nat → Except Stop (Option ViewportTransfer)
  | [] => .ok none
  | count :: counts => do
    let candidate := t.withCount count
    let bytes ← strictWireBytes candidate payloadBudget 0 (List.range count)
    match bytes with
    | none => strictChooseCount lib t payloadBudget keyframeBytes counts
    | some bytes =>
      if bytes ≥ keyframeBytes then return none
      else return some { candidate with
        header := { candidate.header with
          transferId := transferId lib.sha256 candidate.header } }

def ViewportTransfer.strictPrepare (lib : External) (delta : TerminalViewportDatagram)
    (payloadBudget keyframeBytes : Nat) : Except Stop (Option ViewportTransfer) :=
  let rawLength := delta.encodedLen
  if rawLength = 0 ∨ rawLength ≥ maxWorkingBytes ∨ payloadBudget = 0 then .ok none
  else do
    lift (ensure (delta.fragment = none) "nested viewport fragment")
    lift (ensure (delta.terminalId ≠ "" ∧ delta.attachmentId ≠ "") "empty viewport route")
    let diff ← lift (context delta.diff "viewport transfer has no diff")
    lift (ensure (diff.epoch.length = 16 ∧ diff.baseGeneration > 0 ∧
      diff.targetGeneration > diff.baseGeneration) "invalid viewport transfer generation")
    let room ← plainSub maxWorkingBytes rawLength
    let room ← plainSub room 1
    let maximumEncoded := room / 2
    let raw := lib.encodeToVec delta
    let body := encodeBody lib raw maximumEncoded
    if maximumEncoded = 0 ∨ workingBytesFit rawLength body.2.length = false then return none
    else
      let totalEncoded ← lift (tryU32 body.2.length)
      let rawLength ← lift (tryU32 rawLength)
      strictChooseCount lib
        { terminalId := delta.terminalId
          attachmentId := delta.attachmentId
          header := {
            epoch := diff.epoch
            baseGeneration := diff.baseGeneration
            targetGeneration := diff.targetGeneration
            transferId := List.replicate 16 0
            index := 0
            count := 1
            totalEncoded := totalEncoded
            rawLength := rawLength
            encoding := body.1
            sha256 := lib.sha256 raw
            data := [] }
          encoded := body.2
          body := delta }
        payloadBudget keyframeBytes (List.range' 1 (min maxFragments totalEncoded))

/-! ## What plain arithmetic gives when it fits -/

theorem lift_bind {α β : Type} (x : Except String α) (f : α → Except String β) :
    lift (x >>= f) = lift x >>= fun a => lift (f a) := by
  cases x with
  | error e => rfl
  | ok a => rfl

theorem ok_bind {ε α β : Type} (a : α) (f : α → Except ε β) : (Except.ok a >>= f) = f a := rfl

theorem lift_ok {α : Type} (a : α) : lift (.ok a) = .ok a := rfl

theorem lift_ensure_bind_of {β : Type} {p : Prop} [Decidable p] (e : String) (hp : p)
    (f : Unit → Except Stop β) : (lift (ensure p e) >>= f) = f () := by
  simp [ensure, hp, lift, bind, Except.bind]

theorem lift_ensure_bind_of_not {β : Type} {p : Prop} [Decidable p] (e : String) (hp : ¬ p)
    (f : Unit → Except Stop β) : (lift (ensure p e) >>= f) = .error (.refused e) := by
  simp [ensure, hp, lift, bind, Except.bind]

theorem plainSum_eq_ok {bits total : Nat} {ns : List Nat} (h : total + ns.sum < 2 ^ bits) :
    plainSum bits total ns = .ok (total + ns.sum) := by
  induction ns generalizing total with
  | nil => rfl
  | cons n ns ih =>
    rw [List.sum_cons] at h ⊢
    have hadd : plainAdd bits total n = .ok (total + n) := if_pos (by omega)
    rw [plainSum, hadd, ← Nat.add_assoc]
    exact ih (by omega)

theorem strictRange_eq_ok {index count total : Nat} (hindex : index < count) (hcount : count ≤ 128)
    (htotal : total < 65536) :
    strictRange index count total = .ok (balancedRange index count total) := by
  have hproduct : (index + 1) * total ≤ 128 * 65536 :=
    Nat.mul_le_mul (Nat.lt_of_lt_of_le hindex hcount) (Nat.le_of_lt htotal)
  have hhigh : (index + 1) * total < 2 ^ 64 := by omega
  have hlow : index * total < 2 ^ 64 := by
    rw [Nat.succ_mul] at hproduct
    omega
  have hnext : index + 1 < 2 ^ 64 := by omega
  have hne : count ≠ 0 := by omega
  simp only [strictRange, bind_eq_ok_iff, pure_eq_ok_iff]
  exact ⟨_, if_pos hlow, _, if_pos hne, _, if_pos hnext, _, if_pos hhigh, _, if_pos hne, rfl⟩

/-! ## The length of a packet -/

theorem varintLenFrom_eq {fuel value : Nat} (h : value < 128 ^ (fuel + 1)) :
    varintLenFrom fuel value = Nat.log2 value / 7 + 1 := by
  induction fuel generalizing value with
  | zero =>
    have hlog := log2_lt_of_lt (k := 7) (by decide) h
    rw [varintLenFrom]
    omega
  | succ fuel ih =>
    rw [varintLenFrom]
    split
    · next hlarge =>
        have hne : value ≠ 0 := by omega
        have hseven : 7 ≤ Nat.log2 value := (Nat.le_log2 hne).2 hlarge
        have hsmall : value / 128 < 128 ^ (fuel + 1) := by
          rw [Nat.div_lt_iff_lt_mul (by decide)]
          exact h
        rw [ih hsmall, log2_div_128]
        omega
    · next hless =>
        have hlog := log2_lt_of_lt (k := 7) (by decide) (Nat.lt_of_not_le hless)
        omega

theorem varintLenFrom_le (fuel value : Nat) : varintLenFrom fuel value ≤ fuel + 1 := by
  induction fuel generalizing value with
  | zero => exact Nat.le_refl _
  | succ fuel ih =>
    rw [varintLenFrom]
    split
    · exact Nat.succ_le_succ (ih _)
    · exact Nat.succ_le_succ (Nat.zero_le _)

/-- The length that is counted is the one on the wire. -/
theorem varintLen_eq_wire {value : Nat} (h : value < 2 ^ 64) :
    varintLen value = Wire.varintLen value := by
  rw [varintLen, varintLenFrom_eq (by omega), Wire.varintLen_eq h]

/-- What `prepare` knows of a transfer whatever its number of packets is. -/
structure ViewportTransfer.Shaped (t : ViewportTransfer) : Prop where
  terminalId : t.terminalId ≠ ""
  attachmentId : t.attachmentId ≠ ""
  route : t.terminalId.utf8ByteSize + t.attachmentId.utf8ByteSize < 65536
  epoch : t.header.epoch.length = 16
  base : 0 < t.header.baseGeneration
  target : t.header.baseGeneration < t.header.targetGeneration
  generations : uintField 2 t.header.baseGeneration + uintField 3 t.header.targetGeneration < 65536
  transferId : t.header.transferId.length = 16
  total : t.header.totalEncoded = t.encoded.length
  raw : 0 < t.header.rawLength
  fits : t.header.rawLength + 2 * t.encoded.length < 65535
  encoding : t.header.encoding = 0 ∧ t.header.rawLength = t.encoded.length ∨ t.header.encoding = 1
  sha256 : t.header.sha256.length = 32
  data : t.header.data = []

namespace ViewportTransfer

variable {t : ViewportTransfer} {index count : Nat}

theorem Shaped.withCount (h : t.Shaped) (count : Nat) : (t.withCount count).Shaped :=
  { h with }

theorem balancedRange_snd_le {count : ℕ} (hindex : index < count) (total : ℕ) :
    (balancedRange index count total).2 ≤ total := by
  apply Nat.div_le_of_le_mul
  exact Nat.mul_le_mul_right _ hindex

/-- The number of bytes of a fragment. -/
theorem length_fragmentData (hindex : index < t.header.count) :
    (t.fragmentData index).length = (index + 1) * t.encoded.length / t.header.count -
      index * t.encoded.length / t.header.count := by
  have hend := balancedRange_snd_le hindex t.encoded.length
  simp only [balancedRange] at hend
  simp only [fragmentData, balancedRange, Slots.slice, List.length_drop, List.length_take]
  omega

/-- The header of a packet without its data is short. -/
theorem Shaped.header_le (h : t.Shaped) (hindex : index < 128) (hcount : t.header.count ≤ 128) :
    { t.header with index := index }.encodedLen < 65536 + 200 := by
  have hgenerations := h.generations
  have hfits := h.fits
  have hindexed := uintField_le 5 (n := index) (by omega)
  have hcounted := uintField_le 6 (n := t.header.count) (by omega)
  have htotal := uintField_le 7 (n := t.header.totalEncoded) (by rw [h.total]; omega)
  have hraw := uintField_le 8 (n := t.header.rawLength) (by omega)
  have hencoding : int32Field 9 t.header.encoding ≤ 2 := by
    rcases h.encoding with ⟨henc, -⟩ | henc
    · rw [henc]; decide
    · rw [henc]; decide
  have hepoch : bytesField 1 16 = 18 := by decide
  have hid : bytesField 4 16 = 18 := by decide
  have hdigest : bytesField 10 32 = 34 := by decide
  have hdata : bytesField 11 0 = 0 := by decide
  have hkeys : keyLen 5 = 1 ∧ keyLen 6 = 1 ∧ keyLen 7 = 1 ∧ keyLen 8 = 1 := by decide
  simp only [TerminalViewportFragment.encodedLen, h.epoch, h.transferId, h.sha256, h.data,
    List.length_nil, hepoch, hid, hdigest, hdata]
  omega

/-- The length of a packet without its route. -/
def innerLen (t : ViewportTransfer) (index : Nat) : Nat :=
  let dataLength := (balancedRange index t.header.count t.encoded.length).2 -
    (balancedRange index t.header.count t.encoded.length).1
  { t.header with index := index }.encodedLen + 1 + varintLen dataLength + dataLength

/-- The length of the route. -/
def routeLen (t : ViewportTransfer) : Nat :=
  1 + varintLen t.terminalId.utf8ByteSize + t.terminalId.utf8ByteSize + 1 +
    varintLen t.attachmentId.utf8ByteSize + t.attachmentId.utf8ByteSize

theorem packetLen_eq (t : ViewportTransfer) (index : Nat) :
    t.packetLen index = t.routeLen + 1 + varintLen (t.innerLen index) + t.innerLen index := rfl

theorem Shaped.routeLen_lt (h : t.Shaped) : t.routeLen < 65536 + 24 := by
  have hroute := h.route
  have hterminal : varintLen t.terminalId.utf8ByteSize ≤ 11 := varintLenFrom_le 10 _
  have hattachment : varintLen t.attachmentId.utf8ByteSize ≤ 11 := varintLenFrom_le 10 _
  unfold routeLen
  omega

section

variable (h : t.Shaped) (hindex : index < t.header.count) (hcount : t.header.count ≤ 128)

include h hindex hcount

theorem Shaped.innerLen_lt : t.innerLen index < 2 * 65536 + 212 := by
  have hfits := h.fits
  have hheader := h.header_le (Nat.lt_of_lt_of_le hindex hcount) hcount
  have hend := balancedRange_snd_le hindex t.encoded.length
  have hvarint : varintLen _ ≤ 11 := varintLenFrom_le 10
    ((balancedRange index t.header.count t.encoded.length).2 -
      (balancedRange index t.header.count t.encoded.length).1)
  simp only [innerLen] at hheader ⊢
  omega

theorem Shaped.packetLen_lt : t.packetLen index < 2 ^ 18 := by
  have hroute := h.routeLen_lt
  have hinner := h.innerLen_lt hindex hcount
  have hvarint : varintLen (t.innerLen index) ≤ 11 := varintLenFrom_le 10 _
  rw [packetLen_eq]
  omega

/-- All lengths of a packet fit, so the plain additions give the length. -/
theorem Shaped.strictPacketLen_eq : t.strictPacketLen index = .ok (t.packetLen index) := by
  have hfits := h.fits
  have hroute := h.routeLen_lt
  have hinner := h.innerLen_lt hindex hcount
  have hlength := h.packetLen_lt hindex hcount
  have hrange : strictRange index t.header.count t.encoded.length =
      .ok (balancedRange index t.header.count t.encoded.length) :=
    strictRange_eq_ok hindex hcount (by omega)
  have hinnerSum : ∀ len d, (len : Nat) + [1, varintLen d, d].sum = len + 1 + varintLen d + d := by
    intro len d
    simp [Nat.add_assoc]
  have hrouteSum : 1 + [varintLen t.terminalId.utf8ByteSize, t.terminalId.utf8ByteSize, 1,
      varintLen t.attachmentId.utf8ByteSize, t.attachmentId.utf8ByteSize].sum = t.routeLen := by
    simp [routeLen, Nat.add_assoc]
  simp only [strictPacketLen, bind_eq_ok_iff]
  refine ⟨_, hrange, t.innerLen index, ?_, t.routeLen, ?_, ?_⟩
  · rw [plainSum_eq_ok, hinnerSum]
    · rfl
    · rw [hinnerSum]
      exact Nat.lt_trans hinner (by decide)
  · rw [plainSum_eq_ok, hrouteSum]
    rw [hrouteSum]
    exact Nat.lt_trans hroute (by decide)
  · rw [plainSum_eq_ok, hinnerSum, packetLen_eq]
    rw [hinnerSum, ← packetLen_eq]
    exact Nat.lt_trans hlength (by decide)

end

/-! ## The packets -/

/-- A fragment is not empty when there are no more fragments than bytes. -/
theorem fragmentData_pos (hindex : index < t.header.count)
    (htotal : t.header.count ≤ t.encoded.length) : 0 < (t.fragmentData index).length := by
  have hpos : 0 < t.header.count := by omega
  have hstep : index * t.encoded.length / t.header.count + 1 ≤
      (index + 1) * t.encoded.length / t.header.count := by
    rw [Nat.le_div_iff_mul_le hpos, Nat.succ_mul, Nat.succ_mul]
    exact Nat.add_le_add (Nat.div_mul_le_self _ _) htotal
  rw [length_fragmentData hindex]
  omega

theorem flatten_fragments (t : ViewportTransfer) (hcount : 0 < t.header.count) :
    ((List.range t.header.count).map t.fragmentData).flatten = t.encoded := by
  have hslices := Slots.flatten_slices t.encoded
    (fun i => i * t.encoded.length / t.header.count) (by simp)
    (fun i => Nat.div_le_div_right (Nat.mul_le_mul_right _ (Nat.le_succ i))) t.header.count
  rw [Nat.mul_div_cancel_left _ hcount, List.take_length] at hslices
  exact hslices

section

variable (h : t.Shaped) (hindex : index < t.header.count) (hcount : t.header.count ≤ 128)
  (htotal : t.header.count ≤ t.encoded.length)

include h hindex hcount htotal

/-- The length that is counted is that of the packet. -/
theorem Shaped.encodedLen_packet : (t.packet index).encodedLen = t.packetLen index := by
  have hroute := h.route
  have hfits := h.fits
  have hinner := h.innerLen_lt hindex hcount
  have hdata := fragmentData_pos hindex htotal
  have hterminal : t.terminalId.utf8ByteSize ≠ 0 := by simpa using h.terminalId
  have hattachment : t.attachmentId.utf8ByteSize ≠ 0 := by simpa using h.attachmentId
  have hroutes : stringField 1 t.terminalId + stringField 2 t.attachmentId = t.routeLen := by
    have hkeys : keyLen 1 = 1 ∧ keyLen 2 = 1 := by decide
    simp only [stringField, bytesField, if_neg hterminal, if_neg hattachment, routeLen, hkeys]
    rw [varintLen_eq_wire (by omega), varintLen_eq_wire (by omega)]
    omega
  have hfragment : { t.header with index := index, data := t.fragmentData index }.encodedLen =
      t.innerLen index := by
    have hkey : keyLen 11 = 1 := by decide
    have hempty : bytesField 11 0 = 0 := by decide
    have hle : (t.fragmentData index).length ≤ t.encoded.length := by
      simp only [fragmentData, Slots.slice, List.length_drop, List.length_take]
      omega
    have hbytes : bytesField 11 (t.fragmentData index).length =
        1 + varintLen (t.fragmentData index).length + (t.fragmentData index).length := by
      rw [bytesField, if_neg (Nat.ne_of_gt hdata), hkey, varintLen_eq_wire (by omega)]
    simp only [innerLen, balancedRange, ← length_fragmentData hindex,
      TerminalViewportFragment.encodedLen, h.data, List.length_nil, hempty, hbytes]
    omega
  have hkey : keyLen 8 = 1 := by decide
  rw [packetLen_eq, varintLen_eq_wire (by omega)]
  simp only [encodedLen, packet, optionField, hfragment, hroutes, messageField,
    hkey]
  simp [uintField, boolField, repeatedField]
  omega

/-- Every packet passes the gateway. -/
theorem Shaped.checkWorkerEvent_packet :
    checkWorkerEvent t.terminalId t.attachmentId (t.packet index) 3 = .ok () := by
  have hfits := h.fits
  have htotalEncoded := h.total
  have hencoding : t.header.encoding = 0 ∨ t.header.encoding = 1 := by
    rcases h.encoding with ⟨henc, -⟩ | henc
    · exact .inl henc
    · exact .inr henc
  have hraw : t.header.encoding ≠ 0 ∨ t.header.rawLength = t.header.totalEncoded := by
    rcases h.encoding with ⟨-, hraw⟩ | henc
    · exact .inr (hraw.trans htotalEncoded.symm)
    · exact .inl (by rw [henc]; decide)
  simp only [checkWorkerEvent, validateWorkerDatagram, packet, bind_eq_ok_iff, ensure_eq_ok_iff]
  refine ⟨⟨⟩, ⟨h.terminalId, h.attachmentId, trivial, trivial⟩, ⟨⟩, by decide, ⟨⟩, by simp, ⟨⟩, ?_,
    ⟨⟩, ?_, hraw⟩
  · exact ⟨h.epoch, h.transferId, h.sha256, h.base, h.target, by omega, hcount, hindex, by omega,
      h.raw, by omega, hencoding⟩
  · rw [length_fragmentData hindex, htotalEncoded]

end

end ViewportTransfer

/-! ## The number of packets -/

section Loops

variable {lib : External} {t : ViewportTransfer} {budget keyframe : Nat}

/-- The transfer with the identity that follows from its header. -/
def ViewportTransfer.identified (t : ViewportTransfer) (lib : External) : ViewportTransfer :=
  { t with header := { t.header with transferId := transferId lib.sha256 t.header } }

/-- The bytes of all packets together. -/
def ViewportTransfer.wireLen (t : ViewportTransfer) (indexes : List Nat) : Nat :=
  (indexes.map t.packetLen).sum

/-- The loop over the packets ends at the first that is too large, or has counted them all. -/
theorem wireBytes_eq (t : ViewportTransfer) (budget bytes : Nat) (indexes : List Nat)
    (hsmall : bytes + t.wireLen indexes < 2 ^ 64) :
    (wireBytes t budget bytes indexes = .ok none ∧ ∃ i ∈ indexes, budget < t.packetLen i) ∨
      (wireBytes t budget bytes indexes = .ok (some (bytes + t.wireLen indexes)) ∧
        ∀ i ∈ indexes, t.packetLen i ≤ budget) := by
  induction indexes generalizing bytes with
  | nil => exact .inr ⟨rfl, by simp⟩
  | cons index indexes ih =>
    rw [wireBytes]
    have hcons : t.wireLen (index :: indexes) = t.packetLen index + t.wireLen indexes := by
      simp [ViewportTransfer.wireLen]
    rw [hcons] at hsmall ⊢
    by_cases hlarge : t.packetLen index > budget
    · rw [if_pos hlarge]
      exact .inl ⟨rfl, index, by simp, hlarge⟩
    · have hadd : checkedAdd 64 bytes (t.packetLen index) = some (bytes + t.packetLen index) :=
        checkedAdd_eq_some_iff.2 ⟨by omega, rfl⟩
      rw [if_neg hlarge, hadd]
      rcases ih (bytes + t.packetLen index) (by omega) with
        ⟨hnone, i, hi, hover⟩ | ⟨hsome, hall⟩
      · exact .inl ⟨hnone, i, List.mem_cons_of_mem _ hi, hover⟩
      · refine .inr ⟨?_, ?_⟩
        · rw [← Nat.add_assoc]
          exact hsome
        · intro i hi
          rcases List.mem_cons.1 hi with rfl | hi
          · omega
          · exact hall i hi

theorem strictWireBytes_eq {indexes : List Nat}
    (hstrict : ∀ i ∈ indexes, t.strictPacketLen i = .ok (t.packetLen i)) (bytes : Nat) :
    strictWireBytes t budget bytes indexes = lift (wireBytes t budget bytes indexes) := by
  induction indexes generalizing bytes with
  | nil => rfl
  | cons index indexes ih =>
    have hrest := ih fun i hi => hstrict i (List.mem_cons_of_mem _ hi)
    rw [strictWireBytes, wireBytes, hstrict index (by simp)]
    by_cases hlarge : t.packetLen index > budget
    · rw [if_pos hlarge]
      show (if t.packetLen index > budget then _ else _) = _
      rw [if_pos hlarge]
      rfl
    · rw [if_neg hlarge, lift_bind]
      show (if t.packetLen index > budget then _ else _) = _
      rw [if_neg hlarge]
      simp only [hrest]

namespace ViewportTransfer.Shaped

variable (h : t.Shaped)
include h

theorem wireLen_lt {count : Nat} (hcount : count ≤ 128) :
    (t.withCount count).wireLen (List.range count) < 2 ^ 64 := by
  have hbound : ∀ n ∈ (List.range count).map (t.withCount count).packetLen, n ≤ 2 ^ 18 := by
    intro n hn
    obtain ⟨i, hi, rfl⟩ := List.mem_map.1 hn
    exact Nat.le_of_lt ((h.withCount count).packetLen_lt (List.mem_range.1 hi) hcount)
  have hsum : _ ≤ _ * 2 ^ 18 := List.sum_le_card_nsmul _ _ hbound
  rw [List.length_map, List.length_range] at hsum
  unfold ViewportTransfer.wireLen
  omega

/-- The loop over the number of packets. -/
theorem strictChooseCount_eq {counts : List Nat} (hcounts : ∀ n ∈ counts, n ≤ 128) :
    strictChooseCount lib t budget keyframe counts =
      lift (chooseCount lib t budget keyframe counts) := by
  induction counts with
  | nil => rfl
  | cons count counts ih =>
    have hrest := ih fun n hn => hcounts n (List.mem_cons_of_mem _ hn)
    rw [strictChooseCount, chooseCount, lift_bind]
    have hcount := hcounts count List.mem_cons_self
    rw [strictWireBytes_eq fun i (hi : i ∈ List.range count) =>
      (h.withCount count).strictPacketLen_eq (List.mem_range.1 hi) hcount]
    congr 1
    funext bytes
    cases bytes with
    | none => exact hrest
    | some bytes =>
      dsimp only
      split
      · rfl
      · rfl

/-- The first number of packets that fits decides. -/
theorem chooseCount_cases (lib : External) (budget keyframe : Nat) {counts : List Nat}
    (hcounts : ∀ n ∈ counts, n ≤ 128) (hsorted : counts.Pairwise (· < ·)) :
    ∃ r, chooseCount lib t budget keyframe counts = .ok r ∧ ∀ t', r = some t' →
      ∃ n ∈ counts,
        t' = (t.withCount n).identified lib ∧
        (∀ i < n, (t.withCount n).packetLen i ≤ budget) ∧
        (t.withCount n).wireLen (List.range n) < keyframe ∧
        ∀ m ∈ counts, m < n → ∃ i < m, budget < (t.withCount m).packetLen i := by
  induction counts with
  | nil => exact ⟨none, rfl, fun t' ht' => by cases ht'⟩
  | cons count counts ih =>
    have hcount := hcounts count (by simp)
    rw [chooseCount]
    have hsmall : 0 + (t.withCount count).wireLen (List.range count) < 2 ^ 64 := by
      rw [Nat.zero_add]
      exact h.wireLen_lt hcount
    rcases wireBytes_eq (t.withCount count) budget 0 (List.range count) hsmall with
      ⟨hnone, i, hi, hover⟩ | ⟨hsome, hall⟩
    · obtain ⟨r, hr, hfound⟩ := ih (fun n hn => hcounts n (List.mem_cons_of_mem _ hn))
        (List.Pairwise.of_cons hsorted)
      refine ⟨r, ?_, fun t' ht' => ?_⟩
      · simp only [bind_eq_ok_iff]
        exact ⟨none, hnone, hr⟩
      · obtain ⟨n, hn, heq, hfit, hsmaller, hless⟩ := hfound t' ht'
        refine ⟨n, List.mem_cons_of_mem _ hn, heq, hfit, hsmaller, fun m hm hlt => ?_⟩
        rcases List.mem_cons.1 hm with rfl | hm
        · exact ⟨i, List.mem_range.1 hi, hover⟩
        · exact hless m hm hlt
    · rw [Nat.zero_add] at hsome
      by_cases hlarge : (t.withCount count).wireLen (List.range count) ≥ keyframe
      · refine ⟨none, ?_, fun t' ht' => by cases ht'⟩
        simp only [bind_eq_ok_iff]
        exact ⟨_, hsome, by dsimp only; rw [if_pos hlarge]; rfl⟩
      · refine ⟨some ((t.withCount count).identified lib), ?_, fun t' ht' =>
          ⟨count, by simp, (Option.some.inj ht').symm, ?_, ?_, ?_⟩⟩
        · simp only [bind_eq_ok_iff]
          exact ⟨_, hsome, by dsimp only; rw [if_neg hlarge]; rfl⟩
        · exact fun i hi => hall i (List.mem_range.2 hi)
        · omega
        · intro m hm hlt
          rcases List.mem_cons.1 hm with rfl | hm
          · omega
          · have := List.rel_of_pairwise_cons hsorted hm
            omega

end ViewportTransfer.Shaped

end Loops

/-! ## The preparation -/

/-- What is used of the external functions: encodings have their announced length and digests 32
bytes. The compressor may give anything. -/
structure External.Lawful (lib : External) : Prop where
  encode_length : ∀ delta, (lib.encodeToVec delta).length = delta.encodedLen
  sha256_length : ∀ data, (lib.sha256 data).length = 32

/-- An unfragmented delta with a route and valid generations. -/
def TerminalViewportDatagram.Admissible (delta : TerminalViewportDatagram) : Prop :=
  delta.fragment = none ∧ (delta.terminalId ≠ "" ∧ delta.attachmentId ≠ "") ∧
    ∃ diff, delta.diff = some diff ∧ diff.epoch.length = 16 ∧ diff.baseGeneration > 0 ∧
      diff.targetGeneration > diff.baseGeneration

/-- The encoded body of a delta. -/
def encodedBody (lib : External) (delta : TerminalViewportDatagram) : Int × Bytes :=
  encodeBody lib (lib.encodeToVec delta) ((maxWorkingBytes - delta.encodedLen - 1) / 2)

/-- The transfer before its number of packets is known. -/
def ViewportTransfer.draft (lib : External) (delta : TerminalViewportDatagram)
    (diff : TerminalStateDiff) : ViewportTransfer where
  terminalId := delta.terminalId
  attachmentId := delta.attachmentId
  header := {
    epoch := diff.epoch
    baseGeneration := diff.baseGeneration
    targetGeneration := diff.targetGeneration
    transferId := List.replicate 16 0
    index := 0
    count := 1
    totalEncoded := (encodedBody lib delta).2.length
    rawLength := delta.encodedLen
    encoding := (encodedBody lib delta).1
    sha256 := lib.sha256 (lib.encodeToVec delta)
    data := [] }
  encoded := (encodedBody lib delta).2
  body := delta

variable {lib : External} {delta : TerminalViewportDatagram} {diff : TerminalStateDiff}
  {budget keyframe : Nat}

/-- The parts of a delta are no longer than it. -/
theorem TerminalViewportDatagram.parts_le_encodedLen (hdiff : delta.diff = some diff) :
    delta.terminalId.utf8ByteSize + delta.attachmentId.utf8ByteSize +
      (uintField 2 diff.baseGeneration + uintField 3 diff.targetGeneration) ≤ delta.encodedLen := by
  have hterminal : delta.terminalId.utf8ByteSize ≤ stringField 1 delta.terminalId :=
    le_bytesField _ _
  have hattachment : delta.attachmentId.utf8ByteSize ≤ stringField 2 delta.attachmentId :=
    le_bytesField _ _
  simp only [encodedLen, hdiff, optionField, messageField,
    TerminalStateDiff.encodedLen]
  omega

/-- The body is the encoding itself or something in the place of it. -/
theorem encodeBody_cases (lib : External) (raw : Bytes) (maximumEncoded : Nat) :
    encodeBody lib raw maximumEncoded = (0, raw) ∨
      ∃ bytes, encodeBody lib raw maximumEncoded = (1, bytes) := by
  unfold encodeBody
  dsimp only
  split
  · next bytes _ =>
      split
      · exact .inr ⟨bytes, rfl⟩
      · exact .inl rfl
  · exact .inl rfl

theorem ViewportTransfer.draft_shaped (hlib : lib.Lawful) (hadmissible : delta.Admissible)
    (hdiff : delta.diff = some diff) (hraw : delta.encodedLen < maxWorkingBytes)
    (hfit : workingBytesFit delta.encodedLen (encodedBody lib delta).2.length = true) :
    (draft lib delta diff).Shaped := by
  obtain ⟨-, ⟨hterminal, hattachment⟩, diff', hdiff', hepoch, hbase, htarget⟩ := hadmissible
  have heq : diff' = diff := Option.some.inj (hdiff'.symm.trans hdiff)
  subst heq
  simp only [workingBytesFit, decide_eq_true_eq, Bool.and_eq_true, and_assoc] at hfit
  obtain ⟨hrawPos, -, hworking⟩ := hfit
  have hparts := parts_le_encodedLen hdiff
  simp only [maxWorkingBytes] at hraw hworking
  refine
    { terminalId := hterminal, attachmentId := hattachment, route := ?_, epoch := hepoch,
      base := hbase, target := htarget, generations := ?_, transferId := rfl, total := rfl,
      raw := hrawPos, fits := ?_, encoding := ?_, sha256 := hlib.sha256_length _, data := rfl }
  · simp only [draft]
    omega
  · simp only [draft]
    omega
  · simp only [draft]
    omega
  · rcases encodeBody_cases lib (lib.encodeToVec delta)
      ((maxWorkingBytes - delta.encodedLen - 1) / 2) with hbody | ⟨bytes, hbody⟩
    · refine .inl ⟨congrArg Prod.fst hbody, ?_⟩
      have hlength : (encodedBody lib delta).2 = lib.encodeToVec delta := congrArg Prod.snd hbody
      simp only [draft, hlength, hlib.encode_length]
    · exact .inr (congrArg Prod.fst hbody)

/-- The preparation refuses a delta that is not admissible, gives up, or looks for a number of
packets. A build with overflow checks does the same. -/
theorem ViewportTransfer.prepare_cases (hlib : lib.Lawful) (delta : TerminalViewportDatagram)
    (budget keyframe : Nat) :
    (∃ e, prepare lib delta budget keyframe = .error e ∧
      strictPrepare lib delta budget keyframe = .error (.refused e) ∧ ¬ delta.Admissible) ∨
    (prepare lib delta budget keyframe = .ok none ∧
      strictPrepare lib delta budget keyframe = .ok none) ∨
    ∃ diff, (draft lib delta diff).Shaped ∧
      prepare lib delta budget keyframe = chooseCount lib (draft lib delta diff) budget keyframe
        (List.range' 1 (min maxFragments (encodedBody lib delta).2.length)) ∧
      strictPrepare lib delta budget keyframe = strictChooseCount lib (draft lib delta diff) budget
        keyframe (List.range' 1 (min maxFragments (encodedBody lib delta).2.length)) := by
  by_cases hskip : delta.encodedLen = 0 ∨ delta.encodedLen ≥ maxWorkingBytes ∨ budget = 0
  · exact .inr (.inl ⟨if_pos hskip, if_pos hskip⟩)
  have hraw : delta.encodedLen < maxWorkingBytes := by
    rcases Nat.lt_or_ge delta.encodedLen maxWorkingBytes with hlt | hge
    · exact hlt
    · exact absurd (.inr (.inl hge)) hskip
  unfold prepare strictPrepare
  dsimp only
  rw [if_neg hskip, if_neg hskip]
  -- The guards one after the other, in both versions at once.
  by_cases hfragment : delta.fragment = none
  swap
  · exact .inl ⟨_, ensure_bind_of_not _ _ hfragment _, lift_ensure_bind_of_not _ hfragment _,
      fun h => hfragment h.1⟩
  rw [ensure_bind_of _ _ hfragment, lift_ensure_bind_of _ hfragment]
  by_cases hroute : delta.terminalId ≠ "" ∧ delta.attachmentId ≠ ""
  swap
  · exact .inl ⟨_, ensure_bind_of_not _ _ hroute _, lift_ensure_bind_of_not _ hroute _,
      fun h => hroute h.2.1⟩
  rw [ensure_bind_of _ _ hroute, lift_ensure_bind_of _ hroute]
  cases hdiff : delta.diff with
  | none =>
    refine .inl ⟨_, rfl, rfl, ?_⟩
    rintro ⟨-, -, diff, hsome, -⟩
    rw [hdiff] at hsome
    cases hsome
  | some diff =>
    have hcontext : context (some diff) "viewport transfer has no diff" = .ok diff := rfl
    rw [hcontext, lift_ok, ok_bind, ok_bind]
    by_cases hgenerations : diff.epoch.length = 16 ∧ diff.baseGeneration > 0 ∧
        diff.targetGeneration > diff.baseGeneration
    swap
    · refine .inl ⟨_, ensure_bind_of_not _ _ hgenerations _,
        lift_ensure_bind_of_not _ hgenerations _, ?_⟩
      rintro ⟨-, -, diff', hsome, hvalid⟩
      rw [hdiff] at hsome
      cases hsome
      exact hgenerations hvalid
    have hadmissible : delta.Admissible := ⟨hfragment, hroute, diff, hdiff, hgenerations⟩
    have hroom : plainSub maxWorkingBytes delta.encodedLen =
        .ok (maxWorkingBytes - delta.encodedLen) := if_pos (Nat.le_of_lt hraw)
    have hless : plainSub (maxWorkingBytes - delta.encodedLen) 1 =
        .ok (maxWorkingBytes - delta.encodedLen - 1) := if_pos (by omega)
    rw [ensure_bind_of _ _ hgenerations, lift_ensure_bind_of _ hgenerations, hroom, ok_bind, hless,
      ok_bind]
    split
    · exact .inr (.inl ⟨rfl, rfl⟩)
    · next hproceed =>
        have hfit : workingBytesFit delta.encodedLen (encodedBody lib delta).2.length = true := by
          simpa [encodedBody] using fun h => hproceed (.inr h)
        have hshaped := draft_shaped hlib hadmissible hdiff hraw hfit
        have hfits := hshaped.fits
        simp only [draft] at hfits
        have htotal : tryU32 (encodedBody lib delta).2.length =
            .ok (encodedBody lib delta).2.length := tryU32_of_lt (by omega)
        have hlength : tryU32 delta.encodedLen = .ok delta.encodedLen := tryU32_of_lt (by omega)
        refine .inr (.inr ⟨diff, hshaped, ?_, ?_⟩)
        · rw [encodedBody] at htotal
          rw [htotal, ok_bind, hlength, ok_bind]
          rfl
        · rw [encodedBody] at htotal
          rw [htotal, lift_ok, ok_bind, hlength, lift_ok, ok_bind]
          rfl

/-- The identity takes as much room as the one it replaces. -/
theorem ViewportTransfer.packetLen_transferId (t : ViewportTransfer) {id : Bytes}
    (hid : id.length = t.header.transferId.length) (index : Nat) :
    packetLen { t with header := { t.header with transferId := id } } index =
      t.packetLen index := by
  simp only [packetLen, TerminalViewportFragment.encodedLen, hid]

theorem length_transferId (hlib : lib.Lawful) (header : TerminalViewportFragment) :
    (transferId lib.sha256 header).length = 16 := by
  rw [transferId, List.length_take, hlib.sha256_length]
  rfl

/-- The data of a packet. -/
def TerminalViewportDatagram.payload (packet : TerminalViewportDatagram) : Bytes :=
  match packet.fragment with
  | none => []
  | some fragment => fragment.data

/-- What a prepared transfer is: few packets, each within the budget, of the length that was
counted, with data and acceptable to the gateway; together they are the body, they are smaller than
the keyframe, and fewer packets would not fit. -/
structure ViewportTransfer.Sendable (lib : External) (delta : TerminalViewportDatagram)
    (budget keyframe : Nat) (t : ViewportTransfer) : Prop where
  count_pos : 1 ≤ t.header.count
  count_le : t.header.count ≤ 128
  length : ∀ i < t.header.count, t.packetLen i = (t.packet i).encodedLen
  within : ∀ i < t.header.count, t.packetLen i ≤ budget
  nonempty : ∀ i < t.header.count, (t.packet i).payload ≠ []
  body : ((List.range t.header.count).map fun i => (t.packet i).payload).flatten =
    (encodedBody lib delta).2
  smaller : ((List.range t.header.count).map t.packetLen).sum < keyframe
  minimal : ∀ n, 1 ≤ n → n < t.header.count → ∃ i < n, budget < (t.withCount n).packetLen i
  gateway : ∀ i < t.header.count,
    checkWorkerEvent t.terminalId t.attachmentId (t.packet i) 3 = .ok ()

/-- The number that the loop found makes a transfer that can be sent. -/
theorem ViewportTransfer.Shaped.sendable (hlib : lib.Lawful) {t : ViewportTransfer} (h : t.Shaped)
    (hbody : t.encoded = (encodedBody lib delta).2) {n : Nat} (hpos : 1 ≤ n) (hfew : n ≤ 128)
    (hbytes : n ≤ t.encoded.length) (hfit : ∀ i < n, (t.withCount n).packetLen i ≤ budget)
    (hsmaller : (t.withCount n).wireLen (List.range n) < keyframe)
    (hless : ∀ m, 1 ≤ m → m < n → ∃ i < m, budget < (t.withCount m).packetLen i) :
    Sendable lib delta budget keyframe ((t.withCount n).identified lib) := by
  have hid : ∀ m, ((t.withCount n).identified lib).header.transferId.length =
      (t.withCount m).header.transferId.length :=
    fun m => (length_transferId hlib _).trans (h.withCount m).transferId.symm
  have hshaped : ((t.withCount n).identified lib).Shaped :=
    { h.withCount n with transferId := length_transferId hlib _ }
  have hlen : ∀ i, ((t.withCount n).identified lib).packetLen i = (t.withCount n).packetLen i :=
    (t.withCount n).packetLen_transferId (hid n)
  refine
    { count_pos := hpos, count_le := hfew, length := ?_, within := ?_, nonempty := ?_, body := ?_,
      smaller := ?_, minimal := ?_, gateway := ?_ }
  · exact fun i hi => (hshaped.encodedLen_packet hi hfew hbytes).symm
  · intro i hi
    rw [hlen]
    exact hfit i hi
  · intro i hi
    exact List.ne_nil_of_length_pos (fragmentData_pos hi hbytes)
  · rw [← hbody]
    exact ((t.withCount n).identified lib).flatten_fragments hpos
  · rw [List.map_congr_left fun i _ => hlen i]
    exact hsmaller
  · intro m hm hlt
    obtain ⟨i, hi, hover⟩ := hless m hm hlt
    refine ⟨i, hi, ?_⟩
    have hsame := (t.withCount m).packetLen_transferId (hid m) i
    exact Nat.lt_of_lt_of_eq hover hsame.symm
  · exact fun i hi => hshaped.checkWorkerEvent_packet hi hfew hbytes

/-- For every delta, budget and keyframe: no arithmetic overflows, an admissible delta is answered,
and a transfer that is prepared can be sent. -/
theorem fragmented_transfer (hlib : lib.Lawful) (delta : TerminalViewportDatagram)
    (budget keyframe : Nat) :
    ViewportTransfer.strictPrepare lib delta budget keyframe =
        lift (ViewportTransfer.prepare lib delta budget keyframe) ∧
      (delta.Admissible → ∃ r, ViewportTransfer.prepare lib delta budget keyframe = .ok r) ∧
      ∀ t, ViewportTransfer.prepare lib delta budget keyframe = .ok (some t) →
        t.Sendable lib delta budget keyframe := by
  rcases ViewportTransfer.prepare_cases hlib delta budget keyframe with
    ⟨e, hprepare, hstrict, hrefused⟩ | ⟨hprepare, hstrict⟩ | ⟨diff, hshaped, hprepare, hstrict⟩
  · rw [hprepare, hstrict]
    exact ⟨rfl, fun h => absurd h hrefused, fun t ht => by cases ht⟩
  · rw [hprepare, hstrict]
    exact ⟨rfl, fun _ => ⟨none, rfl⟩, fun t ht => by cases ht⟩
  · have hcounts : ∀ n ∈ List.range' 1 (min maxFragments (encodedBody lib delta).2.length),
        1 ≤ n ∧ n ≤ 128 ∧ n ≤ (encodedBody lib delta).2.length := by
      intro n hn
      have hbounds := List.mem_range'_1.1 hn
      simp only [maxFragments] at hbounds
      omega
    have hfew := fun n hn => (hcounts n hn).2.1
    obtain ⟨r, hr, hfound⟩ := hshaped.chooseCount_cases lib budget keyframe hfew
      List.pairwise_lt_range'
    rw [hprepare, hstrict, hshaped.strictChooseCount_eq hfew]
    refine ⟨rfl, fun _ => ⟨r, hr⟩, fun t ht => ?_⟩
    obtain ⟨n, hn, rfl, hfit, hsmaller, hless⟩ := hfound t (Except.ok.inj (hr.symm.trans ht))
    obtain ⟨hpos, hle, hbytes⟩ := hcounts n hn
    refine hshaped.sendable hlib rfl hpos hle hbytes hfit hsmaller fun m hm hlt => ?_
    refine hless m (List.mem_range'_1.2 ?_) hlt
    have hbounds := List.mem_range'_1.1 hn
    omega

/-! A delta that needs two packets. -/

/-- External functions with the right lengths and no compression. -/
def plainExternal : External where
  graphemeCount := fun _ => 1
  encodeToVec := fun delta => List.replicate delta.encodedLen 0
  sha256 := fun _ => List.replicate 32 0
  compressToBuffer := fun _ _ => none

theorem plainExternal_lawful : plainExternal.Lawful where
  encode_length _ := List.length_replicate
  sha256_length _ := List.length_replicate

def shortDelta : TerminalViewportDatagram where
  terminalId := "t"
  attachmentId := "a"
  diff := some ⟨List.replicate 16 3, 7, 9, none, [], []⟩
  inheritedFields := 0
  sparseRows := false
  primaryPatches := []
  alternatePatches := []
  fragment := none

theorem fragmented_transfer_short :
    ∃ t, ViewportTransfer.prepare plainExternal shortDelta 112 1000 = .ok (some t) ∧
      t.header.count = 2 ∧ t.Sendable plainExternal shortDelta 112 1000 := by
  have hprepare := eq_ok_okValue (ViewportTransfer.prepare plainExternal shortDelta 112 1000)
    (by decide +kernel)
  have hcount : (okValue (ViewportTransfer.prepare plainExternal shortDelta 112 1000)
      (by decide +kernel)).map (fun t => t.header.count) = some 2 := by decide +kernel
  obtain ⟨t, ht, htwo⟩ := Option.map_eq_some_iff.1 hcount
  rw [ht] at hprepare
  exact ⟨t, hprepare, htwo, (fragmented_transfer plainExternal_lawful shortDelta 112 1000).2.2 t
    hprepare⟩

end AstraShell.Streaming
