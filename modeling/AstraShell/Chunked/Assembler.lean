import AstraShell.Lib.Slots
import AstraShell.Streaming.Transfer

/-!
# Transfers in chunks

A state or a history page goes to the client as a sequence of chunks. `EncodedPayload` of
`compression.rs` compresses the bytes when that pays and undoes it with limits; `TransferAssembler`
of `terminal_streaming.rs` puts the chunks together again.

A push leaves a new assembler whether it fails or not, because the source counts the bytes of a
chunk before it knows that they are too many. `Pushes` says all that a push can do. The result of a
push also has what was decompressed on the way (`Inflation`). zstd and SHA-256 enter as the
functions of `Codec`; the streaming decoder gives no more bytes than were asked for.
-/

set_option autoImplicit false

namespace AstraShell.Chunked

open Lib TerminalState Streaming

/-! ## Payloads -/

/-- What a streaming decoder has given when it ends: the bytes, and what is left of its input or why
it failed. -/
structure ZstdRead where
  output : Bytes
  ending : Except String Bytes

/-- The functions of external libraries. -/
structure Codec where
  compress : Bytes → Except String Bytes
  /-- The frame at the front of the input, up to a number of bytes. -/
  read : Bytes → Nat → ZstdRead
  read_le : ∀ data limit, (read data limit).output.length ≤ limit
  sha256 : Bytes → Bytes
  sha256_length : ∀ data, (sha256 data).length = 32

def minInputBytes : Nat := 1024
def minSavingBytes : Nat := 64

/-- The first bytes of a zstd frame. -/
def frameMagic : Bytes := [0x28, 0xb5, 0x2f, 0xfd]

structure EncodedPayload where
  data : Bytes
  encoding : Int
  uncompressedSize : Nat

/-- A decompression: what was announced and what came. -/
structure Inflation where
  declared : Nat
  produced : Nat

variable (codec : Codec)

namespace EncodedPayload

def encode (data : Bytes) (enabled : Bool) (maximum : Nat) : Except String EncodedPayload := do
  ensure (data.length ≤ maximum) "payload exceeds its raw size limit"
  if enabled = true ∧ minInputBytes ≤ data.length then do
    let compressed ← codec.compress data
    let saving := max minSavingBytes ((data.length + 19) / 20)
    -- A saturating addition.
    if min (compressed.length + saving) (2 ^ 64 - 1) ≤ data.length then do
      let size ← tryU32 data.length
      return ⟨compressed, 1, size⟩
    else return ⟨data, 0, 0⟩
  else return ⟨data, 0, 0⟩

def validateHeader (encoding : Int) (uncompressedSize wireSize : Nat) (enabled : Bool)
    (maximum : Nat) : Except String Unit := do
  ensure (wireSize ≤ maximum) "encoded payload exceeds its size limit"
  if encoding = 0 then ensure (uncompressedSize = 0) "raw payload has compression metadata"
  else if encoding = 1 then do
    ensure (enabled = true) "zstd payload was not negotiated"
    ensure (0 < uncompressedSize ∧ uncompressedSize ≤ maximum)
      "uncompressed payload exceeds its size limit"
  else .error "unknown payload encoding"

/-- The frame must be one standard frame with exactly the bytes that were announced. -/
def inflate (payload : EncodedPayload) : Except String Bytes × Option Inflation :=
  let expected := payload.uncompressedSize
  if payload.data.take 4 = frameMagic then
    let read := codec.read payload.data (expected + 1)
    let inflation : Inflation := ⟨expected, read.output.length⟩
    match read.ending with
    | .error e => (.error e, some inflation)
    | .ok rest =>
      if read.output.length = expected then
        if rest = [] then (.ok read.output, some inflation)
        else (.error "zstd payload has trailing data", some inflation)
      else (.error "decompressed payload size does not match", some inflation)
  else (.error "invalid zstd frame magic", none)

def decodeBytes (payload : EncodedPayload) (enabled : Bool) (maximum : Nat) :
    Except String Bytes × Option Inflation :=
  match validateHeader payload.encoding payload.uncompressedSize payload.data.length enabled
      maximum with
  | .error e => (.error e, none)
  | .ok () => if payload.encoding = 1 then payload.inflate codec else (.ok payload.data, none)

def decode (payload : EncodedPayload) (enabled : Bool) (maximum : Nat) (digest : Bytes) :
    Except String Bytes × Option Inflation :=
  if digest.length = 32 then
    match payload.decodeBytes codec enabled maximum with
    | (.error e, inflation) => (.error e, inflation)
    | (.ok data, inflation) =>
      if codec.sha256 data = digest then (.ok data, inflation)
      else (.error "payload digest does not match", inflation)
  else (.error "payload digest is invalid", none)

end EncodedPayload

/-! ## The assembler -/

def maxTransferChunks : Nat := 4096

structure TransferChunk where
  transferId : Bytes
  chunkIndex : Nat
  chunkCount : Nat
  totalSize : Nat
  sha256 : Bytes
  data : Bytes
  encoding : Int
  uncompressedSize : Nat

structure PendingTransfer where
  transferId : Bytes
  totalSize : Nat
  sha256 : Bytes
  chunks : List (Option Bytes)
  receivedSize : Nat
  receivedChunks : Nat
  encoding : Int
  uncompressedSize : Nat

structure TransferAssembler where
  pending : Option PendingTransfer
  allowZstd : Bool

/-- What a push gives. -/
structure Pushed where
  answer : Except String (Option Bytes)
  inflation : Option Inflation
  next : TransferAssembler

/-- An empty assembler. -/
def TransferAssembler.withZstd (allowZstd : Bool) : TransferAssembler := ⟨none, allowZstd⟩

/-- The checks of a chunk by itself. -/
def TransferChunk.check (chunk : TransferChunk) (allowZstd : Bool) (maximum : Nat) :
    Except String Unit := do
  ensure (chunk.transferId.length = 16) "terminal transfer ID is invalid"
  ensure (chunk.sha256.length = 32) "terminal transfer digest is invalid"
  ensure (1 ≤ chunk.chunkCount ∧ chunk.chunkCount ≤ maxTransferChunks)
    "terminal transfer chunk count is invalid"
  ensure (chunk.chunkIndex < chunk.chunkCount) "terminal transfer chunk index is invalid"
  ensure (chunk.totalSize ≤ maximum) "terminal transfer is too large"
  EncodedPayload.validateHeader chunk.encoding chunk.uncompressedSize chunk.totalSize allowZstd
    maximum

namespace PendingTransfer

/-- A transfer of which no chunk has been stored. -/
def start (chunk : TransferChunk) : PendingTransfer where
  transferId := chunk.transferId
  totalSize := chunk.totalSize
  sha256 := chunk.sha256
  chunks := List.replicate chunk.chunkCount none
  receivedSize := 0
  receivedChunks := 0
  encoding := chunk.encoding
  uncompressedSize := chunk.uncompressedSize

/-- The chunk is announced as a part of this transfer. -/
def Announces (pending : PendingTransfer) (chunk : TransferChunk) : Prop :=
  pending.transferId = chunk.transferId ∧ pending.totalSize = chunk.totalSize ∧
    pending.sha256 = chunk.sha256 ∧ pending.encoding = chunk.encoding ∧
    pending.uncompressedSize = chunk.uncompressedSize ∧ pending.chunks.length = chunk.chunkCount

instance (pending : PendingTransfer) (chunk : TransferChunk) :
    Decidable (pending.Announces chunk) :=
  inferInstanceAs (Decidable (_ ∧ _))

/-- The transfer with the data of one more chunk. -/
def store (pending : PendingTransfer) (chunk : TransferChunk) : PendingTransfer :=
  { pending with
    receivedSize := pending.receivedSize + chunk.data.length
    receivedChunks := pending.receivedChunks + 1
    chunks := pending.chunks.set chunk.chunkIndex (some chunk.data) }

/-- The end of a transfer whose chunks are all there. -/
def finish (pending : PendingTransfer) (allowZstd : Bool) (maximum : Nat) :
    Except String Bytes × Option Inflation :=
  match Slots.contents pending.chunks with
  | none => (.error "terminal transfer has a missing chunk", none)
  | some chunks =>
    let encoded := chunks.flatten
    if encoded.length = pending.totalSize then
      EncodedPayload.decode codec ⟨encoded, pending.encoding, pending.uncompressedSize⟩ allowZstd
        maximum pending.sha256
    else (.error "terminal transfer size does not match", none)

end PendingTransfer

namespace TransferAssembler

/-- The pending transfer, or a new one that a first chunk begins. -/
def current (a : TransferAssembler) (chunk : TransferChunk) : Except String PendingTransfer :=
  match a.pending with
  | some pending => do
    ensure (pending.transferId = chunk.transferId) "terminal transfer changed before completion"
    return pending
  | none => do
    ensure (chunk.chunkIndex = 0) "terminal transfer started after its first chunk"
    return .start chunk

/-- The transfer stays pending. -/
def keep (a : TransferAssembler) (pending : PendingTransfer) : TransferAssembler :=
  { a with pending := some pending }

/-- After a chunk was stored: the transfer goes on, or all chunks are there. -/
def conclude (a : TransferAssembler) (pending : PendingTransfer) (maximum : Nat) : Pushed :=
  if pending.receivedChunks = pending.chunks.length then
    match pending.finish codec a.allowZstd maximum with
    | (.error e, inflation) => ⟨.error e, inflation, { a with pending := none }⟩
    | (.ok payload, inflation) => ⟨.ok (some payload), inflation, { a with pending := none }⟩
  else ⟨.ok none, none, a.keep pending⟩

/-- A chunk that passed its own checks and has a transfer to go to. -/
def accept (a : TransferAssembler) (pending : PendingTransfer) (chunk : TransferChunk)
    (maximum : Nat) : Pushed :=
  if pending.Announces chunk then
    match pending.chunks[chunk.chunkIndex]? with
    -- The source indexes the vector here; an index out of range is a panic.
    | none => ⟨.error "index out of bounds", none, a.keep pending⟩
    | some (some existing) =>
      if existing = chunk.data then ⟨.ok none, none, a.keep pending⟩
      else ⟨.error "terminal transfer chunk changed on retransmission", none, a.keep pending⟩
    | some none =>
      match checkedAdd 64 pending.receivedSize chunk.data.length with
      | none => ⟨.error "terminal transfer size overflowed", none, a.keep pending⟩
      | some receivedSize =>
        if receivedSize ≤ pending.totalSize then
          a.conclude codec (pending.store chunk) maximum
        else
          -- The bytes are counted although they are not stored.
          ⟨.error "terminal transfer exceeds declared size", none,
            a.keep { pending with receivedSize := receivedSize }⟩
  else ⟨.error "terminal transfer metadata changed", none, a.keep pending⟩

def push (a : TransferAssembler) (chunk : TransferChunk) (maximum : Nat) : Pushed :=
  match chunk.check a.allowZstd maximum with
  | .error e => ⟨.error e, none, a⟩
  | .ok () =>
    match a.current chunk with
    | .error e => ⟨.error e, none, a⟩
    | .ok pending => a.accept codec pending chunk maximum

end TransferAssembler

/-! ## What the functions do -/

variable {codec : Codec} {payload : EncodedPayload} {enabled : Bool} {maximum : Nat}
  {digest : Bytes}

/-- A header that passes, of either encoding. -/
theorem EncodedPayload.validateHeader_eq_ok {encoding : Int} {uncompressedSize wireSize : Nat}
    (h : validateHeader encoding uncompressedSize wireSize enabled maximum = .ok ()) :
    wireSize ≤ maximum ∧ uncompressedSize ≤ maximum := by
  simp only [validateHeader, bind_eq_ok_iff, ensure_eq_ok_iff] at h
  obtain ⟨-, hwire, h⟩ := h
  refine ⟨hwire, ?_⟩
  split at h
  · have hnone := ensure_eq_ok_iff.1 h
    omega
  · split at h
    · simp only [bind_eq_ok_iff, ensure_eq_ok_iff] at h
      obtain ⟨-, -, hsize⟩ := h
      exact hsize.2
    · cases h

variable {inflation : Inflation}

/-- A decompression is announced by the payload and stops one byte after what it announces. -/
theorem EncodedPayload.inflate_inflation (h : (payload.inflate codec).2 = some inflation) :
    inflation.declared = payload.uncompressedSize ∧
      inflation.produced ≤ inflation.declared + 1 := by
  have hread := codec.read_le payload.data (payload.uncompressedSize + 1)
  unfold inflate at h
  dsimp only at h
  split at h
  · have heq : (⟨payload.uncompressedSize, (codec.read payload.data
        (payload.uncompressedSize + 1)).output.length⟩ : Inflation) = inflation := by
      split at h
      · exact Option.some.inj h
      · split at h
        · split at h
          · exact Option.some.inj h
          · exact Option.some.inj h
        · exact Option.some.inj h
    subst heq
    exact ⟨rfl, hread⟩
  · cases h

variable {data : Bytes}

theorem EncodedPayload.inflate_eq_ok (h : (payload.inflate codec).1 = .ok data) :
    data.length = payload.uncompressedSize := by
  unfold inflate at h
  dsimp only at h
  split at h
  · split at h
    · cases h
    · split at h
      · next hlength =>
          split at h
          · cases h
            exact hlength
          · cases h
      · cases h
  · cases h

theorem EncodedPayload.decodeBytes_inflation
    (h : (payload.decodeBytes codec enabled maximum).2 = some inflation) :
    inflation.declared = payload.uncompressedSize ∧
      inflation.produced ≤ inflation.declared + 1 ∧ inflation.declared ≤ maximum := by
  unfold decodeBytes at h
  split at h
  · cases h
  · next hheader =>
      split at h
      · obtain ⟨hdeclared, hproduced⟩ := inflate_inflation h
        have hsize := (validateHeader_eq_ok hheader).2
        exact ⟨hdeclared, hproduced, hdeclared ▸ hsize⟩
      · cases h

theorem EncodedPayload.decodeBytes_eq_ok
    (h : (payload.decodeBytes codec enabled maximum).1 = .ok data) : data.length ≤ maximum := by
  unfold decodeBytes at h
  split at h
  · cases h
  · next hheader =>
      obtain ⟨hwire, hsize⟩ := validateHeader_eq_ok hheader
      split at h
      · rw [inflate_eq_ok h]
        exact hsize
      · cases h
        exact hwire

theorem EncodedPayload.decode_inflation
    (h : (payload.decode codec enabled maximum digest).2 = some inflation) :
    inflation.declared = payload.uncompressedSize ∧
      inflation.produced ≤ inflation.declared + 1 ∧ inflation.declared ≤ maximum := by
  unfold decode at h
  split at h
  · have hbytes : (payload.decodeBytes codec enabled maximum).2 = some inflation := by
      split at h
      · next hbytes => rw [hbytes]; exact h
      · next hbytes =>
          rw [hbytes]
          split at h <;> exact h
    exact decodeBytes_inflation hbytes
  · cases h

theorem EncodedPayload.decode_eq_ok
    (h : (payload.decode codec enabled maximum digest).1 = .ok data) :
    data.length ≤ maximum ∧ codec.sha256 data = digest := by
  unfold decode at h
  split at h
  · split at h
    · cases h
    · next hbytes =>
        split at h
        · next hdigest =>
            cases h
            exact ⟨decodeBytes_eq_ok (congrArg Prod.fst hbytes), hdigest⟩
        · cases h
  · cases h

/-- All that the checks of a chunk establish. -/
theorem TransferChunk.check_eq_ok_iff {chunk : TransferChunk} :
    chunk.check enabled maximum = .ok () ↔
      chunk.transferId.length = 16 ∧ chunk.sha256.length = 32 ∧
        (1 ≤ chunk.chunkCount ∧ chunk.chunkCount ≤ maxTransferChunks) ∧
        chunk.chunkIndex < chunk.chunkCount ∧ chunk.totalSize ≤ maximum ∧
        EncodedPayload.validateHeader chunk.encoding chunk.uncompressedSize chunk.totalSize enabled
          maximum = .ok () := by
  simp only [check, bind_eq_ok_iff, ensure_eq_ok_iff, exists_and_left, exists_const]

theorem PendingTransfer.finish_inflation {pending : PendingTransfer}
    (h : (pending.finish codec enabled maximum).2 = some inflation) :
    inflation.declared = pending.uncompressedSize ∧
      inflation.produced ≤ inflation.declared + 1 ∧ inflation.declared ≤ maximum := by
  unfold finish at h
  dsimp only at h
  split at h
  · cases h
  · split at h
    · exact EncodedPayload.decode_inflation h
    · cases h

theorem PendingTransfer.finish_eq_ok {pending : PendingTransfer}
    (h : (pending.finish codec enabled maximum).1 = .ok data) :
    data.length ≤ maximum ∧ codec.sha256 data = pending.sha256 := by
  unfold finish at h
  dsimp only at h
  split at h
  · cases h
  · split at h
    · exact EncodedPayload.decode_eq_ok h
    · cases h

namespace TransferAssembler

variable {a : TransferAssembler} {chunk : TransferChunk} {pending : PendingTransfer}
  {pushed : Pushed}

/-- The transfer that a chunk goes to. -/
theorem current_eq_ok (h : a.current chunk = .ok pending) :
    a.pending = some pending ∨ a.pending = none ∧ pending = .start chunk := by
  unfold current at h
  split at h
  · next hpending =>
      simp only [bind_eq_ok_iff, ensure_eq_ok_iff, pure_eq_ok_iff] at h
      obtain ⟨-, -, rfl⟩ := h
      exact .inl hpending
  · next hpending =>
      simp only [bind_eq_ok_iff, ensure_eq_ok_iff, pure_eq_ok_iff] at h
      obtain ⟨-, -, rfl⟩ := h
      exact .inr ⟨hpending, rfl⟩

/-- A transfer can take a chunk: it is announced, its place is free and its bytes fit. -/
structure Takes (pending : PendingTransfer) (chunk : TransferChunk) : Prop where
  announces : pending.Announces chunk
  free : pending.chunks[chunk.chunkIndex]? = some none
  fits : pending.receivedSize + chunk.data.length ≤ pending.totalSize

/-- A chunk that can be taken is stored. -/
theorem accept_of_takes (htakes : Takes pending chunk)
    (hsmall : pending.receivedSize + chunk.data.length < 2 ^ 64) :
    a.accept codec pending chunk maximum = a.conclude codec (pending.store chunk) maximum := by
  have hadd : checkedAdd 64 pending.receivedSize chunk.data.length =
      some (pending.receivedSize + chunk.data.length) :=
    checkedAdd_eq_some_iff.2 ⟨hsmall, rfl⟩
  unfold accept
  rw [if_pos htakes.announces, htakes.free]
  rw [hadd]
  exact if_pos htakes.fits

/-- All that the acceptance of a chunk can do. -/
inductive Accepts (codec : Codec) (a : TransferAssembler) (pending : PendingTransfer)
    (chunk : TransferChunk) (maximum : Nat) : Pushed → Prop
  | rejected (e : String) (receivedSize : Nat) (hreceived : pending.receivedSize ≤ receivedSize) :
      Accepts codec a pending chunk maximum
        ⟨.error e, none, a.keep { pending with receivedSize := receivedSize }⟩
  | repeated (hannounces : pending.Announces chunk)
      (hstored : pending.chunks[chunk.chunkIndex]? = some (some chunk.data)) :
      Accepts codec a pending chunk maximum ⟨.ok none, none, a.keep pending⟩
  | stored (htakes : Takes pending chunk)
      (hmore : (pending.store chunk).receivedChunks ≠ (pending.store chunk).chunks.length) :
      Accepts codec a pending chunk maximum ⟨.ok none, none, a.keep (pending.store chunk)⟩
  | failed (htakes : Takes pending chunk) (e : String) (inflation : Option Inflation)
      (hfinish : (pending.store chunk).finish codec a.allowZstd maximum = (.error e, inflation)) :
      Accepts codec a pending chunk maximum ⟨.error e, inflation, { a with pending := none }⟩
  | finished (htakes : Takes pending chunk)
      (hall : (pending.store chunk).receivedChunks = (pending.store chunk).chunks.length)
      (payload : Bytes) (inflation : Option Inflation)
      (hfinish : (pending.store chunk).finish codec a.allowZstd maximum =
        (.ok payload, inflation)) :
      Accepts codec a pending chunk maximum
        ⟨.ok (some payload), inflation, { a with pending := none }⟩

/-- An error that keeps the transfer as it is. -/
theorem Accepts.unchanged (e : String) :
    Accepts codec a pending chunk maximum ⟨.error e, none, a.keep pending⟩ :=
  Accepts.rejected e pending.receivedSize (Nat.le_refl _)

theorem accept_accepts (codec : Codec) (a : TransferAssembler) (pending : PendingTransfer)
    (chunk : TransferChunk) (maximum : Nat) :
    Accepts codec a pending chunk maximum (a.accept codec pending chunk maximum) := by
  unfold accept
  split
  · next hannounces =>
      split
      · exact .unchanged _
      · next existing hexisting =>
          split
          · next heq => exact .repeated hannounces (heq ▸ hexisting)
          · exact .unchanged _
      · next hfree =>
          split
          · exact .unchanged _
          · next receivedSize hadd =>
              obtain ⟨-, rfl⟩ := checkedAdd_eq_some_iff.1 hadd
              split
              · next hfits =>
                  have htakes : Takes pending chunk := ⟨hannounces, hfree, hfits⟩
                  unfold conclude
                  split
                  · next hall =>
                      split
                      · next hfinish => exact .failed htakes _ _ hfinish
                      · next hfinish => exact .finished htakes hall _ _ hfinish
                  · next hmore => exact .stored htakes hmore
              · exact .rejected _ _ (Nat.le_add_right _ _)
  · exact .unchanged _

/-- A push refuses the chunk and changes nothing, or gives the chunk to its transfer. -/
theorem push_cases (codec : Codec) (a : TransferAssembler) (chunk : TransferChunk) (maximum : Nat) :
    (∃ e, a.push codec chunk maximum = ⟨.error e, none, a⟩) ∨
      ∃ pending, chunk.check a.allowZstd maximum = .ok () ∧ a.current chunk = .ok pending ∧
        a.push codec chunk maximum = a.accept codec pending chunk maximum := by
  unfold push
  split
  · exact .inl ⟨_, rfl⟩
  · next hcheck =>
      split
      · exact .inl ⟨_, rfl⟩
      · next hcurrent => exact .inr ⟨_, hcheck, hcurrent, rfl⟩

end TransferAssembler

end AstraShell.Chunked
