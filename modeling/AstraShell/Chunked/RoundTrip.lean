import AstraShell.Chunked.Assembler
import AstraShell.Lib.Text
import AstraShell.TerminalState.Accepted

/-!
# Chunked transfers arrive

`chunks` is what `terminal_state_chunks` and `history_page_chunks` of `server.rs` have in common,
and `Message.push` what the two assemblers of `terminal_streaming.rs` have in common. A `Message` is
the kind of value that is transferred.

A `Batch` is what the server's chunking gives; `Collecting` describes an assembler that has got some
of its chunks. Each chunk is put in its free place or recognised (`Batch.push_collecting`), and the
one that was missing ends the transfer (`Batch.push_last`). `chunked_transfer_round_trip` is about
any number of transfers, one after the other, in one assembler.
-/

set_option autoImplicit false

namespace AstraShell.Chunked

open Lib TerminalState Streaming TransferAssembler EncodedPayload TransferChunk

/-! ## Messages and their chunks -/

/-- A kind of value that is sent in chunks. -/
structure Message (α : Type) where
  encodeToVec : α → Bytes
  decode : Bytes → Except String α
  validate : α → Except String Unit
  maximum : Nat
  tooLarge : String
  invalid : String

/-- The protobuf functions of a type. -/
structure Protobuf (α : Type) where
  encodeToVec : α → Bytes
  decode : Bytes → Except String α

def terminalState (graphemeCount : String → Nat) (proto : Protobuf State) : Message State where
  encodeToVec := proto.encodeToVec
  decode := proto.decode
  validate := TerminalState.validate graphemeCount
  maximum := maxEncodedStateBytes
  tooLarge := "terminal state exceeds the semantic state transport limit"
  invalid := "received terminal state is invalid"

def historyPage (graphemeCount : String → Nat) (proto : Protobuf HistoryPage) :
    Message HistoryPage where
  encodeToVec := proto.encodeToVec
  decode := proto.decode
  validate := validateHistoryPage graphemeCount
  maximum := maxEncodedHistoryPageBytes
  tooLarge := "terminal history page exceeds the transport limit"
  invalid := "received terminal history page is invalid"

def terminalStateChunkBytes : Nat := 512 * 1024

/-- How many chunks the bytes make; no bytes make one. -/
def chunkCount (encoded : Bytes) : Nat :=
  (max encoded.length 1 + (terminalStateChunkBytes - 1)) / terminalStateChunkBytes

/-- The bytes of one chunk. -/
def chunkData (encoded : Bytes) (chunkIndex : Nat) : Bytes :=
  let start := chunkIndex * terminalStateChunkBytes
  Slots.slice encoded start (min (start + terminalStateChunkBytes) encoded.length)

/-- One round of the loop that builds the chunks. -/
def chunkAt (transferId digest : Bytes) (payload : EncodedPayload) (chunkIndex : Nat) :
    TransferChunk where
  transferId := transferId
  chunkIndex := chunkIndex
  chunkCount := chunkCount payload.data
  totalSize := payload.data.length
  sha256 := digest
  data := chunkData payload.data chunkIndex
  encoding := payload.encoding
  uncompressedSize := payload.uncompressedSize

variable {α : Type} (codec : Codec) (message : Message α)

namespace Message

/-- The source draws `transferId` at random. -/
def chunks (transferId : Bytes) (value : α) (zstd : Bool) : Except String (List TransferChunk) := do
  let encoded := message.encodeToVec value
  ensure (encoded.length ≤ message.maximum) message.tooLarge
  let digest := codec.sha256 encoded
  let payload ← EncodedPayload.encode codec encoded zstd message.maximum
  let _totalSize ← tryU32 payload.data.length
  let count ← tryU32 (chunkCount payload.data)
  return (List.range count).map (chunkAt transferId digest payload)

/-- A chunk arrives at an assembler of this kind. -/
def push (a : TransferAssembler) (chunk : TransferChunk) :
    Except String (Option α) × TransferAssembler :=
  let pushed := a.push codec chunk message.maximum
  match pushed.answer with
  | .error e => (.error e, pushed.next)
  | .ok none => (.ok none, pushed.next)
  | .ok (some encoded) =>
    (do
      let value ← message.decode encoded
      withContext message.invalid (message.validate value)
      return some value, pushed.next)

/-- Chunks arrive one after the other: the answers, and the assembler at the end. -/
def pushAll (a : TransferAssembler) :
    List TransferChunk → List (Except String (Option α)) × TransferAssembler
  | [] => ([], a)
  | chunk :: chunks =>
    let answer := message.push codec a chunk
    let rest := pushAll answer.2 chunks
    (answer.1 :: rest.1, rest.2)

theorem pushAll_append (a : TransferAssembler) (first second : List TransferChunk) :
    message.pushAll codec a (first ++ second) =
      ((message.pushAll codec a first).1 ++
          (message.pushAll codec (message.pushAll codec a first).2 second).1,
        (message.pushAll codec (message.pushAll codec a first).2 second).2) := by
  induction first generalizing a with
  | nil => rfl
  | cons chunk first ih => simp [pushAll, ih]

end Message

/-- zstd decodes what it encodes: a standard frame that holds the data and nothing after it. -/
def Codec.Lossless : Prop :=
  ∀ data compressed, codec.compress data = .ok compressed →
    compressed.take 4 = frameMagic ∧ codec.read compressed (data.length + 1) = ⟨data, .ok []⟩

/-! ## Payloads -/

variable {codec message} {data : Bytes} {enabled : Bool} {maximum : Nat} {payload : EncodedPayload}

namespace EncodedPayload

/-- A payload within the limits is encoded when the compressor works. -/
theorem exists_encode (hsize : data.length ≤ maximum) (hsmall : data.length < 2 ^ 32)
    (hcompress : ∃ compressed, codec.compress data = .ok compressed) (enabled : Bool) :
    ∃ payload, encode codec data enabled maximum = .ok payload := by
  obtain ⟨compressed, hcompress⟩ := hcompress
  unfold encode
  rw [ensure_bind_of _ _ hsize]
  split
  · simp only [hcompress, bind, Except.bind, tryU32_of_lt hsmall]
    split
    · exact ⟨_, rfl⟩
    · exact ⟨_, rfl⟩
  · exact ⟨_, rfl⟩

section

variable (h : encode codec data enabled maximum = .ok payload)

include h

/-- A payload is the data itself or a compression of it that is smaller. -/
theorem encode_eq_ok :
    data.length ≤ maximum ∧ (payload = ⟨data, 0, 0⟩ ∨
      enabled = true ∧ codec.compress data = .ok payload.data ∧ payload.data.length < data.length ∧
        payload.encoding = 1 ∧ payload.uncompressedSize = data.length) := by
  simp only [encode, bind_eq_ok_iff, ensure_eq_ok_iff] at h
  obtain ⟨-, hsize, h⟩ := h
  refine ⟨hsize, ?_⟩
  split at h
  · next henabled =>
      simp only [bind_eq_ok_iff] at h
      obtain ⟨compressed, hcompress, h⟩ := h
      split at h
      · next hsaves =>
          simp only [tryU32, bind_eq_ok_iff, context_eq_ok_iff, pure_eq_ok_iff] at h
          obtain ⟨size, hsmall, rfl⟩ := h
          split at hsmall
          · next hlt =>
              cases hsmall
              refine .inr ⟨henabled.1, hcompress, ?_, rfl, rfl⟩
              -- The saving is at least 64 bytes and the sum does not saturate.
              simp only [minSavingBytes] at hsaves
              dsimp only
              omega
          · cases hsmall
      · exact .inl (pure_eq_ok_iff.1 h).symm
  · exact .inl (pure_eq_ok_iff.1 h).symm

theorem length_encode_le : payload.data.length ≤ maximum := by
  obtain ⟨hsize, rfl | ⟨-, -, hlt, -⟩⟩ := encode_eq_ok h
  · exact hsize
  · omega

/-- The header of an encoded payload passes on the other side. -/
theorem validateHeader_encode :
    validateHeader payload.encoding payload.uncompressedSize payload.data.length enabled maximum =
      .ok () := by
  have hwire := length_encode_le h
  obtain ⟨hsize, rfl | ⟨henabled, -, hlt, hencoding, huncompressed⟩⟩ := encode_eq_ok h
  · simp [validateHeader, hsize, ensure]
  · have hpositive : 0 < data.length := by omega
    simp [validateHeader, hwire, hencoding, huncompressed, henabled, hsize, hpositive, ensure]

end

/-- Decoding undoes encoding. -/
theorem decode_encode (hlossless : codec.Lossless)
    (h : encode codec data enabled maximum = .ok payload) :
    (payload.decode codec enabled maximum (codec.sha256 data)).1 = .ok data := by
  have hheader := validateHeader_encode h
  have hbytes : (payload.decodeBytes codec enabled maximum).1 = .ok data := by
    unfold decodeBytes
    rw [hheader]
    obtain ⟨-, rfl | ⟨-, hcompress, -, hencoding, huncompressed⟩⟩ := encode_eq_ok h
    · simp
    · obtain ⟨hmagic, hread⟩ := hlossless data payload.data hcompress
      simp [hencoding, inflate, hmagic, huncompressed, hread]
  unfold decode
  rw [if_pos (codec.sha256_length data)]
  split
  · next hdecode =>
      rw [hdecode] at hbytes
      cases hbytes
  · next hdecode =>
      rw [hdecode] at hbytes
      cases hbytes
      simp

end EncodedPayload

/-! ## The chunks of a payload -/

theorem chunkCount_pos (encoded : Bytes) : 0 < chunkCount encoded := by
  simp only [chunkCount, terminalStateChunkBytes]
  omega

theorem chunkCount_le {encoded : Bytes} (h : encoded.length ≤ maxEncodedStateBytes) :
    chunkCount encoded ≤ maxTransferChunks := by
  simp only [chunkCount, terminalStateChunkBytes, maxTransferChunks, maxEncodedStateBytes] at h ⊢
  omega

/-- The data of the chunks, in the order of their indexes. -/
def parts (encoded : Bytes) : List Bytes :=
  (List.range (chunkCount encoded)).map (chunkData encoded)

theorem flatten_parts (encoded : Bytes) : (parts encoded).flatten = encoded := by
  have hslices := Slots.flatten_slices encoded
    (fun i => min (i * terminalStateChunkBytes) encoded.length) (by simp)
    (fun i => by simp only [terminalStateChunkBytes]; omega) (chunkCount encoded)
  have hend : encoded.length ≤ chunkCount encoded * terminalStateChunkBytes := by
    simp only [chunkCount, terminalStateChunkBytes]
    omega
  have hpart : chunkData encoded = fun i => Slots.slice encoded
      (min (i * terminalStateChunkBytes) encoded.length)
      (min ((i + 1) * terminalStateChunkBytes) encoded.length) := by
    funext i
    have hnext : (i + 1) * terminalStateChunkBytes =
        i * terminalStateChunkBytes + terminalStateChunkBytes := Nat.succ_mul _ _
    rw [chunkData, hnext]
    -- A slice that begins after the end is as empty as one that begins at it.
    rcases Nat.le_total (i * terminalStateChunkBytes) encoded.length with hle | hge
    · rw [Nat.min_eq_left hle]
    · simp [Slots.slice, Nat.min_eq_right hge]
      omega
  rw [parts, hpart, hslices, Nat.min_eq_right hend, List.take_length]

/-! ## A batch of chunks on its way -/

/-- What the chunks of one transfer have in common. -/
structure Batch where
  transferId : Bytes
  digest : Bytes
  payload : EncodedPayload

namespace Batch

def chunk (t : Batch) (i : Nat) : TransferChunk := chunkAt t.transferId t.digest t.payload i

def count (t : Batch) : Nat := chunkCount t.payload.data

/-- The batch passes the checks of an assembler. -/
structure Sendable (t : Batch) (allowZstd : Bool) (maximum : Nat) : Prop where
  transferId : t.transferId.length = 16
  digest : t.digest.length = 32
  size : t.payload.data.length ≤ maximum
  small : maximum ≤ maxEncodedStateBytes
  header : EncodedPayload.validateHeader t.payload.encoding t.payload.uncompressedSize
    t.payload.data.length allowZstd maximum = .ok ()

/-- A pending transfer that has some of the chunks and nothing else. -/
structure Collecting (t : Batch) (pending : PendingTransfer) : Prop where
  announces : ∀ i, pending.Announces (t.chunk i)
  part : Slots.Part pending.chunks (parts t.payload.data)
  size : pending.receivedSize = Slots.weight List.length pending.chunks
  count : pending.receivedChunks = Slots.filled pending.chunks

variable {t : Batch} {a : TransferAssembler} {pending : PendingTransfer} {i : Nat}

theorem getElem?_parts (hi : i < t.count) : (parts t.payload.data)[i]? = some (t.chunk i).data := by
  have hrange : (List.range t.count)[i]? = some i := List.getElem?_range hi
  unfold parts
  rw [List.getElem?_map]
  unfold count at hrange
  rw [hrange]
  rfl

theorem check_chunk {allowZstd : Bool} (h : t.Sendable allowZstd maximum) (hi : i < t.count) :
    (t.chunk i).check allowZstd maximum = .ok () := by
  have hcount := chunkCount_le (Nat.le_trans h.size h.small)
  have hpos := chunkCount_pos t.payload.data
  exact check_eq_ok_iff.2
    ⟨h.transferId, h.digest, ⟨hpos, hcount⟩, hi, h.size, h.header⟩

theorem collecting_start (t : Batch) : t.Collecting (.start (t.chunk 0)) where
  announces := fun i => ⟨rfl, rfl, rfl, rfl, rfl, by simp [PendingTransfer.start, chunk, chunkAt]⟩
  part := by
    have hempty := Slots.Part.empty (parts t.payload.data)
    rwa [show (parts t.payload.data).length = (t.chunk 0).chunkCount by
      simp [parts, chunk, chunkAt]] at hempty
  size := by simp [PendingTransfer.start]
  count := by simp [PendingTransfer.start]

namespace Collecting

variable (h : t.Collecting pending) (hi : i < t.count)
include h hi

theorem store (hfree : pending.chunks[i]? = some none) :
    t.Collecting (pending.store (t.chunk i)) where
  announces := fun j => by
    obtain ⟨hid, hsize, hdigest, hencoding, huncompressed, hlength⟩ := h.announces j
    exact ⟨hid, hsize, hdigest, hencoding, huncompressed, by
      simpa [PendingTransfer.store] using hlength⟩
  part := h.part.set (getElem?_parts hi)
  size := by
    simp only [PendingTransfer.store]
    rw [h.size]
    exact (Slots.weight_set hfree _).symm
  count := by
    simp only [PendingTransfer.store]
    rw [h.count]
    exact (Slots.filled_set hfree _).symm

/-- The bytes of a chunk that is missing fit: with it the transfer still has only its own parts. -/
theorem fits (hfree : pending.chunks[i]? = some none) :
    pending.receivedSize + (t.chunk i).data.length ≤ t.payload.data.length := by
  have hstored := (h.store hi hfree).size
  have hweight := (h.store hi hfree).part.weight_le List.length
  rw [← List.length_flatten, flatten_parts, ← hstored] at hweight
  exact hweight

theorem takes (hfree : pending.chunks[i]? = some none) :
    TransferAssembler.Takes pending (t.chunk i) where
  announces := h.announces i
  free := hfree
  fits := by
    rw [(h.announces i).2.1]
    exact h.fits hi hfree

/-- The count of the bytes does not overflow. -/
theorem total_lt {allowZstd : Bool} (hs : t.Sendable allowZstd maximum)
    (hfree : pending.chunks[i]? = some none) :
    pending.receivedSize + (t.chunk i).data.length < 2 ^ 64 := by
  have hfits := h.fits hi hfree
  have hsize := Nat.le_trans hs.size hs.small
  simp only [maxEncodedStateBytes] at hsize
  omega

end Collecting

/-- A full transfer is the whole payload. -/
theorem Collecting.finish (h : t.Collecting pending) {allowZstd : Bool}
    (hall : pending.receivedChunks = pending.chunks.length) :
    pending.finish codec allowZstd maximum =
      t.payload.decode codec allowZstd maximum t.digest := by
  have hslots : pending.chunks = (parts t.payload.data).map some :=
    h.part.eq_of_filled (h.count.symm.trans hall)
  obtain ⟨-, hsize, hdigest, hencoding, huncompressed, -⟩ := h.announces 0
  have hlength : t.payload.data.length = pending.totalSize := hsize.symm
  unfold PendingTransfer.finish
  rw [hslots, Slots.contents_map_some]
  dsimp only
  rw [flatten_parts, if_pos hlength, hdigest, hencoding, huncompressed]
  rfl

/-! ## Deliveries -/

/-- The places that are free are among these. -/
def Awaits (pending : PendingTransfer) (order : List Nat) : Prop :=
  ∀ i, pending.chunks[i]? = some none → i ∈ order

theorem push_eq_accept (hs : t.Sendable a.allowZstd maximum) (hi : i < t.count)
    (hcurrent : a.current (t.chunk i) = .ok pending) :
    a.push codec (t.chunk i) maximum = a.accept codec pending (t.chunk i) maximum := by
  unfold push
  rw [check_chunk hs hi]
  rw [hcurrent]

/-- A place that stays free when another one is filled. -/
theorem store_free {j : Nat} (hne : i ≠ j) :
    (pending.store (t.chunk i)).chunks[j]? = pending.chunks[j]? :=
  List.getElem?_set_ne hne

/-- A chunk while another one is missing: there is no value yet, and the transfer goes on. -/
theorem push_collecting (codec : Codec) (hs : t.Sendable a.allowZstd maximum)
    (h : t.Collecting pending)
    (hi : i < t.count) (hcurrent : a.current (t.chunk i) = .ok pending) {last : Nat}
    (hne : i ≠ last) (hlast : pending.chunks[last]? = some none) {order : List Nat}
    (hawaits : Awaits pending (i :: order)) :
    ∃ next, a.push codec (t.chunk i) maximum = ⟨.ok none, none, a.keep next⟩ ∧
      t.Collecting next ∧ next.chunks[last]? = some none ∧ Awaits next order := by
  rw [push_eq_accept hs hi hcurrent]
  rcases h.part.get (getElem?_parts hi) with hfree | hknown
  · have hsmall := h.total_lt hi hs hfree
    have hstored := h.store hi hfree
    have hopen : (pending.store (t.chunk i)).chunks[last]? = some none :=
      (store_free hne).trans hlast
    refine ⟨pending.store (t.chunk i), ?_, hstored, hopen, ?_⟩
    · rw [accept_of_takes (h.takes hi hfree) hsmall, conclude, if_neg]
      have hlt := Slots.filled_lt_length hopen
      rw [hstored.count]
      omega
    · intro j hj
      have hother : i ≠ j := by
        rintro rfl
        have hlt : i < pending.chunks.length := (List.getElem?_eq_some_iff.1 hfree).1
        have hfilled : (pending.store (t.chunk i)).chunks[i]? = some (some (t.chunk i).data) :=
          List.getElem?_set_self hlt
        rw [hfilled] at hj
        cases hj
      rcases List.mem_cons.1 (hawaits j ((store_free hother).symm.trans hj)) with heq | hmem
      · exact absurd heq.symm hother
      · exact hmem
  · have hthere : pending.chunks[(t.chunk i).chunkIndex]? = some (some (t.chunk i).data) := hknown
    refine ⟨pending, by simp [accept, h.announces i, hthere], h, hlast, fun j hj => ?_⟩
    rcases List.mem_cons.1 (hawaits j hj) with rfl | hmem
    · rw [hknown] at hj
      cases hj
    · exact hmem

/-- The only chunk that is missing ends the transfer. -/
theorem push_last (hs : t.Sendable a.allowZstd maximum) (h : t.Collecting pending)
    (hi : i < t.count) (hcurrent : a.current (t.chunk i) = .ok pending)
    (hlast : pending.chunks[i]? = some none) (hawaits : Awaits pending [i]) {data : Bytes}
    (hdecode : (t.payload.decode codec a.allowZstd maximum t.digest).1 = .ok data) :
    ∃ inflation, a.push codec (t.chunk i) maximum =
      ⟨.ok (some data), inflation, { a with pending := none }⟩ := by
  have hsmall := h.total_lt hi hs hlast
  have hstored := h.store hi hlast
  have hlt : i < pending.chunks.length := (List.getElem?_eq_some_iff.1 hlast).1
  have hall : (pending.store (t.chunk i)).receivedChunks =
      (pending.store (t.chunk i)).chunks.length := by
    rw [hstored.count]
    refine List.countP_eq_length.2 fun o ho => ?_
    obtain ⟨j, hj⟩ := List.mem_iff_getElem?.1 ho
    cases o with
    | some part => rfl
    | none =>
      by_cases hij : i = j
      · subst hij
        rw [show (pending.store (t.chunk i)).chunks[i]? = some (some (t.chunk i).data) from
          List.getElem?_set_self hlt] at hj
        cases hj
      · have hmem := hawaits j ((store_free hij).symm.trans hj)
        exact absurd (List.mem_singleton.1 hmem).symm hij
  rw [push_eq_accept hs hi hcurrent, accept_of_takes (h.takes hi hlast) hsmall, conclude,
    if_pos hall, hstored.finish hall]
  split
  · next hfinish =>
      rw [hfinish] at hdecode
      cases hdecode
  · next inflation hfinish =>
      rw [hfinish] at hdecode
      cases hdecode
      exact ⟨inflation, rfl⟩

/-- Chunks in any order, the one that completes the transfer at the end. -/
theorem pushAll_order (hs : t.Sendable a.allowZstd message.maximum) (h : t.Collecting pending)
    {value : α} (hdecode : (t.payload.decode codec a.allowZstd message.maximum t.digest).1 =
      .ok (message.encodeToVec value))
    (hvalue : message.decode (message.encodeToVec value) = .ok value)
    (hvalid : message.validate value = .ok ()) {order : List Nat} {last : Nat}
    (hbound : ∀ i ∈ order ++ [last], i < t.count) (hlast : last ∉ order)
    (hfree : pending.chunks[last]? = some none) (hawaits : Awaits pending (order ++ [last]))
    (hcurrent : ∀ i, (order ++ [last]).head? = some i → a.current (t.chunk i) = .ok pending) :
    message.pushAll codec a ((order ++ [last]).map t.chunk) =
      (List.replicate order.length (.ok none) ++ [.ok (some value)],
        { a with pending := none }) := by
  induction order generalizing a pending with
  | nil =>
    obtain ⟨inflation, hpush⟩ := push_last hs h (hbound last (by simp)) (hcurrent last rfl) hfree
      hawaits hdecode
    simp [Message.pushAll, Message.push, hpush, hvalue, hvalid, withContext, bind, Except.bind,
      pure, Except.pure]
  | cons i order ih =>
    have hne : i ≠ last := fun heq => hlast (by simp [heq])
    obtain ⟨next, hpush, hnext, hstill, hrest⟩ := push_collecting codec hs h
      (hbound i (by simp)) (hcurrent i rfl) hne hfree hawaits
    have hlater := ih (a := a.keep next) hs hnext hdecode
      (fun j hj => hbound j (List.mem_cons_of_mem _ hj))
      (fun hmem => hlast (List.mem_cons_of_mem _ hmem)) hstill hrest fun j _ => by
        -- The transfer is pending now, so any chunk of it may follow.
        simp [current, keep, (hnext.announces j).1, ensure, bind,
          Except.bind, pure, Except.pure]
    rw [List.cons_append, List.map_cons, Message.pushAll, Message.push, hpush]
    rw [hlater]
    rfl

end Batch

/-- One transfer as it arrives: the chunks before the one that completes it, and that one. -/
structure Delivery (α : Type) where
  transferId : Bytes
  value : α
  earlier : List TransferChunk
  last : TransferChunk

namespace Delivery

def arrivals (d : Delivery α) : List TransferChunk := d.earlier ++ [d.last]

/-- Nothing before the last chunk, and then the value. -/
def answers (d : Delivery α) : List (Except String (Option α)) :=
  List.replicate d.earlier.length (.ok none) ++ [.ok (some d.value)]

/-- The chunks arrive in an order that starts with the first; any of them may be repeated before the
last missing one arrives. -/
structure Complete (d : Delivery α) (chunks : List TransferChunk) : Prop where
  sent : ∀ chunk ∈ d.arrivals, chunk ∈ chunks
  all : ∀ chunk ∈ chunks, chunk ∈ d.arrivals
  first : d.arrivals.head? = chunks.head?
  completes : d.last ∉ d.earlier

end Delivery

/-- A valid value within the limit, cut into chunks by the server, arrives completely. -/
structure Message.Delivers (codec : Codec) (message : Message α) (zstd : Bool) (d : Delivery α) :
    Prop where
  transferId : d.transferId.length = 16
  valid : message.validate d.value = .ok ()
  size : (message.encodeToVec d.value).length ≤ message.maximum
  decodes : message.decode (message.encodeToVec d.value) = .ok d.value
  complete : ∃ chunks, message.chunks codec d.transferId d.value zstd = .ok chunks ∧
    d.Complete chunks

/-- The server cuts every value within the limit into chunks, unless the compressor fails.
Deliveries one after the other in one assembler give each value once, when its last chunk arrives,
and leave the assembler empty. -/
def Message.RoundTrips (codec : Codec) (message : Message α) (zstd : Bool) : Prop :=
  (∀ transferId value, (message.encodeToVec value).length ≤ message.maximum →
    (∃ compressed, codec.compress (message.encodeToVec value) = .ok compressed) →
      ∃ chunks, message.chunks codec transferId value zstd = .ok chunks) ∧
  ∀ deliveries : List (Delivery α), (∀ d ∈ deliveries, message.Delivers codec zstd d) →
    message.pushAll codec (.withZstd zstd) (deliveries.flatMap Delivery.arrivals) =
      (deliveries.flatMap Delivery.answers, .withZstd zstd)

variable {zstd : Bool} {transferId : Bytes} {value : α} {chunks : List TransferChunk}
  {d : Delivery α}

/-- The chunks of a value are those of a batch. -/
theorem Message.chunks_eq_ok (hsmall : message.maximum ≤ maxEncodedStateBytes)
    (htransfer : transferId.length = 16)
    (h : message.chunks codec transferId value zstd = .ok chunks) :
    ∃ payload, encode codec (message.encodeToVec value) zstd message.maximum =
        .ok payload ∧
      Batch.Sendable ⟨transferId, codec.sha256 (message.encodeToVec value), payload⟩ zstd
        message.maximum ∧
      chunks = (List.range (chunkCount payload.data)).map
        (Batch.chunk ⟨transferId, codec.sha256 (message.encodeToVec value), payload⟩) := by
  simp only [Message.chunks, tryU32, bind_eq_ok_iff, ensure_eq_ok_iff, context_eq_ok_iff,
    pure_eq_ok_iff] at h
  obtain ⟨-, -, payload, hencode, -, -, count, hcount, rfl⟩ := h
  have hheader := validateHeader_encode hencode
  have hsize := length_encode_le hencode
  refine ⟨payload, hencode, ⟨htransfer, codec.sha256_length _, hsize, hsmall, hheader⟩, ?_⟩
  split at hcount
  · cases hcount
    rfl
  · cases hcount

theorem Message.exists_chunks (hsmall : message.maximum ≤ maxEncodedStateBytes)
    (hsize : (message.encodeToVec value).length ≤ message.maximum)
    (hcompress : ∃ compressed, codec.compress (message.encodeToVec value) = .ok compressed)
    (transferId : Bytes) (zstd : Bool) :
    ∃ chunks, message.chunks codec transferId value zstd = .ok chunks := by
  have hlarge : (message.encodeToVec value).length < 2 ^ 32 := by
    have hbound := Nat.le_trans hsize hsmall
    simp only [maxEncodedStateBytes] at hbound
    omega
  obtain ⟨payload, hencode⟩ := exists_encode hsize hlarge hcompress zstd
  have htotal := length_encode_le hencode
  have hcount := chunkCount_le (Nat.le_trans htotal hsmall)
  have hfew : chunkCount payload.data < 2 ^ 32 := by
    simp only [maxTransferChunks] at hcount
    omega
  have hfits : payload.data.length < 2 ^ 32 := by
    have hbound := Nat.le_trans htotal hsmall
    simp only [maxEncodedStateBytes] at hbound
    omega
  refine ⟨(List.range (chunkCount payload.data)).map
    (chunkAt transferId (codec.sha256 (message.encodeToVec value)) payload), ?_⟩
  simp only [Message.chunks, bind_eq_ok_iff, ensure_eq_ok_iff, pure_eq_ok_iff]
  exact ⟨⟨⟩, hsize, payload, hencode, _, tryU32_of_lt hfits, _, tryU32_of_lt hfew, rfl⟩

/-- One delivery at an empty assembler. -/
theorem Message.delivery (hlossless : codec.Lossless)
    (hsmall : message.maximum ≤ maxEncodedStateBytes)
    (h : message.Delivers codec zstd d) :
    message.pushAll codec (.withZstd zstd) d.arrivals = (d.answers, .withZstd zstd) := by
  obtain ⟨chunks, hchunks, hcomplete⟩ := h.complete
  obtain ⟨payload, hencode, hsendable, rfl⟩ := Message.chunks_eq_ok hsmall h.transferId hchunks
  generalize ht : (⟨d.transferId, codec.sha256 (message.encodeToVec d.value), payload⟩ : Batch) = t
    at hsendable hcomplete
  have hdecode : (t.payload.decode codec zstd message.maximum t.digest).1 =
      .ok (message.encodeToVec d.value) := by
    subst ht
    exact decode_encode hlossless hencode
  have hcount : chunkCount payload.data = t.count := by
    subst ht
    rfl
  rw [hcount] at hcomplete
  -- A chunk of the batch is known by its index.
  have hindex : ∀ chunk ∈ d.arrivals, chunk.chunkIndex < t.count ∧
      t.chunk chunk.chunkIndex = chunk := by
    intro chunk hchunk
    obtain ⟨i, hi, rfl⟩ := List.mem_map.1 (hcomplete.sent chunk hchunk)
    exact ⟨List.mem_range.1 hi, rfl⟩
  have horder : d.earlier.map chunkIndex ++ [d.last.chunkIndex] =
      d.arrivals.map chunkIndex := by simp [Delivery.arrivals]
  have harrivals : d.arrivals = (d.arrivals.map chunkIndex).map t.chunk := by
    have hmap : d.arrivals.map (t.chunk ∘ chunkIndex) = d.arrivals :=
      (List.map_congr_left fun chunk hchunk => (hindex chunk hchunk).2).trans (List.map_id _)
    rw [List.map_map, hmap]
  have hlast := hindex d.last (by simp [Delivery.arrivals])
  rw [harrivals, ← horder, Delivery.answers, ← List.length_map chunkIndex]
  apply Batch.pushAll_order (a := .withZstd zstd) hsendable t.collecting_start hdecode h.decodes
    h.valid
  · intro i hi
    rw [horder] at hi
    obtain ⟨chunk, hchunk, rfl⟩ := List.mem_map.1 hi
    exact (hindex chunk hchunk).1
  · intro hmem
    obtain ⟨chunk, hchunk, heq⟩ := List.mem_map.1 hmem
    have hsame := (hindex chunk (by simp [Delivery.arrivals, hchunk])).2
    rw [heq, hlast.2] at hsame
    exact hcomplete.completes (hsame ▸ hchunk)
  · exact List.getElem?_replicate_of_lt hlast.1
  · intro i hi
    have hlt : i < t.count := by
      simpa [PendingTransfer.start, Batch.chunk, chunkAt] using! (List.getElem?_eq_some_iff.1 hi).1
    have hmem := hcomplete.all (t.chunk i) (List.mem_map_of_mem (List.mem_range.2 hlt))
    rw [horder]
    exact List.mem_map.2 ⟨t.chunk i, hmem, rfl⟩
  · -- An empty assembler begins the transfer with the first chunk.
    intro i hi
    have hpos : 0 < t.count := chunkCount_pos t.payload.data
    have hfirst : d.arrivals.head? = some (t.chunk 0) := by
      rw [hcomplete.first, List.head?_map, List.head?_range, if_neg (Nat.ne_of_gt hpos)]
      rfl
    rw [horder, List.head?_map, hfirst] at hi
    cases hi
    rfl

/-- A message that no limit keeps from being sent in chunks arrives as it was. -/
theorem Message.roundTrips (hlossless : codec.Lossless)
    (hsmall : message.maximum ≤ maxEncodedStateBytes) (zstd : Bool) :
    message.RoundTrips codec zstd := by
  refine ⟨fun transferId value hsize hcompress =>
    Message.exists_chunks hsmall hsize hcompress transferId zstd, fun deliveries hdeliveries => ?_⟩
  induction deliveries with
  | nil => rfl
  | cons d deliveries ih =>
    have hfirst := Message.delivery hlossless hsmall (hdeliveries d (by simp))
    have hrest := ih fun d hd => hdeliveries d (List.mem_cons_of_mem _ hd)
    rw [List.flatMap_cons, List.flatMap_cons, Message.pushAll_append, hfirst, hrest]

/-- Terminal states and history pages survive chunking, with compression or without. -/
theorem chunked_transfer_round_trip (codec : Codec) (hlossless : codec.Lossless)
    (graphemeCount : String → Nat) (states : Protobuf State) (pages : Protobuf HistoryPage)
    (zstd : Bool) :
    (terminalState graphemeCount states).RoundTrips codec zstd ∧
      (historyPage graphemeCount pages).RoundTrips codec zstd :=
  have hpage : maxEncodedHistoryPageBytes ≤ maxEncodedStateBytes := by decide
  ⟨Message.roundTrips hlossless (Nat.le_refl _) zstd, Message.roundTrips hlossless hpage zstd⟩

/-! A page of two chunks, the first of which comes twice. -/

/-- A codec whose frames hold the data as it is. -/
def plainCodec : Codec where
  compress data := .ok (frameMagic ++ data)
  read data limit := ⟨(data.drop 4).take limit, .ok ((data.drop 4).drop limit)⟩
  read_le data limit := List.length_take_le _ _
  sha256 data := (data ++ List.replicate 32 0).take 32
  sha256_length data := by simp

theorem plainCodec_lossless : plainCodec.Lossless := by
  intro data compressed h
  cases h
  refine ⟨rfl, ?_⟩
  have hframe : (frameMagic ++ data).drop 4 = data := rfl
  simp only [plainCodec, hframe]
  rw [List.take_of_length_le (Nat.le_succ _), List.drop_eq_nil_of_le (Nat.le_succ _)]

theorem utf8ByteSize_replicate (n : Nat) :
    (String.ofList (List.replicate n 'a')).utf8ByteSize = n := by
  rw [String.utf8ByteSize_ofList, Text.utf8Len_of_ascii, List.length_replicate]
  intro c hc
  rw [List.eq_of_mem_replicate hc]
  decide

/-- A page with one row and so many hyperlinks that it does not fit in one chunk. -/
def pageOfLinks (uri : String) : HistoryPage :=
  { requestId := 4, epoch := List.replicate 16 8, generation := 1, cols := 2
    includedRows := [⟨some ⟨10, 0⟩, 1, [], false⟩]
    oldestAvailable := some ⟨10, 0⟩, newestAvailable := some ⟨11, 0⟩
    includedStart := some ⟨10, 0⟩, includedEnd := some ⟨10, 0⟩, styles := []
    hyperlinks := (List.range 33).map fun i => ⟨i + 1, uri, ""⟩
    moreBefore := false, resetRequired := false }

section

variable {uri : String} (huri : uri.utf8ByteSize = maxHyperlinkUriBytes)

include huri

theorem encodedLen_pageOfLinks : (pageOfLinks uri).encodedLen = 541050 := by
  simp only [HistoryPage.encodedLen, pageOfLinks, Wire.repeatedField, List.map_map,
    Function.comp_def, Hyperlink.encodedLen, stringField, huri]
  decide +kernel

theorem pageOfLinks_valid : validateHistoryPage (fun _ => 1) (pageOfLinks uri) = .ok () := by
  have hne : uri ≠ "" := by
    rintro rfl
    exact absurd huri (by decide)
  have hids : (pageOfLinks uri).hyperlinks.map Hyperlink.id = (List.range 33).map (· + 1) :=
    List.map_map
  have htables : validateTables [] (pageOfLinks uri).hyperlinks =
      .ok ([], ((pageOfLinks uri).hyperlinks.map Hyperlink.id).reverse) := by
    refine (validateTables_eq_ok_iff _ _ _ _).2
      ⟨Nat.zero_le _, ?_, by simp, List.nodup_nil, ?_, by rw [hids]; decide, rfl, rfl⟩
    · simp [pageOfLinks, maxHyperlinks]
    · intro link hlink
      obtain ⟨i, -, rfl⟩ := List.mem_map.1 hlink
      exact ⟨Nat.succ_ne_zero i, hne, huri.le, Nat.zero_le _⟩
  have hsize : (pageOfLinks uri).encodedLen ≤ maxEncodedHistoryPageBytes := by
    rw [encodedLen_pageOfLinks huri]
    decide
  have hhead : (pageOfLinks uri).requestId > 0 ∧ (pageOfLinks uri).epoch.length = epochBytes ∧
      (pageOfLinks uri).generation > 0 ∧
      1 ≤ (pageOfLinks uri).cols ∧ (pageOfLinks uri).cols ≤ maxDimension := by
    simp [pageOfLinks, epochBytes, maxDimension]
  obtain ⟨hid, hepoch, hgeneration, hcols⟩ := hhead
  have hstyles : (pageOfLinks uri).styles = [] := rfl
  rw [validateHistoryPage, ensure_bind_of _ _ hid, ensure_bind_of _ _ hepoch,
    ensure_bind_of _ _ hgeneration, ensure_bind_of _ _ hcols, ensure_bind_of _ _ hsize, hstyles,
    htables]
  rfl

end

/-- The page with URIs of the greatest length. -/
@[irreducible] def bulkyPage : HistoryPage :=
  pageOfLinks (String.ofList (List.replicate maxHyperlinkUriBytes 'a'))

theorem bulkyPage_valid : validateHistoryPage (fun _ => 1) bulkyPage = .ok () := by
  rw [bulkyPage]
  exact pageOfLinks_valid (utf8ByteSize_replicate _)

/-- An encoder that writes as many bytes as protobuf does. -/
def bulkyPages : Protobuf HistoryPage :=
  ⟨fun page => List.replicate page.encodedLen 0, fun _ => .ok bulkyPage⟩

/-- The bytes of the page. -/
def bulk : Bytes := bulkyPages.encodeToVec bulkyPage

theorem length_bulk : bulk.length = 541050 := by
  have hlength : bulk.length = bulkyPage.encodedLen := List.length_replicate
  rw [hlength, bulkyPage]
  exact encodedLen_pageOfLinks (utf8ByteSize_replicate _)

theorem length_bulk_le : bulk.length ≤ maxEncodedHistoryPageBytes := by
  rw [length_bulk]
  decide

def bulkyBatch : Batch := ⟨List.replicate 16 7, plainCodec.sha256 bulk, ⟨bulk, 0, 0⟩⟩

theorem chunks_bulkyPage : (historyPage (fun _ => 1) bulkyPages).chunks plainCodec
    (List.replicate 16 7) bulkyPage false = .ok [bulkyBatch.chunk 0, bulkyBatch.chunk 1] := by
  have hcount : chunkCount bulk = 2 := by
    rw [chunkCount, length_bulk]
    decide
  have hfits : bulk.length < 2 ^ 32 := Nat.lt_of_le_of_lt length_bulk_le (by decide)
  have hencode : encode plainCodec bulk false maxEncodedHistoryPageBytes =
      .ok ⟨bulk, 0, 0⟩ := by
    unfold encode
    rw [ensure_bind_of _ _ length_bulk_le, if_neg (by simp)]
    rfl
  have hfew : tryU32 (chunkCount bulk) = .ok 2 := by
    rw [hcount]
    exact tryU32_of_lt (by decide)
  simp only [Message.chunks, bind_eq_ok_iff, ensure_eq_ok_iff, pure_eq_ok_iff]
  exact ⟨⟨⟩, length_bulk_le, ⟨bulk, 0, 0⟩, hencode, _, tryU32_of_lt hfits, _, hfew, rfl⟩

/-- The first chunk, the first chunk again, and the second. -/
def repeatedDelivery : Delivery HistoryPage :=
  ⟨List.replicate 16 7, bulkyPage, [bulkyBatch.chunk 0, bulkyBatch.chunk 0], bulkyBatch.chunk 1⟩

theorem repeatedDelivery_delivers :
    (historyPage (fun _ => 1) bulkyPages).Delivers plainCodec false repeatedDelivery where
  transferId := rfl
  valid := bulkyPage_valid
  size := length_bulk_le
  decodes := rfl
  complete := by
    refine ⟨_, chunks_bulkyPage, ⟨?_, ?_, rfl, ?_⟩⟩
    · simp [repeatedDelivery, Delivery.arrivals]
    · simp [repeatedDelivery, Delivery.arrivals]
    · intro hmem
      have heq : bulkyBatch.chunk 1 = bulkyBatch.chunk 0 := by
        simpa [repeatedDelivery] using hmem
      exact absurd (congrArg chunkIndex heq) Nat.one_ne_zero

theorem chunked_transfer_round_trip_repeated :
    (historyPage (fun _ => 1) bulkyPages).pushAll plainCodec (.withZstd false)
        [bulkyBatch.chunk 0, bulkyBatch.chunk 0, bulkyBatch.chunk 1] =
      ([.ok none, .ok none, .ok (some bulkyPage)], .withZstd false) := by
  have hround := (chunked_transfer_round_trip plainCodec plainCodec_lossless (fun _ => 1)
    ⟨fun _ => [], fun _ => .error "no state"⟩ bulkyPages false).2.2 [repeatedDelivery]
      (List.forall_mem_singleton.2 repeatedDelivery_delivers)
  simpa [repeatedDelivery, Delivery.arrivals, Delivery.answers, List.replicate] using hround

end AstraShell.Chunked
