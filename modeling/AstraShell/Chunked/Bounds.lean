import AstraShell.Chunked.Assembler

/-!
# What an assembler holds of a hostile peer

A peer sends chunks of its choice. `Session` runs an assembler on them and notes which chunks it has
accepted for the pending transfer; the note is not part of the assembler. `Sound` bounds what a
pending transfer holds. Every push keeps it (`Session.push_sound`), also one that fails after it has
counted the bytes of the chunk, and `hostile_assembly_bounded` reads the limits off it.
-/

set_option autoImplicit false

namespace AstraShell.Chunked

open Lib TerminalState Streaming

/-- The bytes of chunk data that a transfer holds. -/
def PendingTransfer.retained (pending : PendingTransfer) : Nat :=
  Slots.weight List.length pending.chunks

/-- An assembler with the chunks it has accepted for the pending transfer. -/
structure Session where
  assembler : TransferAssembler
  accepted : List TransferChunk

namespace Session

def start (allowZstd : Bool) : Session := ⟨.withZstd allowZstd, []⟩

/-- A chunk arrives. A transfer that ends takes its chunks with it. -/
def push (codec : Codec) (maximum : Nat) (s : Session) (chunk : TransferChunk) : Session :=
  let pushed := s.assembler.push codec chunk maximum
  { assembler := pushed.next
    accepted :=
      match pushed.next.pending, pushed.answer with
      | none, _ => []
      | some _, .ok _ => s.accepted ++ [chunk]
      | some _, .error _ => s.accepted }

def pushAll (codec : Codec) (maximum : Nat) (s : Session) (chunks : List TransferChunk) : Session :=
  chunks.foldl (push codec maximum) s

end Session

/-- What holds of a pending transfer with its accepted chunks. After a chunk that was too large
`receivedSize` is above `totalSize`, so the bound of what is retained is a field of its own. -/
structure PendingTransfer.Sound (maximum : Nat) (accepted : List TransferChunk)
    (pending : PendingTransfer) : Prop where
  size : pending.totalSize ≤ maximum
  counted : pending.retained ≤ pending.receivedSize
  bounded : pending.retained ≤ pending.totalSize
  digests : ∀ chunk ∈ accepted, chunk.sha256 = pending.sha256
  parts : ∀ (i : Nat) (part : Bytes), pending.chunks[i]? = some (some part) →
    ∃ chunk ∈ accepted, chunk.chunkIndex = i ∧ chunk.data = part

/-- The pending transfer of a session, if there is one, is sound. -/
def Session.Sound (maximum : Nat) (s : Session) : Prop :=
  ∀ pending, s.assembler.pending = some pending → pending.Sound maximum s.accepted

/-- No chunk is noted when no transfer is pending. -/
def Session.Clean (s : Session) : Prop := s.assembler.pending = none → s.accepted = []

variable {codec : Codec} {maximum : Nat} {s : Session} {chunk : TransferChunk}
  {pending : PendingTransfer} {accepted : List TransferChunk}

namespace PendingTransfer

theorem sound_start (h : chunk.totalSize ≤ maximum) : (start chunk).Sound maximum [] where
  size := h
  counted := by simp [retained, start]
  bounded := by simp [retained, start]
  digests := by simp
  parts := by
    intro i part hpart
    simp [start, List.getElem?_replicate] at hpart

theorem retained_store (htakes : TransferAssembler.Takes pending chunk) :
    (pending.store chunk).retained = pending.retained + chunk.data.length :=
  Slots.weight_set htakes.free chunk.data

section

variable (h : pending.Sound maximum accepted)

include h

theorem Sound.store (htakes : TransferAssembler.Takes pending chunk) :
    (pending.store chunk).Sound maximum (accepted ++ [chunk]) where
  size := h.size
  counted := by
    have hcounted := h.counted
    rw [retained_store htakes]
    exact Nat.add_le_add_right hcounted _
  bounded := by
    have hcounted := h.counted
    have hfits := htakes.fits
    rw [retained_store htakes]
    exact Nat.le_trans (Nat.add_le_add_right hcounted _) hfits
  digests := by
    exact List.forall_mem_append.2 ⟨h.digests,
      List.forall_mem_singleton.2 htakes.announces.2.2.1.symm⟩
  parts := by
    intro i part hpart
    by_cases hi : chunk.chunkIndex = i
    · -- The place that was free now has the data of this chunk.
      subst hi
      have hlt : chunk.chunkIndex < pending.chunks.length :=
        (List.getElem?_eq_some_iff.1 htakes.free).1
      simp only [PendingTransfer.store, List.getElem?_set_self hlt, Option.some.injEq] at hpart
      exact ⟨chunk, by simp, rfl, hpart⟩
    · simp only [PendingTransfer.store, List.getElem?_set_ne hi] at hpart
      obtain ⟨c, hc, hplace⟩ := h.parts i part hpart
      exact ⟨c, List.mem_append_left _ hc, hplace⟩

/-- A chunk that is there already changes nothing but the note. -/
theorem Sound.repeated (hannounces : pending.Announces chunk) :
    pending.Sound maximum (accepted ++ [chunk]) where
  size := h.size
  counted := h.counted
  bounded := h.bounded
  digests := by
    exact List.forall_mem_append.2 ⟨h.digests, List.forall_mem_singleton.2 hannounces.2.2.1.symm⟩
  parts := by
    intro i part hpart
    obtain ⟨c, hc, hplace⟩ := h.parts i part hpart
    exact ⟨c, List.mem_append_left _ hc, hplace⟩

end

/-- The chunk that ends a transfer declares what is decompressed. -/
theorem store_inflation {allowZstd : Bool} {inflation : Inflation}
    (htakes : TransferAssembler.Takes pending chunk)
    (h : ((pending.store chunk).finish codec allowZstd maximum).2 = some inflation) :
    inflation.declared = chunk.uncompressedSize ∧
      inflation.produced ≤ inflation.declared + 1 ∧ inflation.declared ≤ maximum := by
  obtain ⟨hdeclared, hbounds⟩ := finish_inflation h
  have hannounced : pending.uncompressedSize = chunk.uncompressedSize :=
    htakes.announces.2.2.2.2.1
  exact ⟨hdeclared.trans hannounced, hbounds⟩

end PendingTransfer

namespace Session

/-- The transfer that a chunk goes to is sound, whether it was pending or begins now. -/
theorem current_sound (h : s.Sound maximum) (hclean : s.Clean)
    (hcheck : chunk.check s.assembler.allowZstd maximum = .ok ())
    (hcurrent : s.assembler.current chunk = .ok pending) : pending.Sound maximum s.accepted := by
  obtain ⟨-, -, -, -, hsize, -⟩ := TransferChunk.check_eq_ok_iff.1 hcheck
  rcases TransferAssembler.current_eq_ok hcurrent with hpending | ⟨hnone, rfl⟩
  · exact h pending hpending
  · rw [hclean hnone]
    exact PendingTransfer.sound_start hsize

theorem push_clean : (s.push codec maximum chunk).Clean := by
  intro hnone
  simp only [push] at hnone ⊢
  rw [hnone]

theorem push_sound (h : s.Sound maximum) (hclean : s.Clean) :
    (s.push codec maximum chunk).Sound maximum := by
  intro pending hpending
  rcases s.assembler.push_cases codec chunk maximum with
    ⟨e, hpush⟩ | ⟨current, hcheck, hcurrent, hpush⟩
  · simp only [push, hpush] at hpending ⊢
    rw [hpending]
    exact h pending hpending
  · have hsound := current_sound h hclean hcheck hcurrent
    have haccepts := s.assembler.accept_accepts codec current chunk maximum
    simp only [push, hpush] at hpending ⊢
    generalize s.assembler.accept codec current chunk maximum = pushed at haccepts hpending ⊢
    cases haccepts with
    | rejected e receivedSize hreceived =>
      cases hpending
      exact { hsound with counted := hsound.counted.trans hreceived }
    | repeated hannounces hstored =>
      cases hpending
      exact hsound.repeated hannounces
    | stored htakes hmore =>
      cases hpending
      exact hsound.store htakes
    | failed | finished => cases hpending

theorem pushAll_sound (h : s.Sound maximum) (hclean : s.Clean) (chunks : List TransferChunk) :
    (s.pushAll codec maximum chunks).Sound maximum ∧ (s.pushAll codec maximum chunks).Clean := by
  induction chunks generalizing s with
  | nil => exact ⟨h, hclean⟩
  | cons chunk chunks ih => exact ih (push_sound h hclean) push_clean

end Session

/-- What a push decompresses and yields, from a session that is sound. -/
theorem Session.push_bounded (h : s.Sound maximum) (hclean : s.Clean) (chunk : TransferChunk) :
    (∀ inflation, (s.assembler.push codec chunk maximum).inflation = some inflation →
      inflation.declared = chunk.uncompressedSize ∧
        inflation.produced ≤ inflation.declared + 1 ∧ inflation.declared ≤ maximum) ∧
    ∀ payload, (s.assembler.push codec chunk maximum).answer = .ok (some payload) →
      payload.length ≤ maximum ∧
        ∀ c ∈ s.accepted ++ [chunk], c.sha256 = codec.sha256 payload := by
  rcases s.assembler.push_cases codec chunk maximum with
    ⟨e, hpush⟩ | ⟨current, hcheck, hcurrent, hpush⟩
  · rw [hpush]
    exact ⟨nofun, nofun⟩
  · have hsound := current_sound h hclean hcheck hcurrent
    have haccepts := s.assembler.accept_accepts codec current chunk maximum
    rw [hpush]
    generalize s.assembler.accept codec current chunk maximum = pushed at haccepts ⊢
    cases haccepts with
    | rejected | repeated | stored => exact ⟨nofun, nofun⟩
    | failed htakes e inflation hfinish =>
      refine ⟨fun i hi => ?_, nofun⟩
      cases hi
      exact PendingTransfer.store_inflation htakes (congrArg Prod.snd hfinish)
    | finished htakes hall payload inflation hfinish =>
      refine ⟨fun i hi => ?_, fun p hp => ?_⟩
      · cases hi
        exact PendingTransfer.store_inflation htakes (congrArg Prod.snd hfinish)
      · cases hp
        obtain ⟨hlength, hdigest⟩ := PendingTransfer.finish_eq_ok (congrArg Prod.fst hfinish)
        refine ⟨hlength, fun c hc => ?_⟩
        rw [hdigest]
        exact (hsound.store htakes).digests c hc

/-- Whatever a peer has sent, a pending transfer retains no more than it declares and declares no
more than the maximum. The next chunk decompresses at most one byte more than it declares. A payload
is within the maximum, and every chunk accepted for it declares its digest. -/
theorem hostile_assembly_bounded (codec : Codec) (maximum : Nat) (allowZstd : Bool)
    (chunks : List TransferChunk) (chunk : TransferChunk) :
    let session := (Session.start allowZstd).pushAll codec maximum chunks
    let pushed := session.assembler.push codec chunk maximum
    (∀ pending, session.assembler.pending = some pending →
      pending.retained ≤ pending.totalSize ∧ pending.totalSize ≤ maximum ∧
        ∀ (i : Nat) (part : Bytes), pending.chunks[i]? = some (some part) →
          ∃ c ∈ session.accepted, c.chunkIndex = i ∧ c.data = part) ∧
    (∀ inflation, pushed.inflation = some inflation →
      inflation.declared = chunk.uncompressedSize ∧
        inflation.produced ≤ inflation.declared + 1 ∧ inflation.declared ≤ maximum) ∧
    ∀ payload, pushed.answer = .ok (some payload) →
      payload.length ≤ maximum ∧
        ∀ c ∈ session.accepted ++ [chunk], c.sha256 = codec.sha256 payload := by
  intro session pushed
  obtain ⟨hsound, hclean⟩ : session.Sound maximum ∧ session.Clean :=
    Session.pushAll_sound (by simp [Session.Sound, Session.start, TransferAssembler.withZstd])
      (fun _ => rfl) chunks
  refine ⟨fun pending hpending => ?_, Session.push_bounded hsound hclean chunk⟩
  have hheld := hsound pending hpending
  exact ⟨hheld.bounded, hheld.size, hheld.parts⟩

end AstraShell.Chunked
