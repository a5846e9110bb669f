import AstraShell.Lib.Checked

/-!
# Frames

`write_message` of `protocol.rs` puts the length of the encoded message in four bytes before it, and
`MessageReader` reads one frame after the other and decodes its payload. Decoding is a parameter.

`readMessages_flatMap`: what was written as frames is read as what their payloads decode to;
`readMessages_eq_ok_iff`: and nothing else is read.
-/

set_option autoImplicit false

namespace AstraShell.Protocol

open Lib

def maxFrameSize : Nat := 4 * 1024 * 1024

/-- Four bytes, the highest first. -/
def frameHeader (length : Nat) : List UInt8 :=
  [.ofNat (length / 2 ^ 24), .ofNat (length / 2 ^ 16), .ofNat (length / 2 ^ 8), .ofNat length]

/-- The length that a header announces. -/
def frameLength (header : List UInt8) : Nat :=
  header.foldl (fun length byte => length * 2 ^ 8 + byte.toNat) 0

def frame (payload : List UInt8) : List UInt8 := frameHeader payload.length ++ payload

/-- One read from what is there: a frame and the rest, or `none` at the end of the stream. -/
def readFrame (stream : List UInt8) : Except String (Option (List UInt8 × List UInt8)) :=
  if stream = [] then .ok none
  else if stream.length < 4 then .error "truncated protocol frame header"
  else
    let length := frameLength (stream.take 4)
    if maxFrameSize < length then
      .error ("peer sent oversized frame: " ++ toString length ++ " bytes")
    else if (stream.drop 4).length < length then .error "truncated protocol frame payload"
    else .ok (some ((stream.drop 4).take length, (stream.drop 4).drop length))

section Messages

variable {M : Type} (decode : List UInt8 → Except String M)

/-- At most so many reads, until the end of the stream. A payload is decoded before the next read.
-/
def readMessages : Nat → List UInt8 → Except String (List M × List UInt8)
  | 0, stream => .ok ([], stream)
  | count + 1, stream => do
    match ← readFrame stream with
    | none => return ([], stream)
    | some (payload, rest) =>
      let message ← decode payload
      let (messages, rest) ← readMessages count rest
      return (message :: messages, rest)

end Messages

/-- The payloads as they are. -/
def readFrames (count : Nat) (stream : List UInt8) :
    Except String (List (List UInt8) × List UInt8) :=
  readMessages .ok count stream

@[simp] theorem length_frameHeader (length : Nat) : (frameHeader length).length = 4 := rfl

theorem frameLength_frameHeader {length : Nat} (h : length < 2 ^ 32) :
    frameLength (frameHeader length) = length := by
  simp only [frameLength, frameHeader, List.foldl_cons, List.foldl_nil, UInt8.toNat_ofNat']
  omega

theorem readFrame_append {payload : List UInt8} (h : payload.length ≤ maxFrameSize)
    (rest : List UInt8) : readFrame (frame payload ++ rest) = .ok (some (payload, rest)) := by
  have hsize : payload.length < 2 ^ 32 := Nat.lt_of_le_of_lt h (by decide)
  have htake : (frame payload ++ rest).take 4 = frameHeader payload.length := rfl
  have hdrop : (frame payload ++ rest).drop 4 = payload ++ rest := rfl
  have hlength : ¬ (frame payload ++ rest).length < 4 := by
    rw [frame, List.length_append, List.length_append, length_frameHeader]
    omega
  unfold readFrame
  rw [if_neg nofun, if_neg hlength, htake, hdrop, frameLength_frameHeader hsize]
  rw [if_neg (Nat.not_lt.2 h), if_neg, List.take_left, List.drop_left]
  rw [List.length_append]
  omega

section Messages

variable {M : Type} {decode : List UInt8 → Except String M} {messages : List M}
  {payloads : List (List UInt8)} {rest : List UInt8}

theorem readMessages_append {payload : List UInt8} (h : payload.length ≤ maxFrameSize) (count : Nat)
    (rest : List UInt8) : readMessages decode (count + 1) (frame payload ++ rest) = do
      let message ← decode payload
      let (messages, rest) ← readMessages decode count rest
      return (message :: messages, rest) := by
  rw [readMessages, readFrame_append h]
  rfl

theorem readMessages_flatMap (hsize : ∀ payload ∈ payloads, payload.length ≤ maxFrameSize)
    (hdecode : payloads.mapM decode = .ok messages) {count : Nat} (hcount : payloads.length ≤ count)
    (hend : payloads.length < count → rest = []) :
    readMessages decode count (payloads.flatMap frame ++ rest) = .ok (messages, rest) := by
  induction payloads generalizing count messages with
  | nil =>
    cases hdecode
    cases count <;> simp_all [readMessages, readFrame]
  | cons payload payloads ih =>
    obtain ⟨count, rfl⟩ := Nat.exists_eq_add_of_lt (Nat.lt_of_lt_of_le (Nat.zero_lt_succ _) hcount)
    rw [List.mapM_cons] at hdecode
    obtain ⟨message, hmessage, hrest⟩ := bind_eq_ok_iff.1 hdecode
    obtain ⟨messages, hmessages, hpure⟩ := bind_eq_ok_iff.1 hrest
    cases hpure
    have hnext : readMessages decode count (payloads.flatMap frame ++ rest) =
        .ok (messages, rest) :=
      ih (fun p hp => hsize p (List.mem_cons_of_mem _ hp)) hmessages (by simpa using hcount)
        fun h => hend (by simpa using h)
    rw [List.flatMap_cons, List.append_assoc, Nat.zero_add,
      readMessages_append (hsize _ List.mem_cons_self), hmessage]
    rw [hnext]
    rfl

theorem readFrames_append {payload : List UInt8} (h : payload.length ≤ maxFrameSize) (count : Nat)
    (rest : List UInt8) : readFrames (count + 1) (frame payload ++ rest) = do
      let (payloads, rest) ← readFrames count rest
      return (payload :: payloads, rest) :=
  readMessages_append h count rest

theorem readFrames_flatMap (h : ∀ payload ∈ payloads, payload.length ≤ maxFrameSize) :
    readFrames payloads.length (payloads.flatMap frame) = .ok (payloads, []) := by
  have hdecode : payloads.mapM (m := Except String) .ok = .ok payloads := by
    simpa [pure, Except.pure] using List.mapM_pure (m := Except String) (l := payloads) (f := id)
  have hread := @readMessages_flatMap _ _ _ _ [] h hdecode _ le_rfl fun _ => rfl
  rwa [List.append_nil] at hread

end Messages

theorem frameHeader_frameLength (a b c d : UInt8) :
    frameHeader (frameLength [a, b, c, d]) = [a, b, c, d] := by
  simp only [frameLength, frameHeader, List.foldl_cons, List.foldl_nil, List.cons.injEq,
    ← UInt8.toNat_inj, UInt8.toNat_ofNat', and_true]
  simp only [UInt8.toNat]
  omega

/-- What is read as a frame is one. -/
theorem readFrame_exact {stream payload rest : List UInt8}
    (h : readFrame stream = .ok (some (payload, rest))) :
    stream = frame payload ++ rest ∧ payload.length ≤ maxFrameSize := by
  rcases stream with _ | ⟨a, _ | ⟨b, _ | ⟨c, _ | ⟨d, body⟩⟩⟩⟩
  case cons.cons.cons.cons =>
    rw [readFrame, if_neg (by simp)] at h
    dsimp at h
    split_ifs at h
    cases h
    rw [frame, List.length_take_of_le (by omega)]
    simp [frameHeader_frameLength]
    omega
  all_goals cases h

/-- The reader accepts frames one after the other whose payloads it can decode, and stops early only
at the end of one. -/
theorem readMessages_eq_ok_iff {M : Type} (decode : List UInt8 → Except String M) (count : Nat)
    (stream rest : List UInt8) (messages : List M) :
    readMessages decode count stream = .ok (messages, rest) ↔
      ∃ payloads : List (List UInt8), stream = payloads.flatMap frame ++ rest ∧
        (∀ payload ∈ payloads, payload.length ≤ maxFrameSize) ∧
        payloads.mapM decode = .ok messages ∧
        payloads.length ≤ count ∧ (payloads.length < count → rest = []) := by
  constructor
  · intro h
    induction count generalizing stream messages with
    | zero =>
      cases h
      exact ⟨[], by simp [pure, Except.pure]⟩
    | succ count ih =>
      obtain ⟨read, hread, h⟩ := bind_eq_ok_iff.1 h
      cases read with
      | none =>
        cases h
        obtain rfl : rest = [] := by grind [readFrame]
        exact ⟨[], by simp [pure, Except.pure]⟩
      | some read =>
        obtain ⟨message, hmessage, h⟩ := bind_eq_ok_iff.1 h
        obtain ⟨last, hlast, h⟩ := bind_eq_ok_iff.1 h
        cases h
        obtain ⟨hstream, hpayload⟩ := readFrame_exact hread
        obtain ⟨payloads, hrest, hsizes, hdecode, hcount, hend⟩ := ih _ _ hlast
        refine ⟨read.1 :: payloads, ?_, ?_, ?_, by simpa using hcount, by simpa using hend⟩
        · rw [hstream, hrest, List.flatMap_cons, List.append_assoc]
        · exact List.forall_mem_cons.2 ⟨hpayload, hsizes⟩
        · rw [List.mapM_cons, hmessage, hdecode]
          rfl
  · rintro ⟨payloads, rfl, hsize, hdecode, hcount, hend⟩
    exact readMessages_flatMap hsize hdecode hcount hend

end AstraShell.Protocol
