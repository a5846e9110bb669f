import Mathlib.Data.Nat.Log
import Mathlib.Algebra.Ring.Nat

/-!
# Encoded lengths of tagged messages

The length of a message on the wire is the sum of the lengths of its fields. A scalar field with
its default value takes no bytes. Every other field takes its key, which fits one byte for the tags
`1..15` and two bytes for the tags `16..2047`, and a varint, or a length varint and a payload.
-/

set_option autoImplicit false

namespace AstraShell.Lib.Wire

universe u

variable {α : Type u}

/-- Bytes of a varint: seven bits a byte, at least one byte. -/
def varintLen (n : Nat) : Nat := (Nat.log2 (n ||| 1) * 9 + 73) / 64

/-- Bytes of a field key. -/
def keyLen (tag : Nat) : Nat := varintLen (tag * 8)

/-- An unsigned integer or boolean field. -/
def uintField (tag n : Nat) : Nat := if n = 0 then 0 else keyLen tag + varintLen n

/-- A boolean field. -/
def boolField (tag : Nat) (b : Bool) : Nat := if b then keyLen tag + 1 else 0

/-- A signed 32-bit field; a negative value is sign extended to 64 bits. -/
def int32Field (tag : Nat) (n : Int) : Nat :=
  if n = 0 then 0 else keyLen tag + varintLen (if n < 0 then 2 ^ 64 - 1 else n.toNat)

/-- A string or bytes field of the given length. -/
def bytesField (tag len : Nat) : Nat :=
  if len = 0 then 0 else keyLen tag + varintLen len + len

/-- A message of the given length in a field that is present. -/
def messageField (tag len : Nat) : Nat := keyLen tag + varintLen len + len

/-- An optional message field. -/
def optionField (tag : Nat) (len : α → Nat) : Option α → Nat
  | none => 0
  | some a => messageField tag (len a)

/-- A repeated message field. -/
def repeatedField (tag : Nat) (len : α → Nat) (as : List α) : Nat :=
  (as.map fun a => messageField tag (len a)).sum

/-- A packed repeated integer field. -/
def packedField (tag : Nat) (ns : List Nat) : Nat :=
  if ns = [] then 0 else messageField tag (ns.map varintLen).sum

/-! ## Varints of 64-bit values -/

variable {n : Nat}

theorem log2_lt_of_lt {k : Nat} (hk : k ≠ 0) (h : n < 2 ^ k) : Nat.log2 n < k := by
  rw [Nat.log2_eq_log_two]
  exact Nat.log_lt_of_lt_pow' hk h

theorem log2_or_one (n : Nat) : Nat.log2 (n ||| 1) = Nat.log2 n := by
  rcases Nat.eq_zero_or_pos n with rfl | hpos
  · rfl
  · have hne : n ≠ 0 := Nat.ne_of_gt hpos
    have hle : n ≤ n ||| 1 := Nat.left_le_or
    have hor : n ||| 1 ≠ 0 := by omega
    refine (Nat.log2_eq_iff hor).2 ⟨Nat.le_trans (Nat.log2_self_le hne) hle, ?_⟩
    exact Nat.or_lt_two_pow Nat.lt_log2_self (Nat.one_lt_two_pow (Nat.succ_ne_zero _))

/-- One byte for every seven bits. -/
theorem varintLen_eq (h : n < 2 ^ 64) : varintLen n = Nat.log2 n / 7 + 1 := by
  have hlog := log2_lt_of_lt (by decide) h
  rw [varintLen, log2_or_one]
  omega

theorem varintLen_le_ten (h : n < 2 ^ 64) : varintLen n ≤ 10 := by
  have hlog := log2_lt_of_lt (by decide) h
  rw [varintLen_eq h]
  omega

theorem log2_div_128 (n : Nat) : Nat.log2 (n / 128) = Nat.log2 n - 7 := by
  rw [Nat.log2_eq_log_two, Nat.log2_eq_log_two]
  exact Nat.log_div_base_pow 2 n 7

theorem uintField_le (tag : Nat) (h : n < 2 ^ 64) : uintField tag n ≤ keyLen tag + 10 := by
  unfold uintField
  split
  · exact Nat.zero_le _
  · exact Nat.add_le_add_left (varintLen_le_ten h) _

theorem le_bytesField (tag len : Nat) : len ≤ bytesField tag len := by
  unfold bytesField
  split
  · omega
  · exact Nat.le_add_left _ _

end AstraShell.Lib.Wire
