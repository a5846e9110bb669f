import Mathlib.Algebra.BigOperators.Group.List.Basic
import Mathlib.Algebra.Ring.Nat

/-!
# Slots and slices

A fixed number of places that are filled in any order, each at most once. `filled` counts the places
that are taken and `weight` measures what is in them. `contents` gives everything when no place is
empty. `Part` says that the places are filled from a given list only: what is in them weighs at most
as much as the list (`Part.weight_le`), and full places are the list (`Part.eq_of_filled`).

The list can itself be a longer list that was cut at increasing positions; its slices put together
are that list again (`flatten_slices`).
-/

set_option autoImplicit false

namespace AstraShell.Lib.Slots

universe u

variable {β : Type u}

/-- How many places are taken. -/
def filled (slots : List (Option β)) : Nat := slots.countP Option.isSome

/-- What is in a place. -/
def weigh (w : β → Nat) : Option β → Nat
  | none => 0
  | some b => w b

/-- What is in all places together. -/
def weight (w : β → Nat) (slots : List (Option β)) : Nat := (slots.map (weigh w)).sum

/-- Everything, when no place is empty. -/
def contents : List (Option β) → Option (List β)
  | [] => some []
  | none :: _ => none
  | some b :: slots => (contents slots).map (b :: ·)

variable {slots : List (Option β)} {w : β → Nat} {i : Nat}

@[simp] theorem filled_replicate (n : Nat) : filled (List.replicate n (none : Option β)) = 0 := by
  simp [filled, List.countP_replicate]

@[simp] theorem weight_replicate (w : β → Nat) (n : Nat) :
    weight w (List.replicate n none) = 0 := by
  simp [weight, weigh]

theorem filled_set (h : slots[i]? = some none) (b : β) :
    filled (slots.set i (some b)) = filled slots + 1 := by
  obtain ⟨hi, hnone⟩ := List.getElem?_eq_some_iff.1 h
  rw [filled, List.countP_set hi, hnone]
  simp [filled]

theorem weight_set (h : slots[i]? = some none) (b : β) :
    weight w (slots.set i (some b)) = weight w slots + w b := by
  induction slots generalizing i with
  | nil => cases h
  | cons o slots ih =>
    cases i with
    | zero =>
      cases h
      simp [weight, weigh, Nat.add_comm]
    | succ i =>
      have hrest := ih (i := i) (by simpa using h)
      unfold weight at hrest ⊢
      simp only [List.set_cons_succ, List.map_cons, List.sum_cons, hrest]
      omega

theorem contents_map_some (bs : List β) : contents (bs.map some) = some bs := by
  induction bs with
  | nil => rfl
  | cons b bs ih => simp [contents, ih]

theorem filled_lt_length (h : slots[i]? = some none) : filled slots < slots.length := by
  rcases Nat.lt_or_eq_of_le (List.countP_le_length (l := slots)) with hlt | heq
  · exact hlt
  · have hall := List.countP_eq_length.1 heq none (List.mem_of_getElem? h)
    cases hall

/-! ## Places that are filled from a list -/

/-- Every place is empty or has what the list has there. -/
def Part (slots : List (Option β)) (bs : List β) : Prop :=
  List.Forall₂ (fun o b => o = none ∨ o = some b) slots bs

namespace Part

variable {bs : List β} {b : β}

theorem empty (bs : List β) : Part (List.replicate bs.length none) bs := by
  induction bs with
  | nil => exact .nil
  | cons b bs ih => exact .cons (.inl rfl) ih

theorem get (h : Part slots bs) (hb : bs[i]? = some b) :
    slots[i]? = some none ∨ slots[i]? = some (some b) := by
  induction h generalizing i with
  | nil => cases hb
  | cons hplace _ ih =>
    cases i with
    | zero =>
      cases hb
      rcases hplace with rfl | rfl
      · exact .inl rfl
      · exact .inr rfl
    | succ i => exact ih (by simpa using hb)

theorem set (h : Part slots bs) (hb : bs[i]? = some b) : Part (slots.set i (some b)) bs := by
  induction h generalizing i with
  | nil => exact .nil
  | cons hplace hrest ih =>
    cases i with
    | zero =>
      cases hb
      exact .cons (.inr rfl) hrest
    | succ i => exact .cons hplace (ih (by simpa using hb))

theorem weight_le (h : Part slots bs) (w : β → Nat) : weight w slots ≤ (bs.map w).sum := by
  induction h with
  | nil => exact Nat.le_refl _
  | cons hplace _ ih =>
    rcases hplace with rfl | rfl
    · simp only [weight, weigh, List.map_cons, List.sum_cons] at ih ⊢
      omega
    · simp only [weight, weigh, List.map_cons, List.sum_cons] at ih ⊢
      omega

theorem eq_of_filled (h : Part slots bs) (hfilled : filled slots = slots.length) :
    slots = bs.map some := by
  have hall := List.countP_eq_length.1 hfilled
  clear hfilled
  induction h with
  | nil => rfl
  | cons hplace _ ih =>
    rcases hplace with rfl | rfl
    · cases hall none (by simp)
    · rw [List.map_cons, ih fun o ho => hall o (List.mem_cons_of_mem _ ho)]

end Part

/-! ## Slices -/

/-- The elements from one position up to another. -/
def slice (data : List β) (start stop : Nat) : List β := (data.take stop).drop start

theorem take_append_slice (data : List β) {start stop : Nat} (h : start ≤ stop) :
    data.take start ++ slice data start stop = data.take stop := by
  have hfirst : (data.take stop).take start = data.take start := by
    rw [List.take_take, Nat.min_eq_left h]
  rw [slice, ← hfirst, List.take_append_drop]

/-- The slices between increasing positions are what comes before the last position. -/
theorem flatten_slices (data : List β) (cut : Nat → Nat) (hzero : cut 0 = 0)
    (hmono : ∀ i, cut i ≤ cut (i + 1)) (n : Nat) :
    ((List.range n).map fun i => slice data (cut i) (cut (i + 1))).flatten = data.take (cut n) := by
  induction n with
  | zero => simp [hzero]
  | succ n ih =>
    rw [List.range_succ, List.map_append, List.flatten_append, ih]
    simp [take_append_slice data (hmono n)]

end AstraShell.Lib.Slots
