import Mathlib.Tactic.Common

/-!
# Watch channels

A watch channel keeps the last value sent and the number of values sent so far, its version. A
receiver remembers the version that it has seen. A receiver that looks at the channel gets the last
value, whatever was sent in between.
-/

set_option autoImplicit false

namespace AstraShell.Lib

structure Watch (α : Type*) where
  value : α
  version : ℕ
  /-- The sender is gone. -/
  closed : Bool

namespace Watch

variable {α : Type*}

def channel (value : α) : Watch α := ⟨value, 0, false⟩

def send (w : Watch α) (value : α) : Watch α := { w with value := value, version := w.version + 1 }

def close (w : Watch α) : Watch α := { w with closed := true }

/-- What a wait for a change gives: `none` when there is nothing new yet. -/
def changed (w : Watch α) (seen : ℕ) : Option (Except Unit Unit) :=
  if w.version ≠ seen then some (.ok ()) else if w.closed then some (.error ()) else none

/-- The test for a change, which fails on a channel without a sender. -/
def hasChanged (w : Watch α) (seen : ℕ) : Except Unit Bool :=
  if w.closed then .error () else .ok (decide (w.version ≠ seen))

theorem changed_eq_none {w : Watch α} {seen : ℕ} (h : w.changed seen = none) :
    seen = w.version := by
  unfold changed at h
  split at h
  · cases h
  next heq => exact (not_not.1 heq).symm

theorem ne_of_changed {w : Watch α} {seen : ℕ} {u : Unit} (h : w.changed seen = some (.ok u)) :
    w.version ≠ seen := by
  unfold changed at h
  split at h
  next hne => exact hne
  · split at h <;> cases h

end Watch

end AstraShell.Lib
