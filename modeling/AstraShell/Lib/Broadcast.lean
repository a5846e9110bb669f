import Mathlib.Tactic.Common

/-!
# Bounded broadcast channels

Every receiver of a broadcast channel has its own position in the sequence of values sent. The
channel keeps the last `capacity` values: a receiver that is further behind is told how many values
it missed and goes on with the oldest value kept.
-/

set_option autoImplicit false

namespace AstraShell.Lib.Broadcast

variable {α : Type*}

/-- What a receiver gets. -/
inductive Received (α : Type*) where
  | value (a : α)
  | lagged (missed : ℕ)

/-- What the receiver at position `next` gets, and its new position; `none` when it has to wait. -/
def receive (capacity : ℕ) (sent : List α) (next : ℕ) : Option (Received α × ℕ) :=
  if next + capacity < sent.length then
    some (.lagged (sent.length - capacity - next), sent.length - capacity)
  else sent[next]?.map fun a => (.value a, next + 1)

variable {capacity next next' : ℕ} {sent : List α}

theorem receive_value {a : α} (h : receive capacity sent next = some (.value a, next')) :
    sent[next]? = some a ∧ next' = next + 1 := by
  unfold receive at h
  split at h
  · cases h
  · cases ha : sent[next]? with
    | none =>
      rw [ha] at h
      cases h
    | some b =>
      rw [ha] at h
      cases h
      exact ⟨rfl, rfl⟩

theorem receive_lagged {missed : ℕ}
    (h : receive capacity sent next = some (.lagged missed, next')) :
    next + capacity < sent.length ∧ next' = sent.length - capacity := by
  unfold receive at h
  split at h
  next hlag =>
    cases h
    exact ⟨hlag, rfl⟩
  · cases ha : sent[next]? with
    | none | some b =>
      rw [ha] at h
      cases h

/-- A receiver waits exactly when it has read everything. -/
theorem receive_eq_none_iff : receive capacity sent next = none ↔ sent.length ≤ next := by
  unfold receive
  split
  next hlag => simp only [reduceCtorEq, false_iff]; omega
  · simp

end AstraShell.Lib.Broadcast
