import Mathlib.Tactic.Common

/-!
# Effects

Code that works on a state and may fail. What it did to the state before it failed stays, so a
result always comes with a state.

`wp m Q E s` says what `m` leaves when it starts at `s`: `Q` after a success, `E` after a failure.
The rules take a sequence apart from its front, so that a proof goes through the code in its order.
-/

set_option autoImplicit false

namespace AstraShell.Lib

/-- A computation over a state of type `σ` that may fail with an `ε`. -/
def Effect (σ ε α : Type) : Type := σ → Except ε α × σ

namespace Effect

variable {σ τ ε ε' α β : Type}

/-- The sequence of two computations: the second runs in the state the first one left. -/
def andThen (m : Effect σ ε α) (f : α → Effect σ ε β) : Effect σ ε β := fun s =>
  match m s with
  | (.ok a, s') => f a s'
  | (.error e, s') => (.error e, s')

instance : Monad (Effect σ ε) where
  pure a := fun s => (.ok a, s)
  bind := andThen

def fail (e : ε) : Effect σ ε α := fun s => (.error e, s)

/-- A part of the state. -/
def gets (f : σ → α) : Effect σ ε α := fun s => (.ok (f s), s)

def modify (f : σ → σ) : Effect σ ε Unit := fun s => (.ok (), f s)

/-- A check that does not look at the state. -/
def check (x : Except ε α) : Effect σ ε α := fun s => (x, s)

def require (p : Prop) [Decidable p] (e : ε) : Effect σ ε Unit :=
  if p then pure () else fail e

/-- The result of a computation as a value, failures included. -/
def attempt (m : Effect σ ε α) : Effect σ ε' (Except ε α) := fun s =>
  match m s with
  | (r, s') => (.ok r, s')

/-- Code for a part of a larger state, with its failures put into words. -/
def within (read : τ → σ) (write : τ → σ → τ) (describe : ε → ε') (m : Effect σ ε α) :
    Effect τ ε' α := fun t =>
  match m (read t) with
  | (.ok a, s) => (.ok a, write t s)
  | (.error e, s) => (.error (describe e), write t s)

/-! ## What a computation leaves -/

/-- After `m` from `s`: `Q` with the value of a success, `E` with the error of a failure. -/
def wp (m : Effect σ ε α) (Q : α → σ → Prop) (E : ε → σ → Prop) (s : σ) : Prop :=
  match m s with
  | (.ok a, s') => Q a s'
  | (.error e, s') => E e s'

section Rules

variable {m : Effect σ ε α} {Q Q' : α → σ → Prop} {E E' : ε → σ → Prop} {s : σ}

@[simp] theorem wp_pure (a : α) : wp (pure a) Q E s ↔ Q a s := Iff.rfl

@[simp] theorem wp_gets (f : σ → α) : wp (gets f) Q E s ↔ Q (f s) s := Iff.rfl

@[simp] theorem wp_modify {Q : Unit → σ → Prop} (f : σ → σ) :
    wp (modify f) Q E s ↔ Q () (f s) := Iff.rfl

theorem wp_mono (h : wp m Q E s) (hok : ∀ a s', Q a s' → Q' a s')
    (herror : ∀ e s', E e s' → E' e s') : wp m Q' E' s := by
  revert h
  simp only [wp]
  rcases m s with ⟨e | a, s'⟩
  · exact herror e s'
  · exact hok a s'

/-- Take a sequence apart. -/
theorem wp_bind {Q : β → σ → Prop} {f : α → Effect σ ε β} :
    wp (m >>= f) Q E s ↔ wp m (fun a s' => wp (f a) Q E s') E s := by
  simp only [wp, bind, andThen]
  rcases m s with ⟨_ | a, s'⟩ <;> rfl

/-- Go past the first part of a sequence by what is known of it. -/
theorem wp_seq {P : α → σ → Prop} {F : ε → σ → Prop} {Q : β → σ → Prop} {f : α → Effect σ ε β}
    (h : wp m P F s) (herror : ∀ e s', F e s' → E e s')
    (hok : ∀ a s', P a s' → wp (f a) Q E s') : wp (m >>= f) Q E s :=
  wp_bind.2 (wp_mono h hok herror)

theorem wp_check {x : Except ε α} (hok : ∀ a, x = .ok a → Q a s)
    (herror : ∀ e, x = .error e → E e s) : wp (check x) Q E s := by
  cases x with
  | ok a => exact hok a rfl
  | error e => exact herror e rfl

theorem wp_require {Q : Unit → σ → Prop} {p : Prop} [Decidable p] {e : ε} (hok : p → Q () s)
    (herror : ¬ p → E e s) : wp (require p e) Q E s := by
  unfold require
  split
  next hp => exact hok hp
  next hp => exact herror hp

theorem wp_attempt {Q : Except ε α → σ → Prop} {E : ε' → σ → Prop}
    (h : wp m (fun a s' => Q (.ok a) s') (fun e s' => Q (.error e) s') s) :
    wp (attempt m : Effect σ ε' (Except ε α)) Q E s := by
  revert h
  simp only [wp, attempt]
  rcases m s with ⟨e | a, s'⟩ <;> exact id

theorem wp_within {read : τ → σ} {write : τ → σ → τ} {describe : ε → ε'} {Q : α → τ → Prop}
    {E : ε' → τ → Prop} {t : τ}
    (h : wp m (fun a s => Q a (write t s)) (fun e s => E (describe e) (write t s)) (read t)) :
    wp (within read write describe m) Q E t := by
  revert h
  simp only [wp, within]
  rcases m (read t) with ⟨e | a, s⟩ <;> exact id

/-- What a run that succeeded left. -/
theorem of_wp_ok {a : α} {s' : σ} (h : wp m Q E s) (hrun : m s = (.ok a, s')) : Q a s' := by
  unfold wp at h
  rw [hrun] at h
  exact h

theorem of_wp_error {e : ε} {s' : σ} (h : wp m Q E s) (hrun : m s = (.error e, s')) : E e s' := by
  unfold wp at h
  rw [hrun] at h
  exact h

theorem wp_iff_run {P : Except ε α × σ → Prop} :
    wp m (fun a s' => P (.ok a, s')) (fun e s' => P (.error e, s')) s ↔ P (m s) := by
  unfold wp
  rcases m s with ⟨_ | a, s'⟩ <;> rfl

/-- What holds in the end however the run ends. -/
theorem wp_iff_state {I : σ → Prop} : wp m (fun _ s' => I s') (fun _ s' => I s') s ↔ I (m s).2 :=
  wp_iff_run (P := fun r => I r.2)

end Rules

/-! ## Code that stops at a failure -/

/-- The value and the state a success leaves, for a caller that goes no further after a failure. -/
def result (m : Effect σ ε α) (s : σ) : Except ε (α × σ) :=
  match m s with
  | (.ok a, s') => .ok (a, s')
  | (.error e, _) => .error e

section Result

variable {m : Effect σ ε α} {f : α → Effect σ ε β} {s : σ}

theorem of_wp_result {Q : α → σ → Prop} {E : ε → σ → Prop} {a : α} {s' : σ} (h : wp m Q E s)
    (hrun : m.result s = .ok (a, s')) : Q a s' := by
  revert h hrun
  simp only [wp, result]
  rcases m s with ⟨e | b, t⟩ <;> rintro h ⟨⟩
  exact h

theorem of_wp_result_error {Q : α → σ → Prop} {E : ε → σ → Prop} {e : ε} (h : wp m Q E s)
    (hrun : m.result s = .error e) : ∃ s', E e s' := by
  revert h hrun
  simp only [wp, result]
  rcases m s with ⟨e' | b, t⟩ <;> rintro h ⟨⟩
  exact ⟨t, h⟩

theorem result_bind {a : α} {s' : σ} (h : m.result s = .ok (a, s')) :
    (m >>= f).result s = (f a).result s' := by
  revert h
  simp only [result, bind, andThen]
  rcases m s with ⟨e | b, t⟩ <;> rintro ⟨⟩
  rfl

theorem result_check_bind {a : α} : (check (.ok a) >>= f).result s = (f a).result s := rfl

theorem result_gets_bind {g : σ → α} : (gets g >>= f).result s = (f (g s)).result s := rfl

theorem result_require_bind {p : Prop} [Decidable p] {e : ε} {f : Unit → Effect σ ε β} (h : p) :
    (require p e >>= f).result s = (f ()).result s := by
  rw [require, if_pos h]
  rfl

end Result

end Effect

end AstraShell.Lib
