import Mathlib.Algebra.Ring.Nat

/-!
# Checked computations

Fallible code returns `Except ε α`. A guard is `ensure`, an absent value is `context`, and a
sequence of guards is a `do` block. The lemmas invert such a block: it returns `ok` exactly when
every guard holds, so proofs read the guards off a result instead of unfolding the block.
-/

set_option autoImplicit false

namespace AstraShell.Lib

universe u v

variable {ε : Type u} {α β : Type v}

/-- A guard: continue when `p` holds, fail with `e` otherwise. -/
def ensure (p : Prop) [Decidable p] (e : ε) : Except ε PUnit.{v + 1} :=
  if p then .ok ⟨⟩ else .error e

/-- The value of an option, or the error `e` when it is absent. -/
def context (o : Option α) (e : ε) : Except ε α :=
  match o with
  | some a => .ok a
  | none => .error e

/-- Prefix the error of a failed computation with a description of what was attempted. -/
def withContext (msg : String) (x : Except String α) : Except String α :=
  match x with
  | .ok a => .ok a
  | .error e => .error (msg ++ ": " ++ e)

/-- Addition of `bits`-bit unsigned integers that fails on overflow. -/
def checkedAdd (bits a b : Nat) : Option Nat := if a + b < 2 ^ bits then some (a + b) else none

/-- Multiplication of `bits`-bit unsigned integers that fails on overflow. -/
def checkedMul (bits a b : Nat) : Option Nat := if a * b < 2 ^ bits then some (a * b) else none

/-- `checked_sub`: subtraction of unsigned integers that fails below zero. -/
def checkedSub (a b : Nat) : Option Nat := if b ≤ a then some (a - b) else none

/-- A conversion to a `bits`-bit unsigned integer. -/
def tryFrom (bits n : Nat) : Except String Nat :=
  if n < 2 ^ bits then .ok n else .error "out of range integral type conversion attempted"

/-- A computation that is only made in some cases. -/
def transpose : Option (Except ε α) → Except ε (Option α)
  | none => .ok none
  | some (.ok a) => .ok (some a)
  | some (.error e) => .error e

/-- The value of a computation that succeeds. -/
def okValue (x : Except ε α) (h : x.isOk = true) : α :=
  match x, h with
  | .ok a, _ => a

/-- Every element passes the check `f`, in order; the first failure is the result. -/
def checkEach {γ : Type u} (f : γ → Except ε PUnit.{v + 1}) : List γ → Except ε PUnit.{v + 1}
  | [] => .ok ⟨⟩
  | c :: cs =>
    match f c with
    | .error e => .error e
    | .ok _ => checkEach f cs

/-- A value that is present passes the check `f`. -/
def checkSome {γ : Type u} (o : Option γ) (f : γ → Except ε PUnit.{v + 1}) :
    Except ε PUnit.{v + 1} :=
  match o with
  | none => .ok ⟨⟩
  | some c => f c

@[simp] theorem ensure_eq_ok_iff {p : Prop} [Decidable p] {e : ε} {a : PUnit.{v + 1}} :
    ensure p e = .ok a ↔ p := by
  unfold ensure
  split <;> simp_all

@[simp] theorem context_eq_ok_iff {o : Option α} {e : ε} {a : α} :
    context o e = .ok a ↔ o = some a := by
  cases o <;> simp [context]

@[simp] theorem withContext_eq_ok_iff (msg : String) (x : Except String α) (a : α) :
    withContext msg x = .ok a ↔ x = .ok a := by
  cases x <;> simp [withContext]

theorem eq_ok_okValue (x : Except ε α) (h : x.isOk = true) : x = .ok (okValue x h) := by
  cases x with
  | error e => cases h
  | ok a => rfl

theorem checkedAdd_eq_some_iff {bits a b c : Nat} :
    checkedAdd bits a b = some c ↔ a + b < 2 ^ bits ∧ a + b = c := by
  unfold checkedAdd
  by_cases h : a + b < 2 ^ bits <;> simp [h]

theorem checkedMul_eq_some_iff (bits a b c : Nat) :
    checkedMul bits a b = some c ↔ a * b < 2 ^ bits ∧ a * b = c := by
  unfold checkedMul
  by_cases h : a * b < 2 ^ bits <;> simp [h]

@[simp] theorem tryFrom_eq_ok_iff (bits n m : Nat) :
    tryFrom bits n = .ok m ↔ n < 2 ^ bits ∧ n = m := by
  unfold tryFrom
  by_cases h : n < 2 ^ bits <;> simp [h]

theorem mapError_eq_ok_iff {δ : Type u} (f : ε → δ) (x : Except ε α) (a : α) :
    x.mapError f = .ok a ↔ x = .ok a := by
  cases x <;> simp [Except.mapError]

/-- A sequence returns `ok` exactly when both parts do. -/
@[simp] theorem bind_eq_ok_iff {ε : Type u} {α β : Type v} {x : Except ε α} {f : α → Except ε β}
    {b : β} : (x >>= f) = .ok b ↔ ∃ a, x = .ok a ∧ f a = .ok b := by
  cases x with
  | error e | ok a => simp [bind, Except.bind]

@[simp] theorem pure_eq_ok_iff {a b : α} : (pure a : Except ε α) = .ok b ↔ a = b := by
  simp [pure, Except.pure]

@[simp] theorem checkEach_eq_ok_iff {γ : Type u} (f : γ → Except ε PUnit.{v + 1}) (cs : List γ)
    (a : PUnit.{v + 1}) : checkEach f cs = .ok a ↔ ∀ c ∈ cs, f c = .ok ⟨⟩ := by
  induction cs with
  | nil => simp [checkEach]
  | cons c cs ih =>
    rw [checkEach]
    cases hc : f c with
    | error e => simp [hc]
    | ok u => simp [ih, hc]

@[simp] theorem checkSome_eq_ok_iff {γ : Type u} (o : Option γ) (f : γ → Except ε PUnit.{v + 1})
    (a : PUnit.{v + 1}) : checkSome o f = .ok a ↔ ∀ c ∈ o, f c = .ok ⟨⟩ := by
  cases o <;> simp [checkSome]

/-- A failed guard makes the whole sequence fail with its own error. -/
theorem ensure_bind_of_not (p : Prop) [Decidable p] (e : ε) (hp : ¬ p)
    (f : PUnit.{v + 1} → Except ε β) : (ensure p e >>= f) = .error e := by
  simp [ensure, hp, bind, Except.bind]

/-- A guard that holds disappears from a sequence. -/
@[simp] theorem ensure_bind_of (p : Prop) [Decidable p] (e : ε) (hp : p)
    (f : PUnit.{v + 1} → Except ε β) : (ensure p e >>= f) = f ⟨⟩ := by
  simp [ensure, hp, bind, Except.bind]

/-! ## Failures -/

theorem ensure_eq_error_iff (p : Prop) [Decidable p] (e e' : ε) :
    (ensure p e : Except ε PUnit.{v + 1}) = .error e' ↔ ¬ p ∧ e = e' := by
  unfold ensure
  split <;> simp_all

theorem context_eq_error_iff (o : Option α) (e e' : ε) :
    context o e = .error e' ↔ o = none ∧ e = e' := by
  cases o <;> simp [context]

theorem withContext_eq_error_iff (msg e' : String) (x : Except String α) :
    withContext msg x = .error e' ↔ ∃ e, x = .error e ∧ msg ++ ": " ++ e = e' := by
  cases x <;> simp [withContext]

/-- A sequence fails when one part fails. -/
theorem bind_eq_error_iff {ε : Type u} {α β : Type v} {x : Except ε α} {f : α → Except ε β}
    {e : ε} : (x >>= f) = .error e ↔ x = .error e ∨ ∃ a, x = .ok a ∧ f a = .error e := by
  cases x with
  | error e | ok a => simp [bind, Except.bind]

end AstraShell.Lib
