import Mathlib.Logic.Relation
import AstraShell.Terminal.Lease
import AstraShell.TerminalState.Schema

/-!
# The geometry of a terminal

A terminal of `terminal.rs` stores its geometry three times: the engine has a grid, the kernel has
the window size of the PTY, and `TerminalInfo` has what clients are told. `Terminal::resize` changes
them one after the other, the engine first, so that output that answers the new window size is
parsed with the new grid. When the call on the PTY fails, `resize` returns with the grid changed.

`resize_all_or_nothing`: the three agree after every command, and an error changes none of them, as
long as the PTY only fails for a geometry that is already there. `failed_pty_splits_geometry`:
otherwise the grid is left with a size that neither the kernel nor the clients know.
-/

set_option autoImplicit false

namespace AstraShell.Terminal

open Lib

/-- `TerminalSize`, without the resolution, which is always zero. -/
structure TerminalSize where
  rows : Nat
  cols : Nat
  pixelWidth : Nat
  pixelHeight : Nat

structure PtySize where
  rows : UInt16
  cols : UInt16
  pixelWidth : UInt16
  pixelHeight : UInt16

structure ResizeRequest where
  leaseId : String
  sequence : Nat
  rows : Nat
  cols : Nat
  pixelWidth : Nat
  pixelHeight : Nat

namespace ResizeRequest

def command (r : ResizeRequest) : Command :=
  ⟨r.leaseId, r.sequence, .resize r.rows r.cols r.pixelWidth r.pixelHeight⟩

def ptySize (r : ResizeRequest) : PtySize where
  rows := .ofNat r.rows
  cols := .ofNat r.cols
  pixelWidth := .ofNat r.pixelWidth
  pixelHeight := .ofNat r.pixelHeight

/-- What the request passes to the engine is within the limits of a terminal state. -/
theorem dimensions_of_check {r : ResizeRequest} (h : r.command.check = .ok ()) :
    (1 ≤ r.rows ∧ r.rows ≤ 1000) ∧ 1 ≤ r.cols ∧ r.cols ≤ 1000 := by
  obtain ⟨⟨⟩, hdimensions, -⟩ := bind_eq_ok_iff.1 h
  exact ensure_eq_ok_iff.1 hdimensions

end ResizeRequest

/-- `TerminalEngine::resize`; a screen has at least one row and one column. -/
def engineResize (rows columns pixelWidth pixelHeight : Nat) : Except String TerminalSize := do
  ensure ((1 ≤ rows ∧ rows ≤ TerminalState.maxDimension) ∧
      1 ≤ columns ∧ columns ≤ TerminalState.maxDimension)
    "terminal dimensions are out of range"
  return ⟨max rows 1, max columns 1, pixelWidth, pixelHeight⟩

/-- The three places of a terminal that hold its geometry. What clients are told is part of the
input state. -/
structure SizedTerminal where
  input : InputState
  engine : TerminalSize
  pty : PtySize

namespace SizedTerminal

/-- A terminal that was just spawned. -/
def spawned (rows cols : Nat) : SizedTerminal where
  input := .spawned rows cols
  engine := ⟨rows, cols, 0, 0⟩
  pty := ⟨.ofNat rows, .ofNat cols, 0, 0⟩

def gridSize (t : SizedTerminal) : Nat × Nat := (t.engine.rows, t.engine.cols)

def infoSize (t : SizedTerminal) : Nat × Nat := (t.input.rows, t.input.cols)

def windowSize (t : SizedTerminal) : Nat × Nat := (t.pty.rows.toNat, t.pty.cols.toNat)

/-- `Terminal::resize` at the instant `now`; `pty` is what the call on the PTY returns. -/
def resize (t : SizedTerminal) (r : ResizeRequest) (now : Nat) (pty : Except String Unit) :
    Except String Unit × SizedTerminal :=
  match r.command.check with
  | .error e => (.error e, t)
  | .ok _ =>
    -- `validate_lease` drops a lease that is due before it looks for the one of the command.
    let input := t.input.expireLeaseIfDueAt r.leaseId now
    match input.validateLease r.leaseId r.sequence with
    | .error e => (.error e, { t with input := input })
    | .ok _ =>
      match engineResize r.rows r.cols r.pixelWidth r.pixelHeight with
      | .error e => (.error e, { t with input := input })
      | .ok engine =>
        match pty with
        | .error e => (.error e, { t with input := input, engine := engine })
        | .ok _ =>
          let (result, input) := input.resize r.leaseId r.sequence r.rows r.cols .done
          (result, ⟨input, engine, r.ptySize⟩)

/-- The request comes as far as the engine and the PTY. -/
def Admits (t : SizedTerminal) (r : ResizeRequest) (now : Nat) : Prop :=
  r.command.check = .ok () ∧
    ∃ lease, (t.input.expireLeaseIfDueAt r.leaseId now).validateLease r.leaseId r.sequence =
      .ok lease

variable {t t' : SizedTerminal} {r : ResizeRequest} {now : Nat} {pty result : Except String Unit}

/-- Everything a resize can do. -/
inductive Resizes (t : SizedTerminal) (r : ResizeRequest) (now : Nat) :
    Except String Unit → Except String Unit → SizedTerminal → Prop
  /-- The request is refused; at most its own lease has ended. -/
  | refused (pty : Except String Unit) (e : String) (input : InputState)
      (hinput : input = t.input ∨ input = t.input.expireLeaseIfDueAt r.leaseId now) :
      Resizes t r now pty (.error e) { t with input := input }
  | failed (e : String) (hadmits : t.Admits r now) :
      Resizes t r now (.error e) (.error e) { t with
        input := t.input.expireLeaseIfDueAt r.leaseId now
        engine := ⟨r.rows, r.cols, r.pixelWidth, r.pixelHeight⟩ }
  | done (lease : Option Lease) (hadmits : t.Admits r now) :
      Resizes t r now (.ok ()) (.ok ()) {
        input := { t.input.expireLeaseIfDueAt r.leaseId now with
          rows := r.rows, cols := r.cols, lease := lease }
        engine := ⟨r.rows, r.cols, r.pixelWidth, r.pixelHeight⟩
        pty := r.ptySize }

theorem resize_cases (h : t.resize r now pty = (result, t')) : t.Resizes r now pty result t' := by
  unfold resize at h
  split at h
  · cases h
    exact .refused _ _ _ (.inl rfl)
  next hcheck =>
    dsimp only at h
    split at h
    · cases h
      exact .refused _ _ _ (.inr rfl)
    next lease hlease =>
      have hadmits : t.Admits r now := ⟨hcheck, lease, hlease⟩
      have hdimensions := ResizeRequest.dimensions_of_check hcheck
      rw [engineResize, TerminalState.maxDimension, ensure_bind_of _ _ hdimensions,
        max_eq_left hdimensions.1.1, max_eq_left hdimensions.2.1] at h
      cases pty with
      | error e =>
        cases h
        exact .failed _ hadmits
      | ok =>
        dsimp only [InputState.resize] at h
        rw [hlease] at h
        cases h
        exact .done _ hadmits

/-! ## Agreement -/

/-- The three copies of the geometry are the same. -/
def Agrees (t : SizedTerminal) : Prop := t.gridSize = t.infoSize ∧ t.windowSize = t.infoSize

instance (t : SizedTerminal) : Decidable t.Agrees := inferInstanceAs (Decidable (_ ∧ _))

/-- No copy of the geometry is changed. -/
def SameSizes (t t' : SizedTerminal) : Prop :=
  t'.gridSize = t.gridSize ∧ t'.infoSize = t.infoSize ∧ t'.windowSize = t.windowSize

instance (t t' : SizedTerminal) : Decidable (t.SameSizes t') :=
  inferInstanceAs (Decidable (_ ∧ _ ∧ _))

/-- The PTY does not fail, or it is asked for the geometry that the grid already has. -/
def Spared (t : SizedTerminal) (r : ResizeRequest) (now : Nat) (pty : Except String Unit) : Prop :=
  t.Admits r now → pty = .ok () ∨ (r.rows, r.cols) = t.gridSize

theorem Agrees.of_sameSizes (h : t.Agrees) (hsame : t.SameSizes t') : t'.Agrees := by
  obtain ⟨hgrid, hinfo, hwindow⟩ := hsame
  exact ⟨hgrid.trans (h.1.trans hinfo.symm), hwindow.trans (h.2.trans hinfo.symm)⟩

theorem toNat_ofNat_of_le {n : Nat} (h : n ≤ 1000) : (UInt16.ofNat n).toNat = n := by
  rw [UInt16.toNat_ofNat', Nat.mod_eq_of_lt]
  omega

/-- The end of a lease does not touch the geometry. -/
theorem infoSize_expire (t : SizedTerminal) (leaseId : String) (now : Nat) :
    ({ t with input := t.input.expireLeaseIfDueAt leaseId now } : SizedTerminal).infoSize =
      t.infoSize := by
  unfold InputState.expireLeaseIfDueAt
  split
  · rfl
  · split <;> rfl

/-- A spared resize that fails changes no copy of the geometry. -/
theorem sameSizes_of_error (hspared : t.Spared r now pty) {e : String}
    (herror : (t.resize r now pty).1 = .error e) : t.SameSizes (t.resize r now pty).2 := by
  cases hresize : t.resize r now pty with
  | mk result t' =>
    rw [hresize] at herror
    cases resize_cases hresize with
    | refused pty e input hinput =>
      refine ⟨rfl, ?_, rfl⟩
      rcases hinput with rfl | rfl
      · rfl
      · exact infoSize_expire t r.leaseId now
    | failed e hadmits =>
      rcases hspared hadmits with hok | hsize
      · cases hok
      · exact ⟨hsize, infoSize_expire t r.leaseId now, rfl⟩
    | done => cases herror

/-- A resize that is done writes all three copies. -/
theorem agrees_of_ok (hok : (t.resize r now pty).1 = .ok ()) :
    (t.resize r now pty).2.Agrees ∧ (t.resize r now pty).2.gridSize = (r.rows, r.cols) := by
  cases hresize : t.resize r now pty with
  | mk result t' =>
    rw [hresize] at hok
    cases resize_cases hresize with
    | refused => cases hok
    | failed => cases hok
    | done lease hadmits =>
      obtain ⟨⟨-, hrows⟩, -, hcols⟩ := ResizeRequest.dimensions_of_check hadmits.1
      refine ⟨⟨rfl, ?_⟩, rfl⟩
      dsimp only [windowSize, infoSize, ResizeRequest.ptySize]
      rw [toNat_ofNat_of_le hrows, toNat_ofNat_of_le hcols]

theorem Agrees.resize (h : t.Agrees) (hspared : t.Spared r now pty) :
    (t.resize r now pty).2.Agrees := by
  cases hresult : (t.resize r now pty).1 with
  | error e => exact h.of_sameSizes (sameSizes_of_error hspared hresult)
  | ok => exact (agrees_of_ok hresult).1

/-! ## Runs -/

/-- A step in the life of a terminal: a resize, or anything that happens to its input lease. -/
inductive Step (t : SizedTerminal) : SizedTerminal → Prop
  | resize (r : ResizeRequest) (now : Nat) (pty : Except String Unit)
      (hspared : t.Spared r now pty) : Step t (t.resize r now pty).2
  | lease (input : InputState) (hinfo : (input.rows, input.cols) = t.infoSize) :
      Step t { t with input := input }

theorem Agrees.step (h : t.Agrees) (hstep : Step t t') : t'.Agrees := by
  cases hstep with
  | resize r now pty hspared => exact h.resize hspared
  | lease input hinfo => exact h.of_sameSizes ⟨rfl, hinfo, rfl⟩

theorem Agrees.run (h : t.Agrees) (hrun : Relation.ReflTransGen Step t t') : t'.Agrees := by
  induction hrun with
  | refl => exact h
  | tail _ hstep ih => exact ih.step hstep

/-- After any commands, of which none failed at the PTY with another geometry than the current one,
grid, info and window have the same size; so they have after the next command, and if that one
returns an error they are what they were before. -/
theorem resize_all_or_nothing {rows cols : Nat} (hrows : rows ≤ 1000) (hcols : cols ≤ 1000)
    (hrun : Relation.ReflTransGen Step (spawned rows cols) t) :
    t.Agrees ∧ ∀ r now pty, t.Spared r now pty → (t.resize r now pty).2.Agrees ∧
      ∀ e, (t.resize r now pty).1 = .error e → t.SameSizes (t.resize r now pty).2 := by
  have hspawned : (spawned rows cols).Agrees := by
    refine ⟨rfl, ?_⟩
    rw [windowSize, spawned, toNat_ofNat_of_le hrows, toNat_ofNat_of_le hcols]
    rfl
  have hagrees : t.Agrees := hspawned.run hrun
  refine ⟨hagrees, fun r now pty hspared => ⟨hagrees.resize hspared, fun e herror => ?_⟩⟩
  exact sameSizes_of_error hspared herror

/-- A terminal of 24 rows and 80 columns whose input belongs to a client. -/
def leased : SizedTerminal :=
  { spawned 24 80 with
    input := { InputState.spawned 24 80 with lease := some ⟨"lease", "token", 0, none⟩ } }

def larger : ResizeRequest := ⟨"lease", 1, 30, 100, 0, 0⟩

theorem leased_resized : (leased.resize larger 0 (.ok ())).2.Agrees ∧
    (leased.resize larger 0 (.ok ())).2.gridSize = (30, 100) :=
  ⟨((resize_all_or_nothing (by decide) (by decide) (.single (.lease _ rfl) :
      Relation.ReflTransGen Step (spawned 24 80) leased)).2 larger 0 (.ok ())
        fun _ => .inl rfl).1, by decide⟩

/-- The PTY fails: the command returns the error, and only the grid is larger. -/
theorem failed_pty_splits_geometry :
    Relation.ReflTransGen Step (spawned 24 80) leased ∧
    ∃ e, (leased.resize larger 0 (.error "ioctl failed")).1 = .error e ∧
      ¬ (leased.resize larger 0 (.error "ioctl failed")).2.Agrees ∧
      ¬ leased.SameSizes (leased.resize larger 0 (.error "ioctl failed")).2 :=
  ⟨.single (.lease _ rfl), "ioctl failed", by decide, by decide, by decide⟩

end SizedTerminal

end AstraShell.Terminal
