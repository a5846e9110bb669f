import AstraShell.TerminalState.Validate

/-!
# The arithmetic of the state check

`validate` as a build with overflow checks runs it: every plain addition and every index of the
source may stop the program with a panic (`strictValidate`). All of them are covered by earlier
checks but one, the addition of the cursor's column to the offset of its row. Exactly where every
such sum that the check comes to fits in 32 bits (`OffsetsFit`), the check does not panic and an
accepted cursor stands where its row and column say (`validate_sound`). Otherwise a build that wraps
may accept a cursor that stands nowhere near its row (`wrapped_cursor_accepted`).
-/

set_option autoImplicit false

namespace AstraShell.TerminalState

open Lib Lib.Wire

/-- Why the check ends early. -/
inductive Stop where
  | refused (message : String)
  | panicked (message : String)
  deriving DecidableEq

namespace Stop

/-- A check that cannot panic. -/
def lift {α : Type} : Except String α → Except Stop α
  | .ok a => .ok a
  | .error message => .error (.refused message)

/-- A plain addition of unsigned integers. -/
def plainAdd (bits a b : Nat) : Except Stop Nat :=
  if a + b < 2 ^ bits then .ok (a + b) else .error (.panicked "attempt to add with overflow")

/-- A plain subtraction of unsigned integers. -/
def plainSub (a b : Nat) : Except Stop Nat :=
  if b ≤ a then .ok (a - b) else .error (.panicked "attempt to subtract with overflow")

/-- A plain index into a vector. -/
def index {α : Type} (as : List α) (i : Nat) : Except Stop α :=
  match as[i]? with
  | some a => .ok a
  | none => .error (.panicked "index out of bounds")

end Stop

open Stop

/-- `cursorAnchors`, with a plain addition and a plain index. -/
def strictAnchors (cursor : Cursor) (screen : Screen) (state : State) :
    Except Stop (Anchor × Anchor) := do
  lift (cursorFields cursor state)
  let viewportIndex ← plainAdd 64 screen.viewportStart cursor.y
  let row ← index screen.includedRows viewportIndex
  let rowStart ← lift (requiredAnchor row.start "cursor row anchor")
  let anchor ← lift (requiredAnchor cursor.anchor "cursor anchor")
  lift (ensure (anchor.logicalLineId = rowStart.logicalLineId)
    "cursor anchor has the wrong logical line ID")
  return (rowStart, anchor)

def strictCursor (cursor : Cursor) (screen : Screen) (state : State) : Except Stop Unit := do
  let (rowStart, anchor) ← strictAnchors cursor screen state
  let offset ← plainAdd 32 rowStart.cellOffset cursor.x
  lift (ensure (anchor.cellOffset = offset) "cursor anchor has the wrong cell offset")

/-- The saved cursor, when there is one. -/
def strictSaved (screen : Screen) (state : State) : Except Stop Unit :=
  match screen.savedCursor with
  | none => .ok ()
  | some saved => strictCursor saved screen state

section Screens

variable (graphemeCount : String → Nat) (screen : Screen) (alternate : Bool) (state : State)
  (styleIds hyperlinkIds : List Nat) (cellCount : Nat)

/-- `screenHead`, with plain indices. -/
def strictHead : Except Stop (Nat × Cursor) := do
  let (includedStart, includedEnd) ← lift (screenRange screen alternate state)
  let firstRow ← index screen.includedRows 0
  let firstStart ← lift (requiredAnchor firstRow.start "first row anchor")
  let lastIndex ← plainSub screen.includedRows.length 1
  let lastRow ← index screen.includedRows lastIndex
  let lastStart ← lift (requiredAnchor lastRow.start "last row anchor")
  lift (ensure (firstStart = includedStart ∧ lastStart = includedEnd)
    "included row boundary anchors do not match rows")
  let cellCount ← lift (validateRows graphemeCount screen.includedRows state.cols state.generation
    styleIds hyperlinkIds cellCount)
  let cursor ← lift (requiredCursor screen.cursor "cursor")
  return (cellCount, cursor)

def strictScreen : Except Stop Nat := do
  let (cellCount, cursor) ←
    strictHead graphemeCount screen alternate state styleIds hyperlinkIds cellCount
  strictCursor cursor screen state
  strictSaved screen state
  return cellCount

end Screens

/-- `bothScreens`, with a plain addition. -/
def strictBoth (state : State) : Except Stop (Screen × Screen) := do
  let primary ← lift (context state.primary "primary screen is missing")
  let alternate ← lift (context state.alternate "alternate screen is missing")
  let included ← plainAdd 64 primary.includedRows.length alternate.includedRows.length
  lift (ensure (included ≤ maxIncludedRows) "too many included terminal rows")
  return (primary, alternate)

/-- `validate` in a build with overflow checks; nothing in `validateHead` can panic. -/
def strictValidate (graphemeCount : String → Nat) (state : State) : Except Stop Unit := do
  let (styleIds, hyperlinkIds) ← lift (validateHead state)
  let (primary, alternate) ← strictBoth state
  let cellCount ← strictScreen graphemeCount primary false state styleIds hyperlinkIds 0
  let cellCount ← strictScreen graphemeCount alternate true state styleIds hyperlinkIds cellCount
  lift (ensure (cellCount ≤ maxCells) "too many terminal cells")

/-! ## Sums that fit -/

/-- If the check comes to the sum of the cursor's column and the offset of its row, the sum fits. -/
def Cursor.Fits (cursor : Cursor) (screen : Screen) (state : State) : Prop :=
  ∀ anchors, cursorAnchors cursor screen state = .ok anchors →
    anchors.1.cellOffset + cursor.x < 2 ^ 32

/-- The sums of a screen: the saved cursor is checked when the cursor was accepted. -/
def Screen.Fits (graphemeCount : String → Nat) (screen : Screen) (alternate : Bool) (state : State)
    (styleIds hyperlinkIds : List Nat) (cellCount : Nat) : Prop :=
  ∀ head, screenHead graphemeCount screen alternate state styleIds hyperlinkIds cellCount =
    .ok head →
    head.2.Fits screen state ∧
      ∀ u, validateCursor head.2 screen state = .ok u →
        ∀ saved, screen.savedCursor = some saved → saved.Fits screen state

/-- Every sum that the check of the state comes to fits: the alternate screen is checked when the
primary one was accepted. -/
def State.OffsetsFit (graphemeCount : String → Nat) (state : State) : Prop :=
  ∀ ids, validateHead state = .ok ids → ∀ screens, bothScreens state = .ok screens →
    screens.1.Fits graphemeCount false state ids.1 ids.2 0 ∧
      ∀ n, validateScreen graphemeCount screens.1 false state ids.1 ids.2 0 = .ok n →
        screens.2.Fits graphemeCount true state ids.1 ids.2 n

section Follows

variable {α β : Type}

/-- The strict check is the plain one where the sums fit, and panics where one does not. -/
structure Follows (fits : Prop) (m : Except Stop α) (m' : Except String α) : Prop where
  equal : fits → m = lift m'
  panics : ¬ fits → ∃ message, m = .error (.panicked message)

variable {P : Prop} {Q : α → Prop} {m : Except Stop α} {m' : Except String α}
  {f : α → Except Stop β} {f' : α → Except String β}

/-- Two sequences agree when their first parts do, and what follows does after a success. -/
theorem bind_eq_lift (hm : m = lift m') (hf : ∀ a, m' = .ok a → f a = lift (f' a)) :
    m >>= f = lift (m' >>= f') := by
  subst hm
  cases m' with
  | error e => rfl
  | ok a => exact hf a rfl

/-- What comes after a check that cannot panic is come to when the check succeeds. -/
theorem Follows.bind_lift (hm : m = lift m') (hf : ∀ a, m' = .ok a → Follows (Q a) (f a) (f' a)) :
    Follows (∀ a, m' = .ok a → Q a) (m >>= f) (m' >>= f') := by
  subst hm
  cases m' with
  | error e => exact ⟨fun _ => rfl, fun h => absurd nofun h⟩
  | ok a =>
    obtain ⟨hequal, hpanics⟩ := hf a rfl
    refine ⟨fun h => hequal (h a rfl), fun h => hpanics fun hQ => h ?_⟩
    rintro _ ⟨⟩
    exact hQ

theorem Follows.bind (hm : Follows P m m') (hf : ∀ a, m' = .ok a → Follows (Q a) (f a) (f' a)) :
    Follows (P ∧ ∀ a, m' = .ok a → Q a) (m >>= f) (m' >>= f') := by
  by_cases hP : P
  · have hrest := Follows.bind_lift (hm.equal hP) hf
    exact ⟨fun h => hrest.equal h.2, fun h => hrest.panics fun hQ => h ⟨hP, hQ⟩⟩
  · obtain ⟨message, hpanics⟩ := hm.panics hP
    exact ⟨fun h => absurd h.1 hP, fun _ => ⟨message, by rw [hpanics]; rfl⟩⟩

/-- A check after which nothing can panic. -/
theorem Follows.bind_eq (hm : Follows P m m') (hf : ∀ a, f a = lift (f' a)) :
    Follows P (m >>= f) (m' >>= f') := by
  refine ⟨fun hP => bind_eq_lift (hm.equal hP) fun a _ => hf a, fun hP => ?_⟩
  obtain ⟨message, hpanics⟩ := hm.panics hP
  exact ⟨message, by rw [hpanics]; rfl⟩

theorem plainAdd_of_lt {bits a b : Nat} (h : a + b < 2 ^ bits) : plainAdd bits a b = .ok (a + b) :=
  if_pos h

theorem index_of_getElem? {as : List α} {i : Nat} {a : α} (h : as[i]? = some a) :
    index as i = .ok a := by
  rw [index, h]

end Follows

/-! ## The checks -/

section Strict

variable {graphemeCount : String → Nat} {state : State} {screen : Screen} {cursor : Cursor}
  {alternate : Bool} {styleIds hyperlinkIds : List Nat} {cellCount : Nat}

/-- There are rows, and the viewport is among them. -/
theorem screenRange_eq_ok {range : Anchor × Anchor}
    (h : screenRange screen alternate state = .ok range) :
    screen.includedRows ≠ [] ∧ screen.viewportStart + state.rows < 2 ^ 64 ∧
      screen.viewportStart + state.rows ≤ screen.includedRows.length := by
  simp only [screenRange, bind_eq_ok_iff, ensure_eq_ok_iff, context_eq_ok_iff,
    checkedAdd_eq_some_iff] at h
  obtain ⟨-, hne, -, -, _, ⟨hfits, rfl⟩, -, hincluded, -⟩ := h
  exact ⟨hne, hfits, hincluded⟩

/-- The viewport is included, so that its rows are there. -/
theorem strictAnchors_eq (hfits : screen.viewportStart + state.rows < 2 ^ 64)
    (hincluded : screen.viewportStart + state.rows ≤ screen.includedRows.length) :
    strictAnchors cursor screen state = lift (cursorAnchors cursor screen state) := by
  refine bind_eq_lift rfl fun _ hfields => ?_
  simp only [cursorFields, bind_eq_ok_iff, ensure_eq_ok_iff] at hfields
  obtain ⟨-, ⟨-, hy⟩, -⟩ := hfields
  have hlt : screen.viewportStart + cursor.y < screen.includedRows.length := by omega
  have hrow := List.getElem?_eq_getElem hlt
  rw [plainAdd_of_lt (by omega)]
  change index screen.includedRows (screen.viewportStart + cursor.y) >>= _ = _
  rw [index_of_getElem? hrow, hrow]
  exact bind_eq_lift rfl fun row _ => bind_eq_lift rfl fun start _ =>
    bind_eq_lift rfl fun anchor _ => bind_eq_lift rfl fun _ _ => rfl

theorem strictCursor_follows (hfits : screen.viewportStart + state.rows < 2 ^ 64)
    (hincluded : screen.viewportStart + state.rows ≤ screen.includedRows.length) :
    Follows (cursor.Fits screen state) (strictCursor cursor screen state)
      (validateCursor cursor screen state) := by
  refine Follows.bind_lift (strictAnchors_eq hfits hincluded) fun anchors _ => ⟨fun hlt => ?_, ?_⟩
  · dsimp only
    rw [plainAdd_of_lt hlt, Nat.mod_eq_of_lt hlt]
    rfl
  · intro hge
    dsimp only
    rw [plainAdd, if_neg hge]
    exact ⟨_, rfl⟩

theorem strictHead_eq :
    strictHead graphemeCount screen alternate state styleIds hyperlinkIds cellCount =
      lift (screenHead graphemeCount screen alternate state styleIds hyperlinkIds cellCount) := by
  refine bind_eq_lift rfl fun range hrange => ?_
  -- There is a first and a last row.
  obtain ⟨hne, -⟩ := screenRange_eq_ok hrange
  have hpos : 0 < screen.includedRows.length := List.length_pos_iff.2 hne
  have hfirst : index screen.includedRows 0 = .ok (screen.includedRows.head hne) := by
    apply index_of_getElem?
    rw [← List.head?_eq_getElem?, List.head?_eq_some_head hne]
  have hlast : index screen.includedRows (screen.includedRows.length - 1) =
      .ok (screen.includedRows.getLast hne) := by
    apply index_of_getElem?
    rw [← List.getLast?_eq_getElem?, List.getLast?_eq_some_getLast hne]
  rw [hfirst, List.head?_eq_some_head hne]
  refine bind_eq_lift rfl fun _ _ => ?_
  rw [plainSub, if_pos (by omega)]
  change index screen.includedRows (screen.includedRows.length - 1) >>= _ = _
  rw [hlast, List.getLast?_eq_some_getLast hne]
  exact bind_eq_lift rfl fun _ _ => bind_eq_lift rfl fun _ _ => bind_eq_lift rfl fun _ _ =>
    bind_eq_lift rfl fun _ _ => rfl

theorem screenHead_eq_ok {head : Nat × Cursor}
    (h : screenHead graphemeCount screen alternate state styleIds hyperlinkIds cellCount =
      .ok head) :
    (∃ range, screenRange screen alternate state = .ok range) ∧ screen.cursor = some head.2 := by
  obtain ⟨range, hrange, hrest⟩ := bind_eq_ok_iff.1 h
  simp only [bind_eq_ok_iff, requiredCursor, context_eq_ok_iff, pure_eq_ok_iff] at hrest
  obtain ⟨-, -, -, -, -, -, -, -, cursor, hcursor, rfl⟩ := hrest
  exact ⟨⟨range, hrange⟩, hcursor⟩

theorem strictScreen_follows :
    Follows (screen.Fits graphemeCount alternate state styleIds hyperlinkIds cellCount)
      (strictScreen graphemeCount screen alternate state styleIds hyperlinkIds cellCount)
      (validateScreen graphemeCount screen alternate state styleIds hyperlinkIds cellCount) := by
  refine Follows.bind_lift strictHead_eq fun head hhead => ?_
  obtain ⟨⟨range, hrange⟩, -⟩ := screenHead_eq_ok hhead
  obtain ⟨-, hfits, hincluded⟩ := screenRange_eq_ok hrange
  refine (strictCursor_follows hfits hincluded).bind fun _ _ => ?_
  have hsaved : Follows (∀ saved, screen.savedCursor = some saved → saved.Fits screen state)
      (strictSaved screen state)
      (checkSome screen.savedCursor fun saved => validateCursor saved screen state) := by
    unfold strictSaved
    cases screen.savedCursor with
    | none => exact ⟨fun _ => rfl, fun h => absurd nofun h⟩
    | some saved => simpa [checkSome] using strictCursor_follows hfits hincluded
  exact hsaved.bind_eq fun _ => rfl

/-- A vector takes a byte for each of its members. -/
theorem length_le_repeatedField {α : Type} (tag : Nat) (len : α → Nat) (as : List α) :
    as.length ≤ repeatedField tag len as := by
  unfold repeatedField
  induction as with
  | nil => exact Nat.zero_le _
  | cons a as ih =>
    have hone : 1 ≤ messageField tag (len a) := by
      unfold messageField keyLen varintLen
      omega
    simp only [List.map_cons, List.sum_cons, List.length_cons]
    omega

/-- A state that is short enough has few rows. -/
theorem includedRows_le_encodedLen {primary alternate : Screen} (hp : state.primary = some primary)
    (ha : state.alternate = some alternate) :
    primary.includedRows.length + alternate.includedRows.length ≤ state.encodedLen := by
  have hprimary := length_le_repeatedField 1 Row.encodedLen primary.includedRows
  have halternate := length_le_repeatedField 1 Row.encodedLen alternate.includedRows
  unfold State.encodedLen
  rw [hp, ha]
  simp only [optionField, messageField, Screen.encodedLen]
  omega

theorem strictBoth_eq {ids : List Nat × List Nat} (hhead : validateHead state = .ok ids) :
    strictBoth state = lift (bothScreens state) := by
  refine bind_eq_lift rfl fun primary hprimary => bind_eq_lift rfl fun alternate halternate => ?_
  have hrows := includedRows_le_encodedLen (context_eq_ok_iff.1 hprimary)
    (context_eq_ok_iff.1 halternate)
  simp only [validateHead, bind_eq_ok_iff, ensure_eq_ok_iff] at hhead
  obtain ⟨-, -, -, -, -, -, -, -, -, -, -, hlength, -⟩ := hhead
  have hsmall : maxEncodedStateBytes < 2 ^ 64 := by decide
  rw [plainAdd_of_lt (by omega)]
  exact bind_eq_lift rfl fun _ _ => rfl

theorem strictValidate_follows :
    Follows (state.OffsetsFit graphemeCount) (strictValidate graphemeCount state)
      (validate graphemeCount state) := by
  refine Follows.bind_lift rfl fun ids hids =>
    Follows.bind_lift (strictBoth_eq hids) fun screens _ =>
    strictScreen_follows.bind fun n _ => ?_
  exact strictScreen_follows.bind_eq fun _ => rfl

end Strict

/-! ## Where cursors stand -/

/-- The cursor's anchor is at its column of its row, counted without wrapping around. -/
def Placed (screen : Screen) (cursor : Cursor) : Prop :=
  ∃ row start anchor, screen.includedRows[screen.viewportStart + cursor.y]? = some row ∧
    row.start = some start ∧ cursor.anchor = some anchor ∧
    anchor.cellOffset = start.cellOffset + cursor.x

/-- The cursors of the screen stand where they say. -/
def CursorsPlaced (screen : Screen) : Prop :=
  (∃ cursor, screen.cursor = some cursor ∧ Placed screen cursor) ∧
    ∀ saved, screen.savedCursor = some saved → Placed screen saved

section Placed

variable {graphemeCount : String → Nat} {state : State} {screen : Screen}

theorem placed_of_validateCursor {cursor : Cursor} (hfits : cursor.Fits screen state)
    (h : validateCursor cursor screen state = .ok ()) : Placed screen cursor := by
  obtain ⟨anchors, hanchors, hequal⟩ := bind_eq_ok_iff.1 h
  have hequal := ensure_eq_ok_iff.1 hequal
  rw [Nat.mod_eq_of_lt (hfits anchors hanchors)] at hequal
  simp only [cursorAnchors, bind_eq_ok_iff, context_eq_ok_iff, requiredAnchor_eq_ok_iff,
    pure_eq_ok_iff] at hanchors
  obtain ⟨-, -, row, hrow, start, ⟨hstart, -⟩, anchor, ⟨hanchor, -⟩, -, -, rfl⟩ := hanchors
  exact ⟨row, start, anchor, hrow, hstart, hanchor, hequal⟩

theorem placed_of_validateScreen {alternate : Bool} {styleIds hyperlinkIds : List Nat} {n m : Nat}
    (hfits : screen.Fits graphemeCount alternate state styleIds hyperlinkIds n)
    (h : validateScreen graphemeCount screen alternate state styleIds hyperlinkIds n = .ok m) :
    CursorsPlaced screen := by
  obtain ⟨head, hhead, hrest⟩ := bind_eq_ok_iff.1 h
  obtain ⟨⟨⟩, hcursor, hrest⟩ := bind_eq_ok_iff.1 hrest
  obtain ⟨⟨⟩, hsaved, -⟩ := bind_eq_ok_iff.1 hrest
  obtain ⟨hfit, hfit'⟩ := hfits head hhead
  refine ⟨⟨head.2, (screenHead_eq_ok hhead).2, placed_of_validateCursor hfit hcursor⟩, ?_⟩
  intro saved hsome
  exact placed_of_validateCursor (hfit' () hcursor saved hsome)
    ((checkSome_eq_ok_iff _ _ _).1 hsaved saved hsome)

end Placed

/-- The check neither panics nor accepts a cursor that does not stand where it says exactly when
every sum that it comes to fits, and then both builds agree. -/
theorem validate_sound (graphemeCount : String → Nat) (state : State) :
    (((∀ message, strictValidate graphemeCount state ≠ .error (.panicked message)) ∧
        (validate graphemeCount state = .ok () →
          ∀ screen, (state.primary = some screen ∨ state.alternate = some screen) →
            CursorsPlaced screen)) ↔
      state.OffsetsFit graphemeCount) ∧
    (state.OffsetsFit graphemeCount →
      strictValidate graphemeCount state = lift (validate graphemeCount state)) := by
  have hfollows : Follows (state.OffsetsFit graphemeCount) (strictValidate graphemeCount state)
      (validate graphemeCount state) := strictValidate_follows
  obtain ⟨hequal, hpanics⟩ := hfollows
  refine ⟨⟨fun ⟨hnone, _⟩ => ?_, fun hfits => ⟨fun message => ?_, fun hvalid => ?_⟩⟩, hequal⟩
  · by_contra hfits
    obtain ⟨message, hmessage⟩ := hpanics hfits
    exact hnone message hmessage
  · rw [hequal hfits]
    cases validate graphemeCount state <;> simp [lift]
  · obtain ⟨ids, hids, hrest⟩ := bind_eq_ok_iff.1 hvalid
    obtain ⟨screens, hscreens, hrest⟩ := bind_eq_ok_iff.1 hrest
    obtain ⟨n, hprimary, hrest⟩ := bind_eq_ok_iff.1 hrest
    obtain ⟨m, halternate, -⟩ := bind_eq_ok_iff.1 hrest
    obtain ⟨hfit, hfit'⟩ := hfits ids hids screens hscreens
    have hp := placed_of_validateScreen hfit hprimary
    have ha := placed_of_validateScreen (hfit' n hprimary) halternate
    simp only [bothScreens, bind_eq_ok_iff, context_eq_ok_iff, pure_eq_ok_iff] at hscreens
    obtain ⟨primary, hsome, alternate, hsome', -, -, rfl⟩ := hscreens
    rintro screen (hscreen | hscreen)
    · rw [hsome] at hscreen
      cases hscreen
      exact hp
    · rw [hsome'] at hscreen
      cases hscreen
      exact ha

/-! ## A cursor behind the last offset -/

/-- The last offset of a line that 32 bits can hold. -/
def lastAnchor : Anchor := ⟨1, 2 ^ 32 - 1⟩

/-- A screen of two columns whose row starts at the last offset, with the cursor in the second. -/
def lastScreen : Screen :=
  { blankScreen with
    includedRows := [⟨some lastAnchor, 1, [], false⟩]
    cursor := some ⟨1, 0, some ⟨1, 0⟩, 1, true, 1, false⟩
    oldestAvailable := some lastAnchor
    newestAvailable := some lastAnchor
    includedStart := some lastAnchor
    includedEnd := some lastAnchor }

def lastState : State :=
  { blankState 0 1 with cols := 2, primary := some lastScreen, alternate := some lastScreen }

/-- The sum wraps around: the cursor is accepted at offset zero, or the check panics. -/
theorem wrapped_cursor_accepted :
    validate (fun _ => 1) lastState = .ok () ∧
      strictValidate (fun _ => 1) lastState =
        .error (.panicked "attempt to add with overflow") ∧
      lastState.primary = some lastScreen ∧
      ∀ cursor, lastScreen.cursor = some cursor → ¬ Placed lastScreen cursor := by
  refine ⟨by decide +kernel, by decide +kernel, rfl, ?_⟩
  rintro cursor hcursor ⟨row, start, anchor, hrow, hstart, hanchor, hequal⟩
  cases hcursor
  cases hrow
  cases hstart
  cases hanchor
  cases hequal

end AstraShell.TerminalState
