import AstraShell.Lib.Checked
import AstraShell.TerminalState.Schema

/-!
# Terminal State v2: validation

`validate` and `validateHistoryPage` of `terminal_state_v2.rs`, check by check and with the texts of
their errors. Each check is a definition under its source name. The number of grapheme clusters of
a string is computed by a Unicode library outside the repository and is the parameter
`graphemeCount`.

Hash sets of identifiers are lists; only insertion and membership are used.
-/

set_option autoImplicit false

namespace AstraShell.TerminalState

open Lib

/-- A raw enumeration value is one of `0..last`. -/
def knownEnum (last value : Int) (msg : String) : Except String Unit :=
  ensure (0 ≤ value ∧ value ≤ last) msg

/-- The total order of anchors. -/
def anchorLt (a b : Anchor) : Prop :=
  a.logicalLineId < b.logicalLineId ∨
    (a.logicalLineId = b.logicalLineId ∧ a.cellOffset < b.cellOffset)

def anchorLe (a b : Anchor) : Prop := anchorLt a b ∨ a = b

instance (a b : Anchor) : Decidable (anchorLt a b) := by
  unfold anchorLt
  infer_instance

instance (a b : Anchor) : Decidable (anchorLe a b) := by
  unfold anchorLe
  infer_instance

def requiredAnchor (anchor : Option Anchor) (name : String) : Except String Anchor := do
  let anchor ← context anchor (name ++ " is missing")
  ensure (anchor.logicalLineId ≠ 0) (name ++ " has logical line ID zero")
  return anchor

def requiredCursor (cursor : Option Cursor) (name : String) : Except String Cursor :=
  context cursor (name ++ " is missing")

/-! ## Tables, modes and palette -/

def validateColor (color : Color) : Except String Unit := do
  let value ← context color.value "style color is missing a value"
  match value with
  | .defaultColor _ => return ()
  | .paletteIndex index => ensure (index < 256) "style palette index is out of range"
  | .rgb rgb => ensure (rgb ≤ 0x00ffffff) "style RGB is out of range"

def validateStyle (style : Style) : Except String Unit := do
  let foreground ← context style.foreground "style foreground is missing"
  validateColor foreground
  let background ← context style.background "style background is missing"
  validateColor background
  let underlineColor ← context style.underlineColor "style underline color is missing"
  validateColor underlineColor
  knownEnum 2 style.intensity "unknown intensity enum"
  knownEnum 5 style.underline "unknown underline enum"
  knownEnum 2 style.blink "unknown blink enum"
  knownEnum 2 style.semanticType "unknown semantic type enum"
  knownEnum 2 style.verticalAlign "unknown vertical align enum"

/-- The loop over the style table; the result is the set of style identifiers. -/
def validateStyles (styleIds : List Nat) : List Style → Except String (List Nat)
  | [] => .ok styleIds
  | style :: styles => do
    validateStyle style
    ensure (style.id ≠ 0 ∧ style.id ∉ styleIds) "terminal style IDs must be unique and nonzero"
    validateStyles (style.id :: styleIds) styles

/-- The loop over the hyperlink table. -/
def validateHyperlinks (hyperlinkIds : List Nat) : List Hyperlink → Except String (List Nat)
  | [] => .ok hyperlinkIds
  | hyperlink :: hyperlinks => do
    ensure (hyperlink.id ≠ 0 ∧ hyperlink.id ∉ hyperlinkIds)
      "terminal hyperlink IDs must be unique and nonzero"
    ensure (hyperlink.uri ≠ "") "terminal hyperlink URI is empty"
    ensure (hyperlink.uri.utf8ByteSize ≤ maxHyperlinkUriBytes)
      "terminal hyperlink URI is too large"
    ensure (hyperlink.explicitId.utf8ByteSize ≤ maxHyperlinkExplicitIdBytes)
      "terminal hyperlink explicit ID is too large"
    validateHyperlinks (hyperlink.id :: hyperlinkIds) hyperlinks

def validateTables (styles : List Style) (hyperlinks : List Hyperlink) :
    Except String (List Nat × List Nat) := do
  ensure (styles.length ≤ maxStyles) "too many terminal styles"
  let styleIds ← validateStyles [] styles
  ensure (hyperlinks.length ≤ maxHyperlinks) "too many terminal hyperlinks"
  let hyperlinkIds ← validateHyperlinks [] hyperlinks
  return (styleIds, hyperlinkIds)

def validateModes (modes : Modes) : Except String Unit := do
  knownEnum 4 modes.mouseTracking "unknown mouse tracking enum"
  knownEnum 3 modes.mouseEncoding "unknown mouse encoding enum"
  knownEnum 2 modes.keyboardEncoding "unknown keyboard encoding enum"
  if modes.keyboardEncoding = 2 then
    ensure (modes.keyboardFlags &&& 0xffffffe0 = 0) "unknown kitty keyboard flags"
  else
    ensure (modes.keyboardFlags = 0) "keyboard flags require kitty encoding"

def validatePalette (palette : Palette) : Except String Unit := do
  ensure (palette.indexedRgb.length = 256) "terminal palette must contain 256 indexed colors"
  checkEach (fun rgb => ensure (rgb ≤ 0x00ffffff) "terminal palette RGB is out of range")
    (palette.indexedRgb ++
      [palette.foregroundRgb, palette.backgroundRgb, palette.cursorFgRgb, palette.cursorBgRgb,
        palette.selectionFgRgb, palette.selectionBgRgb])

/-! ## Rows and cells -/

section Rows

variable (graphemeCount : String → Nat)

/-- The loop over the cells of one row. `previousEnd` is absent before the first cell. -/
def validateCellsFrom (cols : Nat) (styleIds hyperlinkIds : List Nat) (previousEnd : Option Nat) :
    List Cell → Except String Unit
  | [] => .ok ()
  | cell :: cells => do
    ensure (cell.grapheme ≠ "") "terminal grapheme is empty"
    ensure (graphemeCount cell.grapheme = 1) "terminal cell must contain exactly one grapheme"
    ensure (cell.grapheme.utf8ByteSize ≤ maxGraphemeBytes) "terminal grapheme is too large"
    ensure (cell.width = 1 ∨ cell.width = 2) "terminal grapheme width must be one or two"
    let cellEnd ← context (checkedAdd 32 cell.column cell.width) "terminal cell column overflows"
    ensure (cellEnd ≤ cols) "terminal cell extends beyond terminal cols"
    ensure (∀ previous ∈ previousEnd, previous ≤ cell.column)
      "terminal cells overlap or are out of order"
    ensure (cell.styleId = 0 ∨ cell.styleId ∈ styleIds)
      "terminal cell references an unknown style"
    ensure (cell.hyperlinkId = 0 ∨ cell.hyperlinkId ∈ hyperlinkIds)
      "terminal cell references an unknown hyperlink"
    validateCellsFrom cols styleIds hyperlinkIds (some cellEnd) cells

/-- Check one row's cells; the result is the new cell count. -/
def validateCells (row : Row) (cols : Nat) (styleIds hyperlinkIds : List Nat) (cellCount : Nat) :
    Except String Nat := do
  let cellCount ← context (checkedAdd 64 cellCount row.cells.length)
    "terminal cell count overflows"
  ensure (cellCount ≤ maxCells) "too many terminal cells"
  validateCellsFrom graphemeCount cols styleIds hyperlinkIds none row.cells
  return cellCount

/-- The check of a row against the row after it. -/
def validateNextRow (row : Row) (start : Anchor) (cols : Nat) (next : Row) :
    Except String Unit := do
  let nextStart ← requiredAnchor next.start "next row anchor"
  if row.wrappedToNext then
    ensure (nextStart.logicalLineId = start.logicalLineId) "wrapped rows changed logical line ID"
    let expectedOffset ← context (checkedAdd 32 start.cellOffset cols)
      "wrapped row offset overflows"
    ensure (nextStart.cellOffset = expectedOffset)
      "wrapped row offset does not advance by terminal cols"
  else
    ensure (nextStart.logicalLineId > start.logicalLineId)
      "hard line break did not advance logical line ID"

/-- The loop over the rows of a screen or page; the result is the cell count. -/
def validateRowsFrom (cols generation : Nat) (styleIds hyperlinkIds : List Nat) :
    Option Anchor → Nat → List Row → Except String Nat
  | _, cellCount, [] => .ok cellCount
  | previous, cellCount, row :: rows => do
    let start ← requiredAnchor row.start "row anchor"
    ensure (row.rowVersion > 0 ∧ row.rowVersion ≤ generation)
      "row version is outside the state generation"
    ensure (∀ p ∈ previous, anchorLt p start) "terminal row anchors are not strictly ordered"
    checkSome rows.head? (validateNextRow row start cols)
    let cellCount ← validateCells graphemeCount row cols styleIds hyperlinkIds cellCount
    validateRowsFrom cols generation styleIds hyperlinkIds (some start) cellCount rows

def validateRows (rows : List Row) (cols generation : Nat) (styleIds hyperlinkIds : List Nat)
    (cellCount : Nat) : Except String Nat :=
  validateRowsFrom graphemeCount cols generation styleIds hyperlinkIds none cellCount rows

end Rows

/-! ## Screens -/

/-- The loop over the tab stops. -/
def validateTabStops (cols : Nat) (previous : Option Nat) : List Nat → Except String Unit
  | [] => .ok ()
  | stop :: stops => do
    ensure (stop < cols) "tab stop is outside terminal cols"
    ensure (∀ p ∈ previous, p < stop) "tab stops are not strictly ordered"
    validateTabStops cols (some stop) stops

def validateMarginsAndTabs (screen : Screen) (state : State) : Except String Unit := do
  ensure (screen.scrollMarginTop < screen.scrollMarginBottom ∧
      screen.scrollMarginBottom ≤ state.rows) "vertical scroll margins are invalid"
  ensure (screen.scrollMarginLeft < screen.scrollMarginRight ∧
      screen.scrollMarginRight ≤ state.cols) "horizontal scroll margins are invalid"
  ensure (screen.tabStops.length ≤ state.cols) "too many tab stops"
  validateTabStops state.cols none screen.tabStops

/-- The checks of `validate_cursor` on the fields of the cursor. -/
def cursorFields (cursor : Cursor) (state : State) : Except String Unit := do
  ensure (cursor.x < state.cols ∧ cursor.y < state.rows)
    ("terminal cursor (" ++ toString cursor.x ++ ", " ++ toString cursor.y ++ ") is outside " ++
      toString state.cols ++ "x" ++ toString state.rows ++ " viewport")
  ensure (cursor.version > 0 ∧ cursor.version ≤ state.generation)
    "terminal cursor version is outside the state generation"
  knownEnum 3 cursor.shape "unknown cursor shape enum"
  ensure (cursor.shape ≠ 0) "cursor shape is unspecified"

/-- The checks of `validate_cursor` before the offsets are compared, with the anchors of the row and
of the cursor. -/
def cursorAnchors (cursor : Cursor) (screen : Screen) (state : State) :
    Except String (Anchor × Anchor) := do
  cursorFields cursor state
  -- The source indexes the vector here; an index out of range is a panic.
  let row ← context screen.includedRows[screen.viewportStart + cursor.y]? "index out of bounds"
  let rowStart ← requiredAnchor row.start "cursor row anchor"
  let anchor ← requiredAnchor cursor.anchor "cursor anchor"
  ensure (anchor.logicalLineId = rowStart.logicalLineId)
    "cursor anchor has the wrong logical line ID"
  return (rowStart, anchor)

def validateCursor (cursor : Cursor) (screen : Screen) (state : State) : Except String Unit := do
  let (rowStart, anchor) ← cursorAnchors cursor screen state
  -- An unchecked `u32` addition.
  ensure (anchor.cellOffset = (rowStart.cellOffset + cursor.x) % 2 ^ 32)
    "cursor anchor has the wrong cell offset"

section Screens

variable (graphemeCount : String → Nat) (screen : Screen) (alternate : Bool) (state : State)
  (styleIds hyperlinkIds : List Nat) (cellCount : Nat)

/-- The checks of `validate_screen` before it looks at a row, with the ends of the included range.
-/
def screenRange : Except String (Anchor × Anchor) := do
  ensure (screen.includedRows ≠ []) "terminal screen has no included rows"
  ensure (alternate = true →
      screen.viewportStart = 0 ∧ screen.includedRows.length = state.rows)
    "alternate screen must contain exactly one viewport and no history"
  let viewportEnd ← context (checkedAdd 64 screen.viewportStart state.rows)
    "terminal viewport overflows"
  ensure (viewportEnd ≤ screen.includedRows.length) "terminal viewport is not fully included"
  validateMarginsAndTabs screen state
  let oldest ← requiredAnchor screen.oldestAvailable "oldest available anchor"
  let newest ← requiredAnchor screen.newestAvailable "newest available anchor"
  let includedStart ← requiredAnchor screen.includedStart "included start anchor"
  let includedEnd ← requiredAnchor screen.includedEnd "included end anchor"
  ensure (anchorLe oldest includedStart) "included rows start before available history"
  ensure (anchorLe includedStart includedEnd) "included row range is reversed"
  ensure (anchorLe includedEnd newest) "included rows end after available history"
  return (includedStart, includedEnd)

/-- The checks of `validate_screen` before those of the cursors. -/
def screenHead : Except String (Nat × Cursor) := do
  let (includedStart, includedEnd) ← screenRange screen alternate state
  let firstStart ← requiredAnchor (screen.includedRows.head?.bind Row.start) "first row anchor"
  let lastStart ← requiredAnchor (screen.includedRows.getLast?.bind Row.start) "last row anchor"
  ensure (firstStart = includedStart ∧ lastStart = includedEnd)
    "included row boundary anchors do not match rows"
  let cellCount ← validateRows graphemeCount screen.includedRows state.cols state.generation
    styleIds hyperlinkIds cellCount
  let cursor ← requiredCursor screen.cursor "cursor"
  return (cellCount, cursor)

def validateScreen : Except String Nat := do
  let (cellCount, cursor) ←
    screenHead graphemeCount screen alternate state styleIds hyperlinkIds cellCount
  validateCursor cursor screen state
  checkSome screen.savedCursor fun saved => validateCursor saved screen state
  return cellCount

end Screens

/-- The checks of `validate` before the two screens. -/
def validateHead (state : State) : Except String (List Nat × List Nat) := do
  ensure (state.schemaVersion = schemaVersion)
    ("unsupported terminal state schema version " ++ toString state.schemaVersion)
  ensure (state.epoch.length = epochBytes) "terminal state epoch must be 16 bytes"
  ensure (state.generation > 0) "terminal state generation must be nonzero"
  ensure (1 ≤ state.rows ∧ state.rows ≤ maxDimension) "terminal rows are out of range"
  ensure (1 ≤ state.cols ∧ state.cols ≤ maxDimension) "terminal cols are out of range"
  ensure (state.encodedLen ≤ maxEncodedStateBytes) "terminal state exceeds 8388608 encoded bytes"
  ensure (state.title.utf8ByteSize ≤ maxTitleBytes) "terminal title is too large"
  ensure (state.workingDirectory.utf8ByteSize ≤ maxWorkingDirectoryBytes)
    "terminal working directory is too large"
  knownEnum 2 state.activeScreen "unknown active screen enum"
  ensure (state.activeScreen ≠ 0) "active screen is unspecified"
  let modes ← context state.modes "terminal modes are missing"
  validateModes modes
  let palette ← context state.palette "terminal palette is missing"
  validatePalette palette
  validateTables state.styles state.hyperlinks

/-- The two screens, which together are not too long. -/
def bothScreens (state : State) : Except String (Screen × Screen) := do
  let primary ← context state.primary "primary screen is missing"
  let alternate ← context state.alternate "alternate screen is missing"
  ensure (primary.includedRows.length + alternate.includedRows.length ≤ maxIncludedRows)
    "too many included terminal rows"
  return (primary, alternate)

/-- The state satisfies every rule of the schema. -/
def validate (graphemeCount : String → Nat) (state : State) : Except String Unit := do
  let (styleIds, hyperlinkIds) ← validateHead state
  let (primary, alternate) ← bothScreens state
  let cellCount ← validateScreen graphemeCount primary false state styleIds hyperlinkIds 0
  let cellCount ← validateScreen graphemeCount alternate true state styleIds hyperlinkIds cellCount
  ensure (cellCount ≤ maxCells) "too many terminal cells"

/-! ## History pages -/

def validateHistoryPageRequest (request : HistoryPageRequest) : Except String Unit := do
  ensure (request.epoch.length = epochBytes) "history request epoch must be 16 bytes"
  let _ ← requiredAnchor request.before "history request anchor"
  ensure (1 ≤ request.maximumRows ∧ request.maximumRows ≤ maxHistoryPageRows)
    "history request row count is out of range"

/-- No range and no table belongs to a page without rows. -/
def HistoryPage.hasNoRangeData (page : HistoryPage) : Prop :=
  page.includedStart = none ∧ page.includedEnd = none ∧ page.styles = [] ∧
    page.hyperlinks = [] ∧ page.moreBefore = false

instance (page : HistoryPage) : Decidable page.hasNoRangeData := by
  unfold HistoryPage.hasNoRangeData
  infer_instance

def validateHistoryPage (graphemeCount : String → Nat) (page : HistoryPage) :
    Except String Unit := do
  ensure (page.requestId > 0) "history page request ID is zero"
  ensure (page.epoch.length = epochBytes) "history page epoch must be 16 bytes"
  ensure (page.generation > 0) "history page generation is zero"
  ensure (1 ≤ page.cols ∧ page.cols ≤ maxDimension) "history page columns are out of range"
  ensure (page.encodedLen ≤ maxEncodedHistoryPageBytes) "history page exceeds 4194304 encoded bytes"
  let oldest ← requiredAnchor page.oldestAvailable "history oldest available anchor"
  let newest ← requiredAnchor page.newestAvailable "history newest available anchor"
  ensure (anchorLe oldest newest) "history available range is reversed"
  if page.resetRequired then
    ensure (page.includedRows = [] ∧ page.hasNoRangeData) "history reset page contains page data"
  else do
    ensure (page.includedRows.length ≤ maxHistoryPageRows) "history page contains too many rows"
    if page.includedRows = [] then
      ensure page.hasNoRangeData "empty history page contains range data"
    else do
      let includedStart ← requiredAnchor page.includedStart "history included start anchor"
      let includedEnd ← requiredAnchor page.includedEnd "history included end anchor"
      ensure (anchorLe oldest includedStart ∧ anchorLe includedStart includedEnd ∧
        anchorLe includedEnd newest) "history included range is outside available rows"
      ensure (page.includedRows.head?.bind Row.start = some includedStart ∧
          page.includedRows.getLast?.bind Row.start = some includedEnd)
        "history page boundary anchors do not match rows"
      ensure (page.moreBefore = decide (anchorLt oldest includedStart))
        "history page continuation flag is inconsistent"
      let (styleIds, hyperlinkIds) ← validateTables page.styles page.hyperlinks
      let _ ← validateRows graphemeCount page.includedRows page.cols page.generation styleIds
        hyperlinkIds 0

/-! ## What an accepted list of rows satisfies -/

theorem anchorLt_irrefl (a : Anchor) : ¬ anchorLt a a := by
  unfold anchorLt
  omega

@[simp] theorem requiredAnchor_eq_ok_iff (anchor : Option Anchor) (name : String) (a : Anchor) :
    requiredAnchor anchor name = .ok a ↔ anchor = some a ∧ a.logicalLineId ≠ 0 := by
  simp only [requiredAnchor, bind_eq_ok_iff, context_eq_ok_iff, ensure_eq_ok_iff,
    pure_eq_ok_iff]
  constructor
  · rintro ⟨b, hb, -, hne, rfl⟩
    exact ⟨hb, hne⟩
  · rintro ⟨ha, hne⟩
    exact ⟨a, ha, ⟨⟩, hne, rfl⟩

/-- The rows' anchors are present and in order. -/
def StartsBefore (r r' : Row) : Prop :=
  ∃ a a', r.start = some a ∧ r'.start = some a' ∧ anchorLt a a'

/-- The rows of a list have anchors, in increasing order. -/
def AnchorsOrdered (rows : List Row) : Prop :=
  (∀ r ∈ rows, ∃ a, r.start = some a) ∧ rows.Pairwise StartsBefore

variable {cols generation n m : Nat} {styleIds hyperlinkIds : List Nat} {rows : List Row}
  {previous : Option Anchor}

/-! ## Inversion of the state check -/

/-- What an accepted screen satisfies. -/
structure ScreenAccepted (graphemeCount : String → Nat) (screen : Screen) (alternate : Bool)
    (state : State) (styleIds hyperlinkIds : List Nat) (n m : Nat) : Prop where
  rows_ne : screen.includedRows ≠ []
  alternate_viewport : alternate = true →
    screen.viewportStart = 0 ∧ screen.includedRows.length = state.rows
  viewport_fits : screen.viewportStart + state.rows < 2 ^ 64
  viewport_included : screen.viewportStart + state.rows ≤ screen.includedRows.length
  margins : validateMarginsAndTabs screen state = .ok ()
  range : ∃ oldest newest first last,
    (screen.oldestAvailable = some oldest ∧ oldest.logicalLineId ≠ 0) ∧
    (screen.newestAvailable = some newest ∧ newest.logicalLineId ≠ 0) ∧
    (screen.includedStart = some first ∧ first.logicalLineId ≠ 0) ∧
    (screen.includedEnd = some last ∧ last.logicalLineId ≠ 0) ∧
    anchorLe oldest first ∧ anchorLe first last ∧ anchorLe last newest ∧
    screen.includedRows.head?.bind Row.start = some first ∧
    screen.includedRows.getLast?.bind Row.start = some last
  rows : validateRows graphemeCount screen.includedRows state.cols state.generation styleIds
    hyperlinkIds n = .ok m
  cursor : ∃ cursor, screen.cursor = some cursor ∧ validateCursor cursor screen state = .ok ()
  saved : ∀ saved ∈ screen.savedCursor, validateCursor saved screen state = .ok ()

theorem validateScreen_eq_ok_iff (graphemeCount : String → Nat) (screen : Screen)
    (alternate : Bool) (state : State) (styleIds hyperlinkIds : List Nat) (n m : Nat) :
    validateScreen graphemeCount screen alternate state styleIds hyperlinkIds n = .ok m ↔
      ScreenAccepted graphemeCount screen alternate state styleIds hyperlinkIds n m := by
  simp only [validateScreen, screenHead, screenRange, bind_assoc, pure_bind, bind_eq_ok_iff,
    ensure_eq_ok_iff, context_eq_ok_iff,
    checkedAdd_eq_some_iff, requiredAnchor_eq_ok_iff, requiredCursor, checkSome_eq_ok_iff,
    pure_eq_ok_iff]
  constructor
  · rintro ⟨-, hne, -, halt, _, ⟨hfit, rfl⟩, -, hincl, ⟨⟩, hmargins, oldest, holdest, newest,
      hnewest, first, hfirst, last, hlast, -, h1, -, h2, -, h3, f, hf, l, hl, -, ⟨rfl, rfl⟩, k,
      hrows, cursor, hcursor, ⟨⟩, hc, -, hsaved, rfl⟩
    exact ⟨hne, halt, hfit, hincl, hmargins,
      ⟨oldest, newest, f, l, holdest, hnewest, hfirst, hlast, h1, h2, h3, hf.1, hl.1⟩, hrows,
      ⟨cursor, hcursor, hc⟩, hsaved⟩
  · rintro ⟨hne, halt, hfit, hincl, hmargins,
      ⟨oldest, newest, first, last, holdest, hnewest, hfirst, hlast, h1, h2, h3, hf, hl⟩, hrows,
      ⟨cursor, hcursor, hc⟩, hsaved⟩
    exact ⟨⟨⟩, hne, ⟨⟩, halt, _, ⟨hfit, rfl⟩, ⟨⟩, hincl, ⟨⟩, hmargins, oldest, holdest, newest,
      hnewest, first, hfirst, last, hlast, ⟨⟩, h1, ⟨⟩, h2, ⟨⟩, h3, first, ⟨hf, hfirst.2⟩, last,
      ⟨hl, hlast.2⟩, ⟨⟩, ⟨rfl, rfl⟩, m, hrows, cursor, hcursor, ⟨⟩, hc, ⟨⟩, hsaved, rfl⟩

/-- What an accepted state satisfies. -/
structure StateAccepted (graphemeCount : String → Nat) (state : State) : Prop where
  schema : state.schemaVersion = schemaVersion
  epoch : state.epoch.length = epochBytes
  generation : state.generation > 0
  rows : 1 ≤ state.rows ∧ state.rows ≤ maxDimension
  cols : 1 ≤ state.cols ∧ state.cols ≤ maxDimension
  encoded : state.encodedLen ≤ maxEncodedStateBytes
  title : state.title.utf8ByteSize ≤ maxTitleBytes
  workingDirectory : state.workingDirectory.utf8ByteSize ≤ maxWorkingDirectoryBytes
  activeScreen : state.activeScreen = 1 ∨ state.activeScreen = 2
  modes : ∃ modes, state.modes = some modes ∧ validateModes modes = .ok ()
  palette : ∃ palette, state.palette = some palette ∧ validatePalette palette = .ok ()
  screens : ∃ styleIds hyperlinkIds primary alternate n m,
    validateTables state.styles state.hyperlinks = .ok (styleIds, hyperlinkIds) ∧
    state.primary = some primary ∧ state.alternate = some alternate ∧
    primary.includedRows.length + alternate.includedRows.length ≤ maxIncludedRows ∧
    ScreenAccepted graphemeCount primary false state styleIds hyperlinkIds 0 n ∧
    ScreenAccepted graphemeCount alternate true state styleIds hyperlinkIds n m ∧ m ≤ maxCells

theorem validate_eq_ok_iff (graphemeCount : String → Nat) (state : State) :
    validate graphemeCount state = .ok () ↔ StateAccepted graphemeCount state := by
  simp only [validate, validateHead, bothScreens, bind_assoc, pure_bind, bind_eq_ok_iff,
    ensure_eq_ok_iff, context_eq_ok_iff, knownEnum,
    validateScreen_eq_ok_iff]
  constructor
  · rintro ⟨-, hschema, -, hepoch, -, hgen, -, hrows, -, hcols, -, henc, -, htitle, -, hwd, -,
      hactive, -, hactive', modes, hm, ⟨⟩, hmodes, palette, hp, ⟨⟩, hpalette,
        ⟨styleIds, hyperlinkIds⟩,
      htables, primary, hprimary, alternate, halternate, -, hcount, n, hn, m, hm', hcells⟩
    exact ⟨hschema, hepoch, hgen, hrows, hcols, henc, htitle, hwd, by omega, ⟨modes, hm, hmodes⟩,
      ⟨palette, hp, hpalette⟩, styleIds, hyperlinkIds, primary, alternate, n, m, htables, hprimary,
      halternate, hcount, hn, hm', hcells⟩
  · rintro ⟨hschema, hepoch, hgen, hrows, hcols, henc, htitle, hwd, hactive, ⟨modes, hm, hmodes⟩,
      ⟨palette, hp, hpalette⟩, styleIds, hyperlinkIds, primary, alternate, n, m, htables, hprimary,
      halternate, hcount, hn, hm', hcells⟩
    exact ⟨⟨⟩, hschema, ⟨⟩, hepoch, ⟨⟩, hgen, ⟨⟩, hrows, ⟨⟩, hcols, ⟨⟩, henc, ⟨⟩, htitle, ⟨⟩, hwd,
      ⟨⟩, by omega, ⟨⟩, by omega, modes, hm, ⟨⟩, hmodes, palette, hp, ⟨⟩, hpalette,
      (styleIds, hyperlinkIds), htables, primary, hprimary, alternate, halternate, ⟨⟩, hcount, n,
      hn,
      m, hm', hcells⟩

/-! ## The smallest state -/

/-- The anchor of the first cell. -/
def blankAnchor : Anchor := ⟨1, 0⟩

def blankScreen : Screen where
  includedRows := [⟨some blankAnchor, 1, [], false⟩]
  viewportStart := 0
  cursor := some ⟨0, 0, some blankAnchor, 1, true, 1, false⟩
  savedCursor := none
  oldestAvailable := some blankAnchor
  newestAvailable := some blankAnchor
  includedStart := some blankAnchor
  includedEnd := some blankAnchor
  scrollMarginTop := 0
  scrollMarginBottom := 1
  scrollMarginLeft := 0
  scrollMarginRight := 1
  tabStops := []

/-- A blank terminal of one cell. -/
def blankState (epoch : UInt8) (generation : Nat) : State where
  schemaVersion := schemaVersion
  epoch := List.replicate epochBytes epoch
  generation := generation
  rows := 1
  cols := 1
  primary := some blankScreen
  alternate := some blankScreen
  activeScreen := 1
  styles := []
  hyperlinks := []
  modes := some ⟨false, false, false, false, false, false, true, false, false, false, false, 0, 0,
    0, 0, false⟩
  title := ""
  workingDirectory := ""
  palette := some ⟨List.replicate 256 0, 0, 0, 0, 0, 0, 0⟩

example : validate (fun _ => 1) (blankState 0 1) = .ok () := by decide +kernel

end AstraShell.TerminalState
