import AstraShell.Engine.View
import AstraShell.Lib.Intern
import AstraShell.TerminalState.Validate

/-!
# The exports of the terminal engine

`TerminalEngine` of `terminal_engine.rs` turns the view of the emulator into the messages of
Terminal State v2: a live viewport, a full state with as much history as fits, and pages of history.
Rows refer to styles and links by number, and every export numbers them anew, in the order in which
its rows come.

An export checks its own result with the validator of the receivers, and returns an error where that
fails. Where the source would panic (an offset beyond `u32`), the model returns an error as well.
-/

set_option autoImplicit false

namespace AstraShell.Engine

open Lib
open TerminalState (Anchor Bytes Cell Color Cursor Hyperlink HistoryPage HistoryPageRequest
  Modes Palette Row Screen State Style)

/-! ## Styles and links -/

inductive WireColor where
  | default
  | palette (index : UInt8)
  | rgb (value : Nat)
  deriving DecidableEq

structure StyleKey where
  foreground : WireColor := .default
  background : WireColor := .default
  underlineColor : WireColor := .default
  intensity : Int := 0
  underline : Int := 0
  blink : Int := 0
  italic : Bool := false
  reverse : Bool := false
  strikethrough : Bool := false
  invisible : Bool := false
  overline : Bool := false
  semanticType : Int := 0
  verticalAlign : Int := 0
  deriving DecidableEq

def packRgb (color : Srgb) : Nat :=
  color.red.toNat <<< 16 ||| color.green.toNat <<< 8 ||| color.blue.toNat

def wireColor : ColorAttribute → WireColor
  | .default => .default
  | .paletteIndex index => .palette index
  | .trueColorWithPaletteFallback color _ => .rgb (packRgb color)
  | .trueColorWithDefaultFallback color => .rgb (packRgb color)

def exportColor (color : WireColor) : Color :=
  ⟨some (match color with
    | .default => .defaultColor true
    | .palette index => .paletteIndex index.toNat
    | .rgb value => .rgb value)⟩

def styleKey (attributes : CellAttributes) : StyleKey where
  foreground := wireColor attributes.foreground
  background := wireColor attributes.background
  underlineColor := wireColor attributes.underlineColor
  intensity := match attributes.intensity with
    | .normal => 0
    | .bold => 1
    | .half => 2
  underline := match attributes.underline with
    | .none => 0
    | .single => 1
    | .double => 2
    | .curly => 3
    | .dotted => 4
    | .dashed => 5
  blink := match attributes.blink with
    | .none => 0
    | .slow => 1
    | .rapid => 2
  italic := attributes.italic
  reverse := attributes.reverse
  strikethrough := attributes.strikethrough
  invisible := attributes.invisible
  overline := attributes.overline
  semanticType := match attributes.semanticType with
    | .output => 0
    | .input => 1
    | .prompt => 2
  verticalAlign := match attributes.verticalAlign with
    | .baseLine => 0
    | .superScript => 1
    | .subScript => 2

/-- The entry of the style table for a key. -/
def StyleKey.style (id : Nat) (key : StyleKey) : Style where
  id := id
  foreground := some (exportColor key.foreground)
  background := some (exportColor key.background)
  underlineColor := some (exportColor key.underlineColor)
  intensity := key.intensity
  underline := key.underline
  blink := key.blink
  italic := key.italic
  reverse := key.reverse
  strikethrough := key.strikethrough
  invisible := key.invisible
  overline := key.overline
  semanticType := key.semanticType
  verticalAlign := key.verticalAlign

/-- URI and explicit ID of a link. -/
def LinkView.key (link : LinkView) : String × String := (link.uri, link.id.getD "")

/-- The entry of the hyperlink table for a key. -/
def hyperlinkEntry (id : Nat) (key : String × String) : Hyperlink := ⟨id, key.1, key.2⟩

/-- `ExportTables`: the maps from keys to numbers, and with them the vectors of entries. -/
structure ExportTables where
  styleIds : Intern StyleKey
  hyperlinkIds : Intern (String × String)

namespace ExportTables

def empty : ExportTables := ⟨.empty, .empty⟩

def styles (tables : ExportTables) : List Style := tables.styleIds.entries StyleKey.style

def hyperlinks (tables : ExportTables) : List Hyperlink :=
  tables.hyperlinkIds.entries hyperlinkEntry

/-- The default style has the number zero and is not in the table. -/
def styleId (tables : ExportTables) (key : StyleKey) : Except String (Nat × ExportTables) :=
  if key = {} then .ok (0, tables)
  else do
    let (id, styleIds) ← tables.styleIds.number TerminalState.maxStyles
      "terminal style table is full" key
    return (id, { tables with styleIds := styleIds })

def hyperlinkId (tables : ExportTables) (attributes : CellAttributes) :
    Except String (Nat × ExportTables) :=
  match attributes.hyperlink with
  | none => .ok (0, tables)
  | some link => do
    let (id, hyperlinkIds) ← tables.hyperlinkIds.number TerminalState.maxHyperlinks
      "terminal hyperlink table is full" link.key
    return (id, { tables with hyperlinkIds := hyperlinkIds })

/-- Blank cells without attributes are left out. -/
def exportCell (tables : ExportTables) (cell : CellView) :
    Except String (Option Cell × ExportTables) := do
  let (styleId, tables) ← tables.styleId (styleKey cell.attributes)
  let (hyperlinkId, tables) ← tables.hyperlinkId cell.attributes
  if cell.grapheme = " " ∧ styleId = 0 ∧ hyperlinkId = 0 then return (none, tables)
  else do
    let column ← tryFrom 32 cell.column
    let width ← tryFrom 32 cell.width
    return (some ⟨column, cell.grapheme, width, styleId, hyperlinkId⟩, tables)

end ExportTables

/-! ## Rows, cursors and screens -/

def epochRelativeVersion (sequence epochSequenceStart : Nat) : Except String Nat :=
  if sequence ≤ epochSequenceStart then .ok 1
  else context ((checkedSub sequence epochSequenceStart).bind fun version =>
    checkedAdd 64 version 1) "terminal state version overflowed"

/-- The source panics when the offset does not fit. -/
def anchor (logicalLineId cellOffset : Nat) : Except String Anchor := do
  ensure (cellOffset < 2 ^ 32) "bounded terminal cell offset fits u32"
  return ⟨logicalLineId, cellOffset⟩

def RowView.anchor (row : RowView) : Except String Anchor :=
  Engine.anchor row.identity.logicalLineId row.identity.cellOffset

/-- The cell lies within the columns of the screen. -/
def CellView.fits (columns : Nat) (cell : CellView) : Bool :=
  (checkedAdd 64 cell.column cell.width).any fun cellEnd => cellEnd ≤ columns

def exportRow (columns epochSequenceStart generation : Nat) (tables : ExportTables)
    (row : RowView) : Except String (Row × ExportTables) := do
  let rowVersion ← epochRelativeVersion row.version epochSequenceStart
  ensure (rowVersion ≤ generation) "row version exceeds generation"
  let (cells, tables) ← traverse ExportTables.exportCell tables
    (row.cells.filter (CellView.fits columns))
  let start ← row.anchor
  return (⟨some start, rowVersion, cells.filterMap id, row.wrappedToNext⟩, tables)

def cursorShape : CursorShape → Int
  | .block => 1
  | .underline => 2
  | .bar => 3

/-- A cursor that is past the last column, because the next character wraps, is shown on it. -/
def exportCursor (cursor : CursorView) (epochSequenceStart : Nat) (rows : List Row)
    (viewportStart columns viewportRows : Nat) : Except String Cursor := do
  let displayX := min (if cursor.wrapPending then cursor.x - 1 else cursor.x) (columns - 1)
  let displayY := min cursor.y (viewportRows - 1)
  let row ← context (rows[viewportStart + displayY]?.or rows[viewportStart]?)
    "cursor is outside included viewport"
  let start ← context row.start "cursor row has no anchor"
  let x ← tryFrom 32 displayX
  let y ← tryFrom 32 displayY
  let position ← anchor start.logicalLineId (start.cellOffset + displayX)
  let version ← epochRelativeVersion cursor.version epochSequenceStart
  return {
    x := x
    y := y
    anchor := some position
    shape := cursorShape cursor.shape
    visible := cursor.visible
    version := version
    wrapPending := cursor.wrapPending && decide (displayX + 1 = columns) }

/-- The anchor of the only row of a segment. -/
def anchorOf (rows : List RowView) (message : String) : Except String Anchor := do
  let row ← context rows.head? message
  row.anchor

def exportScreen (view : ScreenView) (includedRowBudget epochSequenceStart generation : Nat)
    (tables : ExportTables) : Except String (Screen × ExportTables) := do
  let rowCount := view.rowCount
  ensure (rowCount > 0) "terminal engine returned an empty screen"
  let viewportStart := view.viewportStart
  let includedStartIndex := min (rowCount - includedRowBudget) viewportStart
  let maximumRows := rowCount - includedStartIndex
  let (includedRows, tables) ← traverse
    (exportRow view.columnCount epochSequenceStart generation) tables
    (view.rows includedStartIndex maximumRows)
  let oldestAvailable ← anchorOf (view.rows 0 1) "terminal screen has no oldest row"
  let newestAvailable ← anchorOf (view.rows (rowCount - 1) 1) "terminal screen has no newest row"
  let includedStart ← context (includedRows.head?.bind Row.start)
    "terminal included segment is empty"
  let includedEnd ← context (includedRows.getLast?.bind Row.start)
    "terminal included segment is empty"
  let includedViewportStart := viewportStart - includedStartIndex
  let cursor ← exportCursor view.cursor epochSequenceStart includedRows includedViewportStart
    view.columnCount view.viewportRowCount
  let savedCursor ← transpose (view.savedCursor.map fun saved => exportCursor saved
    epochSequenceStart includedRows includedViewportStart view.columnCount view.viewportRowCount)
  let viewportStart ← tryFrom 32 includedViewportStart
  let scrollMarginTop ← tryFrom 32 view.scrollMarginTop
  let scrollMarginBottom ← tryFrom 32 view.scrollMarginBottom
  let scrollMarginLeft ← tryFrom 32 view.scrollMarginLeft
  let scrollMarginRight ← tryFrom 32 view.scrollMarginRight
  let tabStops := view.tabStops.filter fun column => column < view.columnCount
  checkEach (fun column => do let _ ← tryFrom 32 column) tabStops
  return ({
    includedRows := includedRows
    viewportStart := viewportStart
    cursor := some cursor
    savedCursor := savedCursor
    oldestAvailable := some oldestAvailable
    newestAvailable := some newestAvailable
    includedStart := some includedStart
    includedEnd := some includedEnd
    scrollMarginTop := scrollMarginTop
    scrollMarginBottom := scrollMarginBottom
    scrollMarginLeft := scrollMarginLeft
    scrollMarginRight := scrollMarginRight
    tabStops := tabStops }, tables)

/-! ## Modes and palette -/

def exportModes (modes : ModesView) : Modes where
  applicationCursorKeys := modes.applicationCursorKeys
  applicationKeypad := modes.applicationKeypad
  bracketedPaste := modes.bracketedPaste
  focusTracking := modes.focusTracking
  origin := modes.origin
  insert := modes.insert
  autoWrap := modes.autoWrap
  reverseWraparound := modes.reverseWraparound
  newline := modes.newline
  leftRightMargin := modes.leftRightMargin
  reverseVideo := modes.reverseVideo
  alternateScroll := modes.alternateScroll
  mouseTracking := match modes.mouseTracking with
    | .none => 0
    | .x10 => 1
    | .vt200 => 2
    | .buttonEvent => 3
    | .anyEvent => 4
  mouseEncoding := match modes.mouseEncoding with
    | .default => 0
    | .utf8 => 1
    | .sgr => 2
    | .sgrPixels => 3
  keyboardEncoding := match modes.keyboardEncoding with
    | .xterm => 0
    | .csiU => 1
    | .kitty _ => 2
  keyboardFlags := match modes.keyboardEncoding with
    | .xterm => 0
    | .csiU => 0
    | .kitty flags => flags.val

def exportPalette (palette : ColorPalette) : Palette where
  indexedRgb := palette.colors.toList.map packRgb
  foregroundRgb := packRgb palette.foreground
  backgroundRgb := packRgb palette.background
  cursorFgRgb := packRgb palette.cursorFg
  cursorBgRgb := packRgb palette.cursorBg
  selectionFgRgb := packRgb palette.selectionFg
  selectionBgRgb := packRgb palette.selectionBg

/-! ## The engine -/

structure HistoryLimits where
  rows : Nat
  bytes : Nat

/-- `TerminalEngine`; of the emulator only the view matters. -/
structure TerminalEngine where
  terminal : TerminalView
  historyLimits : HistoryLimits
  epoch : Bytes
  identityEpoch : Nat × Nat
  epochSequenceStart : Nat
  cachedViewport : Option State

def validateAuthoritativeScreens (view : TerminalView) (historyLimits : HistoryLimits) :
    Except String Unit := do
  ensure (view.primary.kind = .primary ∧ view.primary.allowsScrollback = true)
    "primary terminal screen lost scrollback semantics"
  ensure (view.primary.historyRowCount = view.primary.viewportStart ∧
      view.primary.viewportStart + view.rows = view.primary.rowCount)
    "primary terminal history and viewport are not contiguous"
  ensure (view.primary.historyRowCount ≤ historyLimits.rows ∧
      view.primary.historyBytes ≤ historyLimits.bytes)
    "primary terminal history exceeds its configured capacity"
  ensure (view.alternate.kind = .alternate ∧ view.alternate.allowsScrollback = false ∧
      view.alternate.historyRowCount = 0 ∧ view.alternate.historyBytes = 0 ∧
      view.alternate.viewportStart = 0 ∧ view.alternate.rowCount = view.rows)
    "alternate terminal screen must contain exactly one viewport and no history"

def generation (view : TerminalView) (epochSequenceStart : Nat) : Except String Nat := do
  let elapsed ← context (checkedSub view.sequence epochSequenceStart)
    "terminal sequence moved backwards within an epoch"
  context (checkedAdd 64 elapsed 1) "terminal generation overflowed"

namespace TerminalEngine

/-- An engine for a new emulator; `epoch` is a new UUID. -/
def new (terminal : TerminalView) (historyLimits : HistoryLimits)
    (epoch : Bytes) : TerminalEngine where
  terminal := terminal
  historyLimits := historyLimits
  epoch := epoch
  identityEpoch := terminal.identityEpoch
  epochSequenceStart := terminal.sequence
  cachedViewport := none

/-- The emulator parses some output, after which it has another view. -/
def advance (e : TerminalEngine) (terminal : TerminalView) : TerminalEngine :=
  { e with cachedViewport := none, terminal := terminal }

/-- The emulator takes another size, unless that is refused. -/
def resize (e : TerminalEngine) (rows columns : Nat) (terminal : TerminalView) :
    Except String Unit × TerminalEngine :=
  let e := { e with cachedViewport := none }
  if (1 ≤ rows ∧ rows ≤ TerminalState.maxDimension) ∧
      1 ≤ columns ∧ columns ≤ TerminalState.maxDimension then
    (.ok (), { e with terminal := terminal })
  else (.error "terminal dimensions are out of range", e)

/-- `uuid` is the new epoch, if one is needed. -/
def refreshIdentityEpoch (e : TerminalEngine) (uuid : Bytes) : TerminalEngine :=
  if e.terminal.identityEpoch ≠ e.identityEpoch then
    { e with
      epoch := uuid
      identityEpoch := e.terminal.identityEpoch
      epochSequenceStart := e.terminal.sequence }
  else e

section

variable (graphemeCount : String → Nat)

/-- What `export_state` makes of the view, once the epoch is that of the view. -/
def exportView (e : TerminalEngine) (viewportOnly : Bool) : Except String State := do
  let view := e.terminal
  validateAuthoritativeScreens view e.historyLimits
  let generation ← generation view e.epochSequenceStart
  let alternateRowCount := view.alternate.rowCount
  ensure (alternateRowCount ≤ TerminalState.maxIncludedRows)
    "alternate screen exceeds terminal state row budget"
  let primaryRowBudget :=
    if viewportOnly then view.rows else TerminalState.maxIncludedRows - alternateRowCount
  let (primary, tables) ← exportScreen view.primary primaryRowBudget e.epochSequenceStart generation
    .empty
  let (alternate, tables) ← exportScreen view.alternate alternateRowCount e.epochSequenceStart
    generation tables
  let rows ← tryFrom 32 view.rows
  let cols ← tryFrom 32 view.columns
  let state : State := {
    schemaVersion := TerminalState.schemaVersion
    epoch := e.epoch
    generation := generation
    rows := rows
    cols := cols
    primary := some primary
    alternate := some alternate
    activeScreen := match view.activeScreen with
      | .primary => 1
      | .alternate => 2
    styles := tables.styles
    hyperlinks := tables.hyperlinks
    modes := some (exportModes view.modes)
    title := view.title
    workingDirectory := view.workingDirectory.getD ""
    palette := some (exportPalette view.palette) }
  (TerminalState.validate graphemeCount state).mapError fun error =>
    "authoritative terminal state is invalid: " ++ error
  return state

def exportState (e : TerminalEngine) (viewportOnly : Bool) (uuid : Bytes) :
    Except String State × TerminalEngine :=
  let e := e.refreshIdentityEpoch uuid
  (e.exportView graphemeCount viewportOnly, e)

def semanticState (e : TerminalEngine) (uuid : Bytes) : Except String State × TerminalEngine :=
  e.exportState graphemeCount false uuid

/-- The viewport is kept until the emulator changes. -/
def semanticViewport (e : TerminalEngine) (uuid : Bytes) : Except String State × TerminalEngine :=
  match e.cachedViewport with
  | some state => (.ok state, e)
  | none =>
    match e.exportState graphemeCount true uuid with
    | (.error error, e) => (.error error, e)
    | (.ok state, e) => (.ok state, { e with cachedViewport := some state })

/-- The row is not before the anchor. -/
def atOrAfter (before : Anchor) (row : RowView) : Bool :=
  before.logicalLineId < row.identity.logicalLineId ∨
    (before.logicalLineId = row.identity.logicalLineId ∧
      before.cellOffset ≤ row.identity.cellOffset)

/-- What `history_page` makes of the view, once the request has been checked and the epoch is that
of the view. -/
def pageView (e : TerminalEngine) (requestId : Nat) (request : HistoryPageRequest) :
    Except String HistoryPage := do
  let view := e.terminal
  validateAuthoritativeScreens view e.historyLimits
  let generation ← generation view e.epochSequenceStart
  let primary := view.primary
  let rowCount := primary.rowCount
  let oldestAvailable ← anchorOf (primary.rows 0 1) "terminal screen has no oldest row"
  let newestAvailable ← anchorOf (primary.rows (rowCount - 1) 1) "terminal screen has no newest row"
  if request.epoch ≠ e.epoch then do
    let cols ← tryFrom 32 view.columns
    let page : HistoryPage := {
      requestId := requestId
      epoch := e.epoch
      generation := generation
      cols := cols
      includedRows := []
      oldestAvailable := some oldestAvailable
      newestAvailable := some newestAvailable
      includedStart := none
      includedEnd := none
      styles := []
      hyperlinks := []
      moreBefore := false
      resetRequired := true }
    TerminalState.validateHistoryPage graphemeCount page
    return page
  else do
    let before ← context request.before "history request anchor is missing"
    -- The rows before the anchor, as far as they are history.
    let endIndex := min ((primary.rows 0 rowCount).findIdx (atOrAfter before)) primary.viewportStart
    let startIndex := endIndex - request.maximumRows
    let (includedRows, tables) ← traverse
      (exportRow primary.columnCount e.epochSequenceStart generation) .empty
      (primary.rows startIndex (endIndex - startIndex))
    let cols ← tryFrom 32 view.columns
    let page : HistoryPage := {
      requestId := requestId
      epoch := e.epoch
      generation := generation
      cols := cols
      includedRows := includedRows
      oldestAvailable := some oldestAvailable
      newestAvailable := some newestAvailable
      includedStart := includedRows.head?.bind Row.start
      includedEnd := includedRows.getLast?.bind Row.start
      styles := tables.styles
      hyperlinks := tables.hyperlinks
      moreBefore := decide (startIndex > 0)
      resetRequired := false }
    (TerminalState.validateHistoryPage graphemeCount page).mapError fun _ =>
      "authoritative terminal history page is invalid"
    return page

def historyPage (e : TerminalEngine) (requestId : Nat) (request : HistoryPageRequest)
    (uuid : Bytes) : Except String HistoryPage × TerminalEngine :=
  match (do
      ensure (requestId > 0) "history request ID is zero"
      TerminalState.validateHistoryPageRequest request : Except String Unit) with
  | .error error => (.error error, e)
  | .ok _ =>
    let e := e.refreshIdentityEpoch uuid
    (e.pageView graphemeCount requestId request, e)

end

/-! ## A small terminal -/

/-- A cell with one ASCII character. -/
def asciiCell (column : Nat) (c : Char) (attributes : CellAttributes) : CellView :=
  ⟨column, c.toString, 1, attributes⟩

/-- A row of a logical line of its own. -/
def lineRow (id : Nat) (cells : List CellView) : RowView := ⟨⟨id, 0⟩, 1, cells, false⟩

/-- A screen of one row and two columns, with the rows before it as history. -/
def smallScreen (kind : ScreenKind) (lines : List RowView) : ScreenView where
  kind := kind
  allowsScrollback := kind = .primary
  lines := lines
  physicalRows := 1
  physicalCols := 2
  historyBytes := 0
  cursor := ⟨0, 0, .block, true, 1, false⟩
  savedCursor := none
  scrollMarginTop := 0
  scrollMarginBottom := 1
  scrollMarginLeft := 0
  scrollMarginRight := 2
  tabs := []

def smallView (lines : List RowView) (title : String) : TerminalView where
  primary := smallScreen .primary lines
  alternate := smallScreen .alternate [lineRow (2 ^ 63) []]
  activeScreen := .primary
  modes := ⟨false, false, false, false, false, false, true, false, false, false, false, false,
    .none, .default, .xterm⟩
  title := title
  workingDirectory := none
  palette := ⟨Vector.replicate 256 ⟨0, 0, 0⟩, ⟨0, 0, 0⟩, ⟨0, 0, 0⟩, ⟨0, 0, 0⟩, ⟨0, 0, 0⟩, ⟨0, 0, 0⟩,
    ⟨0, 0, 0⟩⟩
  sequence := 1
  identityEpoch := (1, 1)

/-- A terminal with a bold row in its history and an italic row on the screen. -/
def styledView : TerminalView :=
  smallView
    [lineRow 1 [asciiCell 0 'a' { CellAttributes.plain with intensity := .bold }],
      lineRow 2 [asciiCell 1 'b' { CellAttributes.plain with italic := true }]] "sh"

def smallEngine : TerminalEngine := new styledView ⟨100, 100⟩ (List.replicate 16 0)

end TerminalEngine

end AstraShell.Engine
