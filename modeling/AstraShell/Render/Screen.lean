import AstraShell.Lib.Escape
import AstraShell.TerminalState.Accepted

/-!
# The local renderer: its output

`render_screen`, `legacy_mode`, `legacy_sgr` and `ViewportRenderer` of `terminal_engine.rs`: the
characters that are sent to the local terminal to show the active screen of a state. With a
previous state, a row whose cells and tables did not change is left as it is.

`screenTokens` is what the renderer means to send, as a list of sequences and texts, and the
characters are exactly these (`renderScreen_eq`). For an accepted state a terminal reads them back
one by one (`screenTokens_block`).
-/

set_option autoImplicit false

namespace AstraShell.Render

open Lib Lib.Escape TerminalState Token Block

/-! ## Styles -/

/-- The entry of the style map; of entries with one identifier the last one counts. -/
def styleOf (styles : List Style) (id : Nat) : Option Style := styles.reverse.find? (·.id = id)

/-- The link with an identifier, found as `styleOf` finds a style. -/
def hyperlinkOf (hyperlinks : List Hyperlink) (id : Nat) : Option Hyperlink :=
  hyperlinks.reverse.find? (·.id = id)

/-- The code of a color, or `reset` for the default one. -/
def pushLegacyColor (color : Option Color) (selector reset : Nat) : Text :=
  match color.bind Color.value with
  | none | some (.defaultColor _) => decimal reset
  | some (.paletteIndex index) => decimal selector ++ ";5;".toList ++ decimal index
  | some (.rgb rgb) =>
    decimal selector ++ ";2;".toList ++ decimal (rgb >>> 16 &&& 0xff) ++ ";".toList ++
      decimal (rgb >>> 8 &&& 0xff) ++ ";".toList ++ decimal (rgb &&& 0xff)

/-- The codes of the attributes that the style has. -/
def attributeCodes (style : Style) : List Text :=
  (match style.intensity with
    | 1 => ["1".toList]
    | 2 => ["2".toList]
    | _ => []) ++
  (if style.italic then ["3".toList] else []) ++
  (match style.underline with
    | 1 => ["4".toList]
    | 2 => ["4:2".toList]
    | 3 => ["4:3".toList]
    | 4 => ["4:4".toList]
    | 5 => ["4:5".toList]
    | _ => []) ++
  (match style.blink with
    | 1 => ["5".toList]
    | 2 => ["6".toList]
    | _ => []) ++
  (if style.reverse then ["7".toList] else []) ++
  (if style.invisible then ["8".toList] else []) ++
  (if style.strikethrough then ["9".toList] else []) ++
  (if style.overline then ["53".toList] else [])

/-- All codes of a style. -/
def sgrCodes (style : Style) : List Text :=
  attributeCodes style ++ [pushLegacyColor style.foreground 38 39,
    pushLegacyColor style.background 48 49, pushLegacyColor style.underlineColor 58 59]

/-- The codes between semicolons. -/
def sgrParameters (style : Style) : Text := List.intercalate [';'] (sgrCodes style)

/-- The sequence that selects a style. -/
def legacySgr (style : Style) : Text :=
  if sgrCodes style = [] then []
  else "\x1b[".toList ++ sgrParameters style ++ "m".toList

/-- The sequence that sets a private mode. -/
def legacyMode (mode : Nat) (enabled : Bool) : Text :=
  "\x1b[?".toList ++ decimal mode ++ (if enabled then "h".toList else "l".toList)

/-! ## Cells and rows -/

section Output

variable (state : State) (rowIndex : Nat) (cell : Cell)

/-- A text with a control character. -/
def hasControl (s : String) : Bool := s.toList.any Text.isControl

/-- The link of a cell, unless its texts contain a control character. -/
def cellHyperlink : Option Hyperlink :=
  (hyperlinkOf state.hyperlinks cell.hyperlinkId).filter fun link =>
    !hasControl link.uri && !hasControl link.explicitId

/-- The command that opens a link, from the `8` to the address. -/
def hyperlinkBody (link : Hyperlink) : Text :=
  "8;".toList ++ (if link.explicitId = "" then [] else "id=".toList ++ link.explicitId.toList) ++
    ";".toList ++ link.uri.toList

/-- The style of a cell, if its table has it. -/
def renderStyle : Text :=
  match styleOf state.styles cell.styleId with
  | some style => legacySgr style
  | none => []

/-- The opening of the link of a cell. -/
def renderHyperlink : Text :=
  match cellHyperlink state cell with
  | some link => "\x1b]".toList ++ hyperlinkBody link ++ "\x1b\\".toList
  | none => []

/-- The grapheme, unless it has a control character. -/
def renderGrapheme : Text :=
  if hasControl cell.grapheme then [] else cell.grapheme.toList

/-- Every cell with a link ends the link, whether it was opened or not. -/
def renderHyperlinkEnd : Text :=
  if cell.hyperlinkId ≠ 0 then "\x1b]8;;\x1b\\".toList else []

/-- The cursor moves; rows and columns count from one. -/
def renderMove (row column : Nat) : Text :=
  "\x1b[".toList ++ decimal row ++ ";".toList ++ decimal column ++ "H".toList

/-- The default style. -/
def renderReset : Text := "\x1b[0m".toList

/-- One cell, at its place and in its own style. -/
def renderCell : Text :=
  renderMove (rowIndex + 1) (cell.column + 1) ++ renderReset ++ renderStyle state cell ++
    renderHyperlink state cell ++ renderGrapheme cell ++ renderHyperlinkEnd cell

/-- A row is erased, then its cells are sent. -/
def renderRow (row : Row) : Text :=
  "\x1b[".toList ++ decimal (rowIndex + 1) ++ ";1H\x1b[0m\x1b[2K".toList ++
    row.cells.flatMap (renderCell state rowIndex)

/-- The row was already shown by the previous output. -/
def unchangedRow (state : State) (previous : Option (State × Screen)) (rowIndex : Nat) (row : Row) :
    Bool :=
  previous.any fun (old, oldScreen) =>
    old.styles = state.styles ∧ old.hyperlinks = state.hyperlinks ∧ old.palette = state.palette ∧
      (oldScreen.includedRows[oldScreen.viewportStart + rowIndex]?).any fun oldRow =>
        oldRow.cells = row.cells

/-- The rows on the screen, with their positions. -/
def visibleRows (state : State) (screen : Screen) : List (Row × Nat) :=
  ((screen.includedRows.drop screen.viewportStart).take state.rows).zipIdx

end Output

/-! ## The screen -/

/-- The number of a cursor shape; the block is the default. -/
def shapeNumber (shape : Int) : Nat :=
  match shape with
  | 3 => 5
  | 2 => 3
  | _ => 1

/-- The shape, place and visibility of the cursor. -/
def renderCursor (cursor : Cursor) : Text :=
  "\x1b[".toList ++ decimal (shapeNumber cursor.shape) ++ " q".toList ++
    renderMove (cursor.y + 1) (cursor.x + 1) ++
    (if cursor.visible then "\x1b[?25h".toList else "\x1b[?25l".toList)

/-- The mouse modes that are reset before one is selected. -/
def mouseModes : List Nat := [9, 1000, 1002, 1003, 1005, 1006, 1016]

/-- The mode that reports the mouse. -/
def mouseTrackingSetting (modes : Modes) : List (Nat × Bool) :=
  match modes.mouseTracking with
  | 1 => [(9, true)]
  | 2 => [(1000, true)]
  | 3 => [(1002, true)]
  | 4 => [(1003, true)]
  | _ => []

/-- The mode that encodes its reports. -/
def mouseEncodingSetting (modes : Modes) : List (Nat × Bool) :=
  match modes.mouseEncoding with
  | 1 => [(1005, true)]
  | 2 => [(1006, true)]
  | 3 => [(1016, true)]
  | _ => []

/-- The private modes that are set from the modes of the state, in the order of the output. -/
def modeSettings (modes : Modes) (restoreOutputModes : Bool) : List (Nat × Bool) :=
  mouseModes.map (·, false) ++
  [(1, modes.applicationCursorKeys), (5, modes.reverseVideo)] ++
  (if restoreOutputModes then
    [(6, modes.origin), (7, modes.autoWrap), (45, modes.reverseWraparound),
      (69, modes.leftRightMargin)]
  else []) ++
  [(1004, modes.focusTracking), (1007, modes.alternateScroll), (2004, modes.bracketedPaste)] ++
  mouseTrackingSetting modes ++ mouseEncodingSetting modes

/-- The flags of the keyboard protocol. -/
def keyboardNumber (modes : Modes) : Nat :=
  match modes.keyboardEncoding with
  | 2 => modes.keyboardFlags
  | 1 => 1
  | _ => 0

/-- The private modes, the keypad and the keyboard. -/
def renderModes (modes : Modes) (restoreOutputModes : Bool) : Text :=
  (modeSettings modes restoreOutputModes).flatMap
  (fun (mode, enabled) => legacyMode mode enabled) ++
    (if modes.applicationKeypad then "\x1b=".toList else "\x1b>".toList) ++
    "\x1b[=".toList ++ decimal (keyboardNumber modes) ++ "u".toList

/-- The output for a screen. -/
def renderScreen (state : State) (screen : Screen) (previous : Option (State × Screen))
    (restoreOutputModes : Bool) : Text :=
  (if restoreOutputModes then "\x1b[2J\x1b[H".toList else []) ++
    "\x1b[?25l\x1b[?6l\x1b[?69l\x1b[r\x1b[?7l\x1b[4l\x1b[0m".toList ++
    (if previous.isNone ∧ ¬ restoreOutputModes then "\x1b[2J\x1b[H".toList else []) ++
    (visibleRows state screen).flatMap (fun (row, rowIndex) =>
      if unchangedRow state previous rowIndex row then [] else renderRow state rowIndex row) ++
    renderReset ++
    (match screen.cursor with
      | some cursor => renderCursor cursor
      | none => []) ++
    (match state.modes with
      | some modes => renderModes modes restoreOutputModes
      | none => [])

/-! ## The renderer -/

/-- The screen that the state shows. -/
def activeScreen (state : State) : Option Screen :=
  if state.activeScreen = 2 then state.alternate else state.primary

/-- A renderer, with the state it showed last. -/
structure ViewportRenderer where
  previous : Option State

namespace ViewportRenderer

/-- A renderer that has shown nothing. -/
def fresh : ViewportRenderer := ⟨none⟩

/-- The state that the output can build on: the last one, if it has the same geometry and shows the
same screen. -/
def previousFor (r : ViewportRenderer) (state : State) : Option (State × Screen) :=
  (r.previous.filter fun old =>
    old.rows = state.rows ∧ old.cols = state.cols ∧ old.activeScreen = state.activeScreen).bind
    fun old => (activeScreen old).map fun screen => (old, screen)

/-- The output for a state that is valid. -/
def render (graphemeCount : String → Nat) (r : ViewportRenderer) (state : State) :
    Except String (Text × ViewportRenderer) := do
  validate graphemeCount state
  let screen ← context (activeScreen state) "active viewport missing"
  return (renderScreen state screen (r.previousFor state) false, ⟨some state⟩)

/-- The next output repaints everything. -/
def invalidate (_ : ViewportRenderer) : ViewportRenderer := ⟨none⟩

end ViewportRenderer

/-! ## What the renderer means to send -/

/-- The token of `renderReset`. -/
def resetPen : Token := .csi "0".toList 'm'

/-- The token of `renderMove`. -/
def moveTo (row column : Nat) : Token := .csi (decimal row ++ ';' :: decimal column) 'H'

/-- The token of `legacyMode`. -/
def setMode (mode : Nat) (enabled : Bool) : Token :=
  .csi ('?' :: decimal mode) (if enabled then 'h' else 'l')

/-- The display is erased and the cursor goes home. -/
def eraseDisplay : List Token := [.csi "2".toList 'J', .csi [] 'H']

/-- The beginning of every output: the cursor is hidden and painting follows no mode. -/
def prelude : List Token :=
  [setMode 25 false, setMode 6 false, setMode 69 false, .csi [] 'r', setMode 7 false,
    .csi "4".toList 'l', resetPen]

section Tokens

variable (state : State) (rowIndex : Nat) (cell : Cell)

/-- The tokens of `renderStyle`. -/
def penTokens : List Token :=
  match styleOf state.styles cell.styleId with
  | some style => [.csi (sgrParameters style) 'm']
  | none => []

/-- The tokens of `renderHyperlink`. -/
def linkTokens : List Token :=
  match cellHyperlink state cell with
  | some link => [.osc (hyperlinkBody link)]
  | none => []

/-- The sequences before the grapheme of a cell. -/
def openTokens : List Token :=
  moveTo (rowIndex + 1) (cell.column + 1) :: resetPen ::
    (penTokens state cell ++ linkTokens state cell)

/-- The tokens of `renderGrapheme`. -/
def graphemeTokens : List Token :=
  if hasControl cell.grapheme then [] else [.text cell.grapheme.toList]

/-- The tokens of `renderHyperlinkEnd`. -/
def closeTokens : List Token :=
  if cell.hyperlinkId ≠ 0 then [.osc "8;;".toList] else []

/-- The tokens of `renderCell`. -/
def cellTokens : List Token :=
  openTokens state rowIndex cell ++ graphemeTokens cell ++ closeTokens cell

/-- The tokens of `renderRow`. -/
def rowTokens (row : Row) : List Token :=
  [moveTo (rowIndex + 1) 1, resetPen, .csi "2".toList 'K'] ++
    row.cells.flatMap (cellTokens state rowIndex)

end Tokens

/-- The tokens of `renderCursor`. -/
def cursorTokens (cursor : Cursor) : List Token :=
  [.csi (decimal (shapeNumber cursor.shape) ++ " ".toList) 'q',
    moveTo (cursor.y + 1) (cursor.x + 1), setMode 25 cursor.visible]

/-- The tokens of `renderModes`. -/
def modeTokens (modes : Modes) (restoreOutputModes : Bool) : List Token :=
  (modeSettings modes restoreOutputModes).map (fun (mode, enabled) => setMode mode enabled) ++
    [.escape (if modes.applicationKeypad then '=' else '>'),
      .csi ('=' :: decimal (keyboardNumber modes)) 'u']

/-- The rows that are painted. -/
def paintedRows (state : State) (screen : Screen) (previous : Option (State × Screen)) :
    List (Row × Nat) :=
  (visibleRows state screen).filter fun (row, rowIndex) =>
    !unchangedRow state previous rowIndex row

/-- The tokens of `renderScreen`. -/
def screenTokens (state : State) (screen : Screen) (previous : Option (State × Screen))
    (restoreOutputModes : Bool) : List Token :=
  (if restoreOutputModes then eraseDisplay else []) ++ prelude ++
    (if previous.isNone ∧ ¬ restoreOutputModes then eraseDisplay else []) ++
    (paintedRows state screen previous).flatMap (fun (row, rowIndex) =>
      rowTokens state rowIndex row) ++
    [resetPen] ++ screen.cursor.toList.flatMap cursorTokens ++
    state.modes.toList.flatMap (modeTokens · restoreOutputModes)

/-! ## The output is what the renderer means to send -/

section Encoding

variable (state : State) (rowIndex : Nat) (cell : Cell)

theorem legacySgr_eq (style : Style) :
    legacySgr style = encode (.csi (sgrParameters style) 'm') := by
  have hne : sgrCodes style ≠ [] := by simp [sgrCodes]
  rw [legacySgr, if_neg hne, encode]
  simp [esc]

theorem legacyMode_eq (mode : Nat) (enabled : Bool) :
    legacyMode mode enabled = (setMode mode enabled).encode := by
  cases enabled <;> simp [legacyMode, setMode, encode, esc]

theorem renderMove_eq (row column : Nat) : renderMove row column = (moveTo row column).encode := by
  simp [renderMove, moveTo, encode, esc]

theorem renderReset_eq : renderReset = resetPen.encode := by decide

theorem renderStyle_eq : renderStyle state cell = (penTokens state cell).flatMap encode := by
  rw [renderStyle, penTokens]
  cases styleOf state.styles cell.styleId with
  | none => rfl
  | some style => simp [legacySgr_eq]

theorem renderHyperlink_eq :
    renderHyperlink state cell = (linkTokens state cell).flatMap encode := by
  rw [renderHyperlink, linkTokens]
  cases cellHyperlink state cell with
  | none => rfl
  | some link => simp [encode, esc]

theorem renderGrapheme_eq : renderGrapheme cell = (graphemeTokens cell).flatMap encode := by
  rw [renderGrapheme, graphemeTokens]
  split <;> simp [encode]

theorem renderHyperlinkEnd_eq : renderHyperlinkEnd cell = (closeTokens cell).flatMap encode := by
  rw [renderHyperlinkEnd, closeTokens]
  split <;> simp [encode, esc]

theorem renderCell_eq :
    renderCell state rowIndex cell = (cellTokens state rowIndex cell).flatMap encode := by
  rw [renderCell, renderMove_eq, renderReset_eq, renderStyle_eq, renderHyperlink_eq,
    renderGrapheme_eq, renderHyperlinkEnd_eq, cellTokens, openTokens]
  simp only [List.flatMap_append, List.flatMap_cons, List.append_assoc, List.cons_append]

theorem renderRow_eq (row : Row) :
    renderRow state rowIndex row = (rowTokens state rowIndex row).flatMap encode := by
  have hcells : row.cells.flatMap (renderCell state rowIndex) =
      (row.cells.flatMap (cellTokens state rowIndex)).flatMap encode := by
    rw [List.flatMap_assoc]
    exact List.flatMap_congr fun cell _ => renderCell_eq state rowIndex cell
  have hone : decimal 1 = "1".toList := by decide
  rw [renderRow, hcells]
  simp [rowTokens, moveTo, resetPen, encode, esc, hone]

end Encoding

theorem renderCursor_eq (cursor : Cursor) :
    renderCursor cursor = (cursorTokens cursor).flatMap encode := by
  have hmode : decimal 25 = "25".toList := by decide
  rw [renderCursor, renderMove_eq]
  cases hvisible : cursor.visible <;>
    simp [cursorTokens, hvisible, setMode, encode, esc, hmode]

theorem renderModes_eq (modes : Modes) (restoreOutputModes : Bool) :
    renderModes modes restoreOutputModes =
      (modeTokens modes restoreOutputModes).flatMap encode := by
  have hsettings : (modeSettings modes restoreOutputModes).flatMap
      (fun (mode, enabled) => legacyMode mode enabled) =
      ((modeSettings modes restoreOutputModes).map
        (fun (mode, enabled) => setMode mode enabled)).flatMap encode := by
    rw [List.flatMap_map]
    exact List.flatMap_congr fun setting _ => legacyMode_eq setting.1 setting.2
  rw [renderModes, hsettings, modeTokens, List.flatMap_append]
  cases modes.applicationKeypad <;> simp [encode, esc]

/-- The output is the encoding of what the renderer means to send. -/
theorem renderScreen_eq (state : State) (screen : Screen) (previous : Option (State × Screen))
    (restoreOutputModes : Bool) :
    renderScreen state screen previous restoreOutputModes =
      (screenTokens state screen previous restoreOutputModes).flatMap encode := by
  have herase : "\x1b[2J\x1b[H".toList = eraseDisplay.flatMap encode := by decide
  have hprelude : "\x1b[?25l\x1b[?6l\x1b[?69l\x1b[r\x1b[?7l\x1b[4l\x1b[0m".toList =
      prelude.flatMap encode := by decide
  have hrows : (visibleRows state screen).flatMap (fun (row, rowIndex) =>
      if unchangedRow state previous rowIndex row then [] else renderRow state rowIndex row) =
      ((paintedRows state screen previous).flatMap (fun (row, rowIndex) =>
        rowTokens state rowIndex row)).flatMap encode := by
    rw [paintedRows]
    induction visibleRows state screen with
    | nil => rfl
    | cons entry entries ih =>
      rw [List.flatMap_cons, ih, List.filter_cons]
      cases hskip : unchangedRow state previous entry.2 entry.1 <;>
        simp [hskip, renderRow_eq, List.flatMap_append]
  have hcursor : (match screen.cursor with
      | some cursor => renderCursor cursor
      | none => []) = (screen.cursor.toList.flatMap cursorTokens).flatMap encode := by
    cases screen.cursor <;> simp [renderCursor_eq]
  have hmodes : (match state.modes with
      | some modes => renderModes modes restoreOutputModes
      | none => []) =
      (state.modes.toList.flatMap (modeTokens · restoreOutputModes)).flatMap encode := by
    cases state.modes <;> simp [renderModes_eq]
  rw [renderScreen, herase, hprelude, renderReset_eq, hrows, hcursor, hmodes, screenTokens]
  split <;> split <;> simp

/-! ## The sequences are well formed -/

theorem isParameter_decimal {n : Nat} : ∀ c ∈ decimal n, isParameter c = true :=
  fun _ h => isParameter_of_isDigit (isDigit_of_mem_decimal h)

theorem isParameter_intercalate {codes : List Text}
    (h : ∀ code ∈ codes, ∀ c ∈ code, isParameter c = true) :
    ∀ c ∈ List.intercalate [';'] codes, isParameter c = true := by
  induction codes with
  | nil => simp
  | cons code codes ih =>
    obtain ⟨hcode, hcodes⟩ := List.forall_mem_cons.1 h
    cases codes with
    | nil => simpa using hcode
    | cons next codes =>
      rw [List.intercalate_cons_cons]
      exact List.forall_mem_append.2 ⟨List.forall_mem_append.2 ⟨hcode, by decide⟩, ih hcodes⟩

theorem isParameter_attributeCodes (style : Style) :
    ∀ code ∈ attributeCodes style, ∀ c ∈ code, isParameter c = true := by
  simp only [attributeCodes, List.forall_mem_append]
  refine ⟨⟨⟨⟨⟨⟨⟨?_, ?_⟩, ?_⟩, ?_⟩, ?_⟩, ?_⟩, ?_⟩, ?_⟩ <;> split <;> decide

theorem isParameter_pushLegacyColor (color : Option Color) (selector reset : Nat) :
    ∀ c ∈ pushLegacyColor color selector reset, isParameter c = true := by
  unfold pushLegacyColor
  split
  · exact isParameter_decimal
  · exact isParameter_decimal
  · simp only [List.forall_mem_append]
    exact ⟨⟨isParameter_decimal, by decide⟩, isParameter_decimal⟩
  · simp only [List.forall_mem_append]
    exact ⟨⟨⟨⟨⟨⟨isParameter_decimal, by decide⟩, isParameter_decimal⟩, by decide⟩,
      isParameter_decimal⟩, by decide⟩, isParameter_decimal⟩

theorem isParameter_sgrParameters (style : Style) :
    ∀ c ∈ sgrParameters style, isParameter c = true := by
  refine isParameter_intercalate (List.forall_mem_append.2 ⟨isParameter_attributeCodes style, ?_⟩)
  simp only [List.forall_mem_cons]
  exact ⟨isParameter_pushLegacyColor _ _ _, isParameter_pushLegacyColor _ _ _,
    isParameter_pushLegacyColor _ _ _, nofun⟩

/-- A well-formed sequence, and not text. -/
def Sequence (t : Token) : Prop := t.WellFormed ∧ t.isText = false

theorem sequence_setMode (mode : Nat) (enabled : Bool) : Sequence (setMode mode enabled) := by
  refine ⟨⟨List.forall_mem_cons.2 ⟨by decide, isParameter_decimal⟩, ?_⟩, rfl⟩
  cases enabled <;> decide

theorem sequence_moveTo (row column : Nat) : Sequence (moveTo row column) :=
  ⟨⟨List.forall_mem_append.2 ⟨isParameter_decimal,
    List.forall_mem_cons.2 ⟨by decide, isParameter_decimal⟩⟩, by decide⟩, rfl⟩

theorem sequence_resetPen : Sequence resetPen := ⟨by decide, rfl⟩

theorem hasControl_eq_false_iff (s : String) :
    hasControl s = false ↔ ∀ c ∈ s.toList, Text.isControl c = false := by
  simp [hasControl]

variable {state : State}

theorem isControl_hyperlinkBody {link : Hyperlink}
    (huri : ∀ c ∈ link.uri.toList, Text.isControl c = false)
    (hid : ∀ c ∈ link.explicitId.toList, Text.isControl c = false) :
    ∀ c ∈ hyperlinkBody link, Text.isControl c = false := by
  simp only [hyperlinkBody, List.forall_mem_append]
  refine ⟨⟨⟨by decide, ?_⟩, by decide⟩, huri⟩
  split
  · exact nofun
  · exact List.forall_mem_append.2 ⟨by decide, hid⟩

theorem sequence_openTokens (state : State) (rowIndex : Nat) (cell : Cell) :
    ∀ t ∈ openTokens state rowIndex cell, Sequence t := by
  simp only [openTokens, List.forall_mem_cons, List.forall_mem_append]
  refine ⟨sequence_moveTo _ _, sequence_resetPen, ?_, ?_⟩
  · rw [penTokens]
    split
    next style _ =>
      exact List.forall_mem_singleton.2 ⟨⟨isParameter_sgrParameters style, by decide⟩, rfl⟩
    next => exact nofun
  · rw [linkTokens]
    split
    next link hlink =>
      obtain ⟨-, hclean⟩ := Option.filter_eq_some_iff.1 hlink
      rw [Bool.and_eq_true, Bool.not_eq_true', Bool.not_eq_true'] at hclean
      exact List.forall_mem_singleton.2 ⟨isControl_hyperlinkBody
        ((hasControl_eq_false_iff _).1 hclean.1) ((hasControl_eq_false_iff _).1 hclean.2), rfl⟩
    next => exact nofun

theorem sequence_closeTokens (cell : Cell) : ∀ t ∈ closeTokens cell, Sequence t := by
  rw [closeTokens]
  split
  · exact List.forall_mem_singleton.2 ⟨by decide, rfl⟩
  · exact nofun

/-- The grapheme of a cell is the only text, and it stands between sequences. -/
theorem cellTokens_block (state : State) (rowIndex : Nat) {cell : Cell}
    (hne : cell.grapheme ≠ "") : Block (cellTokens state rowIndex cell) := by
  have hopen : openTokens state rowIndex cell ≠ [] := List.cons_ne_nil _ _
  rw [cellTokens]
  refine append ?_ (of_sequences (sequence_closeTokens cell))
  rw [graphemeTokens]
  split
  next =>
    rw [List.append_nil]
    exact of_sequences (sequence_openTokens state rowIndex cell)
  next hclean =>
    refine append_text hopen (sequence_openTokens state rowIndex cell) ⟨?_, ?_⟩
    · simpa using hne
    · exact (hasControl_eq_false_iff _).1 (by simpa using hclean)

theorem rowTokens_block (state : State) (rowIndex : Nat) {row : Row}
    (hne : ∀ cell ∈ row.cells, cell.grapheme ≠ "") : Block (rowTokens state rowIndex row) := by
  refine append (of_sequences ?_)
    (flatMap fun cell hcell => cellTokens_block state rowIndex (hne cell hcell))
  simp only [List.forall_mem_cons]
  exact ⟨sequence_moveTo _ _, sequence_resetPen, ⟨by decide, rfl⟩, nofun⟩

theorem cursorTokens_block (cursor : Cursor) : Block (cursorTokens cursor) := by
  refine of_sequences ?_
  simp only [cursorTokens, List.forall_mem_cons]
  exact ⟨⟨⟨List.forall_mem_append.2 ⟨isParameter_decimal, by decide⟩, by decide⟩, rfl⟩,
    sequence_moveTo _ _, sequence_setMode _ _, nofun⟩

theorem modeTokens_block (modes : Modes) (restoreOutputModes : Bool) :
    Block (modeTokens modes restoreOutputModes) := by
  refine of_sequences (List.forall_mem_append.2 ⟨?_, ?_⟩)
  · intro t ht
    obtain ⟨setting, -, rfl⟩ := List.mem_map.1 ht
    exact sequence_setMode _ _
  · simp only [List.forall_mem_cons]
    refine ⟨⟨?_, rfl⟩, ⟨⟨List.forall_mem_cons.2 ⟨by decide, isParameter_decimal⟩, by decide⟩, rfl⟩,
      nofun⟩
    cases modes.applicationKeypad <;> decide

theorem eraseDisplay_block : Block eraseDisplay := by
  refine of_sequences ?_
  decide

theorem prelude_block : Block prelude := by
  refine of_sequences ?_
  decide

variable {screen : Screen}

/-- Every visible row is a row of the screen. -/
theorem mem_of_mem_visibleRows {row : Row} {rowIndex : Nat}
    (h : (row, rowIndex) ∈ visibleRows state screen) : row ∈ screen.includedRows :=
  List.mem_of_mem_drop (List.mem_of_mem_take (List.fst_mem_of_mem_zipIdx h))

theorem screenTokens_block
    (hne : ∀ row ∈ screen.includedRows, ∀ cell ∈ row.cells, cell.grapheme ≠ "")
    (previous : Option (State × Screen)) (restoreOutputModes : Bool) :
    Block (screenTokens state screen previous restoreOutputModes) := by
  have herase : ∀ p : Prop, ∀ [Decidable p], Block (if p then eraseDisplay else []) := by
    intro p _
    split
    · exact eraseDisplay_block
    · exact nil
  have hrows : Block ((paintedRows state screen previous).flatMap fun (row, rowIndex) =>
      rowTokens state rowIndex row) :=
    flatMap fun entry hentry =>
      rowTokens_block state entry.2
        (hne entry.1 (mem_of_mem_visibleRows (List.mem_of_mem_filter hentry)))
  have hreset : Block [resetPen] := of_sequences (by decide)
  rw [screenTokens]
  exact ((((((herase _).append prelude_block).append (herase _)).append hrows).append hreset).append
    (flatMap fun cursor _ => cursorTokens_block cursor)).append
    (flatMap fun modes _ => modeTokens_block modes restoreOutputModes)

/-- A terminal reads the output for an accepted state as what the renderer means to send. -/
theorem split_renderScreen
    (hne : ∀ row ∈ screen.includedRows, ∀ cell ∈ row.cells, cell.grapheme ≠ "")
    (previous : Option (State × Screen)) (restoreOutputModes : Bool) :
    split (renderScreen state screen previous restoreOutputModes) =
      screenTokens state screen previous restoreOutputModes := by
  rw [renderScreen_eq]
  exact (screenTokens_block hne previous restoreOutputModes).split

end AstraShell.Render
