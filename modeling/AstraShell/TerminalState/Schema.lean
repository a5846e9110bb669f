import AstraShell.Lib.Wire

/-!
# Terminal State v2: the schema

The messages of `terminal_state_v2.rs` with the fields a modelled function reads, and the length of
each message on the wire. `u32`, `u64` and `usize` values are natural numbers; an enumeration field
holds the raw `i32` a peer sent, as the source does, so that an unknown value is representable.
-/

set_option autoImplicit false

namespace AstraShell.TerminalState

open Lib.Wire

/-- Raw bytes. -/
abbrev Bytes := List UInt8

def schemaVersion : Nat := 2
def epochBytes : Nat := 16
def maxEncodedStateBytes : Nat := 8 * 1024 * 1024
def maxEncodedHistoryPageBytes : Nat := 4 * 1024 * 1024
def maxDimension : Nat := 1000
def maxIncludedRows : Nat := 4096
def maxHistoryPageRows : Nat := 512
def maxCells : Nat := 1000000
def maxGraphemeBytes : Nat := 256
def maxStyles : Nat := 4096
def maxHyperlinks : Nat := 4096
def maxHyperlinkUriBytes : Nat := 16 * 1024
def maxHyperlinkExplicitIdBytes : Nat := 1024
def maxTitleBytes : Nat := 512
def maxWorkingDirectoryBytes : Nat := 16 * 1024

/-- A position in a logical line. -/
structure Anchor where
  logicalLineId : Nat
  cellOffset : Nat
  deriving DecidableEq

/-- One grapheme of a row. -/
structure Cell where
  column : Nat
  grapheme : String
  width : Nat
  styleId : Nat
  hyperlinkId : Nat
  deriving DecidableEq

/-- One physical row. -/
structure Row where
  start : Option Anchor
  rowVersion : Nat
  cells : List Cell
  wrappedToNext : Bool
  deriving DecidableEq

/-- A cursor with its logical position. -/
structure Cursor where
  x : Nat
  y : Nat
  anchor : Option Anchor
  shape : Int
  visible : Bool
  version : Nat
  wrapPending : Bool
  deriving DecidableEq

/-- The primary or the alternate screen. -/
structure Screen where
  includedRows : List Row
  viewportStart : Nat
  cursor : Option Cursor
  savedCursor : Option Cursor
  oldestAvailable : Option Anchor
  newestAvailable : Option Anchor
  includedStart : Option Anchor
  includedEnd : Option Anchor
  scrollMarginTop : Nat
  scrollMarginBottom : Nat
  scrollMarginLeft : Nat
  scrollMarginRight : Nat
  tabStops : List Nat
  deriving DecidableEq

/-- The value of a color. -/
inductive ColorValue where
  | defaultColor (present : Bool)
  | paletteIndex (index : Nat)
  | rgb (value : Nat)
  deriving DecidableEq

structure Color where
  value : Option ColorValue
  deriving DecidableEq

/-- One entry of the style table. -/
structure Style where
  id : Nat
  foreground : Option Color
  background : Option Color
  underlineColor : Option Color
  intensity : Int
  underline : Int
  blink : Int
  italic : Bool
  reverse : Bool
  strikethrough : Bool
  invisible : Bool
  overline : Bool
  semanticType : Int
  verticalAlign : Int
  deriving DecidableEq

/-- One entry of the hyperlink table. -/
structure Hyperlink where
  id : Nat
  uri : String
  explicitId : String
  deriving DecidableEq

/-- Terminal modes. -/
structure Modes where
  applicationCursorKeys : Bool
  applicationKeypad : Bool
  bracketedPaste : Bool
  focusTracking : Bool
  origin : Bool
  insert : Bool
  autoWrap : Bool
  reverseWraparound : Bool
  newline : Bool
  leftRightMargin : Bool
  reverseVideo : Bool
  mouseTracking : Int
  mouseEncoding : Int
  keyboardEncoding : Int
  keyboardFlags : Nat
  alternateScroll : Bool
  deriving DecidableEq

structure Palette where
  indexedRgb : List Nat
  foregroundRgb : Nat
  backgroundRgb : Nat
  cursorFgRgb : Nat
  cursorBgRgb : Nat
  selectionFgRgb : Nat
  selectionBgRgb : Nat
  deriving DecidableEq

/-- A complete semantic state of the terminal. -/
structure State where
  schemaVersion : Nat
  epoch : Bytes
  generation : Nat
  rows : Nat
  cols : Nat
  primary : Option Screen
  alternate : Option Screen
  activeScreen : Int
  styles : List Style
  hyperlinks : List Hyperlink
  modes : Option Modes
  title : String
  workingDirectory : String
  palette : Option Palette
  deriving DecidableEq

/-- A request for the rows before an anchor. -/
structure HistoryPageRequest where
  epoch : Bytes
  before : Option Anchor
  maximumRows : Nat

/-- One page of scrollback. -/
structure HistoryPage where
  requestId : Nat
  epoch : Bytes
  generation : Nat
  cols : Nat
  includedRows : List Row
  oldestAvailable : Option Anchor
  newestAvailable : Option Anchor
  includedStart : Option Anchor
  includedEnd : Option Anchor
  styles : List Style
  hyperlinks : List Hyperlink
  moreBefore : Bool
  resetRequired : Bool

/-! ## Encoded lengths -/

/-- A string field, measured in UTF-8 bytes. -/
def stringField (tag : Nat) (s : String) : Nat := bytesField tag s.utf8ByteSize

def Anchor.encodedLen (a : Anchor) : Nat :=
  uintField 1 a.logicalLineId + uintField 2 a.cellOffset

def Cell.encodedLen (c : Cell) : Nat :=
  uintField 1 c.column + stringField 2 c.grapheme + uintField 3 c.width + uintField 4 c.styleId +
    uintField 5 c.hyperlinkId

def Row.encodedLen (r : Row) : Nat :=
  optionField 1 Anchor.encodedLen r.start + uintField 2 r.rowVersion +
    repeatedField 3 Cell.encodedLen r.cells + boolField 4 r.wrappedToNext

def Cursor.encodedLen (c : Cursor) : Nat :=
  uintField 1 c.x + uintField 2 c.y + optionField 3 Anchor.encodedLen c.anchor +
    int32Field 4 c.shape + boolField 5 c.visible + uintField 6 c.version +
    boolField 7 c.wrapPending

def Screen.encodedLen (s : Screen) : Nat :=
  repeatedField 1 Row.encodedLen s.includedRows + uintField 2 s.viewportStart +
    optionField 3 Cursor.encodedLen s.cursor + optionField 4 Cursor.encodedLen s.savedCursor +
    optionField 5 Anchor.encodedLen s.oldestAvailable +
    optionField 6 Anchor.encodedLen s.newestAvailable +
    optionField 7 Anchor.encodedLen s.includedStart +
    optionField 8 Anchor.encodedLen s.includedEnd + uintField 9 s.scrollMarginTop +
    uintField 10 s.scrollMarginBottom + uintField 11 s.scrollMarginLeft +
    uintField 12 s.scrollMarginRight + packedField 13 s.tabStops

/-- A member of a oneof is written even when it has its default value. -/
def ColorValue.encodedLen : ColorValue → Nat
  | .defaultColor _ => keyLen 1 + 1
  | .paletteIndex index => keyLen 2 + varintLen index
  | .rgb value => keyLen 3 + varintLen value

def Color.encodedLen (c : Color) : Nat :=
  match c.value with
  | none => 0
  | some v => v.encodedLen

def Style.encodedLen (s : Style) : Nat :=
  uintField 1 s.id + optionField 2 Color.encodedLen s.foreground +
    optionField 3 Color.encodedLen s.background +
    optionField 4 Color.encodedLen s.underlineColor + int32Field 5 s.intensity +
    int32Field 6 s.underline + int32Field 7 s.blink + boolField 8 s.italic +
    boolField 9 s.reverse + boolField 10 s.strikethrough + boolField 11 s.invisible +
    boolField 12 s.overline + int32Field 13 s.semanticType + int32Field 14 s.verticalAlign

def Hyperlink.encodedLen (h : Hyperlink) : Nat :=
  uintField 1 h.id + stringField 2 h.uri + stringField 3 h.explicitId

def Modes.encodedLen (m : Modes) : Nat :=
  boolField 1 m.applicationCursorKeys + boolField 2 m.applicationKeypad +
    boolField 3 m.bracketedPaste + boolField 4 m.focusTracking + boolField 5 m.origin +
    boolField 6 m.insert + boolField 7 m.autoWrap + boolField 8 m.reverseWraparound +
    boolField 9 m.newline + boolField 10 m.leftRightMargin + boolField 11 m.reverseVideo +
    int32Field 12 m.mouseTracking + int32Field 13 m.mouseEncoding +
    int32Field 14 m.keyboardEncoding + uintField 15 m.keyboardFlags +
    boolField 16 m.alternateScroll

def Palette.encodedLen (p : Palette) : Nat :=
  packedField 1 p.indexedRgb + uintField 2 p.foregroundRgb + uintField 3 p.backgroundRgb +
    uintField 4 p.cursorFgRgb + uintField 5 p.cursorBgRgb + uintField 6 p.selectionFgRgb +
    uintField 7 p.selectionBgRgb

def State.encodedLen (s : State) : Nat :=
  uintField 1 s.schemaVersion + bytesField 2 s.epoch.length + uintField 3 s.generation +
    uintField 4 s.rows + uintField 5 s.cols + optionField 6 Screen.encodedLen s.primary +
    optionField 7 Screen.encodedLen s.alternate + int32Field 8 s.activeScreen +
    repeatedField 9 Style.encodedLen s.styles +
    repeatedField 10 Hyperlink.encodedLen s.hyperlinks +
    optionField 11 Modes.encodedLen s.modes + stringField 12 s.title +
    stringField 13 s.workingDirectory + optionField 14 Palette.encodedLen s.palette

def HistoryPage.encodedLen (p : HistoryPage) : Nat :=
  uintField 1 p.requestId + bytesField 2 p.epoch.length + uintField 3 p.generation +
    uintField 4 p.cols + repeatedField 5 Row.encodedLen p.includedRows +
    optionField 6 Anchor.encodedLen p.oldestAvailable +
    optionField 7 Anchor.encodedLen p.newestAvailable +
    optionField 8 Anchor.encodedLen p.includedStart +
    optionField 9 Anchor.encodedLen p.includedEnd +
    repeatedField 10 Style.encodedLen p.styles +
    repeatedField 11 Hyperlink.encodedLen p.hyperlinks + boolField 12 p.moreBefore +
    boolField 13 p.resetRequired

end AstraShell.TerminalState
