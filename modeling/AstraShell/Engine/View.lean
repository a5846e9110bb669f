import Mathlib.Data.List.Basic

/-!
# The view of the terminal engine

`TerminalEngine` of `terminal_engine.rs` never looks into the emulator itself: it reads an
`AstraTerminalView`, which the emulator hands out between updates. The types here are that view. The
rows of a screen are a list, oldest first, and the methods of the view that pick rows are functions
of the list. A colour is represented by the three bytes that `to_srgb_u8` rounds it to.
-/

set_option autoImplicit false

namespace AstraShell.Engine

structure Srgb where
  red : UInt8
  green : UInt8
  blue : UInt8

inductive ColorAttribute where
  | default
  | paletteIndex (index : UInt8)
  | trueColorWithPaletteFallback (color : Srgb) (fallback : UInt8)
  | trueColorWithDefaultFallback (color : Srgb)

inductive Intensity where
  | normal
  | bold
  | half

inductive Underline where
  | none
  | single
  | double
  | curly
  | dotted
  | dashed

inductive Blink where
  | none
  | slow
  | rapid

inductive SemanticType where
  | output
  | input
  | prompt

inductive VerticalAlign where
  | baseLine
  | superScript
  | subScript

/-- A link of the program; `id` is its parameter of that name. -/
structure LinkView where
  uri : String
  id : Option String

structure CellAttributes where
  foreground : ColorAttribute
  background : ColorAttribute
  underlineColor : ColorAttribute
  intensity : Intensity
  underline : Underline
  blink : Blink
  italic : Bool
  reverse : Bool
  strikethrough : Bool
  invisible : Bool
  overline : Bool
  semanticType : SemanticType
  verticalAlign : VerticalAlign
  hyperlink : Option LinkView

/-- The attributes of text without any. -/
def CellAttributes.plain : CellAttributes :=
  ⟨.default, .default, .default, .normal, .none, .none, false, false, false, false, false, .output,
    .baseLine, none⟩

structure CellView where
  column : Nat
  grapheme : String
  width : Nat
  attributes : CellAttributes

/-- The name of a physical row: rows of one logical line differ in the offset. -/
structure LineIdentity where
  logicalLineId : Nat
  cellOffset : Nat

structure RowView where
  identity : LineIdentity
  version : Nat
  cells : List CellView
  wrappedToNext : Bool

inductive CursorShape where
  | block
  | underline
  | bar

structure CursorView where
  x : Nat
  y : Nat
  shape : CursorShape
  visible : Bool
  version : Nat
  wrapPending : Bool

inductive ScreenKind where
  | primary
  | alternate
  deriving DecidableEq

/-- One of the two screens. `tabs` tells for each column whether it has a tab stop. -/
structure ScreenView where
  kind : ScreenKind
  allowsScrollback : Bool
  lines : List RowView
  physicalRows : Nat
  physicalCols : Nat
  historyBytes : Nat
  cursor : CursorView
  savedCursor : Option CursorView
  scrollMarginTop : Nat
  scrollMarginBottom : Nat
  scrollMarginLeft : Nat
  scrollMarginRight : Nat
  tabs : List Bool

namespace ScreenView

def rowCount (view : ScreenView) : Nat := view.lines.length

def columnCount (view : ScreenView) : Nat := view.physicalCols

def viewportRowCount (view : ScreenView) : Nat := view.physicalRows

/-- The subtraction of the source saturates. -/
def viewportStart (view : ScreenView) : Nat := view.lines.length - view.physicalRows

def historyRowCount (view : ScreenView) : Nat := view.viewportStart

def rows (view : ScreenView) (start maximumRows : Nat) : List RowView :=
  (view.lines.drop start).take maximumRows

def tabStops (view : ScreenView) : List Nat :=
  (view.tabs.zipIdx.filter fun stop => stop.1).map Prod.snd

end ScreenView

inductive MouseTracking where
  | none
  | x10
  | vt200
  | buttonEvent
  | anyEvent

inductive MouseEncoding where
  | default
  | utf8
  | sgr
  | sgrPixels

/-- The flags of the kitty protocol are five bits. -/
inductive KeyboardEncoding where
  | xterm
  | csiU
  | kitty (flags : Fin 32)

structure ModesView where
  applicationCursorKeys : Bool
  applicationKeypad : Bool
  bracketedPaste : Bool
  focusTracking : Bool
  origin : Bool
  insert : Bool
  autoWrap : Bool
  reverseWraparound : Bool
  newline : Bool
  leftRightMargin : Bool
  reverseVideo : Bool
  alternateScroll : Bool
  mouseTracking : MouseTracking
  mouseEncoding : MouseEncoding
  keyboardEncoding : KeyboardEncoding

structure ColorPalette where
  colors : Vector Srgb 256
  foreground : Srgb
  background : Srgb
  cursorFg : Srgb
  cursorBg : Srgb
  selectionFg : Srgb
  selectionBg : Srgb

/-- `AstraTerminalView`. `identityEpoch` changes when an update makes old anchors of a screen
invalid. -/
structure TerminalView where
  primary : ScreenView
  alternate : ScreenView
  activeScreen : ScreenKind
  modes : ModesView
  title : String
  workingDirectory : Option String
  palette : ColorPalette
  sequence : Nat
  identityEpoch : Nat × Nat

namespace TerminalView

def rows (view : TerminalView) : Nat := view.primary.physicalRows

def columns (view : TerminalView) : Nat := view.primary.physicalCols

end TerminalView

end AstraShell.Engine
