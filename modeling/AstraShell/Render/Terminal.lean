import AstraShell.Render.Screen
import Mathlib.Logic.Function.Basic

/-!
# A local terminal

What the renderer's output does to the terminal it is written to. The terminal reads control
sequences as `Lib.Escape` splits them and interprets those that the renderer sends: cursor moves,
erasing, the pen (SGR), hyperlinks (OSC 8), modes, the cursor's shape and the keyboard protocol. Any
other sequence is ignored. How many columns a text takes is the terminal's own business and a
parameter `width`.
-/

set_option autoImplicit false

namespace AstraShell.Render

open Lib Lib.Escape TerminalState

/-! ## The pen -/

inductive PenColor where
  | default
  | indexed (index : Nat)
  | rgb (red green blue : Nat)
  deriving DecidableEq

/-- How the next text is drawn. -/
structure Pen where
  intensity : Nat
  italic : Bool
  underline : Nat
  blink : Nat
  reverse : Bool
  invisible : Bool
  strikethrough : Bool
  overline : Bool
  foreground : PenColor
  background : PenColor
  underlineColor : PenColor
  deriving DecidableEq

namespace Pen

def plain : Pen := ⟨0, false, 0, 0, false, false, false, false, .default, .default, .default⟩

/-- One code that stands for itself, with what follows its colons. -/
def apply (pen : Pen) : List Nat → Pen
  | [0] => plain
  | [1] => { pen with intensity := 1 }
  | [2] => { pen with intensity := 2 }
  | [3] => { pen with italic := true }
  | [4] => { pen with underline := 1 }
  | [4, style] => { pen with underline := style }
  | [5] => { pen with blink := 1 }
  | [6] => { pen with blink := 2 }
  | [7] => { pen with reverse := true }
  | [8] => { pen with invisible := true }
  | [9] => { pen with strikethrough := true }
  | [53] => { pen with overline := true }
  | [39] => { pen with foreground := .default }
  | [49] => { pen with background := .default }
  | [59] => { pen with underlineColor := .default }
  | _ => pen

/-- The codes of one sequence, from left to right; a color takes the codes after its own. -/
def select : List (List Nat) → Pen → Pen
  | [], pen => pen
  | [38] :: [5] :: [index] :: codes, pen =>
    select codes { pen with foreground := .indexed index }
  | [48] :: [5] :: [index] :: codes, pen =>
    select codes { pen with background := .indexed index }
  | [58] :: [5] :: [index] :: codes, pen =>
    select codes { pen with underlineColor := .indexed index }
  | [38] :: [2] :: [red] :: [green] :: [blue] :: codes, pen =>
    select codes { pen with foreground := .rgb red green blue }
  | [48] :: [2] :: [red] :: [green] :: [blue] :: codes, pen =>
    select codes { pen with background := .rgb red green blue }
  | [58] :: [2] :: [red] :: [green] :: [blue] :: codes, pen =>
    select codes { pen with underlineColor := .rgb red green blue }
  | code :: codes, pen => select codes (pen.apply code)

end Pen

/-- The codes between semicolons, each with the numbers between its colons. -/
def readCodes (parameters : Text) : List (List Nat) :=
  (parameters.splitOnP (· == ';')).map fun code => (code.splitOnP (· == ':')).map readDecimal

example : Pen.select (readCodes "1;5;38;5;9;4:3".toList) .plain =
    { Pen.plain with intensity := 1, blink := 1, foreground := .indexed 9, underline := 3 } := by
  decide

/-! ## Hyperlinks -/

/-- The target of a link and the identifier that joins its parts. -/
structure Link where
  uri : Text
  id : Text
  deriving DecidableEq

/-- The value of the parameter `id`. -/
def readId : Text → Option Text
  | 'i' :: 'd' :: '=' :: value => some value
  | _ => none

/-- What follows `8;`: parameters up to the first semicolon, then the address; without an address
the link ends. -/
def readLink (rest : Text) : Option Link :=
  let parameters := rest.takeWhile (· != ';')
  let uri := (rest.dropWhile (· != ';')).drop 1
  if uri = [] then none
  else some ⟨uri, ((parameters.splitOnP (· == ':')).findSome? readId).getD []⟩

/-- The link that is in force after the command. -/
def Link.after (link : Option Link) : Text → Option Link
  | '8' :: ';' :: rest => readLink rest
  | _ => link

/-! ## The terminal -/

/-- One position of the grid. -/
inductive GridCell where
  | blank (background : PenColor)
  /-- The column `offset` of a printed text. -/
  | glyph (chars : Text) (offset : Nat) (pen : Pen) (link : Option Link)
  deriving DecidableEq

/-- One line of the grid, by column. -/
abbrev Line : Type := Nat → GridCell

/-- What stays set until it is changed. -/
structure Settings where
  rows : Nat
  cols : Nat
  /-- The private modes that are set. -/
  modes : Nat → Bool
  insert : Bool
  shape : Nat
  keypad : Bool
  keyboardFlags : Nat

structure LocalTerminal where
  settings : Settings
  grid : Nat → Line
  row : Nat
  column : Nat
  pen : Pen
  link : Option Link
  /-- The widths that are declared for the texts to come. -/
  widths : List Nat

namespace LocalTerminal

/-- A terminal with an empty screen. -/
def blank (settings : Settings) : LocalTerminal :=
  ⟨settings, fun _ _ => .blank .default, 0, 0, .plain, none, []⟩

/-- Move to a position that is counted from one, as far as the screen reaches. -/
def move (t : LocalTerminal) (row column : Nat) : LocalTerminal :=
  { t with
    row := min (row - 1) (t.settings.rows - 1)
    column := min (column - 1) (t.settings.cols - 1) }

def eraseDisplay (t : LocalTerminal) : LocalTerminal :=
  { t with grid := fun _ _ => .blank t.pen.background }

def eraseLine (t : LocalTerminal) : LocalTerminal :=
  { t with grid := Function.update t.grid t.row fun _ => .blank t.pen.background }

/-- Set or reset a private mode; the origin mode moves the cursor home. -/
def setPrivate (t : LocalTerminal) (mode : Nat) (enabled : Bool) : LocalTerminal :=
  let t := { t with settings.modes := Function.update t.settings.modes mode enabled }
  if mode = 6 then t.move 1 1 else t

/-- A line with a text of `w` columns drawn from `column` on. -/
def draw (settings : Settings) (line : Line) (column w : Nat) (glyph : Nat → GridCell) : Line :=
  fun c =>
    if column ≤ c ∧ c < column + w ∧ c < settings.cols then glyph (c - column)
    else if settings.insert = true ∧ column + w ≤ c then line (c - w)
    else line c

/-- Print a text that takes `w` columns. -/
def print (t : LocalTerminal) (w : Nat) (chars : Text) : LocalTerminal :=
  -- Without wrapping the text is cut off at the edge.
  let t := if t.settings.modes 7 = true ∧ t.settings.cols < t.column + w then
    { t with row := t.row + 1, column := 0 } else t
  { t with
    grid := Function.update t.grid t.row (draw t.settings (t.grid t.row) t.column w fun offset =>
      .glyph chars offset t.pen t.link)
    column := min (t.column + w) (t.settings.cols - 1) }

/-- A control sequence. -/
def control (t : LocalTerminal) (parameters : Text) (final : Char) : LocalTerminal :=
  match final, parameters with
  | 'H', _ =>
    match readNumbers parameters with
    | [row, column] => t.move row column
    | _ => t.move 1 1
  | 'J', ['2'] => t.eraseDisplay
  | 'K', ['2'] => t.eraseLine
  | 'm', _ => { t with pen := Pen.select (readCodes parameters) t.pen }
  | 'h', '?' :: modes => (readNumbers modes).foldl (fun t mode => t.setPrivate mode true) t
  | 'l', '?' :: modes => (readNumbers modes).foldl (fun t mode => t.setPrivate mode false) t
  | 'h', ['4'] => { t with settings.insert := true }
  | 'l', ['4'] => { t with settings.insert := false }
  -- The scrolling region becomes the whole screen.
  | 'r', [] => t.move 1 1
  | 'q', _ =>
    if parameters.getLast? = some ' ' then
      { t with settings.shape := readDecimal parameters.dropLast }
    else t
  | 'u', '=' :: flags => { t with settings.keyboardFlags := readDecimal flags }
  | _, _ => t

/-- Interpret one unit; a text takes the next of the declared widths. -/
def interpret (t : LocalTerminal) : Token → LocalTerminal
  | .text chars => { t.print (t.widths.headD 0) chars with widths := t.widths.tail }
  | .control _ => t
  | .escape '=' => { t with settings.keypad := true }
  | .escape '>' => { t with settings.keypad := false }
  | .escape _ => t
  | .csi parameters final => t.control parameters final
  | .osc body => { t with link := Link.after t.link body }

/-- Interpret a sequence of units. -/
def interpretAll (t : LocalTerminal) (ts : List Token) : LocalTerminal := ts.foldl interpret t

/-- Receive a stream of characters whose texts have these widths. -/
def receive (t : LocalTerminal) (stream : Text) (widths : List Nat) : LocalTerminal :=
  { t with widths := widths }.interpretAll (split stream)

/-! ## The sequences of the renderer -/

section

variable (t : LocalTerminal)

@[simp] theorem interpretAll_nil : t.interpretAll [] = t := rfl

@[simp] theorem interpretAll_cons (token : Token) (ts : List Token) :
    t.interpretAll (token :: ts) = (t.interpret token).interpretAll ts := rfl

@[simp] theorem interpretAll_append (as bs : List Token) :
    t.interpretAll (as ++ bs) = (t.interpretAll as).interpretAll bs :=
  List.foldl_append

@[simp] theorem interpret_moveTo (row column : Nat) :
    t.interpret (moveTo row column) = t.move row column := by
  simp [moveTo, interpret, control, readNumbers_cons, readNumbers_decimal]

@[simp] theorem interpret_resetPen : t.interpret resetPen = { t with pen := .plain } := by
  have hcodes : readCodes "0".toList = [[0]] := by decide
  rw [resetPen, interpret, control, hcodes]
  rfl

@[simp] theorem interpret_setMode (mode : Nat) (enabled : Bool) :
    t.interpret (setMode mode enabled) = t.setPrivate mode enabled := by
  cases enabled <;> simp [setMode, interpret, control, readNumbers_decimal]

@[simp] theorem interpret_shape (n : Nat) :
    t.interpret (.csi (decimal n ++ " ".toList) 'q') = { t with settings.shape := n } := by
  simp [interpret, control]

@[simp] theorem interpret_keypad (enabled : Bool) :
    t.interpret (.escape (if enabled then '=' else '>')) =
      { t with settings.keypad := enabled } := by
  cases enabled <;> rfl

@[simp] theorem interpret_keyboard (n : Nat) :
    t.interpret (.csi ('=' :: decimal n) 'u') = { t with settings.keyboardFlags := n } := by
  simp [interpret, control]

@[simp] theorem interpret_insert :
    t.interpret (.csi ['4'] 'l') = { t with settings.insert := false } := rfl

@[simp] theorem interpret_margins : t.interpret (.csi [] 'r') = t.move 1 1 := rfl

@[simp] theorem interpret_eraseLine : t.interpret (.csi "2".toList 'K') = t.eraseLine := rfl

end

end LocalTerminal

end AstraShell.Render
