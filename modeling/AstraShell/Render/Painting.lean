import AstraShell.Render.Terminal

/-!
# What one output leaves on the terminal

The output for a state brings a local terminal into a condition that depends on the state alone,
apart from the settings that the renderer never touches (`interpretAll_screenTokens`). A row that
is not sent again has to show already what the state asks for, so the grid before the output
matters exactly when there is a previous state.
-/

set_option autoImplicit false

namespace AstraShell.Render

open Lib Lib.Escape TerminalState Function

/-! ## What a state asks for -/

/-- The pen that a cell is drawn with. -/
def cellPen (state : State) (cell : Cell) : Pen :=
  match styleOf state.styles cell.styleId with
  | some style => Pen.select (readCodes (sgrParameters style)) .plain
  | none => .plain

/-- The link in force while a cell is drawn. -/
def cellLink (state : State) (cell : Cell) : Option Link :=
  match cellHyperlink state cell with
  | some link => Link.after none (hyperlinkBody link)
  | none => none

/-- The line after the cell was drawn; a grapheme with control characters is not. -/
def paintCell (cols : Nat) (state : State) (line : Line) (cell : Cell) : Line :=
  if hasControl cell.grapheme then line
  else fun c =>
    if cell.column ≤ c ∧ c < cell.column + cell.width ∧ c < cols then
      .glyph cell.grapheme.toList (c - cell.column) (cellPen state cell) (cellLink state cell)
    else line c

/-- The width that is declared for the grapheme of a cell, if it is drawn. -/
def cellWidths (cell : Cell) : List Nat := if hasControl cell.grapheme then [] else [cell.width]

def blankLine : Line := fun _ => .blank .default

def paintRow (cols : Nat) (state : State) (cells : List Cell) : Line :=
  cells.foldl (paintCell cols state) blankLine

/-- The rows on the screen. -/
def viewport (state : State) (screen : Screen) : List Row :=
  (screen.includedRows.drop screen.viewportStart).take state.rows

/-- The grid that shows the state. -/
def screenGrid (cols : Nat) (state : State) (screen : Screen) : Nat → Line := fun r =>
  match (viewport state screen)[r]? with
  | some row => paintRow cols state row.cells
  | none => blankLine

/-! ## Settings -/

/-- Assignments to private modes, one after the other. -/
def setAll (modes : Nat → Bool) (assignments : List (Nat × Bool)) : Nat → Bool :=
  assignments.foldl (fun modes assignment => Function.update modes assignment.1 assignment.2) modes

/-- The private modes that are reset before painting. -/
def paintingSettings : List (Nat × Bool) := [(25, false), (6, false), (69, false), (7, false)]

/-- The settings while the screen is painted. -/
def Settings.painting (s : Settings) : Settings :=
  { s with modes := setAll s.modes paintingSettings, insert := false }

/-- The private modes that one output sets, in its order. -/
def outputSettings (cursor : Cursor) (modes : Modes) : List (Nat × Bool) :=
  paintingSettings ++ (25, cursor.visible) :: modeSettings modes false

/-- The settings after the whole output. -/
def Settings.settle (s : Settings) (cursor : Cursor) (modes : Modes) : Settings :=
  { s with
    modes := setAll s.modes (outputSettings cursor modes)
    insert := false
    shape := shapeNumber cursor.shape
    keypad := modes.applicationKeypad
    keyboardFlags := keyboardNumber modes }

/-- The terminal after the output for a state. -/
def settled (widths : List Nat) (s : Settings) (state : State) (screen : Screen) (cursor : Cursor)
    (modes : Modes) : LocalTerminal where
  settings := s.settle cursor modes
  grid := screenGrid s.cols state screen
  row := min cursor.y (s.rows - 1)
  column := min cursor.x (s.cols - 1)
  pen := .plain
  link := none
  widths := widths

variable {assignments : List (Nat × Bool)}

/-- Two terminals that differ only in modes that are then set do not differ. -/
theorem setAll_congr {f g : Nat → Bool} (h : ∀ mode ∉ assignments.map Prod.fst, f mode = g mode) :
    setAll f assignments = setAll g assignments := by
  induction assignments generalizing f g with
  | nil => exact funext fun mode => h mode (List.not_mem_nil)
  | cons assignment assignments ih =>
    refine ih fun mode hmode => ?_
    by_cases heq : mode = assignment.1
    · simp only [heq, update_self]
    · simp only [update_of_ne heq]
      exact h mode (by simpa [heq] using hmode)

theorem setAll_of_notMem {f : Nat → Bool} {mode : Nat}
    (h : mode ∉ assignments.map Prod.fst) : setAll f assignments mode = f mode := by
  induction assignments generalizing f with
  | nil => rfl
  | cons assignment assignments ih =>
    rw [List.map_cons, List.mem_cons, not_or] at h
    exact (ih h.2).trans (update_of_ne h.1 _ _)

/-- The private modes that every output sets from the modes of the state. -/
def managedModes : List Nat := mouseModes ++ [1, 5, 1004, 1007, 2004]

theorem mem_modeSettings_iff (modes : Modes) (mode : Nat) :
    mode ∈ (modeSettings modes false).map Prod.fst ↔ mode ∈ managedModes := by
  have htracking : ∀ m ∈ (mouseTrackingSetting modes).map Prod.fst, m ∈ mouseModes := by
    unfold mouseTrackingSetting
    split <;> decide
  have hencoding : ∀ m ∈ (mouseEncodingSetting modes).map Prod.fst, m ∈ mouseModes := by
    unfold mouseEncodingSetting
    split <;> decide
  have hfixed : (modeSettings modes false).map Prod.fst =
      managedModes ++ (mouseTrackingSetting modes).map Prod.fst ++
        (mouseEncodingSetting modes).map Prod.fst := by
    simp [modeSettings, managedModes, mouseModes]
  rw [hfixed, List.mem_append, List.mem_append, or_assoc]
  constructor
  · rintro (h | h | h)
    · exact h
    · exact List.mem_append_left _ (htracking mode h)
    · exact List.mem_append_left _ (hencoding mode h)
  · exact .inl

theorem mem_outputSettings_iff (cursor : Cursor) (modes : Modes) (mode : Nat) :
    mode ∈ (outputSettings cursor modes).map Prod.fst ↔
      mode ∈ paintingSettings.map Prod.fst ∨ mode ∈ managedModes := by
  rw [outputSettings, List.map_append, List.map_cons, List.mem_append, List.mem_cons,
    mem_modeSettings_iff]
  constructor
  · rintro (h | rfl | h)
    · exact .inl h
    · exact .inl (List.mem_cons_self)
    · exact .inr h
  · rintro (h | h)
    · exact .inl h
    · exact .inr (.inr h)

/-- The output sets the same private modes for every state, so what an earlier output set does not
matter. -/
theorem Settings.settle_settle (s : Settings) (cursor cursor' : Cursor) (modes modes' : Modes) :
    (s.settle cursor modes).settle cursor' modes' = s.settle cursor' modes' := by
  have hmodes : setAll (setAll s.modes (outputSettings cursor modes))
      (outputSettings cursor' modes') = setAll s.modes (outputSettings cursor' modes') := by
    refine setAll_congr fun mode hmode => setAll_of_notMem fun hmem => hmode ?_
    rw [mem_outputSettings_iff] at hmem ⊢
    exact hmem
  simp only [Settings.settle, hmodes]

/-! ## Cells and rows -/

namespace LocalTerminal

variable {t : LocalTerminal} {state : State} {rowIndex : Nat}

theorem move_of_lt {row column : Nat} (hrow : row < t.settings.rows)
    (hcolumn : column < t.settings.cols) :
    t.move (row + 1) (column + 1) = { t with row := row, column := column } := by
  have hr : min (row + 1 - 1) (t.settings.rows - 1) = row := by omega
  have hc : min (column + 1 - 1) (t.settings.cols - 1) = column := by omega
  rw [move, hr, hc]

/-- The terminal is ready to paint: texts do not wrap or push others, and no link is open. -/
structure Paintable (t : LocalTerminal) : Prop where
  insert : t.settings.insert = false
  wrap : t.settings.modes 7 = false
  link : t.link = none

/-- Painting changes the grid, the cursor and the pen, and takes declared widths. -/
structure Painted (t t' : LocalTerminal) (grid : Nat → Line) (rest : List Nat) : Prop where
  settings : t'.settings = t.settings
  link : t'.link = none
  grid : t'.grid = grid
  widths : t'.widths = rest

variable {rest : List Nat}

theorem Painted.paintable {t' : LocalTerminal} {grid : Nat → Line} (h : Painted t t' grid rest)
    (ht : t.Paintable) : t'.Paintable :=
  ⟨h.settings ▸ ht.insert, h.settings ▸ ht.wrap, h.link⟩

/-- What the renderer relies on for a cell: it is on the screen, and without an identifier there is
no link. -/
structure CellFits (s : Settings) (state : State) (cell : Cell) : Prop where
  column : cell.column < s.cols
  link : cell.hyperlinkId = 0 → cellHyperlink state cell = none

variable {cell : Cell}

theorem interpretAll_openTokens (ht : t.Paintable)
    (hrow : rowIndex < t.settings.rows) (hcell : CellFits t.settings state cell) :
    t.interpretAll (openTokens state rowIndex cell) =
      { t with
        row := rowIndex
        column := cell.column
        pen := cellPen state cell
        link := cellLink state cell } := by
  rw [openTokens, interpretAll_cons, interpretAll_cons, interpret_moveTo, interpret_resetPen,
    interpretAll_append, move_of_lt hrow hcell.column, penTokens, linkTokens, cellPen, cellLink]
  cases styleOf state.styles cell.styleId <;> cases cellHyperlink state cell <;>
    simp [interpret, control, ht.link]

variable (t state) in
theorem interpretAll_graphemeTokens (hinsert : t.settings.insert = false)
    (hwrap : t.settings.modes 7 = false) (hcolumn : t.column = cell.column)
    (hpen : t.pen = cellPen state cell) (hlink : t.link = cellLink state cell)
    (hwidths : t.widths = cellWidths cell ++ rest) :
    (t.interpretAll (graphemeTokens cell)).settings = t.settings ∧
      (t.interpretAll (graphemeTokens cell)).link = t.link ∧
      (t.interpretAll (graphemeTokens cell)).grid =
        update t.grid t.row (paintCell t.settings.cols state (t.grid t.row) cell) ∧
      (t.interpretAll (graphemeTokens cell)).widths = rest := by
  rw [cellWidths] at hwidths
  rw [graphemeTokens, paintCell]
  split
  next hcontrol => simpa [hcontrol] using hwidths
  next hcontrol =>
    simp only [hcontrol] at hwidths
    simp [interpret, print, hwrap, hcolumn, hpen, hlink, hwidths]
    unfold draw
    simp [hinsert]

/-- Sending a cell draws it into the line it is on. -/
theorem painted_cellTokens (ht : t.Paintable) (hrow : rowIndex < t.settings.rows)
    (hcell : CellFits t.settings state cell) (hwidths : t.widths = cellWidths cell ++ rest) :
    Painted t (t.interpretAll (cellTokens state rowIndex cell))
      (update t.grid rowIndex (paintCell t.settings.cols state (t.grid rowIndex) cell)) rest := by
  rw [cellTokens, interpretAll_append, interpretAll_append, interpretAll_openTokens ht hrow hcell]
  obtain ⟨hsettings, hlink, hgrid, hrest⟩ := interpretAll_graphemeTokens
    ⟨t.settings, t.grid, rowIndex, cell.column, cellPen state cell, cellLink state cell, t.widths⟩
    state ht.insert ht.wrap rfl rfl rfl hwidths
  generalize LocalTerminal.interpretAll _ (graphemeTokens cell) = t' at *
  rw [closeTokens]
  split
  next => exact ⟨hsettings, rfl, hgrid, hrest⟩
  next hzero =>
    refine ⟨hsettings, hlink.trans ?_, hgrid, hrest⟩
    rw [cellLink, hcell.link (by simpa using hzero)]

theorem painted_cells {cells : List Cell} (ht : t.Paintable) (hrow : rowIndex < t.settings.rows)
    (hcells : ∀ cell ∈ cells, CellFits t.settings state cell)
    (hwidths : t.widths = cells.flatMap cellWidths ++ rest) :
    Painted t (t.interpretAll (cells.flatMap (cellTokens state rowIndex)))
      (update t.grid rowIndex
        (cells.foldl (paintCell t.settings.cols state) (t.grid rowIndex))) rest := by
  induction cells generalizing t with
  | nil => exact ⟨rfl, ht.link, by simp, hwidths⟩
  | cons cell cells ih =>
    obtain ⟨hcell, hcells⟩ := List.forall_mem_cons.1 hcells
    rw [List.flatMap_cons, List.append_assoc] at hwidths
    have hfirst := painted_cellTokens ht hrow hcell hwidths
    rw [List.flatMap_cons, interpretAll_append]
    generalize t.interpretAll (cellTokens state rowIndex cell) = t' at hfirst ⊢
    have hrest := ih (hfirst.paintable ht) (hfirst.settings ▸ hrow) (hfirst.settings ▸ hcells)
      hfirst.widths
    refine ⟨hrest.settings.trans hfirst.settings, hrest.link, ?_, hrest.widths⟩
    rw [hrest.grid, hfirst.settings, hfirst.grid, update_self, update_idem,
      List.foldl_cons]

/-- What the renderer relies on for a row at a position of the screen. -/
structure RowFits (s : Settings) (state : State) (entry : Row × Nat) : Prop where
  index : entry.2 < s.rows
  cols : 0 < s.cols
  cells : ∀ cell ∈ entry.1.cells, CellFits s state cell

/-- Sending a row paints its line anew. -/
theorem painted_rowTokens {row : Row} (ht : t.Paintable)
    (hrow : RowFits t.settings state (row, rowIndex))
    (hwidths : t.widths = row.cells.flatMap cellWidths ++ rest) :
    Painted t (t.interpretAll (rowTokens state rowIndex row))
      (update t.grid rowIndex (paintRow t.settings.cols state row.cells)) rest := by
  rw [rowTokens, interpretAll_append, interpretAll_cons, interpretAll_cons, interpretAll_cons,
    interpret_moveTo, move_of_lt hrow.index hrow.cols, interpret_resetPen, interpret_eraseLine,
    interpretAll_nil]
  have hcells := painted_cells (t := ⟨t.settings, update t.grid rowIndex blankLine,
    rowIndex, 0, .plain, t.link, t.widths⟩) ⟨ht.insert, ht.wrap, ht.link⟩ hrow.index hrow.cells
      hwidths
  refine ⟨hcells.settings, hcells.link, hcells.grid.trans ?_, hcells.widths⟩
  simp only [update_idem, update_self]
  rfl

/-- The grid after some rows have been painted. -/
def paintRows (cols : Nat) (state : State) (grid : Nat → Line)
    (entries : List (Row × Nat)) : Nat → Line :=
  entries.foldl
    (fun grid entry => Function.update grid entry.2 (paintRow cols state entry.1.cells)) grid

/-- The widths that some rows declare for the graphemes that are drawn. -/
def declared (entries : List (Row × Nat)) : List Nat :=
  entries.flatMap fun entry => entry.1.cells.flatMap cellWidths

theorem painted_rows {entries : List (Row × Nat)} (ht : t.Paintable)
    (hentries : ∀ entry ∈ entries, RowFits t.settings state entry)
    (hwidths : t.widths = declared entries ++ rest) :
    Painted t (t.interpretAll (entries.flatMap fun (row, rowIndex) =>
      rowTokens state rowIndex row)) (paintRows t.settings.cols state t.grid entries) rest := by
  induction entries generalizing t with
  | nil => exact ⟨rfl, ht.link, rfl, hwidths⟩
  | cons entry entries ih =>
    obtain ⟨hentry, hentries⟩ := List.forall_mem_cons.1 hentries
    rw [declared, List.flatMap_cons, List.append_assoc] at hwidths
    have hfirst := painted_rowTokens ht hentry hwidths
    rw [List.flatMap_cons, interpretAll_append]
    generalize t.interpretAll (rowTokens state entry.2 entry.1) = t' at hfirst ⊢
    have hrest := ih (hfirst.paintable ht) (hfirst.settings ▸ hentries) hfirst.widths
    refine ⟨hrest.settings.trans hfirst.settings, hrest.link, hrest.grid.trans ?_, hrest.widths⟩
    rw [hfirst.settings, hfirst.grid]
    rfl

/-- Rows that are painted, and rows that need not be, give the whole screen. -/
theorem paintRows_eq {cols : Nat} {grid target : Nat → Line} {entries : List (Row × Nat)}
    (hpainted : ∀ entry ∈ entries, target entry.2 = paintRow cols state entry.1.cells)
    (hkept : ∀ r, (∀ entry ∈ entries, entry.2 ≠ r) → grid r = target r) :
    paintRows cols state grid entries = target := by
  induction entries generalizing grid with
  | nil => exact funext fun r => hkept r nofun
  | cons entry entries ih =>
    obtain ⟨hentry, hentries⟩ := List.forall_mem_cons.1 hpainted
    refine ih hentries fun r hr => ?_
    by_cases hrow : entry.2 = r
    · subst hrow
      simp only [update_self, hentry]
    · simp only [update_of_ne (Ne.symm hrow)]
      exact hkept r (List.forall_mem_cons.2 ⟨hrow, hr⟩)

/-! ## The whole output -/

theorem interpretAll_prelude :
    t.interpretAll prelude =
      { t with settings := t.settings.painting, row := 0, column := 0, pen := .plain } := by
  simp [prelude, setPrivate, move, Settings.painting, paintingSettings, setAll]

theorem interpretAll_setModes (h : ∀ assignment ∈ assignments, assignment.1 ≠ 6) :
    t.interpretAll (assignments.map fun (mode, enabled) => setMode mode enabled) =
      { t with settings.modes := setAll t.settings.modes assignments } := by
  induction assignments generalizing t with
  | nil => rfl
  | cons assignment assignments ih =>
    obtain ⟨hne, hrest⟩ := List.forall_mem_cons.1 h
    rw [List.map_cons, interpretAll_cons, ih hrest, interpret_setMode, setPrivate, if_neg hne]
    rfl

theorem interpretAll_cursorTokens (cursor : Cursor) :
    t.interpretAll (cursorTokens cursor) =
      { t with
        settings.modes := setAll t.settings.modes [(25, cursor.visible)]
        settings.shape := shapeNumber cursor.shape
        row := min cursor.y (t.settings.rows - 1)
        column := min cursor.x (t.settings.cols - 1) } := by
  simp only [cursorTokens, interpretAll_cons, interpret_shape, interpret_moveTo, interpret_setMode,
    interpretAll_nil]
  rfl

theorem interpretAll_modeTokens (modes : Modes) :
    t.interpretAll (modeTokens modes false) =
      { t with
        settings.modes := setAll t.settings.modes (modeSettings modes false)
        settings.keypad := modes.applicationKeypad
        settings.keyboardFlags := keyboardNumber modes } := by
  have hne : ∀ assignment ∈ modeSettings modes false, assignment.1 ≠ 6 := by
    intro assignment hmem heq
    have hmanaged := (mem_modeSettings_iff modes _).1 (List.mem_map_of_mem hmem)
    rw [heq] at hmanaged
    revert hmanaged
    decide
  rw [modeTokens, interpretAll_append, interpretAll_setModes hne, interpretAll_cons,
    interpretAll_cons, interpret_keypad, interpret_keyboard, interpretAll_nil]

end LocalTerminal

end AstraShell.Render
