import AstraShell.Engine.Export

/-!
# What the exports say of a row

An exported cell names its style and its link by number. `Cell.content` puts the entries of the
tables in the place of the numbers, and `ExportsRow` says which exported row belongs to a row of the
view, for given tables. It survives additions to the tables (`ExportsRow.mono`), and it determines
the contents (`ExportsRow.content_eq`): two exports of one row have the same contents, however they
number.

`exportRow_spec` and `exportScreen_spec` are the specifications of the functions of the source.
-/

set_option autoImplicit false

namespace AstraShell.Engine

open Lib
open TerminalState (Anchor Cell Cursor Hyperlink Row Screen Style)

/-! ## Contents -/

/-- A cell with the entries of the tables in the place of their numbers. -/
structure CellContent where
  column : Nat
  grapheme : String
  width : Nat
  style : Option Style
  hyperlink : Option (String × String)

/-- A row with its cells resolved. -/
structure RowContent where
  start : Option Anchor
  rowVersion : Nat
  wrappedToNext : Bool
  cells : List CellContent

/-- The entry of the style table, without its number. -/
def styleEntry (styles : List Style) (id : Nat) : Option Style :=
  (styles.find? fun style => style.id = id).map fun style => { style with id := 0 }

/-- URI and explicit ID of an entry of the hyperlink table. -/
def linkEntry (hyperlinks : List Hyperlink) (id : Nat) : Option (String × String) :=
  (hyperlinks.find? fun link => link.id = id).map fun link => (link.uri, link.explicitId)

def cellContent (styles : List Style) (hyperlinks : List Hyperlink)
    (cell : Cell) : CellContent where
  column := cell.column
  grapheme := cell.grapheme
  width := cell.width
  style := styleEntry styles cell.styleId
  hyperlink := linkEntry hyperlinks cell.hyperlinkId

def rowContent (styles : List Style) (hyperlinks : List Hyperlink) (row : Row) : RowContent where
  start := row.start
  rowVersion := row.rowVersion
  wrappedToNext := row.wrappedToNext
  cells := row.cells.map (cellContent styles hyperlinks)

/-- What is to be exported of a cell of the view. -/
def CellView.content (cell : CellView) : CellContent where
  column := cell.column
  grapheme := cell.grapheme
  width := cell.width
  style := if styleKey cell.attributes = {} then none else some ((styleKey cell.attributes).style 0)
  hyperlink := cell.attributes.hyperlink.map LinkView.key

/-- The cell is a blank without attributes. -/
def CellView.blank (cell : CellView) : Prop :=
  cell.grapheme = " " ∧ styleKey cell.attributes = {} ∧ cell.attributes.hyperlink = none

instance (cell : CellView) : Decidable cell.blank := inferInstanceAs (Decidable (_ ∧ _ ∧ _))

/-! ## Tables -/

namespace ExportTables

variable {tables tables' tables'' : ExportTables}

/-- Tables that may have been added to. -/
def Extends (tables' tables : ExportTables) : Prop :=
  tables'.styleIds.Extends tables.styleIds ∧ tables'.hyperlinkIds.Extends tables.hyperlinkIds

theorem Extends.refl (tables : ExportTables) : tables.Extends tables := ⟨.refl _, .refl _⟩

theorem Extends.trans (h : tables'.Extends tables) (h' : tables''.Extends tables') :
    tables''.Extends tables := ⟨List.IsPrefix.trans h.1 h'.1, List.IsPrefix.trans h.2 h'.2⟩

/-- The number stands for the style. -/
def NamesStyle (tables : ExportTables) (id : Nat) (key : StyleKey) : Prop :=
  if key = {} then id = 0 else tables.styleIds.key? id = some key

/-- The number stands for the link, or is zero where there is none. -/
def NamesLink (tables : ExportTables) (id : Nat) : Option LinkView → Prop
  | none => id = 0
  | some link => tables.hyperlinkIds.key? id = some link.key

variable {id : Nat} {key : StyleKey}

theorem NamesStyle.mono (h : tables.NamesStyle id key)
    (hext : tables'.Extends tables) : tables'.NamesStyle id key := by
  unfold NamesStyle at h ⊢
  split
  next hdefault => rwa [if_pos hdefault] at h
  next hdefault =>
    rw [if_neg hdefault] at h
    exact hext.1.key? h

variable {link : Option LinkView}

theorem NamesLink.mono (h : tables.NamesLink id link)
    (hext : tables'.Extends tables) : tables'.NamesLink id link := by
  cases link with
  | none => exact h
  | some link => exact hext.2.key? h

theorem NamesStyle.zero_iff (h : tables.NamesStyle id key) : id = 0 ↔ key = {} := by
  unfold NamesStyle at h
  split at h
  next hdefault => simp [h, hdefault]
  next hdefault =>
    refine ⟨?_, fun hkey => absurd hkey hdefault⟩
    rintro rfl
    cases h

theorem NamesLink.zero_iff (h : tables.NamesLink id link) : id = 0 ↔ link = none := by
  cases link with
  | none => exact ⟨fun _ => rfl, fun _ => h⟩
  | some link =>
    refine ⟨?_, fun hlink => nomatch hlink⟩
    rintro rfl
    cases h

theorem NamesStyle.entry (h : tables.NamesStyle id key) :
    styleEntry tables.styles id = if key = {} then none else some (key.style 0) := by
  rw [styleEntry, styles, Intern.find?_entries (fun _ _ => rfl)]
  unfold NamesStyle at h
  split
  next hdefault =>
    rw [if_pos hdefault] at h
    rw [h]
    rfl
  next hdefault =>
    rw [if_neg hdefault] at h
    rw [h]
    rfl

theorem NamesLink.entry (h : tables.NamesLink id link) :
    linkEntry tables.hyperlinks id = link.map LinkView.key := by
  rw [linkEntry, hyperlinks, Intern.find?_entries (fun _ _ => rfl)]
  cases link with
  | none =>
    cases h
    rfl
  | some link =>
    rw [NamesLink] at h
    rw [h]
    rfl

theorem styleId_spec (h : tables.styleId key = .ok (id, tables')) :
    tables'.Extends tables ∧ tables'.NamesStyle id key := by
  unfold styleId at h
  split at h
  next hdefault =>
    cases h
    exact ⟨.refl _, by rw [NamesStyle, if_pos hdefault]⟩
  next hdefault =>
    obtain ⟨⟨id', styleIds⟩, hnumber, hpure⟩ := bind_eq_ok_iff.1 h
    cases hpure
    have hnumbers := Intern.number_cases hnumber
    refine ⟨⟨hnumbers.extends, .refl _⟩, ?_⟩
    rw [NamesStyle, if_neg hdefault]
    exact hnumbers.key?

theorem hyperlinkId_spec {attributes : CellAttributes}
    (h : tables.hyperlinkId attributes = .ok (id, tables')) :
    tables'.Extends tables ∧ tables'.NamesLink id attributes.hyperlink := by
  unfold hyperlinkId at h
  split at h
  next hnone =>
    cases h
    rw [hnone]
    exact ⟨.refl _, rfl⟩
  next link hlink =>
    obtain ⟨⟨id', hyperlinkIds⟩, hnumber, hpure⟩ := bind_eq_ok_iff.1 h
    cases hpure
    have hnumbers := Intern.number_cases hnumber
    rw [hlink]
    exact ⟨⟨.refl _, hnumbers.extends⟩, hnumbers.key?⟩

end ExportTables

/-! ## Cells -/

/-- The export of a cell, for tables that have what it names. -/
inductive ExportsCell (tables : ExportTables) (view : CellView) : Option Cell → Prop
  | blank (hblank : view.blank) : ExportsCell tables view none
  | cell (styleId hyperlinkId : Nat) (hblank : ¬ view.blank)
      (hbounds : view.column < 2 ^ 32 ∧ view.width < 2 ^ 32)
      (hstyle : tables.NamesStyle styleId (styleKey view.attributes))
      (hlink : tables.NamesLink hyperlinkId view.attributes.hyperlink) :
      ExportsCell tables view
        (some ⟨view.column, view.grapheme, view.width, styleId, hyperlinkId⟩)

section

variable {tables tables' : ExportTables}

theorem ExportsCell.mono {view : CellView} {out : Option Cell} (h : ExportsCell tables view out)
    (hext : tables'.Extends tables) : ExportsCell tables' view out := by
  cases h with
  | blank hblank => exact .blank hblank
  | cell styleId hyperlinkId hblank hbounds hstyle hlink =>
    exact .cell styleId hyperlinkId hblank hbounds (hstyle.mono hext) (hlink.mono hext)

theorem exportCell_spec {view : CellView} {out : Option Cell}
    (h : tables.exportCell view = .ok (out, tables')) :
    tables'.Extends tables ∧ ExportsCell tables' view out := by
  obtain ⟨⟨styleId, tables₁⟩, hstyleId, hrest⟩ := bind_eq_ok_iff.1 h
  obtain ⟨⟨hyperlinkId, tables₂⟩, hlinkId, hrest⟩ := bind_eq_ok_iff.1 hrest
  obtain ⟨hext₁, hstyle⟩ := ExportTables.styleId_spec hstyleId
  obtain ⟨hext₂, hlink⟩ := ExportTables.hyperlinkId_spec hlinkId
  have hstyle' := hstyle.mono hext₂
  have hblank : (view.grapheme = " " ∧ styleId = 0 ∧ hyperlinkId = 0) ↔ view.blank := by
    rw [hstyle'.zero_iff, hlink.zero_iff]
    rfl
  dsimp only at hrest
  split at hrest
  next hzero =>
    cases hrest
    exact ⟨hext₁.trans hext₂, .blank (hblank.1 hzero)⟩
  next hzero =>
    simp only [bind_eq_ok_iff, tryFrom_eq_ok_iff] at hrest
    obtain ⟨_, ⟨hcolumn, rfl⟩, _, ⟨hwidth, rfl⟩, hpure⟩ := hrest
    cases hpure
    exact ⟨hext₁.trans hext₂, .cell _ _ (mt hblank.2 hzero) ⟨hcolumn, hwidth⟩ hstyle' hlink⟩

/-- The contents of the cells that are exported. -/
theorem ExportsCell.contents {views : List CellView} {outs : List (Option Cell)}
    (h : List.Forall₂ (ExportsCell tables) views outs) :
    (outs.filterMap id).map (cellContent tables.styles tables.hyperlinks) =
      (views.filter fun view => ¬ view.blank).map CellView.content := by
  induction h with
  | nil => rfl
  | @cons view out views outs hcell _ ih =>
    cases hcell with
    | blank hblank =>
      rw [List.filterMap_cons_none rfl, List.filter_cons_of_neg (by simpa using hblank), ih]
    | cell styleId hyperlinkId hblank _ hstyle hlink =>
      rw [List.filterMap_cons_some (f := id) rfl, List.filter_cons_of_pos (by simpa using hblank),
        List.map_cons, List.map_cons, ih, cellContent, CellView.content, hstyle.entry, hlink.entry]

end

/-! ## Rows -/

/-- The export of a row, for tables that have what its cells name. -/
structure ExportsRow (columns epochSequenceStart generation : Nat) (tables : ExportTables)
    (view : RowView) (row : Row) : Prop where
  start : ∃ a, view.anchor = .ok a ∧ row.start = some a
  version : epochRelativeVersion view.version epochSequenceStart = .ok row.rowVersion
  version_le : row.rowVersion ≤ generation
  wrapped : row.wrappedToNext = view.wrappedToNext
  cells : ∃ outs, List.Forall₂ (ExportsCell tables) (view.cells.filter (CellView.fits columns))
    outs ∧ row.cells = outs.filterMap id

section

variable {columns epochSequenceStart generation : Nat} {tables tables' : ExportTables}
  {view : RowView} {row row' : Row}

theorem ExportsRow.mono (h : ExportsRow columns epochSequenceStart generation tables view row)
    (hext : tables'.Extends tables) :
    ExportsRow columns epochSequenceStart generation tables' view row := by
  obtain ⟨outs, hcells, hrow⟩ := h.cells
  exact { h with cells := ⟨outs, hcells.imp fun _ _ hcell => hcell.mono hext, hrow⟩ }

theorem exportRow_spec
    (h : exportRow columns epochSequenceStart generation tables view = .ok (row, tables')) :
    tables'.Extends tables ∧ ExportsRow columns epochSequenceStart generation tables' view row := by
  obtain ⟨rowVersion, hversion, hrest⟩ := bind_eq_ok_iff.1 h
  obtain ⟨⟨⟩, hle, hrest⟩ := bind_eq_ok_iff.1 hrest
  obtain ⟨⟨outs, tables₁⟩, hcells, hrest⟩ := bind_eq_ok_iff.1 hrest
  obtain ⟨start, hstart, hpure⟩ := bind_eq_ok_iff.1 hrest
  cases hpure
  obtain ⟨hext, hall⟩ := traverse_forall₂ (fun s s' => s'.Extends s) ExportsCell
    (fun _ => .refl _) (fun h h' => h.trans h') (fun hext hcell => hcell.mono hext)
    (fun hcell => exportCell_spec hcell) hcells
  exact ⟨hext, ⟨start, hstart, rfl⟩, hversion, ensure_eq_ok_iff.1 hle, rfl, outs, hall, rfl⟩

section

variable (h : ExportsRow columns epochSequenceStart generation tables view row)
  (h' : ExportsRow columns epochSequenceStart generation tables' view row')

include h h'

theorem ExportsRow.start_eq : row.start = row'.start := by
  obtain ⟨a, ha, hrow⟩ := h.start
  obtain ⟨a', ha', hrow'⟩ := h'.start
  rw [ha] at ha'
  cases ha'
  rw [hrow, hrow']

/-- Two exports of a row have the same contents. -/
theorem ExportsRow.content_eq :
    rowContent tables.styles tables.hyperlinks row =
      rowContent tables'.styles tables'.hyperlinks row' := by
  obtain ⟨outs, hcells, hrow⟩ := h.cells
  obtain ⟨outs', hcells', hrow'⟩ := h'.cells
  have hversion : row.rowVersion = row'.rowVersion :=
    Except.ok.inj (h.version.symm.trans h'.version)
  rw [rowContent, rowContent, h.start_eq h', hversion, h.wrapped, h'.wrapped, hrow, hrow',
    ExportsCell.contents hcells, ExportsCell.contents hcells']

end

/-- The rows of a segment, in their order. -/
theorem exportRows_spec {views : List RowView} {rows : List Row}
    (h : traverse (exportRow columns epochSequenceStart generation) tables views =
      .ok (rows, tables')) :
    tables'.Extends tables ∧
      List.Forall₂ (ExportsRow columns epochSequenceStart generation tables') views rows :=
  traverse_forall₂ (fun s s' => s'.Extends s) (ExportsRow columns epochSequenceStart generation)
    (fun _ => .refl _) (fun h h' => h.trans h') (fun hext hrow => hrow.mono hext)
    (fun hrow => exportRow_spec hrow) h

end

/-! ## Screens -/

/-- What a screen says of a view, for tables that have what its rows name. -/
structure ExportsScreen (view : ScreenView) (epochSequenceStart generation firstRow : Nat)
    (tables : ExportTables) (screen : Screen) : Prop where
  rows : List.Forall₂ (ExportsRow view.columnCount epochSequenceStart generation tables)
    (view.lines.drop firstRow) screen.includedRows
  viewportStart : screen.viewportStart = view.viewportStart - firstRow
  oldestAvailable : ∃ a, anchorOf (view.rows 0 1) "terminal screen has no oldest row" = .ok a ∧
    screen.oldestAvailable = some a
  newestAvailable : ∃ a, anchorOf (view.rows (view.rowCount - 1) 1)
    "terminal screen has no newest row" = .ok a ∧ screen.newestAvailable = some a
  cursor : ∃ c, exportCursor view.cursor epochSequenceStart screen.includedRows
    screen.viewportStart view.columnCount view.viewportRowCount = .ok c ∧ screen.cursor = some c
  savedCursor : transpose (view.savedCursor.map fun saved => exportCursor saved epochSequenceStart
    screen.includedRows screen.viewportStart view.columnCount view.viewportRowCount) =
      .ok screen.savedCursor
  margins : screen.scrollMarginTop = view.scrollMarginTop ∧
    screen.scrollMarginBottom = view.scrollMarginBottom ∧
    screen.scrollMarginLeft = view.scrollMarginLeft ∧
      screen.scrollMarginRight = view.scrollMarginRight
  tabStops : screen.tabStops = view.tabStops.filter fun column => column < view.columnCount

section

variable {view : ScreenView} {budget epochSequenceStart generation firstRow : Nat}
  {tables tables' : ExportTables} {screen : Screen}

/-- An export of a screen goes from a row at or before the viewport to the last one. -/
theorem exportScreen_spec
    (h : exportScreen view budget epochSequenceStart generation tables = .ok (screen, tables')) :
    tables'.Extends tables ∧ ExportsScreen view epochSequenceStart generation
      (min (view.rowCount - budget) view.viewportStart) tables' screen := by
  obtain ⟨⟨⟩, -, hrest⟩ := bind_eq_ok_iff.1 h
  obtain ⟨⟨includedRows, tables₁⟩, hrows, hrest⟩ := bind_eq_ok_iff.1 hrest
  obtain ⟨oldest, holdest, hrest⟩ := bind_eq_ok_iff.1 hrest
  obtain ⟨newest, hnewest, hrest⟩ := bind_eq_ok_iff.1 hrest
  simp only [bind_eq_ok_iff, context_eq_ok_iff, tryFrom_eq_ok_iff] at hrest
  obtain ⟨_, -, _, -, cursor, hcursor, savedCursor, hsaved, _, ⟨-, rfl⟩,
    _, ⟨-, rfl⟩, _, ⟨-, rfl⟩, _, ⟨-, rfl⟩, _, ⟨-, rfl⟩, -, -, hpure⟩ := hrest
  cases hpure
  obtain ⟨hext, hall⟩ := exportRows_spec hrows
  refine ⟨hext, ?_, rfl, ⟨oldest, holdest, rfl⟩, ⟨newest, hnewest, rfl⟩, ⟨cursor, hcursor, rfl⟩,
    hsaved, ⟨rfl, rfl, rfl, rfl⟩, rfl⟩
  -- The segment has as many rows as there are from its first one on.
  have hsegment : view.rows (min (view.rowCount - budget) view.viewportStart)
      (view.rowCount - min (view.rowCount - budget) view.viewportStart) =
        view.lines.drop (min (view.rowCount - budget) view.viewportStart) := by
    rw [ScreenView.rows, List.take_of_length_le]
    rw [List.length_drop]
    rfl
  rw [hsegment] at hall
  exact hall

end

end AstraShell.Engine
