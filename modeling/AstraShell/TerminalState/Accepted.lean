import AstraShell.TerminalState.Validate
import Mathlib.Algebra.Order.BigOperators.Group.List
import Mathlib.Algebra.Order.Ring.Nat
import Mathlib.Data.List.Chain
import Mathlib.Data.List.Nodup
import Mathlib.Order.CompletePartialOrder
import Mathlib.Order.Interval.Set.Disjoint

/-!
# Terminal State v2: what the loops of validation accept

The loops of `terminal_state_v2.rs` over tables, cells and rows, each inverted once and in both
directions: a loop accepts its list exactly when every element passes, neighbours fit together and
the counts stay within their limits (`validateStyles_eq_ok_iff`, `validateHyperlinks_eq_ok_iff`,
`validateCellsFrom_eq_ok_iff`, `validateRowsFrom_eq_ok_iff`).
-/

set_option autoImplicit false

namespace AstraShell.TerminalState

open Lib

/-! ## Tables -/

/-- A loop that checks every item and collects the identifiers, which must be new. -/
theorem collectIds_eq_ok_iff {α : Type} (P : α → Prop) (key : α → Nat)
    {loop : List Nat → List α → Except String (List Nat)}
    (hnil : ∀ ids, loop ids [] = .ok ids)
    (hcons : ∀ ids x xs out, loop ids (x :: xs) = .ok out ↔
      P x ∧ key x ∉ ids ∧ loop (key x :: ids) xs = .ok out)
    (ids : List Nat) (xs : List α) (out : List Nat) :
    loop ids xs = .ok out ↔
      (∀ x ∈ xs, P x ∧ key x ∉ ids) ∧ (xs.map key).Nodup ∧ out = (xs.map key).reverse ++ ids := by
  induction xs generalizing ids with
  | nil => simp [hnil, eq_comm]
  | cons x xs ih =>
    rw [hcons, ih, List.forall_mem_cons, List.map_cons, List.nodup_cons]
    constructor
    · rintro ⟨hx, hnew, hrest, hnodup, rfl⟩
      refine ⟨⟨⟨hx, hnew⟩, fun y hy => ?_⟩, ⟨fun hmem => ?_, hnodup⟩, by simp⟩
      · obtain ⟨hPy, hy'⟩ := hrest y hy
        exact ⟨hPy, fun h => hy' (List.mem_cons_of_mem _ h)⟩
      · obtain ⟨y, hy, hkey⟩ := List.mem_map.1 hmem
        exact (hrest y hy).2 (hkey ▸ List.mem_cons_self)
    · rintro ⟨⟨⟨hx, hnew⟩, hrest⟩, ⟨hnotin, hnodup⟩, rfl⟩
      refine ⟨hx, hnew, fun y hy => ⟨(hrest y hy).1, fun h => ?_⟩, hnodup, by simp⟩
      rcases List.mem_cons.1 h with h | h
      · exact hnotin (h ▸ List.mem_map_of_mem hy)
      · exact (hrest y hy).2 h

/-- What an entry of the hyperlink table satisfies. -/
structure HyperlinkAccepted (link : Hyperlink) : Prop where
  id : link.id ≠ 0
  uri_ne : link.uri ≠ ""
  uri : link.uri.utf8ByteSize ≤ maxHyperlinkUriBytes
  explicitId : link.explicitId.utf8ByteSize ≤ maxHyperlinkExplicitIdBytes

theorem validateStyles_eq_ok_iff (styles : List Style) (out : List Nat) :
    validateStyles [] styles = .ok out ↔
      (∀ style ∈ styles, validateStyle style = .ok () ∧ style.id ≠ 0) ∧
        (styles.map Style.id).Nodup ∧ out = (styles.map Style.id).reverse := by
  rw [collectIds_eq_ok_iff (fun style => validateStyle style = .ok () ∧ style.id ≠ 0) Style.id
    (fun ids => rfl)]
  · simp
  · intro ids style styles out
    rw [validateStyles]
    simp only [bind_eq_ok_iff, ensure_eq_ok_iff]
    constructor
    · rintro ⟨⟨⟩, hstyle, -, ⟨hid, hnew⟩, hrest⟩
      exact ⟨⟨hstyle, hid⟩, hnew, hrest⟩
    · rintro ⟨⟨hstyle, hid⟩, hnew, hrest⟩
      exact ⟨⟨⟩, hstyle, ⟨⟩, ⟨hid, hnew⟩, hrest⟩

theorem validateHyperlinks_eq_ok_iff (hyperlinks : List Hyperlink) (out : List Nat) :
    validateHyperlinks [] hyperlinks = .ok out ↔
      (∀ link ∈ hyperlinks, HyperlinkAccepted link) ∧
        (hyperlinks.map Hyperlink.id).Nodup ∧ out = (hyperlinks.map Hyperlink.id).reverse := by
  rw [collectIds_eq_ok_iff HyperlinkAccepted Hyperlink.id (fun ids => rfl)]
  · simp
  · intro ids link links out
    rw [validateHyperlinks]
    simp only [bind_eq_ok_iff, ensure_eq_ok_iff]
    constructor
    · rintro ⟨-, ⟨hid, hnew⟩, -, hne, -, huri, -, hexplicit, hrest⟩
      exact ⟨⟨hid, hne, huri, hexplicit⟩, hnew, hrest⟩
    · rintro ⟨⟨hid, hne, huri, hexplicit⟩, hnew, hrest⟩
      exact ⟨⟨⟩, ⟨hid, hnew⟩, ⟨⟩, hne, ⟨⟩, huri, ⟨⟩, hexplicit, hrest⟩

/-- What accepted tables satisfy. -/
structure TablesAccepted (styles : List Style) (hyperlinks : List Hyperlink)
    (styleIds hyperlinkIds : List Nat) : Prop where
  styles_le : styles.length ≤ maxStyles
  hyperlinks_le : hyperlinks.length ≤ maxHyperlinks
  each_style : ∀ style ∈ styles, validateStyle style = .ok () ∧ style.id ≠ 0
  styles_nodup : (styles.map Style.id).Nodup
  each_hyperlink : ∀ link ∈ hyperlinks, HyperlinkAccepted link
  hyperlinks_nodup : (hyperlinks.map Hyperlink.id).Nodup
  styleIds_eq : styleIds = (styles.map Style.id).reverse
  hyperlinkIds_eq : hyperlinkIds = (hyperlinks.map Hyperlink.id).reverse

theorem validateTables_eq_ok_iff (styles : List Style) (hyperlinks : List Hyperlink)
    (styleIds hyperlinkIds : List Nat) :
    validateTables styles hyperlinks = .ok (styleIds, hyperlinkIds) ↔
      TablesAccepted styles hyperlinks styleIds hyperlinkIds := by
  simp only [validateTables, bind_eq_ok_iff, ensure_eq_ok_iff, pure_eq_ok_iff, Prod.mk.injEq,
    validateStyles_eq_ok_iff, validateHyperlinks_eq_ok_iff]
  constructor
  · rintro ⟨-, hslen, _, ⟨hs, hsnodup, rfl⟩, -, hhlen, _, ⟨hh, hhnodup, rfl⟩, rfl, rfl⟩
    exact ⟨hslen, hhlen, hs, hsnodup, hh, hhnodup, rfl, rfl⟩
  · rintro ⟨hslen, hhlen, hs, hsnodup, hh, hhnodup, rfl, rfl⟩
    exact ⟨⟨⟩, hslen, _, ⟨hs, hsnodup, rfl⟩, ⟨⟩, hhlen, _, ⟨hh, hhnodup, rfl⟩, rfl, rfl⟩

/-! ## Cells -/

section Cells

variable {graphemeCount : String → Nat} {cols : Nat} {styleIds hyperlinkIds : List Nat}

/-- What one cell of an accepted row satisfies. -/
structure CellAccepted (graphemeCount : String → Nat) (cols : Nat)
    (styleIds hyperlinkIds : List Nat) (cell : Cell) : Prop where
  grapheme_ne : cell.grapheme ≠ ""
  grapheme_one : graphemeCount cell.grapheme = 1
  grapheme_le : cell.grapheme.utf8ByteSize ≤ maxGraphemeBytes
  width : cell.width = 1 ∨ cell.width = 2
  no_overflow : cell.column + cell.width < 2 ^ 32
  fits : cell.column + cell.width ≤ cols
  style : cell.styleId = 0 ∨ cell.styleId ∈ styleIds
  hyperlink : cell.hyperlinkId = 0 ∨ cell.hyperlinkId ∈ hyperlinkIds

/-- The second cell starts where the first one ends, or later. -/
def CellBefore (a b : Cell) : Prop := a.column + a.width ≤ b.column

theorem validateCellsFrom_eq_ok_iff (previousEnd : Option Nat) (cells : List Cell) :
    validateCellsFrom graphemeCount cols styleIds hyperlinkIds previousEnd cells = .ok () ↔
      (∀ cell ∈ cells, CellAccepted graphemeCount cols styleIds hyperlinkIds cell) ∧
        cells.IsChain CellBefore ∧
        ∀ previous ∈ previousEnd, ∀ cell ∈ cells.head?, previous ≤ cell.column := by
  induction cells generalizing previousEnd with
  | nil => simp [validateCellsFrom]
  | cons cell cells ih =>
    rw [validateCellsFrom]
    simp only [bind_eq_ok_iff, ensure_eq_ok_iff, context_eq_ok_iff, checkedAdd_eq_some_iff, ih,
      List.forall_mem_cons, List.isChain_cons, List.head?_cons, Option.mem_some_iff,
      forall_eq']
    constructor
    · rintro ⟨-, hne, -, hone, -, hle, -, hwidth, _, ⟨hover, rfl⟩, -, hfits, -, hprev, -, hstyle,
        -, hlink, hcells, hchain, hnext⟩
      exact ⟨⟨⟨hne, hone, hle, hwidth, hover, hfits, hstyle, hlink⟩, hcells⟩, ⟨hnext, hchain⟩,
        hprev⟩
    · rintro ⟨⟨⟨hne, hone, hle, hwidth, hover, hfits, hstyle, hlink⟩, hcells⟩, ⟨hnext, hchain⟩,
        hprev⟩
      exact ⟨⟨⟩, hne, ⟨⟩, hone, ⟨⟩, hle, ⟨⟩, hwidth, _, ⟨hover, rfl⟩, ⟨⟩, hfits, ⟨⟩, hprev, ⟨⟩,
        hstyle, ⟨⟩, hlink, hcells, hchain, hnext⟩

/-! ## Rows -/

/-- What one row of an accepted list satisfies. -/
structure RowAccepted (graphemeCount : String → Nat) (cols generation : Nat)
    (styleIds hyperlinkIds : List Nat) (row : Row) : Prop where
  start : ∃ start, row.start = some start ∧ start.logicalLineId ≠ 0
  version : 0 < row.rowVersion ∧ row.rowVersion ≤ generation
  cells : ∀ cell ∈ row.cells, CellAccepted graphemeCount cols styleIds hyperlinkIds cell
  order : row.cells.IsChain CellBefore

/-- The second row continues the first one or starts a later logical line. -/
def RowFollows (cols : Nat) (row next : Row) : Prop :=
  ∃ a b, row.start = some a ∧ next.start = some b ∧ b.logicalLineId ≠ 0 ∧ anchorLt a b ∧
    if row.wrappedToNext then
      b.logicalLineId = a.logicalLineId ∧ a.cellOffset + cols < 2 ^ 32 ∧
        b.cellOffset = a.cellOffset + cols
    else a.logicalLineId < b.logicalLineId

theorem validateNextRow_eq_ok_iff (row next : Row) (start : Anchor) :
    validateNextRow row start cols next = .ok () ↔
      ∃ b, next.start = some b ∧ b.logicalLineId ≠ 0 ∧
        if row.wrappedToNext then
          b.logicalLineId = start.logicalLineId ∧ start.cellOffset + cols < 2 ^ 32 ∧
            b.cellOffset = start.cellOffset + cols
        else start.logicalLineId < b.logicalLineId := by
  simp only [validateNextRow, bind_eq_ok_iff, requiredAnchor_eq_ok_iff, and_assoc]
  refine exists_congr fun b => and_congr_right fun _ => and_congr_right fun _ => ?_
  split
  · simp only [bind_eq_ok_iff, ensure_eq_ok_iff, context_eq_ok_iff, checkedAdd_eq_some_iff]
    constructor
    · rintro ⟨-, hline, _, ⟨hover, rfl⟩, hoffset⟩
      exact ⟨hline, hover, hoffset⟩
    · rintro ⟨hline, hover, hoffset⟩
      exact ⟨⟨⟩, hline, _, ⟨hover, rfl⟩, hoffset⟩
  · simp only [ensure_eq_ok_iff, gt_iff_lt]

/-- The number of cells in the rows. -/
def cellTotal (rows : List Row) : Nat := (rows.map fun row => row.cells.length).sum

@[simp] theorem cellTotal_nil : cellTotal [] = 0 := rfl

@[simp] theorem cellTotal_cons (row : Row) (rows : List Row) :
    cellTotal (row :: rows) = row.cells.length + cellTotal rows := by
  simp [cellTotal]

theorem validateCells_eq_ok_iff (row : Row) (n m : Nat) :
    validateCells graphemeCount row cols styleIds hyperlinkIds n = .ok m ↔
      m = n + row.cells.length ∧ m ≤ maxCells ∧
        (∀ cell ∈ row.cells, CellAccepted graphemeCount cols styleIds hyperlinkIds cell) ∧
        row.cells.IsChain CellBefore := by
  simp only [validateCells, bind_eq_ok_iff, context_eq_ok_iff, checkedAdd_eq_some_iff,
    ensure_eq_ok_iff, pure_eq_ok_iff]
  constructor
  · rintro ⟨_, ⟨-, rfl⟩, -, hle, ⟨⟩, hcells, rfl⟩
    obtain ⟨hcells, hchain, -⟩ := (validateCellsFrom_eq_ok_iff none row.cells).1 hcells
    exact ⟨rfl, hle, hcells, hchain⟩
  · rintro ⟨rfl, hle, hcells, hchain⟩
    have hover : n + row.cells.length < 2 ^ 64 := lt_of_le_of_lt hle (by decide)
    exact ⟨_, ⟨hover, rfl⟩, ⟨⟩, hle, ⟨⟩,
      (validateCellsFrom_eq_ok_iff none row.cells).2 ⟨hcells, hchain, by simp⟩, rfl⟩

variable {generation : Nat}

theorem validateRowsFrom_eq_ok_iff (previous : Option Anchor) (n m : Nat) (rows : List Row) :
    validateRowsFrom graphemeCount cols generation styleIds hyperlinkIds previous n rows = .ok m ↔
      (∀ row ∈ rows, RowAccepted graphemeCount cols generation styleIds hyperlinkIds row) ∧
        rows.IsChain (RowFollows cols) ∧
        (∀ p ∈ previous, ∀ row ∈ rows.head?, ∀ a, row.start = some a → anchorLt p a) ∧
        m = n + cellTotal rows ∧ (rows ≠ [] → m ≤ maxCells) := by
  induction rows generalizing previous n with
  | nil => simp [validateRowsFrom, eq_comm]
  | cons row rows ih =>
    rw [validateRowsFrom]
    simp only [bind_eq_ok_iff, ensure_eq_ok_iff, requiredAnchor_eq_ok_iff, checkSome_eq_ok_iff,
      validateNextRow_eq_ok_iff, validateCells_eq_ok_iff, ih, List.forall_mem_cons,
      List.isChain_cons, List.head?_cons, Option.mem_some_iff, forall_eq', cellTotal_cons]
    constructor
    · rintro ⟨start, ⟨hstart, hne⟩, -, hversion, -, hprev, -, hnext, _, ⟨rfl, hle, hcells, horder⟩,
        hrows, hchain, hlater, rfl, hmax⟩
      refine ⟨⟨⟨⟨start, hstart, hne⟩, hversion, hcells, horder⟩, hrows⟩, ⟨fun next hmem => ?_,
        hchain⟩, fun p hp a ha => ?_, Nat.add_assoc _ _ _, fun _ => ?_⟩
      · obtain ⟨b, hb, hbne, hfollow⟩ := hnext next hmem
        exact ⟨start, b, hstart, hb, hbne, hlater next hmem b hb, hfollow⟩
      · cases hstart.symm.trans ha
        exact hprev p hp
      · by_cases hnil : rows = []
        · subst hnil
          simpa using hle
        · exact hmax hnil
    · rintro ⟨⟨⟨⟨start, hstart, hne⟩, hversion, hcells, horder⟩, hrows⟩, ⟨hnext, hchain⟩, hprev,
        rfl, hmax⟩
      have hle := hmax (List.cons_ne_nil _ _)
      refine ⟨start, ⟨hstart, hne⟩, ⟨⟩, hversion, ⟨⟩, fun p hp => hprev p hp start hstart, ⟨⟩,
        fun next hmem => ?_, _, ⟨rfl, by omega, hcells, horder⟩, hrows, hchain, ?_,
        (Nat.add_assoc _ _ _).symm, fun _ => hle⟩
      · obtain ⟨a, b, ha, hb, hbne, -, hfollow⟩ := hnext next hmem
        cases hstart.symm.trans ha
        exact ⟨b, hb, hbne, hfollow⟩
      · intro next hmem b hb
        obtain ⟨a, b', ha, hb', -, hlt, -⟩ := hnext next hmem
        cases hstart.symm.trans ha
        cases hb.symm.trans hb'
        exact hlt

theorem startsBefore_trans {r r' r'' : Row} (h : StartsBefore r r') (h' : StartsBefore r' r'') :
    StartsBefore r r'' := by
  obtain ⟨a, b, ha, hb, hab⟩ := h
  obtain ⟨b', c, hb', hc, hbc⟩ := h'
  cases hb.symm.trans hb'
  refine ⟨a, c, ha, hc, ?_⟩
  unfold anchorLt at *
  omega

/-- Every row of an accepted screen has an anchor, and the anchors increase. -/
theorem validateRows_ordered {rows : List Row} {n m : Nat}
    (h : validateRows graphemeCount rows cols generation styleIds hyperlinkIds n = .ok m) :
    AnchorsOrdered rows := by
  obtain ⟨hrows, hchain, -⟩ := (validateRowsFrom_eq_ok_iff none n m rows).1 h
  refine ⟨fun r hr => ?_, ?_⟩
  · obtain ⟨a, ha, -⟩ := (hrows r hr).start
    exact ⟨a, ha⟩
  · have : Trans StartsBefore StartsBefore StartsBefore := ⟨startsBefore_trans⟩
    refine List.isChain_iff_pairwise.1 (hchain.imp fun r r' hfollows => ?_)
    obtain ⟨a, b, ha, hb, -, hlt, -⟩ := hfollows
    exact ⟨a, b, ha, hb, hlt⟩

/-- No row of an accepted screen has more cells than a whole state may have. -/
theorem validateRowsFrom_cells_le {previous : Option Anchor} {n m : Nat} {rows : List Row}
    (h : validateRowsFrom graphemeCount cols generation styleIds hyperlinkIds previous n rows
      = .ok m) : ∀ r ∈ rows, r.cells.length ≤ maxCells := by
  obtain ⟨-, -, -, rfl, hle⟩ := (validateRowsFrom_eq_ok_iff previous n m rows).1 h
  intro r hr
  have htotal : r.cells.length ≤ cellTotal rows := List.le_sum_of_mem (List.mem_map_of_mem hr)
  have hmax := hle (List.ne_nil_of_mem hr)
  omega

/-! ## Any two rows and any two cells -/

/-- The rows from the first up to the one before the second are wrapped. -/
def WrappedBetween (rows : List Row) (i j : Nat) : Prop :=
  ∀ k row, i ≤ k → k < j → rows[k]? = some row → row.wrappedToNext = true

/-- The structure of the rows of a screen or page. -/
structure Laid (cols : Nat) (styles : List Style) (hyperlinks : List Hyperlink)
    (rows : List Row) : Prop where
  anchors : ∀ i j row row', i < j → rows[i]? = some row → rows[j]? = some row' →
    ∃ a b, row.start = some a ∧ row'.start = some b ∧ anchorLt a b ∧ a ≠ b ∧
      (a.logicalLineId = b.logicalLineId ↔ WrappedBetween rows i j) ∧
      (a.logicalLineId = b.logicalLineId → b.cellOffset = a.cellOffset + cols * (j - i))
  cells : ∀ row ∈ rows, (∀ cell ∈ row.cells, cell.column + cell.width ≤ cols) ∧
    row.cells.Pairwise fun c c' =>
      Disjoint (Set.Ico c.column (c.column + c.width)) (Set.Ico c'.column (c'.column + c'.width))
  tables : ∀ row ∈ rows, ∀ cell ∈ row.cells,
    (cell.styleId ≠ 0 → (styles.map Style.id).count cell.styleId = 1) ∧
    (cell.hyperlinkId ≠ 0 → (hyperlinks.map Hyperlink.id).count cell.hyperlinkId = 1)

theorem lines_of_chain {rows : List Row} (hchain : rows.IsChain (RowFollows cols)) {i j : Nat}
    (hij : i ≤ j)
    {row row' : Row} (hi : rows[i]? = some row) (hj : rows[j]? = some row') {a b : Anchor}
    (ha : row.start = some a) (hb : row'.start = some b) :
    a.logicalLineId ≤ b.logicalLineId ∧
      (a.logicalLineId = b.logicalLineId ↔ WrappedBetween rows i j) ∧
      (a.logicalLineId = b.logicalLineId → b.cellOffset = a.cellOffset + cols * (j - i)) := by
  induction j, hij using Nat.le_induction generalizing row' b with
  | base =>
    cases hi.symm.trans hj
    cases ha.symm.trans hb
    have hnone : WrappedBetween rows i i := fun k _ hle hlt => absurd hle (not_le.2 hlt)
    simp [hnone]
  | succ j hij ih =>
    obtain ⟨hlt, rfl⟩ := List.getElem?_eq_some_iff.1 hj
    obtain ⟨b', b'', hb', hb'', -, -, hnext⟩ := List.isChain_iff_getElem.1 hchain j hlt
    cases hb.symm.trans hb''
    have hmiddle : rows[j]? = some rows[j] := List.getElem?_eq_getElem _
    obtain ⟨hle, hiff, hoffset⟩ := ih hmiddle hb'
    have hsplit : WrappedBetween rows i (j + 1) ↔
        WrappedBetween rows i j ∧ rows[j].wrappedToNext = true := by
      constructor
      · exact fun h => ⟨fun k row hik hkj => h k row hik (by omega), h j _ hij (by omega) hmiddle⟩
      · rintro ⟨hbefore, hlast⟩ k row hik hkj hk
        rcases Nat.lt_succ_iff_lt_or_eq.1 hkj with hkj | rfl
        · exact hbefore k row hik hkj hk
        · cases hmiddle.symm.trans hk
          exact hlast
    rw [hsplit, ← hiff]
    split at hnext
    next hwrapped =>
      obtain ⟨hline, -, hcell⟩ := hnext
      rw [hline, hcell]
      refine ⟨hle, by simp [hwrapped], fun h => ?_⟩
      rw [hoffset h, Nat.succ_sub hij, Nat.mul_succ, Nat.add_assoc]
    next hbroken =>
      have hne : a.logicalLineId ≠ b.logicalLineId := (hle.trans_lt hnext).ne
      exact ⟨(hle.trans_lt hnext).le, by simp [hbroken, hne], fun h => absurd h hne⟩

theorem laid_of_validateRows {rows : List Row} {styles : List Style}
    {hyperlinks : List Hyperlink} {n m : Nat}
    (htables : TablesAccepted styles hyperlinks styleIds hyperlinkIds)
    (hrows : validateRows graphemeCount rows cols generation styleIds hyperlinkIds n = .ok m) :
    Laid cols styles hyperlinks rows := by
  obtain ⟨hanchors, hordered⟩ := validateRows_ordered hrows
  obtain ⟨haccepted, hchain, -⟩ := (validateRowsFrom_eq_ok_iff none n m rows).1 hrows
  refine ⟨?_, ?_, ?_⟩
  · intro i j row row' hij hi hj
    obtain ⟨hlt, rfl⟩ := List.getElem?_eq_some_iff.1 hi
    obtain ⟨hlt', rfl⟩ := List.getElem?_eq_some_iff.1 hj
    obtain ⟨a, b, ha, hb, hab⟩ := List.pairwise_iff_getElem.1 hordered i j hlt hlt' hij
    refine ⟨a, b, ha, hb, hab, ?_, (lines_of_chain hchain hij.le hi hj ha hb).2⟩
    rintro rfl
    exact anchorLt_irrefl a hab
  · intro row hrow
    refine ⟨fun cell hcell => ((haccepted row hrow).cells cell hcell).fits, ?_⟩
    have : Trans CellBefore CellBefore CellBefore :=
      ⟨fun h h' => h.trans ((Nat.le_add_right _ _).trans h')⟩
    refine (List.isChain_iff_pairwise.1 (haccepted row hrow).order).imp fun {c c'} h => ?_
    exact (Set.Iio_disjoint_Ici h).mono Set.Ico_subset_Iio_self Set.Ico_subset_Ici_self
  · intro row hrow cell hcell
    have h := (haccepted row hrow).cells cell hcell
    constructor
    · intro hne
      have hmem := h.style.resolve_left hne
      rw [htables.styleIds_eq, List.mem_reverse] at hmem
      exact List.count_eq_one_of_mem htables.styles_nodup hmem
    · intro hne
      have hmem := h.hyperlink.resolve_left hne
      rw [htables.hyperlinkIds_eq, List.mem_reverse] at hmem
      exact List.count_eq_one_of_mem htables.hyperlinks_nodup hmem

end Cells

/-! ## The screens of an accepted state -/

/-- Both screens of an accepted state are present and ordered. -/
theorem StateAccepted.screens_ordered {graphemeCount : String → Nat} {state : State}
    (h : StateAccepted graphemeCount state) :
    ∃ primary alternate, state.primary = some primary ∧ state.alternate = some alternate ∧
      primary.includedRows.length + alternate.includedRows.length ≤ maxIncludedRows ∧
      AnchorsOrdered primary.includedRows ∧ AnchorsOrdered alternate.includedRows := by
  obtain ⟨_, _, primary, alternate, n, m, -, hp, ha, hcount, hprimary, halternate, -⟩ := h.screens
  exact ⟨primary, alternate, hp, ha, hcount, validateRows_ordered hprimary.rows,
    validateRows_ordered halternate.rows⟩

/-- Every row of an accepted screen is accepted. -/
theorem ScreenAccepted.rows_accepted {graphemeCount : String → Nat} {screen : Screen}
    {alternate : Bool} {state : State} {styleIds hyperlinkIds : List Nat} {n m : Nat}
    (h : ScreenAccepted graphemeCount screen alternate state styleIds hyperlinkIds n m) :
    ∀ row ∈ screen.includedRows,
      RowAccepted graphemeCount state.cols state.generation styleIds hyperlinkIds row :=
  ((validateRowsFrom_eq_ok_iff none n m screen.includedRows).1 h.rows).1

/-- What the loops check of neighbours holds of all rows and cells of an accepted state or page. -/
theorem validated_structure (graphemeCount : String → Nat) :
    (∀ state, validate graphemeCount state = .ok () → ∀ screen,
      screen ∈ state.primary ∨ screen ∈ state.alternate →
      Laid state.cols state.styles state.hyperlinks screen.includedRows) ∧
    ∀ page, validateHistoryPage graphemeCount page = .ok () →
      Laid page.cols page.styles page.hyperlinks page.includedRows := by
  constructor
  · intro state hvalid screen hscreen
    obtain ⟨styleIds, hyperlinkIds, primary, alternate, n, m, htables, hp, ha, -, hprimary,
      halternate, -⟩ := ((validate_eq_ok_iff _ _).1 hvalid).screens
    have haccepted := (validateTables_eq_ok_iff _ _ _ _).1 htables
    rcases hscreen with hmem | hmem
    · cases hp.symm.trans hmem
      exact laid_of_validateRows haccepted hprimary.rows
    · cases ha.symm.trans hmem
      exact laid_of_validateRows haccepted halternate.rows
  · intro page hvalid
    by_cases hempty : page.includedRows = []
    · rw [hempty]
      exact ⟨nofun, nofun, nofun⟩
    simp only [validateHistoryPage, bind_eq_ok_iff, if_neg hempty] at hvalid
    obtain ⟨-, -, -, -, -, -, -, -, -, -, oldest, -, newest, -, -, -, hrest⟩ := hvalid
    split at hrest
    next => exact absurd (ensure_eq_ok_iff.1 hrest).1 hempty
    next =>
      simp only [bind_eq_ok_iff] at hrest
      obtain ⟨-, -, _, -, _, -, -, -, -, -, -, -, ids, htables, _, hrows, -⟩ := hrest
      exact laid_of_validateRows ((validateTables_eq_ok_iff _ _ _ _).1 htables) hrows

/-- A line of three cells in two rows of two columns. -/
def wrappedPage : HistoryPage :=
  ⟨7, List.replicate 16 0, 1, 2, [⟨some ⟨1, 0⟩, 1, [⟨0, "a", 1, 0, 5⟩, ⟨1, "b", 1, 0, 0⟩], true⟩,
    ⟨some ⟨1, 2⟩, 1, [⟨0, "c", 1, 0, 0⟩], false⟩], some ⟨1, 0⟩, some ⟨1, 2⟩, some ⟨1, 0⟩,
    some ⟨1, 2⟩, [], [⟨5, "u", ""⟩], false, false⟩

theorem validated_structure_wrappedPage :
    Laid 2 [] [⟨5, "u", ""⟩] wrappedPage.includedRows :=
  (validated_structure fun _ => 1).2 wrappedPage (by decide +kernel)

end AstraShell.TerminalState
