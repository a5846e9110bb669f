import AstraShell.Render.Painting

/-!
# Rendering step by step

A `ViewportRenderer` that has shown any sequence of states, with invalidations between them, has
brought the local terminal where a fresh renderer brings an empty one with the last state alone
(`ViewportRenderer.incremental_eq_repaint`): the same grid, cursor, pen and settings.

One output settles the terminal (`settles`): it shows the state afterwards, whatever it showed
before, because a row is skipped only when the terminal already shows it.
-/

set_option autoImplicit false

namespace AstraShell.Render

open Lib Lib.Escape TerminalState

/-! ## What an accepted state gives -/

variable {graphemeCount : String → Nat}

theorem viewport_getElem? (state : State) (screen : Screen) (r : Nat) :
    (viewport state screen)[r]? =
      if r < state.rows then screen.includedRows[screen.viewportStart + r]? else none := by
  rw [viewport, List.getElem?_take, List.getElem?_drop]

theorem mem_visibleRows_iff (state : State) (screen : Screen) (row : Row) (r : Nat) :
    (row, r) ∈ visibleRows state screen ↔ (viewport state screen)[r]? = some row := by
  rw [visibleRows, List.mem_zipIdx_iff_getElem?]
  rfl

/-- What the renderer needs to know about the state it shows. -/
structure Shows (state : State) (screen : Screen) (cursor : Cursor) (modes : Modes) : Prop where
  active : activeScreen state = some screen
  cursor : screen.cursor = some cursor
  modes : state.modes = some modes
  cols : 0 < state.cols
  included : screen.viewportStart + state.rows ≤ screen.includedRows.length
  graphemes : ∀ row ∈ screen.includedRows, ∀ cell ∈ row.cells, cell.grapheme ≠ ""
  columns : ∀ row ∈ screen.includedRows, ∀ cell ∈ row.cells, cell.column < state.cols
  links : ∀ cell : Cell, cell.hyperlinkId = 0 → cellHyperlink state cell = none

/-- No entry of the table has the identifier zero. -/
theorem cellHyperlink_zero {state : State} (h : ∀ link ∈ state.hyperlinks, link.id ≠ 0)
    {cell : Cell} (hzero : cell.hyperlinkId = 0) : cellHyperlink state cell = none := by
  have hnone : hyperlinkOf state.hyperlinks cell.hyperlinkId = none := by
    rw [hyperlinkOf, List.find?_eq_none]
    intro link hlink
    rw [hzero]
    simpa using h link (List.mem_reverse.1 hlink)
  rw [cellHyperlink, hnone]
  rfl

theorem shows_of_validate {state : State} (h : validate graphemeCount state = .ok ()) :
    ∃ screen cursor modes, Shows state screen cursor modes := by
  have haccepted := (validate_eq_ok_iff graphemeCount state).1 h
  obtain ⟨modes, hmodes, -⟩ := haccepted.modes
  obtain ⟨styleIds, hyperlinkIds, primary, alternate, n, m, htables, hprimary, halternate, -,
    hp, ha, -⟩ := haccepted.screens
  obtain ⟨screen, _, _, _, hactive, hscreen⟩ : ∃ screen b n m, activeScreen state = some screen ∧
      ScreenAccepted graphemeCount screen b state styleIds hyperlinkIds n m := by
    rw [activeScreen]
    split
    · exact ⟨alternate, _, _, _, halternate, ha⟩
    · exact ⟨primary, _, _, _, hprimary, hp⟩
  obtain ⟨cursor, hcursor, -⟩ := hscreen.cursor
  have hrows := hscreen.rows_accepted
  refine ⟨screen, cursor, modes, hactive, hcursor, hmodes, haccepted.cols.1,
    hscreen.viewport_included, ?_, ?_, ?_⟩
  · exact fun row hrow cell hcell => ((hrows row hrow).cells cell hcell).grapheme_ne
  · intro row hrow cell hcell
    have haccept := (hrows row hrow).cells cell hcell
    have hfits := haccept.fits
    rcases haccept.width with hw | hw <;> omega
  · have htables := (validateTables_eq_ok_iff _ _ _ _).1 htables
    exact fun cell => cellHyperlink_zero fun link hlink => (htables.each_hyperlink link hlink).id

/-! ## One output -/

section Output

variable {state old : State} {screen oldScreen : Screen} {cursor : Cursor}
  {modes : Modes} {t : LocalTerminal}

theorem paintRow_congr (cols : Nat) (hstyles : old.styles = state.styles)
    (hlinks : old.hyperlinks = state.hyperlinks) :
    paintRow cols old = paintRow cols state := by
  have hcell : paintCell cols old = paintCell cols state := by
    funext line cell
    simp only [paintCell, cellPen, cellLink, cellHyperlink, hstyles, hlinks]
  funext cells
  rw [paintRow, paintRow, hcell]

/-- What the output builds on: the grid before the first row is sent. -/
def Ready (cols : Nat) (state : State) (grid : Nat → Line) :
    Option (State × Screen) → Prop
  | none => grid = fun _ => blankLine
  | some (old, oldScreen) => old.rows = state.rows ∧ grid = screenGrid cols old oldScreen

/-- The rows that are sent, over what the terminal shows, give the grid of the state. -/
theorem paintRows_screenGrid {cols : Nat} {grid : Nat → Line} {previous : Option (State × Screen)}
    (hincluded : screen.viewportStart + state.rows ≤ screen.includedRows.length)
    (hready : Ready cols state grid previous) :
    LocalTerminal.paintRows cols state grid (paintedRows state screen previous) =
      screenGrid cols state screen := by
  refine LocalTerminal.paintRows_eq ?_ ?_
  · rintro ⟨row, r⟩ hentry
    have hrow := (mem_visibleRows_iff state screen row r).1 (List.mem_of_mem_filter hentry)
    rw [screenGrid, hrow]
  · intro r hr
    -- A visible row that is not sent is unchanged.
    have hkept : ∀ row, (viewport state screen)[r]? = some row →
        unchangedRow state previous r row = true := by
      intro row hrow
      by_contra hchanged
      refine hr (row, r) (List.mem_filter.2 ⟨(mem_visibleRows_iff state screen row r).2 hrow, ?_⟩)
        rfl
      simpa using hchanged
    rw [screenGrid]
    cases previous with
    | none =>
      cases hrow : (viewport state screen)[r]? with
      | none => rw [hready]
      | some row => cases hkept row hrow
    | some entry =>
      obtain ⟨old, oldScreen⟩ := entry
      obtain ⟨hrows, rfl⟩ := hready
      by_cases hlt : r < state.rows
      · -- The old row has the same cells, and they mean the same.
        obtain ⟨row, hrow⟩ : ∃ row, (viewport state screen)[r]? = some row := by
          rw [viewport_getElem?, if_pos hlt]
          exact ⟨_, List.getElem?_eq_getElem (by omega)⟩
        have hsame := hkept row hrow
        simp [unchangedRow, Option.any_eq_true] at hsame
        obtain ⟨hstyles, hlinks, -, oldRow, holdRow, hcells⟩ := hsame
        rw [screenGrid, viewport_getElem?, if_pos (hrows ▸ hlt), holdRow, hrow]
        dsimp only
        rw [hcells, paintRow_congr cols hstyles hlinks]
      · rw [screenGrid, viewport_getElem?, viewport_getElem?, if_neg hlt, if_neg (hrows ▸ hlt)]

/-- The terminal when the first row is sent. -/
theorem interpretAll_start (previous : Option (State × Screen)) :
    t.interpretAll (prelude ++ if previous.isNone then eraseDisplay else []) =
      { t with
        settings := t.settings.painting
        grid := if previous.isNone then fun _ => blankLine else t.grid
        row := 0
        column := 0
        pen := .plain } := by
  rw [LocalTerminal.interpretAll_append, LocalTerminal.interpretAll_prelude]
  cases previous with
  | none => simp [eraseDisplay, LocalTerminal.interpret, LocalTerminal.control, readNumbers,
      LocalTerminal.eraseDisplay, LocalTerminal.move, Pen.plain]; rfl
  | some entry => rfl

theorem Shows.tokens {previous : Option (State × Screen)} (h : Shows state screen cursor modes) :
    screenTokens state screen previous false =
      (prelude ++ if previous.isNone then eraseDisplay else []) ++
        (paintedRows state screen previous).flatMap (fun (row, rowIndex) =>
          rowTokens state rowIndex row) ++
        (resetPen :: (cursorTokens cursor ++ modeTokens modes false)) := by
  simp [screenTokens, h.cursor, h.modes]

/-- One output brings the terminal where the state asks for. -/
theorem settles {previous : Option (State × Screen)} (h : Shows state screen cursor modes)
    (hrows : state.rows ≤ t.settings.rows) (hcols : state.cols ≤ t.settings.cols)
    (hlink : t.link = none)
    (hready : ∀ entry, previous = some entry →
      Ready t.settings.cols state t.grid (some entry))
    {rest : List Nat}
    (hwidths : t.widths = LocalTerminal.declared (paintedRows state screen previous) ++ rest) :
    t.interpretAll (screenTokens state screen previous false) =
      settled rest t.settings state screen cursor modes := by
  rw [h.tokens, LocalTerminal.interpretAll_append, LocalTerminal.interpretAll_append,
    interpretAll_start]
  set t' : LocalTerminal := ⟨t.settings.painting,
    if previous.isNone then fun _ => blankLine else t.grid, 0, 0, .plain, t.link, t.widths⟩ with ht'
  have hpaintable : t'.Paintable :=
    ⟨rfl, by simp [ht', Settings.painting, paintingSettings, setAll], hlink⟩
  have hfits : ∀ entry ∈ paintedRows state screen previous,
      LocalTerminal.RowFits t'.settings state entry := by
    rintro ⟨row, r⟩ hentry
    have hvisible := List.mem_of_mem_filter hentry
    have hmem := mem_of_mem_visibleRows hvisible
    have hrow := (mem_visibleRows_iff state screen row r).1 hvisible
    have hlt : r < state.rows := by
      by_contra hge
      rw [viewport_getElem?, if_neg hge] at hrow
      cases hrow
    refine ⟨lt_of_lt_of_le hlt hrows, lt_of_lt_of_le h.cols hcols, fun cell hcell => ⟨?_, ?_⟩⟩
    · exact lt_of_lt_of_le (h.columns row hmem cell hcell) hcols
    · exact h.links cell
  have hpainted := LocalTerminal.painted_rows hpaintable hfits hwidths
  have hgrid : Ready t.settings.cols state t'.grid previous := by
    cases previous with
    | none => rfl
    | some entry => exact hready entry rfl
  rw [show t'.settings.cols = t.settings.cols from rfl,
    paintRows_screenGrid h.included hgrid] at hpainted
  generalize LocalTerminal.interpretAll t' _ = t'' at hpainted ⊢
  obtain ⟨settings, grid, row, column, pen, link, widths⟩ := t''
  obtain ⟨hsettings, hlink', hgrid', hwidths'⟩ := hpainted
  dsimp only at hsettings hlink' hgrid' hwidths'
  subst hsettings hlink' hgrid' hwidths'
  rw [LocalTerminal.interpretAll_cons, LocalTerminal.interpret_resetPen,
    LocalTerminal.interpretAll_append, LocalTerminal.interpretAll_cursorTokens,
    LocalTerminal.interpretAll_modeTokens]
  simp only [settled, Settings.settle, ht', Settings.painting, outputSettings, setAll,
    List.foldl_append, List.foldl_cons, List.foldl_nil]

end Output

/-! ## Sequences of calls -/

namespace ViewportRenderer

/-- A call of the renderer. -/
inductive Call where
  | render (state : State)
  | invalidate

/-- The widths that the state declares for the graphemes of its output, in their order. -/
def widths (r : ViewportRenderer) (state : State) : List Nat :=
  (activeScreen state).elim [] fun screen =>
    LocalTerminal.declared (paintedRows state screen (r.previousFor state))

/-- The outputs of a sequence of calls, with the widths that are declared for them. -/
def run (graphemeCount : String → Nat) : ViewportRenderer → List Call →
    Except String (List (Text × List Nat) × ViewportRenderer)
  | r, [] => .ok ([], r)
  | r, .invalidate :: calls => run graphemeCount r.invalidate calls
  | r, .render state :: calls => do
    let (output, r') ← r.render graphemeCount state
    let (outputs, r'') ← run graphemeCount r' calls
    return ((output, r.widths state) :: outputs, r'')

/-- The state that was rendered last. -/
def lastState : List Call → Option State
  | [] => none
  | .invalidate :: calls => lastState calls
  | .render state :: calls => (lastState calls).or (some state)

theorem mem_of_lastState {calls : List Call} {last : State} (h : lastState calls = some last) :
    .render last ∈ calls := by
  induction calls with
  | nil => cases h
  | cons call calls ih =>
    cases call with
    | invalidate => exact List.mem_cons_of_mem _ (ih h)
    | render state =>
      rcases Option.or_eq_some_iff.1 h with h | ⟨-, h⟩
      · exact List.mem_cons_of_mem _ (ih h)
      · cases h
        exact List.mem_cons_self

section

variable {base : Settings} {r : ViewportRenderer} {t : LocalTerminal}
  {state : State}

/-- The terminal shows what the renderer remembers, and its settings differ from the first ones only
in what every output sets. -/
structure Tracks (base : Settings) (r : ViewportRenderer) (t : LocalTerminal) :
    Prop where
  rows : t.settings.rows = base.rows
  cols : t.settings.cols = base.cols
  settle : ∀ cursor modes, t.settings.settle cursor modes = base.settle cursor modes
  link : t.link = none
  shown : ∀ old, r.previous = some old →
    ∃ screen, activeScreen old = some screen ∧ t.grid = screenGrid base.cols old screen

theorem tracks_fresh (base : Settings) : Tracks base fresh (.blank base) :=
  ⟨rfl, rfl, fun _ _ => rfl, rfl, fun _ h => absurd h (Option.some_ne_none _).symm⟩

section

variable (h : Tracks base r t)

include h

theorem previousFor_ready {entry : State × Screen} (hentry : r.previousFor state = some entry) :
    Ready base.cols state t.grid (some entry) := by
  obtain ⟨old, hold, hscreen⟩ := Option.bind_eq_some_iff.1 hentry
  obtain ⟨hprevious, hsame⟩ := Option.filter_eq_some_iff.1 hold
  obtain ⟨screen, hactive, hgrid⟩ := h.shown old hprevious
  rw [hactive] at hscreen
  cases hscreen
  rw [decide_eq_true_eq] at hsame
  exact ⟨hsame.1, hgrid⟩

/-- One call of `render`: the output is read as it was meant, and the terminal shows the state. -/
theorem render_tracks (hvalid : validate graphemeCount state = .ok ())
    (hrows : state.rows ≤ base.rows) (hcols : state.cols ≤ base.cols) :
    ∃ tokens screen cursor modes, Shows state screen cursor modes ∧ Block tokens ∧
      r.render graphemeCount state = .ok (tokens.flatMap Token.encode, ⟨some state⟩) ∧
      ∀ rest, { t with widths := r.widths state ++ rest }.interpretAll tokens =
          settled rest base state screen cursor modes ∧
        Tracks base ⟨some state⟩ (settled rest base state screen cursor modes) := by
  obtain ⟨screen, cursor, modes, hshows⟩ := shows_of_validate hvalid
  refine ⟨screenTokens state screen (r.previousFor state) false, screen, cursor, modes, hshows,
    screenTokens_block hshows.graphemes _ _, ?_, fun rest => ⟨?_, ?_⟩⟩
  · rw [render, hvalid, hshows.active, ← renderScreen_eq]
    rfl
  · rw [settles (t := { t with widths := r.widths state ++ rest }) hshows (h.rows ▸ hrows)
      (h.cols ▸ hcols) h.link]
    · rw [settled, settled, h.settle, h.rows, h.cols]
    · intro entry hentry
      rw [h.cols]
      exact previousFor_ready h hentry
    · rw [widths, hshows.active]
      rfl
  · refine ⟨rfl, rfl, fun cursor' modes' => base.settle_settle cursor cursor' modes modes', rfl, ?_⟩
    rintro old ⟨⟩
    exact ⟨screen, hshows.active, rfl⟩

theorem run_tracks {calls : List Call}
    (hvalid : ∀ state, .render state ∈ calls → validate graphemeCount state = .ok ())
    (hsize : ∀ state, .render state ∈ calls → state.rows ≤ base.rows ∧ state.cols ≤ base.cols) :
    ∃ outputs r' tokens, run graphemeCount r calls = .ok (outputs, r') ∧ Block tokens ∧
      outputs.flatMap Prod.fst = tokens.flatMap Token.encode ∧
      match lastState calls with
      | none => tokens = [] ∧ outputs = []
      | some last => ∃ screen cursor modes, Shows last screen cursor modes ∧
          { t with widths := outputs.flatMap Prod.snd }.interpretAll tokens =
            settled [] base last screen cursor modes := by
  induction calls generalizing r t with
  | nil => exact ⟨[], r, [], rfl, Block.nil, rfl, rfl, rfl⟩
  | cons call calls ih =>
    have hvalid' := fun state hmem => hvalid state (List.mem_cons_of_mem call hmem)
    have hsize' := fun state hmem => hsize state (List.mem_cons_of_mem call hmem)
    cases call with
    | invalidate =>
      exact ih { h with shown := fun _ h => absurd h (Option.some_ne_none _).symm } hvalid' hsize'
    | render state =>
      obtain ⟨hrows, hcols⟩ := hsize state List.mem_cons_self
      obtain ⟨tokens, screen, cursor, modes, hshows, hblock, hrender, hfirst⟩ :=
        render_tracks h (hvalid state List.mem_cons_self) hrows hcols
      obtain ⟨outputs, r', tokens', hrun, hblock', hflatten, hlast⟩ :=
        ih (hfirst []).2 hvalid' hsize'
      have hsettled := (hfirst (outputs.flatMap Prod.snd)).1
      refine ⟨(tokens.flatMap Token.encode, r.widths state) :: outputs, r', tokens ++ tokens', ?_,
        hblock.append hblock', ?_, ?_⟩
      · rw [run, hrender]
        dsimp only [bind, Except.bind]
        rw [hrun]
        rfl
      · rw [List.flatMap_cons, List.flatMap_append, hflatten]
      · rw [lastState, List.flatMap_cons]
        cases hcase : lastState calls with
        | none =>
          rw [hcase] at hlast
          obtain ⟨rfl, rfl⟩ := hlast
          rw [List.append_nil]
          exact ⟨screen, cursor, modes, hshows, hsettled⟩
        | some last =>
          rw [hcase] at hlast
          obtain ⟨screen', cursor', modes', hshows', hsettled'⟩ := hlast
          refine ⟨screen', cursor', modes', hshows', ?_⟩
          rw [LocalTerminal.interpretAll_append, hsettled]
          exact hsettled'

end

end

/-- After any sequence of accepted states and invalidations, on a local terminal that is large
enough for all of them and draws every grapheme as wide as its cell declares, the terminal is as a
fresh renderer leaves an empty one with the last state alone. -/
theorem incremental_eq_repaint (settings : Settings) (calls : List Call) (last : State)
    (hvalid : ∀ state, .render state ∈ calls → validate graphemeCount state = .ok ())
    (hsize : ∀ state, .render state ∈ calls →
      state.rows ≤ settings.rows ∧ state.cols ≤ settings.cols)
    (hlast : lastState calls = some last) :
    ∃ outputs r output r', run graphemeCount fresh calls = .ok (outputs, r) ∧
      fresh.render graphemeCount last = .ok (output, r') ∧
      (LocalTerminal.blank settings).receive (outputs.flatMap Prod.fst) (outputs.flatMap Prod.snd) =
        (LocalTerminal.blank settings).receive output (fresh.widths last) := by
  have hmem := mem_of_lastState hlast
  obtain ⟨hrows, hcols⟩ := hsize last hmem
  obtain ⟨outputs, r, tokens, hrun, hblock, hflatten, hsettled⟩ :=
    run_tracks (tracks_fresh settings) hvalid hsize
  obtain ⟨tokens', screen', cursor', modes', hshows', hblock', hrender, hfirst⟩ :=
    render_tracks (tracks_fresh settings) (hvalid last hmem) hrows hcols
  have hsettled' := (hfirst []).1
  rw [List.append_nil] at hsettled'
  rw [hlast] at hsettled
  obtain ⟨screen, cursor, modes, hshows, hsettled⟩ := hsettled
  refine ⟨outputs, r, _, _, hrun, hrender, ?_⟩
  rw [LocalTerminal.receive, LocalTerminal.receive, hflatten, hblock.split, hblock'.split, hsettled,
    hsettled']
  cases hshows.active.symm.trans hshows'.active
  cases hshows.cursor.symm.trans hshows'.cursor
  cases hshows.modes.symm.trans hshows'.modes
  rfl

/-- Two rows, with the letters `a` and `x`; the second is declared one or two columns wide. -/
def lettersScreen (width : Nat) : Screen :=
  { blankScreen with
    includedRows := [⟨some blankAnchor, 1, [⟨0, "a", 1, 0, 0⟩], false⟩,
      ⟨some ⟨2, 0⟩, 1, [⟨0, "x", width, 0, 0⟩], false⟩]
    newestAvailable := some ⟨2, 0⟩
    includedEnd := some ⟨2, 0⟩
    scrollMarginBottom := 2
    scrollMarginRight := 2 }

def lettersState (generation width : Nat) : State :=
  { blankState 0 generation with
    rows := 2
    cols := 2
    primary := some (lettersScreen width)
    alternate := some (lettersScreen width) }

/-- The second output sends the second row only. -/
theorem incremental_eq_repaint_letters :
    widths ⟨some (lettersState 1 1)⟩ (lettersState 2 2) = [2] ∧
    ∃ outputs r output r',
      run (fun _ => 1) fresh [.render (lettersState 1 1), .render (lettersState 2 2)] =
        .ok (outputs, r) ∧
      fresh.render (fun _ => 1) (lettersState 2 2) = .ok (output, r') ∧
      (LocalTerminal.blank ⟨2, 2, fun _ => false, false, 0, false, 0⟩).receive
          (outputs.flatMap Prod.fst) (outputs.flatMap Prod.snd) =
        (LocalTerminal.blank ⟨2, 2, fun _ => false, false, 0, false, 0⟩).receive output
          (fresh.widths (lettersState 2 2)) := by
  have hstates : ∀ state, Call.render state ∈
      [.render (lettersState 1 1), .render (lettersState 2 2)] →
        state = lettersState 1 1 ∨ state = lettersState 2 2 := by
    simp
  refine ⟨by decide +kernel, incremental_eq_repaint _ _ _ ?_ ?_ rfl⟩
  · intro state hmem
    rcases hstates state hmem with rfl | rfl <;> decide +kernel
  · intro state hmem
    rcases hstates state hmem with rfl | rfl <;> exact ⟨le_rfl, le_rfl⟩

end ViewportRenderer

end AstraShell.Render
