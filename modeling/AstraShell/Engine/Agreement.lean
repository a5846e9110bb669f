import AstraShell.Engine.Rows

/-!
# The viewport and the full state

A client sees the live viewport of a terminal or a full state of it. Both are exports of the same
engine, but the full state comes with history, whose rows are visited first and so get other numbers
for styles and links, and the viewport may come from a cache. `SameShown` says that the two show the
same: it compares cells by their contents.

`viewport_agrees_with_state`: in every run of an engine, a viewport and a full state between which
the emulator was not touched are the same in this sense.
-/

set_option autoImplicit false

namespace AstraShell.Engine

open Lib
open TerminalState (Bytes Cursor HistoryPageRequest Row Screen State)

/-! ## What is shown -/

/-- The rows of the viewport of a screen. -/
def viewportOf (screen : Screen) : List Row := screen.includedRows.drop screen.viewportStart

/-- Two screens, of two states, that show the same. -/
structure SameScreen (v s : State) (a b : Screen) : Prop where
  rows : (viewportOf a).map (rowContent v.styles v.hyperlinks) =
    (viewportOf b).map (rowContent s.styles s.hyperlinks)
  cursor : a.cursor = b.cursor
  savedCursor : a.savedCursor = b.savedCursor
  oldestAvailable : a.oldestAvailable = b.oldestAvailable
  newestAvailable : a.newestAvailable = b.newestAvailable
  scrollMarginTop : a.scrollMarginTop = b.scrollMarginTop
  scrollMarginBottom : a.scrollMarginBottom = b.scrollMarginBottom
  scrollMarginLeft : a.scrollMarginLeft = b.scrollMarginLeft
  scrollMarginRight : a.scrollMarginRight = b.scrollMarginRight
  tabStops : a.tabStops = b.tabStops

/-- Two states that show the same. -/
structure SameShown (v s : State) : Prop where
  epoch : v.epoch = s.epoch
  generation : v.generation = s.generation
  rows : v.rows = s.rows
  cols : v.cols = s.cols
  activeScreen : v.activeScreen = s.activeScreen
  modes : v.modes = s.modes
  title : v.title = s.title
  workingDirectory : v.workingDirectory = s.workingDirectory
  palette : v.palette = s.palette
  primary : ∃ a b, v.primary = some a ∧ s.primary = some b ∧ SameScreen v s a b
  alternate : ∃ a b, v.alternate = some a ∧ s.alternate = some b ∧ SameScreen v s a b

/-! ## Two exports of one screen -/

/-- A cursor needs no more of the rows than where those of the viewport start. -/
theorem exportCursor_congr {rows rows' : List Row} {first first' : Nat}
    (h : (rows.drop first).map Row.start = (rows'.drop first').map Row.start)
    (cursor : CursorView) (epochSequenceStart columns viewportRows : Nat) :
    exportCursor cursor epochSequenceStart rows first columns viewportRows =
      exportCursor cursor epochSequenceStart rows' first' columns viewportRows := by
  have hget : ∀ y, rows[first + y]?.map Row.start = rows'[first' + y]?.map Row.start := by
    intro y
    rw [← List.getElem?_drop, ← List.getElem?_drop, ← List.getElem?_map, ← List.getElem?_map, h]
  unfold exportCursor
  dsimp only
  generalize min cursor.y (viewportRows - 1) = y
  -- The row of the cursor and the first row of the viewport are there in both, with the same start.
  have hrow := hget y
  have hfirst := hget 0
  rw [Nat.add_zero, Nat.add_zero] at hfirst
  have hpicked : (rows[first + y]?.or rows[first]?).map Row.start =
      (rows'[first' + y]?.or rows'[first']?).map Row.start := by
    rw [Option.map_or, Option.map_or, hrow, hfirst]
  revert hpicked
  generalize rows[first + y]?.or rows[first]? = picked
  generalize rows'[first' + y]?.or rows'[first']? = picked'
  intro hpicked
  cases picked with
  | none =>
    cases picked' with
    | none => rfl
    | some row' => cases hpicked
  | some row =>
    cases picked' with
    | none => cases hpicked
    | some row' =>
      have hstart : row.start = row'.start := Option.some.inj hpicked
      simp only [context, bind, Except.bind, hstart]

section

variable {view : ScreenView} {epochSequenceStart generation first first' : Nat}
  {tables tables' : ExportTables} {screen screen' : Screen}

/-- The exported viewport belongs to the viewport of the view. -/
theorem ExportsScreen.viewport
    (h : ExportsScreen view epochSequenceStart generation first tables screen)
    (hfirst : first ≤ view.viewportStart) :
    List.Forall₂ (ExportsRow view.columnCount epochSequenceStart generation tables)
      (view.lines.drop view.viewportStart) (viewportOf screen) := by
  have hdrop := List.forall₂_drop screen.viewportStart h.rows
  have hindex : first + (view.viewportStart - first) = view.viewportStart := by omega
  rw [List.drop_drop, h.viewportStart, hindex] at hdrop
  rw [viewportOf, h.viewportStart]
  exact hdrop

theorem map_eq_of_forall₂ {α β γ : Type} {R R' : α → β → Prop} {f f' : β → γ}
    (hf : ∀ {a b b'}, R a b → R' a b' → f b = f' b') {as : List α} {bs bs' : List β}
    (h : List.Forall₂ R as bs) (h' : List.Forall₂ R' as bs') : bs.map f = bs'.map f' := by
  induction h generalizing bs' with
  | nil =>
    cases h'
    rfl
  | cons hab _ ih =>
    cases h' with
    | cons hab' htail => rw [List.map_cons, List.map_cons, hf hab hab', ih htail]

/-- Two exports of a screen that both have its viewport show the same. -/
theorem ExportsScreen.same {v s : State}
    (h : ExportsScreen view epochSequenceStart generation first tables screen)
    (h' : ExportsScreen view epochSequenceStart generation first' tables' screen')
    (hfirst : first ≤ view.viewportStart) (hfirst' : first' ≤ view.viewportStart)
    (hv : v.styles = tables.styles ∧ v.hyperlinks = tables.hyperlinks)
    (hs : s.styles = tables'.styles ∧ s.hyperlinks = tables'.hyperlinks) :
    SameScreen v s screen screen' := by
  have hviewport := h.viewport hfirst
  have hviewport' := h'.viewport hfirst'
  have hstarts : (viewportOf screen).map Row.start = (viewportOf screen').map Row.start :=
    map_eq_of_forall₂
      (R := ExportsRow view.columnCount epochSequenceStart generation tables)
      (fun hrow hrow' => hrow.start_eq hrow') hviewport hviewport'
  have hcursors := exportCursor_congr hstarts
  obtain ⟨cursor, hcursor, hscreen⟩ := h.cursor
  obtain ⟨cursor', hcursor', hscreen'⟩ := h'.cursor
  obtain ⟨oldest, holdest, holdest'⟩ := h.oldestAvailable
  obtain ⟨newest, hnewest, hnewest'⟩ := h.newestAvailable
  obtain ⟨_, holdest₁, holdest₁'⟩ := h'.oldestAvailable
  obtain ⟨_, hnewest₁, hnewest₁'⟩ := h'.newestAvailable
  rw [holdest] at holdest₁
  rw [hnewest] at hnewest₁
  cases holdest₁
  cases hnewest₁
  obtain ⟨htop, hbottom, hleft, hright⟩ := h.margins
  obtain ⟨htop', hbottom', hleft', hright'⟩ := h'.margins
  refine ⟨?_, ?_, ?_, by rw [holdest', holdest₁'], by rw [hnewest', hnewest₁'], by rw [htop, htop'],
    by rw [hbottom, hbottom'], by rw [hleft, hleft'], by rw [hright, hright'],
    by rw [h.tabStops, h'.tabStops]⟩
  · rw [hv.1, hv.2, hs.1, hs.2]
    exact map_eq_of_forall₂
      (R := ExportsRow view.columnCount epochSequenceStart generation tables)
      (fun hrow hrow' => hrow.content_eq hrow') hviewport hviewport'
  · rw [hcursors] at hcursor
    rw [hscreen, hscreen', Except.ok.inj (hcursor.symm.trans hcursor')]
  · have hsaved := h.savedCursor
    simp only [hcursors] at hsaved
    exact Except.ok.inj (hsaved.symm.trans h'.savedCursor)

end

/-! ## The two exports of one view -/

/-- What a successful export has gone through. -/
structure ExportsState (e : TerminalEngine) (viewportOnly : Bool) (state : State) : Prop where
  epoch : state.epoch = e.epoch
  generation : Engine.generation e.terminal e.epochSequenceStart = .ok state.generation
  rows : state.rows = e.terminal.rows
  cols : state.cols = e.terminal.columns
  activeScreen : state.activeScreen = match e.terminal.activeScreen with
    | .primary => 1
    | .alternate => 2
  modes : state.modes = some (exportModes e.terminal.modes)
  title : state.title = e.terminal.title
  workingDirectory : state.workingDirectory = e.terminal.workingDirectory.getD ""
  palette : state.palette = some (exportPalette e.terminal.palette)
  screens : ∃ tables primary alternate first first',
    state.styles = tables.styles ∧ state.hyperlinks = tables.hyperlinks ∧
    state.primary = some primary ∧ state.alternate = some alternate ∧
    first ≤ e.terminal.primary.viewportStart ∧ first' ≤ e.terminal.alternate.viewportStart ∧
    ExportsScreen e.terminal.primary e.epochSequenceStart state.generation first tables primary ∧
    ExportsScreen e.terminal.alternate e.epochSequenceStart state.generation first' tables alternate

namespace TerminalEngine

variable {graphemeCount : String → Nat} {e e' : TerminalEngine} {v s : State} {uuid uuid' : Bytes}

theorem exportView_spec {viewportOnly : Bool}
    (h : e.exportView graphemeCount viewportOnly = .ok s) : ExportsState e viewportOnly s := by
  obtain ⟨⟨⟩, -, hrest⟩ := bind_eq_ok_iff.1 h
  obtain ⟨gen, hgeneration, hrest⟩ := bind_eq_ok_iff.1 hrest
  obtain ⟨⟨⟩, -, hrest⟩ := bind_eq_ok_iff.1 hrest
  obtain ⟨⟨primary, tables⟩, hprimary, hrest⟩ := bind_eq_ok_iff.1 hrest
  obtain ⟨⟨alternate, tables'⟩, halternate, hrest⟩ := bind_eq_ok_iff.1 hrest
  simp only [bind_eq_ok_iff, tryFrom_eq_ok_iff] at hrest
  obtain ⟨_, ⟨-, rfl⟩, _, ⟨-, rfl⟩, -, -, hpure⟩ := hrest
  cases hpure
  obtain ⟨-, hp⟩ := exportScreen_spec hprimary
  obtain ⟨hext, ha⟩ := exportScreen_spec halternate
  exact ⟨rfl, hgeneration, rfl, rfl, rfl, rfl, rfl, rfl, rfl, tables', primary, alternate, _, _,
    rfl, rfl, rfl, rfl, min_le_right _ _, min_le_right _ _,
    { hp with rows := hp.rows.imp fun _ _ hrow => hrow.mono hext }, ha⟩

/-- Two exports of one view, with or without history, show the same. -/
theorem sameShown_of_exportView {full full' : Bool} (hv : e.exportView graphemeCount full = .ok v)
    (hs : e.exportView graphemeCount full' = .ok s) : SameShown v s := by
  have hexport := exportView_spec hv
  have hexport' := exportView_spec hs
  have hgeneration : v.generation = s.generation :=
    Except.ok.inj (hexport.generation.symm.trans hexport'.generation)
  obtain ⟨tables, primary, alternate, first, last, hstyles, hlinks, hprimary, halternate, hfirst,
    hlast, hp, ha⟩ := hexport.screens
  obtain ⟨tables', primary', alternate', first', last', hstyles', hlinks', hprimary', halternate',
    hfirst', hlast', hp', ha'⟩ := hexport'.screens
  rw [← hgeneration] at hp' ha'
  exact {
    epoch := hexport.epoch.trans hexport'.epoch.symm
    generation := hgeneration
    rows := hexport.rows.trans hexport'.rows.symm
    cols := hexport.cols.trans hexport'.cols.symm
    activeScreen := hexport.activeScreen.trans hexport'.activeScreen.symm
    modes := hexport.modes.trans hexport'.modes.symm
    title := hexport.title.trans hexport'.title.symm
    workingDirectory := hexport.workingDirectory.trans hexport'.workingDirectory.symm
    palette := hexport.palette.trans hexport'.palette.symm
    primary := ⟨primary, primary', hprimary, hprimary',
      hp.same hp' hfirst hfirst' ⟨hstyles, hlinks⟩ ⟨hstyles', hlinks'⟩⟩
    alternate := ⟨alternate, alternate', halternate, halternate',
      ha.same ha' hlast hlast' ⟨hstyles, hlinks⟩ ⟨hstyles', hlinks'⟩⟩ }

/-! ## Runs -/

/-- A call on an engine. The emulator changes in `advance` and `resize` only; the UUIDs are drawn
where an epoch ends. -/
inductive Call where
  | advance (terminal : TerminalView)
  | resize (rows columns : Nat) (terminal : TerminalView)
  | semanticState (uuid : Bytes)
  | semanticViewport (uuid : Bytes)
  | historyPage (requestId : Nat) (request : HistoryPageRequest) (uuid : Bytes)

/-- The call leaves the emulator alone. -/
def Call.quiet : Call → Bool
  | .advance _ => false
  | .resize _ _ _ => false
  | _ => true

section

variable (graphemeCount)

def call (e : TerminalEngine) : Call → TerminalEngine
  | .advance terminal => e.advance terminal
  | .resize rows columns terminal => (e.resize rows columns terminal).2
  | .semanticState uuid => (e.semanticState graphemeCount uuid).2
  | .semanticViewport uuid => (e.semanticViewport graphemeCount uuid).2
  | .historyPage requestId request uuid => (e.historyPage graphemeCount requestId request uuid).2

def run (e : TerminalEngine) (calls : List Call) : TerminalEngine :=
  calls.foldl (call graphemeCount) e

end

/-- The epoch of the engine is that of the view. -/
def Fresh (e : TerminalEngine) : Prop := e.terminal.identityEpoch = e.identityEpoch

/-- Everything an export looks at is the same. -/
def SameBasis (e e' : TerminalEngine) : Prop :=
  e'.terminal = e.terminal ∧ e'.historyLimits = e.historyLimits ∧ e'.epoch = e.epoch ∧
    e'.identityEpoch = e.identityEpoch ∧ e'.epochSequenceStart = e.epochSequenceStart

theorem SameBasis.refl (e : TerminalEngine) : e.SameBasis e := ⟨rfl, rfl, rfl, rfl, rfl⟩

theorem SameBasis.trans {e'' : TerminalEngine} (h : e.SameBasis e') (h' : e'.SameBasis e'') :
    e.SameBasis e'' := by
  obtain ⟨h₁, h₂, h₃, h₄, h₅⟩ := h
  obtain ⟨h₁', h₂', h₃', h₄', h₅'⟩ := h'
  exact ⟨h₁'.trans h₁, h₂'.trans h₂, h₃'.trans h₃, h₄'.trans h₄, h₅'.trans h₅⟩

theorem SameBasis.fresh (h : e.SameBasis e') (hfresh : e.Fresh) : e'.Fresh := by
  rw [Fresh, h.1, h.2.2.2.1]
  exact hfresh

theorem SameBasis.exportView (h : e.SameBasis e') (viewportOnly : Bool) :
    e'.exportView graphemeCount viewportOnly = e.exportView graphemeCount viewportOnly := by
  obtain ⟨h₁, h₂, h₃, -, h₅⟩ := h
  unfold TerminalEngine.exportView
  rw [h₁, h₂, h₃, h₅]

theorem fresh_refreshIdentityEpoch (e : TerminalEngine) (uuid : Bytes) :
    (e.refreshIdentityEpoch uuid).Fresh := by
  unfold refreshIdentityEpoch
  split
  · rfl
  next hsame => exact not_not.1 hsame

theorem refreshIdentityEpoch_of_fresh (h : e.Fresh) (uuid : Bytes) :
    e.refreshIdentityEpoch uuid = e := by
  have hsame : ¬ e.terminal.identityEpoch ≠ e.identityEpoch := not_not.2 h
  rw [refreshIdentityEpoch, if_neg hsame]

theorem refreshIdentityEpoch_terminal (e : TerminalEngine) (uuid : Bytes) :
    (e.refreshIdentityEpoch uuid).terminal = e.terminal := by
  unfold refreshIdentityEpoch
  split <;> rfl

/-- What is kept in the cache is what an export would give. -/
def CacheValid (graphemeCount : String → Nat) (e : TerminalEngine) : Prop :=
  ∀ v, e.cachedViewport = some v → e.Fresh ∧ e.exportView graphemeCount true = .ok v

/-- Everything `semantic_viewport` can do. -/
inductive Views (graphemeCount : String → Nat) (e : TerminalEngine) (uuid : Bytes) :
    Except String State → TerminalEngine → Prop
  | cached (v : State) (hcached : e.cachedViewport = some v) : Views graphemeCount e uuid (.ok v) e
  | failed (error : String) (hempty : e.cachedViewport = none) :
      Views graphemeCount e uuid (.error error) (e.refreshIdentityEpoch uuid)
  | exported (v : State) (hempty : e.cachedViewport = none)
      (hexport : (e.refreshIdentityEpoch uuid).exportView graphemeCount true = .ok v) :
      Views graphemeCount e uuid (.ok v)
        { e.refreshIdentityEpoch uuid with cachedViewport := some v }

variable (graphemeCount) in
theorem semanticViewport_cases (e : TerminalEngine) (uuid : Bytes) :
    Views graphemeCount e uuid (e.semanticViewport graphemeCount uuid).1
      (e.semanticViewport graphemeCount uuid).2 := by
  simp only [semanticViewport, exportState]
  cases hcached : e.cachedViewport with
  | some v => exact .cached v hcached
  | none =>
    cases hexport : (e.refreshIdentityEpoch uuid).exportView graphemeCount true with
    | error error => exact .failed error hcached
    | ok v => exact .exported v hcached hexport

/-- The viewport that is returned, cached or not, is the export of the engine that is left. -/
theorem semanticViewport_ok (hvalid : e.CacheValid graphemeCount)
    (h : (e.semanticViewport graphemeCount uuid).1 = .ok v) :
    (e.semanticViewport graphemeCount uuid).2.Fresh ∧
      (e.semanticViewport graphemeCount uuid).2.exportView graphemeCount true = .ok v := by
  have hviews := semanticViewport_cases graphemeCount e uuid
  rw [h] at hviews
  revert hviews
  generalize (e.semanticViewport graphemeCount uuid).2 = after
  intro hviews
  cases hviews with
  | cached v hcached => exact hvalid v hcached
  | exported v hempty hexport => exact ⟨fresh_refreshIdentityEpoch e uuid, hexport⟩

/-- The cache stays valid in every call. -/
theorem CacheValid.call (h : e.CacheValid graphemeCount) (c : Call) :
    (e.call graphemeCount c).CacheValid graphemeCount := by
  -- A new epoch only comes when the cache is empty.
  have hrefresh : ∀ uuid, (e.refreshIdentityEpoch uuid).CacheValid graphemeCount := by
    intro uuid v hcached
    replace hcached : e.cachedViewport = some v := by
      unfold refreshIdentityEpoch at hcached
      split at hcached <;> exact hcached
    rw [refreshIdentityEpoch_of_fresh (h v hcached).1]
    exact h v hcached
  cases c with
  | advance terminal =>
    intro v hcached
    cases hcached
  | resize rows columns terminal =>
    intro v hcached
    simp only [TerminalEngine.call, resize] at hcached
    split at hcached <;> cases hcached
  | semanticState uuid => exact hrefresh uuid
  | semanticViewport uuid =>
    have hviews := semanticViewport_cases graphemeCount e uuid
    simp only [TerminalEngine.call]
    revert hviews
    generalize (e.semanticViewport graphemeCount uuid).1 = result
    generalize (e.semanticViewport graphemeCount uuid).2 = after
    intro hviews
    cases hviews with
    | cached v hcached => exact h
    | failed error hempty => exact hrefresh uuid
    | exported v hempty hexport =>
      intro v' hcached
      cases hcached
      exact ⟨fresh_refreshIdentityEpoch e uuid, hexport⟩
  | historyPage requestId request uuid =>
    simp only [TerminalEngine.call, historyPage]
    split
    · exact h
    · exact hrefresh uuid

theorem CacheValid.run (h : e.CacheValid graphemeCount) (calls : List Call) :
    (e.run graphemeCount calls).CacheValid graphemeCount := by
  induction calls generalizing e with
  | nil => exact h
  | cons c calls ih => exact ih (h.call c)

variable (graphemeCount) in
/-- A call that leaves the emulator alone changes nothing that an export looks at, once the epoch is
that of the view. -/
theorem Fresh.quiet_call (h : e.Fresh) {c : Call} (hquiet : c.quiet = true) :
    e.SameBasis (e.call graphemeCount c) := by
  cases c with
  | advance terminal => cases hquiet
  | resize rows columns terminal => cases hquiet
  | semanticState uuid =>
    simp only [TerminalEngine.call, semanticState, exportState, refreshIdentityEpoch_of_fresh h]
    exact .refl e
  | semanticViewport uuid =>
    simp only [TerminalEngine.call, semanticViewport, exportState, refreshIdentityEpoch_of_fresh h]
    cases e.cachedViewport with
    | some state => exact .refl e
    | none =>
      cases e.exportView graphemeCount true with
      | error error => exact .refl e
      | ok state => exact ⟨rfl, rfl, rfl, rfl, rfl⟩
  | historyPage requestId request uuid =>
    simp only [TerminalEngine.call, historyPage, refreshIdentityEpoch_of_fresh h]
    split <;> exact .refl e

variable (graphemeCount) in
theorem Fresh.quiet_run (h : e.Fresh) {calls : List Call} (hquiet : ∀ c ∈ calls, c.quiet = true) :
    e.SameBasis (e.run graphemeCount calls) := by
  induction calls generalizing e with
  | nil => exact .refl e
  | cons c calls ih =>
    have hcall := h.quiet_call graphemeCount (hquiet c List.mem_cons_self)
    exact hcall.trans (ih (hcall.fresh h) fun c' hc' => hquiet c' (List.mem_cons_of_mem _ hc'))

/-- In every run of an engine, if both exports succeed at one point, in either order and with other
exports in between, the viewport and the full state show the same. -/
theorem viewport_agrees_with_state (terminal : TerminalView) (historyLimits : HistoryLimits)
    (epoch : Bytes) (calls exports : List Call) (hquiet : ∀ c ∈ exports, c.quiet = true)
    (he : e = (new terminal historyLimits epoch).run graphemeCount calls) :
    ((e.semanticViewport graphemeCount uuid).1 = .ok v →
      (((e.semanticViewport graphemeCount uuid).2.run graphemeCount exports).semanticState
        graphemeCount uuid').1 = .ok s → SameShown v s) ∧
    ((e.semanticState graphemeCount uuid).1 = .ok s →
      (((e.semanticState graphemeCount uuid).2.run graphemeCount exports).semanticViewport
        graphemeCount uuid').1 = .ok v → SameShown v s) := by
  have hvalid : e.CacheValid graphemeCount := by
    rw [he]
    refine CacheValid.run (fun v hcached => ?_) calls
    cases hcached
  constructor
  · intro hv hs
    obtain ⟨hfresh, hexport⟩ := semanticViewport_ok hvalid hv
    have hbasis := hfresh.quiet_run graphemeCount hquiet
    rw [semanticState, exportState, refreshIdentityEpoch_of_fresh (hbasis.fresh hfresh)] at hs
    exact sameShown_of_exportView hexport ((hbasis.exportView false).symm.trans hs)
  · intro hs hv
    have hfresh : (e.semanticState graphemeCount uuid).2.Fresh := fresh_refreshIdentityEpoch e uuid
    have hbasis := hfresh.quiet_run graphemeCount hquiet
    have hvalid' : ((e.semanticState graphemeCount uuid).2.run graphemeCount exports).CacheValid
        graphemeCount := (hvalid.call (.semanticState uuid)).run exports
    obtain ⟨-, hexport⟩ := semanticViewport_ok hvalid' hv
    have hkept := (hbasis.fresh hfresh).quiet_call graphemeCount
      (c := .semanticViewport uuid') rfl
    have hboth := hbasis.trans hkept
    exact sameShown_of_exportView ((hboth.exportView true).symm.trans hexport) hs

/-- Both exports of the small terminal succeed; the italic style has the number one in the viewport
and the number two in the state. -/
theorem viewport_agrees_with_state_small : ∃ v s,
    (smallEngine.semanticViewport (fun _ => 1) []).1 = .ok v ∧
    ((smallEngine.semanticViewport (fun _ => 1) []).2.semanticState (fun _ => 1) []).1 = .ok s ∧
    v.styles.length = 1 ∧ s.styles.length = 2 ∧ SameShown v s := by
  have hv := eq_ok_okValue (smallEngine.semanticViewport (fun _ => 1) []).1 (by decide +kernel)
  have hs := eq_ok_okValue
    ((smallEngine.semanticViewport (fun _ => 1) []).2.semanticState (fun _ => 1) []).1
    (by decide +kernel)
  exact ⟨_, _, hv, hs, by decide +kernel, by decide +kernel,
    (viewport_agrees_with_state styledView ⟨100, 100⟩ (List.replicate 16 0) [] []
      (by simp) rfl).1 hv hs⟩

end TerminalEngine

end AstraShell.Engine
