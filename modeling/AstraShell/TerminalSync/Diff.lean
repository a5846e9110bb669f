import AstraShell.TerminalState.Accepted

/-!
# Row diffs between two terminal states

`terminal_state_diff` and `apply_terminal_state_diff` of `terminal_sync.rs`. A diff carries the
target without its rows and, for each target row, either the row or the anchor of an identical row
of the base.

The main result is `applyTerminalStateDiff_terminalStateDiff`: between valid states of one epoch
with an advancing generation the diff exists, and applying it to the base gives the target.

The ordered maps from anchors to rows are association lists: only insertion and lookup are used.
-/

set_option autoImplicit false

namespace AstraShell.TerminalSync

open Lib Lib.Wire TerminalState

/-! ## Messages -/

/-- Where a row of the target comes from. -/
inductive RowSource where
  | baseAnchor (anchor : Anchor)
  | replacement (row : Row)
  deriving DecidableEq

structure TerminalStateRow where
  source : Option RowSource
  deriving DecidableEq

structure TerminalStateDiff where
  epoch : Bytes
  baseGeneration : Nat
  targetGeneration : Nat
  targetMetadata : Option State
  primaryRows : List TerminalStateRow
  alternateRows : List TerminalStateRow
  deriving DecidableEq

/-- The generation a client has made current. -/
structure TerminalStateAck where
  epoch : Bytes
  generation : Nat
  deriving DecidableEq

/-- What became of an ACK that is not an error. -/
inductive AckDisposition where
  | accepted
  | duplicate

def RowSource.encodedLen : RowSource → Nat
  | .baseAnchor anchor => messageField 1 anchor.encodedLen
  | .replacement row => messageField 2 row.encodedLen

def TerminalStateRow.encodedLen (row : TerminalStateRow) : Nat :=
  match row.source with
  | none => 0
  | some source => source.encodedLen

def TerminalStateDiff.encodedLen (diff : TerminalStateDiff) : Nat :=
  bytesField 1 diff.epoch.length + uintField 2 diff.baseGeneration +
    uintField 3 diff.targetGeneration + optionField 4 State.encodedLen diff.targetMetadata +
    repeatedField 5 TerminalStateRow.encodedLen diff.primaryRows +
    repeatedField 6 TerminalStateRow.encodedLen diff.alternateRows

/-! ## Construction -/

/-- A screen without its rows. -/
def screenMetadata (screen : Screen) : Screen := { screen with includedRows := [] }

/-- A state without its rows. -/
def stateMetadata (state : State) : State :=
  { state with
    primary := state.primary.map screenMetadata
    alternate := state.alternate.map screenMetadata }

/-- Rows indexed by their anchors, which must be present and distinct. -/
def rowsByAnchorFrom (result : List (Anchor × Row)) :
    List Row → Except String (List (Anchor × Row))
  | [] => .ok result
  | row :: rows => do
    let anchor ← context row.start "terminal state row has no anchor"
    ensure (result.lookup anchor = none) "terminal state repeats a row anchor"
    rowsByAnchorFrom ((anchor, row) :: result) rows

def rowsByAnchor (rows : List Row) : Except String (List (Anchor × Row)) :=
  rowsByAnchorFrom [] rows

/-- The diff row of one target row. -/
def diffRow (baseRows : List (Anchor × Row)) (row : Row) : Except String TerminalStateRow := do
  let anchor ← context row.start "target row has no anchor"
  if baseRows.lookup anchor = some row then
    return ⟨some (.baseAnchor anchor)⟩
  else
    return ⟨some (.replacement row)⟩

/-- The closure mapped over the target rows; the first failure is the result. -/
def diffEachRow (baseRows : List (Anchor × Row)) :
    List Row → Except String (List TerminalStateRow)
  | [] => .ok []
  | row :: rows => do
    let first ← diffRow baseRows row
    let rest ← diffEachRow baseRows rows
    return first :: rest

def diffRows (base target : Screen) : Except String (List TerminalStateRow) := do
  let baseRows ← rowsByAnchor base.includedRows
  diffEachRow baseRows target.includedRows

section

variable (graphemeCount : String → Nat)

def terminalStateDiff (base target : State) : Except String TerminalStateDiff := do
  withContext "base terminal state is invalid" (validate graphemeCount base)
  withContext "target terminal state is invalid" (validate graphemeCount target)
  ensure (base.epoch = target.epoch) "terminal state diff crosses epochs"
  ensure (target.generation > base.generation)
    "terminal state diff target does not advance generation"
  let basePrimary ← context base.primary "base primary screen is missing"
  let baseAlternate ← context base.alternate "base alternate screen is missing"
  let targetPrimary ← context target.primary "target primary screen is missing"
  let targetAlternate ← context target.alternate "target alternate screen is missing"
  let primaryRows ← diffRows basePrimary targetPrimary
  let alternateRows ← diffRows baseAlternate targetAlternate
  return {
    epoch := target.epoch
    baseGeneration := base.generation
    targetGeneration := target.generation
    targetMetadata := some (stateMetadata target)
    primaryRows := primaryRows
    alternateRows := alternateRows }

end

/-! ## Application -/

/-- The row one diff row stands for. -/
def reconstructRow (baseRows : List (Anchor × Row)) (row : TerminalStateRow) :
    Except String Row := do
  let source ← context row.source "terminal state diff row source is missing"
  match source with
  | .baseAnchor anchor =>
    context (baseRows.lookup anchor) "terminal state diff references an unavailable base row"
  | .replacement row => return row

/-- The loop over the diff rows; `seen` holds the anchors met so far. -/
def applyEachRow (baseRows : List (Anchor × Row)) (seen : List Anchor) :
    List TerminalStateRow → Except String (List Row)
  | [] => .ok []
  | row :: rows => do
    let reconstructed ← reconstructRow baseRows row
    let anchor ← context reconstructed.start "terminal state diff row has no anchor"
    ensure (anchor ∉ seen) "terminal state diff repeats a row anchor"
    let rest ← applyEachRow baseRows (anchor :: seen) rows
    return reconstructed :: rest

def applyRows (base : Screen) (rows : List TerminalStateRow) : Except String (List Row) := do
  ensure (rows.length ≤ maxIncludedRows) "terminal state diff contains too many rows"
  let baseRows ← rowsByAnchor base.includedRows
  applyEachRow baseRows [] rows

/-- The metadata of a diff has both screens, without rows. -/
def hasNoRows (screen : Option Screen) : Prop := ∃ s, screen = some s ∧ s.includedRows = []

instance (screen : Option Screen) : Decidable (hasNoRows screen) :=
  match screen with
  | none => isFalse (by rintro ⟨s, hs, -⟩; cases hs)
  | some s => decidable_of_iff (s.includedRows = []) (by simp [hasNoRows])

def applyTerminalStateDiff (graphemeCount : String → Nat) (base : State)
    (diff : TerminalStateDiff) : Except String State := do
  withContext "base terminal state is invalid" (validate graphemeCount base)
  ensure (diff.epoch.length = epochBytes) "terminal state diff epoch is invalid"
  ensure (base.epoch = diff.epoch) "terminal state diff base epoch changed"
  ensure (base.generation = diff.baseGeneration)
    "terminal state diff base generation does not match"
  ensure (diff.targetGeneration > diff.baseGeneration)
    "terminal state diff target does not advance generation"
  let metadata ← context diff.targetMetadata "terminal state diff target metadata is missing"
  ensure (metadata.epoch = diff.epoch) "terminal state diff target epoch changed"
  ensure (metadata.generation = diff.targetGeneration)
    "terminal state diff target generation does not match metadata"
  ensure (hasNoRows metadata.primary ∧ hasNoRows metadata.alternate)
    "terminal state diff metadata contains full rows"
  let basePrimary ← context base.primary "base primary screen is missing"
  let primaryRows ← applyRows basePrimary diff.primaryRows
  let baseAlternate ← context base.alternate "base alternate screen is missing"
  let alternateRows ← applyRows baseAlternate diff.alternateRows
  let target : State :=
    { metadata with
      primary := metadata.primary.map fun s => { s with includedRows := primaryRows }
      alternate := metadata.alternate.map fun s => { s with includedRows := alternateRows } }
  withContext "reconstructed terminal state is invalid" (validate graphemeCount target)
  return target

/-! ## Round trip -/

/-- The first anchor of an ordered list is not that of a later row. -/
theorem anchorsOrdered_cons {row : Row} {rows : List Row} (h : AnchorsOrdered (row :: rows)) :
    ∃ a, row.start = some a ∧ AnchorsOrdered rows ∧ ∀ r ∈ rows, r.start ≠ some a := by
  obtain ⟨hsome, hpair⟩ := h
  obtain ⟨hrow, hrows⟩ := List.pairwise_cons.1 hpair
  obtain ⟨a, ha⟩ := hsome row List.mem_cons_self
  refine ⟨a, ha, ⟨fun r hr => hsome r (List.mem_cons_of_mem _ hr), hrows⟩, fun r hr hr' => ?_⟩
  obtain ⟨b, b', hb, hb', hlt⟩ := hrow r hr
  cases ha.symm.trans hb
  cases hr'.symm.trans hb'
  exact anchorLt_irrefl _ hlt

/-- The index of an ordered list of rows exists: no anchor of the list is in `result` yet. -/
theorem rowsByAnchorFrom_eq_ok {rows : List Row} (result : List (Anchor × Row))
    (hordered : AnchorsOrdered rows)
    (hfresh : ∀ r ∈ rows, ∀ a, r.start = some a → result.lookup a = none) :
    ∃ index, rowsByAnchorFrom result rows = .ok index := by
  induction rows generalizing result with
  | nil => exact ⟨result, rfl⟩
  | cons row rows ih =>
    obtain ⟨anchor, hanchor, hordered', hlater⟩ := anchorsOrdered_cons hordered
    obtain ⟨index, hindex⟩ := ih ((anchor, row) :: result) hordered' (by
      intro r hr a ha
      have hne : (a == anchor) = false := by
        rw [beq_eq_false_iff_ne]
        rintro rfl
        exact hlater r hr ha
      rw [List.lookup_cons, hne]
      exact hfresh r (List.mem_cons_of_mem _ hr) a ha)
    refine ⟨index, ?_⟩
    simp only [rowsByAnchorFrom, bind_eq_ok_iff, context_eq_ok_iff, ensure_eq_ok_iff]
    exact ⟨anchor, hanchor, ⟨⟩, hfresh row List.mem_cons_self anchor hanchor, hindex⟩

/-- A diff row stands for the row it was made from. -/
theorem reconstructRow_diffRow (baseRows : List (Anchor × Row)) {row : Row} {a : Anchor}
    (ha : row.start = some a) :
    ∃ diff, diffRow baseRows row = .ok diff ∧ reconstructRow baseRows diff = .ok row := by
  by_cases hbase : baseRows.lookup a = some row
  · refine ⟨⟨some (.baseAnchor a)⟩, ?_, ?_⟩
    · simp [diffRow, ha, context, hbase, bind, Except.bind, pure, Except.pure]
    · simp [reconstructRow, context, hbase, bind, Except.bind]
  · refine ⟨⟨some (.replacement row)⟩, ?_, ?_⟩
    · simp [diffRow, ha, context, hbase, bind, Except.bind, pure, Except.pure]
    · simp [reconstructRow, context, bind, Except.bind, pure, Except.pure]

/-- The loop form of the round trip: the anchors met so far are not those of later rows. -/
theorem applyEachRow_diffEachRow (baseRows : List (Anchor × Row)) {rows : List Row}
    (seen : List Anchor) (hordered : AnchorsOrdered rows)
    (hfresh : ∀ r ∈ rows, ∀ a, r.start = some a → a ∉ seen) :
    ∃ diff, diffEachRow baseRows rows = .ok diff ∧ diff.length = rows.length ∧
      applyEachRow baseRows seen diff = .ok rows := by
  induction rows generalizing seen with
  | nil => exact ⟨[], rfl, rfl, rfl⟩
  | cons row rows ih =>
    obtain ⟨anchor, hanchor, hordered', hlater⟩ := anchorsOrdered_cons hordered
    obtain ⟨first, hfirst, hback⟩ := reconstructRow_diffRow baseRows hanchor
    obtain ⟨rest, hrest, hlen, happly⟩ := ih (anchor :: seen) hordered' (by
      intro r hr a ha hmem
      rcases List.mem_cons.1 hmem with rfl | hmem
      · exact hlater r hr ha
      · exact hfresh r (List.mem_cons_of_mem _ hr) a ha hmem)
    refine ⟨first :: rest, ?_, by simp [hlen], ?_⟩
    · simp only [diffEachRow, bind_eq_ok_iff, pure_eq_ok_iff]
      exact ⟨first, hfirst, rest, hrest, rfl⟩
    · simp only [applyEachRow, bind_eq_ok_iff, context_eq_ok_iff, ensure_eq_ok_iff,
        pure_eq_ok_iff]
      exact ⟨row, hback, anchor, hanchor, ⟨⟩, hfresh row List.mem_cons_self anchor hanchor, rows,
        happly, rfl⟩

/-- Applying the diff of two ordered screens gives back the rows of the target. -/
theorem applyRows_diffRows {base target : Screen} (hbase : AnchorsOrdered base.includedRows)
    (htarget : AnchorsOrdered target.includedRows)
    (hlen : target.includedRows.length ≤ maxIncludedRows) :
    ∃ rows, diffRows base target = .ok rows ∧ applyRows base rows = .ok target.includedRows := by
  obtain ⟨index, hindex⟩ := rowsByAnchorFrom_eq_ok [] hbase fun _ _ _ _ => rfl
  obtain ⟨rows, hrows, hlength, happly⟩ :=
    applyEachRow_diffEachRow index [] htarget (by simp)
  refine ⟨rows, ?_, ?_⟩
  · simp only [diffRows, bind_eq_ok_iff]
    exact ⟨index, hindex, hrows⟩
  · simp only [applyRows, bind_eq_ok_iff, ensure_eq_ok_iff]
    exact ⟨⟨⟩, by omega, index, hindex, happly⟩

/-- Putting the rows back into a state's metadata gives the state. -/
theorem stateMetadata_restore {state : State} {primary alternate : Screen}
    (hp : state.primary = some primary) (ha : state.alternate = some alternate) :
    { stateMetadata state with
      primary := (stateMetadata state).primary.map
        fun s => { s with includedRows := primary.includedRows }
      alternate := (stateMetadata state).alternate.map
        fun s => { s with includedRows := alternate.includedRows } } = state := by
  cases state
  simp_all [stateMetadata, screenMetadata]

/-- Between valid states of one epoch with an advancing generation the diff exists, and applying it
to the base gives the target. -/
theorem applyTerminalStateDiff_terminalStateDiff {graphemeCount : String → Nat}
    {base target : State} (hbase : validate graphemeCount base = .ok ())
    (htarget : validate graphemeCount target = .ok ()) (hepoch : base.epoch = target.epoch)
    (hgen : base.generation < target.generation) :
    ∃ diff, terminalStateDiff graphemeCount base target = .ok diff ∧
      applyTerminalStateDiff graphemeCount base diff = .ok target := by
  have hacc := (validate_eq_ok_iff _ _).1 htarget
  obtain ⟨bp, ba, hbp, hba, -, hbpo, hbao⟩ :=
    ((validate_eq_ok_iff _ _).1 hbase).screens_ordered
  obtain ⟨tp, ta, htp, hta, hcount, htpo, htao⟩ := hacc.screens_ordered
  obtain ⟨prows, hprows, hpback⟩ := applyRows_diffRows hbpo htpo (by omega)
  obtain ⟨arows, harows, haback⟩ := applyRows_diffRows hbao htao (by omega)
  refine ⟨⟨target.epoch, base.generation, target.generation, some (stateMetadata target), prows,
    arows⟩, ?_, ?_⟩
  · simp only [terminalStateDiff, bind_eq_ok_iff, withContext_eq_ok_iff, ensure_eq_ok_iff,
      context_eq_ok_iff, pure_eq_ok_iff]
    exact ⟨⟨⟩, hbase, ⟨⟩, htarget, ⟨⟩, hepoch, ⟨⟩, hgen, bp, hbp, ba, hba, tp, htp, ta, hta, prows,
      hprows, arows, harows, rfl⟩
  · simp only [applyTerminalStateDiff, bind_eq_ok_iff, withContext_eq_ok_iff, ensure_eq_ok_iff,
      context_eq_ok_iff, pure_eq_ok_iff]
    refine ⟨⟨⟩, hbase, ⟨⟩, hacc.epoch, ⟨⟩, hepoch, ⟨⟩, trivial, ⟨⟩, hgen, stateMetadata target, rfl,
      ⟨⟩, rfl, ⟨⟩, rfl, ⟨⟩, ?_, bp, hbp, tp.includedRows, hpback, ba, hba, ta.includedRows, haback,
      ⟨⟩, ?_, stateMetadata_restore htp hta⟩
    · simp [stateMetadata, hasNoRows, screenMetadata, htp, hta]
    · rw [stateMetadata_restore htp hta]
      exact htarget

variable {graphemeCount : String → Nat} {base target : State}

/-- An applied diff leads to a newer valid state of the epoch. -/
theorem applyTerminalStateDiff_advances {diff : TerminalStateDiff}
    (h : applyTerminalStateDiff graphemeCount base diff = .ok target) :
    validate graphemeCount base = .ok () ∧ validate graphemeCount target = .ok () ∧
      base.epoch = target.epoch ∧ base.generation < target.generation := by
  simp only [applyTerminalStateDiff, bind_eq_ok_iff, withContext_eq_ok_iff, ensure_eq_ok_iff,
    context_eq_ok_iff, pure_eq_ok_iff] at h
  obtain ⟨⟨⟩, hbase, -, -, -, hepoch, -, hbaseGen, -, hnewer, metadata, -, -, hmeta, -, hgen, -, -,
    -, -, _, -, -, -, _, -, ⟨⟩, htarget, rfl⟩ := h
  exact ⟨hbase, htarget, hepoch.trans hmeta.symm, by simp only; omega⟩

/-- However many diffs led to a state, one diff leads there. -/
theorem foldlM_applyTerminalStateDiff_iff :
    (∃ diff diffs, (diff :: diffs).foldlM (applyTerminalStateDiff graphemeCount) base =
      .ok target) ↔
      ∃ diff, terminalStateDiff graphemeCount base target = .ok diff ∧
        applyTerminalStateDiff graphemeCount base diff = .ok target := by
  refine ⟨?_, fun ⟨diff, _, h⟩ => ⟨diff, [], by simpa using h⟩⟩
  rintro ⟨diff, diffs, h⟩
  induction diffs generalizing diff base with
  | nil =>
    obtain ⟨hbase, htarget, hepoch, hgen⟩ := applyTerminalStateDiff_advances (by simpa using h)
    exact applyTerminalStateDiff_terminalStateDiff hbase htarget hepoch hgen
  | cons next diffs ih =>
    obtain ⟨middle, hfirst, hrest⟩ := bind_eq_ok_iff.1 h
    obtain ⟨last, -, hlast⟩ := ih next hrest
    obtain ⟨hbase, -, hepoch, hgen⟩ := applyTerminalStateDiff_advances hfirst
    obtain ⟨-, htarget, hepoch', hgen'⟩ := applyTerminalStateDiff_advances hlast
    exact applyTerminalStateDiff_terminalStateDiff hbase htarget (hepoch.trans hepoch')
      (hgen.trans hgen')

end AstraShell.TerminalSync
