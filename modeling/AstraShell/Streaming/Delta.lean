import AstraShell.TerminalSync.Diff

/-!
# Viewport deltas

The unreliable half of `terminal_streaming.rs`: `compact_viewport_datagram` describes a target
viewport relative to a base that the receiver retains, `apply_compact_viewport_delta` rebuilds the
target from the base. A delta inherits unchanged tables and settings by bit mask and carries, for
each changed row, a splice of the cells of some row of the base.

The main result is `applyCompactViewportDelta_compactViewportDatagram`: between valid viewports of
one epoch and one geometry with an advancing generation the delta exists and applying it to the
base gives exactly the target.
-/

set_option autoImplicit false

namespace AstraShell.Streaming

open Lib Lib.Wire TerminalState TerminalSync

def inheritStyles : Nat := 1
def inheritHyperlinks : Nat := 2
def inheritModes : Nat := 4
def inheritTitle : Nat := 8
def inheritWorkingDirectory : Nat := 16
def inheritPalette : Nat := 32

def knownInheritMask : Nat :=
  inheritStyles ||| inheritHyperlinks ||| inheritModes ||| inheritTitle |||
    inheritWorkingDirectory ||| inheritPalette

/-! ## Messages -/

/-- A changed row: the cells of base row `baseIndex` with one splice. -/
structure TerminalViewportRowPatch where
  index : Nat
  baseIndex : Nat
  metadata : Option Row
  cellStart : Nat
  deleteCount : Nat
  cells : List Cell
  deriving DecidableEq

/-- One fragment of a version 3 transfer. -/
structure TerminalViewportFragment where
  epoch : Bytes
  baseGeneration : Nat
  targetGeneration : Nat
  transferId : Bytes
  index : Nat
  count : Nat
  totalEncoded : Nat
  rawLength : Nat
  encoding : Int
  sha256 : Bytes
  data : Bytes
  deriving DecidableEq

structure TerminalViewportDatagram where
  terminalId : String
  attachmentId : String
  diff : Option TerminalStateDiff
  inheritedFields : Nat
  sparseRows : Bool
  primaryPatches : List TerminalViewportRowPatch
  alternatePatches : List TerminalViewportRowPatch
  fragment : Option TerminalViewportFragment
  deriving DecidableEq

def TerminalViewportRowPatch.encodedLen (p : TerminalViewportRowPatch) : Nat :=
  uintField 1 p.index + uintField 2 p.baseIndex + optionField 3 Row.encodedLen p.metadata +
    uintField 4 p.cellStart + uintField 5 p.deleteCount + repeatedField 6 Cell.encodedLen p.cells

def TerminalViewportFragment.encodedLen (f : TerminalViewportFragment) : Nat :=
  bytesField 1 f.epoch.length + uintField 2 f.baseGeneration + uintField 3 f.targetGeneration +
    bytesField 4 f.transferId.length + uintField 5 f.index + uintField 6 f.count +
    uintField 7 f.totalEncoded + uintField 8 f.rawLength + int32Field 9 f.encoding +
    bytesField 10 f.sha256.length + bytesField 11 f.data.length

def TerminalViewportDatagram.encodedLen (d : TerminalViewportDatagram) : Nat :=
  stringField 1 d.terminalId + stringField 2 d.attachmentId +
    optionField 3 TerminalStateDiff.encodedLen d.diff + uintField 4 d.inheritedFields +
    boolField 5 d.sparseRows + repeatedField 6 TerminalViewportRowPatch.encodedLen
      d.primaryPatches +
    repeatedField 7 TerminalViewportRowPatch.encodedLen d.alternatePatches +
    optionField 8 TerminalViewportFragment.encodedLen d.fragment

/-- The semantic diff of a datagram. -/
def TerminalViewportDatagram.getDiff (d : TerminalViewportDatagram) :
    Except String TerminalStateDiff :=
  context d.diff "terminal viewport delta has no semantic diff"

/-! ## Viewport states -/

/-- A screen that holds exactly one viewport. -/
def isOneViewport (screen : Screen) (rows : Nat) : Prop :=
  screen.viewportStart = 0 ∧ screen.includedRows.length = rows

instance (screen : Screen) (rows : Nat) : Decidable (isOneViewport screen rows) :=
  inferInstanceAs (Decidable (_ ∧ _))

def validateViewportState (graphemeCount : String → Nat) (state : State) : Except String Unit := do
  withContext "terminal viewport state is invalid" (validate graphemeCount state)
  let primary ← context state.primary "primary screen is missing"
  let alternate ← context state.alternate "alternate screen is missing"
  ensure (isOneViewport primary state.rows) "primary live state contains scrollback"
  ensure (isOneViewport alternate state.rows) "alternate live state is not exactly one viewport"

/-! ## Construction -/

/-- The number of equal leading cells. -/
def commonPrefix (xs ys : List Cell) : Nat :=
  ((xs.zip ys).takeWhile fun p => p.1 = p.2).length

/-- The last row of the base with each anchor. -/
def anchorIndexes (base : List Row) : List (Anchor × Nat) :=
  (base.zipIdx.filterMap fun p => p.1.start.map fun anchor => (anchor, p.2)).reverse

/-- The patch that turns the cells of `old`, row `baseIndex` of the base, into those of `row`. Each
number is cast to a `u32`. -/
def splicePatch (index baseIndex : Nat) (old row : Row) : TerminalViewportRowPatch :=
  let shared := commonPrefix old.cells row.cells
  let suffix := commonPrefix (old.cells.drop shared).reverse (row.cells.drop shared).reverse
  { index := index % 2 ^ 32
    baseIndex := baseIndex % 2 ^ 32
    metadata := some { row with cells := [] }
    cellStart := shared % 2 ^ 32
    deleteCount := (old.cells.length - shared - suffix) % 2 ^ 32
    cells := (row.cells.take (row.cells.length - suffix)).drop shared }

/-- The patch of one target row; an unchanged row has none. -/
def rowPatch (base : List Row) (index : Nat) (row : Row) :
    Except String (Option TerminalViewportRowPatch) :=
  if base[index]? = some row then .ok none
  else do
    let baseIndex :=
      (row.start.bind fun anchor => (anchorIndexes base).lookup anchor).getD index
    let old ← context base[baseIndex]? "index out of bounds"
    return some (splicePatch index baseIndex old row)

/-- The loop over the target rows from `index` on. -/
def rowPatchesFrom (base : List Row) :
    Nat → List Row → Except String (List TerminalViewportRowPatch)
  | _, [] => .ok []
  | index, row :: rows => do
    let patch ← rowPatch base index row
    let patches ← rowPatchesFrom base (index + 1) rows
    return patch.toList ++ patches

def sparseRowPatches (base target : List Row) :
    Except String (List TerminalViewportRowPatch) := do
  ensure (base.length = target.length) "viewport geometry changed without keyframe"
  rowPatchesFrom base 0 target

/-- The bits of the inherited fields. -/
def inheritedMask (styles hyperlinks modes title workingDirectory palette : Bool) : Nat :=
  (if styles then inheritStyles else 0) ||| (if hyperlinks then inheritHyperlinks else 0) |||
    (if modes then inheritModes else 0) ||| (if title then inheritTitle else 0) |||
    (if workingDirectory then inheritWorkingDirectory else 0) |||
    (if palette then inheritPalette else 0)

/-- The target without its rows; a field equal to the base's is cleared. -/
def compactMetadata (base target : State) : State :=
  let metadata := stateMetadata target
  { metadata with
    styles := if metadata.styles = base.styles then [] else metadata.styles
    hyperlinks := if metadata.hyperlinks = base.hyperlinks then [] else metadata.hyperlinks
    modes := if metadata.modes = base.modes then none else metadata.modes
    title := if metadata.title = base.title then "" else metadata.title
    workingDirectory :=
      if metadata.workingDirectory = base.workingDirectory then "" else metadata.workingDirectory
    palette := if metadata.palette = base.palette then none else metadata.palette }

/-- The bits of the cleared fields. -/
def compactInherited (base target : State) : Nat :=
  let metadata := stateMetadata target
  inheritedMask (metadata.styles = base.styles) (metadata.hyperlinks = base.hyperlinks)
    (metadata.modes = base.modes) (metadata.title = base.title)
    (metadata.workingDirectory = base.workingDirectory) (metadata.palette = base.palette)

/-- The datagram with the given row patches. -/
def compactDatagram (terminalId attachmentId : String) (base target : State)
    (primaryPatches alternatePatches : List TerminalViewportRowPatch) :
    TerminalViewportDatagram where
  terminalId := terminalId
  attachmentId := attachmentId
  diff := some {
    epoch := target.epoch
    baseGeneration := base.generation
    targetGeneration := target.generation
    targetMetadata := some (compactMetadata base target)
    primaryRows := []
    alternateRows := [] }
  inheritedFields := compactInherited base target
  sparseRows := true
  primaryPatches := primaryPatches
  alternatePatches := alternatePatches
  fragment := none

def compactViewportDatagram (terminalId attachmentId : String) (base target : State) :
    Except String TerminalViewportDatagram := do
  ensure (terminalId ≠ "" ∧ attachmentId ≠ "") "terminal viewport datagram route is empty"
  ensure (base.epoch = target.epoch ∧ target.generation > base.generation)
    "invalid cumulative viewport generation"
  let basePrimary ← context base.primary "missing primary"
  let targetPrimary ← context target.primary "missing primary"
  let primaryPatches ← sparseRowPatches basePrimary.includedRows targetPrimary.includedRows
  let baseAlternate ← context base.alternate "missing alternate"
  let targetAlternate ← context target.alternate "missing alternate"
  let alternatePatches ← sparseRowPatches baseAlternate.includedRows targetAlternate.includedRows
  return compactDatagram terminalId attachmentId base target primaryPatches alternatePatches

/-! ## Application -/

/-- The row a patch describes. -/
def patchedRow (base : List Row) (patch : TerminalViewportRowPatch) : Except String Row := do
  let old ← context base[patch.baseIndex]? "invalid viewport base row index"
  let cellEnd ← context (checkedAdd 64 patch.cellStart patch.deleteCount) "cell splice overflow"
  ensure (cellEnd ≤ old.cells.length) "cell splice exceeds base row"
  let row ← context patch.metadata "viewport row metadata missing"
  ensure (row.cells = []) "viewport row metadata contains cells"
  return { row with
    cells := old.cells.take patch.cellStart ++ patch.cells ++ old.cells.drop cellEnd }

/-- The loop over the patches; `seen` holds the row indexes met so far. -/
def applyPatches (base : List Row) (seen : List Nat) (target : List Row) :
    List TerminalViewportRowPatch → Except String (List Row)
  | [] => .ok target
  | patch :: patches => do
    ensure (patch.index < base.length ∧ patch.index ∉ seen)
      "invalid or duplicate viewport row index"
    let row ← patchedRow base patch
    applyPatches base (patch.index :: seen) (target.set patch.index row) patches

def applySparseRows (base : List Row) (patches : List TerminalViewportRowPatch) :
    Except String (List Row) := do
  ensure (patches.length ≤ base.length) "too many viewport row patches"
  applyPatches base [] base patches

/-- A field whose bit is set is taken from the base and must not be encoded as well. -/
def inheritField {α : Type} [DecidableEq α] (inherited bit : Nat) (cleared encoded base : α)
    (msg : String) : Except String α :=
  if inherited &&& bit ≠ 0 then do
    ensure (encoded = cleared) msg
    return base
  else return encoded

/-- The metadata of a delta with its inherited fields filled in. -/
def inheritFields (base : State) (inherited : Nat) (metadata : State) : Except String State := do
  let styles ← inheritField inherited inheritStyles [] metadata.styles base.styles
    "inherited styles are also encoded"
  let hyperlinks ← inheritField inherited inheritHyperlinks [] metadata.hyperlinks base.hyperlinks
    "inherited hyperlinks are also encoded"
  let modes ← inheritField inherited inheritModes none metadata.modes base.modes
    "inherited modes are also encoded"
  let title ← inheritField inherited inheritTitle "" metadata.title base.title
    "inherited title is also encoded"
  let workingDirectory ← inheritField inherited inheritWorkingDirectory ""
    metadata.workingDirectory base.workingDirectory
    "inherited working directory is also encoded"
  let palette ← inheritField inherited inheritPalette none metadata.palette base.palette
    "inherited palette is also encoded"
  return { metadata with
    styles := styles
    hyperlinks := hyperlinks
    modes := modes
    title := title
    workingDirectory := workingDirectory
    palette := palette }

/-- One screen of a sparse delta. -/
def applySparseScreen (screen original : Option Screen)
    (patches : List TerminalViewportRowPatch) : Except String Screen := do
  let screen ← context screen "missing viewport screen"
  ensure (screen.includedRows = []) "viewport metadata contains rows"
  let original ← context original "missing base screen"
  let rows ← applySparseRows original.includedRows patches
  return { screen with includedRows := rows }

def applyCompactViewportDelta (graphemeCount : String → Nat) (base : State)
    (delta : TerminalViewportDatagram) : Except String State := do
  -- The complement of `knownInheritMask` as a `u32`.
  ensure (delta.inheritedFields &&& (2 ^ 32 - 1 - knownInheritMask) = 0)
    "terminal viewport delta has unknown inherited fields"
  let diff ← delta.getDiff
  let metadata ← context diff.targetMetadata "terminal viewport delta target metadata is missing"
  let metadata ← inheritFields base delta.inheritedFields metadata
  if delta.sparseRows = false then do
    ensure (delta.primaryPatches = [] ∧ delta.alternatePatches = [])
      "sparse patches without encoding flag"
    applyTerminalStateDiff graphemeCount base { diff with targetMetadata := some metadata }
  else do
    ensure (diff.primaryRows = [] ∧ diff.alternateRows = []) "mixed row encodings"
    ensure (base.epoch = diff.epoch ∧ base.generation = diff.baseGeneration ∧
      diff.targetGeneration > diff.baseGeneration) "invalid viewport diff base"
    ensure (metadata.epoch = diff.epoch ∧ metadata.generation = diff.targetGeneration ∧
      metadata.rows = base.rows ∧ metadata.cols = base.cols) "invalid viewport diff metadata"
    let primary ← applySparseScreen metadata.primary base.primary delta.primaryPatches
    let alternate ← applySparseScreen metadata.alternate base.alternate delta.alternatePatches
    let target : State := { metadata with primary := some primary, alternate := some alternate }
    validateViewportState graphemeCount target
    return target

/-! ## Splices -/

variable (xs ys : List Cell)

theorem commonPrefix_le : commonPrefix xs ys ≤ xs.length ∧ commonPrefix xs ys ≤ ys.length := by
  have h := (List.takeWhile_sublist (l := xs.zip ys) fun p => decide (p.1 = p.2)).length_le
  rw [List.length_zip] at h
  unfold commonPrefix
  omega

theorem take_commonPrefix : xs.take (commonPrefix xs ys) = ys.take (commonPrefix xs ys) := by
  induction xs generalizing ys with
  | nil => simp [commonPrefix]
  | cons x xs ih =>
    cases ys with
    | nil => simp [commonPrefix]
    | cons y ys =>
      by_cases hxy : x = y
      · have hsucc : commonPrefix (x :: xs) (y :: ys) = commonPrefix xs ys + 1 := by
          simp [commonPrefix, hxy]
        rw [hsucc, List.take_succ_cons, List.take_succ_cons, ih ys, hxy]
      · have hzero : commonPrefix (x :: xs) (y :: ys) = 0 := by
          simp [commonPrefix, hxy]
        rw [hzero, List.take_zero, List.take_zero]

/-- Replacing the middle of the old cells, between the shared beginning and the shared end, gives
the new cells. -/
theorem splice_eq (old new : List Cell) :
    let shared := commonPrefix old new
    let suffix := commonPrefix (old.drop shared).reverse (new.drop shared).reverse
    old.take shared ++ (new.take (new.length - suffix)).drop shared ++
      old.drop (shared + (old.length - shared - suffix)) = new := by
  intro shared suffix
  have hshared := take_commonPrefix old new
  have hsuffix := take_commonPrefix (old.drop shared).reverse (new.drop shared).reverse
  rw [List.take_reverse, List.take_reverse, List.reverse_inj] at hsuffix
  have hle := commonPrefix_le old new
  have hle' := commonPrefix_le (old.drop shared).reverse (new.drop shared).reverse
  rw [List.drop_drop, List.drop_drop, List.length_drop, List.length_drop] at hsuffix
  rw [List.length_reverse, List.length_reverse, List.length_drop, List.length_drop] at hle'
  change shared ≤ _ ∧ shared ≤ _ at hle
  change suffix ≤ _ ∧ suffix ≤ _ at hle'
  have hend : old.drop (shared + (old.length - shared - suffix)) =
      new.drop (new.length - suffix) := by
    rw [hsuffix]
    congr 1
    change shared + (new.length - shared - suffix) = _
    omega
  have hbegin : old.take shared = (new.take (new.length - suffix)).take shared := by
    rw [hshared, List.take_take]
    congr 1
    change shared = _
    omega
  rw [hbegin, hend, List.take_append_drop, List.take_append_drop]

/-! ## Rows -/

/-- Row and cell positions of the list fit in a `u32`. -/
def FitsU32 (rows : List Row) : Prop :=
  rows.length < 2 ^ 32 ∧ ∀ r ∈ rows, r.cells.length < 2 ^ 32

variable {base : List Row}

variable {graphemeCount : String → Nat}

theorem lookup_anchorIndexes_lt {a : Anchor} {i : Nat}
    (h : (anchorIndexes base).lookup a = some i) : i < base.length := by
  have hmem : (a, i) ∈ anchorIndexes base := by
    obtain ⟨l, r, hl, -⟩ := List.lookup_eq_some_iff.1 h
    rw [hl]
    simp
  simp only [anchorIndexes, List.mem_reverse, List.mem_filterMap, Option.map_eq_some_iff] at hmem
  obtain ⟨⟨row, j⟩, hrow, anchor, -, hpair⟩ := hmem
  cases hpair
  exact (List.mem_zipIdx' hrow).1

/-- A splice patch describes the row it was made for. -/
theorem patchedRow_splicePatch {index baseIndex : Nat} {old row : Row}
    (hfits : FitsU32 base) (hold : base[baseIndex]? = some old) :
    patchedRow base (splicePatch index baseIndex old row) = .ok row := by
  obtain ⟨hlen, hcells⟩ := hfits
  obtain ⟨hlt, -⟩ := List.getElem?_eq_some_iff.1 hold
  have hsize := hcells old (List.mem_of_getElem? hold)
  have hle := commonPrefix_le old.cells row.cells
  have hstart : commonPrefix old.cells row.cells % 2 ^ 32 = commonPrefix old.cells row.cells :=
    Nat.mod_eq_of_lt (by omega)
  have hcount (k : Nat) : (old.cells.length - commonPrefix old.cells row.cells - k) % 2 ^ 32 =
      old.cells.length - commonPrefix old.cells row.cells - k := Nat.mod_eq_of_lt (by omega)
  simp only [patchedRow, splicePatch, bind_eq_ok_iff, context_eq_ok_iff, checkedAdd_eq_some_iff,
    ensure_eq_ok_iff, pure_eq_ok_iff, hstart, hcount]
  refine ⟨old, ?_, _, ⟨?_, rfl⟩, ⟨⟩, ?_, _, rfl, ⟨⟩, rfl, ?_⟩
  · rw [Nat.mod_eq_of_lt (by omega), hold]
  · omega
  · omega
  · rw [splice_eq]

/-- A changed row has a patch, and the patch describes the row. -/
theorem patchedRow_rowPatch {index : Nat} {row : Row} (hfits : FitsU32 base)
    (hindex : index < base.length) (hne : base[index]? ≠ some row) :
    ∃ patch, rowPatch base index row = .ok (some patch) ∧ patch.index = index ∧
      patchedRow base patch = .ok row := by
  obtain ⟨baseIndex, hbaseIndex⟩ : ∃ i,
      (row.start.bind fun anchor => (anchorIndexes base).lookup anchor).getD index = i := ⟨_, rfl⟩
  have hlt : baseIndex < base.length := by
    cases hlookup : row.start.bind fun anchor => (anchorIndexes base).lookup anchor with
    | none =>
      rw [hlookup] at hbaseIndex
      exact hbaseIndex ▸ hindex
    | some i =>
      rw [hlookup] at hbaseIndex
      obtain ⟨anchor, -, hanchor⟩ := Option.bind_eq_some_iff.1 hlookup
      exact hbaseIndex ▸ lookup_anchorIndexes_lt hanchor
  have hget : base[baseIndex]? = some base[baseIndex] := List.getElem?_eq_getElem hlt
  refine ⟨splicePatch index baseIndex base[baseIndex] row, ?_, ?_,
    patchedRow_splicePatch hfits hget⟩
  · rw [rowPatch, if_neg hne]
    simp only [hbaseIndex, bind_eq_ok_iff, context_eq_ok_iff, pure_eq_ok_iff]
    exact ⟨_, hget, rfl⟩
  · exact Nat.mod_eq_of_lt (hindex.trans hfits.1)

/-- The loop form of the row round trip. The rows before `index` are done; those from `index` on
are still the rows of the base. -/
theorem applyPatches_rowPatchesFrom (hfits : FitsU32 base) (rows : List Row)
    (index : Nat) (seen : List Nat) (current : List Row)
    (hlen : index + rows.length = base.length) (hcurrent : current.length = base.length)
    (hrest : current.drop index = base.drop index) (hseen : ∀ i ∈ seen, i < index) :
    ∃ patches, rowPatchesFrom base index rows = .ok patches ∧ patches.length ≤ rows.length ∧
      applyPatches base seen current patches = .ok (current.take index ++ rows) := by
  induction rows generalizing index seen current with
  | nil =>
    refine ⟨[], rfl, le_rfl, ?_⟩
    rw [applyPatches, List.take_of_length_le (by simp at hlen; omega), List.append_nil]
  | cons row rows ih =>
    rw [List.length_cons] at hlen
    have hindex : index < base.length := by omega
    by_cases hsame : base[index]? = some row
    · -- An unchanged row has no patch and is already in place.
      have hat : current[index]? = some row := by
        have h := congrArg (·[0]?) hrest
        simpa [List.getElem?_drop, hsame] using h
      obtain ⟨patches, hpatches, hle, happly⟩ :=
        ih (index + 1) seen current (by omega) hcurrent
          (by rw [← List.drop_drop, ← List.drop_drop, hrest])
          (fun i hi => Nat.lt_succ_of_lt (hseen i hi))
      refine ⟨patches, ?_, by simp only [List.length_cons]; omega, ?_⟩
      · simp only [rowPatchesFrom, rowPatch, hsame, if_true, bind_eq_ok_iff, pure_eq_ok_iff]
        exact ⟨none, rfl, patches, hpatches, rfl⟩
      · rw [happly, List.take_add_one, hat]
        simp
    · obtain ⟨patch, hpatch, hpindex, hrow⟩ := patchedRow_rowPatch hfits hindex hsame
      obtain ⟨patches, hpatches, hle, happly⟩ :=
        ih (index + 1) (index :: seen) (current.set index row)
          (by omega) (by rw [List.length_set, hcurrent])
          (by
            rw [List.drop_set_of_lt (by omega), ← List.drop_drop, ← List.drop_drop, hrest])
          (by
            intro i hi
            rcases List.mem_cons.1 hi with rfl | hi
            · exact Nat.lt_succ_self _
            · exact Nat.lt_succ_of_lt (hseen i hi))
      refine ⟨patch :: patches, ?_, by simp only [List.length_cons]; omega, ?_⟩
      · simp only [rowPatchesFrom, bind_eq_ok_iff, pure_eq_ok_iff]
        exact ⟨some patch, hpatch, patches, hpatches, rfl⟩
      · have hfresh : index ∉ seen := fun h => lt_irrefl _ (hseen index h)
        simp only [applyPatches, hpindex, bind_eq_ok_iff, ensure_eq_ok_iff]
        refine ⟨⟨⟩, ⟨hindex, hfresh⟩, row, hrow, ?_⟩
        rw [happly, List.take_add_one, List.take_set_of_le (le_refl index),
          List.getElem?_set_self (by omega)]
        simp

/-- Applying the patches between two row lists of one length gives the target rows. -/
theorem applySparseRows_sparseRowPatches (hfits : FitsU32 base)
    (target : List Row) (hlen : base.length = target.length) :
    ∃ patches, sparseRowPatches base target = .ok patches ∧
      applySparseRows base patches = .ok target := by
  obtain ⟨patches, hpatches, hle, happly⟩ :=
    applyPatches_rowPatchesFrom hfits target 0 [] base (by omega) rfl rfl (by simp)
  refine ⟨patches, ?_, ?_⟩
  · simp only [sparseRowPatches, bind_eq_ok_iff, ensure_eq_ok_iff]
    exact ⟨⟨⟩, hlen, hpatches⟩
  · simp only [applySparseRows, bind_eq_ok_iff, ensure_eq_ok_iff]
    exact ⟨⟨⟩, by omega, by simpa using happly⟩

/-! ## States -/

theorem inheritedMask_known : ∀ s h m t w p : Bool,
    inheritedMask s h m t w p &&& (2 ^ 32 - 1 - knownInheritMask) = 0 := by
  decide

theorem inheritedMask_bit : ∀ s h m t w p : Bool,
    (inheritedMask s h m t w p &&& inheritStyles ≠ 0 ↔ s = true) ∧
    (inheritedMask s h m t w p &&& inheritHyperlinks ≠ 0 ↔ h = true) ∧
    (inheritedMask s h m t w p &&& inheritModes ≠ 0 ↔ m = true) ∧
    (inheritedMask s h m t w p &&& inheritTitle ≠ 0 ↔ t = true) ∧
    (inheritedMask s h m t w p &&& inheritWorkingDirectory ≠ 0 ↔ w = true) ∧
    (inheritedMask s h m t w p &&& inheritPalette ≠ 0 ↔ p = true) := by
  decide

/-- A field that was cleared because it equals the base's is restored. -/
theorem inheritField_eq_ok {α : Type} [DecidableEq α] {inherited bit : Nat} {cleared field base : α}
    (hbit : inherited &&& bit ≠ 0 ↔ decide (field = base) = true) (msg : String) :
    inheritField inherited bit cleared (if field = base then cleared else field) base msg
      = .ok field := by
  rw [decide_eq_true_iff] at hbit
  by_cases heq : field = base
  · rw [inheritField, if_pos (hbit.2 heq), if_pos heq]
    simp [heq, ensure, bind, Except.bind, pure, Except.pure]
  · rw [inheritField, if_neg (fun h => heq (hbit.1 h)), if_neg heq]
    rfl

/-- What an accepted viewport state satisfies. -/
theorem validateViewportState_eq_ok_iff (graphemeCount : String → Nat) (state : State) :
    validateViewportState graphemeCount state = .ok () ↔
      validate graphemeCount state = .ok () ∧
      ∃ primary alternate, state.primary = some primary ∧ state.alternate = some alternate ∧
        isOneViewport primary state.rows ∧ isOneViewport alternate state.rows := by
  simp only [validateViewportState, bind_eq_ok_iff, withContext_eq_ok_iff, context_eq_ok_iff,
    ensure_eq_ok_iff]
  constructor
  · rintro ⟨⟨⟩, hvalid, primary, hp, alternate, ha, -, h1, h2⟩
    exact ⟨hvalid, primary, alternate, hp, ha, h1, h2⟩
  · rintro ⟨hvalid, primary, alternate, hp, ha, h1, h2⟩
    exact ⟨⟨⟩, hvalid, primary, hp, alternate, ha, ⟨⟩, h1, h2⟩

theorem fitsU32_of_accepted {screen : Screen} {alternate : Bool}
    {state : State} {styleIds hyperlinkIds : List Nat} {n m : Nat}
    (h : ScreenAccepted graphemeCount screen alternate state styleIds hyperlinkIds n m)
    (hlen : screen.includedRows.length ≤ maxIncludedRows) : FitsU32 screen.includedRows := by
  refine ⟨hlen.trans_lt (by decide), fun r hr => ?_⟩
  exact (validateRowsFrom_cells_le h.rows r hr).trans_lt (by decide)

/-- Positions in the screens of an accepted state fit in a `u32`. -/
theorem fitsU32_of_validate {state : State}
    (h : validate graphemeCount state = .ok ()) {primary alternate : Screen}
    (hp : state.primary = some primary) (ha : state.alternate = some alternate) :
    FitsU32 primary.includedRows ∧ FitsU32 alternate.includedRows := by
  obtain ⟨_, _, p, a, n, m, -, hp', ha', hcount, hprimary, halternate, -⟩ :=
    ((validate_eq_ok_iff _ _).1 h).screens
  rw [hp] at hp'
  rw [ha] at ha'
  cases hp'
  cases ha'
  exact ⟨fitsU32_of_accepted hprimary (by omega), fitsU32_of_accepted halternate (by omega)⟩

/-- Filling in the inherited fields undoes the clearing. -/
theorem inheritFields_compactMetadata (base target : State) :
    inheritFields base (compactInherited base target) (compactMetadata base target)
      = .ok (stateMetadata target) := by
  obtain ⟨h1, h2, h3, h4, h5, h6⟩ := inheritedMask_bit
    ((stateMetadata target).styles = base.styles)
    ((stateMetadata target).hyperlinks = base.hyperlinks)
    ((stateMetadata target).modes = base.modes) ((stateMetadata target).title = base.title)
    ((stateMetadata target).workingDirectory = base.workingDirectory)
    ((stateMetadata target).palette = base.palette)
  simp only [inheritFields, compactMetadata, compactInherited, inheritField_eq_ok h1,
    inheritField_eq_ok h2, inheritField_eq_ok h3, inheritField_eq_ok h4, inheritField_eq_ok h5,
    inheritField_eq_ok h6, bind_eq_ok_iff, pure_eq_ok_iff]
  exact ⟨_, rfl, _, rfl, _, rfl, _, rfl, _, rfl, _, rfl, rfl⟩

/-- A screen of a delta is rebuilt from the base's screen. -/
theorem applySparseScreen_eq_ok {base target : Screen} {patches : List TerminalViewportRowPatch}
    (h : applySparseRows base.includedRows patches = .ok target.includedRows) :
    applySparseScreen (some (screenMetadata target)) (some base) patches = .ok target := by
  simp only [applySparseScreen, bind_eq_ok_iff, ensure_eq_ok_iff, context_eq_ok_iff,
    pure_eq_ok_iff]
  exact ⟨_, rfl, ⟨⟩, rfl, _, rfl, _, h, rfl⟩

/-- What the datagram of two states says, whatever the states are. -/
theorem compactViewportDatagram_eq_ok {terminalId attachmentId : String} {base target : State}
    {delta : TerminalViewportDatagram}
    (h : compactViewportDatagram terminalId attachmentId base target = .ok delta) :
    base.epoch = target.epoch ∧ base.generation < target.generation ∧
      ∃ primaryPatches alternatePatches, delta =
        compactDatagram terminalId attachmentId base target primaryPatches alternatePatches := by
  simp only [compactViewportDatagram, bind_eq_ok_iff, ensure_eq_ok_iff, context_eq_ok_iff,
    pure_eq_ok_iff] at h
  obtain ⟨-, -, -, ⟨hepoch, hgen⟩, -, -, -, -, pp, -, -, -, -, -, ap, -, rfl⟩ := h
  exact ⟨hepoch, hgen, pp, ap, rfl⟩

/-- Between valid viewports of one epoch and one geometry with an advancing generation, the delta
exists, and applying it to the base gives exactly the target. -/
theorem applyCompactViewportDelta_compactViewportDatagram
    {terminalId attachmentId : String} {base target : State}
    (hroute : terminalId ≠ "" ∧ attachmentId ≠ "")
    (hbase : validateViewportState graphemeCount base = .ok ())
    (htarget : validateViewportState graphemeCount target = .ok ())
    (hepoch : base.epoch = target.epoch) (hrows : target.rows = base.rows)
    (hcols : target.cols = base.cols) (hgen : base.generation < target.generation) :
    ∃ delta, compactViewportDatagram terminalId attachmentId base target = .ok delta ∧
      applyCompactViewportDelta graphemeCount base delta = .ok target := by
  obtain ⟨hvalid, bp, ba, hbp, hba, hbp1, hba1⟩ := (validateViewportState_eq_ok_iff _ _).1 hbase
  obtain ⟨-, tp, ta, htp, hta, htp1, hta1⟩ := (validateViewportState_eq_ok_iff _ _).1 htarget
  obtain ⟨hfp, hfa⟩ := fitsU32_of_validate hvalid hbp hba
  obtain ⟨pp, hpp, hpback⟩ := applySparseRows_sparseRowPatches hfp tp.includedRows
    (by rw [hbp1.2, htp1.2, hrows])
  obtain ⟨ap, hap, haback⟩ := applySparseRows_sparseRowPatches hfa ta.includedRows
    (by rw [hba1.2, hta1.2, hrows])
  have htp' : (stateMetadata target).primary = some (screenMetadata tp) := by
    simp [stateMetadata, htp]
  have hta' : (stateMetadata target).alternate = some (screenMetadata ta) := by
    simp [stateMetadata, hta]
  have hrestore : { stateMetadata target with primary := some tp, alternate := some ta } =
      target := by
    rw [← htp, ← hta]
    rfl
  refine ⟨compactDatagram terminalId attachmentId base target pp ap, ?_, ?_⟩
  · simp only [compactViewportDatagram, bind_eq_ok_iff, ensure_eq_ok_iff, context_eq_ok_iff,
      pure_eq_ok_iff]
    exact ⟨⟨⟩, hroute, ⟨⟩, ⟨hepoch, hgen⟩, bp, hbp, tp, htp, pp, hpp, ba, hba, ta, hta, ap, hap,
      rfl⟩
  · simp only [applyCompactViewportDelta, TerminalViewportDatagram.getDiff, bind_eq_ok_iff,
      ensure_eq_ok_iff, context_eq_ok_iff]
    refine ⟨⟨⟩, inheritedMask_known _ _ _ _ _ _, _, rfl, _, rfl, stateMetadata target,
      inheritFields_compactMetadata base target, ?_⟩
    rw [if_neg (by simp [compactDatagram])]
    simp only [bind_eq_ok_iff, ensure_eq_ok_iff, pure_eq_ok_iff, htp', hta', hbp, hba]
    refine ⟨⟨⟩, ⟨trivial, trivial⟩, ⟨⟩, ⟨hepoch, trivial, hgen⟩, ⟨⟩, ⟨rfl, rfl, hrows, hcols⟩, tp,
      applySparseScreen_eq_ok hpback, ta, applySparseScreen_eq_ok haback, ⟨⟩, ?_, hrestore⟩
    rw [hrestore]
    exact htarget

/-- What the sender encodes against a base is what the receiver of the base decodes. -/
theorem sparse_delta_roundtrip (graphemeCount : String → Nat) (terminalId attachmentId : String)
    (base target : State) (hroute : terminalId ≠ "" ∧ attachmentId ≠ "")
    (hbase : validateViewportState graphemeCount base = .ok ())
    (htarget : validateViewportState graphemeCount target = .ok ())
    (hepoch : base.epoch = target.epoch) (hrows : target.rows = base.rows)
    (hcols : target.cols = base.cols) (hgen : base.generation < target.generation) :
    (do
      let delta ← compactViewportDatagram terminalId attachmentId base target
      applyCompactViewportDelta graphemeCount base delta) = .ok target := by
  obtain ⟨delta, hencode, hdecode⟩ := applyCompactViewportDelta_compactViewportDatagram hroute hbase
    htarget hepoch hrows hcols hgen
  rw [bind_eq_ok_iff]
  exact ⟨delta, hencode, hdecode⟩

/-- A title that was empty and a row that was rewritten. -/
def titledState : State :=
  { blankState 0 2 with
    title := "top"
    primary := some { blankScreen with includedRows := [⟨some blankAnchor, 2, [], false⟩] } }

theorem sparse_delta_roundtrip_titled :
    (do
      let delta ← compactViewportDatagram "terminal" "attachment" (blankState 0 1) titledState
      applyCompactViewportDelta (fun _ => 1) (blankState 0 1) delta) = .ok titledState :=
  sparse_delta_roundtrip (fun _ => 1) "terminal" "attachment" (blankState 0 1) titledState
    (by decide) (by decide +kernel) (by decide +kernel) rfl rfl rfl (by decide)

end AstraShell.Streaming
