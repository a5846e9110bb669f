import AstraShell.Render.Incremental

/-!
# The links of the rendered text

The renderer opens a link before the grapheme of a cell and ends it after. For an accepted state a
terminal finds in the output exactly the sequences that the renderer means to send, and every
grapheme is printed under the link of its own cell, as the terminal decodes it
(`ViewportRenderer.rendered_links_faithful`). This is the link in the table when its identifier has
neither a semicolon nor a colon. A semicolon in the identifier ends the parameters early, and what
follows it becomes the beginning of the address (`explicit_id_redirects`).
-/

set_option autoImplicit false

namespace AstraShell.Render

open Lib Lib.Escape TerminalState

/-! ## What is printed under which link -/

/-- The link in force after some units. -/
def linkAfter (link : Option Link) : List Token → Option Link
  | [] => link
  | .osc body :: ts => linkAfter (Link.after link body) ts
  | _ :: ts => linkAfter link ts

/-- The printed texts, each with the link in force. -/
def printed (link : Option Link) : List Token → List (Text × Option Link)
  | [] => []
  | .osc body :: ts => printed (Link.after link body) ts
  | .text chars :: ts => (chars, link) :: printed link ts
  | _ :: ts => printed link ts

theorem linkAfter_append (link : Option Link) (as bs : List Token) :
    linkAfter link (as ++ bs) = linkAfter (linkAfter link as) bs := by
  induction as generalizing link with
  | nil => rfl
  | cons t as ih => cases t <;> exact ih _

theorem printed_append (link : Option Link) (as bs : List Token) :
    printed link (as ++ bs) = printed link as ++ printed (linkAfter link as) bs := by
  induction as generalizing link with
  | nil => rfl
  | cons t as ih =>
    cases t with
    | text chars => exact congrArg _ (ih link)
    | _ => exact ih _

/-- Units that print nothing and leave the link as it is. -/
def Quiet (ts : List Token) : Prop := ∀ link, printed link ts = [] ∧ linkAfter link ts = link

theorem Quiet.append {as bs : List Token} (ha : Quiet as) (hb : Quiet bs) : Quiet (as ++ bs) := by
  intro link
  rw [printed_append, linkAfter_append, (ha link).1, (ha link).2, (hb link).1, (hb link).2]
  exact ⟨rfl, rfl⟩

theorem quiet_setModes (assignments : List (Nat × Bool)) :
    Quiet (assignments.map fun (mode, enabled) => setMode mode enabled) := by
  intro link
  induction assignments with
  | nil => exact ⟨rfl, rfl⟩
  | cons assignment assignments ih => exact ih

section

variable {state : State} {screen : Screen}

/-- A cell is printed under its own link, and leaves none. -/
theorem cellTokens_printed (rowIndex : Nat) {cell : Cell}
    (hzero : cell.hyperlinkId = 0 → cellHyperlink state cell = none) :
    printed none (cellTokens state rowIndex cell) =
        (if hasControl cell.grapheme then [] else [(cell.grapheme.toList, cellLink state cell)]) ∧
      linkAfter none (cellTokens state rowIndex cell) = none := by
  have hopen : printed none (openTokens state rowIndex cell) = [] ∧
      linkAfter none (openTokens state rowIndex cell) = cellLink state cell := by
    rw [openTokens, penTokens, linkTokens, cellLink]
    cases styleOf state.styles cell.styleId <;> cases cellHyperlink state cell <;> exact ⟨rfl, rfl⟩
  have hclose : ∀ link, printed link (closeTokens cell) = [] := by
    intro link
    rw [closeTokens]
    split <;> rfl
  have hend : linkAfter (cellLink state cell) (closeTokens cell) = none := by
    rw [closeTokens]
    split
    next => rfl
    next h => rw [cellLink, hzero (by simpa using h)]; rfl
  have htext : linkAfter (cellLink state cell) (graphemeTokens cell) = cellLink state cell := by
    rw [graphemeTokens]
    split <;> rfl
  simp only [cellTokens, printed_append, linkAfter_append, hopen.1, hopen.2, htext, hclose, hend,
    and_true]
  rw [graphemeTokens]
  split <;> simp [printed]

/-- The cells whose graphemes the output prints. -/
def printedCells (state : State) (screen : Screen) (previous : Option (State × Screen)) :
    List Cell :=
  (paintedRows state screen previous).flatMap fun (row, _) =>
    row.cells.filter fun cell => !hasControl cell.grapheme

variable (hzero : ∀ cell : Cell, cell.hyperlinkId = 0 → cellHyperlink state cell = none)

include hzero

theorem cells_printed (rowIndex : Nat) (cells : List Cell) :
    printed none (cells.flatMap (cellTokens state rowIndex)) =
        (cells.filter fun cell => !hasControl cell.grapheme).map
          (fun cell => (cell.grapheme.toList, cellLink state cell)) ∧
      linkAfter none (cells.flatMap (cellTokens state rowIndex)) = none := by
  induction cells with
  | nil => exact ⟨rfl, rfl⟩
  | cons cell cells ih =>
    obtain ⟨hprinted, hlink⟩ := cellTokens_printed rowIndex (hzero cell)
    rw [List.flatMap_cons, printed_append, linkAfter_append, hprinted, hlink, ih.1, ih.2]
    cases hcontrol : hasControl cell.grapheme <;> simp [hcontrol]

theorem rows_printed (entries : List (Row × Nat)) :
    printed none (entries.flatMap fun (row, rowIndex) => rowTokens state rowIndex row) =
        (entries.flatMap fun (row, _) => row.cells.filter fun cell => !hasControl cell.grapheme).map
          fun cell => (cell.grapheme.toList, cellLink state cell) := by
  induction entries with
  | nil => rfl
  | cons entry entries ih =>
    obtain ⟨hprinted, hlink⟩ := cells_printed hzero entry.2 entry.1.cells
    have hrow : printed none (rowTokens state entry.2 entry.1) = _ ∧
        linkAfter none (rowTokens state entry.2 entry.1) = none := ⟨hprinted, hlink⟩
    rw [List.flatMap_cons, printed_append, hrow.1, hrow.2, ih, List.flatMap_cons, List.map_append]

/-- Every text that is printed is a grapheme, under the link of its own cell. -/
theorem screenTokens_printed (previous : Option (State × Screen)) (restoreOutputModes : Bool) :
    printed none (screenTokens state screen previous restoreOutputModes) =
      (printedCells state screen previous).map fun cell =>
        (cell.grapheme.toList, cellLink state cell) := by
  have herase : ∀ p : Prop, ∀ [Decidable p], Quiet (if p then eraseDisplay else []) := by
    intro p _ link
    split <;> exact ⟨rfl, rfl⟩
  have hstart := ((herase (restoreOutputModes = true)).append
    (fun _ => ⟨rfl, rfl⟩ : Quiet prelude)).append
    (herase (previous.isNone ∧ ¬ restoreOutputModes))
  have hreset : Quiet [resetPen] := fun _ => ⟨rfl, rfl⟩
  have hcursor : Quiet (screen.cursor.toList.flatMap cursorTokens) := by
    intro link
    cases screen.cursor <;> exact ⟨rfl, rfl⟩
  have hmodes : Quiet (state.modes.toList.flatMap (modeTokens · restoreOutputModes)) := by
    cases state.modes with
    | none => exact fun _ => ⟨rfl, rfl⟩
    | some modes => simpa [modeTokens] using (quiet_setModes _).append fun _ => ⟨rfl, rfl⟩
  rw [screenTokens, List.append_assoc _ _ (state.modes.toList.flatMap _), List.append_assoc _ [_],
    printed_append, printed_append, (hstart _).1, (hstart _).2,
    (hreset.append (hcursor.append hmodes) _).1, List.append_nil, List.nil_append]
  exact rows_printed hzero _

end

/-! ## What the terminal decodes -/

/-- The identifier of the link stands for itself among the parameters. -/
def PlainId (link : Hyperlink) : Prop := ∀ c ∈ link.explicitId.toList, c ≠ ';' ∧ c ≠ ':'

/-- A link with a plain identifier is decoded as it is. -/
theorem after_hyperlinkBody {link : Hyperlink} (huri : link.uri ≠ "") (hid : PlainId link) :
    Link.after none (hyperlinkBody link) = some ⟨link.uri.toList, link.explicitId.toList⟩ := by
  obtain ⟨parameters, hparameters⟩ : ∃ parameters,
      parameters = if link.explicitId = "" then [] else "id=".toList ++ link.explicitId.toList :=
    ⟨_, rfl⟩
  have hplain : ∀ c ∈ parameters, c ≠ ';' ∧ c ≠ ':' := by
    rw [hparameters]
    split
    · exact nofun
    · exact List.forall_mem_append.2 ⟨by decide, hid⟩
  have hread : (parameters.splitOnP (· == ':')).findSome? readId = some link.explicitId.toList ∨
      (parameters.splitOnP (· == ':')).findSome? readId = none ∧ link.explicitId = "" := by
    rw [List.splitOnP_eq_singleton fun c hc => by simpa using (hplain c hc).2, hparameters]
    split
    next hempty => exact .inr ⟨rfl, hempty⟩
    next => exact .inl rfl
  have hbody : hyperlinkBody link = '8' :: ';' :: (parameters ++ ';' :: link.uri.toList) := by
    rw [hyperlinkBody, ← hparameters]
    simp
  have hsemicolon : ∀ c ∈ parameters, (c != ';') = true :=
    fun c hc => by simpa using (hplain c hc).1
  rw [hbody, Link.after, readLink, List.takeWhile_append_of_pos hsemicolon,
    List.dropWhile_append_of_pos hsemicolon]
  rcases hread with hread | ⟨hread, hempty⟩
  · simp [hread, huri]
  · simp [hread, huri, hempty]

/-- An identifier that a terminal decodes has neither of the characters that end it. -/
theorem plain_of_readLink {rest : Text} {link : Link} (h : readLink rest = some link) :
    ∀ c ∈ link.id, c ≠ ';' ∧ c ≠ ':' := by
  rw [readLink] at h
  split at h
  · cases h
  · cases h
    cases hread : ((rest.takeWhile (· != ';')).splitOnP (· == ':')).findSome? readId with
    | none => exact nofun
    | some value =>
      obtain ⟨part, hpart, hvalue⟩ := List.exists_of_findSome?_eq_some hread
      intro c hc
      have hmem : c ∈ part := by
        unfold readId at hvalue
        split at hvalue <;> cases hvalue
        simp [show c ∈ value from hc]
      obtain ⟨hparameter, hcolon⟩ := Text.mem_of_mem_splitOnP hpart hmem
      exact ⟨by simpa using List.mem_takeWhile_imp hparameter, by simpa using hcolon⟩

theorem after_hyperlinkBody_iff {link : Hyperlink} (huri : link.uri ≠ "") :
    Link.after none (hyperlinkBody link) = some ⟨link.uri.toList, link.explicitId.toList⟩ ↔
      PlainId link :=
  ⟨fun h => plain_of_readLink h, after_hyperlinkBody huri⟩

/-! ## The renderer -/

namespace ViewportRenderer

variable {graphemeCount : String → Nat}

/-- The output consists of the sequences that the renderer means to send, and every grapheme is
printed under the link of its cell: none without an identifier, and of the entries of the table that
have no control characters, exactly those with a plain identifier as they are. -/
def LinksFaithful (graphemeCount : String → Nat) (r : ViewportRenderer) (state : State) : Prop :=
  ∃ screen output, activeScreen state = some screen ∧
    r.render graphemeCount state = .ok (output, ⟨some state⟩) ∧
    split output = screenTokens state screen (r.previousFor state) false ∧
    printed none (split output) =
      (printedCells state screen (r.previousFor state)).map (fun cell =>
        (cell.grapheme.toList, cellLink state cell)) ∧
    ∀ cell : Cell, (cell.hyperlinkId = 0 → cellLink state cell = none) ∧
      ∀ link ∈ state.hyperlinks, link.id = cell.hyperlinkId →
        hasControl link.uri = false → hasControl link.explicitId = false →
          (cellLink state cell = some ⟨link.uri.toList, link.explicitId.toList⟩ ↔ PlainId link)

/-- Every accepted state is rendered faithfully, whatever the renderer showed before. -/
theorem rendered_links_faithful (r : ViewportRenderer) (state : State)
    (hvalid : validate graphemeCount state = .ok ()) : LinksFaithful graphemeCount r state := by
  obtain ⟨screen, cursor, modes, hshows⟩ := shows_of_validate hvalid
  obtain ⟨styleIds, hyperlinkIds, _, _, _, _, htables, -⟩ :=
    ((validate_eq_ok_iff graphemeCount state).1 hvalid).screens
  have htables := (validateTables_eq_ok_iff _ _ _ _).1 htables
  have hsplit : split (renderScreen state screen (r.previousFor state) false) = _ :=
    split_renderScreen hshows.graphemes _ _
  refine ⟨screen, _, hshows.active, ?_, hsplit, ?_, fun cell => ⟨fun hzero => ?_, ?_⟩⟩
  · rw [render, hvalid, hshows.active]
    rfl
  · rw [hsplit]
    exact screenTokens_printed hshows.links _ _
  · rw [cellLink, hshows.links cell hzero]
  · intro link hmem hid huri hexplicit
    -- The identifiers are distinct, so the search finds this entry.
    have hfind : hyperlinkOf state.hyperlinks cell.hyperlinkId = some link := by
      cases hfind : hyperlinkOf state.hyperlinks cell.hyperlinkId with
      | none =>
        have := List.find?_eq_none.1 hfind link (List.mem_reverse.2 hmem)
        exact absurd hid (by simpa using this)
      | some found =>
        have hfound : found.id = cell.hyperlinkId := by simpa using List.find?_some hfind
        have hfoundmem := List.mem_reverse.1 (List.mem_of_find?_eq_some hfind)
        rw [List.inj_on_of_nodup_map htables.hyperlinks_nodup hfoundmem hmem
          (hfound.trans hid.symm)]
    rw [cellLink, cellHyperlink, hfind, Option.filter_some, huri, hexplicit]
    exact after_hyperlinkBody_iff (htables.each_hyperlink link hmem).uri_ne

/-- One linked letter, with an identifier that contains a semicolon. -/
def redirectState : State :=
  { blankState 0 1 with
    primary := some { blankScreen with includedRows := [⟨some blankAnchor, 1, [⟨0, "x", 1, 0, 1⟩],
      false⟩] }
    hyperlinks := [⟨1, "http://good", "a;http://evil"⟩] }

/-- The state is accepted, and the terminal opens another address than that of the link. -/
theorem explicit_id_redirects :
    validate (fun _ => 1) redirectState = .ok () ∧
      (fresh.render (fun _ => 1) redirectState).map (fun result => printed none (split result.1)) =
        .ok [("x".toList, some ⟨"http://evil;http://good".toList, "a".toList⟩)] := by
  decide +kernel

/-- The same letter, with an identifier that is plain. -/
def linkedState : State :=
  { redirectState with hyperlinks := [⟨1, "http://good", "a"⟩] }

theorem rendered_links_faithful_linked : LinksFaithful (fun _ => 1) fresh linkedState :=
  rendered_links_faithful fresh linkedState (by decide +kernel)

end ViewportRenderer

end AstraShell.Render
