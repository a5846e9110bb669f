import Mathlib.Data.Prod.Lex
import AstraShell.Engine.Agreement
import AstraShell.Lib.Paging

/-!
# Reading the history of a terminal

A client reads the history of a terminal backwards: it asks for the rows before the first row of the
viewport, then for those before the first row of the page it got, until a page says that there is
nothing before it. Meanwhile the program goes on: rows come at the end, and the oldest rows are
dropped.

Rows are ordered by their anchors, so this is the reader of `Lib.Paging` over the anchors of the
rows (`PagingLoop.reading`), and `history_paging_complete` follows from what holds of any such
reader.
-/

set_option autoImplicit false

namespace AstraShell.Engine

open Lib
open TerminalState (Anchor Bytes HistoryPage HistoryPageRequest Row)

/-- The anchor of a row. -/
def RowView.startAnchor (row : RowView) : Anchor :=
  ⟨row.identity.logicalLineId, row.identity.cellOffset⟩

theorem RowView.anchor_eq_ok {row : RowView} {a : Anchor} (h : row.anchor = .ok a) :
    a = row.startAnchor := by
  obtain ⟨⟨⟩, -, hpure⟩ := bind_eq_ok_iff.1 h
  exact (Except.ok.inj hpure).symm

/-- Anchors are compared by their line first. -/
def anchorKey (a : Anchor) : ℕ ×ₗ ℕ := toLex (a.logicalLineId, a.cellOffset)

theorem anchorKey_injective : Function.Injective anchorKey := by
  intro a b h
  have hpair : (a.logicalLineId, a.cellOffset) = (b.logicalLineId, b.cellOffset) := toLex_inj.1 h
  cases a
  cases b
  cases hpair
  rfl

section

/-- The order of the rows. -/
local instance anchorOrder : LinearOrder Anchor := LinearOrder.lift' anchorKey anchorKey_injective

theorem anchor_le_iff (a b : Anchor) : a ≤ b ↔ a.logicalLineId < b.logicalLineId ∨
    (a.logicalLineId = b.logicalLineId ∧ a.cellOffset ≤ b.cellOffset) :=
  Prod.Lex.toLex_le_toLex

/-! ## One page -/

/-- The anchors of the rows of the primary screen. -/
def TerminalEngine.anchors (e : TerminalEngine) : List Anchor :=
  e.terminal.primary.lines.map RowView.startAnchor

/-- The page has the rows of the view from `first` on, with their contents. -/
def PageOf (e : TerminalEngine) (page : HistoryPage) (first count : Nat) : Prop :=
  ∃ epochSequenceStart tables, page.styles = tables.styles ∧ page.hyperlinks = tables.hyperlinks ∧
    List.Forall₂
      (ExportsRow e.terminal.columns epochSequenceStart page.generation tables)
      ((e.terminal.primary.lines.drop first).take count) page.includedRows

/-- The anchors of the rows of a page. -/
def pageAnchors (page : HistoryPage) : List Anchor := page.includedRows.filterMap Row.start

theorem starts_of_exportsRows {columns epochSequenceStart generation : Nat} {tables : ExportTables}
    {views : List RowView} {rows : List Row}
    (h : List.Forall₂ (ExportsRow columns epochSequenceStart generation tables) views rows) :
    rows.map Row.start = (views.map RowView.startAnchor).map some := by
  induction h with
  | nil => rfl
  | @cons view row views rows hrow _ ih =>
    obtain ⟨a, ha, hstart⟩ := hrow.start
    rw [List.map_cons, List.map_cons, List.map_cons, ih, hstart, RowView.anchor_eq_ok ha]

/-- All rows of a page have an anchor. -/
theorem PageOf.starts {e : TerminalEngine} {page : HistoryPage} {first count : Nat}
    (h : PageOf e page first count) :
    page.includedRows.map Row.start = (pageAnchors page).map some ∧
      pageAnchors page = (e.anchors.drop first).take count := by
  obtain ⟨epochSequenceStart, tables, -, -, hrows⟩ := h
  have hstarts := starts_of_exportsRows hrows
  rw [List.map_take, List.map_drop] at hstarts
  have hpicked : pageAnchors page = (page.includedRows.map Row.start).filterMap id := by
    rw [List.filterMap_map]
    rfl
  have hanchors : pageAnchors page = (e.anchors.drop first).take count := by
    rw [hpicked, hstarts, List.filterMap_map, Function.id_comp, List.filterMap_some]
    rfl
  exact ⟨by rw [hanchors, hstarts]; rfl, hanchors⟩

namespace TerminalEngine

variable {graphemeCount : String → Nat} {e e' e₀ : TerminalEngine} {requestId n : Nat}
  {request : HistoryPageRequest} {uuid epoch : Bytes} {page : HistoryPage} {a a₀ : Anchor}

/-- The rows before an anchor are as many as the search finds. -/
theorem findIdx_atOrAfter (hsorted : e.anchors.Pairwise (· < ·)) (a : Anchor) :
    e.terminal.primary.lines.findIdx (atOrAfter a) = (older e.anchors a).length := by
  have hfind : e.terminal.primary.lines.findIdx (atOrAfter a) =
      e.anchors.findIdx fun x => a ≤ x := by
    rw [anchors, List.findIdx_map]
    congr 1
    funext row
    simp only [atOrAfter, Function.comp_apply, anchor_le_iff]
    rfl
  rw [hfind, ← take_findIdx_eq_older hsorted, List.length_take,
    Nat.min_eq_left (List.findIdx_le_length)]

/-- A page that is no reset has the last rows before the anchor, as far as they are history. -/
theorem pageView_spec (h : e.pageView graphemeCount requestId request = .ok page)
    (hreset : page.resetRequired = false) :
    ∃ before, request.before = some before ∧
      let last := min (e.terminal.primary.lines.findIdx (atOrAfter before))
        e.terminal.primary.viewportStart
      PageOf e page (last - request.maximumRows) (last - (last - request.maximumRows)) ∧
        page.moreBefore = decide (last - request.maximumRows > 0) ∧
        page.includedStart = page.includedRows.head?.bind Row.start := by
  obtain ⟨⟨⟩, -, hrest⟩ := bind_eq_ok_iff.1 h
  obtain ⟨gen, -, hrest⟩ := bind_eq_ok_iff.1 hrest
  obtain ⟨oldest, -, hrest⟩ := bind_eq_ok_iff.1 hrest
  obtain ⟨newest, -, hrest⟩ := bind_eq_ok_iff.1 hrest
  split at hrest
  · -- Of another epoch: the page is a reset.
    obtain ⟨cols, -, hrest⟩ := bind_eq_ok_iff.1 hrest
    obtain ⟨⟨⟩, -, hpure⟩ := bind_eq_ok_iff.1 hrest
    cases hpure
    cases hreset
  · obtain ⟨before, hbefore, hrest⟩ := bind_eq_ok_iff.1 hrest
    obtain ⟨⟨includedRows, tables⟩, hrows, hrest⟩ := bind_eq_ok_iff.1 hrest
    obtain ⟨cols, -, hrest⟩ := bind_eq_ok_iff.1 hrest
    obtain ⟨⟨⟩, -, hpure⟩ := bind_eq_ok_iff.1 hrest
    cases hpure
    obtain ⟨-, hall⟩ := exportRows_spec hrows
    have hlines : e.terminal.primary.rows 0 e.terminal.primary.rowCount =
        e.terminal.primary.lines := by
      rw [ScreenView.rows, List.drop_zero, ScreenView.rowCount, List.take_length]
    rw [hlines] at hall ⊢
    exact ⟨before, context_eq_ok_iff.1 hbefore,
      ⟨e.epochSequenceStart, tables, rfl, rfl, hall⟩, rfl, rfl⟩

theorem historyPage_ok (h : (e.historyPage graphemeCount requestId request uuid).1 = .ok page) :
    (e.refreshIdentityEpoch uuid).pageView graphemeCount requestId request = .ok page ∧
      (e.historyPage graphemeCount requestId request uuid).2.terminal = e.terminal := by
  unfold historyPage at h ⊢
  split at h
  · cases h
  · exact ⟨h, refreshIdentityEpoch_terminal e uuid⟩

/-- What the engine returns is the page of the abstract reader. -/
theorem historyPage_spec (hsorted : e.anchors.Pairwise (· < ·))
    (hhistory : (older e.anchors a).length ≤ e.terminal.primary.viewportStart)
    (h : (e.historyPage graphemeCount requestId ⟨epoch, some a, n⟩ uuid).1 = .ok page)
    (hreset : page.resetRequired = false) :
    pageBefore e.anchors a n = (pageAnchors page, page.moreBefore) ∧
      page.includedStart = (pageAnchors page).head? ∧
      ∃ first count, count ≤ n ∧ PageOf e page first count := by
  obtain ⟨hview, -⟩ := historyPage_ok h
  obtain ⟨before, hbefore, hpage⟩ := pageView_spec hview hreset
  cases hbefore
  have hterminal := refreshIdentityEpoch_terminal e uuid
  simp only [PageOf, hterminal, findIdx_atOrAfter hsorted, Nat.min_eq_left hhistory] at hpage
  obtain ⟨hpageOf, hmore, hstart⟩ := hpage
  have hpageOf : PageOf e page ((older e.anchors a).length - n)
      ((older e.anchors a).length - ((older e.anchors a).length - n)) := hpageOf
  obtain ⟨hstarts, hanchors⟩ := hpageOf.starts
  refine ⟨?_, ?_, _, _, by omega, hpageOf⟩
  · -- The rows before the anchor are the first of the log.
    have holder : older e.anchors a = e.anchors.take (older e.anchors a).length := by
      have htake := take_findIdx_eq_older hsorted a
      rw [← htake, List.length_take, List.take_eq_take_iff]
      simp
    have hsegment : pageAnchors page = (older e.anchors a).drop
        ((older e.anchors a).length - n) := by
      rw [hanchors]
      nth_rewrite 5 [holder]
      rw [List.drop_take]
    rw [pageBefore, hsegment, hmore, decide_eq_decide.2]
    omega
  · have hhead := congrArg List.head? hstarts
    rw [List.head?_map, List.head?_map] at hhead
    rw [hstart]
    cases hrows : page.includedRows.head? with
    | none =>
      rw [hrows] at hhead
      cases hfirst : (pageAnchors page).head? with
      | none => rfl
      | some x =>
        rw [hfirst] at hhead
        cases hhead
    | some row =>
      rw [hrows] at hhead
      cases hfirst : (pageAnchors page).head? with
      | none =>
        rw [hfirst] at hhead
        cases hhead
      | some x =>
        rw [hfirst] at hhead
        exact Option.some.inj hhead

/-! ## The loop -/

/-- The program has written rows and the oldest rows were dropped. The rows of the viewport are
never dropped, and the height of the screen is the same. -/
structure Scrolls (e e' : TerminalEngine) : Prop where
  anchors : Advances e.anchors e'.anchors
  rows : e'.terminal.rows = e.terminal.rows
  viewport : e.terminal.rows ≤ e'.anchors.length

/-- The loop of a client that began at `a₀`: it has got the pages and next asks for what is before
`a`. -/
inductive PagingLoop (graphemeCount : String → Nat) (n : Nat) (epoch : Bytes) (e₀ : TerminalEngine)
    (a₀ : Anchor) : TerminalEngine → Anchor → List HistoryPage → Prop
  | start : PagingLoop graphemeCount n epoch e₀ a₀ e₀ a₀ []
  | scroll {e : TerminalEngine} {a : Anchor} {pages : List HistoryPage}
      (h : PagingLoop graphemeCount n epoch e₀ a₀ e a pages) (e' : TerminalEngine)
      (hscrolls : Scrolls e e') : PagingLoop graphemeCount n epoch e₀ a₀ e' a pages
  | request {e : TerminalEngine} {a : Anchor} {pages : List HistoryPage}
      (h : PagingLoop graphemeCount n epoch e₀ a₀ e a pages) (requestId : Nat) (uuid : Bytes)
      (page : HistoryPage) (a' : Anchor)
      (hok : (e.historyPage graphemeCount requestId ⟨epoch, some a, n⟩ uuid).1 = .ok page)
      (hreset : page.resetRequired = false) (hmore : page.moreBefore = true)
      (hstart : page.includedStart = some a') :
      PagingLoop graphemeCount n epoch e₀ a₀
        (e.historyPage graphemeCount requestId ⟨epoch, some a, n⟩ uuid).2 a' (pages ++ [page])

/-- The loop has got a page with nothing before it. -/
inductive PagingEnds (graphemeCount : String → Nat) (n : Nat) (epoch : Bytes) (e₀ : TerminalEngine)
    (a₀ : Anchor) : TerminalEngine → List HistoryPage → Prop
  | last {e : TerminalEngine} {a : Anchor} {pages : List HistoryPage}
      (h : PagingLoop graphemeCount n epoch e₀ a₀ e a pages) (requestId : Nat) (uuid : Bytes)
      (page : HistoryPage)
      (hok : (e.historyPage graphemeCount requestId ⟨epoch, some a, n⟩ uuid).1 = .ok page)
      (hreset : page.resetRequired = false) (hmore : page.moreBefore = false) :
      PagingEnds graphemeCount n epoch e₀ a₀
        (e.historyPage graphemeCount requestId ⟨epoch, some a, n⟩ uuid).2 (pages ++ [page])

/-- The client begins at the first row of the viewport of a screen whose rows are in order. -/
structure PagingStarts (e₀ : TerminalEngine) (a₀ : Anchor) : Prop where
  sorted : e₀.anchors.Pairwise (· < ·)
  first : e₀.anchors[e₀.terminal.primary.viewportStart]? = some a₀

namespace PagingStarts

theorem bounded (h : PagingStarts e₀ a₀) : ∃ x ∈ e₀.anchors, a₀ ≤ x :=
  ⟨a₀, List.mem_of_getElem? h.first, le_rfl⟩

/-- What is before the first row of the viewport is the history. -/
theorem older_eq (h : PagingStarts e₀ a₀) :
    older e₀.anchors a₀ = e₀.anchors.take e₀.terminal.primary.viewportStart :=
  older_getElem h.sorted h.first

theorem rows_pos (h : PagingStarts e₀ a₀) : 0 < e₀.terminal.rows := by
  have hlt := (List.getElem?_eq_some_iff.1 h.first).1
  rw [anchors, List.length_map, ScreenView.viewportStart] at hlt
  rw [TerminalView.rows]
  omega

end PagingStarts

/-- The loop is a reader of the anchors, and what it reads is history. -/
theorem PagingLoop.reading {pages : List HistoryPage} (hstarts : PagingStarts e₀ a₀)
    (h : PagingLoop graphemeCount n epoch e₀ a₀ e a pages) :
    Reading n e₀.anchors a₀ e.anchors a (pages.map pageAnchors) ∧
      e.terminal.rows = e₀.terminal.rows ∧
      (older e.anchors a₀).length ≤ e.terminal.primary.viewportStart := by
  induction h with
  | start =>
    refine ⟨.start, rfl, ?_⟩
    rw [hstarts.older_eq, List.length_take]
    exact Nat.min_le_left _ _
  | @scroll e a pages _ e' hscrolls ih =>
    obtain ⟨hreading, hrows, hhistory⟩ := ih
    obtain ⟨dropped, missing, hinv⟩ := hreading.inv hstarts.sorted hstarts.bounded
    obtain ⟨new, k, hsorted, hanchors⟩ := hscrolls.anchors
    obtain ⟨x, hx, hle⟩ := hinv.bounded
    have hpos := hstarts.rows_pos
    have hviewport := hscrolls.viewport
    have hlength : k < (e.anchors ++ new).length := by
      rw [hanchors, List.length_drop] at hviewport
      omega
    obtain ⟨y, hy, hxy⟩ := exists_le_mem_drop hsorted (List.mem_append_left _ hx) hlength
    have hbounded : ∃ x ∈ e'.anchors, a₀ ≤ x := ⟨y, hanchors ▸ hy, hle.trans hxy⟩
    refine ⟨hreading.advance _ hscrolls.anchors hbounded, hscrolls.rows.trans hrows, ?_⟩
    -- The rows that are gone were before the viewport, and the new ones are after it.
    have hnew : older new a₀ = [] := older_eq_nil fun z hz =>
      hle.trans ((List.pairwise_append.1 hsorted).2.2 x hx z hz).le
    have hlines' : e'.terminal.primary.lines.length = e'.anchors.length := by
      rw [TerminalEngine.anchors, List.length_map]
    have hlines : e.terminal.primary.lines.length = e.anchors.length := by
      rw [TerminalEngine.anchors, List.length_map]
    have hsame : e'.terminal.primary.physicalRows = e.terminal.primary.physicalRows := hscrolls.rows
    rw [ScreenView.viewportStart, hlines] at hhistory
    rw [ScreenView.viewportStart, hlines', hsame, hanchors, older_drop hsorted, older_append, hnew,
      List.append_nil, List.length_drop, List.length_drop, List.length_append]
    omega
  | @request e a pages _ requestId uuid page a' hok hreset hmore hstart ih =>
    obtain ⟨hreading, hrows, hhistory⟩ := ih
    obtain ⟨dropped, missing, hinv⟩ := hreading.inv hstarts.sorted hstarts.bounded
    obtain ⟨-, hterminal⟩ := historyPage_ok hok
    have hbefore : (older e.anchors a).length ≤ e.terminal.primary.viewportStart := by
      refine le_trans ?_ hhistory
      rw [← older_older hinv.before_le]
      exact List.length_filter_le _ _
    obtain ⟨hpage, hfirst, -⟩ := historyPage_spec hinv.sorted hbefore hok hreset
    rw [hmore] at hpage
    have hanchors : (e.historyPage graphemeCount requestId ⟨epoch, some a, n⟩ uuid).2.anchors =
        e.anchors := by rw [TerminalEngine.anchors, hterminal]; rfl
    rw [hanchors, hterminal, List.map_append]
    exact ⟨hreading.page _ a' hpage (hfirst.symm.trans hstart), hrows, hhistory⟩

/-- A request that is answered asks for at least one row. -/
theorem historyPage_maximumRows
    (h : (e.historyPage graphemeCount requestId request uuid).1 = .ok page) :
    1 ≤ request.maximumRows := by
  unfold historyPage at h
  split at h
  · cases h
  next hchecked =>
    obtain ⟨⟨⟩, -, hrequest⟩ := bind_eq_ok_iff.1 hchecked
    simp only [TerminalState.validateHistoryPageRequest, bind_eq_ok_iff,
      ensure_eq_ok_iff] at hrequest
    obtain ⟨-, -, -, -, hrows⟩ := hrequest
    exact hrows.1

namespace PagingLoop

variable {pages : List HistoryPage}

section

variable (hstarts : PagingStarts e₀ a₀) (h : PagingLoop graphemeCount n epoch e₀ a₀ e a pages)
  (hok : (e.historyPage graphemeCount requestId ⟨epoch, some a, n⟩ uuid).1 = .ok page)
  (hreset : page.resetRequired = false)

include hstarts h hok hreset

/-- What the next page of the loop is. -/
theorem next_page :
    pageBefore e.anchors a n = (pageAnchors page, page.moreBefore) ∧
      page.includedStart = (pageAnchors page).head? ∧
      ∃ first count, count ≤ n ∧ PageOf e page first count := by
  obtain ⟨hreading, -, hhistory⟩ := h.reading hstarts
  obtain ⟨dropped, missing, hinv⟩ := hreading.inv hstarts.sorted hstarts.bounded
  refine historyPage_spec hinv.sorted (le_trans ?_ hhistory) hok hreset
  rw [← older_older hinv.before_le]
  exact List.length_filter_le _ _

/-- A page with something before it has a row to go on from. -/
theorem includedStart_of_more (hmore : page.moreBefore = true) :
    ∃ a', page.includedStart = some a' := by
  obtain ⟨hpage, hstart, -⟩ := h.next_page hstarts hok hreset
  have hn := historyPage_maximumRows hok
  dsimp only at hn
  have hlength : n < (older e.anchors a).length := by
    have hdecide := (congrArg Prod.snd hpage).trans hmore
    rw [pageBefore, decide_eq_true_eq] at hdecide
    exact hdecide
  have hanchors : (older e.anchors a).drop ((older e.anchors a).length - n) = pageAnchors page :=
    congrArg Prod.fst hpage
  rw [hstart]
  cases hhead : (pageAnchors page).head? with
  | some a' => exact ⟨a', rfl⟩
  | none =>
    rw [List.head?_eq_none_iff, ← hanchors, List.drop_eq_nil_iff] at hhead
    omega

end

/-- Every row the loop has got has an anchor. -/
theorem starts (hstarts : PagingStarts e₀ a₀)
    (h : PagingLoop graphemeCount n epoch e₀ a₀ e a pages) :
    ∀ page ∈ pages, page.includedRows.map Row.start = (pageAnchors page).map some := by
  induction h with
  | start => simp
  | scroll _ _ _ ih => exact ih
  | @request e a pages h requestId uuid page a' hok hreset _ _ ih =>
    intro page' hpage'
    rcases List.mem_append.1 hpage' with hold | hnew
    · exact ih page' hold
    · cases List.mem_singleton.1 hnew
      obtain ⟨-, -, first, count, -, hpageOf⟩ := h.next_page hstarts hok hreset
      exact hpageOf.starts.1

end PagingLoop

/-- The anchors of all rows that were returned, oldest first. -/
def returned (pages : List HistoryPage) : List (Option Anchor) :=
  pages.reverse.flatMap fun page => page.includedRows.map Row.start

theorem returned_eq {pages : List HistoryPage}
    (h : ∀ page ∈ pages, page.includedRows.map Row.start = (pageAnchors page).map some) :
    returned pages = (collected (pages.map pageAnchors)).map some := by
  rw [returned, collected, ← List.map_reverse, List.map_flatten, List.map_map, List.flatMap_def]
  congr 1
  exact List.map_congr_left fun page hpage => h page (List.mem_reverse.1 hpage)

theorem nodup_of_suffix (hsorted : e₀.anchors.Pairwise (· < ·)) {rows : List Anchor}
    (h : rows <:+ older e₀.anchors a₀) : (rows.map some).Nodup := by
  have hrows : rows.Pairwise (· < ·) := (pairwise_older hsorted a₀).sublist h.sublist
  exact List.Pairwise.map some (fun _ _ hlt heq => ne_of_lt hlt (Option.some.inj heq)) hrows

/-- A client that pages through the history from the first row of the viewport, while rows are
written and dropped, makes no more requests that are followed by another than there were rows of
history. It gets contiguous rows, at most as many as it asks for, and always a row to go on from. It
gets no row twice; and when it ends, what it has got in order is a final part of the history it
began with, which has all of it that is still there. -/
theorem history_paging_complete (hstarts : PagingStarts e₀ a₀) :
    (∀ e a pages, PagingLoop graphemeCount n epoch e₀ a₀ e a pages →
      pages.length ≤ e₀.terminal.primary.viewportStart ∧ (returned pages).Nodup ∧
      ∀ requestId uuid page,
        (e.historyPage graphemeCount requestId ⟨epoch, some a, n⟩ uuid).1 = .ok page →
        page.resetRequired = false →
          (page.moreBefore = true → ∃ a', page.includedStart = some a') ∧
          ∃ first count, count ≤ n ∧ PageOf e page first count) ∧
    ∀ e pages, PagingEnds graphemeCount n epoch e₀ a₀ e pages →
      (returned pages).Nodup ∧
      returned pages <:+ (e₀.anchors.take e₀.terminal.primary.viewportStart).map some ∧
      (older e.anchors a₀).map some <:+ returned pages := by
  constructor
  · intro e a pages hloop
    obtain ⟨hreading, -, -⟩ := hloop.reading hstarts
    obtain ⟨dropped, missing, hinv⟩ := hreading.inv hstarts.sorted hstarts.bounded
    have hlength := hreading.length_le hstarts.sorted hstarts.bounded
    rw [List.length_map, hstarts.older_eq, List.length_take] at hlength
    refine ⟨hlength.trans (Nat.min_le_left _ _), ?_, fun requestId uuid page hok hreset => ⟨?_, ?_⟩⟩
    · rw [returned_eq (hloop.starts hstarts), hinv.has]
      exact nodup_of_suffix hstarts.sorted (List.drop_suffix _ _)
    · exact hloop.includedStart_of_more hstarts hok hreset
    · exact (hloop.next_page hstarts hok hreset).2.2
  · intro e pages hends
    cases hends with
    | @last e a pages hloop requestId uuid page hok hreset hmore =>
      obtain ⟨hreading, -, -⟩ := hloop.reading hstarts
      obtain ⟨hpage, -, first, count, -, hpageOf⟩ := hloop.next_page hstarts hok hreset
      rw [hmore] at hpage
      have hfinished := Finished.last hreading _ hpage
      obtain ⟨hsuffix, hretained⟩ := hfinished.complete hstarts.sorted hstarts.bounded
      have hstartsAll : ∀ page' ∈ pages ++ [page],
          page'.includedRows.map Row.start = (pageAnchors page').map some := by
        exact List.forall_mem_append.2 ⟨hloop.starts hstarts,
          List.forall_mem_singleton.2 hpageOf.starts.1⟩
      have hcollected : collected ((pages ++ [page]).map pageAnchors) =
          collected (pages.map pageAnchors ++ [pageAnchors page]) := by
        rw [List.map_append]
        rfl
      have hanchors : (e.historyPage graphemeCount requestId ⟨epoch, some a, n⟩ uuid).2.anchors =
          e.anchors := by
        rw [TerminalEngine.anchors, (historyPage_ok hok).2]
        rfl
      rw [returned_eq hstartsAll, hcollected, hanchors, ← hstarts.older_eq]
      exact ⟨nodup_of_suffix hstarts.sorted hsuffix, hsuffix.map some, hretained.map some⟩

/-- A terminal that shows the last of the numbered rows; the others are its history. -/
def numberedEngine (lines : List Nat) : TerminalEngine :=
  new (smallView (lines.map fun line => lineRow line []) "sh") ⟨100, 100⟩ (List.replicate 16 0)

/-- The page of one row before an anchor. -/
def pageOfOne (lines : List Nat) (before : Anchor) : Except String HistoryPage :=
  ((numberedEngine lines).historyPage (fun _ => 1) 1 ⟨List.replicate 16 0, some before, 1⟩ []).1

/-- The client has got the newest row of the history when a row is written and the oldest row is
dropped; its second page is the last. -/
theorem history_paging_complete_scrolled : ∃ e pages,
    PagingEnds (fun _ => 1) 1 (List.replicate 16 0) (numberedEngine [1, 2, 3, 4]) ⟨4, 0⟩ e pages ∧
      returned pages = [some ⟨2, 0⟩, some ⟨3, 0⟩] ∧ (returned pages).Nodup := by
  have hok := eq_ok_okValue (pageOfOne [1, 2, 3, 4] ⟨4, 0⟩) (by decide +kernel)
  have hok' := eq_ok_okValue (pageOfOne [2, 3, 4, 5] ⟨3, 0⟩) (by decide +kernel)
  have hasked := PagingLoop.start.request 1 [] _ ⟨3, 0⟩ hok (by decide +kernel) (by decide +kernel)
    (by decide +kernel)
  have hscrolled := hasked.scroll (numberedEngine [2, 3, 4, 5])
    ⟨⟨[⟨5, 0⟩], 1, by decide +kernel, by decide +kernel⟩, by decide +kernel, by decide +kernel⟩
  have hends := PagingEnds.last hscrolled 1 [] _ hok' (by decide +kernel) (by decide +kernel)
  have hstarts : PagingStarts (numberedEngine [1, 2, 3, 4]) ⟨4, 0⟩ := ⟨by decide, by decide⟩
  exact ⟨_, _, hends, by decide +kernel, ((history_paging_complete hstarts).2 _ _ hends).1⟩

end TerminalEngine

end

end AstraShell.Engine
