import Mathlib.Data.List.Infix
import Mathlib.Order.Lattice

/-!
# Paging backwards through a log that changes

A log is a strictly increasing list. New elements come at its end, and its oldest elements may be
dropped at any time. A reader starts at some position and asks for the last `n` elements before it,
then for those before the first element it was given, and so on until it is told that there are no
more.

What the reader has collected is always a final segment of what was before its first position
(`Reading.Inv`). So it never gets an element twice, it makes at most one request per element, and
when it ends it has everything that is still there (`Finished.complete`).
-/

set_option autoImplicit false

namespace AstraShell.Lib

universe u

variable {α : Type u} [LinearOrder α]

/-- The elements of a log before a position. -/
def older (log : List α) (before : α) : List α := log.filter fun x => x < before

/-- The last `n` elements before a position, and whether there are earlier ones. -/
def pageBefore (log : List α) (before : α) (n : ℕ) : List α × Bool :=
  ((older log before).drop ((older log before).length - n), decide (n < (older log before).length))

/-! ## Sorted lists -/

variable {log : List α}

theorem older_eq_nil {a : α} (h : ∀ x ∈ log, a ≤ x) : older log a = [] := by
  refine List.filter_eq_nil_iff.2 fun x hx => ?_
  simpa using h x hx

theorem older_append (log new : List α) (a : α) :
    older (log ++ new) a = older log a ++ older new a :=
  List.filter_append ..

/-- The elements before a position come first. -/
theorem older_drop (h : log.Pairwise (· < ·)) (a : α) (k : ℕ) :
    older (log.drop k) a = (older log a).drop k := by
  induction log generalizing k with
  | nil => simp [older]
  | cons x log ih =>
    obtain ⟨hfirst, hlog⟩ := List.pairwise_cons.1 h
    cases k with
    | zero => rfl
    | succ k =>
      rw [List.drop_succ_cons, ih hlog]
      by_cases hx : x < a
      · have hcons : older (x :: log) a = x :: older log a := List.filter_cons_of_pos (by simpa)
        rw [hcons, List.drop_succ_cons]
      · -- Nothing is before the position.
        have hle : ∀ y ∈ x :: log, a ≤ y := by
          intro y hy
          rcases List.mem_cons.1 hy with rfl | hy
          · exact not_lt.1 hx
          · exact (not_lt.1 hx).trans (hfirst y hy).le
        rw [older_eq_nil hle, older_eq_nil fun y hy => hle y (List.mem_cons_of_mem _ hy)]
        simp

/-- The elements before the one at an index are those at the smaller indices. -/
theorem older_getElem (h : log.Pairwise (· < ·)) {i : ℕ} {a : α}
    (ha : log[i]? = some a) : older log a = log.take i := by
  induction log generalizing i with
  | nil => cases ha
  | cons x log ih =>
    obtain ⟨hfirst, hlog⟩ := List.pairwise_cons.1 h
    cases i with
    | zero =>
      cases ha
      refine older_eq_nil fun y hy => ?_
      rcases List.mem_cons.1 hy with rfl | hy
      · exact le_rfl
      · exact (hfirst y hy).le
    | succ i =>
      have hmem : a ∈ log := List.mem_of_getElem? ha
      have hcons : older (x :: log) a = x :: older log a :=
        List.filter_cons_of_pos (by simpa using hfirst a hmem)
      rw [hcons, ih hlog ha, List.take_succ_cons]

theorem older_older {a b : α} (h : a ≤ b) : older (older log b) a = older log a := by
  rw [older, older, List.filter_filter]
  refine List.filter_congr fun x _ => ?_
  have himp : x < a → x < b := fun hx => hx.trans_le h
  simpa using himp

theorem pairwise_older (h : log.Pairwise (· < ·)) (a : α) :
    (older log a).Pairwise (· < ·) := h.filter _

/-- A search for the first element that is not before a position. -/
theorem take_findIdx_eq_older (h : log.Pairwise (· < ·)) (a : α) :
    log.take (log.findIdx fun x => a ≤ x) = older log a := by
  induction log with
  | nil => rfl
  | cons x log ih =>
    obtain ⟨hfirst, hlog⟩ := List.pairwise_cons.1 h
    rw [List.findIdx_cons]
    by_cases hx : a ≤ x
    · have hle : ∀ y ∈ x :: log, a ≤ y := by
        intro y hy
        rcases List.mem_cons.1 hy with rfl | hy
        · exact hx
        · exact hx.trans (hfirst y hy).le
      rw [older_eq_nil hle]
      simp [hx]
    · have hcons : older (x :: log) a = x :: older log a :=
        List.filter_cons_of_pos (by simpa using hx)
      rw [hcons, ← ih hlog]
      simp [hx]

/-- What is left of a log still has an element at or after each that was there. -/
theorem exists_le_mem_drop (h : log.Pairwise (· < ·)) {x : α} (hx : x ∈ log) {k : ℕ}
    (hk : k < log.length) : ∃ y ∈ log.drop k, x ≤ y := by
  have hne : log ≠ [] := List.ne_nil_of_mem hx
  refine ⟨log.getLast hne, ?_, ?_⟩
  · have hdrop : log.drop k ≠ [] := by
      rw [ne_eq, List.drop_eq_nil_iff]
      omega
    rw [← List.getLast_drop hdrop]
    exact List.getLast_mem hdrop
  · rw [← List.dropLast_append_getLast hne] at hx h
    rcases List.mem_append.1 hx with hx | hx
    · exact ((List.pairwise_append.1 h).2.2 x hx _ (List.mem_singleton_self _)).le
    · exact (List.mem_singleton.1 hx).le

omit [LinearOrder α] in
/-- A segment and what comes after it. -/
theorem drop_take_append_drop (l : List α) {i j : ℕ} (h : i ≤ j) :
    (l.take j).drop i ++ l.drop j = l.drop i := by
  have hj : j = i + (j - i) := by omega
  rw [List.drop_take]
  nth_rewrite 2 [hj]
  rw [← List.drop_drop, List.take_append_drop]

/-! ## Readers -/

/-- The log after new elements came and old ones were dropped. -/
def Advances (log log' : List α) : Prop :=
  ∃ new k, (log ++ new).Pairwise (· < ·) ∧ log' = (log ++ new).drop k

/-- A reader that has got the pages, in this order, and next asks for what is before `before`. Its
first position never becomes newer than the whole log. -/
inductive Reading (n : ℕ) (log₀ : List α) (first : α) : List α → α → List (List α) → Prop
  | start : Reading n log₀ first log₀ first []
  | advance {log : List α} {before : α} {pages : List (List α)}
      (h : Reading n log₀ first log before pages)
      (log' : List α) (hadvances : Advances log log') (hfirst : ∃ x ∈ log', first ≤ x) :
      Reading n log₀ first log' before pages
  | page {log : List α} {before : α} {pages : List (List α)}
      (h : Reading n log₀ first log before pages)
      (page : List α) (before' : α) (hpage : pageBefore log before n = (page, true))
      (hbefore : page.head? = some before') : Reading n log₀ first log before' (pages ++ [page])

/-- A reader that was told that there is no more. -/
inductive Finished (n : ℕ) (log₀ : List α) (first : α) : List α → List (List α) → Prop
  | last {log : List α} {before : α} {pages : List (List α)}
      (h : Reading n log₀ first log before pages)
      (page : List α) (hpage : pageBefore log before n = (page, false)) :
      Finished n log₀ first log (pages ++ [page])

/-- Everything the reader has got, oldest first. -/
def collected (pages : List (List α)) : List α := pages.reverse.flatten

omit [LinearOrder α] in
theorem collected_append (pages : List (List α)) (page : List α) :
    collected (pages ++ [page]) = page ++ collected pages := by
  simp [collected]

namespace Reading

/-- Of what was before the first position, `dropped` have left the log, and the reader has all from
`missing` on. -/
structure Inv (log₀ : List α) (first : α) (log : List α) (before : α) (pages : List (List α))
    (dropped missing : ℕ) : Prop where
  sorted : log.Pairwise (· < ·)
  bounded : ∃ x ∈ log, first ≤ x
  before_le : before ≤ first
  missing_le : pages.length + missing ≤ (older log₀ first).length
  has : collected pages = (older log₀ first).drop missing
  retained : older log first = (older log₀ first).drop dropped
  remaining : older log before = ((older log₀ first).take missing).drop dropped

variable {n : ℕ} {log₀ log log' : List α} {first before before' : α} {pages : List (List α)}
  {dropped missing : ℕ}

section

variable (h : Inv log₀ first log before pages dropped missing)

include h

theorem Inv.advance (hadvances : Advances log log') (hfirst : ∃ x ∈ log', first ≤ x) :
    ∃ dropped, Inv log₀ first log' before pages dropped missing := by
  obtain ⟨new, k, hsorted, rfl⟩ := hadvances
  obtain ⟨x, hx, hle⟩ := h.bounded
  -- What is new is behind the first position.
  have hnew : ∀ a ≤ first, older new a = [] := by
    intro a ha
    refine older_eq_nil fun y hy => ha.trans (hle.trans ?_)
    exact ((List.pairwise_append.1 hsorted).2.2 x hx y hy).le
  have holder : ∀ a ≤ first, older ((log ++ new).drop k) a = (older log a).drop k := by
    intro a ha
    rw [older_drop hsorted, older_append, hnew a ha, List.append_nil]
  refine ⟨dropped + k, ?_⟩
  exact {
    sorted := hsorted.sublist (List.drop_sublist _ _)
    bounded := hfirst
    before_le := h.before_le
    missing_le := h.missing_le
    has := h.has
    retained := by rw [holder first le_rfl, h.retained, List.drop_drop]
    remaining := by rw [holder before h.before_le, h.remaining, List.drop_drop] }

/-- A page is the segment of what was before the first position that ends where the reader is. -/
theorem Inv.page_eq (n : ℕ) : (pageBefore log before n).1 =
      ((older log₀ first).take missing).drop (max dropped (missing - n)) := by
  have hmissing := h.missing_le
  rw [pageBefore, h.remaining, List.drop_drop]
  dsimp only
  congr 1
  simp only [List.length_drop, List.length_take]
  omega

theorem Inv.page {page : List α}
    (hlog₀ : log₀.Pairwise (· < ·)) (hpage : pageBefore log before n = (page, true))
    (hbefore : page.head? = some before') :
    ∃ missing, Inv log₀ first log before' (pages ++ [page]) dropped missing := by
  have hmissing := h.missing_le
  have hmore : n < missing - dropped := by
    have hdecide := congrArg Prod.snd hpage
    rw [pageBefore, decide_eq_true_eq, h.remaining, List.length_drop, List.length_take] at hdecide
    omega
  have hmax : max dropped (missing - n) = missing - n := by omega
  have hpage' : page = ((older log₀ first).take missing).drop (missing - n) := by
    rw [← hmax, ← h.page_eq n, hpage]
  -- The page is not empty, so it begins at an element that was missing.
  have hget : (older log₀ first)[missing - n]? = some before' ∧ missing - n < missing := by
    rw [hpage', List.head?_drop, List.getElem?_take] at hbefore
    split at hbefore
    next hlt => exact ⟨hbefore, hlt⟩
    next => cases hbefore
  have hlt : before' < first := by
    have hmem := List.mem_filter.1 (List.mem_of_getElem? hget.1)
    simpa using hmem.2
  have hsortedOlder := pairwise_older hlog₀ first
  refine ⟨missing - n, ?_⟩
  exact {
    sorted := h.sorted
    bounded := h.bounded
    before_le := hlt.le
    missing_le := by
      rw [List.length_append, List.length_singleton]
      omega
    has := by
      rw [collected_append, h.has, hpage', drop_take_append_drop _ (Nat.sub_le _ _)]
    retained := h.retained
    remaining := by
      have htake : older (older log₀ first) before' = (older log₀ first).take (missing - n) :=
        older_getElem hsortedOlder hget.1
      rw [← older_older hlt.le, h.retained, older_drop hsortedOlder, htake] }

end

section

variable (hlog₀ : log₀.Pairwise (· < ·)) (hfirst : ∃ x ∈ log₀, first ≤ x)
  (h : Reading n log₀ first log before pages)

include hlog₀ hfirst h

/-- The invariant along every reading. -/
theorem inv : ∃ dropped missing, Inv log₀ first log before pages dropped missing := by
  induction h with
  | start =>
    refine ⟨0, (older log₀ first).length, hlog₀, hfirst, le_rfl, ?_, ?_, rfl, ?_⟩
    · simp
    · simp [collected]
    · simp
  | advance _ log' hadvances hfirst' ih =>
    obtain ⟨dropped, missing, hinv⟩ := ih
    obtain ⟨dropped', hinv'⟩ := hinv.advance hadvances hfirst'
    exact ⟨dropped', missing, hinv'⟩
  | page _ page before' hpage hbefore ih =>
    obtain ⟨dropped, missing, hinv⟩ := ih
    obtain ⟨missing', hinv'⟩ := hinv.page hlog₀ hpage hbefore
    exact ⟨dropped, missing', hinv'⟩

/-- There are no more requests than elements before the first position. -/
theorem length_le : pages.length ≤ (older log₀ first).length := by
  obtain ⟨dropped, missing, hinv⟩ := h.inv hlog₀ hfirst
  have := hinv.missing_le
  omega

end

end Reading

/-- A reader that has finished has a final segment of what was before its first position, and
everything of it that is still in the log. -/
theorem Finished.complete {n : ℕ} {log₀ log : List α} {first : α} {pages : List (List α)}
    (hlog₀ : log₀.Pairwise (· < ·)) (hfirst : ∃ x ∈ log₀, first ≤ x)
    (h : Finished n log₀ first log pages) :
    collected pages <:+ older log₀ first ∧ older log first <:+ collected pages := by
  cases h with
  | @last before pages h page hpage =>
    obtain ⟨dropped, missing, hinv⟩ := h.inv hlog₀ hfirst
    have hmissing := hinv.missing_le
    have hall : (older log before).length ≤ n := by
      have hdecide := congrArg Prod.snd hpage
      rw [pageBefore, decide_eq_false_iff_not, not_lt] at hdecide
      exact hdecide
    -- The last page is everything that is still missing.
    have hpage' : page = ((older log₀ first).take missing).drop dropped := by
      have hfst := congrArg Prod.fst hpage
      rw [pageBefore, Nat.sub_eq_zero_of_le hall, List.drop_zero, hinv.remaining] at hfst
      exact hfst.symm
    have hcollected : collected (pages ++ [page]) =
        (older log₀ first).drop (min dropped missing) := by
      rw [collected_append, hinv.has, hpage']
      rcases le_total dropped missing with hle | hle
      · rw [min_eq_left hle, drop_take_append_drop _ hle]
      · rw [min_eq_right hle, List.drop_eq_nil_of_le (by rw [List.length_take]; omega),
          List.nil_append]
    rw [hcollected, hinv.retained]
    refine ⟨List.drop_suffix _ _, ?_⟩
    obtain ⟨k, hk⟩ := Nat.exists_eq_add_of_le (min_le_left dropped missing)
    generalize min dropped missing = m at hk ⊢
    rw [hk, ← List.drop_drop]
    exact List.drop_suffix _ _

end AstraShell.Lib
