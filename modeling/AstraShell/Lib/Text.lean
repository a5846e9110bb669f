import Mathlib.Data.List.DropRight
import Mathlib.Data.String.Basic

/-!
# Text

Text as a list of characters, with the operations of Rust's `str` on white space and lines: `trim`,
`words` (`split_whitespace`) and `lines`. What a line says does not depend on the white space around
its words (`words_trim`), and text that ends with a line break is its lines, one after the other
(`lines_append_newline`).
-/

set_option autoImplicit false

namespace AstraShell.Lib

abbrev Text : Type := List Char

namespace Text

/-- The characters with the Unicode property White_Space. -/
def isWhitespace (c : Char) : Bool :=
  (9 ≤ c.toNat ∧ c.toNat ≤ 13) ∨ c.toNat = 0x20 ∨ c.toNat = 0x85 ∨ c.toNat = 0xA0 ∨
    c.toNat = 0x1680 ∨ (0x2000 ≤ c.toNat ∧ c.toNat ≤ 0x200A) ∨ c.toNat = 0x2028 ∨
    c.toNat = 0x2029 ∨ c.toNat = 0x202F ∨ c.toNat = 0x205F ∨ c.toNat = 0x3000

/-- The characters of the general category Cc. -/
def isControl (c : Char) : Bool := c.toNat ≤ 0x1F ∨ (0x7F ≤ c.toNat ∧ c.toNat ≤ 0x9F)

def isNewline (c : Char) : Bool := c == '\n'

def toAsciiLowercase (c : Char) : Char :=
  if 65 ≤ c.toNat ∧ c.toNat ≤ 90 then Char.ofNat (c.toNat + 32) else c

def trim (t : Text) : Text := (t.dropWhile isWhitespace).rdropWhile isWhitespace

/-- The maximal runs of characters that are not white space. -/
def words (t : Text) : List Text := (t.splitOnP isWhitespace).filter fun word => word ≠ []

/-- A carriage return before the line break belongs to the break. -/
def stripReturn (line : Text) : Text := if line.getLast? = some '\r' then line.dropLast else line

/-- The parts between line breaks; after the last break there is only a line if it is not empty. -/
def lines (t : Text) : List Text :=
  let parts := t.splitOnP isNewline
  parts.dropLast.map stripReturn ++ (parts.getLast?.toList.filter fun line => line ≠ [])

/-- What holds of every character of a text is decided by going through the text, not through all
characters. -/
instance (priority := high) decidableForallMem (t : Text) (p : Char → Prop) [DecidablePred p] :
    Decidable (∀ c ∈ t, p c) :=
  List.decidableBAll p t

/-- What holds of every character of a fixed text is checked by going through the text. -/
theorem forall_of_all {t : Text} {p : Char → Prop} [DecidablePred p]
    (h : (t.all fun c => decide (p c)) = true) : ∀ c ∈ t, p c :=
  fun c hc => of_decide_eq_true (List.all_eq_true.1 h c hc)

/-- The parts of a text have the characters of the text that separate nothing. -/
theorem mem_of_mem_splitOnP {p : Char → Bool} {t part : Text} (hpart : part ∈ t.splitOnP p)
    {c : Char} (hc : c ∈ part) : c ∈ t ∧ p c = false := by
  induction t generalizing part with
  | nil =>
    rw [List.splitOnP_nil, List.mem_singleton] at hpart
    subst hpart
    cases hc
  | cons x t ih =>
    rw [List.splitOnP_cons_eq_if_modifyHead] at hpart
    split at hpart
    · rcases List.mem_cons.1 hpart with rfl | hpart
      · cases hc
      · exact (ih hpart hc).imp_left (List.mem_cons_of_mem x)
    next hx =>
      obtain ⟨first, parts, hparts⟩ := List.exists_cons_of_ne_nil (List.splitOnP_ne_nil p t)
      rw [hparts] at ih hpart
      rcases List.mem_cons.1 hpart with rfl | hpart
      · rcases List.mem_cons.1 hc with rfl | hc
        · exact ⟨List.mem_cons_self, by simpa using hx⟩
        · exact (ih List.mem_cons_self hc).imp_left (List.mem_cons_of_mem x)
      · exact (ih (List.mem_cons_of_mem _ hpart) hc).imp_left (List.mem_cons_of_mem x)

/-! ## Words -/

theorem words_append (a b : Text) {c : Char} (hc : isWhitespace c = true) :
    words (a ++ c :: b) = words a ++ words b := by
  rw [words, List.splitOnP_append_cons _ _ hc, List.filter_append]
  rfl

@[simp] theorem words_nil : words [] = [] := rfl

theorem words_of_solid {t : Text} (h : ∀ c ∈ t, isWhitespace c = false) (hne : t ≠ []) :
    words t = [t] := by
  rw [words, List.splitOnP_eq_singleton, List.filter_cons_of_pos (by simpa using hne)]
  · rfl
  · intro c hc
    simp [h c hc]

theorem words_dropWhile (t : Text) : words (t.dropWhile isWhitespace) = words t := by
  induction t with
  | nil => rfl
  | cons c t ih =>
    rw [List.dropWhile_cons]
    split
    next hc =>
      rw [ih]
      exact (words_append [] t hc).symm
    next => rfl

theorem words_rdropWhile (t : Text) : words (t.rdropWhile isWhitespace) = words t := by
  induction t using List.reverseRecOn with
  | nil => rfl
  | append_singleton t c ih =>
    rw [List.rdropWhile_concat]
    split
    next hc =>
      rw [ih, words_append t [] hc, words_nil, List.append_nil]
    next => rfl

theorem words_trim (t : Text) : words (trim t) = words t := by
  rw [trim, words_rdropWhile, words_dropWhile]

/-! ## Lines -/

/-- Text that ends with a line break. -/
theorem lines_append_newline (t : Text) :
    lines (t ++ ['\n']) = (t.splitOnP isNewline).map stripReturn := by
  rw [lines, List.splitOnP_append_cons t [] (by decide), List.splitOnP_nil]
  simp

theorem splitOnP_of_unterminated {t : Text} (hne : t ≠ []) (hlast : t.getLast? ≠ some '\n') :
    ∃ init last, t.splitOnP isNewline = init ++ [last] ∧ last ≠ [] := by
  induction t with
  | nil => exact absurd rfl hne
  | cons c t ih =>
    rw [List.splitOnP_cons_eq_if_modifyHead]
    by_cases ht : t = []
    · subst ht
      have hc : isNewline c = false := by
        rw [isNewline, beq_eq_false_iff_ne]
        rintro rfl
        exact hlast rfl
      refine ⟨[], [c], ?_, List.cons_ne_nil _ _⟩
      rw [hc]
      rfl
    · rw [List.getLast?_cons_of_ne_nil ht] at hlast
      obtain ⟨init, last, hsplit, hlastne⟩ := ih ht hlast
      rw [hsplit]
      split
      · exact ⟨[] :: init, last, rfl, hlastne⟩
      · cases init with
        | nil => exact ⟨[], c :: last, rfl, List.cons_ne_nil _ _⟩
        | cons first init => exact ⟨(c :: first) :: init, last, rfl, hlastne⟩

/-- A line break behind the last line only takes away a carriage return. -/
theorem lines_of_unterminated {t : Text} (hne : t ≠ []) (hlast : t.getLast? ≠ some '\n') :
    ∃ (init : List Text) (last : Text), lines t = init.map stripReturn ++ [last] ∧
      lines (t ++ ['\n']) = init.map stripReturn ++ [stripReturn last] := by
  obtain ⟨init, last, hsplit, hlastne⟩ := splitOnP_of_unterminated hne hlast
  refine ⟨init, last, ?_, ?_⟩
  · rw [lines, hsplit]
    simp [hlastne]
  · rw [lines_append_newline, hsplit, List.map_append]
    rfl

/-- The lines before and after a line break. -/
theorem lines_append (t rest : Text) :
    lines (t ++ '\n' :: rest) = lines (t ++ ['\n']) ++ lines rest := by
  rw [lines_append_newline, lines, List.splitOnP_append_cons t rest (by decide)]
  have hne : rest.splitOnP isNewline ≠ [] := List.splitOnP_ne_nil _ _
  rw [lines]
  simp [List.dropLast_append_of_ne_nil hne, List.getLast?_append_of_ne_nil _ hne]

theorem utf8Len_of_ascii {cs : List Char} (h : ∀ c ∈ cs, c.utf8Size = 1) :
    String.utf8Len cs = cs.length := by
  induction cs with
  | nil => rfl
  | cons c cs ih =>
    rw [String.utf8Len, ih fun d hd => h d (List.mem_cons_of_mem c hd), h c List.mem_cons_self,
      List.length_cons]

end Text

end AstraShell.Lib
