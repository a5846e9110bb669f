import AstraShell.Lib.Text
import Mathlib.Data.List.Basic
import Mathlib.Data.List.Chain

/-!
# Control sequences in a stream of text

What a terminal makes of the characters it receives: `split` cuts them into control sequences
(escape sequences, control sequences with parameters, operating system commands) and runs of text.
A stream that was written sequence by sequence is read back as the same sequences
(`Block.split`), provided that each is well formed and that no two runs of text meet.

Numbers are written in decimal, as parameters of a control sequence are.
-/

set_option autoImplicit false

namespace AstraShell.Lib

namespace Escape

/-- The character that starts every sequence. -/
def esc : Char := '\x1b'

/-- A parameter or an intermediate character of a control sequence. -/
def isParameter (c : Char) : Bool := 0x20 ≤ c.toNat ∧ c.toNat ≤ 0x3F

/-- The character that ends a control sequence and names its function. -/
def isFinal (c : Char) : Bool := 0x40 ≤ c.toNat ∧ c.toNat ≤ 0x7E

/-- One unit of a stream. -/
inductive Token where
  /-- Characters to print. -/
  | text (chars : Text)
  /-- A control character of its own. -/
  | control (c : Char)
  /-- An escape and one character. -/
  | escape (c : Char)
  /-- A control sequence. -/
  | csi (parameters : Text) (final : Char)
  /-- An operating system command. -/
  | osc (body : Text)
  deriving DecidableEq

namespace Token

/-- The characters of the unit. -/
def encode : Token → Text
  | text chars => chars
  | control c => [c]
  | escape c => [esc, c]
  | csi parameters final => esc :: '[' :: (parameters ++ [final])
  | osc body => esc :: ']' :: (body ++ [esc, '\\'])

/-- The unit can be told apart from what stands around it. -/
def WellFormed : Token → Prop
  | text chars => chars ≠ [] ∧ ∀ c ∈ chars, Text.isControl c = false
  | control c => Text.isControl c = true ∧ c ≠ esc
  | escape c => c ≠ '[' ∧ c ≠ ']'
  | csi parameters final => (∀ c ∈ parameters, isParameter c = true) ∧ isFinal final = true
  | osc body => ∀ c ∈ body, Text.isControl c = false

instance (t : Token) : Decidable t.WellFormed := by
  cases t <;> unfold WellFormed <;> infer_instance

def isText : Token → Bool
  | text _ => true
  | _ => false

end Token

/-! ## Reading -/

/-- What has been read of the unit that is not complete. -/
inductive Phase where
  | ground (chars : Text)
  | escape
  | csi (parameters : Text)
  | osc (body : Text)
  /-- An escape inside an operating system command. -/
  | oscEscape (body : Text)

/-- The text read so far, as a unit. -/
def flush (chars : Text) : List Token := if chars = [] then [] else [.text chars]

/-- The character after an escape. -/
def escaped (c : Char) : Phase × List Token :=
  if c = '[' then (.csi [], [])
  else if c = ']' then (.osc [], [])
  else (.ground [], [.escape c])

/-- Reading one character, with the units it completes. -/
def Phase.step : Phase → Char → Phase × List Token
  | .ground chars, c =>
    if c = esc then (.escape, flush chars)
    else if Text.isControl c then (.ground [], flush chars ++ [.control c])
    else (.ground (chars ++ [c]), [])
  | .escape, c => escaped c
  | .csi parameters, c =>
    if isFinal c then (.ground [], [.csi parameters c])
    -- An escape abandons the sequence and starts another one.
    else if c = esc then (.escape, [])
    else (.csi (parameters ++ [c]), [])
  | .osc body, c =>
    if c = esc then (.oscEscape body, [])
    -- Any other control character ends the command.
    else if Text.isControl c then (.ground [], [.osc body])
    else (.osc (body ++ [c]), [])
  | .oscEscape body, c =>
    if c = '\\' then (.ground [], [.osc body])
    else ((escaped c).1, .osc body :: (escaped c).2)

/-- The stream ends; an incomplete sequence is dropped. -/
def Phase.finish : Phase → List Token
  | .ground chars => flush chars
  | _ => []

def splitFrom : Phase → Text → List Token
  | p, [] => p.finish
  | p, c :: cs => (p.step c).2 ++ splitFrom (p.step c).1 cs

/-- The units of a stream. -/
def split (stream : Text) : List Token := splitFrom (.ground []) stream

example : split "ab\x1b[1;2Hc\x1b]8;;u\x1b\\".toList =
    [.text "ab".toList, .csi "1;2".toList 'H', .text "c".toList, .osc "8;;u".toList] := by decide

/-! ## Reading what was written -/

theorem isControl_esc : Text.isControl esc = true := by decide

variable {c : Char}

theorem ne_esc_of_not_isControl (h : Text.isControl c = false) : c ≠ esc := by
  rintro rfl
  rw [isControl_esc] at h
  cases h

theorem isFinal_of_isParameter (h : isParameter c = true) : isFinal c = false := by
  simp only [isParameter, isFinal, decide_eq_true_eq, decide_eq_false_iff_not] at h ⊢
  omega

theorem ne_esc_of_isParameter (h : isParameter c = true) : c ≠ esc := by
  rintro rfl
  revert h
  decide

/-- Characters that only lengthen the unit collect. -/
theorem splitFrom_collect {phase : Text → Phase} {chars : Text}
    (h : ∀ c ∈ chars, ∀ before, (phase before).step c = (phase (before ++ [c]), []))
    (before rest : Text) :
    splitFrom (phase before) (chars ++ rest) = splitFrom (phase (before ++ chars)) rest := by
  induction chars generalizing before with
  | nil => simp
  | cons c chars ih =>
    obtain ⟨hc, hchars⟩ := List.forall_mem_cons.1 h
    simp [splitFrom, hc, ih hchars]

theorem splitFrom_text {chars : Text} (h : ∀ c ∈ chars, Text.isControl c = false) :
    ∀ before rest, splitFrom (.ground before) (chars ++ rest) =
      splitFrom (.ground (before ++ chars)) rest :=
  splitFrom_collect fun c hc _ => by simp [Phase.step, ne_esc_of_not_isControl (h c hc), h c hc]

theorem splitFrom_parameters {parameters : Text} (h : ∀ c ∈ parameters, isParameter c = true) :
    ∀ before rest, splitFrom (.csi before) (parameters ++ rest) =
      splitFrom (.csi (before ++ parameters)) rest :=
  splitFrom_collect fun c hc _ => by
    simp [Phase.step, isFinal_of_isParameter (h c hc), ne_esc_of_isParameter (h c hc)]

theorem splitFrom_body {body : Text} (h : ∀ c ∈ body, Text.isControl c = false) :
    ∀ before rest, splitFrom (.osc before) (body ++ rest) =
      splitFrom (.osc (before ++ body)) rest :=
  splitFrom_collect fun c hc _ => by simp [Phase.step, ne_esc_of_not_isControl (h c hc), h c hc]

/-- A sequence is read as what was written, after the text before it. -/
theorem splitFrom_encode {t : Token} (wf : t.WellFormed) (ht : t.isText = false)
    (before rest : Text) :
    splitFrom (.ground before) (t.encode ++ rest) =
      flush before ++ t :: splitFrom (.ground []) rest := by
  cases t with
  | text chars => cases ht
  | control c => simp [Token.encode, splitFrom, Phase.step, wf.2, wf.1]
  | escape c => simp [Token.encode, splitFrom, Phase.step, escaped, wf.1, wf.2]
  | csi parameters final =>
    simp [Token.encode, splitFrom, Phase.step, escaped, splitFrom_parameters wf.1, wf.2]
  | osc body =>
    simp [Token.encode, splitFrom, Phase.step, escaped, splitFrom_body wf]

/-- No run of text is next to another one. -/
def Separated (ts : List Token) : Prop := ts.IsChain fun a b => a.isText = true → b.isText = false

variable {ts : List Token}

theorem splitFrom_flatMap_encode (wf : ∀ t ∈ ts, t.WellFormed)
    (sep : Separated ts) (before : Text)
    (hbefore : before ≠ [] → ∀ t ∈ ts.head?, t.isText = false) :
    splitFrom (.ground before) (ts.flatMap Token.encode) = flush before ++ ts := by
  -- The text read before is completed by the first sequence, so only text first needs none before
  -- it.
  induction ts generalizing before with
  | nil => simp [splitFrom, Phase.finish]
  | cons t ts ih =>
    obtain ⟨ht, hts⟩ := List.forall_mem_cons.1 wf
    have hsep : Separated ts := sep.tail
    rw [List.flatMap_cons]
    cases htext : t.isText with
    | false =>
      rw [splitFrom_encode ht htext, ih hts hsep [] (by simp)]
      simp [flush]
    | true =>
      cases t with
      | text chars =>
        have hnil : before = [] := by
          by_contra hne
          have := hbefore hne _ rfl
          cases this
        subst hnil
        rw [Token.encode, splitFrom_text ht.2, ih hts hsep]
        · simp [flush, ht.1]
        · intro _ next hnext
          cases ts with
          | nil => cases hnext
          | cons u us =>
            cases hnext
            exact (List.isChain_cons_cons.1 sep).1 rfl
      | _ => cases htext

/-! ## Units one after the other -/

/-- The units are well formed and kept apart, and the first is not text: they can follow anything.
-/
structure Block (ts : List Token) : Prop where
  wf : ∀ t ∈ ts, t.WellFormed
  separated : Separated ts
  head : ∀ t ∈ ts.head?, t.isText = false

theorem Block.nil : Block [] := ⟨by simp, List.isChain_nil, by simp⟩

/-- Sequences without text. -/
theorem Block.of_sequences (h : ∀ t ∈ ts, t.WellFormed ∧ t.isText = false) : Block ts where
  wf := fun t ht => (h t ht).1
  separated := by
    induction ts with
    | nil => exact List.isChain_nil
    | cons t ts ih =>
      obtain ⟨ht, hts⟩ := List.forall_mem_cons.1 h
      refine List.isChain_cons.2 ⟨fun u _ htext => ?_, ih hts⟩
      rw [ht.2] at htext
      cases htext
  head := fun t ht => (h t (List.mem_of_mem_head? ht)).2

/-- Text may stand after a sequence. -/
theorem Block.append_text {chars : Text} (hne : ts ≠ [])
    (h : ∀ t ∈ ts, t.WellFormed ∧ t.isText = false) (wf : (Token.text chars).WellFormed) :
    Block (ts ++ [.text chars]) where
  wf := List.forall_mem_append.2 ⟨fun t ht => (h t ht).1, by simpa using wf⟩
  separated := by
    refine List.isChain_append.2 ⟨(Block.of_sequences h).separated, List.isChain_singleton _, ?_⟩
    intro t ht u _ htext
    rw [(h t (List.mem_of_getLast? ht)).2] at htext
    cases htext
  head := by
    intro t ht
    obtain ⟨u, us, rfl⟩ := List.exists_cons_of_ne_nil hne
    exact (h t (List.mem_of_mem_head? ht)).2

theorem Block.append {as bs : List Token} (ha : Block as) (hb : Block bs) : Block (as ++ bs) where
  wf := List.forall_mem_append.2 ⟨ha.wf, hb.wf⟩
  separated := List.isChain_append.2
    ⟨ha.separated, hb.separated, fun _ _ b hbmem _ => hb.head b hbmem⟩
  head := by
    intro t ht
    cases as with
    | nil => exact hb.head t ht
    | cons a as => exact ha.head t ht

theorem Block.flatMap {α : Type} {f : α → List Token} {xs : List α}
    (h : ∀ x ∈ xs, Block (f x)) : Block (xs.flatMap f) := by
  induction xs with
  | nil => exact Block.nil
  | cons x xs ih =>
    obtain ⟨hx, hxs⟩ := List.forall_mem_cons.1 h
    rw [List.flatMap_cons]
    exact hx.append (ih hxs)

/-- A stream written unit by unit is read as these units. -/
theorem Block.split (h : Block ts) : split (ts.flatMap Token.encode) = ts := by
  rw [Escape.split, splitFrom_flatMap_encode h.wf h.separated [] (fun h => absurd rfl h)]
  simp [flush]

/-! ## Decimal numbers -/

/-- A number in decimal. -/
def decimal (n : Nat) : Text := Nat.toDigits 10 n

/-- The number that decimal digits stand for. -/
def readDecimal (digits : Text) : Nat := Nat.ofDigitChars 10 digits 0

@[simp] theorem readDecimal_decimal (n : Nat) : readDecimal (decimal n) = n :=
  Nat.ofDigitChars_toDigits (by decide) (by decide)

variable {n : Nat}

theorem isDigit_of_mem_decimal (h : c ∈ decimal n) : c.isDigit = true :=
  Nat.isDigit_of_mem_toDigits (by decide) (by decide) h

theorem isParameter_of_isDigit (h : c.isDigit = true) : isParameter c = true := by
  simp only [Char.isDigit, Bool.and_eq_true, decide_eq_true_eq] at h
  have hlo : (48 : Nat) ≤ c.toNat := h.1
  have hhi : c.toNat ≤ 57 := h.2
  simp only [isParameter, decide_eq_true_eq]
  omega

/-- The numbers between semicolons. -/
def readNumbers (parameters : Text) : List Nat :=
  (parameters.splitOnP (· == ';')).map readDecimal

theorem not_semicolon_of_mem_decimal (h : c ∈ decimal n) : (c == ';') = false := by
  rw [beq_eq_false_iff_ne]
  rintro rfl
  have := isDigit_of_mem_decimal h
  revert this
  decide

theorem readNumbers_decimal (n : Nat) : readNumbers (decimal n) = [n] := by
  rw [readNumbers, List.splitOnP_eq_singleton]
  · simp
  · intro c hc
    simp [not_semicolon_of_mem_decimal hc]

theorem readNumbers_cons (n : Nat) (rest : Text) :
    readNumbers (decimal n ++ ';' :: rest) = n :: readNumbers rest := by
  rw [readNumbers, List.splitOnP_append_cons _ _ (by decide), List.map_append]
  have hn : (decimal n).splitOnP (· == ';') = [decimal n] := by
    rw [List.splitOnP_eq_singleton]
    intro c hc
    simp [not_semicolon_of_mem_decimal hc]
  rw [hn]
  simp [readNumbers]

end Escape

end AstraShell.Lib
