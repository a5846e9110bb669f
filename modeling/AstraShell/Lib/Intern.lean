import Mathlib.Data.List.Infix
import Mathlib.Data.List.Nodup
import AstraShell.Lib.Checked

/-!
# Numbering tables

A table numbers keys from one on, in the order in which they are first asked for, up to a limit. It
is the list of its keys, so the number of a key is its place; a program usually keeps a map from
keys to numbers and a vector of entries, and both can be read off the list.

A computation that goes through a list and passes a table on is `traverse`. What it gives at one
element is stated with a relation that survives later additions to the table, and then holds for the
whole list and the final table (`traverse_forall₂`).
-/

set_option autoImplicit false

namespace AstraShell.Lib

universe u

/-- A table: distinct keys, in the order of their numbers. -/
structure Intern (κ : Type u) where
  keys : List κ
  nodup : keys.Nodup

namespace Intern

variable {κ : Type u}

def empty : Intern κ := ⟨[], List.nodup_nil⟩

instance : Inhabited (Intern κ) := ⟨empty⟩

/-- The key with a number. -/
def key? (t : Intern κ) (id : ℕ) : Option κ :=
  match id with
  | 0 => none
  | i + 1 => t.keys[i]?

@[simp] theorem key?_succ (t : Intern κ) (i : ℕ) : t.key? (i + 1) = t.keys[i]? := rfl

/-- The entries of the table, made from number and key. -/
def entries {ε : Type u} (entry : ℕ → κ → ε) (t : Intern κ) : List ε :=
  t.keys.mapIdx fun i k => entry (i + 1) k

/-- The entry with a number is the one of its key. -/
theorem find?_entries {ε : Type u} {entry : ℕ → κ → ε} {idOf : ε → ℕ}
    (hid : ∀ i k, idOf (entry i k) = i) (t : Intern κ) (id : ℕ) :
    (t.entries entry).find? (fun e => idOf e = id) = (t.key? id).map (entry id) := by
  have hget : ∀ i, (t.entries entry)[i]? = t.keys[i]?.map (entry (i + 1)) := by
    intro i
    rw [entries, List.getElem?_mapIdx]
  cases hkey : t.key? id with
  | none =>
    -- An entry with this number would stand at a place where there is a key.
    refine List.find?_eq_none.2 fun e he => ?_
    obtain ⟨i, hi⟩ := List.getElem?_of_mem he
    rw [hget, Option.map_eq_some_iff] at hi
    obtain ⟨k, hk, rfl⟩ := hi
    rw [decide_eq_true_eq, hid]
    rintro rfl
    rw [key?_succ, hk] at hkey
    cases hkey
  | some k =>
    cases id with
    | zero => cases hkey
    | succ i =>
      rw [key?_succ] at hkey
      refine List.find?_eq_some_iff_getElem.2 ⟨by simp [hid], ?_⟩
      have hentry : (t.entries entry)[i]? = some (entry (i + 1) k) := by rw [hget, hkey]; rfl
      obtain ⟨hbound, heq⟩ := List.getElem?_eq_some_iff.1 hentry
      refine ⟨i, hbound, heq, fun j hj => ?_⟩
      have hlt : j < (t.entries entry).length := hj.trans hbound
      have hj' := List.getElem?_eq_getElem hlt
      rw [hget, Option.map_eq_some_iff] at hj'
      obtain ⟨k', -, hk'⟩ := hj'
      rw [← hk', hid]
      simp
      omega

/-- A table that may have been added to. -/
def Extends (t' t : Intern κ) : Prop := t.keys <+: t'.keys

theorem Extends.refl (t : Intern κ) : t.Extends t := List.prefix_rfl

/-- Numbers stay what they are. -/
theorem Extends.key? {t t' : Intern κ} (h : t'.Extends t) {id : ℕ} {k : κ}
    (hk : t.key? id = some k) : t'.key? id = some k := by
  cases id with
  | zero => cases hk
  | succ i =>
    rw [key?_succ] at hk ⊢
    obtain ⟨rest, hrest⟩ := h
    have hbound : i < t.keys.length := (List.getElem?_eq_some_iff.1 hk).1
    rw [← hrest, List.getElem?_append_left hbound]
    exact hk

/-- A table with one more key. -/
def add (t : Intern κ) (k : κ) (h : k ∉ t.keys) : Intern κ :=
  ⟨t.keys ++ [k], List.Nodup.append t.nodup (by simp) (by simpa using h)⟩

section Number

variable {limit : ℕ} {message : String} {t t' : Intern κ} {k : κ} {id : ℕ}

/-- The number of a key, and the table in which it has that number. -/
def number [DecidableEq κ] (limit : ℕ) (message : String) (t : Intern κ) (k : κ) :
    Except String (ℕ × Intern κ) :=
  if h : k ∈ t.keys then .ok (t.keys.idxOf k + 1, t)
  else if t.keys.length < limit then .ok (t.keys.length + 1, t.add k h)
  else .error message

/-- Everything `number` can do. -/
inductive Numbers (limit : ℕ) (t : Intern κ) (k : κ) : ℕ → Intern κ → Prop
  | known (i : ℕ) (hget : t.keys[i]? = some k) : Numbers limit t k (i + 1) t
  | added (t' : Intern κ) (hnew : k ∉ t.keys) (hroom : t.keys.length < limit)
      (hkeys : t'.keys = t.keys ++ [k]) : Numbers limit t k (t.keys.length + 1) t'

theorem number_cases [DecidableEq κ] (h : number limit message t k = .ok (id, t')) :
    Numbers limit t k id t' := by
  unfold number at h
  split at h
  next hmem =>
    cases h
    exact .known _ (List.getElem?_idxOf hmem)
  next hnew =>
    split at h
    next hroom =>
      cases h
      exact .added _ hnew hroom rfl
    next => cases h

theorem Numbers.extends (h : Numbers limit t k id t') : t'.Extends t := by
  cases h with
  | known => exact .refl t
  | added t' _ _ hkeys =>
    rw [Extends, hkeys]
    exact List.prefix_append _ _

theorem Numbers.key? (h : Numbers limit t k id t') : t'.key? id = some k := by
  cases h with
  | known i hget => exact hget
  | added t' _ _ hkeys =>
    rw [key?_succ, hkeys]
    exact List.getElem?_concat_length

end Number

end Intern

/-! ## Traversals -/

section Traverse

universe v

variable {ε σ α β : Type v}

/-- A list is gone through with a state; the first failure is the result. -/
def traverse (f : σ → α → Except ε (β × σ)) : σ → List α → Except ε (List β × σ)
  | s, [] => .ok ([], s)
  | s, a :: as => do
    let (b, s) ← f s a
    let (bs, s) ← traverse f s as
    return (b :: bs, s)

/-- What `f` gives at each element holds of the whole list, when the relation survives what the
later elements do to the state. -/
theorem traverse_forall₂ {f : σ → α → Except ε (β × σ)} (le : σ → σ → Prop) (R : σ → α → β → Prop)
    (hrefl : ∀ s : σ, le s s) (htrans : ∀ {s s' s'' : σ}, le s s' → le s' s'' → le s s'')
    (hR : ∀ {s s' : σ} {a : α} {b : β}, le s s' → R s a b → R s' a b)
    (hf : ∀ {s : σ} {a : α} {b : β} {s' : σ}, f s a = .ok (b, s') → le s s' ∧ R s' a b) {s s' : σ}
    {as : List α} {bs : List β} (h : traverse f s as = .ok (bs, s')) :
    le s s' ∧ List.Forall₂ (R s') as bs := by
  induction as generalizing s bs with
  | nil =>
    cases h
    exact ⟨hrefl _, .nil⟩
  | cons a as ih =>
    obtain ⟨⟨b, s₁⟩, hfirst, hrest⟩ := bind_eq_ok_iff.1 h
    obtain ⟨⟨bs', s₂⟩, htail, hpure⟩ := bind_eq_ok_iff.1 hrest
    cases hpure
    obtain ⟨hle, hab⟩ := hf hfirst
    obtain ⟨hle', hall⟩ := ih htail
    exact ⟨htrans hle hle', .cons (hR hle' hab) hall⟩

end Traverse

end AstraShell.Lib
