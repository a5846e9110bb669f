import Mathlib.Algebra.Order.BigOperators.Group.List
import Mathlib.Algebra.Order.Ring.Nat
import Mathlib.Data.Finset.Card
import Mathlib.Order.Lattice

/-!
# Ordered maps

A finite map over a linear order, stored as its entries in strictly ascending key order. The order
is a field of the structure, so a map with two entries for one key cannot be built. Reading the
first key that satisfies a predicate gives the smallest such key (`firstKey?_eq_some_iff`), which
covers an ordered iteration, the start of a range, and a search over the keys.

`trim` is the loop that removes picked keys while the map is larger than a bound.
-/

set_option autoImplicit false

namespace AstraShell.Lib

universe u v

/-- A finite map whose entries are in strictly ascending key order. -/
structure OrdMap (κ : Type u) (ν : Type v) [LinearOrder κ] where
  entries : List (κ × ν)
  sorted : entries.Pairwise fun a b => a.1 < b.1

namespace OrdMap

variable {κ : Type u} {ν : Type v} [LinearOrder κ]

/-- The map without entries. -/
def empty : OrdMap κ ν := ⟨[], List.Pairwise.nil⟩

instance : Inhabited (OrdMap κ ν) := ⟨empty⟩

/-- The value stored under a key. -/
def get? (m : OrdMap κ ν) (k : κ) : Option ν :=
  (m.entries.find? fun e => decide (e.1 = k)).map Prod.snd

/-- The keys in ascending order. -/
def keys (m : OrdMap κ ν) : List κ := m.entries.map Prod.fst

/-- The number of entries. -/
def size (m : OrdMap κ ν) : Nat := m.entries.length

/-- The smallest key that satisfies `p`. -/
def firstKey? (m : OrdMap κ ν) (p : κ → Bool) : Option κ := m.keys.find? p

/-- Insertion into an ascending list, replacing the entry of an equal key. -/
def insertEntry (k : κ) (v : ν) : List (κ × ν) → List (κ × ν)
  | [] => [(k, v)]
  | e :: es =>
    if k < e.1 then (k, v) :: e :: es
    else if e.1 = k then (k, v) :: es
    else e :: insertEntry k v es

variable (m : OrdMap κ ν) (k : κ) (p : κ → Bool)

theorem mem_insertEntry_iff {k : κ} {v : ν} {es : List (κ × ν)}
    (h : es.Pairwise fun a b => a.1 < b.1) (x : κ × ν) :
    x ∈ insertEntry k v es ↔ x = (k, v) ∨ (x.1 ≠ k ∧ x ∈ es) := by
  -- The entry that is put in front of entries with other keys.
  have hfront : ∀ rest : List (κ × ν), (∀ y ∈ rest, y.1 ≠ k) →
      (x ∈ (k, v) :: rest ↔ x = (k, v) ∨ (x.1 ≠ k ∧ x ∈ rest)) := by
    intro rest hne
    rw [List.mem_cons]
    exact or_congr_right ⟨fun hx => ⟨hne x hx, hx⟩, And.right⟩
  induction es with
  | nil => simp [insertEntry]
  | cons e es ih =>
    obtain ⟨he, hes⟩ := List.pairwise_cons.1 h
    simp only [insertEntry]
    split
    · rename_i hlt
      apply hfront
      intro y hy
      rcases List.mem_cons.1 hy with rfl | hy
      · exact ne_of_gt hlt
      · exact ne_of_gt (lt_trans hlt (he y hy))
    · split
      · rename_i heq
        rw [hfront es fun y hy => heq ▸ ne_of_gt (he y hy)]
        refine or_congr_right (and_congr_right fun hxk => ?_)
        rw [List.mem_cons]
        exact ⟨.inr, fun hx => hx.resolve_left fun hxe => hxk (hxe ▸ heq)⟩
      · rename_i hne
        have hrest : x ∈ insertEntry k v es ↔ _ := ih hes
        rw [List.mem_cons, hrest, List.mem_cons]
        constructor
        · rintro (rfl | rfl | ⟨hxk, hx⟩)
          · exact .inr ⟨hne, .inl rfl⟩
          · exact .inl rfl
          · exact .inr ⟨hxk, .inr hx⟩
        · rintro (rfl | ⟨hxk, rfl | hx⟩)
          · exact .inr (.inl rfl)
          · exact .inl rfl
          · exact .inr (.inr ⟨hxk, hx⟩)

theorem insertEntry_sorted {k : κ} {v : ν} {es : List (κ × ν)}
    (h : es.Pairwise fun a b => a.1 < b.1) :
    (insertEntry k v es).Pairwise fun a b => a.1 < b.1 := by
  induction es with
  | nil => simp [insertEntry]
  | cons e es ih =>
    obtain ⟨he, hes⟩ := List.pairwise_cons.1 h
    simp only [insertEntry]
    split
    · rename_i hlt
      refine List.pairwise_cons.2 ⟨fun x hx => ?_, h⟩
      rcases List.mem_cons.1 hx with rfl | hx
      · exact hlt
      · exact lt_trans hlt (he x hx)
    · rename_i hnlt
      split
      · rename_i heq
        exact List.pairwise_cons.2 ⟨fun x hx => by simpa [← heq] using he x hx, hes⟩
      · rename_i hne
        refine List.pairwise_cons.2 ⟨fun x hx => ?_, ih hes⟩
        rcases (mem_insertEntry_iff hes x).1 hx with rfl | ⟨-, hx⟩
        · exact lt_of_le_of_ne (not_lt.1 hnlt) hne
        · exact he x hx

/-- Store a value under a key, replacing an earlier one. -/
def insert (m : OrdMap κ ν) (k : κ) (v : ν) : OrdMap κ ν :=
  ⟨insertEntry k v m.entries, insertEntry_sorted m.sorted⟩

/-- Keep the entries whose key satisfies `p`. -/
def retain (m : OrdMap κ ν) (p : κ → Bool) : OrdMap κ ν :=
  ⟨m.entries.filter fun e => p e.1, m.sorted.filter _⟩

/-- Remove the entry of a key. -/
def erase (m : OrdMap κ ν) (k : κ) : OrdMap κ ν := m.retain fun k' => decide (k' ≠ k)

/-- The set of keys. -/
def support (m : OrdMap κ ν) : Finset κ := m.keys.toFinset

/-! ## Membership -/

theorem keys_nodup : m.keys.Nodup := by
  have h : m.keys.Pairwise (· < ·) := List.pairwise_map.2 m.sorted
  exact h.imp fun hlt => ne_of_lt hlt

@[simp] theorem card_support : m.support.card = m.size := by
  rw [support, List.toFinset_card_of_nodup m.keys_nodup, keys, List.length_map, size]

/-- The stored value is the one in the entry of its key. -/
theorem get?_eq_some_iff (v : ν) : m.get? k = some v ↔ (k, v) ∈ m.entries := by
  unfold get?
  constructor
  · intro h
    obtain ⟨e, he, hev⟩ := Option.map_eq_some_iff.1 h
    have hk : e.1 = k := by simpa using List.find?_some he
    have hmem := List.mem_of_find?_eq_some he
    have hpair : e = (k, v) := Prod.ext hk hev
    rwa [hpair] at hmem
  · intro h
    cases hf : m.entries.find? fun e => decide (e.1 = k) with
    | none =>
      have := List.find?_eq_none.1 hf (k, v) h
      simp at this
    | some e =>
      have hk : e.1 = k := by simpa using List.find?_some hf
      have hmem := List.mem_of_find?_eq_some hf
      have hpair : e = (k, v) := List.inj_on_of_nodup_map m.keys_nodup hmem h hk
      rw [hpair]
      rfl

theorem mem_support_iff_get? : k ∈ m.support ↔ ∃ v, m.get? k = some v := by
  simp [support, keys, get?_eq_some_iff]

theorem mem_support_of_get? {m : OrdMap κ ν} {k : κ} {v : ν} (h : m.get? k = some v) :
    k ∈ m.support :=
  (m.mem_support_iff_get? k).2 ⟨v, h⟩

@[simp] theorem get?_empty : (empty : OrdMap κ ν).get? k = none := rfl

@[simp] theorem support_empty : (empty : OrdMap κ ν).support = ∅ := rfl

@[simp] theorem size_empty : (empty : OrdMap κ ν).size = 0 := rfl

/-! ## Updates -/

theorem get?_insert (k k' : κ) (v : ν) :
    (m.insert k v).get? k' = if k' = k then some v else m.get? k' := by
  ext w
  rw [get?_eq_some_iff]
  show (k', w) ∈ insertEntry k v m.entries ↔ _
  rw [mem_insertEntry_iff m.sorted]
  by_cases hk : k' = k
  · simp [hk, eq_comm]
  · simp [hk, get?_eq_some_iff]

theorem get?_insert_cases {m : OrdMap κ ν} {k k' : κ} {v v' : ν}
    (h : (m.insert k v).get? k' = some v') : k' = k ∧ v' = v ∨ m.get? k' = some v' := by
  rw [get?_insert] at h
  split at h
  next hk => exact .inl ⟨hk, (Option.some.inj h).symm⟩
  next => exact .inr h

@[simp] theorem get?_insert_self (v : ν) : (m.insert k v).get? k = some v := by
  rw [get?_insert, if_pos rfl]

@[simp] theorem support_insert (v : ν) : (m.insert k v).support = Insert.insert k m.support := by
  ext x
  rw [Finset.mem_insert, mem_support_iff_get?, get?_insert, mem_support_iff_get?]
  by_cases hx : x = k
  · simp [hx]
  · simp [hx]

theorem size_insert_le (v : ν) : (m.insert k v).size ≤ m.size + 1 := by
  rw [← card_support, ← card_support, support_insert]
  exact Finset.card_insert_le _ _

theorem get?_retain (k : κ) : (m.retain p).get? k = if p k then m.get? k else none := by
  ext w
  rw [get?_eq_some_iff]
  show (k, w) ∈ m.entries.filter _ ↔ _
  rw [List.mem_filter]
  cases hp : p k with
  | false => simp
  | true => simp [get?_eq_some_iff]

theorem get?_of_get?_retain {m : OrdMap κ ν} {p : κ → Bool} {k : κ} {v : ν}
    (h : (m.retain p).get? k = some v) : p k = true ∧ m.get? k = some v := by
  rw [get?_retain] at h
  split at h
  next hp => exact ⟨hp, h⟩
  next => cases h

@[simp] theorem support_retain : (m.retain p).support = m.support.filter fun k => p k := by
  ext k
  rw [Finset.mem_filter, mem_support_iff_get?, get?_retain, mem_support_iff_get?]
  cases hp : p k <;> simp

theorem get?_erase (k k' : κ) : (m.erase k).get? k' = if k' = k then none else m.get? k' := by
  rw [erase, get?_retain]
  by_cases hk : k' = k <;> simp [hk]

theorem get?_of_get?_erase {m : OrdMap κ ν} {k k' : κ} {v : ν}
    (h : (m.erase k).get? k' = some v) : k' ≠ k ∧ m.get? k' = some v := by
  rw [get?_erase] at h
  split at h
  next => cases h
  next hne => exact ⟨hne, h⟩

@[simp] theorem support_erase : (m.erase k).support = m.support.erase k := by
  ext x
  rw [erase, support_retain, Finset.mem_filter, Finset.mem_erase]
  simp [and_comm]

/-- A map is what it stores. -/
theorem ext_get? {m m' : OrdMap κ ν} (h : ∀ k, m.get? k = m'.get? k) : m = m' := by
  have hmem : ∀ e, e ∈ m.entries ↔ e ∈ m'.entries := by
    rintro ⟨k, v⟩
    rw [← get?_eq_some_iff, ← get?_eq_some_iff, h k]
  have hnodup : ∀ m : OrdMap κ ν, m.entries.Nodup := fun m => List.Nodup.of_map _ m.keys_nodup
  have hperm := (List.perm_ext_iff_of_nodup (hnodup m) (hnodup m')).2 hmem
  obtain ⟨entries, sorted⟩ := m
  obtain ⟨entries', sorted'⟩ := m'
  -- Two sorted lists with the same elements are the same list.
  have hentries : entries = entries' := by
    refine hperm.eq_of_pairwise ?_ sorted sorted'
    intro a b _ _ hab hba
    exact absurd (hab.trans hba) (lt_irrefl _)
  subst hentries
  rfl

theorem insert_of_get? {m : OrdMap κ ν} {k : κ} {v : ν} (h : m.get? k = some v) :
    m.insert k v = m := by
  apply ext_get?
  intro k'
  rw [get?_insert]
  split
  next heq => rw [heq, h]
  next => rfl

theorem get?_erase_self : (m.erase k).get? k = none := by
  rw [get?_erase, if_pos rfl]

theorem insert_erase (v : ν) : (m.erase k).insert k v = m.insert k v := by
  apply ext_get?
  intro k'
  rw [get?_insert, get?_insert, get?_erase]
  split <;> rfl

/-! ## The first key -/

theorem firstKey?_eq_none_iff : m.firstKey? p = none ↔ ∀ k ∈ m.support, p k = false := by
  rw [firstKey?, List.find?_eq_none]
  simp [support]

/-- The first key that satisfies `p` is the smallest one that does. -/
theorem firstKey?_eq_some_iff (k : κ) :
    m.firstKey? p = some k ↔
      k ∈ m.support ∧ p k = true ∧ ∀ k' ∈ m.support, p k' = true → k ≤ k' := by
  have hsorted : m.keys.Pairwise (· < ·) := List.pairwise_map.2 m.sorted
  simp only [firstKey?, List.find?_eq_some_iff_append, support, List.mem_toFinset]
  constructor
  · rintro ⟨hp, before, after, hkeys, hbefore⟩
    rw [hkeys] at hsorted ⊢
    refine ⟨List.mem_append_cons_self, hp, fun k' hk' hp' => ?_⟩
    rcases List.mem_append.1 hk' with hk' | hk'
    · exact absurd hp' (by simpa using hbefore k' hk')
    · rcases List.mem_cons.1 hk' with rfl | hk'
      · exact le_rfl
      · exact ((List.pairwise_cons.1 (List.pairwise_append.1 hsorted).2.1).1 k' hk').le
  · rintro ⟨hk, hp, hmin⟩
    obtain ⟨before, after, hkeys⟩ := List.append_of_mem hk
    refine ⟨hp, before, after, hkeys, fun a ha => ?_⟩
    rw [hkeys] at hsorted hmin
    have hlt := (List.pairwise_append.1 hsorted).2.2 a ha k List.mem_cons_self
    by_contra hpa
    exact hlt.not_ge (hmin a (List.mem_append_left _ ha) (by simpa using hpa))

/-! ## Trimming to a bound -/

/-- Remove picked keys while the map has more than `cap` entries, at most `fuel` times; the loop
ends early when nothing can be picked. -/
def trim (cap : Nat) (pick : OrdMap κ ν → Option κ) : Nat → OrdMap κ ν → OrdMap κ ν
  | 0, m => m
  | fuel + 1, m =>
    if m.size ≤ cap then m
    else
      match pick m with
      | none => m
      | some k => trim cap pick fuel (m.erase k)

variable {cap : Nat} {pick : OrdMap κ ν → Option κ}

variable {m : OrdMap κ ν}

theorem trim_of_size_le (h : m.size ≤ cap) (fuel : Nat) : trim cap pick fuel m = m := by
  cases fuel with
  | zero => rfl
  | succ fuel => rw [trim, if_pos h]

/-- One entry too many: a single picked key is removed. -/
theorem trim_of_size_eq_succ {k : κ} (h : m.size = cap + 1) (hpick : pick m = some k)
    (hk : k ∈ m.support) (fuel : Nat) : trim cap pick (fuel + 1) m = m.erase k := by
  have hsize : (m.erase k).size ≤ cap := by
    rw [← card_support, support_erase, Finset.card_erase_of_mem hk, card_support]
    omega
  rw [trim, if_neg (by omega), hpick]
  exact trim_of_size_le hsize fuel

/-- Trimming only removes entries. -/
theorem get?_of_get?_trim {k : κ} {v : ν} {fuel : Nat}
    (h : (trim cap pick fuel m).get? k = some v) : m.get? k = some v := by
  induction fuel generalizing m with
  | zero => exact h
  | succ fuel ih =>
    rw [trim] at h
    split at h
    · exact h
    · cases hpick : pick m with
      | none =>
        rw [hpick] at h
        exact h
      | some k' =>
        rw [hpick] at h
        exact (get?_of_get?_erase (ih h)).2

/-! ## Sums -/

section Total

variable (f : ν → ℕ)

/-- The sum of a weight over what is stored. -/
def total (m : OrdMap κ ν) : ℕ := (m.entries.map fun e => f e.2).sum

variable {m : OrdMap κ ν} {k : κ} {v : ν}

theorem sum_insertEntry_of_notMem {es : List (κ × ν)} (h : ∀ e ∈ es, e.1 ≠ k) :
    ((insertEntry k v es).map fun e => f e.2).sum = f v + (es.map fun e => f e.2).sum := by
  induction es with
  | nil => simp [insertEntry]
  | cons e es ih =>
    have hrest := ih fun e' he' => h e' (List.mem_cons_of_mem _ he')
    have hhead : e.1 ≠ k := h e List.mem_cons_self
    simp only [insertEntry, if_neg hhead]
    split
    · simp
    · simp only [List.map_cons, List.sum_cons, hrest]
      omega

theorem total_insert_of_none (h : m.get? k = none) (v : ν) :
    (m.insert k v).total f = f v + m.total f := by
  apply sum_insertEntry_of_notMem
  rintro ⟨k', u⟩ hmem rfl
  rw [(get?_eq_some_iff m k' u).2 hmem] at h
  cases h

/-- Entries without a weight do not count. -/
theorem total_retain {p : κ → Bool}
    (h : ∀ k v, m.get? k = some v → p k = false → f v = 0) : (m.retain p).total f = m.total f := by
  have hentries : ∀ e ∈ m.entries, p e.1 = false → f e.2 = 0 := fun e he =>
    h e.1 e.2 ((get?_eq_some_iff m _ _).2 he)
  unfold total retain
  dsimp only
  generalize m.entries = es at hentries
  induction es with
  | nil => rfl
  | cons e es ih =>
    have hrest := ih fun e' he' => hentries e' (List.mem_cons_of_mem _ he')
    cases hp : p e.1 with
    | true => simp [hp, hrest]
    | false => simp [hp, hrest, hentries e List.mem_cons_self hp]

theorem total_erase (h : m.get? k = some v) : (m.erase k).total f + f v = m.total f := by
  have htotal := total_insert_of_none f (m.get?_erase_self k) v
  rw [insert_erase, insert_of_get? h] at htotal
  omega

theorem total_insert_of_some {u : ν} (h : m.get? k = some u) (v : ν) :
    (m.insert k v).total f + f u = f v + m.total f := by
  have htotal := total_insert_of_none f (m.get?_erase_self k) v
  rw [insert_erase] at htotal
  have herase := total_erase f h
  omega

theorem total_le_total {f g : ν → ℕ} {m : OrdMap κ ν}
    (h : ∀ k v, m.get? k = some v → f v ≤ g v) : m.total f ≤ m.total g :=
  List.sum_le_sum fun e he => h e.1 e.2 ((get?_eq_some_iff m _ _).2 he)

theorem le_total (h : m.get? k = some v) : f v ≤ m.total f := by
  have hmem := (get?_eq_some_iff m k v).1 h
  exact List.single_le_sum (by simp) _ (List.mem_map_of_mem hmem)

end Total

end OrdMap

end AstraShell.Lib
