import AstraShell.Lib.Checked
import AstraShell.Lib.OrdMap

/-!
# Maps from lists, and requirements between their keys

`collectDistinct` reads a list into a map and refuses a key that comes twice; the map is the list
(`get?_foldl_insert`).

A `Requirement` says that a key needs others, each at least at some level. `enforce` removes a key
whose needs are not met. Removing along a list of requirements, in an order in which no key is
removed after it was relied on, leaves the greatest part of the map that meets them all
(`foldl_enforce_meets`, `le_foldl_enforce`).
-/

set_option autoImplicit false

namespace AstraShell.Lib

variable {ι κ ν : Type} [LinearOrder κ]

/-! ## Collecting -/

/-- Every item passes its check, then its key is new. -/
def collectDistinct (key : ι → κ) (value : ι → ν) (check : ι → Except String Unit)
    (duplicate : ι → String) : OrdMap κ ν → List ι → Except String (OrdMap κ ν)
  | m, [] => .ok m
  | m, item :: rest => do
    check item
    ensure (m.get? (key item) = none) (duplicate item)
    collectDistinct key value check duplicate (m.insert (key item) (value item)) rest

/-- Inserting the items that have a value, under different keys, gives the map of these items. -/
theorem OrdMap.get?_foldl_insert {key : ι → κ} {f : ι → Option ν} {items : List ι}
    {g : OrdMap κ ν → ι → OrdMap κ ν}
    (hg : ∀ m item, g m item = (f item).elim m (m.insert (key item)))
    (hnodup : (items.map key).Nodup) (k : κ) (v : ν) :
    (items.foldl g empty).get? k = some v ↔ ∃ item ∈ items, key item = k ∧ f item = some v := by
  induction items using List.reverseRecOn with
  | nil => simp
  | append_singleton items item ih =>
    rw [List.map_append, List.map_singleton, List.nodup_append] at hnodup
    obtain ⟨hitems, -, hother⟩ := hnodup
    rw [List.foldl_append, List.foldl_cons, List.foldl_nil, hg]
    cases hvalue : f item with
    | none => simp [ih hitems, hvalue]
    | some best =>
      rw [Option.elim_some, get?_insert]
      split_ifs with hk
      · -- No other item has this key.
        have hnone : ¬ ∃ other ∈ items, key other = k ∧ f other = some v := by
          rintro ⟨other, hmem, hkey, -⟩
          exact hother _ (List.mem_map_of_mem hmem) _ List.mem_cons_self (hkey.trans hk)
        simpa [or_and_right, exists_or, hnone, hvalue] using fun _ => hk.symm
      · simp [ih hitems, hvalue, Ne.symm hk]

/-- Collecting succeeds when the items pass and their keys are new and different. -/
theorem collectDistinct_eq_ok_iff {key : ι → κ} {value : ι → ν} {check : ι → Except String Unit}
    {duplicate : ι → String} {m m' : OrdMap κ ν} {items : List ι} :
    collectDistinct key value check duplicate m items = .ok m' ↔
      (∀ item ∈ items, check item = .ok () ∧ m.get? (key item) = none) ∧ (items.map key).Nodup ∧
        items.foldl (fun m item => m.insert (key item) (value item)) m = m' := by
  induction items generalizing m with
  | nil => simp [collectDistinct]
  | cons item rest ih =>
    simp only [collectDistinct, bind_eq_ok_iff, ensure_eq_ok_iff, ih, OrdMap.get?_insert]
    simp
    grind

/-! ## Requirements -/

/-- A key and what it needs. -/
structure Requirement (κ : Type) where
  key : κ
  needs : List (κ × ℕ)
  deriving DecidableEq

namespace Requirement

/-- Every needed key is there, at the level or above. -/
def met (r : Requirement κ) (m : OrdMap κ ℕ) : Bool :=
  r.needs.all fun need => (m.get? need.1).any fun level => need.2 ≤ level

/-- The key is not there, or its needs are met. -/
def Meets (m : OrdMap κ ℕ) (r : Requirement κ) : Prop :=
  ∀ level, m.get? r.key = some level → r.met m = true

/-- Remove the key when its needs are not met. -/
def enforce (m : OrdMap κ ℕ) (r : Requirement κ) : OrdMap κ ℕ :=
  if (m.get? r.key).isSome && !r.met m then m.erase r.key else m

variable {m m' : OrdMap κ ℕ} {r : Requirement κ} {rules : List (Requirement κ)}

theorem met_iff : r.met m = true ↔
    ∀ need ∈ r.needs, ∃ level, m.get? need.1 = some level ∧ need.2 ≤ level := by
  simp [met, Option.any_eq_true]

/-- Every entry of the first map is in the second. -/
def Sub (m m' : OrdMap κ ℕ) : Prop := ∀ k level, m.get? k = some level → m'.get? k = some level

theorem Sub.met (h : Sub m m') (hmet : r.met m = true) : r.met m' = true := by
  rw [met_iff] at hmet ⊢
  intro need hneed
  obtain ⟨level, hget, hle⟩ := hmet need hneed
  exact ⟨level, h _ _ hget, hle⟩

theorem enforce_meets (m : OrdMap κ ℕ) (r : Requirement κ) : Meets (enforce m r) r := by
  intro level hget
  rw [enforce] at hget ⊢
  split at hget
  next =>
    rw [OrdMap.get?_erase, if_pos rfl] at hget
    cases hget
  next hkeep =>
    rw [if_neg hkeep]
    rw [hget, Option.isSome_some, Bool.true_and, Bool.not_eq_true, Bool.not_eq_false'] at hkeep
    exact hkeep

theorem enforce_sub (m : OrdMap κ ℕ) (r : Requirement κ) : Sub (enforce m r) m := by
  intro k level hget
  rw [enforce] at hget
  split at hget
  next =>
    exact (OrdMap.get?_of_get?_erase hget).2
  next => exact hget

/-- What meets the requirement and was part of the map still is. -/
theorem sub_enforce (h : Sub m' m) (hmeets : Meets m' r) : Sub m' (enforce m r) := by
  intro k level hget
  rw [enforce]
  split
  next hremove =>
    rw [OrdMap.get?_erase, if_neg]
    · exact h k level hget
    · rintro rfl
      have hmet := h.met (hmeets level hget)
      rw [hmet] at hremove
      simp at hremove
  next => exact h k level hget

/-- A requirement that does not rely on the key of another survives the removal of that key. -/
theorem enforce_keeps {r' : Requirement κ} (hother : ∀ need ∈ r.needs, need.1 ≠ r'.key)
    (hmeets : Meets m r) : Meets (enforce m r') r := by
  intro level hget
  have hmet := hmeets level (enforce_sub m r' _ _ hget)
  rw [met_iff] at hmet ⊢
  intro need hneed
  obtain ⟨level', hget', hle⟩ := hmet need hneed
  refine ⟨level', ?_, hle⟩
  rw [enforce]
  split
  next => rw [OrdMap.get?_erase, if_neg (hother need hneed), hget']
  next => exact hget'

theorem foldl_enforce_sub (m : OrdMap κ ℕ) (rules : List (Requirement κ)) :
    Sub (rules.foldl enforce m) m := by
  induction rules generalizing m with
  | nil => exact fun _ _ hget => hget
  | cons r rest ih => exact fun k level hget => enforce_sub m r k level (ih _ k level hget)

theorem foldl_enforce_keeps (hother : ∀ r' ∈ rules, ∀ need ∈ r.needs, need.1 ≠ r'.key)
    (hmeets : Meets m r) : Meets (rules.foldl enforce m) r := by
  induction rules generalizing m with
  | nil => exact hmeets
  | cons r' rest ih =>
    apply ih
    · exact fun r'' hr'' => hother r'' (List.mem_cons_of_mem _ hr'')
    · exact enforce_keeps (hother r' List.mem_cons_self) hmeets

/-- No key is removed after it was relied on. -/
def Ordered (rules : List (Requirement κ)) : Prop :=
  rules.Pairwise fun r r' => ∀ need ∈ r.needs, need.1 ≠ r'.key

theorem foldl_enforce_meets (hordered : Ordered rules) (m : OrdMap κ ℕ) :
    ∀ r ∈ rules, Meets (rules.foldl enforce m) r := by
  induction rules generalizing m with
  | nil => exact nofun
  | cons r rest ih =>
    obtain ⟨hfirst, hrest⟩ := List.pairwise_cons.1 hordered
    intro r' hr'
    rcases List.mem_cons.1 hr' with rfl | hr'
    · rw [List.foldl_cons]
      exact foldl_enforce_keeps hfirst (enforce_meets m r')
    · exact ih hrest _ r' hr'

theorem le_foldl_enforce (h : Sub m' m) (hmeets : ∀ r ∈ rules, Meets m' r) :
    Sub m' (rules.foldl enforce m) := by
  induction rules generalizing m with
  | nil => exact h
  | cons r rest ih =>
    apply ih
    · exact sub_enforce h (hmeets r List.mem_cons_self)
    · exact fun r' hr' => hmeets r' (List.mem_cons_of_mem _ hr')

end Requirement

end AstraShell.Lib
