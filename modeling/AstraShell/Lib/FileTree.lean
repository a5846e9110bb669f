import Mathlib.Algebra.Ring.Nat
import Mathlib.Data.List.Infix
import Mathlib.Data.List.Dedup

/-!
# File trees

A file system as the names it has. A location is the list of names from the root directory down, an
entry says what is there, and several entries may share an inode. Symbolic links are entries with a
path as their value; a path may also stay where it is or go up.

`resolve` follows a path as the kernel does: every link on the way, the last one only on demand, and
no more than forty of them. What it finds is at a canonical location, one whose proper prefixes are
all directories (`resolve_sound`), and a canonical location is found at itself
(`resolve_of_found`, `resolve_of_missing`).
-/

set_option autoImplicit false

namespace AstraShell.Lib.FileTree

/-- The names from the root directory down. -/
abbrev Location (N : Type) : Type := List N

/-- A step of a path. -/
inductive Segment (N : Type) where
  | stay
  | up
  | name (n : N)
  deriving DecidableEq

/-- The value of a symbolic link. -/
structure Link (N : Type) where
  absolute : Bool
  segments : List (Segment N)
  deriving DecidableEq

inductive Kind (N : Type) where
  | directory
  | regular
  | symlink (target : Link N)
  | other
  deriving DecidableEq

structure Entry (N : Type) where
  ino : ℕ
  kind : Kind N
  deriving DecidableEq

/-- Why a call fails. -/
inductive IoError where
  | notFound
  | alreadyExists
  | permissionDenied
  | invalidInput
  | notADirectory
  | isADirectory
  | directoryNotEmpty
  | filesystemLoop
  | unexpectedEof
  | other (text : String)
  deriving DecidableEq

/-- What a path leads to: an entry, or the place of one in a directory that does not have it. -/
inductive Spot (N : Type) where
  | found (p : Location N)
  | missing (p : Location N)

/-- The entries below the root directory. `listed` has the locations of all of them, and the inodes
from `nextIno` on are free. -/
structure Tree (N : Type) where
  entry : Location N → Option (Entry N)
  listed : List (Location N)
  rootIno : ℕ
  nextIno : ℕ
  complete : ∀ p e, entry p = some e → p ∈ listed
  fresh : ∀ p e, entry p = some e → e.ino < nextIno
  root_fresh : rootIno < nextIno

variable {N : Type}

namespace Tree

def find (t : Tree N) : Location N → Option (Entry N)
  | [] => some ⟨t.rootIno, .directory⟩
  | p => t.entry p

def isDirectory (t : Tree N) (p : Location N) : Bool :=
  match t.find p with
  | some ⟨_, .directory⟩ => true
  | _ => false

/-- The names in a directory. -/
def children [DecidableEq N] (t : Tree N) (d : Location N) : List N :=
  ((t.listed.filter fun p => p ≠ [] ∧ p.dropLast = d ∧ (t.entry p).isSome).filterMap
    List.getLast?).dedup

/-! ## Changes -/

section Changes

variable [DecidableEq N]

/-- An entry is added or replaced. -/
def insert (t : Tree N) (p : Location N) (e : Entry N) : Tree N where
  entry := fun q => if q = p then some e else t.entry q
  listed := p :: t.listed
  rootIno := t.rootIno
  nextIno := max t.nextIno (e.ino + 1)
  complete := by
    intro q e' h
    split at h
    next hq => exact hq ▸ List.mem_cons_self
    next => exact List.mem_cons_of_mem p (t.complete q e' h)
  fresh := by
    intro q e' h
    split at h
    next =>
      cases h
      exact Nat.lt_of_lt_of_le (Nat.lt_succ_self _) (Nat.le_max_right _ _)
    next => exact Nat.lt_of_lt_of_le (t.fresh q e' h) (Nat.le_max_left _ _)
  root_fresh := Nat.lt_of_lt_of_le t.root_fresh (Nat.le_max_left _ _)

def erase (t : Tree N) (p : Location N) : Tree N where
  entry := fun q => if q = p then none else t.entry q
  listed := t.listed
  rootIno := t.rootIno
  nextIno := t.nextIno
  complete := by
    intro q e h
    split at h
    next => cases h
    next => exact t.complete q e h
  fresh := by
    intro q e h
    split at h
    next => cases h
    next => exact t.fresh q e h
  root_fresh := t.root_fresh

/-- What is at `src` and below it goes to `dst`, in place of what was there. -/
def move (t : Tree N) (src dst : Location N) : Tree N where
  entry := fun q =>
    if dst <+: q then t.entry (src ++ q.drop dst.length)
    else if src <+: q then none
    else t.entry q
  listed := t.listed.map fun q => if src <+: q then dst ++ q.drop src.length else q
  rootIno := t.rootIno
  nextIno := t.nextIno
  complete := by
    intro q e h
    split at h
    next hdst =>
      refine List.mem_map.2 ⟨_, t.complete _ e h, ?_⟩
      obtain ⟨below, rfl⟩ := hdst
      simp
    next =>
      split at h
      next => cases h
      next hsrc => exact List.mem_map.2 ⟨q, t.complete q e h, by simp [hsrc]⟩
  fresh := by
    intro q e h
    split at h
    next => exact t.fresh _ e h
    next =>
      split at h
      next => cases h
      next => exact t.fresh q e h
  root_fresh := t.root_fresh

end Changes

section Find

variable {t : Tree N} {p : Location N}

theorem find_of_ne (t : Tree N) (h : p ≠ []) : t.find p = t.entry p := by
  cases p with
  | nil => exact absurd rfl h
  | cons n p => rfl

theorem ne_nil_of_find (h : t.find p = none) : p ≠ [] := by
  rintro rfl
  cases h

/-- Inodes in use are not free. -/
theorem ino_lt {e : Entry N} (h : t.find p = some e) : e.ino < t.nextIno := by
  by_cases hp : p = []
  · subst hp
    cases h
    exact t.root_fresh
  · rw [find_of_ne t hp] at h
    exact t.fresh p e h

variable [DecidableEq N]

theorem find_insert (hp : p ≠ []) (e : Entry N) (q : Location N) :
    (t.insert p e).find q = if q = p then some e else t.find q := by
  by_cases hq : q = []
  · subst hq
    rw [if_neg (Ne.symm hp)]
    rfl
  · rw [find_of_ne _ hq, find_of_ne _ hq]
    rfl

theorem find_erase (hp : p ≠ []) (q : Location N) :
    (t.erase p).find q = if q = p then none else t.find q := by
  by_cases hq : q = []
  · subst hq
    rw [if_neg (Ne.symm hp)]
    rfl
  · rw [find_of_ne _ hq, find_of_ne _ hq]
    rfl

theorem find_move {src dst : Location N} (hsrc : src ≠ []) (hdst : dst ≠ []) (q : Location N) :
    (t.move src dst).find q =
      if dst <+: q then t.find (src ++ q.drop dst.length)
      else if src <+: q then none
      else t.find q := by
  by_cases hq : q = []
  · subst hq
    rw [if_neg (by simpa using hdst), if_neg (by simpa using hsrc)]
    rfl
  · rw [find_of_ne _ hq, find_of_ne _ hq, find_of_ne t (by simp [hsrc])]
    rfl

end Find

/-! ## Paths -/

section Walk

variable (t : Tree N) (follow : Bool)

/-- A path followed without links; `again` goes on after a link. -/
def scan (again : Location N → List (Segment N) → Except IoError (Spot N)) :
    Location N → List (Segment N) → Except IoError (Spot N)
  | cur, [] => .ok (.found cur)
  | cur, seg :: rest =>
    if t.isDirectory cur then
      match seg with
      | .stay => scan again cur rest
      | .up => scan again cur.dropLast rest
      | .name n =>
        match t.find (cur ++ [n]) with
        | none => if rest.isEmpty then .ok (.missing (cur ++ [n])) else .error .notFound
        | some ⟨_, .symlink target⟩ =>
          -- Only the last link of a path may be left alone.
          if rest.isEmpty ∧ follow = false then .ok (.found (cur ++ [n]))
          else again (if target.absolute then [] else cur) (target.segments ++ rest)
        | some _ => scan again (cur ++ [n]) rest
    else .error .notADirectory

/-- The path is followed over at most `links` links. -/
def walk : ℕ → Location N → List (Segment N) → Except IoError (Spot N)
  | 0 => t.scan follow fun _ _ => .error .filesystemLoop
  | links + 1 => t.scan follow (walk links)

def maxLinks : ℕ := 40

/-- An absolute path. `follow`: a link in the last place is followed too. -/
def resolve (path : List (Segment N)) : Except IoError (Spot N) := t.walk follow maxLinks [] path

end Walk

/-- Everything above the location is a directory. -/
def Canonical (t : Tree N) (p : Location N) : Prop :=
  ∀ q, q <+: p → q ≠ p → t.isDirectory q = true

/-- The location and everything above it are directories. -/
def Reached (t : Tree N) (p : Location N) : Prop := ∀ q, q <+: p → t.isDirectory q = true

section Canonical

variable {t : Tree N} {p : Location N}

theorem isDirectory_iff : t.isDirectory p = true ↔ ∃ ino, t.find p = some ⟨ino, .directory⟩ := by
  unfold isDirectory
  split
  next ino h => exact ⟨fun _ => ⟨ino, h⟩, fun _ => rfl⟩
  next h =>
    constructor
    · intro hfalse
      cases hfalse
    · rintro ⟨ino, hfind⟩
      exact absurd hfind (h ino)

theorem reached_nil (t : Tree N) : t.Reached [] := by
  intro q hq
  rw [List.prefix_nil.1 hq]
  rfl

theorem Canonical.reached (h : t.Canonical p) (hp : t.isDirectory p = true) : t.Reached p := by
  intro q hq
  by_cases hne : q = p
  · rw [hne]
    exact hp
  · exact h q hq hne

theorem Reached.canonical (h : t.Reached p) : t.Canonical p := fun q hq _ => h q hq

theorem Reached.canonical_name (h : t.Reached p) (n : N) : t.Canonical (p ++ [n]) := by
  intro q hq hne
  rcases List.prefix_concat_iff.1 hq with rfl | hq
  · exact absurd rfl hne
  · exact h q hq

theorem Reached.dropLast (h : t.Reached p) : t.Reached p.dropLast :=
  fun q hq => h q (hq.trans (List.dropLast_prefix p))

/-- The directory of a canonical location. -/
theorem Canonical.dropLast (h : t.Canonical p) (hp : p ≠ []) : t.Reached p.dropLast := by
  intro q hq
  apply h q (hq.trans (List.dropLast_prefix p))
  rintro rfl
  have hlength := hq.length_le
  rw [List.length_dropLast] at hlength
  have hpos := List.length_pos_iff.2 hp
  omega

/-- Directories that are reached stay so when they keep their entries. -/
theorem Reached.of_find {t' : Tree N} (h : t.Reached p)
    (hfind : ∀ q, t.Reached q → t'.find q = t.find q) : t'.Reached p := by
  intro q hq
  have hreached : t.Reached q := fun r hr => h r (hr.trans hq)
  obtain ⟨ino, hdirectory⟩ := isDirectory_iff.1 (h q hq)
  exact isDirectory_iff.2 ⟨ino, (hfind q hreached).trans hdirectory⟩

/-- Nothing canonical is below what is no directory. -/
theorem Canonical.eq_of_not_directory {q : Location N} (h : t.Canonical p)
    (hq : t.isDirectory q = false) (hbelow : q <+: p) : q = p := by
  by_contra hne
  rw [h q hbelow hne] at hq
  cases hq

/-- A move of what is no directory to a name that is none changes these two names. -/
theorem find_move_canonical [DecidableEq N] {src dst : Location N}
    (hsrc : t.isDirectory src = false) (hdst : t.isDirectory dst = false) (h : t.Canonical p) :
    (t.move src dst).find p =
      if p = dst then t.find src else if p = src then none else t.find p := by
  have hroot : t.isDirectory [] = true := rfl
  have hsrc' : src ≠ [] := by
    rintro rfl
    rw [hroot] at hsrc
    cases hsrc
  have hdst' : dst ≠ [] := by
    rintro rfl
    rw [hroot] at hdst
    cases hdst
  rw [find_move hsrc' hdst']
  by_cases hbelow : dst <+: p
  · have heq := h.eq_of_not_directory hdst hbelow
    subst heq
    simp
  · have hne : p ≠ dst := by
      rintro rfl
      exact hbelow (List.prefix_refl p)
    rw [if_neg hbelow, if_neg hne]
    by_cases hbelow' : src <+: p
    · rw [if_pos hbelow', if_pos (h.eq_of_not_directory hsrc hbelow').symm]
    · have hne' : p ≠ src := by
        rintro rfl
        exact hbelow' (List.prefix_refl p)
      rw [if_neg hbelow', if_neg hne']

end Canonical

/-! ## What is found -/

/-- What a walk may come to: canonical places, and no link in the last place of a path that is
followed to its end. -/
def Sound (t : Tree N) (follow : Bool) : Spot N → Prop
  | .found p => t.Canonical p ∧ ∃ e, t.find p = some e ∧
      (follow = true → ∀ target, e.kind ≠ .symlink target)
  | .missing p => t.Canonical p ∧ t.find p = none

section Sound

variable {t : Tree N} {follow : Bool}
  {again : Location N → List (Segment N) → Except IoError (Spot N)}

/-- A place that a walk has come to and goes on from. -/
def Stands (t : Tree N) (cur : Location N) : Prop :=
  t.Canonical cur ∧ ∃ e, t.find cur = some e ∧ ∀ target, e.kind ≠ .symlink target

variable {cur : Location N}

theorem stands_of_reached (h : t.Reached cur) : t.Stands cur := by
  obtain ⟨ino, hfind⟩ := isDirectory_iff.1 (h cur (List.prefix_refl cur))
  exact ⟨h.canonical, _, hfind, by simp⟩

variable {path : List (Segment N)} {spot : Spot N}

theorem scan_sound
    (hagain : ∀ cur path spot, t.Stands cur → again cur path = .ok spot → t.Sound follow spot)
    (hcur : t.Stands cur)
    (h : t.scan follow again cur path = .ok spot) : t.Sound follow spot := by
  -- By induction on the path, as `scan` goes along it.
  induction path generalizing cur with
  | nil =>
    cases h
    obtain ⟨hcanonical, e, hfind, hlink⟩ := hcur
    exact ⟨hcanonical, e, hfind, fun _ => hlink⟩
  | cons seg rest ih =>
    unfold scan at h
    split at h
    next hdirectory =>
      have hreached := hcur.1.reached hdirectory
      cases seg with
      | stay => exact ih hcur h
      | up => exact ih (stands_of_reached hreached.dropLast) h
      | name n =>
        have hcanonical := hreached.canonical_name n
        dsimp only at h
        split at h
        next hnone =>
          split at h
          next =>
            cases h
            exact ⟨hcanonical, hnone⟩
          next => cases h
        next ino target hlink =>
          split at h
          next hlast =>
            cases h
            refine ⟨hcanonical, _, hlink, ?_⟩
            rw [hlast.2]
            exact nofun
          next =>
            apply hagain _ _ _ _ h
            split
            · exact stands_of_reached (reached_nil t)
            · exact hcur
        next e hnotLink hfind =>
          apply ih _ h
          refine ⟨hcanonical, e, hfind, ?_⟩
          intro target hkind
          apply hnotLink e.ino target
          rw [← hkind]
    next => cases h

theorem walk_sound {links : ℕ}
    (hcur : t.Stands cur) (h : t.walk follow links cur path = .ok spot) : t.Sound follow spot := by
  induction links generalizing cur path spot with
  | zero => exact scan_sound (fun _ _ _ _ hfalse => by cases hfalse) hcur h
  | succ links ih => exact scan_sound (fun _ _ _ hstands hrun => ih hstands hrun) hcur h

theorem resolve_sound (h : t.resolve follow path = .ok spot) : t.Sound follow spot :=
  walk_sound (stands_of_reached (reached_nil t)) h

end Sound

/-! ## Canonical locations as paths -/

/-- The path of a location. -/
def path (p : Location N) : List (Segment N) := p.map .name

section Self

variable {t : Tree N} {follow : Bool}
  {again : Location N → List (Segment N) → Except IoError (Spot N)}

variable {n : N}

/-- A walk along directories goes down to the last name. -/
theorem scan_path {cur below : Location N} (h : t.Stands (cur ++ below)) :
    t.scan follow again cur (path (below ++ [n])) =
      t.scan follow again (cur ++ below) (path [n]) := by
  induction below generalizing cur with
  | nil => rw [List.append_nil, List.nil_append]
  | cons m below ih =>
    have hassoc : cur ++ m :: below = cur ++ [m] ++ below := by simp
    rw [hassoc] at h ⊢
    have hdirectory : t.isDirectory cur = true := by
      apply h.1 cur
      · rw [List.append_assoc]
        exact List.prefix_append cur _
      · simp
    -- The next name is a directory, or the last entry before the end.
    have hnext : ∃ e, t.find (cur ++ [m]) = some e ∧ ∀ target, e.kind ≠ .symlink target := by
      cases below with
      | nil =>
        rw [List.append_nil] at h
        exact h.2
      | cons k below =>
        obtain ⟨ino, hfind⟩ := isDirectory_iff.1 (h.1 (cur ++ [m]) (List.prefix_append _ _)
          (by simp))
        exact ⟨_, hfind, by simp⟩
    obtain ⟨e, hfind, hlink⟩ := hnext
    rw [path, List.cons_append, List.map_cons, scan, if_pos hdirectory, hfind]
    split
    next hnone => cases hnone
    next ino target hsymlink =>
      cases hsymlink
      exact absurd rfl (hlink target)
    next => exact ih h

/-- The last step to a location. -/
theorem walk_path {p : Location N} {links : ℕ} (h : t.Stands p) :
    t.walk follow (links + 1) [] (path (p ++ [n])) =
      t.scan follow (t.walk follow links) p (path [n]) := by
  rw [walk, scan_path (by simpa using h), List.nil_append]

/-- A path that leads anywhere goes through a directory. -/
theorem reached_of_resolve {p : Location N} {spot : Spot N} (h : t.Stands p)
    (hspot : t.resolve follow (path (p ++ [n])) = .ok spot) : t.Reached p := by
  rw [resolve, maxLinks, walk_path h, path, List.map_cons] at hspot
  unfold scan at hspot
  split at hspot
  next hdirectory => exact h.1.reached hdirectory
  next => cases hspot

theorem resolve_of_found {p : Location N} {e : Entry N} (h : t.Canonical p)
    (hfind : t.find p = some e) (hlink : follow = true → ∀ target, e.kind ≠ .symlink target) :
    t.resolve follow (path p) = .ok (.found p) := by
  rcases List.eq_nil_or_concat p with rfl | ⟨d, n, rfl⟩
  · rfl
  · rw [List.concat_eq_append] at *
    have hreached : t.Reached d := by simpa using h.dropLast (by simp)
    have hdirectory := hreached d (List.prefix_refl d)
    rw [resolve, maxLinks, walk_path (stands_of_reached hreached), path, List.map_cons, scan,
      if_pos hdirectory, hfind]
    split
    next hnone => cases hnone
    next ino target hsymlink =>
      cases hsymlink
      cases follow with
      | false => simp
      | true => exact absurd rfl (hlink rfl target)
    next => rfl

theorem resolve_of_missing {p : Location N} (h : t.Canonical p) (hfind : t.find p = none) :
    t.resolve follow (path p) = .ok (.missing p) := by
  rcases List.eq_nil_or_concat p with rfl | ⟨d, n, rfl⟩
  · cases hfind
  · rw [List.concat_eq_append] at *
    have hreached : t.Reached d := by simpa using h.dropLast (by simp)
    have hdirectory := hreached d (List.prefix_refl d)
    rw [resolve, maxLinks, walk_path (stands_of_reached hreached), path, List.map_cons, scan,
      if_pos hdirectory, hfind]
    simp

end Self

end Tree

end AstraShell.Lib.FileTree
