import AstraShell.Lib.Checked
import AstraShell.Lib.Effect
import AstraShell.Lib.FileTree
import Mathlib.Logic.Function.Basic

/-!
# File system calls

The calls of a process on a file tree: what they return, and what they change. A call may also fail
without an effect, and reads and writes may be shorter than asked for; a list of faults decides
that, call by call. The loops that read or write a whole range are those of Rust's standard library.

A call is a function of the disk (`Disk`); `Os` adds the faults that are still to come. `wp_call`
says what a call can leave.
-/

set_option autoImplicit false

namespace AstraShell.Lib.FileTree

open Effect

/-! ## Disks -/

/-- What an inode has. `extent` is the length of what is not a regular file. -/
structure Inode where
  content : List UInt8
  mode : ℕ
  mtime : ℕ
  extent : ℕ

structure Disk (N : Type) where
  tree : Tree N
  inode : ℕ → Inode
  clock : ℕ

inductive Fault where
  | none
  /-- A read or write is not longer than this. -/
  | short (count : ℕ)
  | error (e : IoError)

structure Os (N : Type) where
  disk : Disk N
  faults : List Fault

/-- What a call that succeeds leaves. -/
structure Outcome (N α : Type) where
  value : α
  disk : Disk N

/-- A call as a function of the disk, and of the bound on the length of a read or write. -/
abbrev Body (N α : Type) := Option ℕ → Disk N → Except IoError (Outcome N α)

structure Metadata (N : Type) where
  ino : ℕ
  kind : Kind N
  len : ℕ
  mode : ℕ
  mtime : ℕ

/-- An open file. -/
structure Handle (N : Type) where
  ino : ℕ
  kind : Kind N

variable {N α : Type}

/-- An open regular file. -/
def Handle.regular (ino : ℕ) : Handle N := ⟨ino, .regular⟩

namespace Os

/-- After a call that failed. -/
def failed (os : Os N) : Os N := { os with faults := os.faults.tail }

/-- After a call that succeeded. -/
def done (os : Os N) (outcome : Outcome N α) : Os N where
  disk := outcome.disk
  faults := os.faults.tail

/-- No call to come has an error for a fault. -/
def Calm (os : Os N) : Prop := ∀ e, .error e ∉ os.faults

end Os

/-- A call takes the next fault, and when this is no error it does what it is for. -/
def call (body : Body N α) : Effect (Os N) IoError α := fun os =>
  match os.faults.headD .none with
  | .error e => (.error e, os.failed)
  | .short count => perform os (body (some count) os.disk)
  | .none => perform os (body none os.disk)
where
  perform (os : Os N) : Except IoError (Outcome N α) → Except IoError α × Os N
    | .error e => (.error e, os.failed)
    | .ok outcome => (.ok outcome.value, os.done outcome)

section Definitions

variable [DecidableEq N]

namespace Disk

variable (d : Disk N)

/-- The entry a path leads to. -/
def locate (follow : Bool) (path : List (Segment N)) : Except IoError (Location N × Entry N) :=
  match d.tree.resolve follow path with
  | .error e => .error e
  | .ok (.missing _) => .error .notFound
  | .ok (.found p) =>
    match d.tree.find p with
    | none => .error .notFound
    | some e => .ok (p, e)

def metadataOf (e : Entry N) : Metadata N where
  ino := e.ino
  kind := e.kind
  len := if e.kind = .regular then (d.inode e.ino).content.length else (d.inode e.ino).extent
  mode := (d.inode e.ino).mode
  mtime := (d.inode e.ino).mtime

/-- What is in an inode is replaced. -/
def setInode (ino : ℕ) (i : Inode) : Disk N := { d with inode := Function.update d.inode ino i }

/-- A new inode at a location. -/
def create (p : Location N) (kind : Kind N) (mode : ℕ) : Disk N where
  tree := d.tree.insert p ⟨d.tree.nextIno, kind⟩
  inode := Function.update d.inode d.tree.nextIno ⟨[], mode, d.clock, 0⟩
  clock := d.clock

/-- Bytes of a file from an offset on are overwritten; a gap before them is filled with zeros. -/
def splice (content : List UInt8) (offset : ℕ) (bytes : List UInt8) : List UInt8 :=
  content.take offset ++ List.replicate (offset - content.length) 0 ++ bytes ++
    content.drop (offset + bytes.length)

/-- The first bytes of a write, as many as the bound allows and at least one. -/
def bounded (bound : Option ℕ) (length : ℕ) : ℕ :=
  match bound with
  | none => length
  | some count => min length (max 1 count)

end Disk

/-! ## Calls -/

section Calls

def canonicalizeBody (path : List (Segment N)) : Body N (Location N) := fun _ d => do
  let (p, _) ← d.locate true path
  return ⟨p, d⟩

def metadataBody (follow : Bool) (path : List (Segment N)) : Body N (Metadata N) := fun _ d => do
  let (_, e) ← d.locate follow path
  return ⟨d.metadataOf e, d⟩

/-- `metadata`, of which only the success is looked at. -/
def presentBody (path : List (Segment N)) : Body N Unit := fun _ d => do
  let _ ← d.locate true path
  return ⟨(), d⟩

def openBody (path : List (Segment N)) : Body N (Handle N) := fun _ d => do
  let (_, e) ← d.locate true path
  return ⟨⟨e.ino, e.kind⟩, d⟩

/-- Opens for reading and writing, without following a link in the last place; a file that is not
there is made. -/
def openCreateBody (path : List (Segment N)) (mode : ℕ) : Body N (Handle N) := fun _ d =>
  match d.tree.resolve false path with
  | .error e => .error e
  | .ok (.missing p) =>
    .ok ⟨.regular d.tree.nextIno, d.create p .regular mode⟩
  | .ok (.found p) =>
    match d.tree.find p with
    | none => .error .notFound
    | some ⟨_, .symlink _⟩ => .error .filesystemLoop
    | some ⟨_, .directory⟩ => .error .isADirectory
    | some e => .ok ⟨⟨e.ino, e.kind⟩, d⟩

def fstatBody (h : Handle N) : Body N (Metadata N) := fun _ d =>
  .ok ⟨d.metadataOf ⟨h.ino, h.kind⟩, d⟩

def seekBody (offset : ℕ) : Body N Unit := fun _ d =>
  if offset < 2 ^ 63 then .ok ⟨(), d⟩ else .error .invalidInput

def readBody (h : Handle N) (offset length : ℕ) : Body N (List UInt8) := fun bound d =>
  if h.kind = .directory then .error .isADirectory
  else
    .ok ⟨((d.inode h.ino).content.drop offset).take (Disk.bounded bound length), d⟩

/-- No file is longer. -/
def maxFileSize : ℕ := 2 ^ 63 - 1

/-- The number of bytes written. -/
def writeBody (h : Handle N) (offset : ℕ) (bytes : List UInt8) : Body N ℕ := fun bound d =>
  if maxFileSize ≤ offset then .error (.other "File too large (os error 27)")
  else
    let i := d.inode h.ino
    let taken := bytes.take (min (maxFileSize - offset) (Disk.bounded bound bytes.length))
    let i := { i with content := Disk.splice i.content offset taken, mtime := d.clock }
    .ok ⟨taken.length, d.setInode h.ino i⟩

def syncBody : Body N Unit := fun _ d => .ok ⟨(), d⟩

def chmodBody (path : List (Segment N)) (mode : ℕ) : Body N Unit := fun _ d => do
  let (_, e) ← d.locate true path
  return ⟨(), d.setInode e.ino { d.inode e.ino with mode := mode }⟩

def unlinkBody (path : List (Segment N)) : Body N Unit := fun _ d => do
  let (p, e) ← d.locate false path
  match e.kind with
  | .directory => .error .isADirectory
  | _ => return ⟨(), { d with tree := d.tree.erase p }⟩

def rmdirBody (path : List (Segment N)) : Body N Unit := fun _ d => do
  let (p, e) ← d.locate false path
  match e.kind with
  | .directory =>
    if p = [] then .error (.other "Device or resource busy (os error 16)")
    else if d.tree.children p = [] then
      return ⟨(), { d with tree := d.tree.erase p }⟩
    else .error .directoryNotEmpty
  | _ => .error .notADirectory

def mkdirBody (path : List (Segment N)) (mode : ℕ) : Body N Unit := fun _ d =>
  match d.tree.resolve false path with
  | .error e => .error e
  | .ok (.found _) => .error .alreadyExists
  | .ok (.missing p) => .ok ⟨(), d.create p .directory mode⟩

/-- May the entry `e` at `src` take the place of what is at `dst`? -/
def mayReplace (d : Disk N) (src dst : Location N) (e : Entry N) : Except IoError Unit :=
  match e.kind, d.tree.find dst with
  | .directory, none => if src <+: dst then .error .invalidInput else .ok ()
  | .directory, some ⟨_, .directory⟩ =>
    if src <+: dst then .error .invalidInput
    else if d.tree.children dst = [] then .ok ()
    else .error .directoryNotEmpty
  | .directory, some _ => .error .notADirectory
  | _, some ⟨_, .directory⟩ => .error .isADirectory
  | _, _ => .ok ()

/-- Two names of one file: a rename does nothing. -/
def sameFile (d : Disk N) (dst : Location N) (e : Entry N) : Bool := d.tree.find dst = some e

/-- Where a path ends, whether there is an entry or not. -/
def Spot.location : Spot N → Location N
  | .found p => p
  | .missing p => p

def renameBody (source destination : List (Segment N)) : Body N Unit := fun _ d => do
  let (src, e) ← d.locate false source
  let spot ← d.tree.resolve false destination
  let dst := spot.location
  if src = [] ∨ dst = [] then .error (.other "Device or resource busy (os error 16)")
  else if sameFile d dst e then return ⟨(), d⟩
  else do
    mayReplace d src dst e
    return ⟨(), { d with tree := d.tree.move src dst }⟩

def linkBody (source destination : List (Segment N)) : Body N Unit := fun _ d => do
  let (_, e) ← d.locate false source
  match e.kind with
  | .directory => .error .permissionDenied
  | _ =>
    match d.tree.resolve false destination with
    | .error error => .error error
    | .ok (.found _) => .error .alreadyExists
    | .ok (.missing dst) => return ⟨(), { d with tree := d.tree.insert dst e }⟩

def readDirBody (path : List (Segment N)) : Body N (Location N × List N) := fun _ d => do
  let (p, e) ← d.locate true path
  match e.kind with
  | .directory => return ⟨(p, d.tree.children p), d⟩
  | _ => .error .notADirectory

end Calls

/-! ## Loops -/

/-- Reads up to the end in pieces of `size`. -/
def readToEnd (h : Handle N) (size : ℕ) : ℕ → ℕ → Effect (Os N) IoError (List UInt8)
  | 0, _ => pure []
  | fuel + 1, offset => do
    let piece ← call (readBody h offset size)
    if piece = [] then pure []
    else do
      let rest ← readToEnd h size fuel (offset + piece.length)
      pure (piece ++ rest)

/-- The whole file; a read that gives nothing ends the loop. -/
def readAll (h : Handle N) (size : ℕ) : Effect (Os N) IoError (List UInt8) := fun os =>
  readToEnd h size ((os.disk.inode h.ino).content.length + 1) 0 os

/-- Reads until `length` bytes are there or the file is at its end. -/
def readUpTo (h : Handle N) : ℕ → ℕ → ℕ → Effect (Os N) IoError (List UInt8)
  | 0, _, _ => pure []
  | fuel + 1, offset, length =>
    if length = 0 then pure []
    else do
      let piece ← call (readBody h offset length)
      if piece = [] then pure []
      else do
        let rest ← readUpTo h fuel (offset + piece.length) (length - piece.length)
        pure (piece ++ rest)

/-- Reads exactly `length` bytes. -/
def readExact (h : Handle N) (offset length : ℕ) : Effect (Os N) IoError (List UInt8) := do
  let data ← readUpTo h length offset length
  require (data.length = length) .unexpectedEof
  pure data

/-- Writes all bytes, as many as a call takes at a time. -/
def writeAll (h : Handle N) : ℕ → ℕ → List UInt8 → Effect (Os N) IoError Unit
  | 0, _, _ => pure ()
  | fuel + 1, offset, bytes =>
    if bytes = [] then pure ()
    else do
      let count ← call (writeBody h offset bytes)
      writeAll h fuel (offset + count) (bytes.drop count)

end Definitions

/-! ## What a call leaves -/

section Leaves

variable {os : Os N} {body : Body N α}

/-- A call meets the first fault, fails by itself, or does what its body says. -/
theorem wp_call_of_head {Q : α → Os N → Prop} {E : IoError → Os N → Prop}
    (hfault : ∀ e, os.faults.headD .none = .error e → E e os.failed)
    (herror : ∀ bound e, body bound os.disk = .error e → E e os.failed)
    (hok : ∀ bound outcome, body bound os.disk = .ok outcome → Q outcome.value (os.done outcome)) :
    wp (call body) Q E os := by
  have hperform : ∀ bound, wp (fun os => call.perform os (body bound os.disk)) Q E os := by
    intro bound
    simp only [wp]
    cases hbody : body bound os.disk with
    | error e => exact herror bound e hbody
    | ok outcome => exact hok bound outcome hbody
  unfold wp call
  cases hhead : os.faults.headD .none with
  | none => exact hperform none
  | short count => exact hperform (some count)
  | error e => exact hfault e hhead

theorem wp_call {Q : α → Os N → Prop} {E : IoError → Os N → Prop}
    (herror : ∀ e, (.error e ∈ os.faults ∨ ∃ bound, body bound os.disk = .error e) → E e os.failed)
    (hok : ∀ bound outcome, body bound os.disk = .ok outcome → Q outcome.value (os.done outcome)) :
    wp (call body) Q E os := by
  refine wp_call_of_head (fun e hhead => herror e (.inl ?_))
    (fun bound e hbody => herror e (.inr ⟨bound, hbody⟩)) hok
  cases hfaults : os.faults with
  | nil => simp [hfaults] at hhead
  | cons fault rest => simp_all

theorem Os.Calm.failed (h : os.Calm) : os.failed.Calm :=
  fun e he => h e (List.mem_of_mem_tail he)

theorem Os.Calm.done (h : os.Calm) (outcome : Outcome N α) : (os.done outcome).Calm :=
  fun e he => h e (List.mem_of_mem_tail he)

end Leaves

/-! ## What the bodies do -/

section Bodies

variable {d : Disk N} {bound : Option ℕ} {path : List (Segment N)}

theorem locate_eq_ok {follow : Bool} {p : Location N} {e : Entry N}
    (h : d.locate follow path = .ok (p, e)) :
    d.tree.resolve follow path = .ok (.found p) ∧ d.tree.Canonical p ∧ d.tree.find p = some e ∧
      (follow = true → ∀ target, e.kind ≠ .symlink target) := by
  unfold Disk.locate at h
  split at h
  next => cases h
  next => cases h
  next q hresolve =>
    obtain ⟨hcanonical, e', hfind, hlink⟩ := Tree.resolve_sound hresolve
    rw [hfind] at h
    cases h
    exact ⟨hresolve, hcanonical, hfind, hlink⟩

theorem locate_path {follow : Bool} {p : Location N} {e : Entry N} (hcanonical : d.tree.Canonical p)
    (hfind : d.tree.find p = some e) (hlink : follow = true → ∀ target, e.kind ≠ .symlink target) :
    d.locate follow (Tree.path p) = .ok (p, e) := by
  rw [Disk.locate, Tree.resolve_of_found hcanonical hfind hlink]
  dsimp only
  rw [hfind]

variable {p q : Location N}

/-- Where a canonical location leads to, if to anything. -/
theorem locate_path_eq_ok {e : Entry N} (hcanonical : d.tree.Canonical p)
    (h : d.locate false (Tree.path p) = .ok (q, e)) : q = p ∧ d.tree.find p = some e := by
  cases hfind : d.tree.find p with
  | none =>
    rw [Disk.locate, Tree.resolve_of_missing hcanonical hfind] at h
    cases h
  | some e' =>
    rw [locate_path hcanonical hfind (by simp)] at h
    cases h
    exact ⟨rfl, rfl⟩

/-- Where a canonical location ends. -/
theorem resolve_path_location {p : Location N} (hcanonical : d.tree.Canonical p) {spot : Spot N}
    (h : d.tree.resolve false (Tree.path p) = .ok spot) : spot.location = p := by
  cases hfind : d.tree.find p with
  | none =>
    rw [Tree.resolve_of_missing hcanonical hfind] at h
    cases h
    rfl
  | some e =>
    rw [Tree.resolve_of_found hcanonical hfind (by simp)] at h
    cases h
    rfl

variable [DecidableEq N]

theorem openCreateBody_ok {mode : ℕ} {outcome : Outcome N (Handle N)}
    (h : openCreateBody path mode bound d = .ok outcome) :
    (∃ p, d.tree.resolve false path = .ok (.missing p) ∧
      outcome = ⟨.regular d.tree.nextIno, d.create p .regular mode⟩) ∨
    ∃ p e, d.tree.resolve false path = .ok (.found p) ∧ d.tree.find p = some e ∧
      outcome = ⟨⟨e.ino, e.kind⟩, d⟩ := by
  unfold openCreateBody at h
  split at h
  next => cases h
  next p hmissing =>
    cases h
    exact .inl ⟨p, hmissing, rfl⟩
  next p hfound =>
    split at h
    next => cases h
    next => cases h
    next => cases h
    next e hlink hdirectory hfind =>
      cases h
      exact .inr ⟨p, e, hfound, hfind, rfl⟩

theorem unlinkBody_path_ok {p : Location N} {outcome : Outcome N Unit}
    (hcanonical : d.tree.Canonical p) (h : unlinkBody (Tree.path p) bound d = .ok outcome) :
    outcome = ⟨(), { d with tree := d.tree.erase p }⟩ := by
  obtain ⟨⟨q, e⟩, hlocate, hrest⟩ := bind_eq_ok_iff.1 h
  obtain ⟨rfl, -⟩ := locate_path_eq_ok hcanonical hlocate
  dsimp only at hrest
  split at hrest
  next => cases hrest
  next =>
    cases hrest
    rfl

theorem unlinkBody_path {p : Location N} {ino : ℕ} (hcanonical : d.tree.Canonical p)
    (hfind : d.tree.find p = some ⟨ino, .regular⟩) :
    unlinkBody (Tree.path p) bound d = .ok ⟨(), { d with tree := d.tree.erase p }⟩ := by
  rw [unlinkBody, locate_path hcanonical hfind (by simp)]
  rfl

theorem linkBody_path_ok {outcome : Outcome N Unit} (hp : d.tree.Canonical p)
    (hq : d.tree.Canonical q) (h : linkBody (Tree.path p) (Tree.path q) bound d = .ok outcome) :
    ∃ e, d.tree.find p = some e ∧ d.tree.find q = none ∧
      outcome = ⟨(), { d with tree := d.tree.insert q e }⟩ := by
  obtain ⟨⟨p', e⟩, hlocate, hrest⟩ := bind_eq_ok_iff.1 h
  obtain ⟨rfl, hfind⟩ := locate_path_eq_ok hp hlocate
  dsimp only at hrest
  split at hrest
  next => cases hrest
  next =>
    cases hother : d.tree.find q with
    | some e' =>
      rw [Tree.resolve_of_found hq hother (by simp)] at hrest
      cases hrest
    | none =>
      rw [Tree.resolve_of_missing hq hother] at hrest
      cases hrest
      exact ⟨e, hfind, rfl, rfl⟩

/-- What is no directory can take any name that no directory has. -/
theorem renameBody_path {p q : Location N} {e : Entry N} (hp : d.tree.Canonical p)
    (hq : d.tree.Canonical q) (hfind : d.tree.find p = some e) (hkind : e.kind ≠ .directory)
    (hdirectory : d.tree.isDirectory q = false) :
    ∃ outcome, renameBody (Tree.path p) (Tree.path q) bound d = .ok outcome := by
  have hroot' : q ≠ [] := by
    rintro rfl
    cases hdirectory
  have hspot : ∃ spot, d.tree.resolve false (Tree.path q) = .ok spot ∧ spot.location = q := by
    cases hq' : d.tree.find q with
    | none => exact ⟨_, Tree.resolve_of_missing hq hq', rfl⟩
    | some e => exact ⟨_, Tree.resolve_of_found hq hq' (by simp), rfl⟩
  obtain ⟨spot, hspot, hlocation⟩ := hspot
  have hroot : p ≠ [] := by
    rintro rfl
    cases hfind
    exact hkind rfl
  have hmay : mayReplace d p q e = .ok () := by
    unfold mayReplace
    split
    case h_4 hq' _ =>
      rw [Tree.isDirectory_iff.2 ⟨_, hq'⟩] at hdirectory
      cases hdirectory
    all_goals first | rfl | contradiction
  rw [renameBody, locate_path hp hfind (by simp)]
  dsimp only [bind, Except.bind]
  rw [hspot]
  dsimp only
  rw [hlocation, if_neg (by simp [hroot, hroot'])]
  split
  next => exact ⟨_, rfl⟩
  next =>
    rw [hmay]
    exact ⟨_, rfl⟩

/-- A rename moves an entry, or finds two names of one file and does nothing. -/
theorem renameBody_path_ok {p q : Location N} {outcome : Outcome N Unit} (hp : d.tree.Canonical p)
    (hq : d.tree.Canonical q) (h : renameBody (Tree.path p) (Tree.path q) bound d = .ok outcome) :
    ∃ e, d.tree.find p = some e ∧ p ≠ [] ∧
      ((d.tree.find q = some e ∧ outcome.disk = d) ∨
        d.tree.find q ≠ some e ∧ mayReplace d p q e = .ok () ∧
          outcome.disk = { d with tree := d.tree.move p q }) := by
  obtain ⟨⟨p', e⟩, hlocate, hrest⟩ := bind_eq_ok_iff.1 h
  obtain ⟨rfl, hfind⟩ := locate_path_eq_ok hp hlocate
  obtain ⟨spot, hspot, hend⟩ := bind_eq_ok_iff.1 hrest
  have hq' := resolve_path_location hq hspot
  dsimp only at hend
  rw [hq'] at hend
  split at hend
  next => cases hend
  next hroot =>
    rw [not_or] at hroot
    split at hend
    next hsame =>
      cases hend
      exact ⟨e, hfind, hroot.1, .inl ⟨by simpa [sameFile] using hsame, rfl⟩⟩
    next hother =>
      obtain ⟨⟨⟩, hmay, hmoved⟩ := bind_eq_ok_iff.1 hend
      cases hmoved
      exact ⟨e, hfind, hroot.1, .inr ⟨by simpa [sameFile] using hother, hmay, rfl⟩⟩

end Bodies

/-! ## What the loops do -/

section Loops

/-- Nothing changes on the disk. -/
structure Quiet (os os' : Os N) : Prop where
  disk : os'.disk = os.disk
  calm : os.Calm → os'.Calm

variable {os os' os'' : Os N}

theorem Quiet.refl (os : Os N) : Quiet os os := ⟨rfl, id⟩

theorem Quiet.trans (h : Quiet os os') (h' : Quiet os' os'') : Quiet os os'' :=
  ⟨h'.disk.trans h.disk, fun hcalm => h'.calm (h.calm hcalm)⟩

theorem quiet_failed (os : Os N) : Quiet os os.failed := ⟨rfl, Os.Calm.failed⟩

theorem quiet_done {outcome : Outcome N α} (hdisk : outcome.disk = os.disk) :
    Quiet os (os.done outcome) :=
  ⟨hdisk, fun h => h.done outcome⟩

variable {h : Handle N}

variable {c : List UInt8} {offset : ℕ}

section Reads

variable [DecidableEq N]

/-- A read gives the bytes that are there. It fails for a fault, or at a directory. -/
theorem wp_read {offset length : ℕ} :
    wp (call (readBody h offset length))
      (fun piece os' => (∃ bound, piece =
          ((os.disk.inode h.ino).content.drop offset).take (Disk.bounded bound length)) ∧
        Quiet os os')
      (fun _ os' => (¬ os.Calm ∨ h.kind = .directory) ∧ Quiet os os') os := by
  apply wp_call
  · intro e he
    refine ⟨?_, quiet_failed _⟩
    rcases he with hfault | ⟨bound, hbody⟩
    · exact .inl fun hcalm => hcalm e hfault
    · refine .inr ?_
      unfold readBody at hbody
      split at hbody
      next hdirectory => exact hdirectory
      next => cases hbody
  · intro bound outcome hbody
    unfold readBody at hbody
    split at hbody
    next => cases hbody
    next =>
      cases hbody
      exact ⟨⟨bound, rfl⟩, quiet_done rfl⟩

/-- A piece that was read is empty only at the end. -/
theorem bounded_pos {bound : Option ℕ} {length : ℕ} (h : 0 < length) :
    0 < Disk.bounded bound length := by
  unfold Disk.bounded
  split <;> omega

theorem bounded_le (bound : Option ℕ) (length : ℕ) : Disk.bounded bound length ≤ length := by
  unfold Disk.bounded
  split <;> omega

theorem wp_readToEnd {size fuel offset : ℕ} (hsize : 0 < size)
    (hfuel : (os.disk.inode h.ino).content.length < offset + fuel) :
    wp (readToEnd h size fuel offset)
      (fun data os' => data = (os.disk.inode h.ino).content.drop offset ∧ Quiet os os')
      (fun _ os' => (¬ os.Calm ∨ h.kind = .directory) ∧ Quiet os os') os := by
  induction fuel generalizing offset os with
  | zero =>
    refine ⟨?_, Quiet.refl os⟩
    rw [List.drop_eq_nil_of_le (by omega)]
  | succ fuel ih =>
    rw [readToEnd, wp_bind]
    apply wp_mono wp_read
    · rintro piece os' ⟨⟨bound, hpiece⟩, hquiet⟩
      have hpos : 0 < Disk.bounded bound size := bounded_pos hsize
      split
      next hnil =>
        refine ⟨?_, hquiet⟩
        rw [hnil] at hpiece
        rcases List.take_eq_nil_iff.1 hpiece.symm with hzero | hend
        · omega
        · exact hend.symm
      next hnil =>
        rw [wp_bind]
        have hlength : 0 < piece.length := List.length_pos_iff.2 hnil
        apply wp_mono (ih _)
        · rintro rest os'' ⟨hrest, hquiet'⟩
          refine ⟨?_, hquiet.trans hquiet'⟩
          rw [hquiet.disk] at hrest
          -- What was read and what is left make up the rest of the file.
          rw [hrest, ← List.drop_drop, hpiece]
          exact List.prefix_iff_eq_append.1 (List.take_prefix _ _)
        · rintro e os'' ⟨hwhy, hquiet'⟩
          refine ⟨hwhy.imp_left fun hnot hcalm => hnot (hquiet.calm hcalm), hquiet.trans hquiet'⟩
        · rw [hquiet.disk]
          omega
    · rintro e os' h
      exact h

theorem wp_readAll {size : ℕ} (hsize : 0 < size) :
    wp (readAll h size)
      (fun data os' => data = (os.disk.inode h.ino).content ∧ Quiet os os')
      (fun _ os' => (¬ os.Calm ∨ h.kind = .directory) ∧ Quiet os os') os := by
  have hfuel : (os.disk.inode h.ino).content.length <
      0 + ((os.disk.inode h.ino).content.length + 1) := by omega
  have hread := wp_readToEnd (h := h) hsize hfuel
  rw [List.drop_zero] at hread
  exact hread

theorem wp_readUpTo {fuel offset length : ℕ} (hfuel : length ≤ fuel) :
    wp (readUpTo h fuel offset length)
      (fun data os' => data = ((os.disk.inode h.ino).content.drop offset).take length ∧
        Quiet os os')
      (fun _ os' => (¬ os.Calm ∨ h.kind = .directory) ∧ Quiet os os') os := by
  induction fuel generalizing offset length os with
  | zero =>
    rw [Nat.le_zero.1 hfuel]
    exact ⟨by simp, Quiet.refl os⟩
  | succ fuel ih =>
    rw [readUpTo]
    split
    next hzero =>
      rw [hzero]
      exact ⟨by simp, Quiet.refl os⟩
    next hzero =>
      rw [wp_bind]
      apply wp_mono wp_read
      · rintro piece os' ⟨⟨bound, hpiece⟩, hquiet⟩
        have hpos : 0 < Disk.bounded bound length := bounded_pos (by omega)
        have hle := bounded_le bound length
        split
        next hnil =>
          refine ⟨?_, hquiet⟩
          rw [hnil] at hpiece
          rcases List.take_eq_nil_iff.1 hpiece.symm with hempty | hend
          · omega
          · rw [hend, List.take_nil]
        next hnil =>
          rw [wp_bind]
          have hlength : 0 < piece.length := List.length_pos_iff.2 hnil
          have hshort : piece.length ≤ Disk.bounded bound length := by
            rw [hpiece]
            exact List.length_take_le _ _
          apply wp_mono (ih (by omega))
          · rintro rest os'' ⟨hrest, hquiet'⟩
            refine ⟨?_, hquiet.trans hquiet'⟩
            rw [hquiet.disk, ← List.drop_drop] at hrest
            rw [hrest, ← List.take_append_drop piece.length
              (((os.disk.inode h.ino).content.drop offset).take length), List.take_take,
              Nat.min_eq_left (by omega), List.drop_take]
            congr 1
            rw [hpiece]
            exact List.prefix_iff_eq_take.1 (List.take_prefix _ _)
          · rintro e os'' ⟨hwhy, hquiet'⟩
            exact ⟨hwhy.imp_left fun hnot hcalm => hnot (hquiet.calm hcalm),
              hquiet.trans hquiet'⟩
      · exact fun e os' herror => herror

theorem wp_readExact {offset length : ℕ} :
    wp (readExact h offset length)
      (fun data os' => data = ((os.disk.inode h.ino).content.drop offset).take length ∧
        data.length = length ∧ Quiet os os')
      (fun _ os' => (¬ os.Calm ∨ h.kind = .directory ∨
          (os.disk.inode h.ino).content.length < offset + length) ∧ Quiet os os') os := by
  rw [readExact, wp_bind]
  apply wp_mono (wp_readUpTo le_rfl)
  · rintro data os' ⟨hdata, hquiet⟩
    rw [wp_bind]
    apply wp_require
    · intro hlength
      exact ⟨hdata, hlength, hquiet⟩
    · intro hlength
      refine ⟨.inr (.inr ?_), hquiet⟩
      rw [hdata, List.length_take, List.length_drop] at hlength
      omega
  · rintro e os' ⟨hwhy, hquiet⟩
    exact ⟨hwhy.imp_right .inl, hquiet⟩

/-! ### Writing -/

end Reads

theorem splice_of_le (h : offset ≤ c.length) (bytes : List UInt8) :
    Disk.splice c offset bytes = c.take offset ++ bytes ++ c.drop (offset + bytes.length) := by
  simp [Disk.splice, Nat.sub_eq_zero_of_le h]

/-- Two writes, the second where the first one ended. -/
theorem splice_append (h : offset ≤ c.length) (a b : List UInt8) :
    Disk.splice (Disk.splice c offset a) (offset + a.length) b = Disk.splice c offset (a ++ b) := by
  have htake : (c.take offset).length = offset := by
    rw [List.length_take, Nat.min_eq_left h]
  have hfront : (c.take offset ++ a).length = offset + a.length := by
    rw [List.length_append, htake]
  rw [splice_of_le h, splice_of_le h, splice_of_le (by rw [List.length_append, hfront]; omega)]
  rw [← hfront, List.take_left, List.drop_append, List.drop_drop, List.length_append]
  rw [List.drop_eq_nil_of_le (by omega), List.nil_append, htake, Nat.add_sub_cancel_left,
    List.length_append]
  simp only [List.append_assoc, Nat.add_assoc]

/-- The bytes of a file from an offset on were overwritten, and nothing else happened. -/
structure Wrote (h : Handle N) (offset : ℕ) (bytes : List UInt8) (os os' : Os N) : Prop where
  tree : os'.disk.tree = os.disk.tree
  other : ∀ i, i ≠ h.ino → os'.disk.inode i = os.disk.inode i
  content : (os'.disk.inode h.ino).content =
    Disk.splice (os.disk.inode h.ino).content offset bytes
  fits : bytes = [] ∨ offset + bytes.length ≤ maxFileSize

section Wrote

variable {offset : ℕ} {bytes : List UInt8}

theorem Wrote.of_quiet (hquiet : Quiet os os')
    (hoffset : offset ≤ (os.disk.inode h.ino).content.length) : Wrote h offset [] os os' where
  tree := by rw [hquiet.disk]
  other := fun i _ => by rw [hquiet.disk]
  content := by simp [hquiet.disk, Disk.splice, Nat.sub_eq_zero_of_le hoffset]
  fits := .inl rfl

theorem Wrote.length_le (hwrote : Wrote h offset bytes os os')
    (hoffset : offset ≤ (os.disk.inode h.ino).content.length) :
    offset + bytes.length ≤ (os'.disk.inode h.ino).content.length := by
  rw [hwrote.content, splice_of_le hoffset, List.length_append, List.length_append,
    List.length_take, Nat.min_eq_left hoffset]
  omega

theorem Wrote.trans {next : ℕ} {more : List UInt8} (hwrote : Wrote h offset bytes os os')
    (hmore : Wrote h next more os' os'') (hnext : next = offset + bytes.length)
    (hoffset : offset ≤ (os.disk.inode h.ino).content.length) :
    Wrote h offset (bytes ++ more) os os'' where
  tree := hmore.tree.trans hwrote.tree
  other := fun i hi => (hmore.other i hi).trans (hwrote.other i hi)
  content := by rw [hmore.content, hwrote.content, hnext, splice_append hoffset]
  fits := by
    rw [List.length_append]
    rcases hmore.fits with rfl | hfits
    · rw [List.append_nil, List.length_nil, Nat.add_zero]
      exact hwrote.fits
    · exact .inr (by omega)

theorem wp_write :
    wp (call (writeBody h offset bytes))
      (fun count os' => count ≤ bytes.length ∧ (bytes ≠ [] → 0 < count) ∧
        Wrote h offset (bytes.take count) os os')
      (fun _ os' => Quiet os os') os := by
  apply wp_call
  · exact fun e _ => quiet_failed _
  · intro bound outcome hbody
    unfold writeBody at hbody
    split at hbody
    next => cases hbody
    next hroom =>
      cases hbody
      have hle := bounded_le bound bytes.length
      -- The bytes that are taken are those that are there and fit.
      generalize hcount : min (maxFileSize - offset) (Disk.bounded bound bytes.length) = count
      dsimp only
      rw [List.length_take, Nat.min_eq_left (by omega)]
      refine ⟨by omega, ?_, ⟨rfl, ?_, ?_, ?_⟩⟩
      · intro hne
        have hpos := @bounded_pos bound _ (List.length_pos_iff.2 hne)
        omega
      · intro i hi
        exact Function.update_of_ne hi _ _
      · simp [Os.done, Disk.setInode]
      · rw [List.length_take]
        exact .inr (by omega)

/-- A loop that fails has written a part. -/
theorem wp_writeAll {fuel : ℕ} (hfuel : bytes.length ≤ fuel)
    (hoffset : offset ≤ (os.disk.inode h.ino).content.length) :
    wp (writeAll h fuel offset bytes)
      (fun _ os' => Wrote h offset bytes os os')
      (fun _ os' => ∃ count, count ≤ bytes.length ∧ Wrote h offset (bytes.take count) os os')
      os := by
  induction fuel generalizing offset bytes os with
  | zero =>
    rw [List.length_eq_zero_iff.1 (Nat.le_zero.1 hfuel)]
    exact Wrote.of_quiet (Quiet.refl os) hoffset
  | succ fuel ih =>
    rw [writeAll]
    split
    next hnil =>
      rw [hnil]
      exact Wrote.of_quiet (Quiet.refl os) hoffset
    next hnil =>
      rw [wp_bind]
      apply wp_mono wp_write
      · rintro count os' ⟨hcount, hpos, hwrote⟩
        have htaken : (bytes.take count).length = count := by
          rw [List.length_take, Nat.min_eq_left hcount]
        have hnext := hwrote.length_le hoffset
        rw [htaken] at hnext
        have hleft : (bytes.drop count).length ≤ fuel := by
          rw [List.length_drop]
          have := hpos hnil
          omega
        apply wp_mono (ih hleft hnext)
        · intro _ os'' hrest
          have htrans := hwrote.trans hrest (by rw [htaken]) hoffset
          rwa [List.take_append_drop] at htrans
        · rintro e os'' ⟨more, hmore, hrest⟩
          have htrans := hwrote.trans hrest (by rw [htaken]) hoffset
          rw [← List.take_add] at htrans
          rw [List.length_drop] at hmore
          exact ⟨count + more, by omega, htrans⟩
      · intro e os' hquiet
        exact ⟨0, Nat.zero_le _, by simpa using Wrote.of_quiet hquiet hoffset⟩

end Wrote

end Loops

end AstraShell.Lib.FileTree
