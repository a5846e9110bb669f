import AstraShell.Files.Begin
import Mathlib.Logic.Relation

/-!
# Uploads that are resumed

One transfer of a byte string, from a disk that has no temporary file of it. Its requests come in
any order and any number, a chunk is any part of the byte string, calls fail wherever they may fail,
the service is restarted at any time, and everything else on the machine does as it likes as long as
it keeps its hands off the temporary file and the target.

Through all this the temporary file has a prefix of the byte string, and the registered offset is
not past its end (`Inv`, `Inv.step`). `resumable_upload` puts together what follows for the
requests.
-/

set_option autoImplicit false

namespace AstraShell.Files

open Lib Lib.Effect Lib.FileTree Resources Service

/-- The transfer of a byte string, declared with its digest or without one. -/
structure Transfer where
  id : String
  path : List UInt8
  content : List UInt8
  declaresDigest : Bool

/-- A request of a transfer. The data of a chunk is the part of the content at its offset. -/
inductive TransferRequest where
  | begin (overwrite : Bool) (mode : ℕ)
  | query
  | write (offset length : ℕ) (sha256 : List UInt8) (encoding uncompressedSize : ℕ)
  | commit
  | abort

namespace Transfer

variable (s : Service) (t : Transfer)

def digest : List UInt8 := if t.declaresDigest then s.platform.sha256 t.content else []

def slice (offset length : ℕ) : List UInt8 := (t.content.drop offset).take length

def chunk (offset length : ℕ) (sha256 : List UInt8) (encoding uncompressedSize : ℕ) :
    WriteFileChunkRequest :=
  ⟨t.id, offset, t.slice offset length, sha256, encoding, uncompressedSize⟩

def request : TransferRequest → Request
  | .begin overwrite mode =>
    .beginUpload ⟨t.id, t.path, t.content.length, t.digest s, overwrite, mode⟩
  | .query => .queryUpload t.id
  | .write offset length sha256 encoding uncompressedSize =>
    .writeChunk (t.chunk offset length sha256 encoding uncompressedSize)
  | .commit => .commitUpload t.id
  | .abort => .abortUpload t.id

end Transfer

/-- A temporary file of a transfer, in whatever directory. -/
def TemporaryOf (id : String) (p : Location FileName) : Prop :=
  p.getLast? = some (temporaryName id)

/-- Something else happens: other transfers, other programs. The temporary file and the target are
left alone, and the registry may forget the transfer unless it is active. -/
structure Untouched (id : String) (w w' : World) : Prop where
  registry : w'.uploads.get? id = w.uploads.get? id ∨
    (∀ u, w.uploads.get? id = some u → u.state ≠ .active) ∧ w'.uploads.get? id = none
  temporary : ∀ p, TemporaryOf id p → w'.os.disk.tree.find p = w.os.disk.tree.find p ∧
    ∀ e, w.os.disk.tree.find p = some e →
      (w'.os.disk.inode e.ino).content = (w.os.disk.inode e.ino).content
  directory : ∀ u, w.uploads.get? id = some u → w.os.disk.tree.Reached u.directory →
    w'.os.disk.tree.Reached u.directory
  target : ∀ u bytes, w.uploads.get? id = some u → Holds w.os.disk u.target bytes →
    Holds w'.os.disk u.target bytes

/-- A step of the system around a transfer. -/
inductive Transfer.Step (s : Service) (t : Transfer) : World → World → Prop
  | request (w : World) (r : TransferRequest) (faults : List Fault) :
      Step s t w (s.serveWith (t.request s r) faults w).2
  | restart (w : World) (pools : List ResourcePool) :
      Step s t w { w with uploads := OrdMap.empty, pools := pools }
  | other {w w' : World} (h : Untouched t.id w w') : Step s t w w'

/-- The transfer is not known, and nothing of it is on the disk. -/
structure Transfer.Initial (t : Transfer) (w : World) : Prop where
  unknown : w.uploads.get? t.id = none
  absent : ∀ p, TemporaryOf t.id p → w.os.disk.tree.find p = none

/-! ## The invariant -/

/-- What a temporary file may hold. -/
structure PartOf (t : Transfer) (d : Disk FileName) (e : Entry FileName) : Prop where
  part : (d.inode e.ino).content <+: t.content
  short : (d.inode e.ino).content.length ≤ maxFileSize

structure Registered (t : Transfer) (d : Disk FileName) (u : Upload) : Prop where
  transferId : u.transferId = t.id
  size : u.size = t.content.length
  active : u.state = .active → ∃ ino, Ready d u ino
  completed : u.state = .completed → Holds d u.target t.content

structure Inv (t : Transfer) (w : World) : Prop where
  temporary : ∀ p e, TemporaryOf t.id p → w.os.disk.tree.find p = some e → PartOf t w.os.disk e
  registered : ∀ u, w.uploads.get? t.id = some u → Registered t w.os.disk u

section Parts

variable {s : Service} {t : Transfer} {d d' : Disk FileName} {e : Entry FileName}

theorem PartOf.of_content (h : PartOf t d e)
    (hcontent : (d'.inode e.ino).content = (d.inode e.ino).content) : PartOf t d' e := by
  constructor
  · rw [hcontent]
    exact h.part
  · rw [hcontent]
    exact h.short

variable {u : Upload}

theorem temporaryOf_temporary (h : u.transferId = t.id) : TemporaryOf t.id u.temporary := by
  rw [TemporaryOf, u.temporary_eq, List.getLast?_concat, h]

/-- Bytes of a byte string that are written to a prefix of it, where they belong. -/
theorem splice_slice {content whole : List UInt8} {offset : ℕ} (hpart : content <+: whole)
    (hoffset : offset ≤ content.length) (count : ℕ) :
    Disk.splice content offset ((whole.drop offset).take count) <+: whole ∧
      content.length ≤ (Disk.splice content offset ((whole.drop offset).take count)).length := by
  obtain ⟨rest, rfl⟩ := hpart
  rw [splice_of_le hoffset]
  rw [List.drop_append_of_le_length hoffset]
  generalize hbytes : ((content.drop offset ++ rest).take count) = bytes
  -- Either the bytes end inside the prefix, or they are what it becomes.
  rcases Nat.le_total count (content.drop offset).length with hle | hle
  · have hin : bytes = (content.drop offset).take count := by
      rw [← hbytes, List.take_append_of_le_length hle]
    have hwhole : content.take offset ++ bytes ++ content.drop (offset + bytes.length) =
        content := by
      rw [hin, List.length_take, Nat.min_eq_left hle, ← List.drop_drop, List.append_assoc,
        List.take_append_drop, List.take_append_drop]
    rw [hwhole]
    exact ⟨List.prefix_append _ _, le_rfl⟩
  · have hout : bytes =
      content.drop offset ++ rest.take (count - (content.drop offset).length) := by
      rw [← hbytes, List.take_append, List.take_of_length_le hle]
    have hend : content.drop (offset + bytes.length) = [] := by
      apply List.drop_eq_nil_of_le
      rw [hout, List.length_append, List.length_drop]
      omega
    rw [hend, List.append_nil, hout, ← List.append_assoc, List.take_append_drop]
    refine ⟨?_, by simp⟩
    exact (List.prefix_append_right_inj content).2 (List.take_prefix _ _)

/-- A part of the content was written to the file of a ready upload. -/
structure Grows (t : Transfer) (ino : ℕ) (d d' : Disk FileName) : Prop where
  tree : d'.tree = d.tree
  other : ∀ i, i ≠ ino → d'.inode i = d.inode i
  part : (d'.inode ino).content <+: t.content
  short : (d'.inode ino).content.length ≤ maxFileSize
  length : (d.inode ino).content.length ≤ (d'.inode ino).content.length

variable {ino : ℕ}

theorem grows_of_wrote {offset count : ℕ} {os os' : Os FileName}
    (h : PartOf t os.disk ⟨ino, .regular⟩) (hoffset : offset ≤ (os.disk.inode ino).content.length)
    (hwrote : Wrote (.regular ino) offset (t.slice offset count) os os') :
    Grows t ino os.disk os'.disk := by
  obtain ⟨hpart, hlength⟩ := splice_slice h.part hoffset count
  have hcontent : (os'.disk.inode ino).content =
      Disk.splice (os.disk.inode ino).content offset ((t.content.drop offset).take count) :=
    hwrote.content
  refine ⟨hwrote.tree, hwrote.other, ?_, ?_, ?_⟩
  · rw [hcontent]
    exact hpart
  · -- The file ends where it ended, or where the bytes end.
    have hshort : (os.disk.inode ino).content.length ≤ maxFileSize := h.short
    have hfits := hwrote.fits
    rw [Transfer.slice] at hfits
    rw [hcontent, splice_of_le hoffset, List.length_append, List.length_append, List.length_take,
      Nat.min_eq_left hoffset, List.length_drop]
    rcases hfits with hnil | hfits
    · rw [hnil, List.length_nil]
      omega
    · omega
  · rw [hcontent]
    exact hlength

theorem Grows.partOf (h : Grows t ino d d') (he : PartOf t d e) : PartOf t d' e := by
  by_cases hino : e.ino = ino
  · constructor
    · rw [hino]
      exact h.part
    · rw [hino]
      exact h.short
  · exact he.of_content (by rw [h.other _ hino])

variable {q : Location FileName}
  (htemporary : ∀ q e, TemporaryOf t.id q → d.tree.find q = some e → PartOf t d e)

include htemporary

theorem Opened.partOf {p : Location FileName} (h : Opened p ino d d')
    (hq : TemporaryOf t.id q) (hfind : d'.tree.find q = some e) :
    PartOf t d' e := by
  by_cases hqp : q = p
  · subst hqp
    rw [h.find_self] at hfind
    cases hfind
    rcases h.content with ⟨hold, rfl⟩ | hnew
    · exact htemporary q _ hq hold
    · constructor
      · dsimp only
        rw [hnew]
        exact List.nil_prefix
      · dsimp only
        rw [hnew]
        exact Nat.zero_le _
  · rw [h.find_other hqp] at hfind
    exact (htemporary q e hq hfind).of_content (by rw [h.inode (Tree.ino_lt hfind)])

/-- A publication gives a temporary name only what a temporary name had. -/
theorem Publication.partOf {tree' : FileTree.Tree FileName}
    (h : Publication d.tree u ino tree') (hready : Ready d u ino) (hid : u.transferId = t.id)
    (hq : TemporaryOf t.id q) (hfind : tree'.find q = some e) :
    PartOf t d e := by
  have hself := htemporary u.temporary _ (temporaryOf_temporary hid) hready.file
  cases h with
  | same => exact htemporary q e hq hfind
  | moved hoverwrite hne htarget =>
    have hroot : u.temporary ≠ [] := by simp [u.temporary_eq]
    have hroot' : u.target ≠ [] := by
      obtain ⟨name, hname⟩ := u.target_eq
      simp [hname]
    rw [Tree.find_move hroot hroot'] at hfind
    split at hfind
    next hbelow =>
      obtain ⟨below, rfl⟩ := hbelow
      rw [List.drop_left] at hfind
      -- What is below the target was below the temporary file, under the same last name.
      rcases List.eq_nil_or_concat below with rfl | ⟨front, last, rfl⟩
      · rw [List.append_nil, hready.file] at hfind
        cases hfind
        exact hself
      · apply htemporary _ e _ hfind
        rw [TemporaryOf, List.concat_eq_append, ← List.append_assoc, List.getLast?_concat] at hq ⊢
        exact hq
    next =>
      split at hfind
      next => cases hfind
      next => exact htemporary q e hq hfind
  | linked hne htarget =>
    rw [Tree.find_erase (by simp [u.temporary_eq])] at hfind
    split at hfind
    next => cases hfind
    next =>
      rw [Tree.find_insert (Tree.ne_nil_of_find htarget)] at hfind
      split at hfind
      next =>
        cases hfind
        exact hself
      next => exact htemporary q e hq hfind

theorem Linked.partOf {tree' : FileTree.Tree FileName}
    (h : Linked d.tree u ino tree') (hready : Ready d u ino) (hid : u.transferId = t.id)
    (hq : TemporaryOf t.id q) (hfind : tree'.find q = some e) :
    PartOf t d e := by
  cases h with
  | no => exact htemporary q e hq hfind
  | yes hoverwrite htarget =>
    rw [Tree.find_insert (Tree.ne_nil_of_find htarget)] at hfind
    split at hfind
    next =>
      cases hfind
      exact htemporary u.temporary _ (temporaryOf_temporary hid) hready.file
    next => exact htemporary q e hq hfind

end Parts

theorem wp_queryUpload {s : Service} {id : String} {w : World} :
    wp (s.queryUpload id) (fun _ w' => w' = w) (fun _ w' => w' = w) w := by
  rw [queryUpload, wp_bind]
  apply wp_check
  · intro _ _
    rw [wp_bind]
    exact wp_mono wp_findUpload (fun _ _ hfind => hfind.2) (fun _ _ hfind => hfind.2)
  · exact fun _ _ => rfl

namespace Inv

variable {s : Service} {t : Transfer} {w w' : World}

section

variable (h : Inv t w)

include h

/-- The invariant looks at the disk and at the registered transfer. -/
theorem congr (hdisk : w'.os.disk = w.os.disk)
    (huploads : w'.uploads.get? t.id = w.uploads.get? t.id) : Inv t w' := by
  refine ⟨?_, ?_⟩
  · rw [hdisk]
    exact h.temporary
  · rw [hdisk, huploads]
    exact h.registered

theorem same (hsame : Still w w') : Inv t w' :=
  h.congr hsame.disk (by rw [hsame.uploads])

theorem ready (u : Upload) (hu : w.uploads.get? t.id = some u)
    (hactive : u.state = .active) : ∃ ino, Ready w.os.disk u ino :=
  (h.registered u hu).active hactive

theorem partOf_of_ready {u : Upload} (hu : w.uploads.get? t.id = some u) {ino : ℕ}
    (hready : Ready w.os.disk u ino) : PartOf t w.os.disk ⟨ino, .regular⟩ :=
  h.temporary u.temporary _ (temporaryOf_temporary (h.registered u hu).transferId) hready.file

end

/-! ## Steps -/

section

variable (h : Inv t w)

include h

/-- A transfer whose file has grown. -/
theorem grows {u u' : Upload} {ino : ℕ} (hu : w.uploads.get? t.id = some u)
    (hready : Ready w.os.disk u ino) (hgrows : Grows t ino w.os.disk w'.os.disk)
    (hu' : w'.uploads.get? t.id = some u') (hsame : u'.transferId = u.transferId ∧
      u'.target = u.target ∧ u'.size = u.size)
    (hactive : u'.state = .active)
    (hcommitted : u'.committedOffset ≤ (w'.os.disk.inode ino).content.length) : Inv t w' := by
  obtain ⟨hid, htarget, hsize⟩ := hsame
  have hold := h.registered u hu
  refine ⟨?_, fun u'' hu'' => ?_⟩
  · rw [hgrows.tree]
    exact fun q e hq hfind => hgrows.partOf (h.temporary q e hq hfind)
  · rw [hu'] at hu''
    cases hu''
    refine ⟨hid.trans hold.transferId, hsize.trans hold.size,
      fun _ => ⟨ino, ?_, ?_, hcommitted⟩, ?_⟩
    · rw [Upload.directory, htarget, hgrows.tree]
      exact hready.reached
    · rw [Upload.temporary_eq, Upload.directory, htarget, hid, hgrows.tree]
      rw [← Upload.directory, ← Upload.temporary_eq]
      exact hready.file
    · intro hcompleted
      rw [hactive] at hcompleted
      cases hcompleted

theorem write {offset length : ℕ} {sha256 : List UInt8} {encoding uncompressedSize : ℕ} :
    wp (s.writeChunk (t.chunk offset length sha256 encoding uncompressedSize))
      (fun _ w' => Inv t w') (fun _ w' => Inv t w') w := by
  apply wp_mono (wp_writeChunk h.ready)
  · rintro status w' ⟨u, hu, ⟨-, rfl⟩ | ⟨hactive, ino, hready, ⟨-, -, hsame⟩ | hextends⟩⟩
    · exact h
    · exact h.same hsame
    · obtain ⟨hoffset, hwrote, hfits, huploads⟩ := hextends
      have hstart : offset ≤ (w.os.disk.inode ino).content.length := by
        rw [show offset = u.committedOffset from hoffset]
        exact hready.committed
      have hgrows := grows_of_wrote (h.partOf_of_ready hu hready) hstart hwrote
      have hnext := OrdMap.get?_insert_self w.uploads t.id
        { u with committedOffset := offset + (t.slice offset length).length, committed_le := hfits }
      refine h.grows hu hready hgrows ((congrArg (OrdMap.get? · t.id) huploads).trans hnext)
        ⟨rfl, rfl, rfl⟩ hactive ?_
      exact hwrote.length_le hstart
  · rintro e w' (⟨hsame, -⟩ | ⟨u, ino, hu, hactive, hready, htears⟩)
    · exact h.same hsame
    · obtain ⟨hoffset, huploads, count, hcount, hwrote⟩ := htears
      have hstart : offset ≤ (w.os.disk.inode ino).content.length := by
        rw [show offset = u.committedOffset from hoffset]
        exact hready.committed
      have hslice : (t.slice offset length).take count = t.slice offset (min count length) := by
        rw [Transfer.slice, Transfer.slice, List.take_take]
      have hwrote' : Wrote (.regular ino) offset
          (t.slice offset (min count length)) w.os w'.os := by
        rw [← hslice]
        exact hwrote
      have hgrows := grows_of_wrote (h.partOf_of_ready hu hready) hstart hwrote'
      refine h.grows hu hready hgrows (by rw [huploads]; exact hu) ⟨rfl, rfl, rfl⟩ hactive ?_
      exact hready.committed.trans hgrows.length

theorem commit : wp (s.commitUpload t.id) (fun _ w' => Inv t w') (fun _ w' => Inv t w') w := by
  apply wp_mono (wp_commitUpload h.ready)
  · rintro status w' ⟨-, u, hu, ⟨-, rfl⟩ | ⟨hactive, ino, hready, hcommits⟩⟩
    · exact h
    · obtain ⟨hcomplete, hpublished, hcontent, huploads⟩ := hcommits
      have hold := h.registered u hu
      refine ⟨fun q e hq hfind => ?_, fun u' hu' => ?_⟩
      · exact (hpublished.partOf h.temporary hready hold.transferId hq hfind).of_content
          (hcontent _)
      · rw [huploads, OrdMap.get?_insert_self] at hu'
        cases hu'
        refine ⟨hold.transferId, hold.size, nofun, fun _ => ?_⟩
        -- The file that now has the target's name was complete.
        have hcanonical := canonical_target (hpublished.reached hready hready.reached)
        refine ⟨_, _, locate_path hcanonical (hpublished.find_target hready) (by simp), ?_⟩
        rw [hcontent]
        apply (h.partOf_of_ready hu hready).part.eq_of_length_le
        rw [← hold.size, ← hcomplete]
        exact hready.committed
  · rintro e w' (rfl | ⟨u, ino, hu, hactive, hready, hrenames, hlinked⟩)
    · exact h
    · have hold := h.registered u hu
      refine ⟨fun q e hq hfind => ?_, fun u' hu' => ?_⟩
      · exact (hlinked.partOf h.temporary hready hold.transferId hq hfind).of_content
          (hrenames.content _)
      · rw [hrenames.uploads, hu] at hu'
        cases hu'
        refine ⟨hold.transferId, hold.size, fun _ => ⟨ino, ?_⟩, ?_⟩
        · refine ⟨hlinked.reached hready.reached, hlinked.find_some hready.file, ?_⟩
          rw [hrenames.content]
          exact hready.committed
        · intro hcompleted
          rw [hactive] at hcompleted
          cases hcompleted

theorem canonical (u : Upload) (hu : w.uploads.get? t.id = some u)
    (hactive : u.state = .active) : w.os.disk.tree.Canonical u.temporary := by
  obtain ⟨ino, hready⟩ := h.ready u hu hactive
  exact canonical_temporary hready.reached

theorem abort : wp (s.abortUpload t.id) (fun _ w' => Inv t w') (fun _ w' => Inv t w') w := by
  apply wp_mono (wp_abortUpload h.canonical)
  · rintro status w' (rfl | ⟨u, hu, hactive, haborts⟩)
    · exact h
    · obtain ⟨hcontent, htree, huploads⟩ := haborts
      have hold := h.registered u hu
      refine ⟨fun q e hq hfind => ?_, fun u' hu' => ?_⟩
      · have hfind' : w.os.disk.tree.find q = some e := by
          rcases htree with htree | htree
          · rwa [htree] at hfind
          · rw [htree, Tree.find_erase (by simp [u.temporary_eq])] at hfind
            split at hfind
            next => cases hfind
            next => exact hfind
        exact (h.temporary q e hq hfind').of_content (hcontent _)
      · rw [huploads, OrdMap.get?_insert_self] at hu'
        cases hu'
        exact ⟨hold.transferId, hold.size, nofun, nofun⟩
  · exact fun e w' hsame => h.same hsame

theorem other (huntouched : Untouched t.id w w') : Inv t w' := by
  refine ⟨fun q e hq hfind => ?_, fun u hu => ?_⟩
  · obtain ⟨hfind', hcontent⟩ := huntouched.temporary q hq
    rw [hfind'] at hfind
    exact (h.temporary q e hq hfind).of_content (hcontent e hfind)
  · rcases huntouched.registry with hsame | ⟨-, hnone⟩
    · rw [hsame] at hu
      have hold := h.registered u hu
      refine ⟨hold.transferId, hold.size, fun hactive => ?_, fun hcompleted => ?_⟩
      · obtain ⟨ino, hready⟩ := hold.active hactive
        obtain ⟨hfind, hcontent⟩ :=
          huntouched.temporary u.temporary (temporaryOf_temporary hold.transferId)
        refine ⟨ino, huntouched.directory u hu hready.reached, hfind.trans hready.file, ?_⟩
        have hsame := hcontent _ hready.file
        rw [hsame]
        exact hready.committed
      · exact huntouched.target u _ hu (hold.completed hcompleted)
    · rw [hnone] at hu
      cases hu

theorem meeting (faults : List Fault) : Inv t (w.facing faults) :=
  ⟨h.temporary, h.registered⟩

variable (hcollision : ∀ bytes,
      s.platform.sha256 bytes = s.platform.sha256 t.content → bytes = t.content)

include hcollision

theorem begin {overwrite : Bool} {mode : ℕ} :
    wp (s.beginUpload ⟨t.id, t.path, t.content.length, t.digest s, overwrite, mode⟩)
      (fun _ w' => Inv t w') (fun _ w' => Inv t w') w := by
  apply wp_mono wp_beginUpload
  · rintro status w' ⟨target, hnames, ⟨u, -, -, hsame⟩ | ⟨hnone, u, hbegins⟩⟩
    · exact h.same hsame
    · obtain ⟨huploads, hdescribes, houtcome⟩ := hbegins
      have hid : u.transferId = t.id := hdescribes.transferId
      have hregistered : ∀ u', w'.uploads.get? t.id = some u' → u' = u := by
        intro u' hu'
        rw [huploads, OrdMap.get?_insert_self] at hu'
        cases hu'
        rfl
      rcases houtcome with
        ⟨hcompleted, hplace, hdisk⟩ | ⟨hactive, hreached, ino, hopened, hlength⟩
      · refine ⟨by rw [hdisk]; exact h.temporary, fun u' hu' => ?_⟩
        rw [hregistered u' hu']
        refine ⟨hid, hdescribes.size, ?_, fun _ => ?_⟩
        · intro hactive
          rw [hcompleted] at hactive
          cases hactive
        · -- The digest was declared, and only the content has it.
          obtain ⟨hlength, bytes, hholds, -, hsha⟩ := hplace
          have hdeclared : t.digest s = s.platform.sha256 t.content := by
            rw [Transfer.digest] at hlength ⊢
            split
            next => rfl
            next hnot =>
              rw [if_neg hnot] at hlength
              cases hlength
          rw [hdisk, hdescribes.target]
          rwa [hcollision bytes (hsha.trans hdeclared)] at hholds
      · refine ⟨fun q e hq hfind => hopened.partOf h.temporary hq hfind, fun u' hu' => ?_⟩
        rw [hregistered u' hu']
        refine ⟨hid, hdescribes.size, fun _ => ⟨ino, ?_⟩, ?_⟩
        · refine ⟨?_, hopened.find_self, le_of_eq hlength⟩
          rw [Upload.directory, hdescribes.target]
          exact hopened.reached hreached
        · intro hcompleted
          rw [hactive] at hcompleted
          cases hcompleted
  · rintro e w' (⟨huploads, hdisk⟩ | ⟨hnone, huploads, directory, hlitter⟩)
    · exact h.congr hdisk (by rw [huploads])
    · -- The transfer is not known before or after; a new file is empty.
      refine ⟨?_, fun u hu => ?_⟩
      · rcases hlitter with hdisk | ⟨ino, hopened⟩
        · rw [hdisk]
          exact h.temporary
        · exact fun q e hq hfind => hopened.partOf h.temporary hq hfind
      · rw [huploads, get?_activeUploads] at hu
        rw [hnone] at hu
        cases hu.1

theorem step (hstep : Transfer.Step s t w w') : Inv t w' := by
  cases hstep with
  | request r faults =>
    have h' := h.meeting faults
    rw [serveWith]
    apply wp_iff_state.1
    cases r with
    | begin overwrite mode => exact wp_bind.2 (h'.begin hcollision)
    | query =>
      apply wp_bind.2
      exact wp_mono wp_queryUpload (fun _ _ hsame => hsame ▸ h') (fun _ _ hsame => hsame ▸ h')
    | write offset length sha256 encoding uncompressedSize => exact wp_bind.2 h'.write
    | commit => exact wp_bind.2 h'.commit
    | abort => exact wp_bind.2 h'.abort
  | restart pools => exact ⟨h.temporary, fun _ hu => by cases hu⟩
  | other huntouched => exact h.other huntouched

end

theorem run {w₀ : World} (hinitial : t.Initial w₀) (hcollision : ∀ bytes,
      s.platform.sha256 bytes = s.platform.sha256 t.content → bytes = t.content)
    (hrun : Relation.ReflTransGen (Transfer.Step s t) w₀ w) : Inv t w := by
  induction hrun with
  | refl =>
    refine ⟨fun p e hp hfind => ?_, fun u hu => ?_⟩
    · rw [hinitial.absent p hp] at hfind
      cases hfind
    · rw [hinitial.unknown] at hu
      cases hu
  | tail _ hstep ih => exact ih.step hcollision hstep

end Inv

/-! ## What the requests of a transfer do -/

/-- The disk, the registry and the pools are as before. -/
structure Unchanged (w w' : World) : Prop where
  disk : w'.os.disk = w.os.disk
  uploads : w'.uploads = w.uploads
  pools : w'.pools = w.pools

/-- Names that exist stay as they are, or they are temporary names and go. -/
def Keeps (id : String) (tree tree' : FileTree.Tree FileName) : Prop :=
  ∀ p e, tree.find p = some e →
    tree'.find p = some e ∨ TemporaryOf id p ∧ tree'.find p = none

theorem run_upload (m : ServiceM UploadStatus) (w : World) :
    (do return Response.upload (← m) : ServiceM Response) w =
      ((m w).1.map Response.upload, (m w).2) := by
  simp only [bind, andThen]
  rcases m w with ⟨_ | _, _⟩ <;> rfl

variable {w' w : World} {status : UploadStatus}

theorem run_upload_ok {m : ServiceM UploadStatus}
    (h : (do return Response.upload (← m) : ServiceM Response) w = (.ok (.upload status), w')) :
    m w = (.ok status, w') := by
  rw [run_upload] at h
  rcases hrun : m w with ⟨e | status', w''⟩
  · rw [hrun] at h
    cases h
  · rw [hrun] at h
    cases h
    rfl

namespace Inv

variable {s : Service} {t : Transfer} {w : World}

variable {faults : List Fault} {u : Upload} {ino offset length : ℕ} {sha256 : List UInt8}
  {encoding uncompressedSize : ℕ}

/-- A chunk that does not extend an active upload is answered as a replay or refused. -/
theorem chunk_cases (h : Inv t w) (chunk : WriteFileChunkRequest) (hid : chunk.transferId = t.id)
    (hu : w.uploads.get? t.id = some u) (hactive : u.state = .active)
    (hoffset : chunk.offset ≠ u.committedOffset) :
    (∃ w', s.serveWith (.writeChunk chunk) faults w = (.ok (.upload u.status), w') ∧
        Unchanged w w' ∧ ∃ ino, Service.Replays w.os.disk u ino chunk) ∨
      ∃ e w', s.serveWith (.writeChunk chunk) faults w = (.error e, w') ∧ Unchanged w w' ∧
        ((∀ e, .error e ∉ faults) → s.checkChunk chunk = .ok () →
          ∀ ino, Ready w.os.disk u ino → ¬ Service.Replays w.os.disk u ino chunk) := by
  have h' := h.meeting faults
  have hwp := @wp_writeChunk s _ chunk (hid ▸ h'.ready)
  rw [← hid] at hu
  rw [serveWith]
  rcases hrun : s.writeChunk chunk (w.facing faults)
    with ⟨e | status, w'⟩
  · rcases of_wp_error hwp hrun with ⟨hsame, hnot⟩ | ⟨u', ino', hu', -, -, htears⟩
    · refine .inr ⟨e, w', ?_, ⟨hsame.disk, hsame.uploads, hsame.pools⟩, ?_⟩
      · exact (run_upload _ _).trans (by rw [hrun]; rfl)
      · intro hcalm hvalid ino hready
        exact hnot hcalm hvalid u ino hu hactive hready (h'.partOf_of_ready (hid ▸ hu) hready).short
    · cases hu.symm.trans hu'
      exact absurd htears.offset hoffset
  · obtain ⟨u', hu', hcases⟩ := of_wp_ok hwp hrun
    cases hu.symm.trans hu'
    rcases hcases with ⟨hcompleted, -⟩ | ⟨-, ino, -, ⟨hreplays, hstatus, hsame⟩ | hextends⟩
    · rw [hactive] at hcompleted
      cases hcompleted
    · refine .inl ⟨w', ?_, ⟨hsame.disk, hsame.uploads, hsame.pools⟩, ino, hreplays⟩
      exact (run_upload _ _).trans (by rw [hrun, hstatus]; rfl)
    · exact absurd hextends.offset hoffset

theorem rejected (h : Inv t w) (hu : w.uploads.get? t.id = some u)
    (hactive : u.state = .active)
    (hapart : u.committedOffset < offset ∨ offset < u.committedOffset ∧
      u.committedOffset < offset + (t.slice offset length).length) :
    ∃ e w', s.serveWith (t.request s (.write offset length sha256 encoding uncompressedSize)) faults
        w = (.error e, w') ∧ Unchanged w w' := by
  have hne : offset ≠ u.committedOffset := by omega
  rcases h.chunk_cases
    (t.chunk offset length sha256 encoding uncompressedSize) rfl hu hactive hne with
    ⟨w', -, -, ino, hreplays⟩ | ⟨e, w', hrun, hsame, -⟩
  · have hbefore : offset < u.committedOffset := hreplays.before
    have hwithin : offset + (t.slice offset length).length ≤ u.committedOffset := hreplays.within
    omega
  · exact ⟨e, w', hrun, hsame⟩

theorem published (h : Inv t w) (hinv : Inv t w')
    (hrun : s.serveWith (t.request s .commit) faults w = (.ok (.upload status), w')) :
    ∃ u, w'.uploads.get? t.id = some u ∧ Holds w'.os.disk u.target t.content := by
  have h' := h.meeting faults
  obtain ⟨-, u, hu, ⟨hcompleted, rfl⟩ | ⟨-, ino, -, hcommits⟩⟩ :=
    of_wp_ok (wp_commitUpload h'.ready) (run_upload_ok hrun)
  · exact ⟨u, hu, (hinv.registered u hu).completed hcompleted⟩
  · have hnext : w'.uploads.get? t.id = some { u with state := .completed, resources := none } := by
      rw [hcommits.uploads]
      exact OrdMap.get?_insert_self _ _ _
    exact ⟨_, hnext, (hinv.registered _ hnext).completed rfl⟩

theorem kept (h : Inv t w) {r : TransferRequest}
    (hkeep : r = .commit → ∀ u, w.uploads.get? t.id = some u → u.overwrite = false) :
    Keeps t.id w.os.disk.tree (s.serveWith (t.request s r) faults w).2.os.disk.tree := by
  have h' := h.meeting faults
  have hsame : ∀ {w' : World}, w'.os.disk.tree = w.os.disk.tree →
      Keeps t.id w.os.disk.tree w'.os.disk.tree := by
    intro w' htree p e hfind
    rw [htree]
    exact .inl hfind
  have hopen : ∀ {p : Location FileName} {ino : ℕ} {w' : World},
      Opened p ino w.os.disk w'.os.disk → Keeps t.id w.os.disk.tree w'.os.disk.tree :=
    fun hopened p e hfind => .inl (hopened.find_some hfind)
  let keeps : World → Prop := fun w' => Keeps t.id w.os.disk.tree w'.os.disk.tree
  suffices hwp : wp (s.serve (t.request s r)) (fun _ w' => keeps w') (fun _ w' => keeps w')
      (w.facing faults) from wp_iff_state.1 hwp
  cases r with
  | begin overwrite mode =>
    apply wp_bind.2
    apply wp_mono wp_beginUpload
    · rintro status w' ⟨target, -, ⟨u, -, -, hlook⟩ | ⟨-, u, hbegins⟩⟩
      · exact hsame (by rw [hlook.disk])
      · rcases hbegins.outcome with ⟨-, -, hdisk⟩ | ⟨-, -, ino, hopened, -⟩
        · exact hsame (by rw [hdisk])
        · exact hopen hopened
    · rintro error w' (⟨-, hdisk⟩ | ⟨-, -, directory, hdisk | ⟨ino, hopened⟩⟩)
      · exact hsame (by rw [hdisk])
      · exact hsame (by rw [hdisk])
      · exact hopen hopened
  | query =>
    apply wp_bind.2
    apply wp_mono wp_queryUpload
    · rintro status _ rfl
      exact hsame rfl
    · rintro error _ rfl
      exact hsame rfl
  | write offset length sha256 encoding uncompressedSize =>
    apply wp_bind.2
    apply wp_mono (wp_writeChunk h'.ready)
    · rintro status w' ⟨u, -, ⟨-, rfl⟩ | ⟨-, ino, -, ⟨-, -, hlook⟩ | hextends⟩⟩
      · exact hsame rfl
      · exact hsame (by rw [hlook.disk])
      · exact hsame hextends.wrote.tree
    · rintro error w' (⟨hlook, -⟩ | ⟨u, ino, -, -, -, htears⟩)
      · exact hsame (by rw [hlook.disk])
      · obtain ⟨count, -, hwrote⟩ := htears.wrote
        exact hsame hwrote.tree
  | commit =>
    apply wp_bind.2
    apply wp_mono (wp_commitUpload h'.ready)
    · rintro status w' ⟨-, u, hu, ⟨-, rfl⟩ | ⟨-, ino, hready, hcommits⟩⟩
      · exact hsame rfl
      · intro p e hfind
        refine (hcommits.published.find_some (hkeep rfl u hu) hfind).imp_right ?_
        rintro ⟨rfl, hnone⟩
        exact ⟨temporaryOf_temporary (h'.registered u hu).transferId, hnone⟩
    · rintro error w' (rfl | ⟨u, ino, -, -, -, -, hlinked⟩)
      · exact hsame rfl
      · exact fun p e hfind => .inl (hlinked.find_some hfind)
  | abort =>
    apply wp_bind.2
    apply wp_mono (wp_abortUpload h'.canonical)
    · rintro status w' (rfl | ⟨u, hu, -, haborts⟩)
      · exact hsame rfl
      · intro p e hfind
        refine (haborts.find_some hfind).imp_right ?_
        rintro ⟨rfl, hnone⟩
        exact ⟨temporaryOf_temporary (h'.registered u hu).transferId, hnone⟩
    · exact fun error w' hlook => hsame (by rw [hlook.disk])

theorem named {overwrite : Bool} {mode : ℕ}
    (hrun : s.serveWith (t.request s (.begin overwrite mode)) faults w =
      (.ok (.upload status), w')) :
    ∃ u, w'.uploads.get? t.id = some u ∧ Service.Names s w.os.disk t.path u.target := by
  obtain ⟨target, hnames, ⟨u, hu, rfl, hlook⟩ | ⟨-, u, hbegins⟩⟩ :=
    of_wp_ok wp_beginUpload (run_upload_ok hrun)
  · exact ⟨u, by rw [hlook.uploads]; exact hu, hnames⟩
  · refine ⟨u, by rw [hbegins.uploads]; exact OrdMap.get?_insert_self _ _ _, ?_⟩
    rw [hbegins.describes.target]
    exact hnames

end Inv

end AstraShell.Files
