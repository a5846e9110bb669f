import AstraShell.Files.Uploads

/-!
# The first request of an upload

`begin_upload` finds the upload in the registry, or finds its target in place already, or opens the
temporary file and registers the upload with what this file has. `wp_beginUpload` says which of
these happened and what it left.
-/

set_option autoImplicit false

namespace AstraShell.Files

open Lib Lib.Effect Lib.FileTree Resources

/-- The regular file that a location leads to has these bytes. -/
def Holds (d : Disk FileName) (p : Location FileName) (bytes : List UInt8) : Prop :=
  ∃ q ino, d.locate true (Tree.path p) = .ok (q, ⟨ino, .regular⟩) ∧ (d.inode ino).content = bytes

/-! ## The temporary file -/

/-- The file at a location is the inode `ino`. If there was none, an empty one was made. -/
inductive Opened (p : Location FileName) (ino : ℕ) : Disk FileName → Disk FileName → Prop
  | found {d : Disk FileName} (hfile : d.tree.find p = some ⟨ino, .regular⟩) : Opened p ino d d
  | made {d : Disk FileName} (habsent : d.tree.find p = none) (hino : ino = d.tree.nextIno) :
      Opened p ino d (d.create p .regular 0o600)

namespace Opened

variable {p : Location FileName} {ino : ℕ} {d d' : Disk FileName}

section

variable (h : Opened p ino d d')

include h

theorem find_self : d'.tree.find p = some ⟨ino, .regular⟩ := by
  cases h with
  | found hfile => exact hfile
  | made habsent hino =>
    rw [Disk.create, Tree.find_insert (Tree.ne_nil_of_find habsent), if_pos rfl, hino]

theorem find_other {q : Location FileName} (hq : q ≠ p) : d'.tree.find q = d.tree.find q := by
  cases h with
  | found hfile => rfl
  | made habsent hino =>
    rw [Disk.create, Tree.find_insert (Tree.ne_nil_of_find habsent), if_neg hq]

/-- What has an entry keeps it. -/
theorem find_some {q : Location FileName} {e : Entry FileName}
    (hq : d.tree.find q = some e) : d'.tree.find q = some e := by
  cases h with
  | found hfile => exact hq
  | made habsent hino =>
    have hne : q ≠ p := by
      rintro rfl
      rw [habsent] at hq
      cases hq
    rw [Disk.create, Tree.find_insert (Tree.ne_nil_of_find habsent), if_neg hne, hq]

theorem reached {q : Location FileName} (hq : d.tree.Reached q) : d'.tree.Reached q := by
  apply hq.of_find
  intro r hr
  obtain ⟨ino', hfind⟩ := Tree.isDirectory_iff.1 (hr r (List.prefix_refl r))
  rw [hfind]
  exact h.find_some hfind

/-- Inodes that had an entry keep their content. -/
theorem inode {i : ℕ} (hi : i < d.tree.nextIno) : d'.inode i = d.inode i := by
  cases h with
  | found hfile => rfl
  | made habsent hino => exact Function.update_of_ne (Nat.ne_of_lt hi) _ _

/-- A file that was made is empty. -/
theorem content : d.tree.find p = some ⟨ino, .regular⟩ ∧ d' = d ∨ (d'.inode ino).content = [] := by
  cases h with
  | found hfile => exact .inl ⟨hfile, rfl⟩
  | made habsent hino =>
    refine .inr ?_
    rw [hino, Disk.create]
    simp

end

end Opened

/-! ## What is registered -/

/-- An upload with the data of a request. -/
structure Describes (request : BeginUploadRequest) (target : Location FileName) (u : Upload) :
    Prop where
  transferId : u.transferId = request.transferId
  target : u.target = target
  size : u.size = request.size

/-- The target has the declared size and digest already. -/
def InPlace (s : Service) (d : Disk FileName) (target : Location FileName)
    (request : BeginUploadRequest) : Prop :=
  request.sha256.length = 32 ∧ ∃ bytes, Holds d target bytes ∧ bytes.length = request.size ∧
    s.platform.sha256 bytes = request.sha256

/-- The registry without the uploads that are not active. -/
def activeUploads (uploads : OrdMap String Upload) : OrdMap String Upload :=
  uploads.retain fun id =>
    match uploads.get? id with
    | none => false
    | some u => u.state = .active

theorem get?_activeUploads {uploads : OrdMap String Upload} {id : String} {u : Upload} :
    (activeUploads uploads).get? id = some u ↔ uploads.get? id = some u ∧ u.state = .active := by
  rw [activeUploads, OrdMap.get?_retain]
  cases hu : uploads.get? id with
  | none => simp
  | some u' =>
    by_cases hactive : u'.state = .active
    · rw [if_pos (by simp [hactive])]
      constructor
      · intro h
        cases h
        exact ⟨rfl, hactive⟩
      · exact fun h => h.1
    · rw [if_neg (by simp [hactive])]
      constructor
      · intro h
        cases h
      · rintro ⟨h, hactive'⟩
        cases h
        exact absurd hactive' hactive

/-- A request that was not registered begins its upload. -/
structure Begins (s : Service) (request : BeginUploadRequest) (target : Location FileName)
    (u : Upload) (w w' : World) : Prop where
  uploads : w'.uploads = (activeUploads w.uploads).insert request.transferId u
  describes : Describes request target u
  outcome :
    (u.state = .completed ∧ InPlace s w.os.disk target request ∧ w'.os.disk = w.os.disk) ∨
    (u.state = .active ∧ w.os.disk.tree.Reached target.dropLast ∧
      ∃ ino, Opened u.temporary ino w.os.disk w'.os.disk ∧
        u.committedOffset = (w'.os.disk.inode ino).content.length)

/-- Nothing but an empty temporary file is left. -/
def Litters (p : Location FileName) (d d' : Disk FileName) : Prop :=
  d' = d ∨ ∃ ino, Opened p ino d d'

namespace Service

variable {s : Service} {w : World} {request : BeginUploadRequest}
  {target temporary : Location FileName}

theorem wp_alreadyUploaded :
    wp (s.alreadyUploaded target request)
      (fun there w' => (there = true → InPlace s w.os.disk target request) ∧ Still w w')
      (fun _ w' => Still w w') w := by
  rw [alreadyUploaded]
  refine wp_seq wp_metadata (fun _ _ hlook => hlook) ?_
  rintro metadata w₁ ⟨⟨q, e, hlocate, hmetadata⟩, hlook⟩
  split
  next hshape =>
    obtain ⟨hkind, hlen, hdigest⟩ := hshape
    have hregular : e.kind = .regular := by rw [← hkind, hmetadata]; rfl
    have hlength : (w.os.disk.inode e.ino).content.length = request.size := by
      rw [← hlen, hmetadata, Disk.metadataOf]
      simp [hregular]
    refine wp_seq wp_sha256File (fun _ _ hread => hlook.trans hread.2) ?_
    rintro digest w₂ ⟨⟨q', e', hlocate', hequal⟩, hread⟩
    rw [hlook.disk, hlocate] at hlocate'
    cases hlocate'
    rw [hlook.disk] at hequal
    refine ⟨fun hthere => ⟨hdigest, _, ⟨q, e.ino, ?_, rfl⟩, hlength, ?_⟩, hlook.trans hread⟩
    · rw [← hregular]
      exact hlocate
    · exact hequal.symm.trans (of_decide_eq_true hthere)
  next => exact ⟨nofun, hlook⟩

/-- Reserve, try, and give back on a failure. -/
theorem wp_reserving {α : Type} {claim : ResourceClaim} {body : ServiceM α}
    {Q : α → World → Prop} {E : FileServiceError → World → Prop} (hquota : ∀ e, E e w)
    (hbody : ∀ pools, ResourceAccount.reserve claim w.pools = .ok pools →
      wp body Q (fun e w' => E e { w' with pools := ResourceAccount.release claim w'.pools })
        { w with pools := pools }) : wp (reserving claim body) Q E w := by
  cases hreserve : ResourceAccount.reserve claim w.pools with
  | error e =>
    unfold wp reserving
    rw [hreserve]
    exact hquota _
  | ok pools =>
    have h := hbody pools hreserve
    unfold wp at h
    unfold wp reserving
    rw [hreserve]
    dsimp only
    rcases hrun : body { w with pools := pools } with ⟨e | a, w'⟩
    · rw [hrun] at h
      exact h
    · rw [hrun] at h
      exact h

/-- Opening a temporary file: it is there and is a regular file, or it is made. -/
theorem wp_openUploadFile {d : Location FileName} {n : FileName} (hd : w.os.disk.tree.Stands d) :
    wp (s.openUploadFile (d ++ [n]))
      (fun file w' => w'.uploads = w.uploads ∧ w.os.disk.tree.Reached d ∧
        ∃ ino, file = .regular ino ∧ Opened (d ++ [n]) ino w.os.disk w'.os.disk)
      (fun _ w' => w'.uploads = w.uploads ∧ Litters (d ++ [n]) w.os.disk w'.os.disk) w := by
  rw [openUploadFile, wp_bind]
  apply wp_sysCall
  · exact fun e _ => ⟨rfl, .inl rfl⟩
  · intro bound outcome hrun
    rcases openCreateBody_ok hrun with ⟨p, hspot, rfl⟩ | ⟨p, e, hspot, hfind, rfl⟩
    · have hreached := Tree.reached_of_resolve hd hspot
      have hp : p = d ++ [n] := resolve_path_location (hreached.canonical_name n) hspot
      subst hp
      have hmade : ∀ {d'}, d' = w.os.disk.create (d ++ [n]) .regular 0o600 →
          Opened (d ++ [n]) w.os.disk.tree.nextIno w.os.disk d' := by
        rintro _ rfl
        exact .made (Tree.resolve_sound hspot).2 rfl
      refine wp_seq wp_fstat (fun _ w' hfstat => ?_) ?_
      · exact ⟨hfstat.2.uploads, .inr ⟨_, hmade hfstat.2.disk⟩⟩
      rintro metadata w' ⟨-, hstill⟩
      rw [wp_bind]
      apply wp_demand
      · exact fun _ => ⟨hstill.uploads, hreached, _, rfl, hmade hstill.disk⟩
      · exact fun _ => ⟨hstill.uploads, .inr ⟨_, hmade hstill.disk⟩⟩
    · have hreached := Tree.reached_of_resolve hd hspot
      have hp : p = d ++ [n] := resolve_path_location (hreached.canonical_name n) hspot
      subst hp
      refine wp_seq wp_fstat (fun _ w' hfstat => ⟨hfstat.2.uploads, .inl hfstat.2.disk⟩) ?_
      rintro metadata w' ⟨hmetadata, hstill⟩
      rw [wp_bind]
      apply wp_demand
      · intro hregular
        have hkind : e.kind = .regular := by rw [← hregular, hmetadata]; rfl
        refine ⟨hstill.uploads, hreached, e.ino, ?_, ?_⟩
        · rw [hkind, Handle.regular]
        · rw [hstill.disk]
          exact .found (by rw [hfind, ← hkind])
      · exact fun _ => ⟨hstill.uploads, .inl hstill.disk⟩

theorem temporary_eq {id : String} (h : uploadTemporaryPath target id = .ok temporary) :
    temporary = target.dropLast ++ [temporaryName id] := by
  unfold uploadTemporaryPath at h
  split at h
  next => cases h
  next => exact (Except.ok.inj h).symm

theorem wp_startUpload {hbeside : uploadTemporaryPath target request.transferId = .ok temporary}
    (hstands : w.os.disk.tree.Stands target.dropLast) :
    wp (s.startUpload target temporary request hbeside)
      (fun _ w' => ∃ u ino, w'.uploads = w.uploads.insert request.transferId u ∧
        Describes request target u ∧ u.state = .active ∧
        w.os.disk.tree.Reached target.dropLast ∧ Opened u.temporary ino w.os.disk w'.os.disk ∧
        u.committedOffset = (w'.os.disk.inode ino).content.length)
      (fun _ w' => w'.uploads = w.uploads ∧ Litters temporary w.os.disk w'.os.disk) w := by
  have htemporary := temporary_eq hbeside
  rw [startUpload]
  apply wp_reserving
  · exact fun e => ⟨rfl, .inl rfl⟩
  · intro pools _
    subst htemporary
    refine wp_seq (wp_openUploadFile hstands) ?_ ?_
    · exact fun e w₁ hlitter => hlitter
    rintro file w₁ ⟨huploads, hreached, ino, rfl, hopened⟩
    refine wp_seq wp_fstat ?_ ?_
    · rintro e w₂ ⟨-, hlook⟩
      refine ⟨hlook.uploads.trans huploads, .inr ⟨ino, ?_⟩⟩
      rw [hlook.disk]
      exact hopened
    rintro metadata w₂ ⟨hmetadata, hlook⟩
    have hopened' : Opened (target.dropLast ++ [temporaryName request.transferId]) ino w.os.disk
        w₂.os.disk := by
      rw [hlook.disk]
      exact hopened
    split
    next hfits =>
      refine ⟨_, ino, congrArg (OrdMap.insert · _ _) (hlook.uploads.trans huploads),
        ⟨rfl, rfl, rfl⟩, rfl, hreached, hopened', ?_⟩
      dsimp only
      rw [hmetadata, hlook.disk, Disk.metadataOf]
      simp [Handle.regular]
    next => exact ⟨hlook.uploads.trans huploads, .inr ⟨ino, hopened'⟩⟩

theorem wp_newUpload {hbeside : uploadTemporaryPath target request.transferId = .ok temporary}
    (hstands : w.os.disk.tree.Stands target.dropLast) :
    wp (s.newUpload target temporary request hbeside)
      (fun _ w' => ∃ u, Begins s request target u w w')
      (fun _ w' => w'.uploads = activeUploads w.uploads ∧
        Litters temporary w.os.disk w'.os.disk) w := by
  -- The registry keeps its active uploads; the rest happens on the same disk.
  have hstart : ∀ w₁ : World, w₁.os.disk = w.os.disk → w₁.uploads = activeUploads w.uploads →
      wp (s.startUpload target temporary request hbeside)
        (fun _ w' => ∃ u, Begins s request target u w w')
        (fun _ w' => w'.uploads = activeUploads w.uploads ∧
          Litters temporary w.os.disk w'.os.disk) w₁ := by
    intro w₁ hdisk huploads
    apply wp_mono (wp_startUpload (by rw [hdisk]; exact hstands))
    · rintro status w₂ ⟨u, ino, hinsert, hdescribes, hactive, hreached, hopened, hlength⟩
      rw [hdisk] at hreached hopened
      rw [huploads] at hinsert
      exact ⟨u, hinsert, hdescribes, .inr ⟨hactive, hreached, ino, hopened, hlength⟩⟩
    · rintro e w₂ ⟨hsame, hlitter⟩
      rw [hdisk] at hlitter
      exact ⟨hsame.trans huploads, hlitter⟩
  rw [newUpload, wp_bind, retainActive, wp_modify]
  refine wp_seq wp_pathExists (fun _ _ h => h.elim) ?_
  rintro found w₁ ⟨-, -, hlook⟩
  have huploads : w₁.uploads = activeUploads w.uploads := hlook.uploads
  have hdisk : w₁.os.disk = w.os.disk := hlook.disk
  split
  next =>
    refine wp_seq wp_alreadyUploaded ?_ ?_
    · exact fun e w₂ hsame => ⟨hsame.uploads.trans huploads, .inl (hsame.disk.trans hdisk)⟩
    rintro there w₂ ⟨hyes, hsame⟩
    rw [hdisk] at hyes
    split
    next hthere =>
      exact ⟨_, congrArg (OrdMap.insert · _ _) (hsame.uploads.trans huploads),
        ⟨rfl, rfl, rfl⟩, .inl ⟨rfl, hyes hthere, hsame.disk.trans hdisk⟩⟩
    next =>
      rw [wp_bind]
      apply wp_demand
      · exact fun _ => hstart w₂ (hsame.disk.trans hdisk) (hsame.uploads.trans huploads)
      · exact fun _ => ⟨hsame.uploads.trans huploads, .inl (hsame.disk.trans hdisk)⟩
  next => exact hstart w₁ hdisk huploads

theorem wp_beginUpload :
    wp (s.beginUpload request)
      (fun _ w' => ∃ target, Names s w.os.disk request.path target ∧
        ((∃ u, w.uploads.get? request.transferId = some u ∧ u.target = target ∧ Still w w') ∨
          w.uploads.get? request.transferId = none ∧ ∃ u, Begins s request target u w w'))
      (fun _ w' => w'.uploads = w.uploads ∧ w'.os.disk = w.os.disk ∨
        w.uploads.get? request.transferId = none ∧ w'.uploads = activeUploads w.uploads ∧
          ∃ directory, Litters (directory ++ [temporaryName request.transferId]) w.os.disk
            w'.os.disk) w := by
  rw [beginUpload, wp_bind]
  apply wp_check
  · intro _ _
    rw [wp_bind]
    apply wp_check
    · intro _ _
      refine wp_seq wp_resolveNew (fun e w₁ hlook => .inl ⟨hlook.uploads, hlook.disk⟩) ?_
      rintro target w₁ ⟨hnames, hlook⟩
      split
      next e herror => exact .inl ⟨hlook.uploads, hlook.disk⟩
      next temporary hbeside =>
        rw [wp_bind, wp_gets]
        split
        next u hu =>
          rw [hlook.uploads] at hu
          rw [wp_bind]
          apply wp_demand
          · intro hmatch
            have htarget : u.target = target := not_not.1 fun hne => hmatch (.inl hne)
            exact ⟨target, hnames, .inl ⟨u, hu, htarget, hlook⟩⟩
          · exact fun _ => .inl ⟨hlook.uploads, hlook.disk⟩
        next hnone =>
          rw [hlook.uploads] at hnone
          apply wp_mono (wp_newUpload (by rw [hlook.disk]; exact hnames.stands))
          · rintro status w₂ ⟨u, huploads, hdescribes, houtcome⟩
            rw [hlook.uploads] at huploads
            rw [hlook.disk] at houtcome
            exact ⟨target, hnames, .inr ⟨hnone, u, huploads, hdescribes, houtcome⟩⟩
          · rintro e w₂ ⟨huploads, hlitter⟩
            rw [hlook.uploads] at huploads
            rw [hlook.disk, temporary_eq hbeside] at hlitter
            exact .inr ⟨hnone, huploads, target.dropLast, hlitter⟩
    · exact fun _ _ => .inl ⟨rfl, rfl⟩
  · exact fun _ _ => .inl ⟨rfl, rfl⟩

end Service

end AstraShell.Files
