import AstraShell.Files.Calls

/-!
# The requests of an upload

An upload is `Ready` when the directory of its target is a real directory, its temporary name is a
regular file, and this file has at least the bytes that are committed. From a ready upload every
request works on the one inode of the temporary file: a chunk is compared with it or written to it
(`wp_writeActive`), a commit gives it the target's name (`wp_commitActive`, `Publication`), and an
abort takes its name away (`wp_abortUpload`).
-/

set_option autoImplicit false

namespace AstraShell.Files

open Lib Lib.Effect Lib.FileTree Resources Tree Still

namespace Upload

variable (u : Upload)

/-- The directory of the target and of the temporary file. -/
def directory : Location FileName := u.target.dropLast

theorem temporary_eq : u.temporary = u.directory ++ [temporaryName u.transferId] := by
  have h := u.beside
  unfold uploadTemporaryPath at h
  split at h
  next => cases h
  next => exact (Except.ok.inj h).symm

theorem target_eq : ∃ name, u.target = u.directory ++ [name] := by
  have h := u.beside
  unfold uploadTemporaryPath at h
  split at h
  next => cases h
  next hne => exact ⟨u.target.getLast hne, (List.dropLast_append_getLast hne).symm⟩

end Upload

structure Ready (d : Disk FileName) (u : Upload) (ino : ℕ) : Prop where
  reached : d.tree.Reached u.directory
  file : d.tree.find u.temporary = some ⟨ino, .regular⟩
  committed : u.committedOffset ≤ (d.inode ino).content.length

section Ready

variable {d : Disk FileName} {u : Upload} {ino : ℕ}

theorem canonical_temporary (h : d.tree.Reached u.directory) : d.tree.Canonical u.temporary := by
  rw [u.temporary_eq]
  exact h.canonical_name _

theorem canonical_target (h : d.tree.Reached u.directory) : d.tree.Canonical u.target := by
  obtain ⟨name, hname⟩ := u.target_eq
  rw [hname]
  exact h.canonical_name _

theorem Ready.locate (h : Ready d u ino) :
    d.locate true (path u.temporary) = .ok (u.temporary, ⟨ino, .regular⟩) :=
  locate_path (canonical_temporary h.reached) h.file (by simp)

/-- The temporary name has one inode. -/
theorem Ready.ino_eq {ino' : ℕ} (h : Ready d u ino) (h' : Ready d u ino') : ino = ino' := by
  have hfile := h.file.symm.trans h'.file
  cases hfile
  rfl

theorem Ready.not_directory (h : Ready d u ino) : d.tree.isDirectory u.temporary = false := by
  unfold isDirectory
  rw [h.file]

end Ready

variable {w' : World}

/-- The registry and the contents stay. -/
structure Renames (w w' : World) : Prop where
  uploads : w'.uploads = w.uploads
  content : ∀ i, (w'.os.disk.inode i).content = (w.os.disk.inode i).content

/-- The names stay too. -/
structure Settled (w w' : World) : Prop extends Renames w w' where
  tree : w'.os.disk.tree = w.os.disk.tree
  calm : w.os.Calm → w'.os.Calm

section Settled

variable {w w' w'' : World}

theorem Still.settled (h : Still w w') : Settled w w' :=
  ⟨⟨h.uploads, fun i => by rw [h.disk]⟩, by rw [h.disk], h.calm⟩

theorem Renames.trans (h : Renames w w') (h' : Renames w' w'') : Renames w w'' :=
  ⟨h'.uploads.trans h.uploads, fun i => (h'.content i).trans (h.content i)⟩

theorem Settled.trans (h : Settled w w') (h' : Settled w' w'') : Settled w w'' :=
  ⟨h.toRenames.trans h'.toRenames, h'.tree.trans h.tree, fun hcalm => h'.calm (h.calm hcalm)⟩

theorem Ready.settled {u : Upload} {ino : ℕ} (h : Ready w.os.disk u ino) (h' : Settled w w') :
    Ready w'.os.disk u ino := by
  refine ⟨?_, ?_, ?_⟩
  · rw [h'.tree]
    exact h.reached
  · rw [h'.tree]
    exact h.file
  · rw [h'.content]
    exact h.committed

end Settled

/-! ## Publication -/

/-- The temporary file of a ready upload gets the target's name. Without `overwrite` the name is
new. -/
inductive Publication (t : FileTree.Tree FileName) (u : Upload) (ino : ℕ) : FileTree.Tree FileName →
    Prop
  /-- Both are names of the file already. -/
  | same (hoverwrite : u.overwrite = true) (htarget : t.find u.target = some ⟨ino, .regular⟩) :
      Publication t u ino t
  | moved (hoverwrite : u.overwrite = true) (hne : u.target ≠ u.temporary)
      (htarget : t.isDirectory u.target = false) :
      Publication t u ino (t.move u.temporary u.target)
  | linked (hne : u.target ≠ u.temporary) (htarget : t.find u.target = none) :
      Publication t u ino ((t.insert u.target ⟨ino, .regular⟩).erase u.temporary)

/-- A new name for the temporary file, which keeps its own name too. -/
inductive Linked (t : FileTree.Tree FileName) (u : Upload) (ino : ℕ) : FileTree.Tree FileName → Prop
  | no : Linked t u ino t
  | yes (hoverwrite : u.overwrite = false) (htarget : t.find u.target = none) :
      Linked t u ino (t.insert u.target ⟨ino, .regular⟩)

section Publication

variable {d : Disk FileName} {u : Upload} {ino : ℕ} {t' : FileTree.Tree FileName}

theorem Publication.find_target (h : Publication d.tree u ino t') (hready : Ready d u ino) :
    t'.find u.target = some ⟨ino, .regular⟩ := by
  cases h with
  | same hoverwrite htarget => exact htarget
  | moved hoverwrite hne htarget =>
    rw [find_move_canonical hready.not_directory htarget (canonical_target hready.reached),
      if_pos rfl, hready.file]
  | linked hne htarget =>
    have hroot := ne_nil_of_find htarget
    have hroot' : u.temporary ≠ [] := by simp [u.temporary_eq]
    rw [find_erase hroot', if_neg hne, find_insert hroot, if_pos rfl]

variable {p : Location FileName}

section

variable (h : Publication d.tree u ino t')

include h

/-- Only the two names change. -/
theorem Publication.find_other (hready : Ready d u ino) (hp : d.tree.Canonical p)
    (htarget : p ≠ u.target) (htemporary : p ≠ u.temporary) : t'.find p = d.tree.find p := by
  cases h with
  | same => rfl
  | moved hoverwrite hne hdirectory =>
    rw [find_move_canonical hready.not_directory hdirectory hp, if_neg htarget,
      if_neg htemporary]
  | linked hne hnone =>
    have hroot := ne_nil_of_find hnone
    have hroot' : u.temporary ≠ [] := by simp [u.temporary_eq]
    rw [find_erase hroot', if_neg htemporary, find_insert hroot, if_neg htarget]

/-- Without `overwrite` only the temporary name goes. -/
theorem Publication.find_some (hoverwrite : u.overwrite = false) {e : Entry FileName}
    (hp : d.tree.find p = some e) : t'.find p = some e ∨ p = u.temporary ∧ t'.find p = none := by
  cases h with
  | same hoverwrite' | moved hoverwrite' =>
    rw [hoverwrite] at hoverwrite'
    cases hoverwrite'
  | linked hne htarget =>
    have hne : p ≠ u.target := by
      rintro rfl
      rw [htarget] at hp
      cases hp
    rw [find_erase (by simp [u.temporary_eq]), find_insert (ne_nil_of_find htarget),
      if_neg hne]
    split
    next htemporary => exact .inr ⟨htemporary, rfl⟩
    next => exact .inl hp

theorem Publication.not_directory : d.tree.isDirectory u.target = false := by
  cases h with
  | same hoverwrite htarget | linked hne htarget =>
    unfold isDirectory
    rw [htarget]
  | moved hoverwrite hne htarget => exact htarget

theorem Publication.reached (hready : Ready d u ino) (hp : d.tree.Reached p) : t'.Reached p := by
  apply hp.of_find
  intro q hq
  have hdirectory := hq q (List.prefix_refl q)
  apply h.find_other hready hq.canonical
  · rintro rfl
    rw [h.not_directory] at hdirectory
    cases hdirectory
  · rintro rfl
    rw [hready.not_directory] at hdirectory
    cases hdirectory

end

/-- What has an entry keeps it. -/
theorem Linked.find_some (h : Linked d.tree u ino t')
    {e : Entry FileName} (hp : d.tree.find p = some e) : t'.find p = some e := by
  cases h with
  | no => exact hp
  | yes hoverwrite htarget =>
    have hne : p ≠ u.target := by
      rintro rfl
      rw [htarget] at hp
      cases hp
    rw [find_insert (ne_nil_of_find htarget), if_neg hne, hp]

theorem Linked.reached (h : Linked d.tree u ino t') (hp : d.tree.Reached p) : t'.Reached p := by
  apply hp.of_find
  intro q hq
  obtain ⟨ino', hfind⟩ := isDirectory_iff.1 (hq q (List.prefix_refl q))
  rw [hfind]
  exact h.find_some hfind

end Publication

namespace Service

variable {s : Service} {w : World} {u : Upload} {ino : ℕ}

/-! ## Chunks -/

theorem wp_openReady (h : Ready w.os.disk u ino) :
    wp (s.openUploadFile u.temporary)
      (fun file w' => file = .regular ino ∧ Still w w')
      (fun _ w' => ¬ w.os.Calm ∧ Still w w') w := by
  have hopen : ∀ bound, openCreateBody (path u.temporary) 0o600 bound w.os.disk =
      .ok ⟨.regular ino, w.os.disk⟩ := by
    intro bound
    rw [openCreateBody, Tree.resolve_of_found (canonical_temporary h.reached) h.file (by simp)]
    dsimp only
    rw [h.file]
    rfl
  rw [openUploadFile, wp_bind]
  apply wp_sysCall
  · rintro e (hfault | ⟨bound, e', hbody⟩)
    · exact ⟨hfault, still_failed w⟩
    · rw [hopen] at hbody
      cases hbody
  · intro bound outcome hrun
    rw [hopen] at hrun
    have hopened : Still w { w with os := w.os.done outcome } := by
      cases hrun
      exact still_done rfl
    cases hrun
    refine wp_seq wp_fstat ?_ ?_
    · rintro _ w' ⟨hfault, hstill⟩
      exact ⟨fun hcalm => hfault (hopened.calm hcalm), hopened.trans hstill⟩
    rintro metadata w' ⟨hmetadata, hstill⟩
    rw [wp_bind]
    apply wp_demand
    · exact fun _ => ⟨rfl, hopened.trans hstill⟩
    · intro hregular
      rw [hmetadata] at hregular
      exact absurd rfl hregular

variable {offset : ℕ}

theorem wp_seek {action : String} :
    wp (s.sys action (call (seekBody offset : Body FileName Unit)))
      (fun _ w' => Still w w')
      (fun _ w' => (¬ w.os.Calm ∨ 2 ^ 63 ≤ offset) ∧ Still w w') w := by
  apply wp_sysCall
  · rintro e (hfault | ⟨bound, e', hbody⟩)
    · exact ⟨.inl hfault, still_failed w⟩
    · refine ⟨.inr ?_, still_failed w⟩
      unfold seekBody at hbody
      split at hbody
      next => cases hbody
      next hge => omega
  · intro bound outcome hrun
    unfold seekBody at hrun
    split at hrun
    next =>
      cases hrun
      exact still_done rfl
    next => cases hrun

/-- The chunk is a part of what is committed. -/
structure Replays (d : Disk FileName) (u : Upload) (ino : ℕ) (request : WriteFileChunkRequest) :
    Prop where
  before : request.offset < u.committedOffset
  within : request.offset + request.data.length ≤ u.committedOffset
  equal : ((d.inode ino).content.drop request.offset).take request.data.length = request.data

theorem wp_readExactAt {file : Handle FileName} {length : ℕ} :
    wp (s.readExactAt file offset length)
      (fun data w' => data = ((w.os.disk.inode file.ino).content.drop offset).take length ∧
        Still w w')
      (fun _ w' => (w.os.Calm → file.kind ≠ .directory →
          (w.os.disk.inode file.ino).content.length < offset + length ∨ 2 ^ 63 ≤ offset) ∧
        Still w w') w := by
  rw [readExactAt, wp_bind]
  apply wp_mono wp_seek
  · intro _ w' hseek
    apply wp_sys
    apply wp_mono wp_readExact
    · rintro data os ⟨hdata, -, hquiet⟩
      rw [hseek.disk] at hdata
      exact ⟨hdata, hseek.trans ⟨rfl, rfl, hquiet⟩⟩
    · rintro e os ⟨hwhy, hquiet⟩
      refine ⟨?_, hseek.trans ⟨rfl, rfl, hquiet⟩⟩
      intro hcalm hkind
      rcases hwhy with hfault | hdirectory | hshort
      · exact absurd (hseek.calm hcalm) hfault
      · exact absurd hdirectory hkind
      · rw [hseek.disk] at hshort
        exact .inl hshort
  · rintro e w' ⟨hfault | hoffset, hstill⟩
    · exact ⟨fun hcalm => absurd hcalm hfault, hstill⟩
    · exact ⟨fun _ _ => .inr hoffset, hstill⟩

/-- The bytes of a chunk, or some of them when writing fails. -/
theorem wp_writeAllAt {file : Handle FileName} {data : List UInt8}
    (hoffset : offset ≤ (w.os.disk.inode file.ino).content.length) :
    wp (s.writeAllAt file offset data)
      (fun _ w' => w'.uploads = w.uploads ∧ Wrote file offset data w.os w'.os)
      (fun _ w' => w'.uploads = w.uploads ∧
        ∃ count, count ≤ data.length ∧ Wrote file offset (data.take count) w.os w'.os) w := by
  rw [writeAllAt, wp_bind]
  -- Seeking changes nothing, so it is a write of nothing.
  have hseek : ∀ {w' : World}, Still w w' → Wrote file offset [] w.os w'.os := fun hstill =>
    Wrote.of_quiet hstill.os hoffset
  apply wp_mono wp_seek
  · intro _ w' hstill
    apply wp_sys
    have hoffset' : offset ≤ (w'.os.disk.inode file.ino).content.length := by
      rw [hstill.disk]
      exact hoffset
    apply wp_mono (wp_writeAll le_rfl hoffset')
    · intro _ os hwrote
      exact ⟨hstill.uploads, (hseek hstill).trans hwrote rfl hoffset⟩
    · rintro _ os ⟨count, hcount, hwrote⟩
      exact ⟨hstill.uploads, count, hcount, (hseek hstill).trans hwrote rfl hoffset⟩
  · rintro e w' ⟨-, hstill⟩
    exact ⟨hstill.uploads, 0, Nat.zero_le _, hseek hstill⟩

/-- A chunk of a ready upload is part of what is committed, or is written where this ends. -/
theorem wp_writeActive {request : WriteFileChunkRequest} {stop : ℕ} {hsize : stop ≤ u.size}
    (h : Ready w.os.disk u ino) (hstop : request.offset + request.data.length = stop) :
    wp (s.writeActive u request stop hsize)
      (fun status w' => (Replays w.os.disk u ino request ∧ status = u.status ∧ Still w w') ∨
        (request.offset = u.committedOffset ∧
          Wrote (.regular ino) request.offset request.data w.os w'.os ∧
          w'.uploads = w.uploads.insert request.transferId
            { u with committedOffset := stop, committed_le := hsize }))
      (fun _ w' => (Still w w' ∧ (w.os.Calm → (w.os.disk.inode ino).content.length ≤ maxFileSize →
          ¬ Replays w.os.disk u ino request)) ∨
        (request.offset = u.committedOffset ∧ w'.uploads = w.uploads ∧
          ∃ count, count ≤ request.data.length ∧
            Wrote (.regular ino) request.offset (request.data.take count) w.os w'.os)) w := by
  rw [writeActive, wp_bind]
  apply wp_mono (wp_openReady h)
  · rintro file w₁ ⟨rfl, hopen⟩
    split
    next hbefore =>
      rw [wp_bind]
      apply wp_demand
      · intro hwithin
        rw [wp_bind]
        apply wp_mono wp_readExactAt
        · rintro data w₂ ⟨hdata, hread⟩
          rw [hopen.disk] at hdata
          rw [wp_bind]
          apply wp_demand
          · intro hequal
            refine .inl ⟨⟨hbefore, by omega, ?_⟩, rfl, hopen.trans hread⟩
            exact hdata.symm.trans hequal
          · intro hdiffer
            refine .inl ⟨hopen.trans hread, fun _ _ hreplays => hdiffer ?_⟩
            exact hdata.trans hreplays.equal
        · rintro e w₂ ⟨hwhy, hread⟩
          refine .inl ⟨hopen.trans hread, fun hcalm hlength hreplays => ?_⟩
          -- The file has the bytes, so that reading them does not fail.
          have hcommitted := h.committed
          unfold maxFileSize at hlength
          have hwhy := hwhy (hopen.calm hcalm) (by simp [Handle.regular])
          rw [hopen.disk] at hwhy
          change (w.os.disk.inode ino).content.length < _ ∨ _ at hwhy
          omega
      · intro hpast
        refine .inl ⟨hopen, fun _ _ hreplays => hpast ?_⟩
        rw [← hstop]
        exact hreplays.within
    next hbefore =>
      rw [wp_bind]
      apply wp_demand
      · intro hoffset
        have hend : request.offset ≤ (w₁.os.disk.inode ino).content.length := by
          rw [hopen.disk, hoffset]
          exact h.committed
        rw [wp_bind]
        have hwhole : ∀ {bytes : List UInt8} {w₂ : World},
            Wrote (.regular ino) request.offset bytes w₁.os w₂.os →
            Wrote (.regular ino) request.offset bytes w.os w₂.os := by
          intro bytes w₂ hwrote
          rw [hopen.disk] at hend
          exact (Wrote.of_quiet hopen.os hend).trans hwrote rfl hend
        apply wp_mono (wp_writeAllAt hend)
        · rintro _ w₂ ⟨huploads, hwrote⟩
          refine .inr ⟨hoffset, hwhole hwrote, ?_⟩
          dsimp only
          rw [huploads, hopen.uploads]
        · rintro e w₂ ⟨huploads, count, hcount, hwrote⟩
          exact .inr ⟨hoffset, huploads.trans hopen.uploads, count, hcount, hwhole hwrote⟩
      · exact fun _ => .inl ⟨hopen, fun _ _ hreplays => hbefore hreplays.before⟩
  · rintro e w₁ ⟨hfault, hopen⟩
    exact .inl ⟨hopen, fun hcalm => absurd hcalm hfault⟩

/-- A chunk was written where the committed bytes end. -/
structure Extends (u : Upload) (ino : ℕ) (request : WriteFileChunkRequest) (w w' : World) :
    Prop where
  offset : request.offset = u.committedOffset
  wrote : Wrote (.regular ino) request.offset request.data w.os w'.os
  uploads : ∃ hfits : request.offset + request.data.length ≤ u.size,
    w'.uploads = w.uploads.insert request.transferId
      { u with committedOffset := request.offset + request.data.length, committed_le := hfits }

/-- Writing a chunk failed, and some of its bytes may have been written. -/
structure Tears (u : Upload) (ino : ℕ) (request : WriteFileChunkRequest) (w w' : World) : Prop where
  offset : request.offset = u.committedOffset
  uploads : w'.uploads = w.uploads
  wrote : ∃ count, count ≤ request.data.length ∧
    Wrote (.regular ino) request.offset (request.data.take count) w.os w'.os

variable {id : String}

theorem wp_findUpload :
    wp (findUpload id) (fun u w' => w.uploads.get? id = some u ∧ w' = w)
      (fun _ w' => w.uploads.get? id = none ∧ w' = w) w := by
  rw [findUpload, wp_bind]
  apply (wp_gets _).2
  split
  next u hu => exact ⟨hu, rfl⟩
  next hnone => exact ⟨hnone, rfl⟩

/-- A chunk, when the upload is ready if it is active. -/
theorem wp_writeChunk {request : WriteFileChunkRequest}
    (hready : ∀ u, w.uploads.get? request.transferId = some u → u.state = .active →
      ∃ ino, Ready w.os.disk u ino) :
    wp (s.writeChunk request)
      (fun status w' => ∃ u, w.uploads.get? request.transferId = some u ∧
        (u.state = .completed ∧ w' = w ∨ u.state = .active ∧ ∃ ino, Ready w.os.disk u ino ∧
          (Replays w.os.disk u ino request ∧ status = u.status ∧ Still w w' ∨
            Extends u ino request w w')))
      (fun _ w' => (Still w w' ∧ (w.os.Calm → s.checkChunk request = .ok () →
          ∀ u ino, w.uploads.get? request.transferId = some u → u.state = .active →
            Ready w.os.disk u ino → (w.os.disk.inode ino).content.length ≤ maxFileSize →
            ¬ Replays w.os.disk u ino request)) ∨
        ∃ u ino, w.uploads.get? request.transferId = some u ∧ u.state = .active ∧
          Ready w.os.disk u ino ∧ Tears u ino request w w') w := by
  rw [writeChunk, wp_bind]
  apply wp_check
  · intro _ hvalid
    refine wp_seq wp_findUpload ?_ ?_
    · rintro e _ ⟨hnone, rfl⟩
      refine .inl ⟨refl _, fun _ _ u ino hu => ?_⟩
      rw [hnone] at hu
      cases hu
    rintro u _ ⟨hu, rfl⟩
    split
    next hcompleted => exact ⟨u, hu, .inl ⟨hcompleted, rfl⟩⟩
    next haborted =>
      refine .inl ⟨refl _, fun _ _ u' ino hu' hactive => ?_⟩
      rw [hu] at hu'
      cases hu'
      rw [haborted] at hactive
      cases hactive
    next hactive =>
      obtain ⟨ino, h⟩ := hready u hu hactive
      rw [wp_bind]
      apply wp_check
      · intro stop hstop
        rw [context_eq_ok_iff, checkedAdd_eq_some_iff] at hstop
        obtain ⟨-, rfl⟩ := hstop
        split
        next hsize =>
          apply wp_mono (wp_writeActive h rfl)
          · rintro status w' (⟨hreplays, hstatus, hsame⟩ | ⟨hoffset, hwrote, huploads⟩)
            · exact ⟨u, hu, .inr ⟨hactive, ino, h, .inl ⟨hreplays, hstatus, hsame⟩⟩⟩
            · exact ⟨u, hu, .inr ⟨hactive, ino, h, .inr ⟨hoffset, hwrote, hsize, huploads⟩⟩⟩
          · rintro e w' (⟨hsame, hnot⟩ | ⟨hoffset, huploads, hwrote⟩)
            · refine .inl ⟨hsame, fun hcalm _ u' ino' hu' _ hready' hlength => ?_⟩
              rw [hu] at hu'
              cases hu'
              rw [hready'.ino_eq h] at hlength ⊢
              exact hnot hcalm hlength
            · exact .inr ⟨u, ino, hu, hactive, h, hoffset, huploads, hwrote⟩
        next hsize =>
          refine .inl ⟨refl _, fun _ _ u' ino' hu' _ _ _ hreplays => hsize ?_⟩
          rw [hu] at hu'
          cases hu'
          exact hreplays.within.trans u.committed_le
      · intro e hoverflow
        refine .inl ⟨refl _, fun _ _ u' ino' hu' _ hready' hlength hreplays => ?_⟩
        rw [hu] at hu'
        cases hu'
        -- The file is not longer than a file can be, so its offsets have no overflow.
        have hcommitted := hready'.committed
        have hwithin := hreplays.within
        have hfits : checkedAdd 64 request.offset request.data.length =
            some (request.offset + request.data.length) := by
          rw [checkedAdd_eq_some_iff]
          unfold maxFileSize at hlength
          exact ⟨by omega, rfl⟩
        rw [hfits] at hoverflow
        cases hoverflow
  · intro e hinvalid
    refine .inl ⟨refl _, fun _ hvalid => ?_⟩
    rw [hinvalid] at hvalid
    cases hvalid

/-! ## Commits -/

theorem wp_sync {action : String} :
    wp (s.sys action (call (syncBody : Body FileName Unit))) (fun _ w' => Still w w')
      (fun _ w' => ¬ w.os.Calm ∧ Still w w') w := by
  apply wp_sysCall
  · rintro e (hfault | ⟨bound, e', hbody⟩)
    · exact ⟨hfault, still_failed w⟩
    · cases hbody
  · intro bound outcome hrun
    cases hrun
    exact still_done rfl

/-- The file has the digest that was declared, if there is one. -/
def Verified (s : Service) (u : Upload) (bytes : List UInt8) : Prop :=
  u.expectedSha256.length = 32 → s.platform.sha256 bytes = u.expectedSha256

theorem wp_verifyUpload (h : Ready w.os.disk u ino) :
    wp (s.verifyUpload u)
      (fun _ w' => Verified s u (w.os.disk.inode ino).content ∧ Still w w')
      (fun _ w' => (w.os.Calm → ¬ Verified s u (w.os.disk.inode ino).content) ∧ Still w w') w := by
  unfold verifyUpload
  split
  next hlength =>
    rw [wp_bind]
    apply wp_mono wp_sha256File
    · rintro digest w' ⟨⟨q, e, hlocate, hdigest⟩, hstill⟩
      rw [h.locate] at hlocate
      cases hlocate
      apply wp_demand
      · intro hequal
        exact ⟨fun _ => hdigest.symm.trans hequal, hstill⟩
      · intro hdiffer
        exact ⟨fun _ hverified => hdiffer (hdigest.trans (hverified hlength)), hstill⟩
    · rintro _ w' ⟨hwhy, hstill⟩
      refine ⟨fun hcalm => ?_, hstill⟩
      cases hwhy hcalm _ _ h.locate
  next hlength => exact ⟨fun h32 => absurd h32 hlength, refl _⟩

theorem wp_setPermissions (h : Ready w.os.disk u ino) :
    wp (s.setPermissions u) (fun _ w' => Settled w w') (fun _ w' => ¬ w.os.Calm ∧ Settled w w')
      w := by
  unfold setPermissions
  split
  next =>
    apply wp_sysCall
    · rintro e (hfault | ⟨bound, e', hbody⟩)
      · exact ⟨hfault, (still_failed w).settled⟩
      · rw [chmodBody, h.locate] at hbody
        cases hbody
    · intro bound outcome hrun
      obtain ⟨⟨q, e⟩, hlocate, hpure⟩ := bind_eq_ok_iff.1 hrun
      rw [h.locate] at hlocate
      cases hlocate
      cases hpure
      refine ⟨⟨rfl, fun i => ?_⟩, rfl, fun hcalm => hcalm.done _⟩
      -- Only the mode of the inode is another one.
      by_cases hi : i = ino
      · subst hi
        simp [Os.done, Disk.setInode]
      · simp [Os.done, Disk.setInode, Function.update_of_ne hi]
  next => exact (refl w).settled

theorem mayReplace_regular {d : Disk FileName} {p q : Location FileName}
    (h : mayReplace d p q ⟨ino, .regular⟩ = .ok ()) : d.tree.isDirectory q = false := by
  cases hdirectory : d.tree.isDirectory q with
  | false => rfl
  | true =>
    obtain ⟨ino', hfind⟩ := isDirectory_iff.1 hdirectory
    unfold mayReplace at h
    rw [hfind] at h
    cases h

theorem wp_releaseUpload :
    wp (releaseUpload u) (fun _ w' => w'.os = w.os ∧ w'.uploads = w.uploads) (fun _ _ => False)
      w := by
  rw [releaseUpload, wp_modify]
  split <;> exact ⟨rfl, rfl⟩

/-- The target's name can be given to the file. -/
def Available (t : FileTree.Tree FileName) (u : Upload) : Prop :=
  if u.overwrite then t.isDirectory u.target = false else t.find u.target = none

instance (t : FileTree.Tree FileName) (u : Upload) : Decidable (Available t u) :=
  inferInstanceAs (Decidable
    (if u.overwrite then t.isDirectory u.target = false else t.find u.target = none))

/-- The file gets its second name, if that is free. -/
theorem wp_linkUpload (h : Ready w.os.disk u ino) (hkeep : u.overwrite = false) :
    wp (s.linkUpload u)
      (fun _ w' => Renames w w' ∧
        w'.os.disk.tree = w.os.disk.tree.insert u.target ⟨ino, .regular⟩ ∧
        w.os.disk.tree.find u.target = none ∧ (w.os.Calm → w'.os.Calm))
      (fun _ w' => Renames w w' ∧ w'.os.disk.tree = w.os.disk.tree ∧
        (w.os.Calm → ¬ Available w.os.disk.tree u)) w := by
  have htemporary := canonical_temporary h.reached
  have htarget := canonical_target h.reached
  apply wp_sysCall
  · intro e hwhy
    refine ⟨⟨rfl, fun _ => rfl⟩, rfl, fun hcalm havailable => ?_⟩
    rcases hwhy with hfault | ⟨bound, e', hbody⟩
    · exact hfault hcalm
    · rw [Available, if_neg (by simp [hkeep])] at havailable
      rw [linkBody, locate_path htemporary h.file (by simp)] at hbody
      rw [Tree.resolve_of_missing htarget havailable] at hbody
      cases hbody
  · intro bound outcome hrun
    obtain ⟨e, hfind, hnone, rfl⟩ := linkBody_path_ok htemporary htarget hrun
    rw [h.file] at hfind
    cases hfind
    exact ⟨⟨rfl, fun _ => rfl⟩, rfl, hnone, fun hcalm => hcalm.done _⟩

theorem wp_publishUpload (h : Ready w.os.disk u ino) :
    wp (s.publishUpload u)
      (fun _ w' => Renames w w' ∧ Publication w.os.disk.tree u ino w'.os.disk.tree)
      (fun _ w' => (Renames w w' ∧ Linked w.os.disk.tree u ino w'.os.disk.tree) ∧
        (w.os.Calm → ¬ Available w.os.disk.tree u)) w := by
  have htemporary := canonical_temporary h.reached
  have htarget := canonical_target h.reached
  unfold publishUpload
  split
  next hoverwrite =>
    apply wp_sysCall
    · intro e hwhy
      refine ⟨⟨⟨rfl, fun _ => rfl⟩, .no⟩, fun hcalm havailable => ?_⟩
      rcases hwhy with hfault | ⟨bound, e', hbody⟩
      · exact hfault hcalm
      · rw [Available, if_pos hoverwrite] at havailable
        obtain ⟨outcome, hok⟩ := renameBody_path htemporary htarget h.file (by simp) havailable
        rw [hok] at hbody
        cases hbody
    · intro bound outcome hrun
      obtain ⟨e, hfind, -, hend⟩ := renameBody_path_ok htemporary htarget hrun
      rw [h.file] at hfind
      cases hfind
      rcases hend with ⟨hsame, hdisk⟩ | ⟨hother, hmay, hdisk⟩
      · dsimp only [Os.done]
        rw [hdisk]
        exact ⟨⟨rfl, fun _ => rfl⟩, .same hoverwrite hsame⟩
      · dsimp only [Os.done]
        rw [hdisk]
        refine ⟨⟨rfl, fun _ => rfl⟩, ?_⟩
        apply Publication.moved hoverwrite
        · intro heq
          rw [heq] at hother
          exact hother h.file
        · exact mayReplace_regular hmay
  next hoverwrite =>
    have hkeep : u.overwrite = false := by simpa using hoverwrite
    refine wp_seq (wp_linkUpload h hkeep) ?_ ?_
    · rintro _ w₁ ⟨hrenames, htree, hwhy⟩
      rw [htree]
      exact ⟨⟨hrenames, .no⟩, hwhy⟩
    rintro _ w₁ ⟨hrenames, htree, hnone, hcalm⟩
    have hne : u.target ≠ u.temporary := by
      intro heq
      rw [heq, h.file] at hnone
      cases hnone
    have hlinked : Linked w.os.disk.tree u ino w₁.os.disk.tree := htree ▸ .yes hkeep hnone
    have hcanonical := canonical_temporary (hlinked.reached h.reached)
    apply wp_sysCall
    · intro e hwhy
      refine ⟨⟨⟨hrenames.uploads, hrenames.content⟩, hlinked⟩, fun hcalm' _ => ?_⟩
      rcases hwhy with hfault | ⟨bound, e', hbody⟩
      · exact hfault (hcalm hcalm')
      · cases (unlinkBody_path hcanonical (hlinked.find_some h.file)).symm.trans hbody
    · intro bound outcome hrun
      obtain rfl := unlinkBody_path_ok hcanonical hrun
      refine ⟨⟨hrenames.uploads, hrenames.content⟩, ?_⟩
      rw [htree]
      exact .linked hne hnone

theorem wp_syncParent : wp (s.syncParent u) (fun _ w' => Still w w') (fun _ _ => False) w := by
  have hopen : wp (s.sys "" (attempt (call (openBody (path u.target.dropLast)))))
      (fun _ w' => Still w w') (fun _ _ => False) w := by
    apply wp_sys
    apply wp_attempt
    apply wp_call
    · exact fun e _ => still_failed w
    · intro bound outcome hrun
      obtain ⟨pair, -, hpure⟩ := bind_eq_ok_iff.1 hrun
      cases hpure
      exact still_done rfl
  rw [syncParent, wp_bind]
  apply wp_mono hopen
  · intro result w' hsame
    split
    next => exact hsame
    next =>
      rw [wp_bind]
      apply wp_sys
      apply wp_attempt
      apply wp_call
      · exact fun e _ => hsame.trans (still_failed w')
      · intro bound outcome hrun
        cases hrun
        exact hsame.trans (still_done rfl)
  · exact fun _ _ h => h

/-- What a commit of a ready upload leaves when it succeeds. -/
structure Commits (id : String) (u : Upload) (ino : ℕ) (w w' : World) : Prop where
  complete : u.committedOffset = u.size
  published : Publication w.os.disk.tree u ino w'.os.disk.tree
  content : ∀ i, (w'.os.disk.inode i).content = (w.os.disk.inode i).content
  uploads : w'.uploads = w.uploads.insert id { u with state := .completed, resources := none }

/-- Nothing but a failing call keeps a commit from succeeding. -/
structure Committable (s : Service) (u : Upload) (ino : ℕ) (w : World) : Prop where
  complete : u.committedOffset = u.size
  verified : Verified s u (w.os.disk.inode ino).content
  available : Available w.os.disk.tree u

theorem Committable.not_found (h : Committable s u ino w)
    (hreached : w.os.disk.tree.Reached u.directory) (hoverwrite : u.overwrite = false)
    (q : Location FileName) (e : Entry FileName) :
    w.os.disk.locate true (path u.target) ≠ .ok (q, e) := by
  have havailable := h.available
  rw [Available, if_neg (by simp [hoverwrite])] at havailable
  rw [Disk.locate, resolve_of_missing (canonical_target hreached) havailable]
  simp

/-- Before the publication nothing changes but the mode of the file. -/
theorem wp_stageUpload (h : Ready w.os.disk u ino) :
    wp (s.stageUpload u)
      (fun _ w' => u.committedOffset = u.size ∧ Settled w w')
      (fun _ w' => Settled w w' ∧ (w.os.Calm → ¬ Committable s u ino w)) w := by
  rw [stageUpload, wp_bind]
  apply wp_demand
  · intro hcomplete
    refine wp_seq (wp_verifyUpload h) ?_ ?_
    · rintro _ w₁ ⟨hwhy, h₁⟩
      exact ⟨h₁.settled, fun hcalm hable => hwhy hcalm hable.verified⟩
    rintro _ w₁ ⟨-, h₁⟩
    refine wp_seq wp_pathExists (fun _ _ h' => h'.elim) ?_
    rintro found w₂ ⟨hfound, -, hexists⟩
    have h₂ := h₁.trans hexists
    rw [wp_bind]
    apply wp_demand
    · intro _
      refine wp_seq (wp_openReady (h.settled h₂.settled)) ?_ ?_
      · rintro _ w₃ ⟨hfault, h'⟩
        exact ⟨(h₂.trans h').settled, fun hcalm => absurd (h₂.calm hcalm) hfault⟩
      rintro file w₃ ⟨-, hopen⟩
      have h₃ := h₂.trans hopen
      refine wp_seq wp_sync ?_ ?_
      · rintro _ w₄ ⟨hfault, h'⟩
        exact ⟨(h₃.trans h').settled, fun hcalm => absurd (h₃.calm hcalm) hfault⟩
      intro _ w₄ hsync
      have h₄ := (h₃.trans hsync).settled
      apply wp_mono (wp_setPermissions (h.settled h₄))
      · exact fun _ w₅ hmode => ⟨hcomplete, h₄.trans hmode⟩
      · rintro _ w₅ ⟨hfault, h'⟩
        exact ⟨h₄.trans h', fun hcalm => absurd (h₄.calm hcalm) hfault⟩
    · intro hexists'
      refine ⟨h₂.settled, fun _ hable => ?_⟩
      rw [not_not] at hexists'
      -- The name is free, so that nothing was found there.
      obtain ⟨q, e, hlocate⟩ := hfound hexists'.1
      rw [h₁.disk] at hlocate
      exact hable.not_found h.reached hexists'.2 q e hlocate
  · intro hincomplete
    exact ⟨(refl w).settled, fun _ hable => hincomplete hable.complete⟩

theorem wp_commitActive (h : Ready w.os.disk u ino) :
    wp (s.commitActive id u)
      (fun status w' => status = { u.status with state := .completed } ∧ Commits id u ino w w')
      (fun _ w' => (Renames w w' ∧ Linked w.os.disk.tree u ino w'.os.disk.tree) ∧
        (w.os.Calm → ¬ Committable s u ino w)) w := by
  rw [commitActive]
  refine wp_seq (wp_stageUpload h) ?_ ?_
  · rintro _ w₁ ⟨hsettled, hwhy⟩
    rw [hsettled.tree]
    exact ⟨⟨hsettled.toRenames, .no⟩, hwhy⟩
  rintro _ w₁ ⟨hcomplete, h₁⟩
  refine wp_seq (wp_publishUpload (h.settled h₁)) ?_ ?_
  · rintro e w₂ ⟨⟨hrenames, hlinked⟩, hwhy⟩
    rw [h₁.tree] at hlinked hwhy
    exact ⟨⟨h₁.toRenames.trans hrenames, hlinked⟩,
      fun hcalm hable => hwhy (h₁.calm hcalm) hable.available⟩
  rintro _ w₂ ⟨hrenames, hpublication⟩
  have h₂ := h₁.toRenames.trans hrenames
  rw [h₁.tree] at hpublication
  refine wp_seq wp_syncParent (fun _ _ h' => h'.elim) ?_
  intro _ w₃ hparent
  refine wp_seq wp_releaseUpload (fun _ _ h' => h'.elim) ?_
  rintro _ w₄ ⟨hos, huploads⟩
  refine ⟨rfl, hcomplete, ?_, ?_, ?_⟩
  · dsimp only
    rw [hos, hparent.disk]
    exact hpublication
  · intro i
    rw [hos, hparent.disk]
    exact h₂.content i
  · dsimp only
    rw [huploads, hparent.uploads, h₂.uploads]

/-- A commit, when the upload is ready if it is active. -/
theorem wp_commitUpload
    (hready : ∀ u, w.uploads.get? id = some u → u.state = .active → ∃ ino, Ready w.os.disk u ino) :
    wp (s.commitUpload id)
      (fun status w' => status.state = .completed ∧ ∃ u, w.uploads.get? id = some u ∧
        (u.state = .completed ∧ w' = w ∨ u.state = .active ∧ ∃ ino, Ready w.os.disk u ino ∧
          Commits id u ino w w'))
      (fun _ w' => w' = w ∨ ∃ u ino, w.uploads.get? id = some u ∧ u.state = .active ∧
        Ready w.os.disk u ino ∧ Renames w w' ∧ Linked w.os.disk.tree u ino w'.os.disk.tree) w := by
  rw [commitUpload, wp_bind]
  apply wp_check
  · intro _ _
    refine wp_seq wp_findUpload (fun _ _ hfind => .inl hfind.2) ?_
    rintro u _ ⟨hu, rfl⟩
    split
    next hcompleted => exact ⟨hcompleted, u, hu, .inl ⟨hcompleted, rfl⟩⟩
    next haborted => exact .inl rfl
    next hactive =>
      obtain ⟨ino, h⟩ := hready u hu hactive
      apply wp_mono (wp_commitActive h)
      · rintro status w' ⟨rfl, hcommits⟩
        exact ⟨rfl, u, hu, .inr ⟨hactive, ino, h, hcommits⟩⟩
      · rintro e w' ⟨⟨hrenames, hlinked⟩, -⟩
        exact .inr ⟨u, ino, hu, hactive, h, hrenames, hlinked⟩
  · exact fun _ _ => .inl rfl

/-! ## Aborts -/

/-- The temporary name goes, or there was no call that found it. -/
theorem wp_removeTemporary (h : w.os.disk.tree.Canonical u.temporary) :
    wp (s.removeTemporary u)
      (fun _ w' => Renames w w' ∧ (w'.os.disk.tree = w.os.disk.tree ∨
        w'.os.disk.tree = w.os.disk.tree.erase u.temporary))
      (fun _ w' => Still w w') w := by
  rw [removeTemporary, wp_bind]
  apply wp_sys
  apply wp_attempt
  apply wp_call
  · intro e _
    have hsame : Still w { w with os := w.os.failed } := still_failed w
    apply wp_require
    · intro _
      exact ⟨⟨hsame.uploads, fun _ => rfl⟩, .inl rfl⟩
    · exact fun _ => hsame
  · intro bound outcome hrun
    obtain rfl := unlinkBody_path_ok h hrun
    exact ⟨⟨rfl, fun _ => rfl⟩, .inr rfl⟩

/-- What an abort leaves of an active upload. -/
structure Aborts (id : String) (u : Upload) (w w' : World) : Prop where
  content : ∀ i, (w'.os.disk.inode i).content = (w.os.disk.inode i).content
  tree : w'.os.disk.tree = w.os.disk.tree ∨ w'.os.disk.tree = w.os.disk.tree.erase u.temporary
  uploads : w'.uploads = w.uploads.insert id { u with state := .aborted, resources := none }

theorem Aborts.find_some (h : Aborts id u w w')
    {p : Location FileName} {e : Entry FileName} (hp : w.os.disk.tree.find p = some e) :
    w'.os.disk.tree.find p = some e ∨ p = u.temporary ∧ w'.os.disk.tree.find p = none := by
  rcases h.tree with htree | htree
  · rw [htree]
    exact .inl hp
  · rw [htree, find_erase (by simp [u.temporary_eq])]
    split
    next htemporary => exact .inr ⟨htemporary, rfl⟩
    next => exact .inl hp

theorem wp_abortUpload
    (h : ∀ u, w.uploads.get? id = some u → u.state = .active →
      w.os.disk.tree.Canonical u.temporary) :
    wp (s.abortUpload id)
      (fun _ w' => w' = w ∨ ∃ u, w.uploads.get? id = some u ∧ u.state = .active ∧
        Aborts id u w w')
      (fun _ w' => Still w w') w := by
  rw [abortUpload, wp_bind]
  apply wp_check
  · intro _ _
    refine wp_seq wp_findUpload ?_ ?_
    · rintro _ _ ⟨-, rfl⟩
      exact refl _
    rintro u _ ⟨hu, rfl⟩
    split
    next hactive =>
      refine wp_seq (wp_removeTemporary (h u hu hactive)) (fun _ _ h' => h') ?_
      rintro _ w₁ ⟨hrenames, htree⟩
      refine wp_seq wp_releaseUpload (fun _ _ h' => h'.elim) ?_
      rintro _ w₂ ⟨hos, huploads⟩
      refine .inr ⟨u, hu, hactive, ?_, ?_, ?_⟩
      · intro i
        rw [hos]
        exact hrenames.content i
      · dsimp only
        rw [hos]
        exact htree
      · dsimp only
        rw [huploads, hrenames.uploads]
    next => exact .inl rfl
  · exact fun _ _ => refl _

end Service

end AstraShell.Files
