import AstraShell.Files.Calls

/-!
# Renames that must not overwrite

`rename` asks whether its destination exists and then gives the source its name. The question
follows symbolic links and the call does not, so a link that leads nowhere is no obstacle and is
replaced (`dangling_destination_replaced`). Exactly where a rename does not come to such a link with
something that is no directory, it fails or only moves: the name was free, and everything else keeps
its place (`rename_keeps_entries`).
-/

set_option autoImplicit false

namespace AstraShell.Files

open Lib Lib.Effect Lib.FileTree Resources

/-- What is at `src`, with all that is below it, is now at `dst`, a name that was free. -/
structure Relocates (d d' : Disk FileName) (src dst : Location FileName) : Prop where
  fresh : d.tree.find dst = none
  added : ∃ e, d.tree.find src = some e ∧ d'.tree.find dst = some e
  gone : d'.tree.find src = none
  below : ∀ r, d'.tree.find (dst ++ r) = d.tree.find (src ++ r)
  others : ∀ p, d.tree.Canonical p → ¬ src <+: p → p ≠ dst → d'.tree.find p = d.tree.find p
  inode : d'.inode = d.inode

section Relocates

variable {d : Disk FileName} {src dst : Location FileName} {e : Entry FileName}

theorem relocates_move (hsrc : d.tree.Canonical src) (hroot : src ≠ [])
    (hfind : d.tree.find src = some e) (hfree : d.tree.find dst = none) :
    Relocates d { d with tree := d.tree.move src dst } src dst := by
  have hroot' := Tree.ne_nil_of_find hfree
  have hnodir : d.tree.isDirectory dst = false := by
    unfold Tree.isDirectory
    rw [hfree]
  -- A free name has nothing below it that a path could come to.
  have hnot : ∀ {p : Location FileName}, d.tree.Canonical p → p ≠ dst → ¬ dst <+: p := by
    intro p hp hne hbelow
    exact hne (hp.eq_of_not_directory hnodir hbelow).symm
  have hne : src ≠ dst := by
    rintro rfl
    rw [hfree] at hfind
    cases hfind
  refine ⟨hfree, ⟨e, hfind, ?_⟩, ?_, ?_, ?_, rfl⟩
  · dsimp only
    rw [Tree.find_move hroot hroot', if_pos (List.prefix_refl dst), List.drop_length,
      List.append_nil]
    exact hfind
  · dsimp only
    rw [Tree.find_move hroot hroot', if_neg (hnot hsrc hne), if_pos (List.prefix_refl src)]
  · intro r
    rw [Tree.find_move hroot hroot', if_pos (List.prefix_append dst r), List.drop_left]
  · intro p hp hbelow hne'
    rw [Tree.find_move hroot hroot', if_neg (hnot hp hne'), if_neg hbelow]

end Relocates

namespace Service

variable {s : Service} {w : World}

/-- Where a call may find an entry: a place that is no link, or a name in such a place. -/
def Reachable (d : Disk FileName) (p : Location FileName) : Prop :=
  d.tree.Stands p ∨ ∃ parent name, p = parent ++ [name] ∧ d.tree.Stands parent

theorem canonical_of_resolve {d : Disk FileName} {p : Location FileName} {spot : Spot FileName}
    (h : Reachable d p) (hspot : d.tree.resolve false (Tree.path p) = .ok spot) :
    d.tree.Canonical p := by
  rcases h with hstands | ⟨parent, name, rfl, hstands⟩
  · exact hstands.1
  · exact (Tree.reached_of_resolve hstands hspot).canonical_name name

/-- What is no directory would take the name of a link that leads nowhere. -/
structure Replaces (d : Disk FileName) (src dst : Location FileName) : Prop where
  file : ∃ e, d.locate false (Tree.path src) = .ok (src, e) ∧ e.kind ≠ .directory
  taken : ∃ e, d.locate false (Tree.path dst) = .ok (dst, e)
  nowhere : ∀ q e, d.locate true (Tree.path dst) ≠ .ok (q, e)

section Replaces

variable {d : Disk FileName} {src dst : Location FileName}

theorem Replaces.isDirectory (h : Replaces d src dst) : d.tree.isDirectory dst = false := by
  obtain ⟨e, hdst⟩ := h.taken
  obtain ⟨-, hcanonical, -⟩ := locate_eq_ok hdst
  cases hdirectory : d.tree.isDirectory dst with
  | false => rfl
  | true =>
    obtain ⟨ino, hfind⟩ := Tree.isDirectory_iff.1 hdirectory
    exact absurd (locate_path hcanonical hfind (by simp)) (h.nowhere dst _)

/-- Nothing is in the way of such a rename. -/
theorem Replaces.renameBody_ok (h : Replaces d src dst) (bound : Option ℕ) :
    ∃ outcome, renameBody (Tree.path src) (Tree.path dst) bound d = .ok outcome := by
  obtain ⟨e, hsrc, hkind⟩ := h.file
  obtain ⟨e', hdst⟩ := h.taken
  obtain ⟨-, hcanonical, hfind, -⟩ := locate_eq_ok hsrc
  exact renameBody_path hcanonical (locate_eq_ok hdst).2.1 hfind hkind h.isDirectory

/-- Any other rename to a name that leads nowhere finds the name free. -/
theorem find_of_not_replaces (h : ¬ Replaces d src dst)
    (hnowhere : ∀ q e, d.locate true (Tree.path dst) ≠ .ok (q, e)) {e : Entry FileName}
    (hsrc : d.tree.Canonical src) (hdst : d.tree.Canonical dst) (hfind : d.tree.find src = some e)
    (hmay : d.tree.find dst = some e ∨ mayReplace d src dst e = .ok ()) :
    d.tree.find dst = none := by
  by_contra htaken
  obtain ⟨e', hfind'⟩ := Option.ne_none_iff_exists'.1 htaken
  -- The name has an entry that is no directory, so that a directory could not take it.
  have hlink : e'.kind ≠ .directory := fun hkind =>
    hnowhere dst e' (locate_path hdst hfind' (by simp [hkind]))
  have hkind : e.kind ≠ .directory := by
    rintro hkind
    rcases hmay with hsame | hmay
    · cases hsame.symm.trans hfind'
      exact hlink hkind
    · obtain ⟨ino, kind⟩ := e'
      cases kind <;> simp_all [mayReplace]
  exact h ⟨⟨e, locate_path hsrc hfind (by simp), hkind⟩, ⟨e', locate_path hdst hfind' (by simp)⟩,
    hnowhere⟩

end Replaces

theorem wp_renamePaths {source destination : List UInt8} :
    wp (s.renamePaths source destination)
      (fun paths w' => Finds s w.os.disk source false paths.1 ∧
        Names s w.os.disk destination paths.2 ∧ Still w w')
      (fun _ _ => True) w := by
  rw [renamePaths]
  refine wp_seq wp_resolveExisting (fun _ _ _ => trivial) ?_
  rintro src w₁ ⟨hfinds, h₁⟩
  refine wp_seq wp_resolveNew (fun _ _ _ => trivial) ?_
  rintro dst w₂ ⟨hnames, h₂⟩
  rw [h₁.disk] at hnames
  rw [wp_bind]
  exact wp_demand (fun _ => ⟨hfinds, hnames, h₁.trans h₂⟩) fun _ => trivial

/-- A rename that must not overwrite, from the question on. It replaces a link to nowhere, or fails,
or only moves. -/
theorem wp_renameTo {source destination : List UInt8} {src dst : Location FileName} {w₁ : World}
    (hcalm : w.os.Calm) (hrun : s.renamePaths source destination w = (.ok (src, dst), w₁)) :
    wp (s.rename source destination false)
      (fun _ w' => Replaces w.os.disk src dst ∨ Relocates w.os.disk w'.os.disk src dst)
      (fun _ _ => ¬ Replaces w.os.disk src dst) w := by
  obtain ⟨hfinds, hnames, h₁⟩ := of_wp_ok wp_renamePaths hrun
  have hpaths : wp (s.renamePaths source destination)
      (fun paths w' => paths = (src, dst) ∧ w' = w₁) (fun _ _ => False) w := by
    rw [wp, hrun]
    exact ⟨rfl, rfl⟩
  rw [rename]
  refine wp_seq hpaths (fun _ _ h => h.elim) ?_
  rintro _ _ ⟨rfl, rfl⟩
  refine wp_seq wp_pathExists (fun _ _ h => h.elim) ?_
  rintro found w₂ ⟨hfound, habsent, h₂⟩
  have h := h₁.trans h₂
  rw [h₁.disk] at hfound habsent
  rw [wp_bind]
  apply wp_demand
  · intro hallowed
    have hnowhere := habsent (h₁.calm hcalm) (by simpa using hallowed)
    apply wp_sysCall
    · rintro e (hfault | ⟨bound, e', hbody⟩) hreplaces
      · exact hfault (h.calm hcalm)
      · obtain ⟨outcome, hok⟩ := hreplaces.renameBody_ok bound
        rw [← h.disk, hbody] at hok
        cases hok
    · intro bound outcome hbody
      rw [h.disk] at hbody
      refine or_iff_not_imp_left.2 fun hreplaces => ?_
      have hcanonical : w.os.disk.tree.Canonical src ∧ w.os.disk.tree.Canonical dst := by
        obtain ⟨⟨q, e⟩, hlocate, hrest⟩ := bind_eq_ok_iff.1 hbody
        obtain ⟨spot, hspot, -⟩ := bind_eq_ok_iff.1 hrest
        obtain ⟨_, name, parent, _, -, -, hparent, -, rfl⟩ := hnames.named
        exact ⟨canonical_of_resolve (hfinds.stands.imp_right fun hname => hname.2)
          (locate_eq_ok hlocate).1,
          canonical_of_resolve (.inr ⟨parent, name, rfl, stands_of_locate hparent⟩) hspot⟩
      obtain ⟨e, hfind, hroot, hend⟩ := renameBody_path_ok hcanonical.1 hcanonical.2 hbody
      have hfree := find_of_not_replaces hreplaces hnowhere hcanonical.1 hcanonical.2 hfind
        (hend.imp And.left fun hmoved => hmoved.2.1)
      obtain ⟨hsame, -⟩ | ⟨-, -, hdisk⟩ := hend
      · -- The destination is no second name of the source, it is free.
        cases hfree.symm.trans hsame
      · dsimp only [Os.done]
        rw [hdisk]
        exact relocates_move hcanonical.1 hroot hfind hfree
  · intro hrefused hreplaces
    rw [not_not] at hrefused
    obtain ⟨q, e, hlocate⟩ := hfound hrefused.1
    exact hreplaces.nowhere q e hlocate

/-- Without `overwrite` a rename that succeeds only moves, exactly when it does not come to give the
name of a link to nowhere to what is no directory. -/
theorem rename_keeps_entries (s : Service) (w : World) (source destination : List UInt8)
    (faults : List Fault) (hcalm : ∀ e, .error e ∉ faults) :
    (∀ response w', s.serveWith (.rename source destination false) faults w = (.ok response, w') →
      ∃ src dst, Finds s w.os.disk source false src ∧ Names s w.os.disk destination dst ∧
        Relocates w.os.disk w'.os.disk src dst) ↔
    ∀ src dst w₁, s.renamePaths source destination (w.facing faults) = (.ok (src, dst), w₁) →
      ¬ Replaces w.os.disk src dst := by
  constructor
  · intro hkeeps src dst w₁ hrun hreplaces
    have hrename := wp_renameTo (w := w.facing faults) hcalm hrun
    obtain ⟨-, hnames, -⟩ := of_wp_ok wp_renamePaths hrun
    rcases hserve : s.rename source destination false (w.facing faults) with ⟨e | _, w'⟩
    · exact of_wp_error hrename hserve hreplaces
    · obtain ⟨src', dst', -, hnames', hrelocates⟩ := hkeeps .done w' (by
        rw [serveWith, serve]
        simp only [bind, andThen, hserve]
        rfl)
      cases hnames.unique hnames'
      obtain ⟨e, hdst⟩ := hreplaces.taken
      cases hrelocates.fresh.symm.trans (locate_eq_ok hdst).2.2.1
  · intro hspared response w' hrun
    rw [serveWith, serve] at hrun
    rcases hserve : s.rename source destination false (w.facing faults) with ⟨e | _, w''⟩
    · simp only [bind, andThen, hserve] at hrun
      cases hrun
    · simp only [bind, andThen, hserve] at hrun
      cases hrun
      rcases hpaths : s.renamePaths source destination (w.facing faults) with ⟨e | ⟨src, dst⟩, w₁⟩
      · simp only [rename, bind, andThen, hpaths] at hserve
        cases hserve
      · obtain ⟨hfinds, hnames, -⟩ := of_wp_ok wp_renamePaths hpaths
        have hrename := of_wp_ok (wp_renameTo (w := w.facing faults) hcalm hpaths) hserve
        exact ⟨src, dst, hfinds, hnames, hrename.resolve_left (hspared src dst w₁ hpaths)⟩

end Service

/-! ## A link to nowhere -/

/-- The file `a`, and at `b` a link to a name that is not there, or to the file. -/
def linkedTree (target : UInt8) : FileTree.Tree FileName :=
  (emptyTree.insert [⟨[97], by decide⟩] ⟨1, .regular⟩).insert [⟨[98], by decide⟩]
    ⟨2, .symlink ⟨false, [segment [target]]⟩⟩

/-- The file `a` is renamed to `c`. -/
theorem rename_keeps_entries_linked :
    let s : Service := ⟨[], .telling []⟩
    let w := World.ofTree (linkedTree 97)
    (s.serveWith (.rename [97] [99] false) [] w).1 = .ok .done ∧
      ∃ src dst, Service.Finds s w.os.disk [97] false src ∧ Service.Names s w.os.disk [99] dst ∧
        Relocates w.os.disk (s.serveWith (.rename [97] [99] false) [] w).2.os.disk src dst := by
  intro s w
  have hok : (s.serveWith (.rename [97] [99] false) [] w).1 = .ok .done := by decide +kernel
  refine ⟨hok, (Service.rename_keeps_entries s w [97] [99] [] (by simp)).2 ?_ _ _
    (Prod.ext hok rfl)⟩
  intro src dst w₁ hrun hreplaces
  have hpaths : (s.renamePaths [97] [99] (w.facing [])).1 =
      .ok ([⟨[97], by decide⟩], [⟨[99], by decide⟩]) := by decide +kernel
  rw [hrun] at hpaths
  cases hpaths
  obtain ⟨e, hdst⟩ := hreplaces.taken
  have hfree : w.os.disk.locate false (Tree.path [⟨[99], by decide⟩]) = .error .notFound := by
    decide +kernel
  cases hfree.symm.trans hdst

/-- The link at `b` leads nowhere; a rename of `a` to `b` that must not overwrite replaces it. -/
theorem dangling_destination_replaced :
    let s : Service := ⟨[], .telling []⟩
    let w := World.ofTree (linkedTree 99)
    let b : Location FileName := [⟨[98], by decide⟩]
    let result := s.serveWith (.rename [97] [98] false) [] w
    result.1 = .ok .done ∧
      w.os.disk.tree.find b = some ⟨2, .symlink ⟨false, [segment [99]]⟩⟩ ∧
      result.2.os.disk.tree.find b = some ⟨1, .regular⟩ := by
  decide +kernel

end AstraShell.Files
