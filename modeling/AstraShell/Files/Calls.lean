import AstraShell.Files.Service

/-!
# What the parts of a request do

One statement for each helper of the file service: what it returns and what it changes, whatever
faults its calls meet. `Still` is a step that changes nothing. A resolved path is inside the root
and goes through real directories only (`Names`, `Finds`).
-/

set_option autoImplicit false

namespace AstraShell.Files

open Lib Lib.Effect Lib.FileTree Resources

/-- Nothing changes but the faults that are still to come. -/
structure Still (w w' : World) : Prop where
  uploads : w'.uploads = w.uploads
  pools : w'.pools = w.pools
  os : Quiet w.os w'.os

section Still

variable {w w' w'' : World}

theorem Still.refl (w : World) : Still w w := ⟨rfl, rfl, Quiet.refl w.os⟩

section

variable (h : Still w w')

include h

theorem Still.trans (h' : Still w' w'') : Still w w'' :=
  ⟨h'.uploads.trans h.uploads, h'.pools.trans h.pools, h.os.trans h'.os⟩

theorem Still.disk : w'.os.disk = w.os.disk := h.os.disk

theorem Still.calm (hcalm : w.os.Calm) : w'.os.Calm := h.os.calm hcalm

end

theorem still_failed (w : World) : Still w { w with os := w.os.failed } :=
  ⟨rfl, rfl, quiet_failed w.os⟩

theorem still_done {α : Type} {w : World} {outcome : Outcome FileName α}
    (hdisk : outcome.disk = w.os.disk) : Still w { w with os := w.os.done outcome } :=
  ⟨rfl, rfl, quiet_done hdisk⟩

end Still

namespace Service

variable {s : Service} {w : World} {α : Type}

/-! ## Rules -/

variable {action : String}

theorem wp_sys {m : Effect (Os FileName) IoError α} {Q : α → World → Prop}
    {E : FileServiceError → World → Prop}
    (h : wp m (fun a os => Q a { w with os := os })
      (fun e os => E (s.ioError action e) { w with os := os }) w.os) :
    wp (s.sys action m) Q E w :=
  wp_within h

/-- A call of a request. It fails for a fault or by itself. -/
theorem wp_sysCall {body : Body FileName α} {Q : α → World → Prop}
    {E : FileServiceError → World → Prop}
    (herror : ∀ e, (¬ w.os.Calm ∨ ∃ bound e', body bound w.os.disk = .error e') →
      E e { w with os := w.os.failed })
    (hok : ∀ bound outcome, body bound w.os.disk = .ok outcome →
      Q outcome.value { w with os := w.os.done outcome }) :
    wp (s.sys action (call body)) Q E w := by
  apply wp_sys
  apply wp_call
  · rintro e (hfault | ⟨bound, hbody⟩)
    · exact herror _ (.inl fun hcalm => hcalm e hfault)
    · exact herror _ (.inr ⟨bound, e, hbody⟩)
  · exact hok

theorem wp_demand {p : Prop} [Decidable p] {code : ErrorCode} {message : String}
    {Q : Unit → World → Prop} {E : FileServiceError → World → Prop} (hok : p → Q () w)
    (herror : ¬ p → E ⟨code, message⟩ w) : wp (demand p code message) Q E w :=
  wp_require hok herror

/-! ## Paths -/

theorem wp_canonicalize {path : PathBuf} :
    wp (s.canonicalize path)
      (fun p w' => (∃ e, w.os.disk.locate true path.segments = .ok (p, e)) ∧ Still w w')
      (fun _ w' => Still w w') w := by
  apply wp_sysCall
  · exact fun e _ => still_failed w
  · intro bound outcome hrun
    obtain ⟨⟨p, e⟩, hlocate, hpure⟩ := bind_eq_ok_iff.1 hrun
    cases hpure
    exact ⟨⟨e, hlocate⟩, still_done rfl⟩

variable {d : Disk FileName}

theorem stands_of_locate {path : List (Segment FileName)} {p : Location FileName}
    {e : Entry FileName} (h : d.locate true path = .ok (p, e)) : d.tree.Stands p := by
  obtain ⟨-, hcanonical, hfind, hlink⟩ := locate_eq_ok h
  exact ⟨hcanonical, e, hfind, hlink rfl⟩

theorem wp_ensureInsideRoot {p : Location FileName} :
    wp (s.ensureInsideRoot p) (fun _ w' => s.root <+: p ∧ w' = w) (fun _ w' => w' = w) w :=
  wp_demand (fun h => ⟨h, rfl⟩) fun _ => rfl

theorem wp_nameOf {path : PathBuf} :
    wp (nameOf path) (fun name w' => path.fileName = some name ∧ w' = w) (fun _ w' => w' = w)
      w := by
  apply wp_check
  · intro name hname
    cases hfile : path.fileName with
    | none =>
      rw [hfile] at hname
      cases hname
    | some name' =>
      rw [hfile] at hname
      cases hname
      exact ⟨rfl, rfl⟩
  · exact fun _ _ => rfl

/-- The location that a new path names: its last name, in the directory its other names lead to. -/
structure Names (s : Service) (d : Disk FileName) (raw : List UInt8)
    (target : Location FileName) : Prop where
  named : ∃ candidate name parent e, s.requestedPath raw = .ok candidate ∧
    candidate.fileName = some name ∧
    d.locate true (PathBuf.segments candidate.parent) = .ok (parent, e) ∧
    s.root <+: parent ∧ target = parent ++ [name]

variable {raw : List UInt8}

theorem Names.unique {p q : Location FileName}
    (h : Names s d raw p) (h' : Names s d raw q) : p = q := by
  obtain ⟨candidate, name, parent, e, hcandidate, hname, hlocate, -, rfl⟩ := h.named
  obtain ⟨candidate', name', parent', e', hcandidate', hname', hlocate', -, rfl⟩ := h'.named
  rw [hcandidate] at hcandidate'
  cases hcandidate'
  rw [hname] at hname'
  cases hname'
  rw [hlocate] at hlocate'
  cases hlocate'
  rfl

theorem Names.stands {target : Location FileName}
    (h : Names s d raw target) : d.tree.Stands target.dropLast := by
  obtain ⟨candidate, name, parent, e, -, -, hlocate, -, rfl⟩ := h.named
  rw [List.dropLast_concat]
  exact stands_of_locate hlocate

theorem wp_resolveNew :
    wp (s.resolveNew raw) (fun target w' => Names s w.os.disk raw target ∧ Still w w')
      (fun _ w' => Still w w') w := by
  rw [resolveNew, wp_bind]
  apply wp_check
  · intro candidate hcandidate
    refine wp_seq wp_nameOf (fun _ _ hsame => hsame ▸ Still.refl w) ?_
    rintro name _ ⟨hname, rfl⟩
    refine wp_seq wp_canonicalize (fun _ _ hstill => hstill) ?_
    rintro parent w' ⟨⟨e, hlocate⟩, hstill⟩
    refine wp_seq wp_ensureInsideRoot (fun _ _ hsame => hsame ▸ hstill) ?_
    rintro _ _ ⟨hinside, rfl⟩
    exact ⟨⟨candidate, name, parent, e, hcandidate, hname, hlocate, hinside, rfl⟩, hstill⟩
  · exact fun _ _ => Still.refl w

/-- The location that an existing path leads to, over its last link or up to it. -/
structure Finds (s : Service) (d : Disk FileName) (raw : List UInt8) (follow : Bool)
    (p : Location FileName) : Prop where
  found : ∃ candidate, s.requestedPath raw = .ok candidate ∧
    if follow = true ∨ candidate.names = s.root then
      ∃ e, d.locate true (PathBuf.segments candidate) = .ok (p, e)
    else ∃ name parent e, candidate.fileName = some name ∧
      d.locate true (PathBuf.segments candidate.parent) = .ok (parent, e) ∧ p = parent ++ [name]
  inside : s.root <+: p

variable {follow : Bool}

/-- Such a location is no link, or a name in a place that is none. -/
theorem Finds.stands {p : Location FileName} (h : Finds s d raw follow p) :
    d.tree.Stands p ∨ follow = false ∧ ∃ parent name, p = parent ++ [name] ∧
      d.tree.Stands parent := by
  obtain ⟨candidate, -, hfound⟩ := h.found
  split at hfound
  next =>
    obtain ⟨e, hlocate⟩ := hfound
    exact .inl (stands_of_locate hlocate)
  next hfollow =>
    rw [not_or] at hfollow
    obtain ⟨name, parent, e, -, hlocate, rfl⟩ := hfound
    exact .inr ⟨by simpa using hfollow.1, parent, name, rfl, stands_of_locate hlocate⟩

theorem wp_resolveExisting :
    wp (s.resolveExisting raw follow) (fun p w' => Finds s w.os.disk raw follow p ∧ Still w w')
      (fun _ w' => Still w w') w := by
  rw [resolveExisting, wp_bind]
  apply wp_check
  · intro candidate hcandidate
    -- Both ways end with the check.
    have hend : ∀ p w', (if follow = true ∨ candidate.names = s.root then
          ∃ e, w.os.disk.locate true (PathBuf.segments candidate) = .ok (p, e)
        else ∃ name parent e, candidate.fileName = some name ∧
          w.os.disk.locate true (PathBuf.segments candidate.parent) = .ok (parent, e) ∧
          p = parent ++ [name]) → Still w w' →
        wp (do s.ensureInsideRoot p; pure p)
          (fun p w' => Finds s w.os.disk raw follow p ∧ Still w w')
          (fun _ w' => Still w w') w' := by
      intro p w' hp hstill
      refine wp_seq wp_ensureInsideRoot (fun _ _ hsame => hsame ▸ hstill) ?_
      rintro _ _ ⟨hinside, rfl⟩
      exact ⟨⟨⟨candidate, hcandidate, hp⟩, hinside⟩, hstill⟩
    split
    next hfollow =>
      refine wp_seq wp_canonicalize (fun _ _ hstill => hstill) ?_
      rintro p w' ⟨hlocate, hstill⟩
      exact hend p w' (by rw [if_pos hfollow]; exact hlocate) hstill
    next hfollow =>
      refine wp_seq wp_nameOf (fun _ _ hsame => hsame ▸ Still.refl w) ?_
      rintro name _ ⟨hname, rfl⟩
      refine wp_seq wp_canonicalize (fun _ _ hstill => hstill) ?_
      rintro parent w' ⟨⟨e, hlocate⟩, hstill⟩
      apply hend _ w' _ hstill
      rw [if_neg hfollow]
      exact ⟨name, parent, e, hname, hlocate, rfl⟩
  · exact fun _ _ => Still.refl w

/-! ## Files -/

theorem wp_pathExists {p : Location FileName} :
    wp (s.pathExists p)
      (fun found w' => (found = true → ∃ q e, w.os.disk.locate true (Tree.path p) = .ok (q, e)) ∧
        (w.os.Calm → found = false → ∀ q e, w.os.disk.locate true (Tree.path p) ≠ .ok (q, e)) ∧
        Still w w')
      (fun _ _ => False) w := by
  rw [pathExists, wp_bind]
  apply wp_sys
  apply wp_attempt
  apply wp_call
  · intro e he
    refine ⟨nofun, fun hcalm _ q e' hlocate => ?_, still_failed w⟩
    rcases he with hfault | ⟨bound, hbody⟩
    · exact hcalm e hfault
    · rw [presentBody, hlocate] at hbody
      cases hbody
  · intro bound outcome hrun
    obtain ⟨⟨q, e⟩, hlocate, hpure⟩ := bind_eq_ok_iff.1 hrun
    cases hpure
    exact ⟨fun _ => ⟨q, e, hlocate⟩, nofun, still_done rfl⟩

/-- The digest of the file that a path leads to. Without a fault this fails only where there is no
file. -/
theorem wp_sha256File {p : Location FileName} :
    wp (s.sha256File p)
      (fun digest w' => (∃ q e, w.os.disk.locate true (Tree.path p) = .ok (q, e) ∧
        digest = s.platform.sha256 (w.os.disk.inode e.ino).content) ∧
        Still w w')
      (fun _ w' => (w.os.Calm → ∀ q e, w.os.disk.locate true (Tree.path p) = .ok (q, e) →
          e.kind = .directory) ∧ Still w w') w := by
  rw [sha256File, wp_bind]
  apply wp_sysCall
  · rintro e (hfault | ⟨bound, e', hbody⟩)
    · exact ⟨fun hcalm => absurd hcalm hfault, still_failed w⟩
    · refine ⟨fun _ q e'' hlocate => ?_, still_failed w⟩
      rw [openBody, hlocate] at hbody
      cases hbody
  · intro bound outcome hrun
    obtain ⟨⟨q, e⟩, hlocate, hpure⟩ := bind_eq_ok_iff.1 hrun
    have hopen : Still w { w with os := w.os.done outcome } := by
      cases hpure
      exact still_done rfl
    cases hpure
    rw [wp_bind]
    apply wp_sys
    apply wp_mono (wp_readAll (by decide))
    · rintro content os ⟨hcontent, hquiet⟩
      refine ⟨⟨q, e, hlocate, congrArg s.platform.sha256 hcontent⟩, ?_⟩
      exact hopen.trans ⟨rfl, rfl, hquiet⟩
    · rintro _ os ⟨hwhy, hquiet⟩
      refine ⟨fun hcalm q' e' hlocate' => ?_, hopen.trans ⟨rfl, rfl, hquiet⟩⟩
      rw [hlocate] at hlocate'
      cases hlocate'
      exact hwhy.resolve_left fun hfault => hfault (hopen.calm hcalm)

theorem wp_metadata {p : Location FileName} :
    wp (s.sys action (call (metadataBody follow (Tree.path p))))
      (fun metadata w' => (∃ q e, w.os.disk.locate follow (Tree.path p) = .ok (q, e) ∧
        metadata = w.os.disk.metadataOf e) ∧ Still w w')
      (fun _ w' => Still w w') w := by
  apply wp_sysCall
  · exact fun e _ => still_failed w
  · intro bound outcome hrun
    obtain ⟨⟨q, e⟩, hlocate, hpure⟩ := bind_eq_ok_iff.1 hrun
    cases hpure
    exact ⟨⟨q, e, hlocate, rfl⟩, still_done rfl⟩

theorem wp_fstat {file : Handle FileName} :
    wp (s.sys action (call (fstatBody file)))
      (fun metadata w' => metadata = w.os.disk.metadataOf ⟨file.ino, file.kind⟩ ∧
        Still w w')
      (fun _ w' => ¬ w.os.Calm ∧ Still w w') w := by
  apply wp_sysCall
  · rintro e (hfault | ⟨bound, e', hbody⟩)
    · exact ⟨hfault, still_failed w⟩
    · cases hbody
  · intro bound outcome hrun
    cases hrun
    exact ⟨rfl, still_done rfl⟩

end Service

end AstraShell.Files
