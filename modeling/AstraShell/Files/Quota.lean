import AstraShell.Files.Begin
import Mathlib.Logic.Relation

/-!
# The quota of uploads

An upload reserves its size in every pool of the account when it begins, and its entry in the
registry owns the reservation until the upload is committed or aborted. Most of the code leaves the
registry and the pools alone (`Frames`), whatever its calls do on the disk; `Books` lists what the
requests of an upload can do to them.

`upload_quota_balanced`: after any requests, with any failures, the pools are charged for the
uploads that are recorded as active, and for nothing else.
-/

set_option autoImplicit false

namespace AstraShell.Files

open Lib Lib.Effect Lib.FileTree Resources ResourceAccount

/-! ## Code that leaves the books alone -/

/-- However it ends, the registry and the pools are as before. -/
structure Frames {α : Type} (m : ServiceM α) : Prop where
  uploads : ∀ w, (m w).2.uploads = w.uploads
  pools : ∀ w, (m w).2.pools = w.pools

namespace Frames

variable {α β : Type} {m : ServiceM α} {s : Service}

variable (u : Upload) (p : Location FileName)

theorem wp (h : Frames m) (w : World) :
    wp m (fun _ w' => w'.uploads = w.uploads ∧ w'.pools = w.pools)
      (fun _ w' => w'.uploads = w.uploads ∧ w'.pools = w.pools) w :=
  wp_iff_state.2 ⟨h.uploads w, h.pools w⟩

theorem of_wp (h : ∀ w, Effect.wp m (fun _ w' => w'.uploads = w.uploads ∧ w'.pools = w.pools)
    (fun _ w' => w'.uploads = w.uploads ∧ w'.pools = w.pools) w) : Frames m :=
  ⟨fun w => (wp_iff_state.1 (h w)).1, fun w => (wp_iff_state.1 (h w)).2⟩

theorem of_pure (a : α) : Frames (pure a : ServiceM α) := ⟨fun _ => rfl, fun _ => rfl⟩

theorem of_fail (e : FileServiceError) : Frames (fail e : ServiceM α) :=
  ⟨fun _ => rfl, fun _ => rfl⟩

theorem of_check (x : Except FileServiceError α) : Frames (check x) := ⟨fun _ => rfl, fun _ => rfl⟩

theorem of_require (p : Prop) [Decidable p] (e : FileServiceError) : Frames (require p e) := by
  unfold require
  split
  · exact of_pure ()
  · exact of_fail e

theorem of_demand (p : Prop) [Decidable p] (code : ErrorCode) (message : String) :
    Frames (Service.demand p code message) :=
  of_require p _

theorem of_sys (action : String) (m : Effect (Os FileName) IoError α) :
    Frames (s.sys action m) := by
  refine ⟨fun w => ?_, fun w => ?_⟩
  · simp only [Service.sys, within]
    rcases m w.os with ⟨e | a, os⟩ <;> rfl
  · simp only [Service.sys, within]
    rcases m w.os with ⟨e | a, os⟩ <;> rfl

theorem bind {f : α → ServiceM β} (hm : Frames m) (hf : ∀ a, Frames (f a)) : Frames (m >>= f) := by
  apply of_wp
  intro w
  refine wp_seq (hm.wp w) (fun e w' h => h) ?_
  rintro a w' ⟨huploads, hpools⟩
  apply wp_mono ((hf a).wp w')
  · exact fun b w'' h => ⟨h.1.trans huploads, h.2.trans hpools⟩
  · exact fun e w'' h => ⟨h.1.trans huploads, h.2.trans hpools⟩

theorem ite {p : Prop} [Decidable p] {m' : ServiceM α} (h : Frames m) (h' : Frames m') :
    Frames (if p then m else m') := by
  split
  · exact h
  · exact h'

/-! ### The helpers of the service -/

theorem resolveNew (raw : List UInt8) : Frames (s.resolveNew raw) := by
  rw [Service.resolveNew]
  apply bind (of_check _)
  intro candidate
  apply bind (of_check _)
  intro name
  apply bind (of_sys _ _)
  intro parent
  exact bind (of_demand _ _ _) fun _ => of_pure _

theorem pathExists : Frames (s.pathExists p) := by
  rw [Service.pathExists]
  apply bind (of_sys _ _)
  intro result
  cases result with
  | ok a | error e => exact of_pure _

theorem sha256File : Frames (s.sha256File p) := by
  rw [Service.sha256File]
  apply bind (of_sys _ _)
  intro file
  exact bind (of_sys _ _) fun _ => of_pure _

theorem openUploadFile : Frames (s.openUploadFile p) := by
  rw [Service.openUploadFile]
  apply bind (of_sys _ _)
  intro file
  apply bind (of_sys _ _)
  intro metadata
  exact bind (of_demand _ _ _) fun _ => of_pure _

theorem alreadyUploaded (target : Location FileName) (request : BeginUploadRequest) :
    Frames (s.alreadyUploaded target request) := by
  rw [Service.alreadyUploaded]
  apply bind (of_sys _ _)
  intro metadata
  apply ite
  · exact bind (sha256File _) fun _ => of_pure _
  · exact of_pure _

theorem verifyUpload : Frames (s.verifyUpload u) := by
  apply ite
  · exact bind (sha256File _) fun _ => of_demand _ _ _
  · exact of_pure _

theorem setPermissions : Frames (s.setPermissions u) := by
  exact ite (of_sys _ _) (of_pure _)

theorem publishUpload : Frames (s.publishUpload u) := by
  apply ite
  · exact of_sys _ _
  · exact bind (of_sys _ _) fun _ => of_sys _ _

theorem syncParent : Frames (s.syncParent u) := by
  rw [Service.syncParent]
  apply bind (of_sys _ _)
  intro result
  cases result with
  | ok a => exact bind (of_sys _ _) fun _ => of_pure _
  | error e => exact of_pure _

theorem stageUpload : Frames (s.stageUpload u) := by
  rw [Service.stageUpload]
  apply bind (of_demand _ _ _)
  intro _
  apply bind (verifyUpload u)
  intro _
  apply bind (pathExists _)
  intro found
  apply bind (of_demand _ _ _)
  intro _
  apply bind (openUploadFile _)
  intro file
  exact bind (of_sys _ _) fun _ => setPermissions u

theorem findUpload (id : String) : Frames (Service.findUpload id) := by
  apply of_wp
  intro w
  apply wp_mono Service.wp_findUpload
  · rintro u _ ⟨-, rfl⟩
    exact ⟨rfl, rfl⟩
  · rintro e _ ⟨-, rfl⟩
    exact ⟨rfl, rfl⟩

theorem removeTemporary : Frames (s.removeTemporary u) := by
  rw [Service.removeTemporary]
  apply bind (of_sys _ _)
  intro result
  cases result with
  | ok a => exact of_pure _
  | error e => exact of_require _ _

end Frames

/-! ## What requests do to the books -/

/-- The pools with the reservation of an upload given back. -/
def releasePools (u : Upload) (pools : List ResourcePool) : List ResourcePool :=
  match u.resources with
  | none => pools
  | some claim => ResourceAccount.release claim pools

/-- What a request of an upload can do to the registry and the pools. -/
inductive Books (uploads : OrdMap String Upload) (pools : List ResourcePool) :
    OrdMap String Upload → List ResourcePool → Prop
  | same : Books uploads pools uploads pools
  | forgot : Books uploads pools (activeUploads uploads) pools
  /-- An upload was not begun, and its reservation was given back. -/
  | givenBack {claim : ResourceClaim} {reserved : List ResourcePool}
      (hreserve : ResourceAccount.reserve claim pools = .ok reserved) :
      Books uploads pools (activeUploads uploads) (ResourceAccount.release claim reserved)
  /-- The target is in place. -/
  | inPlace {id : String} {u : Upload} (hnone : uploads.get? id = none)
      (hstate : u.state = .completed) (hresources : u.resources = none) :
      Books uploads pools ((activeUploads uploads).insert id u) pools
  | begun {id : String} {u : Upload} {pools' : List ResourcePool} (hnone : uploads.get? id = none)
      (hstate : u.state = .active) (hresources : u.resources = some (.upload u.size))
      (hreserve : ResourceAccount.reserve (.upload u.size) pools = .ok pools') :
      Books uploads pools ((activeUploads uploads).insert id u) pools'
  | wrote {id : String} {u u' : Upload} (hu : uploads.get? id = some u)
      (hstate : u'.state = u.state) (hsize : u'.size = u.size)
      (hresources : u'.resources = u.resources) :
      Books uploads pools (uploads.insert id u') pools
  /-- An active upload is committed or aborted. -/
  | ended {id : String} {u u' : Upload} (hu : uploads.get? id = some u)
      (hactive : u.state = .active) (hstate : u'.state ≠ .active)
      (hresources : u'.resources = none) :
      Books uploads pools (uploads.insert id u') (releasePools u pools)

/-- From these books a program leaves ones for which `B` holds, however it ends. -/
def Leaves {α : Type} (uploads : OrdMap String Upload) (pools : List ResourcePool)
    (B : OrdMap String Upload → List ResourcePool → Prop) (m : ServiceM α) : Prop :=
  ∀ w : World, w.uploads = uploads → w.pools = pools →
    wp m (fun _ w' => B w'.uploads w'.pools) (fun _ w' => B w'.uploads w'.pools) w

section Leaves

variable {α β : Type} {m : ServiceM α} {f : α → ServiceM β} {uploads : OrdMap String Upload}
  {pools : List ResourcePool} {B : OrdMap String Upload → List ResourcePool → Prop} {id : String}

theorem Frames.then_leaves (h : Frames m) (hsame : B uploads pools)
    (hf : ∀ a, Leaves uploads pools B (f a)) : Leaves uploads pools B (m >>= f) := by
  rintro w rfl rfl
  refine wp_seq (h.wp w) ?_ fun a w' hkept => hf a w' hkept.1 hkept.2
  rintro e w' ⟨huploads, hpools⟩
  rwa [huploads, hpools]

theorem Frames.leaves (h : Frames m) (hsame : B uploads pools) : Leaves uploads pools B m := by
  rintro w rfl rfl
  apply wp_mono (h.wp w)
  · rintro _ w' ⟨huploads, hpools⟩
    rwa [huploads, hpools]
  · rintro _ w' ⟨huploads, hpools⟩
    rwa [huploads, hpools]

theorem leaves_findUpload {f : Upload → ServiceM β} (hsame : B uploads pools)
    (hf : ∀ u, uploads.get? id = some u → Leaves uploads pools B (f u)) :
    Leaves uploads pools B (Service.findUpload id >>= f) := by
  rintro w rfl rfl
  refine wp_seq Service.wp_findUpload ?_ ?_
  · rintro e _ ⟨-, rfl⟩
    exact hsame
  · rintro u _ ⟨hu, rfl⟩
    exact hf u hu _ rfl rfl

/-- The end of an upload: its entry changes its state and gives up its reservation. -/
theorem leaves_end {u u' : Upload} (hu : uploads.get? id = some u)
    (hactive : u.state = .active) (hstate : u'.state ≠ .active) (hresources : u'.resources = none) :
    Leaves uploads pools (Books uploads pools) (do
      Service.releaseUpload u; Service.insertUpload id u'; pure u'.status :
        ServiceM UploadStatus) := by
  rintro w rfl rfl
  rw [wp_bind, Service.releaseUpload, wp_modify, wp_bind, Service.insertUpload, wp_modify, wp_pure]
  have hbooks : Books w.uploads w.pools (w.uploads.insert id u') (releasePools u w.pools) :=
    .ended hu hactive hstate hresources
  rw [releasePools] at hbooks
  cases hclaim : u.resources with
  | none | some claim =>
    rw [hclaim] at hbooks
    exact hbooks

end Leaves

namespace Service

variable {s : Service} {w : World}

theorem books_startUpload {request : BeginUploadRequest} {target temporary : Location FileName}
    {hbeside : uploadTemporaryPath target request.transferId = .ok temporary} :
    wp (s.startUpload target temporary request hbeside)
      (fun _ w' => ∃ u, w'.uploads = w.uploads.insert request.transferId u ∧ u.state = .active ∧
        u.resources = some (.upload u.size) ∧
        reserve (.upload u.size) w.pools = .ok w'.pools)
      (fun _ w' => w'.uploads = w.uploads ∧ (w'.pools = w.pools ∨
        ∃ reserved, reserve (.upload request.size) w.pools = .ok reserved ∧
          w'.pools = release (.upload request.size) reserved)) w := by
  rw [startUpload]
  apply wp_reserving
  · exact fun e => ⟨rfl, .inl rfl⟩
  · intro pools hreserve
    refine wp_seq ((Frames.openUploadFile temporary).wp _) ?_ ?_
    · rintro e w₁ ⟨huploads, hpools⟩
      exact ⟨huploads, .inr ⟨pools, hreserve, by rw [hpools]⟩⟩
    rintro file w₁ ⟨huploads, hpools⟩
    refine wp_seq ((Frames.of_sys _ _).wp w₁) ?_ ?_
    · rintro e w₂ ⟨huploads', hpools'⟩
      exact ⟨huploads'.trans huploads, .inr ⟨pools, hreserve, by rw [hpools', hpools]⟩⟩
    rintro metadata w₂ ⟨huploads', hpools'⟩
    split
    next hfits =>
      refine ⟨_, congrArg (OrdMap.insert · _ _) (huploads'.trans huploads), rfl, rfl, ?_⟩
      exact hreserve.trans (congrArg _ (hpools'.trans hpools).symm)
    next =>
      exact ⟨huploads'.trans huploads, .inr ⟨pools, hreserve, by rw [hpools', hpools]⟩⟩

theorem books_newUpload {request : BeginUploadRequest} {target temporary : Location FileName}
    {hbeside : uploadTemporaryPath target request.transferId = .ok temporary}
    (hnone : w.uploads.get? request.transferId = none) :
    wp (s.newUpload target temporary request hbeside)
      (fun _ w' => Books w.uploads w.pools w'.uploads w'.pools)
      (fun _ w' => Books w.uploads w.pools w'.uploads w'.pools) w := by
  have hforgot : ∀ w' : World, w'.uploads = activeUploads w.uploads → w'.pools = w.pools →
      Books w.uploads w.pools w'.uploads w'.pools := by
    intro w' huploads hpools
    rw [huploads, hpools]
    exact .forgot
  have hstart : ∀ w₁ : World, w₁.uploads = activeUploads w.uploads → w₁.pools = w.pools →
      wp (s.startUpload target temporary request hbeside)
        (fun _ w' => Books w.uploads w.pools w'.uploads w'.pools)
        (fun _ w' => Books w.uploads w.pools w'.uploads w'.pools) w₁ := by
    intro w₁ huploads hpools
    apply wp_mono books_startUpload
    · rintro status w₂ ⟨u, hinsert, hactive, hresources, hreserve⟩
      rw [hinsert, huploads]
      rw [hpools] at hreserve
      exact .begun hnone hactive hresources hreserve
    · rintro e w₂ ⟨hsame, hgiven⟩
      rw [hpools] at hgiven
      rw [hsame, huploads]
      rcases hgiven with hgiven | ⟨reserved, hreserve, hgiven⟩
      · rw [hgiven]
        exact .forgot
      · rw [hgiven]
        exact .givenBack hreserve
  rw [newUpload, wp_bind, retainActive, wp_modify]
  refine wp_seq ((Frames.pathExists target).wp _) (fun e w₁ h => hforgot w₁ h.1 h.2) ?_
  rintro found w₁ ⟨huploads, hpools⟩
  split
  next =>
    refine wp_seq ((Frames.alreadyUploaded target request).wp w₁) ?_ ?_
    · exact fun e w₂ h => hforgot w₂ (h.1.trans huploads) (h.2.trans hpools)
    rintro there w₂ ⟨huploads', hpools'⟩
    split
    next =>
      change Books w.uploads w.pools (w₂.uploads.insert _ _) w₂.pools
      rw [huploads', huploads, hpools', hpools]
      exact .inPlace hnone rfl rfl
    next =>
      rw [wp_bind]
      apply wp_demand
      · exact fun _ => hstart w₂ (huploads'.trans huploads) (hpools'.trans hpools)
      · exact fun _ => hforgot w₂ (huploads'.trans huploads) (hpools'.trans hpools)
  next => exact hstart w₁ huploads hpools

variable {uploads : OrdMap String Upload} {pools : List ResourcePool}

/-- A begin leaves the books alone, up to the upload that it may register. -/
theorem leaves_beginUpload {B : OrdMap String Upload → List ResourcePool → Prop}
    {request : BeginUploadRequest} (hsame : B uploads pools)
    (hnew : uploads.get? request.transferId = none → ∀ target temporary hbeside,
      Leaves uploads pools B (s.newUpload target temporary request hbeside)) :
    Leaves uploads pools B (s.beginUpload request) := by
  rw [beginUpload]
  refine (Frames.of_check _).then_leaves hsame fun _ =>
    (Frames.of_check _).then_leaves hsame fun _ =>
    (Frames.resolveNew _).then_leaves hsame fun target => ?_
  split
  next => exact (Frames.of_fail _).leaves hsame
  next temporary hbeside =>
    rintro w rfl rfl
    rw [wp_bind, wp_gets]
    split
    next u hu =>
      exact (Frames.bind (Frames.of_demand _ _ _) fun _ => Frames.of_pure _).leaves hsame w rfl rfl
    next hnone => exact hnew hnone _ _ hbeside w rfl rfl

theorem leaves_writeActive {u : Upload} {request : WriteFileChunkRequest} {stop : ℕ}
    {hstop : stop ≤ u.size} (hu : uploads.get? request.transferId = some u) :
    Leaves uploads pools (Books uploads pools) (s.writeActive u request stop hstop) := by
  rw [writeActive]
  refine (Frames.openUploadFile _).then_leaves .same fun file => ?_
  split
  next =>
    -- A chunk that is compared with the file does not write.
    refine (Frames.of_demand _ _ _).then_leaves .same fun _ =>
      (Frames.bind (Frames.of_sys _ _) fun _ => Frames.of_sys _ _).then_leaves .same fun existing =>
      ?_
    exact (Frames.of_demand _ _ _).then_leaves .same fun _ => (Frames.of_pure _).leaves .same
  next =>
    refine (Frames.of_demand _ _ _).then_leaves .same fun _ =>
      (Frames.bind (Frames.of_sys _ _) fun _ => Frames.of_sys _ _).then_leaves .same fun _ => ?_
    rintro w rfl rfl
    exact .wrote hu rfl rfl rfl

theorem leaves_writeChunk (request : WriteFileChunkRequest) :
    Leaves uploads pools (Books uploads pools) (s.writeChunk request) := by
  rw [writeChunk]
  refine (Frames.of_check _).then_leaves .same fun _ => leaves_findUpload .same fun u hu => ?_
  split
  next => exact (Frames.of_pure _).leaves .same
  next => exact (Frames.of_fail _).leaves .same
  next =>
    refine (Frames.of_check _).then_leaves .same fun stop => ?_
    split
    next => exact leaves_writeActive hu
    next => exact (Frames.of_fail _).leaves .same

theorem leaves_commitUpload (id : String) :
    Leaves uploads pools (Books uploads pools) (s.commitUpload id) := by
  rw [commitUpload]
  refine (Frames.of_check _).then_leaves .same fun _ => leaves_findUpload .same fun u hu => ?_
  split
  next => exact (Frames.of_pure _).leaves .same
  next => exact (Frames.of_fail _).leaves .same
  next hactive =>
    rw [commitActive]
    refine (Frames.stageUpload u).then_leaves .same fun _ =>
      (Frames.publishUpload u).then_leaves .same fun _ =>
      (Frames.syncParent u).then_leaves .same fun _ => ?_
    exact leaves_end hu hactive (by simp) rfl

theorem leaves_abortUpload (id : String) :
    Leaves uploads pools (Books uploads pools) (s.abortUpload id) := by
  rw [abortUpload]
  refine (Frames.of_check _).then_leaves .same fun _ => leaves_findUpload .same fun u hu => ?_
  split
  next hactive =>
    exact (Frames.removeTemporary u).then_leaves .same fun _ => leaves_end hu hactive (by simp) rfl
  next => exact (Frames.of_pure _).leaves .same

theorem frames_queryUpload (id : String) : Frames (s.queryUpload id) := by
  rw [queryUpload]
  apply Frames.bind (Frames.of_check _)
  intro _
  exact Frames.bind (Frames.findUpload id) fun u => Frames.of_pure _

end Service

/-! ## The balance -/

/-- What an upload is charged for: its declared size, as long as it is active. -/
def charge (r : Resource) (u : Upload) : ℕ :=
  if u.state = .active then ResourceClaim.upload u.size r else 0

/-- The entries own the reservations of active uploads, and these are what the pools count. -/
structure Balanced (uploads : OrdMap String Upload) (pools : List ResourcePool) : Prop where
  held : ∀ id u, uploads.get? id = some u →
    u.resources = if u.state = .active then some (.upload u.size) else none
  usage : ∀ pool ∈ pools, ∀ r, r = .uploads ∨ r = .uploadBytes →
    pool.usage r = uploads.total (charge r)

namespace Balanced

variable {uploads uploads' : OrdMap String Upload} {pools pools' : List ResourcePool}

section

variable (h : Balanced uploads pools)

include h

theorem forget : Balanced (activeUploads uploads) pools := by
  refine ⟨fun id u hu => h.held id u (get?_activeUploads.1 hu).1, fun pool hpool r hr => ?_⟩
  rw [h.usage pool hpool r hr, activeUploads, OrdMap.total_retain]
  intro id u hu hdropped
  rw [hu] at hdropped
  rw [charge, if_neg (by simpa using hdropped)]

/-- A new entry, with what the pools are charged for it. -/
theorem insert_new {id : String} {u : Upload} (hnone : uploads.get? id = none)
    (hheld : u.resources = if u.state = .active then some (.upload u.size) else none)
    (husage : ∀ pool' ∈ pools', ∃ pool ∈ pools, ∀ r, pool'.usage r = charge r u + pool.usage r) :
    Balanced (uploads.insert id u) pools' := by
  refine ⟨fun id' u' hu' => ?_, fun pool' hpool' r hr => ?_⟩
  · obtain ⟨-, rfl⟩ | hold := OrdMap.get?_insert_cases hu'
    · exact hheld
    · exact h.held id' u' hold
  · obtain ⟨pool, hpool, hcharged⟩ := husage pool' hpool'
    rw [hcharged, h.usage pool hpool r hr, OrdMap.total_insert_of_none _ hnone]

/-- An entry is replaced. -/
theorem replace {id : String} {u u' : Upload} (hu : uploads.get? id = some u)
    (hheld : u'.resources = if u'.state = .active then some (.upload u'.size) else none)
    (husage : ∀ pool' ∈ pools', ∃ pool ∈ pools, ∀ r, r = .uploads ∨ r = .uploadBytes →
      pool'.usage r + charge r u = charge r u' + pool.usage r) :
    Balanced (uploads.insert id u') pools' := by
  refine ⟨fun id' u'' hu'' => ?_, fun pool' hpool' r hr => ?_⟩
  · obtain ⟨-, rfl⟩ | hold := OrdMap.get?_insert_cases hu''
    · exact hheld
    · exact h.held id' u'' hold
  · obtain ⟨pool, hpool, hcharged⟩ := husage pool' hpool'
    have htotal := OrdMap.total_insert_of_some (charge r) hu u'
    have hsame := hcharged r hr
    rw [h.usage pool hpool r hr] at hsame
    omega

/-- What an active upload was charged is given back. -/
theorem releasePools {id : String} {u : Upload}
    (hu : uploads.get? id = some u) (hactive : u.state = .active) :
    ∀ pool' ∈ releasePools u pools, ∃ pool ∈ pools, ∀ r, r = .uploads ∨ r = .uploadBytes →
      pool'.usage r + charge r u = pool.usage r := by
  have hresources : u.resources = some (.upload u.size) := by
    rw [h.held id u hu, if_pos hactive]
  -- The usage of a pool has the charge of the upload in it.
  have hfits : ∀ pool ∈ pools, ∀ r, ResourceClaim.upload u.size r ≤ pool.usage r := by
    intro pool hpool r
    have hle : ∀ r, r = .uploads ∨ r = .uploadBytes →
        ResourceClaim.upload u.size r ≤ pool.usage r := by
      intro r hr
      have htotal := OrdMap.le_total (charge r) hu
      rw [charge, if_pos hactive] at htotal
      rw [h.usage pool hpool r hr]
      exact htotal
    cases r with
    | uploads => exact hle _ (.inl rfl)
    | uploadBytes => exact hle _ (.inr rfl)
    | _ => exact Nat.zero_le _
  intro pool' hpool'
  rw [Files.releasePools, hresources] at hpool'
  dsimp only at hpool'
  rw [release_of_le hfits] at hpool'
  obtain ⟨pool, hpool, rfl⟩ := List.mem_map.1 hpool'
  refine ⟨pool, hpool, fun r _ => ?_⟩
  rw [charge, if_pos hactive]
  exact Nat.sub_add_cancel (hfits pool hpool r)

theorem books (hbooks : Books uploads pools uploads' pools') : Balanced uploads' pools' := by
  have hunknown : ∀ {id : String}, uploads.get? id = none →
      (activeUploads uploads).get? id = none := by
    intro id hnone
    rw [activeUploads, OrdMap.get?_retain, hnone, ite_self]
  cases hbooks with
  | same => exact h
  | forgot => exact h.forget
  | givenBack hreserve =>
    rw [release_reserve hreserve]
    exact h.forget
  | inPlace hnone hstate hresources =>
    apply h.forget.insert_new (hunknown hnone)
    · rw [hresources, if_neg (by rw [hstate]; decide)]
    · intro pool hpool
      refine ⟨pool, hpool, fun r => ?_⟩
      rw [charge, if_neg (by rw [hstate]; decide), Nat.zero_add]
  | begun hnone hstate hresources hreserve =>
    apply h.forget.insert_new (hunknown hnone)
    · rw [hresources, if_pos hstate]
    · intro pool' hpool'
      rw [reserve_ok hreserve] at hpool'
      obtain ⟨pool, hpool, rfl⟩ := List.mem_map.1 hpool'
      refine ⟨pool, hpool, fun r => ?_⟩
      rw [charge, if_pos hstate, Nat.add_comm]
  | wrote hu hstate hsize hresources =>
    apply h.replace hu
    · rw [hresources, h.held _ _ hu, hstate, hsize]
    · intro pool hpool
      refine ⟨pool, hpool, fun r _ => ?_⟩
      rw [charge, charge, hstate, hsize, Nat.add_comm]
  | ended hu hactive hstate hresources =>
    apply h.replace hu
    · rw [hresources, if_neg hstate]
    · intro pool' hpool'
      obtain ⟨pool, hpool, hgiven⟩ := h.releasePools hu hactive pool' hpool'
      refine ⟨pool, hpool, fun r hr => ?_⟩
      rw [hgiven r hr, charge, if_neg hstate, Nat.zero_add]

end

end Balanced

/-! ## Runs -/

/-- The requests that have to do with uploads. -/
def Request.ofUpload : Request → Bool
  | .beginUpload _ | .queryUpload _ | .writeChunk _ | .commitUpload _ | .abortUpload _ => true
  | _ => false

namespace Service

variable {s : Service} {w : World}

theorem leaves_serve {uploads : OrdMap String Upload} {pools : List ResourcePool}
    {request : Request} (hupload : request.ofUpload = true) :
    Leaves uploads pools (Books uploads pools) (s.serve request) := by
  rintro w rfl rfl
  cases request with
  | beginUpload request =>
    refine wp_bind.2 (leaves_beginUpload .same (fun hnone target temporary hbeside => ?_) w rfl rfl)
    rintro w' huploads hpools
    rw [← huploads, ← hpools]
    exact books_newUpload (by rwa [huploads])
  | queryUpload id => exact wp_bind.2 ((frames_queryUpload id).leaves .same w rfl rfl)
  | writeChunk request => exact wp_bind.2 (leaves_writeChunk request w rfl rfl)
  | commitUpload id => exact wp_bind.2 (leaves_commitUpload id w rfl rfl)
  | abortUpload id => exact wp_bind.2 (leaves_abortUpload id w rfl rfl)
  | _ => cases hupload

/-- A request of an upload, or anything else that happens on the disk. -/
inductive UploadStep (s : Service) : World → World → Prop
  | request (w : World) {request : Request} (hupload : request.ofUpload = true)
      (faults : List Fault) : UploadStep s w (s.serveWith request faults w).2
  | disk (w : World) (os : Os FileName) : UploadStep s w { w with os := os }

/-- No upload is registered or charged. -/
structure Unused (w : World) : Prop where
  uploads : w.uploads = OrdMap.empty
  pools : ∀ pool ∈ w.pools, pool.usage .uploads = 0 ∧ pool.usage .uploadBytes = 0

theorem balanced_of_step {w' : World} (h : Balanced w.uploads w.pools)
    (hstep : UploadStep s w w') : Balanced w'.uploads w'.pools := by
  cases hstep with
  | request hupload faults =>
    have hbooks := @leaves_serve s _ _ _ hupload (w.facing faults) rfl rfl
    exact h.books (wp_iff_state.1 hbooks)
  | disk os => exact h

theorem balanced_of_run {w₀ w : World} (hunused : Unused w₀)
    (hrun : Relation.ReflTransGen (UploadStep s) w₀ w) : Balanced w.uploads w.pools := by
  induction hrun with
  | refl =>
    rw [hunused.uploads]
    refine ⟨nofun, fun pool hpool r hr => ?_⟩
    obtain ⟨huploads, hbytes⟩ := hunused.pools pool hpool
    rcases hr with rfl | rfl
    · exact huploads
    · exact hbytes
  | tail _ hstep ih => exact balanced_of_step ih hstep

/-- The pools count the uploads that are recorded as active, with their declared sizes; beginning an
upload that is known charges nothing, and uploads that are not active hold nothing. -/
theorem upload_quota_balanced (s : Service) {w₀ w : World} (hunused : Unused w₀)
    (hrun : Relation.ReflTransGen (UploadStep s) w₀ w) :
    (∀ pool ∈ w.pools,
      pool.usage .uploads = w.uploads.total (fun u => if u.state = .active then 1 else 0) ∧
      pool.usage .uploadBytes =
        w.uploads.total (fun u => if u.state = .active then u.size else 0)) ∧
    (∀ request faults, (w.uploads.get? request.transferId).isSome →
      (s.serveWith (.beginUpload request) faults w).2.pools = w.pools) ∧
    ∀ id u, w.uploads.get? id = some u → u.state ≠ .active → u.resources = none := by
  have h := balanced_of_run hunused hrun
  refine ⟨fun pool hpool => ⟨?_, ?_⟩, ?_, ?_⟩
  · exact (h.usage pool hpool _ (.inl rfl)).trans rfl
  · exact (h.usage pool hpool _ (.inr rfl)).trans rfl
  · intro request faults hknown
    have hbegin : Leaves w.uploads w.pools (fun _ pools => pools = w.pools)
        (s.beginUpload request) :=
      leaves_beginUpload rfl fun hnone => by simp [hnone] at hknown
    have hserve : wp (s.serve (.beginUpload request)) (fun _ w' => w'.pools = w.pools)
        (fun _ w' => w'.pools = w.pools) (w.facing faults) :=
      wp_bind.2 (hbegin _ rfl rfl)
    exact wp_iff_state.1 hserve
  · intro id u hu hended
    rw [h.held id u hu, if_neg hended]

end Service

/-- An account with the limits of a user. -/
def chargedWorld : World :=
  { World.ofTree emptyTree with pools := [⟨"user", .userDefaults, fun _ => 0⟩] }

/-- Five bytes for the file `x`. -/
def smallUpload : BeginUploadRequest :=
  ⟨"018f2b4e-7c1d-7a3b-9e5f-0123456789ab", [120], 5, [], false, 0o644⟩

theorem upload_quota_balanced_begun :
    let s : Service := ⟨[], .telling []⟩
    let w := (s.serveWith (.beginUpload smallUpload) [] chargedWorld).2
    w.pools.map (fun pool => (pool.usage .uploads, pool.usage .uploadBytes)) = [(1, 5)] ∧
      ∀ pool ∈ w.pools,
        pool.usage .uploads = w.uploads.total (fun u => if u.state = .active then 1 else 0) := by
  intro s w
  refine ⟨by decide +kernel, fun pool hpool => ?_⟩
  have hunused : Service.Unused chargedWorld := by
    refine ⟨rfl, ?_⟩
    decide +kernel
  have hrun : Relation.ReflTransGen (Service.UploadStep s) chargedWorld w :=
    .single (.request chargedWorld rfl [])
  exact ((Service.upload_quota_balanced s hunused hrun).1 pool hpool).1

end AstraShell.Files
