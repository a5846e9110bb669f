import AstraShell.Lib.Wire
import AstraShell.Session.Workspaces

/-!
# The catalog on disk

`SessionManager` keeps the catalog of workspaces in memory and in a file. `update_catalog` changes a
copy, checks it, has `persist_catalog` write it, and only then puts it in the place of the old one.
`persist_catalog` writes a temporary file and renames it over the catalog, which is atomic, and then
syncs the directory. When the rename was made and the directory cannot be opened or synced, it
returns an error although the file has changed.

A file is represented by what the program can see of it: its size, and what the protobuf library
makes of it. Left-over temporary files are not represented, since nothing reads them.

`catalog_updates_atomic`: memory and file change together or not at all, as long as no call fails
after the rename. `unsynced_directory_splits_catalog`: otherwise a restart loads a change that was
refused.
-/

set_option autoImplicit false

namespace AstraShell.Session

open Lib Lib.Text

def maxSessionCatalogBytes : Nat := 1024 * 1024

/-! ## The file -/

def WorkspaceInfo.encodedLen (workspace : WorkspaceInfo) : Nat :=
  Wire.bytesField 1 workspace.id.utf8ByteSize +
    Wire.bytesField 2 (workspace.name.map Char.utf8Size).sum +
    Wire.uintField 3 workspace.revision + Wire.uintField 4 workspace.createdAtUnixMs +
    Wire.boolField 5 workspace.isDefault

def SessionCatalog.encodedLen (catalog : SessionCatalog) : Nat :=
  Wire.uintField 1 catalog.schemaVersion +
    Wire.bytesField 2 catalog.defaultWorkspaceId.utf8ByteSize +
    Wire.repeatedField 3 WorkspaceInfo.encodedLen catalog.workspaces

/-- The bytes of a file: how many they are, and the catalog they decode to. -/
structure Content where
  length : Nat
  decoded : Option SessionCatalog
  deriving DecidableEq

def SessionCatalog.encode (catalog : SessionCatalog) : Content :=
  ⟨catalog.encodedLen, some catalog⟩

/-- The filesystem calls whose failure is noticed, in the order they are made. -/
inductive FileCall where
  | read
  | createDirAll
  | openTemporary
  | writeAll
  | syncTemporary
  | rename
  | openParent
  | syncParent
  deriving DecidableEq

/-- What each of the calls of one operation returns. -/
abbrev Calls : Type := FileCall → Except String Unit

/-- No call fails. -/
def Calls.succeed : Calls := fun _ => .ok ()

section

variable (p : Platform) (path : String)

/-- `persist_catalog`: its result, and the file it leaves. -/
def persistCatalog (calls : Calls) (disk : Option Content) (catalog : SessionCatalog) :
    Except String Unit × Option Content :=
  let context := Except.mapError fun _ => "failed to persist session catalog " ++ path
  match (do
      validateCatalog p catalog
      ensure (catalog.encode.length ≤ maxSessionCatalogBytes) "session catalog exceeds size limit"
      calls .createDirAll
      context (do
        calls .openTemporary
        calls .writeAll
        calls .syncTemporary
        calls .rename) : Except String Unit) with
  | .error e => (.error e, disk)
  -- The rename has put the new file in place.
  | .ok _ => (context (do calls .openParent; calls .syncParent), some catalog.encode)

/-- The catalog of a server that was never started before. -/
def defaultCatalog (id : String) (now : Nat) : SessionCatalog where
  schemaVersion := sessionCatalogSchemaVersion
  defaultWorkspaceId := id
  workspaces := [⟨id, "Default".toList, 1, now, true⟩]

/-- `load_or_create_catalog`; `id` and `now` are the UUID and the time for a new catalog. -/
def loadOrCreateCatalog (calls : Calls) (id : String) (now : Except String Nat)
    (disk : Option Content) : Except String SessionCatalog × Option Content :=
  match calls .read, disk with
  | .error _, _ => (.error ("failed to read session catalog " ++ path), disk)
  | .ok _, some content =>
    (do
      ensure (content.length ≤ maxSessionCatalogBytes) "session catalog exceeds size limit"
      let catalog ← context content.decoded "session catalog is not valid protobuf"
      validateCatalog p catalog
      return catalog, disk)
  | .ok _, none =>
    match now with
    | .error e => (.error e, disk)
    | .ok now =>
      let (result, disk) := persistCatalog p path calls disk (defaultCatalog id now)
      (result.map fun _ => defaultCatalog id now, disk)

end

/-! ## The operations -/

/-- The catalog in memory and the file. -/
structure SessionManager where
  catalog : SessionCatalog
  disk : Option Content

/-- A request that changes the catalog. A creation draws a UUID and reads the clock; a deletion has
looked whether the workspace has terminals. -/
inductive Operation where
  | createWorkspace (id : String) (name : Text) (now : Except String Nat)
  | renameWorkspace (workspaceId : String) (name : Text)
  | deleteWorkspace (workspaceId : String) (terminals : List TerminalInfo)

section

variable (p : Platform) (path : String)

/-- The checks of an operation before it asks for the lock, and the change it then makes. -/
def Operation.prepare : Operation → Except String (SessionCatalog → Except String SessionCatalog)
  | .createWorkspace id name now => do
    let name ← validateWorkspaceName name
    let now ← now
    return addWorkspace ⟨id, name, 1, now, false⟩
  | .renameWorkspace workspaceId name => do
    validateUuid p workspaceId "workspace ID"
    let name ← validateWorkspaceName name
    return changeName workspaceId name
  | .deleteWorkspace workspaceId terminals => do
    validateUuid p workspaceId "workspace ID"
    ensure (terminals = []) "workspace is not empty"
    return removeWorkspace workspaceId

namespace SessionManager

/-- `update_catalog`, under the lock of the catalog. -/
def updateCatalog (s : SessionManager) (calls : Calls)
    (update : SessionCatalog → Except String SessionCatalog) :
    Except String Unit × SessionManager :=
  match (do let candidate ← update s.catalog; validateCatalog p candidate; return candidate) with
  | .error e => (.error e, s)
  | .ok candidate =>
    match persistCatalog p path calls s.disk candidate with
    | (.error e, disk) => (.error e, { s with disk := disk })
    | (.ok _, disk) => (.ok (), ⟨candidate, disk⟩)

def perform (s : SessionManager) (operation : Operation) (calls : Calls) :
    Except String Unit × SessionManager :=
  match operation.prepare p with
  | .error e => (.error e, s)
  | .ok update => s.updateCatalog p path calls update

end SessionManager

end

section

variable {p : Platform} {path : String} {catalog catalog' : SessionCatalog} {calls : Calls}
  {disk : Option Content}

/-! ## Valid catalogs -/

/-- One default workspace, and no id or name twice. -/
structure SessionCatalog.WellFormed (catalog : SessionCatalog) : Prop where
  oneDefault : catalog.workspaces.countP (fun workspace => workspace.isDefault) = 1
  ids : (catalog.workspaces.map WorkspaceInfo.id).Nodup
  names : (catalog.workspaces.map WorkspaceInfo.name).Nodup

/-- A new key before keys that are apart from it. -/
theorem fresh_cons {α : Type} {f : WorkspaceInfo → α} {workspace : WorkspaceInfo}
    {workspaces : List WorkspaceInfo} {seen : List α} (hnew : f workspace ∉ seen)
    (h : (workspaces.map f).Nodup ∧ ∀ other ∈ workspaces, f other ∉ f workspace :: seen) :
    ((workspace :: workspaces).map f).Nodup ∧
      ∀ other ∈ workspace :: workspaces, f other ∉ seen := by
  obtain ⟨hnodup, hrest⟩ := h
  constructor
  · rw [List.map_cons, List.nodup_cons]
    refine ⟨fun hmem => ?_, hnodup⟩
    obtain ⟨other, hother, heq⟩ := List.mem_map.1 hmem
    exact hrest other hother (heq ▸ List.mem_cons_self)
  · rintro other (_ | ⟨_, hother⟩)
    · exact hnew
    · exact fun hmem => hrest other hother (List.mem_cons_of_mem _ hmem)

/-- What the loop of `validate_catalog` has seen is not seen again. -/
theorem validateWorkspaces_eq_ok {defaultId : String} {ids : List String} {names : List Text}
    {n m : Nat} {workspaces : List WorkspaceInfo}
    (h : validateWorkspaces p defaultId ids names n workspaces = .ok m) :
    m = n + workspaces.countP (fun workspace => workspace.isDefault) ∧
      ((workspaces.map WorkspaceInfo.id).Nodup ∧ ∀ workspace ∈ workspaces, workspace.id ∉ ids) ∧
      (workspaces.map WorkspaceInfo.name).Nodup ∧
        ∀ workspace ∈ workspaces, workspace.name ∉ names := by
  induction workspaces generalizing ids names n with
  | nil =>
    cases h
    simp
  | cons workspace workspaces ih =>
    simp only [validateWorkspaces, bind_eq_ok_iff, ensure_eq_ok_iff] at h
    obtain ⟨-, -, -, hid, name, -, -, rfl, -, hname, -, -, h⟩ := h
    -- The rest is checked against the workspace as well, whether it is the default one or not.
    obtain ⟨k, hk, hrest⟩ : ∃ k, k = n + (if workspace.isDefault then 1 else 0) ∧
        validateWorkspaces p defaultId (workspace.id :: ids) (workspace.name :: names) k
          workspaces = .ok m := by
      split at h
      next hdefault =>
        simp only [bind_eq_ok_iff, ensure_eq_ok_iff] at h
        obtain ⟨-, -, h⟩ := h
        exact ⟨n + 1, by rw [if_pos hdefault], h⟩
      next hdefault => exact ⟨n, by rw [if_neg hdefault, Nat.add_zero], h⟩
    obtain ⟨hcount, hids, hnames⟩ := ih hrest
    refine ⟨?_, fresh_cons hid hids, fresh_cons hname hnames⟩
    rw [hcount, hk, List.countP_cons]
    omega

theorem wellFormed_of_valid (h : validateCatalog p catalog = .ok ()) : catalog.WellFormed := by
  simp only [validateCatalog, bind_eq_ok_iff, ensure_eq_ok_iff] at h
  obtain ⟨-, -, -, -, -, -, count, hcount, hone⟩ := h
  obtain ⟨hcount, ⟨hids, -⟩, hnames, -⟩ := validateWorkspaces_eq_ok hcount
  exact ⟨by omega, hids, hnames⟩

/-! ## Loading -/

/-- A restart loads this catalog from the file and leaves the file as it is. -/
def Loads (p : Platform) (path : String) (disk : Option Content)
    (catalog : SessionCatalog) : Prop :=
  ∀ id now, loadOrCreateCatalog p path .succeed id now disk = (.ok catalog, disk)

/-- The file passes the checks of a load, and decodes to the catalog. -/
structure Stores (p : Platform) (content : Content) (catalog : SessionCatalog) : Prop where
  size : content.length ≤ maxSessionCatalogBytes
  decoded : content.decoded = some catalog
  valid : validateCatalog p catalog = .ok ()

theorem Stores.loads {content : Content} (h : Stores p content catalog) :
    Loads p path (some content) catalog := by
  intro id now
  simp only [loadOrCreateCatalog, Calls.succeed]
  rw [ensure_bind_of _ _ h.size, h.decoded]
  simp only [context, bind, Except.bind, h.valid]
  rfl

/-- Before the rename nothing is changed; after it the file is the new one, and only the sync of the
directory decides what is returned. -/
theorem persistCatalog_cases (p : Platform) (path : String) (calls : Calls)
    (disk : Option Content) (catalog : SessionCatalog) :
    (∃ e, persistCatalog p path calls disk catalog = (.error e, disk)) ∨
      Stores p catalog.encode catalog ∧
      (∀ call ∈ [.createDirAll, .openTemporary, .writeAll, .syncTemporary, .rename],
        calls call = .ok ()) ∧
      (persistCatalog p path calls disk catalog).2 = some catalog.encode ∧
      ((persistCatalog p path calls disk catalog).1 = .ok () ↔
        calls .openParent = .ok () ∧ calls .syncParent = .ok ()) := by
  unfold persistCatalog
  dsimp only
  split
  next e _ => exact .inl ⟨e, rfl⟩
  next hok =>
    refine .inr ?_
    obtain ⟨⟨⟩, hvalid, hrest⟩ := bind_eq_ok_iff.1 hok
    obtain ⟨⟨⟩, hsize, hrest⟩ := bind_eq_ok_iff.1 hrest
    obtain ⟨⟨⟩, hcreate, hrest⟩ := bind_eq_ok_iff.1 hrest
    rw [mapError_eq_ok_iff] at hrest
    simp only [bind_eq_ok_iff] at hrest
    obtain ⟨⟨⟩, hopen, ⟨⟩, hwrite, ⟨⟩, hsync, hrename⟩ := hrest
    refine ⟨⟨ensure_eq_ok_iff.1 hsize, rfl, hvalid⟩, ?_, rfl, ?_⟩
    · simp [hcreate, hopen, hwrite, hsync, hrename]
    · rw [mapError_eq_ok_iff, bind_eq_ok_iff]
      exact Unique.exists_iff

/-! ## Changes -/

theorem addWorkspace_ne {workspace : WorkspaceInfo}
    (h : addWorkspace workspace catalog = .ok catalog') : catalog' ≠ catalog := by
  simp only [addWorkspace, bind_eq_ok_iff, pure_eq_ok_iff] at h
  obtain ⟨-, -, rfl⟩ := h
  intro heq
  have hlength := congrArg (fun c => c.workspaces.length) heq
  simp at hlength

/-- The revision of the workspace that is renamed changes. -/
theorem renameFirst_ne {workspaceId : String} {name : Text}
    {workspaces workspaces' : List WorkspaceInfo}
    (h : renameFirst workspaceId name workspaces = .ok workspaces') : workspaces' ≠ workspaces := by
  induction workspaces generalizing workspaces' with
  | nil => cases h
  | cons workspace workspaces ih =>
    rw [renameFirst] at h
    split at h
    · simp only [bind_eq_ok_iff, pure_eq_ok_iff, context_eq_ok_iff, checkedAdd_eq_some_iff] at h
      obtain ⟨revision, ⟨-, hrevision⟩, rfl⟩ := h
      intro heq
      have hsame := congrArg WorkspaceInfo.revision (List.cons.inj heq).1
      dsimp only at hsame
      omega
    · simp only [bind_eq_ok_iff, pure_eq_ok_iff] at h
      obtain ⟨rest, hrest, rfl⟩ := h
      exact fun heq => ih hrest (List.cons.inj heq).2

theorem removeWorkspace_ne {workspaceId : String}
    (h : removeWorkspace workspaceId catalog = .ok catalog') : catalog' ≠ catalog := by
  simp only [removeWorkspace, bind_eq_ok_iff, ensure_eq_ok_iff, pure_eq_ok_iff] at h
  obtain ⟨-, -, -, hlength, rfl⟩ := h
  intro heq
  have hsame := congrArg (fun c => c.workspaces.length) heq
  dsimp only at hsame
  omega

/-- An operation that is carried out changes the catalog. -/
theorem Operation.update_ne {operation : Operation}
    {update : SessionCatalog → Except String SessionCatalog}
    (hprepare : operation.prepare p = .ok update) (hupdate : update catalog = .ok catalog') :
    catalog' ≠ catalog := by
  cases operation with
  | createWorkspace id name now =>
    simp only [prepare, bind_eq_ok_iff, pure_eq_ok_iff] at hprepare
    obtain ⟨name, -, now, -, rfl⟩ := hprepare
    exact addWorkspace_ne hupdate
  | renameWorkspace workspaceId name =>
    simp only [prepare, bind_eq_ok_iff, pure_eq_ok_iff] at hprepare
    obtain ⟨-, -, name, -, rfl⟩ := hprepare
    simp only [changeName, bind_eq_ok_iff, pure_eq_ok_iff] at hupdate
    obtain ⟨-, -, workspaces, hrename, rfl⟩ := hupdate
    exact fun heq => renameFirst_ne hrename (congrArg SessionCatalog.workspaces heq)
  | deleteWorkspace workspaceId terminals =>
    simp only [prepare, bind_eq_ok_iff, pure_eq_ok_iff] at hprepare
    obtain ⟨-, -, -, -, rfl⟩ := hprepare
    exact removeWorkspace_ne hupdate

end

/-! ## Runs -/

/-- No call fails once the rename was made. -/
def Calls.Spared (calls : Calls) : Prop :=
  (∀ call ∈ [.createDirAll, .openTemporary, .writeAll, .syncTemporary, .rename],
    calls call = .ok ()) → calls .openParent = .ok () ∧ calls .syncParent = .ok ()

namespace SessionManager

variable {p : Platform} {path : String} {s s' : SessionManager} {calls : Calls}
  {operation : Operation} {result : Except String Unit}

/-- Everything an operation can do. -/
inductive Performs (p : Platform) (s : SessionManager) (calls : Calls) :
    Except String Unit → SessionManager → Prop
  | refused (e : String) : Performs p s calls (.error e) s
  /-- The file was replaced and the directory could not be synced. -/
  | unsynced (e : String) (catalog : SessionCatalog) (hstores : Stores p catalog.encode catalog)
      (hcalls : ¬ calls.Spared) :
      Performs p s calls (.error e) { s with disk := some catalog.encode }
  | done (catalog : SessionCatalog) (hstores : Stores p catalog.encode catalog)
      (hne : catalog ≠ s.catalog) : Performs p s calls (.ok ()) ⟨catalog, some catalog.encode⟩

theorem perform_cases (h : s.perform p path operation calls = (result, s')) :
    Performs p s calls result s' := by
  unfold perform at h
  split at h
  · cases h
    exact .refused _
  next update hprepare =>
    unfold updateCatalog at h
    split at h
    · cases h
      exact .refused _
    next candidate hok =>
      obtain ⟨candidate', hupdate, hrest⟩ := bind_eq_ok_iff.1 hok
      obtain ⟨⟨⟩, -, hpure⟩ := bind_eq_ok_iff.1 hrest
      cases hpure
      rcases persistCatalog_cases p path calls s.disk candidate with
        ⟨e, hfails⟩ | ⟨hstores, hcalls, hdisk, hsynced⟩
      · rw [hfails] at h
        cases h
        exact .refused _
      · cases hpersist : persistCatalog p path calls s.disk candidate with
        | mk outcome disk =>
          rw [hpersist] at h hdisk hsynced
          cases hdisk
          cases outcome with
          | error e =>
            cases h
            refine .unsynced e candidate hstores fun hspared => ?_
            cases hsynced.2 (hspared hcalls)
          | ok =>
            cases h
            exact .done candidate hstores (Operation.update_ne hprepare hupdate)

/-- For the catalog in memory this is the change that `Host.step` makes, with what `persist_catalog`
returns as the word of the disk. -/
theorem updateCatalog_change (s : SessionManager) (calls : Calls)
    (update : SessionCatalog → Except String SessionCatalog) (host : Host)
    (hcatalog : host.catalog = s.catalog) :
    (host.change (Session.updateCatalog p (fun c => (persistCatalog p path calls s.disk c).1) update
      s.catalog)).catalog = (s.updateCatalog p path calls update).2.catalog := by
  unfold updateCatalog Session.updateCatalog
  cases update s.catalog with
  | error e => exact hcatalog
  | ok candidate =>
      simp only [bind, Except.bind]
      cases validateCatalog p candidate with
      | error e => exact hcatalog
      | ok =>
          simp only [pure, Except.pure]
          cases persistCatalog p path calls s.disk candidate with
          | mk outcome disk =>
              cases outcome with
              | error e => exact hcatalog
              | ok => rfl

/-- The file is there, and a load gives the catalog in memory. -/
def InSync (p : Platform) (s : SessionManager) : Prop :=
  ∃ content, s.disk = some content ∧ Stores p content s.catalog

/-- The manager was started with this state. -/
def Starts (p : Platform) (path : String) (s : SessionManager) : Prop :=
  ∃ calls id now disk, loadOrCreateCatalog p path calls id now disk = (.ok s.catalog, s.disk)

theorem Starts.inSync (h : s.Starts p path) : s.InSync p := by
  obtain ⟨calls, id, now, disk, h⟩ := h
  unfold loadOrCreateCatalog at h
  split at h
  · cases h
  · -- The file was there: it has passed the checks.
    obtain ⟨hload, hdisk⟩ := Prod.mk.inj h
    obtain ⟨⟨⟩, hsize, hrest⟩ := bind_eq_ok_iff.1 hload
    obtain ⟨catalog, hdecoded, hrest⟩ := bind_eq_ok_iff.1 hrest
    obtain ⟨⟨⟩, hvalid, hpure⟩ := bind_eq_ok_iff.1 hrest
    cases hpure
    exact ⟨_, hdisk.symm, ensure_eq_ok_iff.1 hsize, context_eq_ok_iff.1 hdecoded,
      hvalid⟩
  · split at h
    · cases h
    next now =>
      rcases persistCatalog_cases p path calls none (defaultCatalog id now) with
        ⟨e, hfails⟩ | ⟨hstores, -, hdisk, -⟩
      · rw [hfails] at h
        cases h
      · cases hpersist : persistCatalog p path calls none (defaultCatalog id now) with
        | mk outcome disk =>
          rw [hpersist] at h hdisk
          cases hdisk
          cases outcome with
          | error e => cases h
          | ok =>
            obtain ⟨hcatalog, hdisk⟩ := Prod.mk.inj h
            have hsame : defaultCatalog id now = s.catalog := Except.ok.inj hcatalog
            exact ⟨_, hdisk.symm, hsame ▸ hstores⟩

/-- The states of a manager whose operations all meet the condition. -/
inductive Reachable (p : Platform) (path : String) : SessionManager → Prop
  | start {s : SessionManager} (h : s.Starts p path) : Reachable p path s
  | next {s : SessionManager} (h : Reachable p path s) (operation : Operation) (calls : Calls)
      (hspared : calls.Spared) : Reachable p path (s.perform p path operation calls).2

theorem InSync.perform (h : s.InSync p) (hspared : calls.Spared) :
    (s.perform p path operation calls).2.InSync p := by
  cases hperform : s.perform p path operation calls with
  | mk result s' =>
    cases perform_cases hperform with
    | refused e => exact h
    | unsynced e catalog hstores hcalls => exact absurd hspared hcalls
    | done catalog hstores hne => exact ⟨_, rfl, hstores⟩

theorem Reachable.inSync (h : Reachable p path s) : s.InSync p := by
  induction h with
  | start hstarts => exact hstarts.inSync
  | next _ operation calls hspared ih => exact ih.perform hspared

/-- What a restart would load after any operation, also after one with a failure that is not spared.
-/
theorem InSync.loads_perform (h : s.InSync p) (operation : Operation) (calls : Calls) :
    ∃ catalog, Loads p path (s.perform p path operation calls).2.disk catalog ∧
      validateCatalog p catalog = .ok () ∧ catalog.WellFormed := by
  cases hperform : s.perform p path operation calls with
  | mk result s' =>
    cases perform_cases hperform with
    | refused e =>
      obtain ⟨content, hdisk, hstores⟩ := h
      exact ⟨s.catalog, hdisk ▸ hstores.loads, hstores.valid, wellFormed_of_valid hstores.valid⟩
    | unsynced e catalog hstores _ | done catalog hstores _ =>
      exact ⟨catalog, hstores.loads, hstores.valid, wellFormed_of_valid hstores.valid⟩

theorem InSync.all_or_nothing (h : s.InSync p) (hspared : calls.Spared) :
    (∀ e, (s.perform p path operation calls).1 = .error e →
      (s.perform p path operation calls).2 = s) ∧
    ((s.perform p path operation calls).1 = .ok () →
      (s.perform p path operation calls).2.catalog ≠ s.catalog ∧
      (s.perform p path operation calls).2.disk ≠ s.disk) := by
  obtain ⟨content, hdisk, hstores⟩ := h
  cases hperform : s.perform p path operation calls with
  | mk result s' =>
    cases perform_cases hperform with
    | refused e => exact ⟨fun _ _ => rfl, fun hok => nomatch hok⟩
    | unsynced e catalog _ hcalls => exact absurd hspared hcalls
    | done catalog hnew hne =>
      refine ⟨fun _ herror => (nomatch herror), fun _ => And.intro hne fun hsame => hne ?_⟩
      rw [hdisk] at hsame
      have hdecoded := hstores.decoded
      rw [← Option.some.inj hsame] at hdecoded
      exact Option.some.inj hdecoded

/-- In every run in which no call fails once a rename was made, a restart would load the catalog
that is in memory. An operation that returns an error changes neither memory nor the file, one that
returns `Ok` changes both. Whatever calls fail, the file holds a catalog that loads, with one
default workspace, distinct ids and distinct names. -/
theorem catalog_updates_atomic (h : Reachable p path s) :
    Loads p path s.disk s.catalog ∧
    (∀ operation calls, calls.Spared →
      (∀ e, (s.perform p path operation calls).1 = .error e →
        (s.perform p path operation calls).2 = s) ∧
      ((s.perform p path operation calls).1 = .ok () →
        (s.perform p path operation calls).2.catalog ≠ s.catalog ∧
        (s.perform p path operation calls).2.disk ≠ s.disk)) ∧
    ∀ operation calls, ∃ catalog, Loads p path (s.perform p path operation calls).2.disk catalog ∧
      validateCatalog p catalog = .ok () ∧ catalog.WellFormed := by
  have hsync : s.InSync p := h.inSync
  refine ⟨?_, fun operation calls hspared => hsync.all_or_nothing hspared, hsync.loads_perform⟩
  obtain ⟨content, hdisk, hstores⟩ := hsync
  exact hdisk ▸ hstores.loads

/-! ## A directory that cannot be synced -/

open Host (plainPlatform defaultId buildId)

def firstStart : SessionManager :=
  ⟨defaultCatalog defaultId 0, some (defaultCatalog defaultId 0).encode⟩

theorem reachable_firstStart : Reachable plainPlatform "catalog" firstStart :=
  .start ⟨.succeed, defaultId, .ok 0, none, by decide +kernel⟩

def createBuild : Operation := .createWorkspace buildId "Build".toList (.ok 1)

/-- Every call succeeds but one. -/
def failing (failed : FileCall) : Calls := fun call =>
  if call = failed then .error "I/O error" else .ok ()

def withBuild : SessionManager :=
  (firstStart.perform plainPlatform "catalog" createBuild .succeed).2

/-- A workspace is created; a deletion then fails before the rename, and memory and file are as the
creation left them. -/
theorem catalog_updates_atomic_withBuild :
    withBuild.catalog ≠ firstStart.catalog ∧ withBuild.disk ≠ firstStart.disk ∧
      (withBuild.perform plainPlatform "catalog" (.deleteWorkspace buildId [])
        (failing .writeAll)).2 = withBuild ∧
      Loads plainPlatform "catalog" withBuild.disk withBuild.catalog := by
  have hsucceed : Calls.succeed.Spared := fun _ => ⟨rfl, rfl⟩
  obtain ⟨-, hcreated, -⟩ := catalog_updates_atomic reachable_firstStart
  obtain ⟨hcatalog, hdisk⟩ := (hcreated createBuild .succeed hsucceed).2 (by decide +kernel)
  obtain ⟨hloads, hnext, -⟩ :=
    catalog_updates_atomic (reachable_firstStart.next createBuild .succeed hsucceed)
  refine ⟨hcatalog, hdisk, ?_, hloads⟩
  refine (hnext (.deleteWorkspace buildId []) (failing .writeAll) fun _ => ⟨rfl, rfl⟩).1
    "failed to persist session catalog catalog" (by decide +kernel)

/-- The creation of a workspace returns an error, the catalog in memory is the old one, and a
restart loads a catalog with the workspace. -/
theorem unsynced_directory_splits_catalog :
    Reachable plainPlatform "catalog" firstStart ∧
    ∃ e, (firstStart.perform plainPlatform "catalog" createBuild (failing .syncParent)).1 =
      .error e ∧
      (firstStart.perform plainPlatform "catalog" createBuild (failing .syncParent)).2.catalog =
        firstStart.catalog ∧
      Loads plainPlatform "catalog"
        (firstStart.perform plainPlatform "catalog" createBuild (failing .syncParent)).2.disk
        withBuild.catalog ∧
      withBuild.catalog ≠ firstStart.catalog := by
  refine ⟨reachable_firstStart, "failed to persist session catalog catalog", by decide +kernel,
    by decide +kernel, ?_, by decide +kernel⟩
  intro id now
  rfl

end SessionManager

end AstraShell.Session
