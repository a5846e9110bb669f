import AstraShell.Lib.Checked
import AstraShell.Lib.Text
import Mathlib.Data.List.Basic

/-!
# Workspaces and their terminals

`SessionManager` of `session.rs` keeps the catalog of workspaces behind one lock, and
`TerminalManager` of `terminal.rs` the registry of terminals behind another. An operation that needs
both takes them one after the other: a spawn looks for its workspace in the catalog and adds its
terminal to the registry later, a deletion looks for terminals in the registry and removes the
workspace from the catalog later. A `Host` therefore has operations that are under way, of any
number of clients, and `Action` has one constructor for each part of an operation that runs under a
lock.

`no_orphan_terminals`: terminals always have their workspace when a spawn into a workspace and the
deletion of it do not overlap. `deletion_orphans_spawn`: otherwise a terminal can be left without
one.
-/

set_option autoImplicit false

namespace AstraShell.Session

open Lib Lib.Text

def sessionCatalogSchemaVersion : Nat := 1
def maxWorkspaceNameBytes : Nat := 128

structure WorkspaceInfo where
  id : String
  name : Text
  revision : Nat
  createdAtUnixMs : Nat
  isDefault : Bool
  deriving DecidableEq

structure SessionCatalog where
  schemaVersion : Nat
  defaultWorkspaceId : String
  workspaces : List WorkspaceInfo
  deriving DecidableEq

inductive TerminalLifecycle where
  | running
  | exited
  deriving DecidableEq

/-- What the registry says of a terminal, as far as workspaces are concerned. -/
structure TerminalInfo where
  id : String
  workspaceId : String
  lifecycle : TerminalLifecycle
  deriving DecidableEq

/-- The UUID library: the canonical form of a text that is a UUID. -/
structure Platform where
  parseUuid : String → Option String

/-! ## The catalog -/

section Catalog

variable (p : Platform)

def validateUuid (value label : String) : Except String Unit := do
  let parsed ← context (p.parseUuid value) (label ++ " is not a UUID")
  ensure (parsed = value) (label ++ " is not canonical")

def validateWorkspaceName (name : Text) : Except String Text := do
  let name := trim name
  ensure (name ≠ []) "workspace name cannot be empty"
  ensure ((name.map Char.utf8Size).sum ≤ maxWorkspaceNameBytes) "workspace name exceeds 128 bytes"
  ensure (name.any isControl = false) "workspace name contains control characters"
  return name

-- Named, so that the loop holds no proof of its own.
local instance : LawfulBEq Text := inferInstance

/-- The loop of `validate_catalog`; it counts the default workspaces. -/
def validateWorkspaces (defaultWorkspaceId : String) :
    List String → List Text → Nat → List WorkspaceInfo → Except String Nat
  | _, _, defaultCount, [] => .ok defaultCount
  | ids, names, defaultCount, workspace :: workspaces => do
    validateUuid p workspace.id "workspace ID"
    ensure (workspace.id ∉ ids) "duplicate workspace ID"
    let name ← validateWorkspaceName workspace.name
    ensure (name = workspace.name) "workspace name is not canonical"
    ensure (name ∉ names) "duplicate workspace name"
    ensure (workspace.revision > 0) "workspace revision must be nonzero"
    if workspace.isDefault then do
      ensure (workspace.id = defaultWorkspaceId) "default workspace marker does not match catalog"
      validateWorkspaces defaultWorkspaceId (workspace.id :: ids) (name :: names)
        (defaultCount + 1) workspaces
    else
      validateWorkspaces defaultWorkspaceId (workspace.id :: ids) (name :: names) defaultCount
        workspaces

def validateCatalog (catalog : SessionCatalog) : Except String Unit := do
  ensure (catalog.schemaVersion = sessionCatalogSchemaVersion)
    "unsupported session catalog schema version"
  validateUuid p catalog.defaultWorkspaceId "default workspace ID"
  ensure (catalog.workspaces ≠ []) "session catalog has no workspace"
  let defaultCount ← validateWorkspaces p catalog.defaultWorkspaceId [] [] 0 catalog.workspaces
  ensure (defaultCount = 1) "session catalog must have one default workspace"

/-- A change of the catalog, which may fail to be written to the disk. -/
def updateCatalog (persist : SessionCatalog → Except String Unit)
    (update : SessionCatalog → Except String SessionCatalog) (catalog : SessionCatalog) :
    Except String SessionCatalog := do
  let candidate ← update catalog
  validateCatalog p candidate
  persist candidate
  return candidate

/-- The change that `create_workspace` makes. -/
def addWorkspace (workspace : WorkspaceInfo) (catalog : SessionCatalog) :
    Except String SessionCatalog := do
  ensure (∀ existing ∈ catalog.workspaces, existing.name ≠ workspace.name)
    "workspace name already exists"
  return { catalog with workspaces := catalog.workspaces ++ [workspace] }

/-- The first workspace with the id, under its new name. -/
def renameFirst (workspaceId : String) (name : Text) :
    List WorkspaceInfo → Except String (List WorkspaceInfo)
  | [] => .error "workspace does not exist"
  | workspace :: workspaces =>
    if workspace.id = workspaceId then do
      let revision ← context (checkedAdd 64 workspace.revision 1) "workspace revision exhausted"
      return { workspace with name := name, revision := revision } :: workspaces
    else do
      let workspaces ← renameFirst workspaceId name workspaces
      return workspace :: workspaces

/-- The change that `rename_workspace` makes. -/
def changeName (workspaceId : String) (name : Text) (catalog : SessionCatalog) :
    Except String SessionCatalog := do
  ensure (∀ workspace ∈ catalog.workspaces, ¬ (workspace.id ≠ workspaceId ∧ workspace.name = name))
    "workspace name already exists"
  let workspaces ← renameFirst workspaceId name catalog.workspaces
  return { catalog with workspaces := workspaces }

/-- The change that `delete_workspace` makes. -/
def removeWorkspace (workspaceId : String) (catalog : SessionCatalog) :
    Except String SessionCatalog := do
  ensure (catalog.defaultWorkspaceId ≠ workspaceId) "cannot delete the default workspace"
  let workspaces := catalog.workspaces.filter fun workspace => workspace.id ≠ workspaceId
  ensure (workspaces.length + 1 = catalog.workspaces.length) "workspace does not exist"
  return { catalog with workspaces := workspaces }

/-- The catalog has a workspace with the id. -/
def SessionCatalog.Has (catalog : SessionCatalog) (workspaceId : String) : Prop :=
  ∃ workspace ∈ catalog.workspaces, workspace.id = workspaceId

/-- `SessionManager::workspace`. -/
def SessionCatalog.workspace (catalog : SessionCatalog) (workspaceId : String) :
    Except String WorkspaceInfo := do
  validateUuid p workspaceId "workspace ID"
  context (catalog.workspaces.find? fun workspace => workspace.id = workspaceId)
    "workspace does not exist"

end Catalog

/-! ## The host -/

/-- An operation between its two locks. -/
inductive Pending where
  /-- A spawn that has found its workspace. -/
  | spawn (workspaceId : String)
  /-- A deletion that has found the workspace without terminals. -/
  | delete (workspaceId : String)
  deriving DecidableEq

structure Host where
  catalog : SessionCatalog
  terminals : List TerminalInfo
  pending : List Pending

/-- The parts of the operations, each under one lock. The ids are new UUIDs, `persist` is what the
disk says, and a spawn may fail for reasons of its own before the terminal is added. -/
inductive Action where
  | createWorkspace (id : String) (name : Text) (now : Nat)
      (persist : SessionCatalog → Except String Unit)
  | renameWorkspace (workspaceId : String) (name : Text)
      (persist : SessionCatalog → Except String Unit)
  | startDelete (workspaceId : String)
  | finishDelete (workspaceId : String) (persist : SessionCatalog → Except String Unit)
  | startSpawn (workspaceId : String) (formal : Bool)
  | finishSpawn (workspaceId : String) (outcome : Except String String)
  | exit (terminalId : String)
  | forget (terminalId : String)

namespace Host

def listInWorkspace (s : Host) (workspaceId : String) (includeExited : Bool) : List TerminalInfo :=
  s.terminals.filter fun terminal => terminal.workspaceId = workspaceId ∧
    (includeExited = true ∨ terminal.lifecycle = .running)

/-- The state after a change of the catalog that may be refused. -/
def change (s : Host) (result : Except String SessionCatalog) : Host :=
  match result with
  | .ok catalog => { s with catalog := catalog }
  | .error _ => s

/-- The workspace of a spawn. -/
def spawnTarget (p : Platform) (s : Host) (workspaceId : String) (formal : Bool) :
    Except String String :=
  if formal = false ∧ workspaceId = "" then .ok s.catalog.defaultWorkspaceId
  else do
    let _ ← s.catalog.workspace p workspaceId
    return workspaceId

/-- A terminal in the registry, in the place of one with the same id. -/
def insertTerminal (terminals : List TerminalInfo) (terminal : TerminalInfo) : List TerminalInfo :=
  terminal :: terminals.filter fun existing => existing.id ≠ terminal.id

def step (p : Platform) (s : Host) : Action → Host
  | .createWorkspace id name now persist =>
    s.change (do
      let name ← validateWorkspaceName name
      updateCatalog p persist (addWorkspace ⟨id, name, 1, now, false⟩) s.catalog)
  | .renameWorkspace workspaceId name persist =>
    s.change (do
      validateUuid p workspaceId "workspace ID"
      let name ← validateWorkspaceName name
      updateCatalog p persist (changeName workspaceId name) s.catalog)
  | .startDelete workspaceId =>
    match (do
      validateUuid p workspaceId "workspace ID"
      ensure (s.listInWorkspace workspaceId true = []) "workspace is not empty" :
        Except String Unit) with
    | .ok () => { s with pending := .delete workspaceId :: s.pending }
    | .error _ => s
  | .finishDelete workspaceId persist =>
    { s with pending := s.pending.erase (.delete workspaceId) }.change
      (updateCatalog p persist (removeWorkspace workspaceId) s.catalog)
  | .startSpawn workspaceId formal =>
    match s.spawnTarget p workspaceId formal with
    | .ok target => { s with pending := .spawn target :: s.pending }
    | .error _ => s
  | .finishSpawn workspaceId outcome =>
    let s := { s with pending := s.pending.erase (.spawn workspaceId) }
    match outcome with
    | .ok id => { s with terminals := insertTerminal s.terminals ⟨id, workspaceId, .running⟩ }
    | .error _ => s
  | .exit terminalId =>
    { s with terminals := s.terminals.map fun terminal =>
        if terminal.id = terminalId then { terminal with lifecycle := .exited } else terminal }
  | .forget terminalId =>
    { s with terminals := s.terminals.filter fun terminal => terminal.id ≠ terminalId }

/-- The second part of an operation comes after its first. -/
def Enabled (s : Host) : Action → Prop
  | .finishDelete workspaceId _ => .delete workspaceId ∈ s.pending
  | .finishSpawn workspaceId _ => .spawn workspaceId ∈ s.pending
  | _ => True

/-- A host that has just started, with a catalog that was loaded or made. -/
def Starts (p : Platform) (s : Host) : Prop :=
  validateCatalog p s.catalog = .ok () ∧ s.terminals = [] ∧ s.pending = []

/-- The states of the runs whose steps all meet a condition. -/
inductive Reachable (p : Platform) (allowed : Host → Action → Prop) : Host → Prop
  | start {s : Host} (h : s.Starts p) : Reachable p allowed s
  | next {s : Host} (h : Reachable p allowed s) (action : Action) (henabled : s.Enabled action)
      (hallowed : allowed s action) : Reachable p allowed (s.step p action)

/-- Every terminal names a workspace of the catalog. -/
def Housed (s : Host) : Prop := ∀ terminal ∈ s.terminals, s.catalog.Has terminal.workspaceId

/-- A spawn into a workspace begins when no deletion of it is under way, and a deletion when no
spawn into it is. The default workspace cannot be deleted, so it is not concerned. -/
def Separate (p : Platform) (s : Host) : Action → Prop
  | .startSpawn workspaceId formal => ∀ target, s.spawnTarget p workspaceId formal = .ok target →
      target ≠ s.catalog.defaultWorkspaceId → .delete target ∉ s.pending
  | .startDelete workspaceId => workspaceId ≠ s.catalog.defaultWorkspaceId →
      .spawn workspaceId ∉ s.pending
  | _ => True

end Host

/-! ## What the catalog keeps -/

section

variable {p : Platform} {catalog catalog' : SessionCatalog} {workspaceId : String} {name : Text}

theorem validateWorkspaces_default {ids : List String} {names : List Text} {n m : Nat}
    {workspaces : List WorkspaceInfo}
    (h : validateWorkspaces p workspaceId ids names n workspaces = .ok m) :
    n = m ∨ ∃ workspace ∈ workspaces, workspace.id = workspaceId := by
  induction workspaces generalizing ids names n with
  | nil => exact .inl (Except.ok.inj h)
  | cons workspace workspaces ih =>
    simp only [validateWorkspaces, bind_eq_ok_iff, ensure_eq_ok_iff] at h
    obtain ⟨-, -, -, -, name, -, -, -, -, -, -, -, h⟩ := h
    split at h
    · simp only [bind_eq_ok_iff, ensure_eq_ok_iff] at h
      obtain ⟨-, hdefault, -⟩ := h
      exact .inr ⟨workspace, by simp, hdefault⟩
    · rcases ih h with heq | ⟨w, hw, hid⟩
      · exact .inl heq
      · exact .inr ⟨w, List.mem_cons_of_mem _ hw, hid⟩

/-- A valid catalog has its default workspace. -/
theorem has_default (h : validateCatalog p catalog = .ok ()) :
    catalog.Has catalog.defaultWorkspaceId := by
  simp only [validateCatalog, bind_eq_ok_iff, ensure_eq_ok_iff] at h
  obtain ⟨-, -, -, -, -, -, count, hcount, hone⟩ := h
  rcases validateWorkspaces_default hcount with heq | hhas
  · omega
  · exact hhas

theorem updateCatalog_eq_ok {persist : SessionCatalog → Except String Unit}
    {update : SessionCatalog → Except String SessionCatalog}
    (h : updateCatalog p persist update catalog = .ok catalog') :
    update catalog = .ok catalog' ∧ validateCatalog p catalog' = .ok () := by
  simp only [updateCatalog, bind_eq_ok_iff, pure_eq_ok_iff] at h
  obtain ⟨candidate, hupdate, ⟨⟩, hvalid, -, -, rfl⟩ := h
  exact ⟨hupdate, hvalid⟩

/-- A catalog with the same default workspace and all workspaces of another. -/
def SessionCatalog.Extends (catalog' catalog : SessionCatalog) : Prop :=
  catalog'.defaultWorkspaceId = catalog.defaultWorkspaceId ∧
    ∀ workspaceId, catalog.Has workspaceId → catalog'.Has workspaceId

theorem addWorkspace_extends {workspace : WorkspaceInfo}
    (h : addWorkspace workspace catalog = .ok catalog') : catalog'.Extends catalog := by
  simp only [addWorkspace, bind_eq_ok_iff, pure_eq_ok_iff] at h
  obtain ⟨-, -, rfl⟩ := h
  refine ⟨rfl, ?_⟩
  rintro id ⟨w, hw, hid⟩
  exact ⟨w, List.mem_append_left _ hw, hid⟩

theorem renameFirst_map_id {workspaces workspaces' : List WorkspaceInfo}
    (h : renameFirst workspaceId name workspaces = .ok workspaces') :
    workspaces'.map WorkspaceInfo.id = workspaces.map WorkspaceInfo.id := by
  induction workspaces generalizing workspaces' with
  | nil => cases h
  | cons workspace workspaces ih =>
    rw [renameFirst] at h
    split at h
    · simp only [bind_eq_ok_iff, pure_eq_ok_iff] at h
      obtain ⟨revision, -, rfl⟩ := h
      rfl
    · simp only [bind_eq_ok_iff, pure_eq_ok_iff] at h
      obtain ⟨rest, hrest, rfl⟩ := h
      rw [List.map_cons, List.map_cons, ih hrest]

theorem changeName_extends (h : changeName workspaceId name catalog = .ok catalog') :
    catalog'.Extends catalog := by
  simp only [changeName, bind_eq_ok_iff, pure_eq_ok_iff] at h
  obtain ⟨-, -, workspaces, hrename, rfl⟩ := h
  refine ⟨rfl, fun id hid => ?_⟩
  have hmem : id ∈ workspaces.map WorkspaceInfo.id := by
    rw [renameFirst_map_id hrename]
    exact List.mem_map.2 hid
  exact List.mem_map.1 hmem

/-- A deletion takes one workspace, not the default one, and leaves the others. -/
theorem removeWorkspace_eq_ok (h : removeWorkspace workspaceId catalog = .ok catalog') :
    catalog'.defaultWorkspaceId = catalog.defaultWorkspaceId ∧
      workspaceId ≠ catalog.defaultWorkspaceId ∧
      ∀ id, catalog.Has id → id ≠ workspaceId → catalog'.Has id := by
  simp only [removeWorkspace, bind_eq_ok_iff, ensure_eq_ok_iff, pure_eq_ok_iff] at h
  obtain ⟨-, hdefault, -, -, rfl⟩ := h
  refine ⟨rfl, hdefault.symm, ?_⟩
  rintro id ⟨w, hw, rfl⟩ hne
  exact ⟨w, List.mem_filter.2 ⟨hw, by simpa using hne⟩, rfl⟩

end

/-! ## Runs without overlap -/

namespace Host

/-- A spawn that is under way has its workspace, and a deletion that is under way has neither
terminals nor spawns. -/
structure Inv (p : Platform) (s : Host) : Prop where
  valid : validateCatalog p s.catalog = .ok ()
  housed : s.Housed
  spawns : ∀ w, .spawn w ∈ s.pending → s.catalog.Has w
  deletes : ∀ w, .delete w ∈ s.pending → w ≠ s.catalog.defaultWorkspaceId →
    (∀ terminal ∈ s.terminals, terminal.workspaceId ≠ w) ∧ .spawn w ∉ s.pending

variable {p : Platform} {s : Host}

section

variable (h : s.Inv p)

include h

/-- A change of the catalog that keeps all workspaces. -/
theorem Inv.change {result : Except String SessionCatalog}
    (hresult : ∀ catalog, result = .ok catalog →
      catalog.Extends s.catalog ∧ validateCatalog p catalog = .ok ()) :
        (s.change result).Inv p := by
  cases result with
  | error e => exact h
  | ok catalog =>
    obtain ⟨⟨hdefault, hhas⟩, hvalid⟩ := hresult catalog rfl
    exact
      { valid := hvalid
        housed := fun terminal hterminal => hhas _ (h.housed terminal hterminal)
        spawns := fun w hw => hhas w (h.spawns w hw)
        deletes := fun w hw hne => h.deletes w hw (hdefault ▸ hne) }

/-- Fewer terminals, or terminals that have only changed otherwise. -/
theorem Inv.terminals {terminals : List TerminalInfo}
    (hterminals : ∀ t ∈ terminals, ∃ t' ∈ s.terminals, t'.workspaceId = t.workspaceId) :
    Inv p { s with terminals := terminals } where
  valid := h.valid
  housed := by
    intro t ht
    obtain ⟨t', ht', heq⟩ := hterminals t ht
    exact heq ▸ h.housed t' ht'
  spawns := h.spawns
  deletes := by
    intro w hw hne
    obtain ⟨hnone, hspawn⟩ := h.deletes w hw hne
    refine ⟨fun t ht => ?_, hspawn⟩
    obtain ⟨t', ht', heq⟩ := hterminals t ht
    exact heq ▸ hnone t' ht'

/-- The workspace that a spawn has found. -/
theorem Inv.spawnTarget_has {workspaceId target : String} {formal : Bool}
    (htarget : s.spawnTarget p workspaceId formal = .ok target) : s.catalog.Has target := by
  unfold spawnTarget at htarget
  split at htarget
  · cases htarget
    exact has_default h.valid
  · simp only [bind_eq_ok_iff, pure_eq_ok_iff] at htarget
    obtain ⟨workspace, hworkspace, rfl⟩ := htarget
    simp only [SessionCatalog.workspace, bind_eq_ok_iff, context_eq_ok_iff] at hworkspace
    obtain ⟨-, -, hfind⟩ := hworkspace
    exact ⟨workspace, List.mem_of_find?_eq_some hfind, by simpa using List.find?_some hfind⟩

theorem Inv.startSpawn {target : String} (htarget : s.catalog.Has target)
    (hseparate : target ≠ s.catalog.defaultWorkspaceId → .delete target ∉ s.pending) :
    Inv p { s with pending := .spawn target :: s.pending } where
  valid := h.valid
  housed := h.housed
  spawns := by
    intro w hw
    rcases List.mem_cons.1 hw with heq | hold
    · cases heq
      exact htarget
    · exact h.spawns w hold
  deletes := by
    intro w hw hne
    have hold : .delete w ∈ s.pending := by simpa using hw
    obtain ⟨hnone, hspawn⟩ := h.deletes w hold hne
    refine ⟨hnone, fun hmem => ?_⟩
    rcases List.mem_cons.1 hmem with heq | hmem
    · cases heq
      exact hseparate hne hold
    · exact hspawn hmem

theorem Inv.startDelete {w : String} (hempty : s.listInWorkspace w true = [])
    (hseparate : w ≠ s.catalog.defaultWorkspaceId → .spawn w ∉ s.pending) :
    Inv p { s with pending := .delete w :: s.pending } where
  valid := h.valid
  housed := h.housed
  spawns := fun v hv => h.spawns v (by simpa using hv)
  deletes := by
    intro v hv hne
    have hspawn : ∀ u, (Pending.spawn u ∈ Pending.delete w :: s.pending ↔
        .spawn u ∈ s.pending) := by
      simp
    rcases List.mem_cons.1 hv with heq | hold
    · cases heq
      refine ⟨fun t ht heq => ?_, fun hmem => hseparate hne ((hspawn w).1 hmem)⟩
      have hlisted : t ∈ s.listInWorkspace w true := List.mem_filter.2 ⟨ht, by simp [heq]⟩
      rw [hempty] at hlisted
      cases hlisted
    · obtain ⟨hnone, hnospawn⟩ := h.deletes v hold hne
      exact ⟨hnone, fun hmem => hnospawn ((hspawn v).1 hmem)⟩

/-- An operation is no longer under way. -/
theorem Inv.erase (operation : Pending) :
    Inv p { s with pending := s.pending.erase operation } where
  valid := h.valid
  housed := h.housed
  spawns := fun w hw => h.spawns w (List.mem_of_mem_erase hw)
  deletes := fun w hw hne => by
    obtain ⟨hnone, hspawn⟩ := h.deletes w (List.mem_of_mem_erase hw) hne
    exact ⟨hnone, fun hmem => hspawn (List.mem_of_mem_erase hmem)⟩

theorem Inv.finishSpawn {w : String} (hw : .spawn w ∈ s.pending) (id : String) :
    Inv p { s with
      pending := s.pending.erase (.spawn w)
      terminals := insertTerminal s.terminals ⟨id, w, .running⟩ } where
  valid := h.valid
  housed := by
    intro t ht
    rcases List.mem_cons.1 ht with rfl | hold
    · exact h.spawns w hw
    · exact h.housed t (List.mem_filter.1 hold).1
  spawns := (h.erase _).spawns
  deletes := by
    intro v hv hne
    obtain ⟨hnone, hspawn⟩ := h.deletes v (List.mem_of_mem_erase hv) hne
    refine ⟨fun t ht => ?_, fun hmem => hspawn (List.mem_of_mem_erase hmem)⟩
    rcases List.mem_cons.1 ht with rfl | hold
    · -- A deletion of this workspace would have excluded the spawn.
      rintro rfl
      exact hspawn hw
    · exact hnone t (List.mem_filter.1 hold).1

theorem Inv.finishDelete {w : String} (hw : .delete w ∈ s.pending)
    {catalog : SessionCatalog} (hremove : removeWorkspace w s.catalog = .ok catalog)
    (hvalid : validateCatalog p catalog = .ok ()) :
    Inv p { s with pending := s.pending.erase (.delete w), catalog := catalog } := by
  obtain ⟨hdefault, hne, hothers⟩ := removeWorkspace_eq_ok hremove
  obtain ⟨hnone, hspawn⟩ := h.deletes w hw hne
  exact
    { valid := hvalid
      housed := fun t ht => hothers _ (h.housed t ht) (hnone t ht)
      spawns := by
        intro v hv
        have hold := List.mem_of_mem_erase hv
        refine hothers v (h.spawns v hold) ?_
        rintro rfl
        exact hspawn hold
      deletes := fun v hv hv' => (h.erase _).deletes v hv (hdefault ▸ hv') }

/-- One step of a run without overlap. -/
theorem Inv.step {action : Action} (henabled : s.Enabled action)
    (hseparate : s.Separate p action) : (s.step p action).Inv p := by
  cases action with
  | createWorkspace id name now persist =>
    refine h.change fun catalog hresult => ?_
    obtain ⟨name, -, hresult⟩ := bind_eq_ok_iff.1 hresult
    obtain ⟨hupdate, hvalid⟩ := updateCatalog_eq_ok hresult
    exact ⟨addWorkspace_extends hupdate, hvalid⟩
  | renameWorkspace workspaceId name persist =>
    refine h.change fun catalog hresult => ?_
    obtain ⟨⟨⟩, -, hresult⟩ := bind_eq_ok_iff.1 hresult
    obtain ⟨name, -, hresult⟩ := bind_eq_ok_iff.1 hresult
    obtain ⟨hupdate, hvalid⟩ := updateCatalog_eq_ok hresult
    exact ⟨changeName_extends hupdate, hvalid⟩
  | startDelete workspaceId =>
    rw [Host.step]
    split
    · next hcheck =>
        obtain ⟨⟨⟩, -, hempty⟩ := bind_eq_ok_iff.1 hcheck
        exact h.startDelete (ensure_eq_ok_iff.1 hempty) hseparate
    · exact h
  | finishDelete workspaceId persist =>
    rw [Host.step]
    cases hupdate : updateCatalog p persist (removeWorkspace workspaceId) s.catalog with
    | error e => exact h.erase _
    | ok catalog =>
      obtain ⟨hremove, hvalid⟩ := updateCatalog_eq_ok hupdate
      exact h.finishDelete henabled hremove hvalid
  | startSpawn workspaceId formal =>
    rw [Host.step]
    split
    · next target htarget =>
        exact h.startSpawn (h.spawnTarget_has htarget) (hseparate target htarget)
    · exact h
  | finishSpawn workspaceId outcome =>
    cases outcome with
    | error e => exact h.erase _
    | ok id => exact h.finishSpawn henabled id
  | exit terminalId =>
    refine h.terminals fun t ht => ?_
    obtain ⟨t', ht', rfl⟩ := List.mem_map.1 ht
    refine ⟨t', ht', ?_⟩
    split
    · rfl
    · rfl
  | forget terminalId =>
    exact h.terminals fun t ht => ⟨t, (List.mem_filter.1 ht).1, rfl⟩

end

theorem Reachable.inv (h : Reachable p (Separate p) s) : s.Inv p := by
  induction h with
  | start hstart =>
    obtain ⟨hvalid, hterminals, hpending⟩ := hstart
    exact
      { valid := hvalid
        housed := fun t ht => by rw [hterminals] at ht; cases ht
        spawns := fun w hw => by rw [hpending] at hw; cases hw
        deletes := fun w hw => by rw [hpending] at hw; cases hw }
  | next _ action henabled hallowed ih => exact ih.step henabled hallowed

/-- In every run in which spawns into a workspace and deletions of it do not overlap, every terminal
of the registry, running or not, names a workspace of the catalog. -/
theorem no_orphan_terminals (h : Reachable p (Separate p) s) : s.Housed := h.inv.housed

/-! ## Two runs -/

/-- A platform that takes every text for a UUID; it is used on canonical ones only. -/
def plainPlatform : Platform := ⟨some⟩

def defaultId : String := "11111111-1111-4111-8111-111111111111"
def buildId : String := "22222222-2222-4222-8222-222222222222"
def terminalId : String := "33333333-3333-4333-8333-333333333333"

/-- A catalog with a default workspace and another one. -/
def twoWorkspaces : SessionCatalog :=
  ⟨1, defaultId, [⟨defaultId, "Default".toList, 1, 0, true⟩,
    ⟨buildId, "Build".toList, 1, 0, false⟩]⟩

def idleHost : Host := ⟨twoWorkspaces, [], []⟩

theorem idleHost_starts : idleHost.Starts plainPlatform := ⟨by decide +kernel, rfl, rfl⟩

/-- The steps of a run, one after the other. -/
def runAll (p : Platform) (s : Host) (actions : List Action) : Host := actions.foldl (step p) s

/-- A terminal in the second workspace. -/
def spawnedHost : Host :=
  runAll plainPlatform idleHost [.startSpawn buildId true, .finishSpawn buildId (.ok terminalId)]

theorem no_orphan_terminals_spawned :
    spawnedHost.terminals = [⟨terminalId, buildId, .running⟩] ∧ spawnedHost.Housed := by
  have hstart : Reachable plainPlatform (Separate plainPlatform) idleHost := .start idleHost_starts
  have hchecked := hstart.next (.startSpawn buildId true) trivial (by
    intro target _ _ hmem
    cases hmem)
  have hpending : .spawn buildId ∈
      (idleHost.step plainPlatform (.startSpawn buildId true)).pending := by decide +kernel
  have hspawned := hchecked.next (.finishSpawn buildId (.ok terminalId)) hpending trivial
  exact ⟨by decide +kernel, no_orphan_terminals hspawned⟩

/-- A spawn finds its workspace, the deletion finds the workspace empty and removes it, and the
spawn adds its terminal. -/
def orphanHost : Host :=
  runAll plainPlatform idleHost [.startSpawn buildId true, .startDelete buildId,
    .finishDelete buildId fun _ => .ok (), .finishSpawn buildId (.ok terminalId)]

theorem deletion_orphans_spawn : Reachable plainPlatform (fun _ _ => True) orphanHost ∧
    ∃ terminal ∈ orphanHost.terminals, ¬ orphanHost.catalog.Has terminal.workspaceId := by
  have hstart : Reachable plainPlatform (fun _ _ => True) idleHost := .start idleHost_starts
  have hchecked := hstart.next (.startSpawn buildId true) trivial trivial
  have hempty := hchecked.next (.startDelete buildId) trivial trivial
  have hpending : .delete buildId ∈ (runAll plainPlatform idleHost
      [.startSpawn buildId true, .startDelete buildId]).pending := by decide +kernel
  have hdeleted := hempty.next (.finishDelete buildId fun _ => .ok ()) hpending trivial
  have hwaiting : .spawn buildId ∈ (runAll plainPlatform idleHost [.startSpawn buildId true,
      .startDelete buildId, .finishDelete buildId fun _ => .ok ()]).pending := by decide +kernel
  have hspawned := hdeleted.next (.finishSpawn buildId (.ok terminalId)) hwaiting trivial
  refine ⟨hspawned, ⟨terminalId, buildId, .running⟩, by decide +kernel, ?_⟩
  rintro ⟨workspace, hworkspace, hid⟩
  have hcatalog : orphanHost.catalog.workspaces =
      [⟨defaultId, "Default".toList, 1, 0, true⟩] := by decide +kernel
  rw [hcatalog, List.mem_singleton] at hworkspace
  subst hworkspace
  exact absurd hid (by decide +kernel)

end Host

end AstraShell.Session
