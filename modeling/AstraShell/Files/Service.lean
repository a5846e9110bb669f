import Mathlib.Data.List.DropRight
import Mathlib.Data.List.Sort
import Mathlib.Data.String.Basic
import AstraShell.Lib.FileCalls
import AstraShell.Lib.OrdMap
import AstraShell.Resources.Policy
import AstraShell.Terminal.Lease

/-!
# The file service

`FileService` of `files.rs`: uploads that can be resumed, downloads, listings, and changes of names,
all below one root directory. A request resolves its path, with or without the last link, checks
that the result is inside the root, and then makes its calls on it. An upload goes to a temporary
file beside its target and is published by a rename or a hard link; what is known of it between
requests is its entry in the registry.

A request is an effect on the world: the disk and the calls to come (`Lib.FileCalls`), the registry,
and the resource pools of the service's account. Watching files and `git_status` are not modelled.
-/

set_option autoImplicit false

namespace AstraShell.Files

open Lib Lib.Effect Lib.FileTree Resources

/-! ## Names and paths -/

/-- A name that a directory can have. -/
def validName (bytes : List UInt8) : Prop := bytes ≠ [] ∧ bytes ≠ [46] ∧ bytes ≠ [46, 46]

instance (bytes : List UInt8) : Decidable (validName bytes) := inferInstanceAs (Decidable (_ ∧ _))

/-- A name in a directory. -/
def FileName : Type := { bytes : List UInt8 // validName bytes }

instance : DecidableEq FileName := inferInstanceAs (DecidableEq { bytes // validName bytes })

/-- An absolute path by what stands between its slashes. -/
abbrev PathBuf : Type := List (List UInt8)

/-- The path as the kernel reads it: nothing or one dot stays, two dots go up. -/
def segment (bytes : List UInt8) : Segment FileName :=
  if h : validName bytes then .name ⟨bytes, h⟩ else if bytes = [46, 46] then .up else .stay

namespace PathBuf

def segments (path : PathBuf) : List (Segment FileName) := path.map segment

/-- The normal components. -/
def names (path : PathBuf) : List FileName :=
  path.filterMap fun bytes => if h : validName bytes then some ⟨bytes, h⟩ else none

def fileName (path : PathBuf) : Option FileName := path.names.getLast?

/-- The path without its last normal component and what follows it. -/
def parent (path : PathBuf) : PathBuf :=
  ((path.rdropWhile fun bytes => ¬ validName bytes).dropLast).rdropWhile fun bytes =>
    ¬ validName bytes

end PathBuf

/-- The bytes of an absolute path. -/
def pathBytes (p : Location FileName) : List UInt8 :=
  if p = [] then [47] else p.flatMap fun name => 47 :: name.1

/-- What the model takes from outside. -/
structure Platform where
  sha256 : List UInt8 → List UInt8
  sha256_length : ∀ bytes, (sha256 bytes).length = 32
  /-- `Uuid::parse_str` succeeds. -/
  parsesUuid : String → Bool
  display : PathBuf → String
  ioText : IoError → String
  /-- The number of the device the tree is on. -/
  dev : ℕ

/-! ## Errors -/

/-- The kinds of refusals. -/
inductive ErrorCode where
  | invalid
  | notFound
  | conflict
  | permissionDenied
  | filesystem
  | quota
  | checksumMismatch
  deriving DecidableEq

/-- A refusal, with its text. -/
structure FileServiceError where
  code : ErrorCode
  message : String
  deriving DecidableEq

/-- The kind of a failed call. -/
def ErrorCode.ofIo : IoError → ErrorCode
  | .notFound => .notFound
  | .alreadyExists => .conflict
  | .permissionDenied => .permissionDenied
  | .invalidInput => .invalid
  | _ => .filesystem

/-! ## The registry -/

def asciiBytes (text : String) : List UInt8 := text.toList.map fun c => UInt8.ofNat c.toNat

/-- `.astra-upload-{transfer_id}.part`. -/
def temporaryName (id : String) : FileName :=
  ⟨46 :: asciiBytes ("astra-upload-" ++ id ++ ".part"), by simp [validName, asciiBytes]⟩

/-- The temporary file is beside the target. -/
def uploadTemporaryPath (target : Location FileName) (id : String) :
    Except FileServiceError (Location FileName) :=
  if target = [] then .error ⟨.invalid, "upload destination has no parent"⟩
  else .ok (target.dropLast ++ [temporaryName id])

/-- The state of an upload. -/
inductive UploadState where
  | active
  | completed
  | aborted
  deriving DecidableEq

/-- An upload. Its temporary file is beside the target, and no more than its size is ever committed.
-/
structure Upload where
  transferId : String
  requestedPath : List UInt8
  target : Location FileName
  temporary : Location FileName
  size : ℕ
  expectedSha256 : List UInt8
  overwrite : Bool
  mode : ℕ
  committedOffset : ℕ
  state : UploadState
  /-- The claim it holds in every pool of the account. -/
  resources : Option ResourceClaim
  committed_le : committedOffset ≤ size
  beside : uploadTemporaryPath target transferId = .ok temporary

/-- What a client is told of an upload. -/
structure UploadStatus where
  transferId : String
  path : List UInt8
  size : ℕ
  committedOffset : ℕ
  state : UploadState
  deriving DecidableEq

def Upload.status (u : Upload) : UploadStatus where
  transferId := u.transferId
  path := u.requestedPath
  size := u.size
  committedOffset := u.committedOffset
  state := u.state

/-- The disk, the registry and the pools. -/
structure World where
  os : Os FileName
  uploads : OrdMap String Upload
  pools : List ResourcePool

/-- The machine before calls that meet these faults. -/
abbrev World.facing (w : World) (faults : List Fault) : World :=
  { w with os := { w.os with faults := faults } }

/-- The service of one account. -/
structure Service where
  root : Location FileName
  platform : Platform

/-- A method; what it did stays when it fails. -/
abbrev ServiceM (α : Type) : Type := Effect World FileServiceError α

variable (s : Service)

namespace Service

def refuse {α : Type} (code : ErrorCode) (message : String) : ServiceM α := fail ⟨code, message⟩

def demand (p : Prop) [Decidable p] (code : ErrorCode) (message : String) : ServiceM Unit :=
  require p ⟨code, message⟩

def display (p : Location FileName) : String := s.platform.display (p.map Subtype.val)

def ioError (action : String) (e : IoError) : FileServiceError :=
  ⟨.ofIo e, action ++ ": " ++ s.platform.ioText e⟩

/-- Calls, and what to say when one of them fails. -/
def sys {α : Type} (action : String) (m : Effect (Os FileName) IoError α) : ServiceM α :=
  within World.os (fun w os => { w with os := os }) (s.ioError action) m

/-! ## Paths of requests -/

def maxRemotePathSize : ℕ := 16 * 1024

/-- The path of a request, from the root if relative. -/
def requestedPath (raw : List UInt8) : Except FileServiceError PathBuf :=
  if maxRemotePathSize < raw.length ∨ 0 ∈ raw then .error ⟨.invalid, "remote path is invalid"⟩
  else if raw = [] ∨ raw = [46] ∨ raw = [126] then .ok (s.root.map Subtype.val)
  else
    let raw := if raw.take 2 = [126, 47] then raw.drop 2 else raw
    let parts := raw.splitOn 47
    if [46, 46] ∈ parts then .error ⟨.invalid, "remote paths must not contain '..'"⟩
    else if raw.head? = some 47 then .ok parts.tail
    else .ok (s.root.map Subtype.val ++ parts)

/-- Locations outside the root are refused. -/
def ensureInsideRoot (p : Location FileName) : ServiceM Unit :=
  demand (s.root <+: p) .permissionDenied
    ("path " ++ s.display p ++ " is outside configured file root " ++ s.display s.root)

def canonicalize (path : PathBuf) : ServiceM (Location FileName) :=
  s.sys ("cannot resolve " ++ s.platform.display path) (call (canonicalizeBody path.segments))

/-- The name of a path, which the source takes after the path was found to have no `..`. -/
def nameOf (path : PathBuf) : ServiceM FileName :=
  check (context path.fileName ⟨.invalid, "remote path has no file name"⟩)

/-- The location of something that is there. -/
def resolveExisting (raw : List UInt8) (followSymlinks : Bool) : ServiceM (Location FileName) := do
  let candidate ← check (s.requestedPath raw)
  let resolved ←
    if followSymlinks ∨ candidate.names = s.root then s.canonicalize candidate
    else do
      let name ← nameOf candidate
      let parent ← s.canonicalize candidate.parent
      pure (parent ++ [name])
  s.ensureInsideRoot resolved
  pure resolved

/-- The location of a name in a directory that is there. -/
def resolveNew (raw : List UInt8) : ServiceM (Location FileName) := do
  let candidate ← check (s.requestedPath raw)
  let name ← nameOf candidate
  let parent ← s.canonicalize candidate.parent
  s.ensureInsideRoot parent
  pure (parent ++ [name])

/-! ## Files -/

/-- `Path::exists`: whatever goes wrong, the answer is no. -/
def pathExists (p : Location FileName) : ServiceM Bool := do
  match ← s.sys "" (attempt (call (presentBody (Tree.path p)))) with
  | .ok _ => pure true
  | .error _ => pure false

def hashBufferSize : ℕ := 128 * 1024

/-- The digest of a file, read in pieces. -/
def sha256File (p : Location FileName) : ServiceM (List UInt8) := do
  let file ← s.sys ("cannot open " ++ s.display p ++ " for checksum")
    (call (openBody (Tree.path p)))
  let content ← s.sys ("cannot read " ++ s.display p ++ " for checksum")
    (readAll file hashBufferSize)
  pure (s.platform.sha256 content)

/-- A temporary file, made if it is not there. -/
def openUploadFile (p : Location FileName) : ServiceM (Handle FileName) := do
  let file ← s.sys ("cannot open upload " ++ s.display p)
    (call (openCreateBody (Tree.path p) 0o600))
  let metadata ← s.sys ("cannot inspect upload " ++ s.display p) (call (fstatBody file))
  demand (metadata.kind = .regular) .invalid
    ("upload temporary path " ++ s.display p ++ " is not a file")
  pure file

/-- All bytes of a range, or a failure. -/
def readExactAt (file : Handle FileName) (offset length : ℕ) : ServiceM (List UInt8) := do
  s.sys ("cannot seek upload to offset " ++ toString offset) (call (seekBody offset))
  s.sys ("cannot read upload at offset " ++ toString offset) (readExact file offset length)

/-- All bytes are written, or a failure leaves some. -/
def writeAllAt (file : Handle FileName) (offset : ℕ) (data : List UInt8) : ServiceM Unit := do
  s.sys ("cannot seek upload to offset " ++ toString offset) (call (seekBody offset))
  s.sys ("cannot write upload at offset " ++ toString offset)
    (writeAll file data.length offset data)

/-! ## Checks -/

def validateTransferId (id : String) : Except FileServiceError Unit :=
  if Terminal.isCanonicalUuid id then .ok ()
  else if s.platform.parsesUuid id then
    .error ⟨.invalid, "transfer ID must use canonical lowercase UUID form"⟩
  else .error ⟨.invalid, "transfer ID must be a UUID"⟩

def validateDigest (digest : List UInt8) (optional : Bool) : Except FileServiceError Unit :=
  ensure (digest.length = 32 ∨ optional ∧ digest = [])
    ⟨.invalid, "SHA-256 digest must contain exactly 32 bytes"⟩

/-! ## Resources -/

/-- What is reserved first is given back when the rest fails. -/
def reserving {α : Type} (claim : ResourceClaim) (body : ServiceM α) : ServiceM α := fun w =>
  match ResourceAccount.reserve claim w.pools with
  | .error e => (.error ⟨.quota, e.text⟩, w)
  | .ok pools =>
    match body { w with pools := pools } with
    | (.ok a, w') => (.ok a, w')
    | (.error e, w') => (.error e, { w' with pools := ResourceAccount.release claim w'.pools })

/-- The reservation of an upload that ends is dropped. -/
def releaseUpload (u : Upload) : ServiceM Unit :=
  modify fun w =>
    match u.resources with
    | none => w
    | some claim => { w with pools := ResourceAccount.release claim w.pools }

end Service

/-! ## Uploads -/

structure BeginUploadRequest where
  transferId : String
  path : List UInt8
  size : ℕ
  sha256 : List UInt8
  overwrite : Bool
  mode : ℕ

structure WriteFileChunkRequest where
  transferId : String
  offset : ℕ
  data : List UInt8
  sha256 : List UInt8
  encoding : ℕ
  uncompressedSize : ℕ

namespace Service

def insertUpload (id : String) (u : Upload) : ServiceM Unit :=
  modify fun w => { w with uploads := w.uploads.insert id u }

/-- The uploads that are not active are forgotten. -/
def retainActive : ServiceM Unit :=
  modify fun w => { w with
    uploads := w.uploads.retain fun id =>
      match w.uploads.get? id with
      | none => false
      | some u => u.state = .active }

/-- The target is a file with the size and the digest of the request. -/
def alreadyUploaded (target : Location FileName) (request : BeginUploadRequest) :
    ServiceM Bool := do
  let metadata ← s.sys ("cannot stat " ++ s.display target)
    (call (metadataBody true (Tree.path target)))
  if metadata.kind = .regular ∧ metadata.len = request.size ∧ request.sha256.length = 32 then do
    let digest ← s.sha256File target
    pure (digest = request.sha256)
  else pure false

/-- The upload is registered with what its temporary file already has. -/
def startUpload (target temporary : Location FileName) (request : BeginUploadRequest)
    (hbeside : uploadTemporaryPath target request.transferId = .ok temporary) :
    ServiceM UploadStatus :=
  reserving (ResourceClaim.upload request.size) do
    let file ← s.openUploadFile temporary
    let metadata ← s.sys ("cannot inspect upload " ++ s.display temporary) (call (fstatBody file))
    if h : metadata.len ≤ request.size then do
      let upload : Upload := {
        transferId := request.transferId
        requestedPath := request.path
        target := target
        temporary := temporary
        size := request.size
        expectedSha256 := request.sha256
        overwrite := request.overwrite
        mode := request.mode &&& 0o777
        committedOffset := metadata.len
        state := .active
        resources := some (ResourceClaim.upload request.size)
        committed_le := h
        beside := hbeside }
      insertUpload request.transferId upload
      pure upload.status
    else
      refuse .conflict ("temporary upload has " ++ toString metadata.len ++
        " bytes but expected size is " ++ toString request.size)

/-- The upload is registered as done. -/
def completeUpload (target temporary : Location FileName) (request : BeginUploadRequest)
    (hbeside : uploadTemporaryPath target request.transferId = .ok temporary) :
    ServiceM UploadStatus := do
  let upload : Upload := {
    transferId := request.transferId
    requestedPath := request.path
    target := target
    temporary := temporary
    size := request.size
    expectedSha256 := request.sha256
    overwrite := request.overwrite
    mode := request.mode &&& 0o777
    committedOffset := request.size
    state := .completed
    resources := none
    committed_le := le_rfl
    beside := hbeside }
  insertUpload request.transferId upload
  pure upload.status

/-- An upload that is not registered. -/
def newUpload (target temporary : Location FileName) (request : BeginUploadRequest)
    (hbeside : uploadTemporaryPath target request.transferId = .ok temporary) :
    ServiceM UploadStatus := do
  retainActive
  if ← s.pathExists target then do
    if ← s.alreadyUploaded target request then completeUpload target temporary request hbeside
    else do
      demand (request.overwrite = true) .conflict
        ("destination " ++ s.display target ++ " already exists")
      s.startUpload target temporary request hbeside
  else s.startUpload target temporary request hbeside

/-- A registered upload goes on; another is begun. -/
def beginUpload (request : BeginUploadRequest) : ServiceM UploadStatus := do
  check (s.validateTransferId request.transferId)
  check (validateDigest request.sha256 true)
  let target ← s.resolveNew request.path
  match htemporary : uploadTemporaryPath target request.transferId with
  | .error e => fail e
  | .ok temporary => do
    match ← gets fun w => w.uploads.get? request.transferId with
    | some existing => do
      demand (¬ (existing.target ≠ target ∨ existing.size ≠ request.size ∨
          existing.expectedSha256 ≠ request.sha256)) .conflict
        "transfer ID is already associated with a different upload"
      pure existing.status
    | none => s.newUpload target temporary request htemporary

def findUpload (id : String) : ServiceM Upload := do
  match ← gets fun w => w.uploads.get? id with
  | some u => pure u
  | none => refuse .notFound "upload transfer is unknown"

def queryUpload (id : String) : ServiceM UploadStatus := do
  check (s.validateTransferId id)
  let upload ← findUpload id
  pure upload.status

def maxFileChunkSize : ℕ := 1024 * 1024

/-- The checks of a chunk before the registry is asked. -/
def checkChunk (request : WriteFileChunkRequest) : Except FileServiceError Unit := do
  ensure (request.encoding = 0 ∧ request.uncompressedSize = 0)
    ⟨.invalid, "file service requires decoded raw bytes"⟩
  s.validateTransferId request.transferId
  validateDigest request.sha256 false
  ensure (request.data ≠ []) ⟨.invalid, "file chunk is empty"⟩
  ensure (request.data.length ≤ maxFileChunkSize)
    ⟨.invalid, "file chunk exceeds " ++ toString maxFileChunkSize ++ " bytes"⟩
  ensure (s.platform.sha256 request.data = request.sha256)
    ⟨.checksumMismatch, "file chunk SHA-256 does not match its payload"⟩

/-- A chunk of an active upload that ends at `stop`. -/
def writeActive (upload : Upload) (request : WriteFileChunkRequest) (stop : ℕ)
    (hstop : stop ≤ upload.size) : ServiceM UploadStatus := do
  let file ← s.openUploadFile upload.temporary
  if request.offset < upload.committedOffset then do
    demand (stop ≤ upload.committedOffset) .conflict
      "file chunk partially overlaps the committed prefix"
    let existing ← s.readExactAt file request.offset request.data.length
    demand (existing = request.data) .conflict "replayed file chunk differs from committed data"
    pure upload.status
  else do
    demand (request.offset = upload.committedOffset) .conflict
      ("expected upload offset " ++ toString upload.committedOffset ++ ", received " ++
        toString request.offset)
    s.writeAllAt file request.offset request.data
    let upload := { upload with committedOffset := stop, committed_le := hstop }
    insertUpload request.transferId upload
    pure upload.status

/-- A chunk of an upload, in any state of it. -/
def writeChunk (request : WriteFileChunkRequest) : ServiceM UploadStatus := do
  check (s.checkChunk request)
  let upload ← findUpload request.transferId
  match upload.state with
  | .completed => pure upload.status
  | .aborted => refuse .conflict "upload was aborted"
  | .active => do
    let stop ← check (context (checkedAdd 64 request.offset request.data.length)
      ⟨.invalid, "file chunk offset overflow"⟩)
    if h : stop ≤ upload.size then s.writeActive upload request stop h
    else refuse .invalid "file chunk extends beyond the declared upload size"

/-- The complete temporary file has the expected digest, if there is one. -/
def verifyUpload (upload : Upload) : ServiceM Unit :=
  if upload.expectedSha256.length = 32 then do
    let digest ← s.sha256File upload.temporary
    demand (digest = upload.expectedSha256) .checksumMismatch
      "complete upload SHA-256 does not match"
  else pure ()

/-- The mode of the request, if it has one. -/
def setPermissions (upload : Upload) : ServiceM Unit :=
  if upload.mode ≠ 0 then
    s.sys ("cannot set permissions on " ++ s.display upload.temporary)
      (call (chmodBody (Tree.path upload.temporary) upload.mode))
  else pure ()

/-- The first call of a publication that may not overwrite. -/
def linkUpload (upload : Upload) : ServiceM Unit :=
  s.sys ("cannot commit upload " ++ s.display upload.temporary ++ " to " ++
      s.display upload.target ++ " without overwriting")
    (call (linkBody (Tree.path upload.temporary) (Tree.path upload.target)))

/-- The temporary file gets its name: in place of what was there, or as a new name for the file,
whose temporary name then goes. -/
def publishUpload (upload : Upload) : ServiceM Unit :=
  if upload.overwrite then
    s.sys ("cannot commit upload " ++ s.display upload.temporary ++ " to " ++
        s.display upload.target)
      (call (renameBody (Tree.path upload.temporary) (Tree.path upload.target)))
  else do
    s.linkUpload upload
    s.sys ("upload was published but temporary name " ++ s.display upload.temporary ++
        " could not be removed")
      (call (unlinkBody (Tree.path upload.temporary)))

/-- The directory of the target is synced; failures are ignored. -/
def syncParent (upload : Upload) : ServiceM Unit := do
  match ← s.sys "" (attempt (call (openBody (Tree.path upload.target.dropLast)))) with
  | .error _ => pure ()
  | .ok _ => do
    let _ ← s.sys "" (attempt (call (syncBody : Body FileName Unit)) :
      Effect (Os FileName) IoError (Except IoError Unit))
    pure ()

/-- A commit up to the publication. -/
def stageUpload (upload : Upload) : ServiceM Unit := do
  demand (upload.committedOffset = upload.size) .conflict
    ("upload is incomplete: committed " ++ toString upload.committedOffset ++ " of " ++
      toString upload.size ++ " bytes")
  s.verifyUpload upload
  let targetExists ← s.pathExists upload.target
  demand (¬ (targetExists = true ∧ upload.overwrite = false)) .conflict
    ("destination " ++ s.display upload.target ++ " already exists")
  let _ ← s.openUploadFile upload.temporary
  s.sys ("cannot sync upload " ++ s.display upload.temporary)
    (call (syncBody : Body FileName Unit))
  s.setPermissions upload

/-- The upload is staged, published and settled. -/
def commitActive (id : String) (upload : Upload) : ServiceM UploadStatus := do
  s.stageUpload upload
  s.publishUpload upload
  s.syncParent upload
  releaseUpload upload
  let upload := { upload with state := .completed, resources := none }
  insertUpload id upload
  pure upload.status

/-- A completed upload is not committed again. -/
def commitUpload (id : String) : ServiceM UploadStatus := do
  check (s.validateTransferId id)
  let upload ← findUpload id
  match upload.state with
  | .completed => pure upload.status
  | .aborted => refuse .conflict "upload was aborted"
  | .active => s.commitActive id upload

/-- The temporary name goes; it does not matter if it is not there. -/
def removeTemporary (upload : Upload) : ServiceM Unit := do
  match ← s.sys "" (attempt (call (unlinkBody (Tree.path upload.temporary)))) with
  | .ok _ => pure ()
  | .error e => do
    require (e = .notFound)
      (s.ioError ("cannot remove upload " ++ s.display upload.temporary) e)

/-- Only an active upload is aborted. -/
def abortUpload (id : String) : ServiceM UploadStatus := do
  check (s.validateTransferId id)
  let upload ← findUpload id
  match upload.state with
  | .active => do
    s.removeTemporary upload
    releaseUpload upload
    let upload := { upload with state := .aborted, resources := none }
    insertUpload id upload
    pure upload.status
  | _ => pure upload.status

end Service

/-! ## Downloads -/

inductive FileKind where
  | regular
  | directory
  | symlink
  | other
  deriving DecidableEq

structure FileMetadata where
  path : List UInt8
  name : List UInt8
  kind : FileKind
  size : ℕ
  mode : ℕ
  modifiedUnixNs : ℕ
  deriving DecidableEq

/-- `metadata.mtime()` saturates as a signed 64-bit number of nanoseconds. -/
def fileMetadata (p : Location FileName) (metadata : Metadata FileName) : FileMetadata where
  path := pathBytes p
  name := (p.getLast?.map Subtype.val).getD (pathBytes p)
  kind :=
    match metadata.kind with
    | .regular => .regular
    | .directory => .directory
    | .symlink _ => .symlink
    | .other => .other
  size := metadata.len
  mode := metadata.mode &&& 0o7777
  modifiedUnixNs := min metadata.mtime (2 ^ 63 - 1)

/-- The eight bytes of a number, the most significant first. -/
def beBytes (n : ℕ) : List UInt8 := (List.range 8).map fun i => UInt8.ofNat (n / 256 ^ (7 - i))

namespace Service

/-- What identifies a version of a file. -/
def fileSnapshot (p : Location FileName) (metadata : Metadata FileName) : List UInt8 :=
  s.platform.sha256 (pathBytes p ++ beBytes s.platform.dev ++ beBytes metadata.ino ++
    beBytes metadata.len ++ beBytes (metadata.mtime / 10 ^ 9) ++ beBytes (metadata.mtime % 10 ^ 9))

structure BeginDownloadResponse where
  metadata : FileMetadata
  snapshot : List UInt8
  sha256 : List UInt8
  maxChunkSize : ℕ
  deriving DecidableEq

/-- The snapshot of a file, and its digest if wanted. -/
def beginDownload (path : List UInt8) (wantSha256 : Bool) : ServiceM BeginDownloadResponse := do
  let p ← s.resolveExisting path true
  let metadata ← s.sys ("cannot stat " ++ s.display p) (call (metadataBody true (Tree.path p)))
  demand (metadata.kind = .regular) .invalid (s.display p ++ " is not a regular file")
  let sha256 ← if wantSha256 then s.sha256File p else pure []
  pure ⟨fileMetadata p metadata, s.fileSnapshot p metadata, sha256, maxFileChunkSize⟩

structure ReadFileChunkRequest where
  path : List UInt8
  snapshot : List UInt8
  offset : ℕ
  length : ℕ

structure FileChunkResponse where
  offset : ℕ
  sha256 : List UInt8
  data : List UInt8
  eof : Bool
  deriving DecidableEq

/-- A chunk of a file that is still the snapshot. -/
def readChunk (request : ReadFileChunkRequest) : ServiceM FileChunkResponse := do
  demand (request.snapshot.length = 32) .invalid "download snapshot must be a SHA-256 value"
  let length := min request.length maxFileChunkSize
  demand (length ≠ 0) .invalid "download chunk length is zero"
  let p ← s.resolveExisting request.path true
  let file ← s.sys ("cannot open " ++ s.display p) (call (openBody (Tree.path p)))
  let metadata ← s.sys ("cannot stat " ++ s.display p) (call (fstatBody file))
  demand (metadata.kind = .regular) .invalid (s.display p ++ " is not a regular file")
  demand (s.fileSnapshot p metadata = request.snapshot) .conflict
    "remote file changed while it was being downloaded"
  demand (request.offset ≤ metadata.len) .invalid "download offset is beyond end of file"
  let requested := min (metadata.len - request.offset) length
  s.sys ("cannot seek file to offset " ++ toString request.offset) (call (seekBody request.offset))
  let data ← s.sys ("cannot read file at offset " ++ toString request.offset)
    (readUpTo file requested request.offset requested)
  pure ⟨request.offset, s.platform.sha256 data, data, metadata.len ≤ request.offset + data.length⟩

/-! ## Directories and names -/

def stat (path : List UInt8) (followSymlinks : Bool) : ServiceM FileMetadata := do
  let p ← s.resolveExisting path followSymlinks
  let metadata ← s.sys ("cannot stat " ++ s.display p)
    (call (metadataBody followSymlinks (Tree.path p)))
  pure (fileMetadata p metadata)

structure FileListRequest where
  path : List UInt8
  cursor : List UInt8
  limit : ℕ

structure FileListResponse where
  entries : List FileMetadata
  nextCursor : List UInt8
  deriving DecidableEq

def maxDirectoryPageSize : ℕ := 500

/-- The entries after the cursor, up to the limit, and whether there are more. -/
def listPage (directory : Location FileName) (cursor : List UInt8) (limit : ℕ) :
    List FileName → List FileMetadata → ServiceM (List FileMetadata × Bool)
  | [], page => pure (page, false)
  | name :: names, page =>
    if cursor ≠ [] ∧ name.1 ≤ cursor then listPage directory cursor limit names page
    else if page.length = limit then pure (page, true)
    else do
      let p := directory ++ [name]
      let metadata ← s.sys ("cannot stat " ++ s.display p)
        (call (metadataBody false (Tree.path p)))
      listPage directory cursor limit names (page ++ [fileMetadata p metadata])

/-- A page of a directory, in the order of the names. -/
def list (request : FileListRequest) : ServiceM FileListResponse := do
  let directory ← s.resolveExisting request.path true
  let metadata ← s.sys ("cannot stat " ++ s.display directory)
    (call (metadataBody true (Tree.path directory)))
  demand (metadata.kind = .directory) .invalid (s.display directory ++ " is not a directory")
  let limit := if request.limit = 0 then 100 else min request.limit maxDirectoryPageSize
  let (_, names) ← s.sys ("cannot read directory " ++ s.display directory)
    (call (readDirBody (Tree.path directory)))
  let names := names.insertionSort fun a b => a.1 ≤ b.1
  let (page, hasMore) ← s.listPage directory request.cursor limit names []
  let nextCursor := if hasMore then (page.getLast?.map FileMetadata.name).getD [] else []
  pure ⟨page, nextCursor⟩

def makeDirectory (raw : List UInt8) : ServiceM Unit := do
  let p ← s.resolveNew raw
  s.sys ("cannot create directory " ++ s.display p) (call (mkdirBody (Tree.path p) 0o777))

def remove (raw : List UInt8) : ServiceM Unit := do
  let p ← s.resolveExisting raw false
  demand (p ≠ s.root) .invalid "cannot remove file root"
  let metadata ← s.sys ("cannot stat " ++ s.display p) (call (metadataBody false (Tree.path p)))
  s.sys ("cannot remove " ++ s.display p)
    (if metadata.kind = .directory then call (rmdirBody (Tree.path p))
      else call (unlinkBody (Tree.path p)))

/-- What a rename does before it asks whether its destination exists. -/
def renamePaths (source destination : List UInt8) :
    ServiceM (Location FileName × Location FileName) := do
  let source ← s.resolveExisting source false
  let destination ← s.resolveNew destination
  demand (source ≠ s.root) .invalid "cannot rename file root"
  pure (source, destination)

/-- A destination that exists is refused or replaced. -/
def rename (source destination : List UInt8) (overwrite : Bool) : ServiceM Unit := do
  let (source, destination) ← s.renamePaths source destination
  let destinationExists ← s.pathExists destination
  demand (¬ (destinationExists = true ∧ overwrite = false)) .conflict
    ("destination " ++ s.display destination ++ " already exists")
  s.sys ("cannot rename " ++ s.display source ++ " to " ++ s.display destination)
    (call (renameBody (Tree.path source) (Tree.path destination)))

end Service

/-! ## Requests -/

/-- The requests of a client. -/
inductive Request where
  | beginUpload (request : BeginUploadRequest)
  | queryUpload (id : String)
  | writeChunk (request : WriteFileChunkRequest)
  | commitUpload (id : String)
  | abortUpload (id : String)
  | beginDownload (path : List UInt8) (wantSha256 : Bool)
  | readChunk (request : Service.ReadFileChunkRequest)
  | stat (path : List UInt8) (followSymlinks : Bool)
  | list (request : Service.FileListRequest)
  | makeDirectory (path : List UInt8)
  | remove (path : List UInt8)
  | rename (source destination : List UInt8) (overwrite : Bool)

/-- The answers to them. -/
inductive Response where
  | upload (status : UploadStatus)
  | download (response : Service.BeginDownloadResponse)
  | chunk (response : Service.FileChunkResponse)
  | metadata (response : FileMetadata)
  | listing (response : Service.FileListResponse)
  | done
  deriving DecidableEq

namespace Service

/-- The answer to a request. -/
def serve : Request → ServiceM Response
  | .beginUpload request => do return .upload (← s.beginUpload request)
  | .queryUpload id => do return .upload (← s.queryUpload id)
  | .writeChunk request => do return .upload (← s.writeChunk request)
  | .commitUpload id => do return .upload (← s.commitUpload id)
  | .abortUpload id => do return .upload (← s.abortUpload id)
  | .beginDownload path wantSha256 => do return .download (← s.beginDownload path wantSha256)
  | .readChunk request => do return .chunk (← s.readChunk request)
  | .stat path followSymlinks => do return .metadata (← s.stat path followSymlinks)
  | .list request => do return .listing (← s.list request)
  | .makeDirectory path => do s.makeDirectory path; return .done
  | .remove path => do s.remove path; return .done
  | .rename source destination overwrite => do s.rename source destination overwrite; return .done

/-- A request whose calls meet these faults. -/
def serveWith (request : Request) (faults : List Fault) (w : World) :
    Except FileServiceError Response × World :=
  s.serve request (w.facing faults)

end Service

/-! ## A small machine -/

/-- A platform whose digest tells one byte string from all others. -/
def Platform.telling (bytes : List UInt8) : Platform where
  sha256 := fun other => List.replicate 32 (if other = bytes then 1 else 0)
  sha256_length := fun _ => List.length_replicate
  parsesUuid := fun _ => false
  display := fun _ => ""
  ioText := fun _ => ""
  dev := 0

/-- A disk with a root directory. -/
def emptyTree : FileTree.Tree FileName where
  entry := fun _ => none
  listed := []
  rootIno := 0
  nextIno := 1
  complete := nofun
  fresh := nofun
  root_fresh := Nat.zero_lt_one

def World.ofTree (tree : FileTree.Tree FileName) : World where
  os := ⟨⟨tree, fun _ => ⟨[], 0, 0, 0⟩, 0⟩, []⟩
  uploads := OrdMap.empty
  pools := []

end AstraShell.Files
