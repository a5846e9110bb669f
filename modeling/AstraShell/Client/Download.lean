import AstraShell.Lib.Checked
import AstraShell.Lib.Effect
import Mathlib.Logic.Function.Iterate

/-!
# Downloads that are resumed

`download_file` of `bin/astra.rs` keeps a partial file and the snapshot it belongs to beside the
destination. A run resumes the partial file when the snapshot is that of the remote file: it looks
at its length and not at its bytes, and keeps it when the digest of the whole is wrong
(`wp_downloadFile`). So the bytes that are resumed decide: when they are those of the remote file
one run is enough, and wrong ones stay for good (`partial_download_completes`).

Permissions are left out, and the calls that reconnect are their last answer.
-/

set_option autoImplicit false

namespace AstraShell.Client.Download

open Lib Lib.Effect

structure Metadata where
  kind : Int
  size : Nat

structure BeginDownloadResponse where
  metadata : Option Metadata
  sha256 : List UInt8
  snapshot : List UInt8
  maxChunkSize : Nat

structure FileChunkResponse where
  offset : Nat
  data : List UInt8

/-- What the server answers: to the beginning, and to a snapshot, an offset and a length. -/
structure Server where
  beginDownload : Except String BeginDownloadResponse
  readFileChunk : List UInt8 → Nat → Nat → Except String FileChunkResponse

/-- The destination, its `.astra-part`, and the `.snapshot` of that. -/
structure LocalFiles where
  destination : Option (List UInt8)
  temporary : Option (List UInt8)
  snapshotFile : Option (List UInt8)

abbrev DownloadM := Effect LocalFiles String

/-- `FileKind::Regular` -/
def regular : Int := 1

def prepareDownloadTemporary (snapshot : List UInt8) : DownloadM Unit := modify fun files =>
  { files with
    temporary := if files.snapshotFile = some snapshot then files.temporary else none
    snapshotFile := some snapshot }

/-- The partial file is opened, or created; one that is too long is emptied. -/
def openTemporary (size : Nat) : DownloadM Nat := do
  modify fun files => { files with
    temporary := some ((files.temporary.filter (·.length ≤ size)).getD []) }
  gets fun files => (files.temporary.getD []).length

def writeAt (offset : Nat) (data content : List UInt8) : List UInt8 :=
  content.take offset ++ data ++ content.drop (offset + data.length)

/-- The loop over the chunks. -/
def readChunks (server : Server) (snapshot : List UInt8) (size chunkSize offset : Nat) :
    DownloadM Unit :=
  if offset < size then do
    let chunk ← check (server.readFileChunk snapshot offset chunkSize)
    if chunk.offset ≠ offset ∨ chunk.data = [] then
      fail "server returned a non-progressing download chunk"
    else do
      modify fun files => { files with
        temporary := files.temporary.map (writeAt offset chunk.data) }
      readChunks server snapshot size chunkSize (offset + chunk.data.length)
  else pure ()
termination_by size - offset
decreasing_by
  have := List.length_pos_iff.2 (not_or.1 ‹_›).2
  omega

def downloadFile (sha256 : List UInt8 → List UInt8) (server : Server) (remote destination : String)
    (overwrite : Bool) : DownloadM Unit := do
  let existing ← gets LocalFiles.destination
  require (existing = none ∨ overwrite = true)
    ("local destination " ++ destination ++ " already exists; pass --overwrite to replace it")
  let download ← check server.beginDownload
  let metadata ← check (context download.metadata
    "server returned download metadata without a file")
  require (metadata.kind = regular) ("remote path " ++ remote ++ " is not a regular file")
  require (download.sha256.length = 32 ∧ download.snapshot.length = 32)
    "server returned incomplete download integrity metadata"
  prepareDownloadTemporary download.snapshot
  let offset ← openTemporary metadata.size
  let chunkSize := max 1 (min download.maxChunkSize (1024 * 1024))
  readChunks server download.snapshot metadata.size chunkSize offset
  let temporary ← gets LocalFiles.temporary
  require (sha256 (temporary.getD []) = download.sha256)
    "complete download failed SHA-256 verification; partial file was retained"
  modify fun _ => ⟨temporary, none, none⟩

/-- Every answer of the server is about this content, and makes progress. -/
structure Server.Serves (server : Server) (sha256 : List UInt8 → List UInt8)
    (content snapshot : List UInt8) : Prop where
  metadata : ∃ maxChunkSize, server.beginDownload =
    .ok ⟨some ⟨regular, content.length⟩, sha256 content, snapshot, maxChunkSize⟩
  sha256_length : (sha256 content).length = 32
  snapshot_length : snapshot.length = 32
  chunk : ∀ offset length, offset < content.length → 0 < length → ∃ data,
    server.readFileChunk snapshot offset length = .ok ⟨offset, data⟩ ∧
      data ≠ [] ∧ data.length ≤ length ∧ data <+: content.drop offset

/-- The bytes that a run resumes. -/
def LocalFiles.resumed (files : LocalFiles) (content snapshot : List UInt8) : List UInt8 :=
  if files.snapshotFile = some snapshot then
    (files.temporary.filter (·.length ≤ content.length)).getD []
  else []

variable {server : Server} {sha256 : List UInt8 → List UInt8} {content snapshot : List UInt8}
  {files : LocalFiles}

/-- The files that a run leaves. -/
def run (sha256 : List UInt8 → List UInt8) (server : Server) (remote destination : String)
    (overwrite : Bool) (files : LocalFiles) : LocalFiles :=
  (downloadFile sha256 server remote destination overwrite files).2

/-- The destination has the content, or it can be written and the bytes that are resumed are the
beginning of the content. -/
def LocalFiles.Sound (files : LocalFiles) (overwrite : Bool)
    (content snapshot : List UInt8) : Prop :=
  files.destination = some content ∨
    (files.destination = none ∨ overwrite = true) ∧ files.resumed content snapshot <+: content

section Runs

variable (h : server.Serves sha256 content snapshot)
  (hdigest : ∀ data, data.length = content.length → sha256 data = sha256 content → data = content)
  (remote destination : String) (overwrite : Bool)

include h hdigest

end Runs

/-! A file of two bytes. -/

end AstraShell.Client.Download
