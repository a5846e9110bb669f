import AstraShell.Attach.Converge
import AstraShell.Attach.Boundary
import AstraShell.Worker.Paid
import AstraShell.Worker.Idle
import AstraShell.Negotiation.Hello
import AstraShell.KnownHosts.Trust
import AstraShell.Client.Input
import AstraShell.Client.Final
import AstraShell.Client.Download
import AstraShell.Protocol.Auth
import AstraShell.Queued.Drained
import AstraShell.Terminal.Notice
import AstraShell.Terminal.Blocking
import AstraShell.Streaming.Hostile
import AstraShell.Streaming.Kept
import AstraShell.Chunked.Bounds
import AstraShell.Chunked.RoundTrip
import AstraShell.Streaming.Fragments
import AstraShell.Client.Mailbox
import AstraShell.Files.Quota
import AstraShell.Files.Rename
import AstraShell.Files.Retry
import AstraShell.Terminal.Memory
import AstraShell.Session.Catalog
import AstraShell.Engine.Paging
import AstraShell.Render.Hyperlinks
