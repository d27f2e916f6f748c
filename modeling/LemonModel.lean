import LemonModel.Base.Dict
import LemonModel.Transport.Sends
import LemonModel.Transport.Moves
import LemonModel.Transport.Once
import LemonModel.Transport.Terminal
import LemonModel.Transport.Outgoing
import LemonModel.Transport.Outcome
import LemonModel.Socket.Backoff
import LemonModel.Transport.Delivery
import LemonModel.Transport.Isolation
import LemonModel.Transport.Partial
import LemonModel.Transport.Reorder
import LemonModel.Transport.Paths
import LemonModel.Socket.Atomic
import LemonModel.Socket.Detached
import LemonModel.Socket.Symmetry
import LemonModel.Transport.Honoured
import LemonModel.Socket.Correlation
import LemonModel.Socket.Finite
import LemonModel.Socket.Settled
import LemonModel.Sync.Converge
import LemonModel.Sync.SafetyNet
import LemonModel.Sync.Settles
import LemonModel.Buffer.Terminate
import LemonModel.Buffer.Conserve
import LemonModel.Buffer.Sequence
import LemonModel.Progress.Consumer
import LemonModel.Progress.NoLoss
import LemonModel.Transport.Budget
import LemonModel.LogTrace.Contents
import LemonModel.Upload.Slots
import LemonModel.GenAI.Receiver
import LemonModel.Sync.Ticker
import LemonModel.Socket.Multi
import LemonModel.Socket.WebSocket
import LemonModel.Transport.Stray
import LemonModel.Transport.Evict
import LemonModel.Sync.Mirror
import LemonModel.Sync.Frozen
import LemonModel.Transport.Recover
import LemonModel.Transport.Success
import LemonModel.Buffer.Receiver
import LemonModel.Buffer.Stranded
import LemonModel.Buffer.Token
import LemonModel.Progress.Contained
import LemonModel.LogTrace.Budget
import LemonModel.LogTrace.Loss
import LemonModel.LogTrace.Handlers
import LemonModel.Upload.Bar
import LemonModel.Transport.Addresses
import LemonModel.Upload.Completions
import LemonModel.Progress.Shown
import LemonModel.Socket.Shared
import LemonModel.Upload.Shipped
import LemonModel.Buffer.Mock
import LemonModel.LogTrace.Viewed
import LemonModel.Transport.Pipe
import LemonModel.Socket.Handshake
import LemonModel.Upload.Filled
