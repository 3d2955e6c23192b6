import P2PStream.Webm.Tiling
import P2PStream.Webm.Receiver
import P2PStream.Node.Wire
import P2PStream.Node.NodesList
import P2PStream.Node.Join
import P2PStream.Node.Receive
import P2PStream.Node.Members
import P2PStream.Node.ParentBit
import P2PStream.Node.Ending
import P2PStream.Node.Layers
import P2PStream.Node.Address
import P2PStream.Node.ResList
import P2PStream.Node.Offset
import P2PStream.Node.Retry
import P2PStream.Node.Fits
import P2PStream.Node.Elapsed
import P2PStream.Node.Closest
import P2PStream.Node.Search
import P2PStream.Node.Admission
import P2PStream.Node.Checksum
import P2PStream.Webm.SizeField
import P2PStream.Webm.Forward
import P2PStream.Webm.Inside
import P2PStream.Webm.Grammar
import P2PStream.Webm.Pieces
import P2PStream.Webm.Shown
import P2PStream.Origin.Overrun
import P2PStream.Origin.Startup
import P2PStream.Origin.ReadBlock
import P2PStream.Overlay.Copies
import P2PStream.Overlay.Ids
import P2PStream.Overlay.Handover
import P2PStream.Overlay.Tree
import P2PStream.Overlay.Frames
import P2PStream.Node.Silence
import P2PStream.Webm.Unknown
import P2PStream.Origin.Ahead
import P2PStream.Origin.Capture
import P2PStream.Origin.Sent
import P2PStream.Peer.Stream
import P2PStream.Overlay.Stream
import P2PStream.Overlay.Catchup
import P2PStream.Overlay.Relays
import P2PStream.Peer.Serve
