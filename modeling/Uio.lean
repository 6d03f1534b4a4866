import Uio.Uws.Codec
import Uio.Layer.Reach
import Uio.Layer.Early
import Uio.Layer.Room
import Uio.Layer.Shut
import Uio.Conn.Turns
import Uio.Uws.Takeover
import Uio.Timewheel.Exact
import Uio.Uws.Pauses
import Uio.Uws.TransportClose
import Uio.Bridge.Orphans
import Uio.Umux.Drain
import Uio.Umux.Ids
import Uio.Umux.Callbacks
import Uio.Umux.Narrow
import Uio.Umux.Framing
import Uio.Shardpool.Served
import Uio.Uws.Negotiate
import Uio.Uws.Replies
import Uio.Uws.Encoders
import Uio.Uws.ShortFrames
import Uio.Uws.HeartbeatWake
import Uio.Uws.HeartbeatMarks
import Uio.Layer.Goodbyes
import Uio.Uws.Client
import Uio.Uws.Fragments
import Uio.Uws.Rendezvous
import Uio.Conn.Deadlines
