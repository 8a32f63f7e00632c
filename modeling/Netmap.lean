import Netmap.Ring
import Netmap.Sendmsg
import Netmap.SendmsgLayout
import Netmap.Recvmsg
import Netmap.RecvmsgPacket
import Netmap.Cursor
import Netmap.RoundTrip
import Netmap.Mitigation
import Netmap.Termination
import Netmap.CopyFaults
import Netmap.Socket
import Netmap.SocketLifetime
import Netmap.Device
import Netmap.Steering
