import Vela.Coord.Credentials
import Vela.Coord.Generations
import Vela.Coord.Instances
import Vela.Coord.Invites
import Vela.Coord.Revocation
import Vela.Coord.Silence
import Vela.Core.Authentication
import Vela.Core.Datagram
import Vela.Core.Entries
import Vela.Core.Flush
import Vela.Core.Migration
import Vela.Core.Ordering
import Vela.Core.PeerMtu
import Vela.Core.Reconnect
import Vela.Crypto.Handshake
import Vela.Runtime.Confirmation
import Vela.Runtime.Published
import Vela.Runtime.Pushes
import Vela.Runtime.Steering
import Vela.Stack.Ports
