import Vela.Crypto.Credential
import Vela.Proto.Control
import Vela.Lib.Tables

/-!
# The coordinator's state and its lock sections

`vela-coord`: the tables of the database, the in-memory maps of the server, and the sections in which
they are read and written.  Each section is one critical section of the source (or one atomic
access), executed by `exec` on the whole state; the answers that do not come from the state (clock,
database faults, whether a channel is still open) come from `Env`.
-/

namespace Vela.Coord

open Vela.Proto Vela.Crypto Codec

/-- The row of a node in the table `peers`. -/
structure PeerRow where
  signingPublic : Vector UInt8 32
  noisePublic : Vector UInt8 32
  incarnation : UInt64
  candidates : List Candidate
  virtualIpv4 : Option Ipv4Addr
  virtualIpv6 : Option Ipv6Addr
  credential : List UInt8
  capabilities : List PeerCapability
  revoked : Bool
  name : String
  notes : String
  lastSeen : Int
  deriving DecidableEq

/-- The row of an invite token's hash in the table `invites`. -/
structure InviteRow where
  expiresAt : Int
  used : Bool
  id : String
  name : String
  notes : String
  createdAt : Int
  revoked : Bool
  downloadTokenHash : Option (Vector UInt8 32)
  downloadUsed : Bool
  deriving DecidableEq

structure StoredPeer where
  nodeId : NodeId
  incarnation : UInt64
  name : String
  signingPublic : Vector UInt8 32
  noisePublic : Vector UInt8 32
  candidates : List Candidate
  virtualIpv4 : Option Ipv4Addr
  virtualIpv6 : Option Ipv6Addr
  credential : List UInt8
  capabilities : List PeerCapability
  lastSeen : UInt64
  deriving DecidableEq

structure InviteRegistration where
  name : String
  notes : String
  credential : MembershipCredential
  deriving DecidableEq

/-- What `create_invite` hands to the administrator. -/
structure CreatedInvite where
  id : String
  inviteToken : String
  downloadToken : String
  name : String
  notes : String
  createdAt : UInt64
  expiresAt : UInt64
  deriving DecidableEq

structure ServerNetworkConfig where
  dohServers : List String
  stunServers : List String
  deriving DecidableEq

inductive CoordError where
  | database (message : String)
  | databasePoisoned
  | serialization (message : String)
  | invalidPeer
  | addressPoolExhausted
  | snapshotGenerationOverflow
  | inviteRequired
  | invalidInvite
  | inviteExpired
  | invalidCredential
  | peerNotRegistered
  | notRegistered
  | unsupportedMessage
  | connectionClosed
  deriving DecidableEq

/-- The text of an error. -/
def CoordError.toText : CoordError → String
  | .database message => "database error: " ++ message
  | .databasePoisoned => "database mutex poisoned"
  | .serialization message => "serialization error: " ++ message
  | .invalidPeer => "invalid peer"
  | .addressPoolExhausted => "virtual address pool is exhausted"
  | .snapshotGenerationOverflow => "snapshot generation counter is exhausted"
  | .inviteRequired => "invite token required"
  | .invalidInvite => "invalid invite token"
  | .inviteExpired => "invite token expired or already used"
  | .invalidCredential => "invalid membership credential"
  | .peerNotRegistered => "peer is not registered"
  | .notRegistered => "connection is not registered"
  | .unsupportedMessage => "unsupported control message"
  | .connectionClosed => "connection closed"

def errorMessage (code message : String) : ControlMessage := .error code message

def CoordError.asControl (error : CoordError) : ControlMessage :=
  errorMessage "server_error" error.toText

/-- What the history of a run records. -/
inductive Event where
  /-- `revoke_peer_inner` or `delete_peer_inner` took the row of the node out -/
  | removed (nodeId : NodeId)
  /-- `register_with_invite` returned `Ok` for the node -/
  | invited (nodeId : NodeId)
  deriving DecidableEq

structure CoordState where
  peers : AList fun _ : NodeId => PeerRow
  invites : AList fun _ : Vector UInt8 32 => InviteRow
  /-- the row `snapshot_generation` of the table `metadata` -/
  storedGeneration : Int
  /-- the connections that are online for a node -/
  online : AList fun _ : NodeId => List UInt64
  runtimeStatus : AList fun _ : NodeId => AList fun _ : UInt64 => UInt16
  snapshotGeneration : UInt64
  broadcastPending : Bool
  broadcastRunning : Bool
  networkConfig : ServerNetworkConfig
  /-- broadcast loops that were spawned and have not started yet -/
  spawned : ℕ
  /-- everything put into the control channels of connections, the latest first -/
  sent : List (UInt64 × ControlMessage)
  /-- everything put into the snapshot channels of connections, the latest first -/
  pushed : List (UInt64 × NetworkSnapshot)
  /-- the history, the latest first -/
  log : List Event

/-- The row of `n` that queries with `revoked = 0` see. -/
def CoordState.liveRow (s : CoordState) (n : NodeId) : Option PeerRow :=
  (s.peers.lookup n).filter fun row => !row.revoked

structure Server where
  tenant : String
  signer : ServerSigner

/-- The environment's part in one section. -/
structure Env where
  /-- the successive reads of the clock within the section -/
  clock : ℕ → UInt64
  /-- the database call fails and changes nothing -/
  fault : Option CoordError
  /-- the receiving end of the channel is still there -/
  isOpen : Bool

inductive Section where
  /-- the next message of a connection is taken up -/
  | recv (connection : UInt64) (message : ControlMessage)
  | unixTime
  | registerWithInvite (nodeId : NodeId) (signingPublic noisePublic : Vector UInt8 32)
      (token : String)
  /-- the query of `Register` for the stored credential of a live row -/
  | selectCredential (nodeId : NodeId)
  | loadPeer (nodeId : NodeId)
  | loadPeers
  | allocateVirtualIpv4 (nodeId : NodeId)
  | updatePeer (peer : StoredPeer)
  | updatePeerMetadata (nodeId : NodeId) (name notes : String)
  | touchPeer (nodeId : NodeId)
  | bumpSnapshot
  | networkConfig
  /-- `update_network_config` stores a configuration that differs from the current one -/
  | updateNetworkConfig (config : ServerNetworkConfig)
  | loadGeneration
  /-- `Register` enters the connection into `online` -/
  | onlineInsert (nodeId : NodeId) (connection : UInt64)
  | onlinePeerIds
  /-- `LookupPeer` reads the connections of the target -/
  | onlineSessions (nodeId : NodeId)
  /-- `ListPeers` reads the peers while it holds `online` -/
  | listPeers
  /-- a message is put into the control channel of a connection -/
  | send (connection : UInt64) (message : ControlMessage)
  | broadcastSchedule
  | broadcastSpawn
  | runtimeInsert (nodeId : NodeId) (connection : UInt64) (virtualMtu : UInt16)
  | onlineLeave (nodeId : NodeId) (connection : UInt64)
  | runtimeLeave (nodeId : NodeId) (connection : UInt64)
  /-- `UPDATE peers SET revoked = 1 ...` of `revoke_peer_inner` -/
  | revokeRow (nodeId : NodeId)
  /-- `DELETE FROM peers ...` of `delete_peer_inner` -/
  | deleteRow (nodeId : NodeId)
  /-- `disconnect_peer` takes the connections of the node out of `online` -/
  | onlineRemove (nodeId : NodeId)
  /-- the broadcast loop looks for a pending broadcast -/
  | broadcastTake
  | broadcastRetain
  | broadcastContinue
  /-- `broadcast_snapshot_now` reads the connections and the online nodes -/
  | onlineSenders
  /-- a snapshot replaces the value of a connection's snapshot channel -/
  | push (connection : UInt64) (snapshot : NetworkSnapshot)
  /-- `INSERT INTO invites ...` of `create_invite` -/
  | insertInvite (tokenHash : Vector UInt8 32) (row : InviteRow)
  | consumeDownloadToken (token : String)
  /-- `UPDATE invites SET revoked = 1 ...` of `delete_invite` -/
  | deleteInvite (id : String)

abbrev Response : Section → Type
  | .recv _ _ => Unit
  | .unixTime => UInt64
  | .registerWithInvite _ _ _ _ => Except CoordError InviteRegistration
  | .selectCredential _ => Except CoordError (Option (List UInt8))
  | .loadPeer _ => Except CoordError (Option StoredPeer)
  | .loadPeers => Except CoordError (List StoredPeer)
  | .allocateVirtualIpv4 _ => Except CoordError Ipv4Addr
  | .updatePeer _ => Except CoordError Unit
  | .updatePeerMetadata _ _ _ => Except CoordError Bool
  | .touchPeer _ => Except CoordError Unit
  | .bumpSnapshot => Except CoordError Unit
  | .networkConfig => Except CoordError ServerNetworkConfig
  | .updateNetworkConfig _ => Except CoordError Bool
  | .loadGeneration => UInt64
  | .onlineInsert _ _ => Bool
  | .onlinePeerIds => List NodeId
  | .onlineSessions _ => List UInt64
  | .listPeers => Except CoordError (List StoredPeer × List NodeId)
  | .send _ _ => Bool
  | .broadcastSchedule => Bool
  | .broadcastSpawn => Unit
  | .runtimeInsert _ _ _ => Unit
  | .onlineLeave _ _ => Bool
  | .runtimeLeave _ _ => Unit
  | .revokeRow _ => Except CoordError Bool
  | .deleteRow _ => Except CoordError Bool
  | .onlineRemove _ => List UInt64
  | .broadcastTake => Bool
  | .broadcastRetain => Unit
  | .broadcastContinue => Bool
  | .onlineSenders => List UInt64 × List NodeId
  | .push _ _ => Unit
  | .insertInvite _ _ => Except CoordError Unit
  | .consumeDownloadToken _ => Except CoordError Bool
  | .deleteInvite _ => Except CoordError Bool

end Vela.Coord
