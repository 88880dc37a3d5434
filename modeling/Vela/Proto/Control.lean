import Vela.Proto.Types

/-!
# Control messages

`ControlMessage` of `vela-proto` with the peer descriptions it carries.
-/

namespace Vela.Proto

/-- A peer as the control plane describes it: keys and credential in Base64. -/
structure PublicPeerInfo where
  nodeId : NodeId
  incarnation : UInt64
  signingPublic : String
  noisePublic : String
  candidates : List Candidate
  virtualIpv4 : Option Ipv4Addr
  virtualIpv6 : Option Ipv6Addr
  credential : String
  capabilities : List PeerCapability
  deriving DecidableEq, Repr

structure PeerSummary where
  nodeId : NodeId
  name : String
  online : Bool
  lastSeen : Option UInt64
  virtualIpv4 : Option Ipv4Addr
  virtualIpv6 : Option Ipv6Addr
  capabilities : List PeerCapability
  deriving DecidableEq, Repr

/-- The fields of `ControlMessage::Register`. -/
structure Registration where
  nodeId : NodeId
  incarnation : UInt64
  signingPublic : String
  noisePublic : String
  credential : String
  inviteToken : Option String
  candidates : List Candidate
  capabilities : List PeerCapability
  deriving DecidableEq, Repr

inductive ControlMessage where
  | register (request : Registration)
  | registerOk (credential : String) (peers : List PublicPeerInfo) (snapshot : NetworkSnapshot)
  | updateCandidates (candidates : List Candidate)
  | runtimeStatus (virtualMtu : UInt16)
  | requestSnapshot
  | lookupPeer (nodeId : NodeId)
  | peerInfo (peer : PublicPeerInfo)
  | listPeers
  | listPeersOk (peers : List PeerSummary)
  | connectSignal (source : PublicPeerInfo) (target : NodeId)
  | revoke (nodeId : NodeId)
  | snapshot (snapshot : NetworkSnapshot)
  | snapshotResponse (snapshot : NetworkSnapshot)
  | error (code message : String)
  | ping (nonce : UInt64)
  | pong (nonce : UInt64)
  deriving DecidableEq, Repr

end Vela.Proto
