import Vela.Runtime.State

/-!
# The client of the coordinator

`CoordinationClient` of `vela-coord-client` as programs over the sections of `Vela.Runtime.State`.
While a request waits for its reply, other messages may come first: each request says which of them
are kept for later, dropped or refused (`awaitReply`).  The time of a request bounds its loop; the
model bounds it by `fuel` as well, and running out of either is a timeout.
-/

namespace Vela.Runtime

open Vela.Proto Vela.Crypto Codec

/-- Programs of the runtime that always return. -/
abbrev Task := Prog Section Response

/-- Programs of the client; `?` is the monad's bind. -/
abbrev ClientM := ExceptT CoordClientError Task

variable (suite : Suite) (peer : Peer) (fuel : ℕ)

/-! ### Calls -/

/-- One section. -/
def call (c : Section) : Task (Response c) := Prog.call c

/-- A program that cannot fail. -/
def lift {ε α : Type} (p : Task α) : ExceptT ε Task α := ExceptT.lift p

/-- A program whose result is a `Result`. -/
def attempt {ε α : Type} (p : Task (Except ε α)) : ExceptT ε Task α := ExceptT.mk p

/-- A computation without a section. -/
def ofExcept {ε α : Type} (r : Except ε α) : ExceptT ε Task α := ExceptT.mk (.ret r)

/-- The errors of one crate as errors of another, as `?` converts them. -/
def mapError {ε ε' α : Type} (f : ε → ε') (p : ExceptT ε Task α) : ExceptT ε' Task α :=
  ExceptT.mk do return (← p.run).mapError f

namespace CoordinationClient

def send (request : Option String) (message : ControlMessage) : ClientM Unit :=
  attempt (call (.send request message))

def recvWire (request : Option String) : ClientM ControlMessage :=
  attempt (call (.recvWire request))

/-- `recv`, within the time of a request or not. -/
def recvWithin (request : Option String) : ClientM ControlMessage := do
  match ← lift (call .popPending) with
  | some message => return message
  | none => recvWire request

def recv : ClientM ControlMessage := recvWithin none

end CoordinationClient

/-! ### Records of peers -/

def decodeBase64 (value : String) : Except ProtoError (List UInt8) :=
  match suite.base64Decode value with
  | some bytes => .ok bytes
  | none => .error .invalidEncoding

def decodeArray (bytes : List UInt8) : Except ProtoError (Vector UInt8 32) :=
  match toArray? 32 bytes with
  | some array => .ok array
  | none => .error .invalidEncoding

/-- `PeerInfo::try_from` -/
def tryFrom (value : PublicPeerInfo) : Except ProtoError PeerInfo := do
  let signingPublic ← decodeBase64 suite value.signingPublic
  let noisePublic ← decodeBase64 suite value.noisePublic
  let credential ← decodeBase64 suite value.credential
  let signingPublic ← decodeArray signingPublic
  let noisePublic ← decodeArray noisePublic
  return { nodeId := value.nodeId, incarnation := value.incarnation, signingPublic, noisePublic
           candidates := value.candidates, virtualIpv4 := value.virtualIpv4
           virtualIpv6 := value.virtualIpv6, credential, capabilities := value.capabilities }

/-- `CoordinationClient::verify_peer_credential`; `now` is its read of the clock. -/
def verifyPeerCredential (prim : Primitives) (serverPublicKey : Option (Vector UInt8 32))
    (peer : PeerInfo) (now : UInt64) : Except CoordClientError Unit :=
  match serverPublicKey with
  | none => .error .serverKeyRequired
  | some serverKey =>
    match prim.credentialOfJson peer.credential with
    | none => .error .invalidCredential
    | some credential =>
      match credential.verify prim serverKey now with
      | .error _ => .error .invalidCredential
      | .ok _ =>
        if credential.nodeId ≠ peer.nodeId ∨ credential.signingPublic ≠ peer.signingPublic ∨
            credential.noisePublic ≠ peer.noisePublic then .error .invalidCredential
        else .ok ()

namespace CoordinationClient

def verifyPeerCredential (info : PeerInfo) : ClientM Unit := do
  let now ← lift (call .unixTime)
  ofExcept (Runtime.verifyPeerCredential suite.toPrimitives (some peer.serverKey) info now)

def verifyPublicPeer (value : PublicPeerInfo) : ClientM PeerInfo := do
  let info ← ofExcept ((tryFrom suite value).mapError .protocol)
  verifyPeerCredential suite peer info
  return info

def verifyPeerCredentials : List PeerInfo → ClientM Unit
  | [] => pure ()
  | info :: rest => do
    verifyPeerCredential suite peer info
    verifyPeerCredentials rest

def verifyPublicPeers : List PublicPeerInfo → ClientM (List PeerInfo)
  | [] => pure []
  | value :: rest => do
    let info ← verifyPublicPeer suite peer value
    let others ← verifyPublicPeers rest
    return info :: others

end CoordinationClient

/-! ### Requests -/

/-- What a request does with a message that comes while it waits. -/
inductive Handling (α : Type) where
  /-- the reply -/
  | answer (a : α)
  /-- `enqueue_pending(message)` -/
  | enqueue
  /-- `pending.push_back(message)` -/
  | push
  | drop
  | refuse (error : CoordClientError)

open CoordinationClient in
/-- The loop of a request. -/
def awaitReply {α : Type} (request : String) (handling : ControlMessage → Handling α) :
    ℕ → ClientM α
  | 0 => throw (.timeout request)
  | fuel + 1 => do
    let message ← recvWire (some request)
    match handling message with
    | .answer a => return a
    | .enqueue => do
      lift (call (.enqueuePending message))
      awaitReply request handling fuel
    | .push => do
      lift (call (.pushPending message))
      awaitReply request handling fuel
    | .drop => awaitReply request handling fuel
    | .refuse error => throw error

def onSnapshotResponse : ControlMessage → Handling NetworkSnapshot
  | .snapshotResponse snapshot => .answer snapshot
  | .connectSignal _ _ | .snapshot _ => .enqueue
  | .error code message => .refuse (.server code message)
  | _ => .refuse .unexpectedMessage

/-- Any snapshot is taken for the reply. -/
def onSnapshot : ControlMessage → Handling NetworkSnapshot
  | .snapshot snapshot => .answer snapshot
  | .connectSignal _ _ => .push
  | .error code message => .refuse (.server code message)
  | _ => .refuse .unexpectedMessage

def onPeerInfo : ControlMessage → Handling PublicPeerInfo
  | .peerInfo value => .answer value
  | .connectSignal _ _ => .drop
  | .snapshot _ => .enqueue
  | .error code message => .refuse (.server code message)
  | _ => .refuse .unexpectedMessage

def onListPeers : ControlMessage → Handling (List PeerSummary)
  | .listPeersOk peers => .answer peers
  | .connectSignal _ _ => .drop
  | .snapshot _ => .enqueue
  | .error code message => .refuse (.server code message)
  | _ => .refuse .unexpectedMessage

namespace CoordinationClient

def requestSnapshot : ClientM NetworkSnapshot := do
  send (some "request snapshot") .requestSnapshot
  awaitReply "request snapshot" onSnapshotResponse fuel

def updateCandidatesAndGetSnapshot (candidates : List Candidate) : ClientM NetworkSnapshot := do
  send (some "update candidates") (.updateCandidates candidates)
  awaitReply "update candidates" onSnapshot fuel

def lookupPeer (nodeId : NodeId) : ClientM PeerInfo := do
  send (some "lookup peer") (.lookupPeer nodeId)
  let value ← awaitReply "lookup peer" onPeerInfo fuel
  verifyPublicPeer suite peer value

def listPeers : ClientM (List PeerSummary) := do
  send (some "list peers") .listPeers
  awaitReply "list peers" onListPeers fuel

def updateRuntimeStatus (virtualMtu : ℕ) : ClientM Unit :=
  if virtualMtu < 2 ^ 16 then send none (.runtimeStatus (UInt16.ofNat virtualMtu))
  else throw .invalidRuntimeStatus

/-! ### Registration -/

structure Registered where
  credential : MembershipCredential
  peers : List PeerInfo
  snapshot : NetworkSnapshot

/-- What `register_with_incarnation` makes of the reply: the checks on what the server returns. -/
def registerReply : ControlMessage → ClientM Registered
  | .registerOk credential peers snapshot => do
    let bytes ← ofExcept (match suite.base64Decode credential with
      | some bytes => .ok bytes
      | none => .error .invalidCredential)
    let credential ← ofExcept (match suite.credentialOfJson bytes with
      | some credential => .ok credential
      | none => .error (.serialization "credential"))
    let now ← lift (call .unixTime)
    ofExcept ((verifySnapshot suite.toPrimitives snapshot peer.serverKey now).mapError
      fun _ => .invalidSnapshot)
    ofExcept ((snapshot.validate suite.blake3).mapError .protocol)
    verifyPeerCredentials suite peer snapshot.peers
    let now ← lift (call .unixTime)
    ofExcept ((credential.verify suite.toPrimitives peer.serverKey now).mapError
      fun _ => .invalidCredential)
    let peers ← verifyPublicPeers suite peer peers
    return { credential, peers, snapshot }
  | .error code message => throw (.server code message)
  | _ => throw .unexpectedMessage

/-- `register_with_incarnation`: the next message, which `receive` gives, is the reply. -/
def registerWithIncarnation (receive : ClientM ControlMessage) (token : Option String)
    (candidates : List Candidate) : ClientM Registered := do
  let credential ← lift (call .credential)
  let identity := peer.node.identity.publicIdentity suite
  send (some "register") (.register
    { nodeId := identity.nodeId
      incarnation := peer.node.incarnation
      signingPublic := suite.base64Encode identity.signingPublic.toList
      noisePublic := suite.base64Encode identity.noisePublic.toList
      credential := match credential with
        | some value => suite.base64Encode (suite.credentialToJson value)
        | none => ""
      inviteToken := token
      candidates := candidates
      capabilities := [.diagnosticPing] })
  let reply ← receive
  registerReply suite peer reply

/-- The registration of a client that has just been connected; nothing is pending in it. -/
def register (candidates : List Candidate) : ClientM Registered :=
  registerWithIncarnation suite peer (recvWire (some "register")) none candidates

/-- The client is replaced once the replacement is registered. -/
def reconnect (candidates : List Candidate) : ClientM Registered := do
  attempt (call .connect)
  let registered ← register suite peer candidates
  lift (call .adopt)
  return registered

end CoordinationClient

end Vela.Runtime
