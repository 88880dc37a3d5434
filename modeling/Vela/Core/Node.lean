import Vela.Core.Receive

/-!
# The node as a pool of tasks

Every operation of the application, every datagram and every round of a periodic loop is a request;
requests run in any number of tasks, one section at a time.  The code runs some of them one after
another (one reader, one task for each data worker); the pool has those runs and more.
-/

namespace Vela.Core

open Vela.Proto Vela.Crypto Vela.Ip Codec

inductive Request where
  | start
  | shutdown
  | registerPeer (info : PeerInfo)
  | removePeer (nodeId : NodeId)
  | applySnapshot (snapshot : NetworkSnapshot)
  | sendIp (packet : List UInt8)
  | sendIpBatch (packets : List (List UInt8))
  | connect (nodeId : NodeId)
  /-- the reader takes a datagram -/
  | datagram (input : List UInt8) (source : SocketAddr)
  | dataRound (worker : ℕ)
  | keepaliveRound
  | mtuRound
  | reconnectLoop (p : PeerRef)

/-- The program's result does not matter to the pool. -/
def ignore {α : Type} (p : Task α) : Task PUnit := do
  let _ ← p

/-- Loops that have no bound in the source are followed for `fuel` iterations. -/
def serve (suite : Suite) (node : Node) (fuel : ℕ) : Request → Task PUnit
  | .start => call .setStarted
  | .shutdown => call .setStopping
  | .registerPeer info => ignore (registerPeer suite node info).run
  | .removePeer nodeId => ignore (removePeer nodeId)
  | .applySnapshot snapshot => ignore (applySnapshot suite node snapshot).run
  | .sendIp packet => ignore (sendIp suite node packet).run
  | .sendIpBatch packets => ignore (sendIpBatch suite node packets)
  | .connect nodeId => ignore (connect suite node fuel nodeId).run
  | .datagram input source => readDatagram suite node fuel input source
  | .dataRound worker => dataRound suite node worker
  | .keepaliveRound => keepaliveRound suite node
  | .mtuRound => mtuRound
  | .reconnectLoop p => reconnectLoop suite node fuel fuel p

/-- The loops run once the node is started; a reconnect loop runs once it is spawned. -/
def Request.accept (s : NodeState) : Request → Option NodeState
  | .datagram _ _ | .dataRound _ | .keepaliveRound | .mtuRound => if s.started then some s else none
  | .reconnectLoop p =>
    if .reconnect p ∈ s.spawned then some { s with spawned := s.spawned.erase (.reconnect p) }
    else none
  | _ => some s

/-- The node, with a monitor of its tasks. -/
def nodePool {Γ : Type} (suite : Suite) (node : Node) (fuel : ℕ) (start : Γ)
    (next : Γ → (c : Section) → Response c → Γ) :
    Pool.Spec Section Response NodeState Env Request Γ where
  exec := exec suite node
  accept _ q s := q.accept s
  body := serve suite node fuel
  start := start
  next := next

/-- The pool without a monitor. -/
abbrev plainPool (suite : Suite) (node : Node) (fuel : ℕ) :
    Pool.Spec Section Response NodeState Env Request Unit :=
  nodePool suite node fuel () fun _ _ _ => ()

/-- The node before any peer is known; what the heap holds where nothing is allocated is never
read. -/
def NodeState.new (node : Node) (heap : PeerRef → PeerState) : NodeState where
  heap := heap
  allocated := 0
  peers := ∅
  routes := RouteTable.new (virtualAddresses node.config.virtualIpv4 node.config.virtualIpv6)
  sessions := ∅
  snapshotUpdate := false
  networkId := node.config.networkId
  snapshotGeneration := 0
  snapshotExpiresAt := u64Max
  localIpv4 := node.config.virtualIpv4
  localIpv6 := node.config.virtualIpv6
  started := false
  stopping := false
  receive := { udpDatagrams := 0, dataDatagrams := 0, dataQueueDrops := 0, workerDataDatagrams := 0
               unassociatedDataDatagrams := 0 }
  dataQueues _ := []
  spawned := []
  events := []
  datagrams := []
  delivered := []
  encrypted := []
  receiveKeys := []

/-! ### A small network

Concrete primitives, a node and its peers, for the runs that later modules look at. -/

section Demo

def demoBytes (n : UInt8) : Vector UInt8 32 := Vector.replicate 32 n

def demoHash (bytes : List UInt8) : Vector UInt8 32 := arrayAt 32 bytes 0

def demoTag (key : Vector UInt8 32) (nonce : List UInt8) : Vector UInt8 16 :=
  arrayAt 16 (key.toList.take 8 ++ nonce.drop 4) 0

/-- Primitives that can be computed by hand.  A Noise message is the sender's static key and the
payload; the tag of a datagram is the start of the key and the sequence number. -/
def demoSuite : Suite where
  blake3 := demoHash
  base64Encode _ := ""
  base64Decode _ := none
  ed25519Public secret := secret
  ed25519Sign _ _ := Vector.replicate 64 0
  ed25519Key _ := true
  ed25519Verify _ _ _ := true
  credentialToJson c := c.signingPublic.toList
  -- a credential is the node's key, and has expired at 100
  credentialOfJson bytes := some
    { nodeId := ⟨demoHash bytes⟩, signingPublic := demoHash bytes, noisePublic := demoHash bytes
      tenant := "", issuedAt := 1, expiresAt := 100, serverKeyId := demoBytes 9
      signature := List.replicate 64 0 }
  x25519Public secret := secret
  noiseWrite hs _ payload := some (hs.localPrivate.toList ++ payload)
  noiseRead _ message := some (message.drop 32)
  noiseFinished hs := hs.calls.length == 2
  noiseHash hs := hs.calls.flatMap fun
    | .wrote entropy _ => entropy
    | .read message => message
  noiseRemoteStatic hs := (hs.calls.filterMap fun
    | .wrote _ _ => none
    | .read message => some (demoHash message)).head?
  hkdf _ ikm info := demoHash (info.take 4 ++ ikm)
  aeadEncrypt key nonce _ plaintext := some (plaintext, demoTag key nonce)
  aeadDecrypt key nonce _ ciphertext tag :=
    if tag = (demoTag key nonce).toList then some ciphertext else none

def demoNode : Node where
  identity := { signing := demoBytes 5, noiseStatic := demoBytes 5 }
  incarnation := 1
  config := { maxPayloadSize := 1400, perPeerQueueLimit := 8, keepaliveInterval := secs 10
              connectTimeout := secs 10, reconnectBackoff := secs 1
              serverPublicKey := some (demoBytes 9), networkId := Vector.replicate 16 0
              virtualIpv4 := some ⟨#v[10, 0, 0, 5]⟩, virtualIpv6 := none, virtualMtu := 1190 }
  dataWorkers := 1

def demoIpv4 (n : UInt8) : Ipv4Addr := ⟨#v[10, 0, 0, n]⟩

def demoInfo (n : UInt8) : PeerInfo where
  nodeId := ⟨demoBytes n⟩
  incarnation := 1
  signingPublic := demoBytes n
  noisePublic := demoBytes n
  candidates := []
  virtualIpv4 := some (demoIpv4 n)
  virtualIpv6 := none
  credential := (demoBytes n).toList
  capabilities := []

def demoPath : SocketAddr := SocketAddr.v4 ⟨#v[192, 0, 2, 1]⟩ 7

def demoState : NodeState := NodeState.new demoNode fun _ =>
  PeerState.withOnline demoSuite (demoInfo 0) false none

def demoEnv : Env where
  unixTime := 10
  now := 0
  bytes := List.replicate 64 3
  sessionId := 1
  fault := none
  sent := 1
  accepts := true

def demoDatagram (packetType : PacketType) (sessionId sequence : UInt64) (payload : List UInt8) :
    List UInt8 :=
  match Header.new packetType sessionId sequence payload.length with
  | .ok header => header.encode ++ payload
  | .error _ => []

/-- The first message of a handshake in the name of `sender`, by whoever holds `key`. -/
def demoHello (sender key : UInt8) (sessionId : UInt64) : List UInt8 :=
  demoDatagram .handshake sessionId 0 (1 :: (demoBytes sender).toList ++ (demoBytes key).toList ++
    encodeHandshakeContext
      { networkId := Vector.replicate 16 0, generation := 0, nodeId := ⟨demoBytes sender⟩
        incarnation := 1, virtualIpv4 := some ⟨#v[10, 0, 0, sender]⟩, virtualIpv6 := none })

def demoIp (source destination : UInt8) : List UInt8 :=
  let header (check : ℕ) : List UInt8 :=
    [0x45, 0, 0, 20, 0, 0, 0, 0, 0, 0] ++ beBytes 2 check ++
      [10, 0, 0, source, 10, 0, 0, destination]
  header (checksum (header 0)).toNat

def demoData (key : Vector UInt8 32) (sessionId sequence : UInt64) (plaintext : List UInt8) :
    List UInt8 :=
  demoDatagram .data sessionId sequence (plaintext ++ (demoTag key (nonce sequence)).toList)

def demoAlone (t : ℕ) (q : Request) (n : ℕ) : List (Pool.Move Env Request) :=
  .spawn t q :: List.replicate n (.step t demoEnv)

/-- The node knows the peer `1`, -/
def demoKnown : List (Pool.Move Env Request) :=
  demoAlone 0 .start 1 ++ demoAlone 0 (.registerPeer (demoInfo 1)) 3

/-- and has a session with it. -/
def demoConnected : List (Pool.Move Env Request) :=
  demoKnown ++ demoAlone 0 (.datagram (demoHello 1 1 7) demoPath) 25

def demoRef : PeerRef := ⟨0, ⟨demoBytes 1⟩⟩

def demoKey : Vector UInt8 32 := demoHash (stringBytes "init" ++ List.replicate 28 3)

end Demo

end Vela.Core
