import Vela.Core.Membership
import Mathlib.Data.List.SplitBy
import Mathlib.Data.List.Destutter
import Mathlib.Data.List.Sort

/-!
# The send path

`send_ip`, `send_ip_batch` and `flush_queue` of `vela-core`.  Results of a batch that the source
writes into slots by index are put together in order here: `oks` takes the slots that are still open
and `refill` fills them.
-/

namespace Vela.Core

open Vela.Proto Vela.Crypto Vela.Ip

variable (suite : Suite) (node : Node)

/-! ### Slots -/

/-- The values of the open slots. -/
def oks {ε α : Type} (slots : List (Except ε α)) : List α := slots.filterMap Except.toOption

/-- The open slots, filled in order; a slot without a result would be a panic of the source. -/
def refill {ε α β : Type} : List (Except ε α) → List (Except ε β) → List (Except ε β)
  | [], _ => []
  | .error error :: slots, results => .error error :: refill slots results
  | .ok _ :: slots, result :: results => result :: refill slots results
  | .ok _ :: _, [] => []

/-! ### Chunks -/

/-- `usize::div_ceil` -/
def divCeil (a b : ℕ) : ℕ := (a + b - 1) / b

/-- `slice::chunks` -/
def chunks {α : Type} (size : ℕ) (l : List α) : List (List α) :=
  (List.range (divCeil l.length size)).map fun i => (l.drop (i * size)).take size

lemma mem_of_mem_chunks {α : Type} {size : ℕ} {l chunk : List α} {a : α}
    (hchunk : chunk ∈ chunks size l) (ha : a ∈ chunk) : a ∈ l := by
  obtain ⟨i, -, rfl⟩ := List.mem_map.1 hchunk
  exact List.mem_of_mem_drop (List.mem_of_mem_take ha)

lemma flatten_chunks {α : Type} {size : ℕ} (hsize : 0 < size) (l : List α) :
    (chunks size l).flatten = l := by
  have hprefix : ∀ k, ((List.range k).map fun i => (l.drop (i * size)).take size).flatten =
      l.take (k * size) := by
    intro k
    induction k with
    | zero => simp
    | succ k ih =>
      rw [List.range_succ, List.map_append, List.flatten_append, ih]
      simp [Nat.succ_mul, List.take_add]
  rw [chunks, hprefix]
  apply List.take_of_length_le
  have h := Nat.lt_div_mul_add (a := l.length + size - 1) hsize
  unfold divCeil
  omega

/-! ### Preparation -/

structure PreparedDataPacket where
  peer : PeerRef
  peerId : NodeId
  sessionId : UInt64
  sequence : UInt64
  path : SocketAddr
  packetLen : ℕ
  wirePacket : List UInt8
  deriving DecidableEq

/-- The outcome for one packet: `none` if it was queued. -/
abbrev Preparation := Except SendError (Option PreparedDataPacket)

def prepareEncryptedDataPacket (p : PeerRef) (session : PreparedSession) (sequence : UInt64)
    (packet : IpPacket) : Except SendError PreparedDataPacket :=
  match Header.new .data session.sessionId sequence (packet.bytes.length + 16) with
  | .error error => .error (.protocol error)
  | .ok header =>
    match session.cipher.encrypt suite sequence (encodedHeader header) packet.bytes with
    | .error error => .error (.crypto error)
    | .ok encrypted =>
      .ok { peer := p, peerId := p.nodeId, sessionId := session.sessionId, sequence
            path := session.path, packetLen := packet.bytes.length
            wirePacket := header.encode ++ encrypted }

def encryptOne (p : PeerRef) (session : PreparedSession) (work : UInt64 × IpPacket) :
    Task Preparation :=
  match prepareEncryptedDataPacket suite p session work.1 work.2 with
  | .error error => pure (.error error)
  | .ok prepared => do
    call (.encryptPacket { peer := p, key := session.cipher.tx, sequence := work.1, packet := work.2 })
    return .ok (some prepared)

/-- A chunk of packets on a thread of its own. -/
def encryptChunk (p : PeerRef) (session : PreparedSession) (chunk : List (UInt64 × IpPacket)) :
    Task (List Preparation) := do
  match ← call .worker with
  | none => Prog.collect (encryptOne suite p session) chunk
  | some text =>
    return chunk.map fun _ => .error (.io ⟨.other, "data encryption worker failed: " ++ text⟩)

def dataEncryptParallelThreshold : ℕ := 16
def dataEncryptMaxWorkers : ℕ := 4

def encryptWork (p : PeerRef) (session : PreparedSession) (work : List (UInt64 × IpPacket)) :
    Task (List Preparation) :=
  if dataEncryptParallelThreshold ≤ work.length ∧ 1 < node.dataWorkers then do
    let workerCount := min (min dataEncryptMaxWorkers node.dataWorkers) work.length
    let chunks ← Prog.collect (encryptChunk suite p session)
      (chunks (divCeil work.length workerCount) work)
    return chunks.flatten
  else Prog.collect (encryptOne suite p session) work

def checkSize (packet : IpPacket) : Except SendError IpPacket :=
  if node.config.virtualMtu < packet.bytes.length ∨ node.config.maxPayloadSize < packet.bytes.length
  then .error .packetTooLarge
  else .ok packet

/-- The packets that fit the path, with their sequence numbers. -/
def assignSequence : Option UInt64 → IpPacket → Except SendError (UInt64 × IpPacket)
  | some sequence, packet => .ok (sequence, packet)
  | none, _ => .error .packetTooLarge

/-- `prepare_ip_packets` for the packets that are not too large. -/
def prepareValid (p : PeerRef) (valid : List IpPacket) : Task (List Preparation) := do
  match ← peerCall p (.prepareActive (valid.map fun packet => packet.bytes.length)) with
  | some session => do
    let slots := List.zipWith assignSequence session.sequences valid
    let encrypted ← encryptWork suite node p session (oks slots)
    return refill slots encrypted
  | none => do
    let taken ← peerCall p (.pushQueue (valid.map IpPacket.bytes))
    return taken.map fun queued => if queued then .ok none else .error .queueFull

def prepareIpPackets (p : PeerRef) (packets : List IpPacket) : Task (List Preparation) :=
  if packets = [] then pure []
  else do
    let now ← call .unixTime
    let expiresAt ← call .snapshotExpiresAt
    if expiresAt ≤ now then do
      invalidateSession p true
      return packets.map fun _ => .error .snapshotExpired
    else
      let slots := packets.map (checkSize node)
      if oks slots = [] then return refill slots []
      else do
        let results ← prepareValid suite node p (oks slots)
        return refill slots results

/-! ### Sending -/

def recordSentBatch (packets : List PreparedDataPacket) : Task PUnit :=
  match packets with
  | [] => pure ()
  | first :: _ =>
    peerCall first.peer (.recordSent first.sessionId (packets.map PreparedDataPacket.packetLen).sum)

/-- `send_ip_packet` for a packet that is encrypted. -/
def sendPrepared (packet : PreparedDataPacket) : NodeM SendError Unit := do
  match ← lift (call (.sendTo packet.path packet.wirePacket)) with
  | some error => do
    lift (invalidateSessionIf packet.peer (some packet.sessionId) true)
    throw (.io error)
  | none => lift (recordSentBatch [packet])

def sendIpPacket (p : PeerRef) (packet : IpPacket) : NodeM SendError Unit := do
  match ← lift (prepareIpPackets suite node p [packet]) with
  | .error error :: _ => throw error
  | .ok (some prepared) :: _ => sendPrepared prepared
  -- one packet has one result
  | .ok none :: _ | [] => pure ()

/-- A run of packets of one session and path. -/
def sendGroup (group : List PreparedDataPacket) : Task (List (Except SendError Unit)) :=
  match group with
  | [] => pure []
  | first :: _ => do
    match ← call (.sendBatch (group.map fun packet => (packet.path, packet.wirePacket))) with
    | .error error => do
      invalidateSessionIf first.peer (some first.sessionId) true
      return group.map fun _ => .error (.io error)
    | .ok sent =>
      if sent = group.length then do
        recordSentBatch group
        return group.map fun _ => .ok ()
      else do
        recordSentBatch (group.take sent)
        invalidateSessionIf first.peer (some first.sessionId) true
        return ((group.take sent).map fun _ => .ok ()) ++ (group.drop sent).map fun _ =>
          .error (.io ⟨.writeZero, "batched UDP send completed only partially"⟩)

def sameDestination (a b : PreparedDataPacket) : Bool :=
  a.peerId == b.peerId && a.sessionId == b.sessionId && a.path == b.path

def sendPreparedBatch (prepared : List PreparedDataPacket) : Task (List (Except SendError Unit)) := do
  let results ← Prog.collect sendGroup (prepared.splitBy sameDestination)
  return results.flatten

/-! ### Packets of the application -/

/-- Whether a packet for this peer asks for a connection. -/
def shouldConnect (p : PeerRef) : Task Bool := do
  match ← peerCall p .active with
  | some _ => return false
  | none => do
    let attempt ← peerCall p .attempt
    return attempt.isNone

def isIo {α : Type} : Except SendError α → Bool
  | .error (.io _) => true
  | _ => false

def requestConnection (nodeId : NodeId) : Task PUnit := do
  emit (.peerConnectionRequested nodeId)
  call (.spawn (.connect nodeId))

def sendIp (bytes : List UInt8) : NodeM SendError Unit := do
  let packet ← ofExcept ((IpPacket.parse bytes).mapError SendError.ip)
  let routed ← lift (call (.validateOutbound packet))
  let nodeId ← ofExcept (routed.mapError SendError.ip)
  let found ← lift (call (.peerFor nodeId))
  let p ← okOr found .unknownPeer
  let connect ← lift (shouldConnect p)
  let result ← lift (sendIpPacket suite node p packet).run
  lift (when (isIo result) (scheduleReconnect p))
  lift (when (result.toBool && connect) (requestConnection nodeId))
  ofExcept result

/-- The packets of one peer in a row: their preparations, and the ids to connect to. -/
def prepareGroup (group : List (IpPacket × PeerRef)) : Task (List Preparation × List NodeId) :=
  match group with
  | [] => pure ([], [])
  | (_, p) :: _ => do
    let connect ← shouldConnect p
    let results ← prepareIpPackets suite node p (group.map Prod.fst)
    return (results, if connect then (oks results).map fun _ => p.nodeId else [])

def scheduleReconnects : List (PreparedDataPacket × Except SendError Unit) → Task PUnit
  | [] => pure ()
  | (packet, result) :: rest => do
    when (isIo result) (scheduleReconnect packet.peer)
    scheduleReconnects rest

/-- The slots that wait for the socket: those with an encrypted packet. -/
def awaitSend : Preparation → Except (Except SendError Unit) PreparedDataPacket
  | .error error => .error (.error error)
  | .ok none => .error (.ok ())
  | .ok (some prepared) => .ok prepared

/-- The result of every slot once the socket has answered. -/
def sendResults (slots : List (Except (Except SendError Unit) PreparedDataPacket))
    (results : List (Except SendError Unit)) : List (Except SendError Unit) :=
  (refill slots (results.map Except.ok)).map fun slot =>
    match slot with
    | .ok result => result
    | .error result => result

/-- `send_ip_batch` for the packets that have a peer. -/
def sendRouted (routed : List (IpPacket × PeerRef)) : Task (List (Except SendError Unit)) := do
  let groups ← Prog.collect (prepareGroup suite node)
    (routed.splitBy fun a b => a.2.nodeId == b.2.nodeId)
  let slots := (groups.flatMap Prod.fst).map awaitSend
  let results ← sendPreparedBatch (oks slots)
  scheduleReconnects ((oks slots).zip results)
  let connect := (groups.flatMap Prod.snd).insertionSort fun a b => a.le b
  (connect.destutter (· ≠ ·)).forM requestConnection
  return sendResults slots results

def sendIpBatch (packets : List (List UInt8)) : Task (List (Except SendError Unit)) := do
  let parsed := packets.map fun bytes => (IpPacket.parse bytes).mapError SendError.ip
  let routes ← call (.routeBatch (oks parsed))
  let routed := List.zipWith (fun packet route => route.map (packet, ·)) (oks parsed) routes
  let results ← sendRouted suite node (oks routed)
  return refill parsed (refill routed results)

/-! ### The queue of a peer -/

def sendPayload (p : PeerRef) (payload : List UInt8) : NodeM SendError Unit := do
  let packet ← ofExcept ((IpPacket.parse payload).mapError SendError.ip)
  let routed ← lift (call (.validateOutbound packet))
  let nodeId ← ofExcept (routed.mapError SendError.ip)
  if nodeId ≠ p.nodeId then throw .wrongPeer else sendIpPacket suite node p packet

/-- `flush_queue`, followed for `fuel` iterations. -/
def flushQueue : ℕ → PeerRef → Task PUnit
  | 0, _ => call .never
  | fuel + 1, p => do
    match ← peerCall p .popQueue with
    | none => pure ()
    | some payload =>
      match ← (sendPayload suite node p payload).run with
      | .error _ => pure ()
      | .ok _ => flushQueue fuel p

end Vela.Core
