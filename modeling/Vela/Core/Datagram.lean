import Vela.Core.Node

/-!
# A data packet from one end to the other

`prepare_encrypted_data_packet` at one end of a session, and what the other end does with the datagram:
`read_loop` decodes the header and splits the packet, a data worker decrypts it, and the commit parses
the plaintext.  The sender writes the header into the buffer and encodes it a second time as associated
data; the receiver encodes the header it decoded.
-/

namespace Vela.Core

open Vela.Proto Vela.Crypto Vela.Ip Codec

/-! ### The receiver -/

/-- The functions that a datagram with IP data goes through, in their order. -/
def openDatagram (suite : Suite) (cipher : SessionCipher) (input : List UInt8) (source : SocketAddr) :
    Except CoreError (DataPacket × IpPacket) := do
  let header ← (Header.decode input).mapError CoreError.protocol
  let packet ← (decodeDataPacket input header source).mapError CoreError.protocol
  let packet ← (decryptPacket suite cipher packet).mapError CoreError.crypto
  let ipPacket ← (IpPacket.parse packet.payload).mapError CoreError.ip
  return (packet, ipPacket)

/-- Decryption under the same key, nonce and associated data inverts encryption.  The ciphertext is
written over the plaintext, so their lengths agree. -/
structure Invertible (suite : Suite) : Prop where
  seals : Seals suite
  inPlace : ∀ key nonce associatedData plaintext ciphertext tag,
    suite.aeadEncrypt key nonce associatedData plaintext = some (ciphertext, tag) →
      ciphertext.length = plaintext.length
  opens : ∀ key nonce associatedData plaintext ciphertext tag,
    suite.aeadEncrypt key nonce associatedData plaintext = some (ciphertext, tag) →
      suite.aeadDecrypt key nonce associatedData ciphertext tag.toList = some plaintext

/-- What was encrypted with this associated data is not decrypted with any other, under no nonce. -/
def BindsData (suite : Suite) (key : Vector UInt8 32) (nonce associatedData plaintext : List UInt8) :
    Prop :=
  ∀ ciphertext tag, suite.aeadEncrypt key nonce associatedData plaintext = some (ciphertext, tag) →
    ∀ nonce' associatedData', associatedData' ≠ associatedData →
      suite.aeadDecrypt key nonce' associatedData' ciphertext tag.toList = none

lemma cipher_not_rx (keys : SessionKeys) (initiator : Bool) :
    (keys.cipher !initiator).rx = (keys.cipher initiator).tx := by
  cases initiator <;> rfl

/-! ### The sender -/

/-- The header of an IP packet of `length` bytes. -/
def dataHeader (sessionId sequence : UInt64) (length : ℕ) : Header where
  version := protocolVersion
  packetType := .data
  flags := 0
  sessionId := sessionId
  sequence := sequence
  payloadLen := UInt16.ofNat (length + 16)

variable {header : Header} {suite : Suite} {x : IpPacket} {cipher : SessionCipher} {input : List UInt8}

lemma encodedHeader_of_version (h : header.version = protocolVersion) :
    encodedHeader header = header.encode := by
  rw [encodedHeader, ← h]

lemma prepareEncryptedDataPacket_ok (haead : Invertible suite) (p : PeerRef) (session : PreparedSession)
    (sequence : UInt64) (hlen : x.bytes.length ≤ 65519) :
    ∃ ciphertext tag prepared,
      suite.aeadEncrypt session.cipher.tx (nonce sequence)
        (dataHeader session.sessionId sequence x.bytes.length).encode x.bytes = some (ciphertext, tag) ∧
      ciphertext.length = x.bytes.length ∧
      prepareEncryptedDataPacket suite p session sequence x = .ok prepared ∧
      prepared.wirePacket = (dataHeader session.sessionId sequence x.bytes.length).encode ++
        (ciphertext ++ tag.toList) := by
  have hshort : x.bytes.length < 2 ^ 16 := by omega
  obtain ⟨⟨ciphertext, tag⟩, hencrypt⟩ := Option.isSome_iff_exists.1 (haead.seals session.cipher.tx
    (nonce sequence) (dataHeader session.sessionId sequence x.bytes.length).encode x.bytes hshort)
  have hheader : Header.new .data session.sessionId sequence (x.bytes.length + 16) =
      .ok (dataHeader session.sessionId sequence x.bytes.length) := by
    rw [Header.new, if_pos (by omega)]
    rfl
  have hcipher : session.cipher.encrypt suite sequence
      (encodedHeader (dataHeader session.sessionId sequence x.bytes.length)) x.bytes =
        .ok (ciphertext ++ tag.toList) := by
    rw [encodedHeader_of_version rfl, SessionCipher.encrypt, hencrypt]
  refine ⟨ciphertext, tag,
    { peer := p, peerId := p.nodeId, sessionId := session.sessionId, sequence
      path := session.path, packetLen := x.bytes.length
      wirePacket := (dataHeader session.sessionId sequence x.bytes.length).encode ++
        (ciphertext ++ tag.toList) }, hencrypt, haead.inPlace _ _ _ _ _ _ hencrypt, ?_, rfl⟩
  rw [prepareEncryptedDataPacket, hheader]
  dsimp only
  rw [hcipher]

lemma prepareEncryptedDataPacket_too_long (suite : Suite) (p : PeerRef) (session : PreparedSession)
    (sequence : UInt64) (hlen : 65519 < x.bytes.length) :
    prepareEncryptedDataPacket suite p session sequence x = .error (.protocol .payloadTooLarge) := by
  have hheader : Header.new .data session.sessionId sequence (x.bytes.length + 16) =
      .error .payloadTooLarge := by
    rw [Header.new, if_neg (by omega)]
  rw [prepareEncryptedDataPacket, hheader]

/-! ### Both ends -/

lemma openDatagram_of_decode (hdecode : Header.decode input = .ok header)
    (hlen : input.length = headerLen + header.payloadLen.toNat) (source : SocketAddr) :
    openDatagram suite cipher input source =
      match cipher.decrypt suite header.sequence header.encode (input.drop headerLen) with
      | .error error => .error (.crypto error)
      | .ok plaintext =>
        match IpPacket.parse plaintext with
        | .error error => .error (.ip error)
        | .ok x => .ok ({ header, encryptedLen := (input.drop headerLen).length
                          payload := plaintext, source }, x) := by
  have hpacket : decodeDataPacket input header source =
      .ok { header, encryptedLen := (input.drop headerLen).length
            payload := input.drop headerLen, source } := by
    rw [decodeDataPacket, hlen, if_neg (lt_irrefl _), if_neg (not_not.2 rfl)]
  have hadata := encodedHeader_of_version (Header.version_of_decode hdecode)
  rw [openDatagram, hdecode]
  dsimp only [Except.mapError, bind, Except.bind]
  rw [hpacket]
  dsimp only [decryptPacket]
  rw [hadata]
  cases hplain : cipher.decrypt suite header.sequence header.encode (input.drop headerLen) with
  | error error => rfl
  | ok plaintext =>
    dsimp only
    cases IpPacket.parse plaintext with
    | error error => rfl
    | ok x => rfl

lemma openDatagram_of_length (hdecode : Header.decode input = .ok header)
    (hlen : input.length ≠ headerLen + header.payloadLen.toNat) (source : SocketAddr) :
    ∃ error, openDatagram suite cipher input source = .error error := by
  have hpacket : ∃ error, decodeDataPacket input header source = .error error := by
    rw [decodeDataPacket]
    by_cases hshort : input.length < headerLen + header.payloadLen.toNat
    · exact ⟨_, if_pos hshort⟩
    · exact ⟨_, (if_neg hshort).trans (if_pos hlen)⟩
  obtain ⟨error, hpacket⟩ := hpacket
  refine ⟨.protocol error, ?_⟩
  rw [openDatagram, hdecode]
  dsimp only [Except.mapError, bind, Except.bind]
  rw [hpacket]

section Ends

variable {suite : Suite} (haead : Invertible suite) {key : Vector UInt8 32} {cipher : SessionCipher}
  (hkey : cipher.rx = key) {sessionId sequence : UInt64} {x : IpPacket}
  {ciphertext : List UInt8} {tag : Vector UInt8 16}
  (hencrypt : suite.aeadEncrypt key (nonce sequence)
    (dataHeader sessionId sequence x.bytes.length).encode x.bytes = some (ciphertext, tag))

include haead hkey hencrypt in
lemma openDatagram_sealed (hlen : x.bytes.length ≤ 65519) (hcipher : ciphertext.length = x.bytes.length)
    (source : SocketAddr) :
    openDatagram suite cipher ((dataHeader sessionId sequence x.bytes.length).encode ++
        (ciphertext ++ tag.toList)) source =
      .ok ({ header := dataHeader sessionId sequence x.bytes.length
             encryptedLen := x.bytes.length + 16, payload := x.bytes, source }, x) := by
  have hbody : (ciphertext ++ tag.toList).length = x.bytes.length + 16 := by simp [hcipher]
  have hpayload : (UInt16.ofNat (x.bytes.length + 16)).toNat = x.bytes.length + 16 := by
    rw [UInt16.toNat_ofNat']
    exact Nat.mod_eq_of_lt (by omega)
  have hdecode := Header.decode_encode (dataHeader sessionId sequence x.bytes.length) rfl
    (ciphertext ++ tag.toList)
  have hplain : cipher.decrypt suite sequence (dataHeader sessionId sequence x.bytes.length).encode
      (ciphertext ++ tag.toList) = .ok x.bytes := by
    rw [SessionCipher.decrypt_append, hkey, haead.opens _ _ _ _ _ _ hencrypt]
  refine (openDatagram_of_decode hdecode ?_ source).trans ?_
  · rw [List.length_append, Header.length_encode, hbody]
    exact congrArg _ hpayload.symm
  · rw [List.drop_left' (Header.length_encode _), hbody]
    rw [show (dataHeader sessionId sequence x.bytes.length).sequence = sequence from rfl, hplain]
    dsimp only
    rw [IpPacket.parse_bytes]

include hkey hencrypt in
/-- With any other 26 bytes in front the datagram is refused. -/
lemma openDatagram_tampered
    (hbinds : BindsData suite key (nonce sequence)
      (dataHeader sessionId sequence x.bytes.length).encode x.bytes)
    {start : List UInt8} (hstart : start.length = headerLen)
    (hne : start ≠ (dataHeader sessionId sequence x.bytes.length).encode) (source : SocketAddr) :
    ∃ error, openDatagram suite cipher (start ++ (ciphertext ++ tag.toList)) source =
      .error error := by
  cases hdecode : Header.decode (start ++ (ciphertext ++ tag.toList)) with
  | error error =>
    refine ⟨.protocol error, ?_⟩
    rw [openDatagram, hdecode]
    rfl
  | ok header =>
    by_cases hlen : (start ++ (ciphertext ++ tag.toList)).length = headerLen + header.payloadLen.toNat
    · -- an accepted header is its 26 bytes, so the associated data is another
      have hbytes : header.encode = start := by
        rw [Header.encode_of_decode hdecode, List.take_left' hstart]
      have hfail : cipher.decrypt suite header.sequence header.encode (ciphertext ++ tag.toList) =
          .error .aead := by
        rw [SessionCipher.decrypt_append, hkey, hbytes, hbinds ciphertext tag hencrypt _ _ hne]
      refine ⟨.crypto .aead, ?_⟩
      rw [openDatagram_of_decode hdecode hlen, List.drop_left' hstart, hfail]
    · exact openDatagram_of_length hdecode hlen source

end Ends

/-- **Round trip of a data packet.**  For either end, every session id and every number: a packet of at
most 65519 bytes comes out at the other end as it was, under its session id and number, and a datagram
with other 26 bytes in front is refused if the AEAD binds its associated data; a longer packet is an
error at the sender. -/
theorem datagram_round_trip (suite : Suite) (haead : Invertible suite) (keys : SessionKeys)
    (initiator : Bool) (p : PeerRef) (session : PreparedSession)
    (hcipher : session.cipher = keys.cipher initiator) (sequence : UInt64) (x : IpPacket)
    (source : SocketAddr) :
    (x.bytes.length ≤ 65519 → ∃ prepared,
      prepareEncryptedDataPacket suite p session sequence x = .ok prepared ∧
      (∃ packet, openDatagram suite (keys.cipher !initiator) prepared.wirePacket source =
          .ok (packet, x) ∧ packet.header.packetType = .data ∧
        packet.header.sessionId = session.sessionId ∧ packet.header.sequence = sequence) ∧
      (BindsData suite (keys.cipher initiator).tx (nonce sequence) (prepared.wirePacket.take 26)
          x.bytes → ∀ start : List UInt8, start.length = 26 → start ≠ prepared.wirePacket.take 26 →
        ∃ error, openDatagram suite (keys.cipher !initiator) (start ++ prepared.wirePacket.drop 26)
          source = .error error)) ∧
    (65519 < x.bytes.length →
      ∃ error, prepareEncryptedDataPacket suite p session sequence x = .error error) := by
  constructor
  · intro hlen
    obtain ⟨ciphertext, tag, prepared, hencrypt, hlength, hprepare, hwire⟩ :=
      prepareEncryptedDataPacket_ok haead p session sequence hlen
    rw [hcipher] at hencrypt
    have hkey := cipher_not_rx keys initiator
    have hhead : prepared.wirePacket.take 26 =
        (dataHeader session.sessionId sequence x.bytes.length).encode := by
      rw [hwire]
      exact List.take_left' (Header.length_encode _)
    have hbody : prepared.wirePacket.drop 26 = ciphertext ++ tag.toList := by
      rw [hwire]
      exact List.drop_left' (Header.length_encode _)
    refine ⟨prepared, hprepare, ?_, ?_⟩
    · have hopen := openDatagram_sealed haead hkey hencrypt hlen hlength source
      rw [← hwire] at hopen
      exact ⟨_, hopen, rfl, rfl, rfl⟩
    · intro hbinds start hstart hne
      rw [hhead] at hbinds hne
      rw [hbody]
      exact openDatagram_tampered hkey hencrypt hbinds hstart hne source
  · intro hlen
    exact ⟨_, prepareEncryptedDataPacket_too_long suite p session sequence hlen⟩

section Demo

def demoMark (associatedData : List UInt8) : Vector UInt8 16 :=
  Vector.replicate 16 (if associatedData = (dataHeader 7 1 20).encode then 1 else 0)

def markSuite : Suite :=
  { demoSuite with
    aeadEncrypt := fun _ _ associatedData plaintext => some (plaintext, demoMark associatedData)
    aeadDecrypt := fun _ _ associatedData ciphertext tag =>
      if tag = (demoMark associatedData).toList then some ciphertext else none }

lemma markSuite_invertible : Invertible markSuite where
  seals _ _ _ _ _ := rfl
  inPlace := by
    intro key nonce associatedData plaintext ciphertext tag h
    cases h
    rfl
  opens := by
    intro key nonce associatedData plaintext ciphertext tag h
    cases h
    exact if_pos rfl

lemma markSuite_binds (key : Vector UInt8 32) (nonce plaintext : List UInt8) :
    BindsData markSuite key nonce (dataHeader 7 1 20).encode plaintext := by
  intro ciphertext tag h nonce' associatedData' hne
  cases h
  refine if_neg ?_
  rw [demoMark, demoMark, if_pos rfl, if_neg hne]
  decide

def demoPacket : IpPacket where
  bytes := demoIp 5 1
  fields := { version := .v4, source := .v4 (demoIpv4 5), destination := .v4 (demoIpv4 1), protocol := 0 }
  valid := by decide +kernel

def demoPrepared : PreparedSession where
  sessionId := 7
  path := demoPath
  cipher := (SessionKeys.mk (demoBytes 1) (demoBytes 2)).cipher true
  sequences := []

lemma demoPrepared_header {prepared : PreparedDataPacket}
    (h : prepareEncryptedDataPacket markSuite ⟨0, ⟨demoBytes 1⟩⟩ demoPrepared 1 demoPacket =
      .ok prepared) : prepared.wirePacket.take 26 = (dataHeader 7 1 20).encode := by
  have hconcrete : (prepareEncryptedDataPacket markSuite ⟨0, ⟨demoBytes 1⟩⟩ demoPrepared 1
      demoPacket).toOption.map (fun prepared => prepared.wirePacket.take 26) =
        some (dataHeader 7 1 20).encode := by
    decide +kernel
  rw [h] at hconcrete
  exact Option.some.inj hconcrete

theorem datagram_round_trip_demo : ∃ prepared packet,
    prepareEncryptedDataPacket markSuite ⟨0, ⟨demoBytes 1⟩⟩ demoPrepared 1 demoPacket = .ok prepared ∧
    openDatagram markSuite ((SessionKeys.mk (demoBytes 1) (demoBytes 2)).cipher false)
      prepared.wirePacket demoPath = .ok (packet, demoPacket) ∧
    ∀ start : List UInt8, start.length = 26 → start ≠ prepared.wirePacket.take 26 →
      ∃ error, openDatagram markSuite ((SessionKeys.mk (demoBytes 1) (demoBytes 2)).cipher false)
        (start ++ prepared.wirePacket.drop 26) demoPath = .error error := by
  obtain ⟨prepared, hprepare, ⟨packet, hopen, -⟩, htampered⟩ :=
    (datagram_round_trip markSuite markSuite_invertible ⟨demoBytes 1, demoBytes 2⟩ true
      ⟨0, ⟨demoBytes 1⟩⟩ demoPrepared rfl 1 demoPacket demoPath).1 (by decide)
  refine ⟨prepared, packet, hprepare, hopen, htampered ?_⟩
  rw [demoPrepared_header hprepare]
  exact markSuite_binds _ _ _

end Demo

end Vela.Core
