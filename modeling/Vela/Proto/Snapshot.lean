import Vela.Proto.Types
import Mathlib.Data.List.Sort

/-!
# The signed encoding of a network snapshot

`NetworkSnapshot::unsigned_bytes` is what the coordinator signs and what a client verifies.  Two
things are lost in it: the lists of DoH and STUN servers are left out with their counts when they are
empty, so one list can be read in the place of the other; and a candidate's IPv6 flow information and
scope id are not written.

* `unsignedBytes_eq_iff_sameContent` — so equal bytes mean equal content exactly when the two
  snapshots omit the same lists and agree on the scopes.
-/

namespace Vela.Proto

open Codec

/-! ### The encoding -/

def encodeIpv4Cidr : Option Ipv4Cidr → List UInt8
  | some cidr => 1 :: (cidr.address.octets.toList ++ [cidr.prefixLen])
  | none => [0]

def encodeIpv6Cidr : Option Ipv6Cidr → List UInt8
  | some cidr => 1 :: (cidr.address.octets.toList ++ [cidr.prefixLen])
  | none => [0]

/-- `value.as_bytes()`. -/
def stringBytes (value : String) : List UInt8 := value.toByteArray.data.toList

def encodeString (value : String) : List UInt8 :=
  beBytes 4 (stringBytes value).length ++ stringBytes value

def encodeSocketAddress (address : SocketAddr) : List UInt8 :=
  (match address.ip with
    | .v4 ip => 4 :: ip.octets.toList
    | .v6 ip => 6 :: ip.octets.toList) ++ beBytes 2 address.port.toNat

def encodeCandidate : Candidate → List UInt8
  | .host address => 0 :: encodeSocketAddress address
  | .serverReflexive address => 1 :: encodeSocketAddress address
  | .peerReflexive address => 2 :: encodeSocketAddress address

def encodeIpv4 : Option Ipv4Addr → List UInt8
  | some address => 1 :: address.octets.toList
  | none => [0]

def encodeIpv6 : Option Ipv6Addr → List UInt8
  | some address => 1 :: address.octets.toList
  | none => [0]

/-- The body of the loop over the peers. -/
def encodePeer (peer : PeerInfo) : List UInt8 :=
  peer.nodeId.bytes.toList ++ beBytes 8 peer.incarnation.toNat ++ peer.signingPublic.toList ++
    peer.noisePublic.toList ++ encodeIpv4 peer.virtualIpv4 ++ encodeIpv6 peer.virtualIpv6 ++
    (beBytes 4 peer.candidates.length ++ peer.candidates.flatMap encodeCandidate) ++
    (beBytes 4 peer.credential.length ++ peer.credential) ++
    (beBytes 4 peer.capabilities.length ++ peer.capabilities.map PeerCapability.toU8)

/-- `doh_servers` and `stun_servers`: nothing at all when the list is empty. -/
def encodeServers (servers : List String) : List UInt8 :=
  if servers.isEmpty then []
  else beBytes 4 servers.length ++ servers.flatMap encodeString

namespace NetworkSnapshot

/-- `b"VELA-NETWORK-SNAPSHOT-v4"`. -/
def domain : List UInt8 := stringBytes "VELA-NETWORK-SNAPSHOT-v4"

def sortedPeers (s : NetworkSnapshot) : List PeerInfo :=
  s.peers.insertionSort fun a b => a.nodeId.le b.nodeId

def sortedOnline (s : NetworkSnapshot) : List NodeId := s.onlinePeers.insertionSort NodeId.le

def unsignedBytes (s : NetworkSnapshot) : List UInt8 :=
  domain ++ s.networkId.toList ++ beBytes 8 s.generation.toNat ++ encodeIpv4Cidr s.virtualIpv4 ++
    encodeIpv6Cidr s.virtualIpv6 ++ encodeServers s.dohServers ++ encodeServers s.stunServers ++
    (beBytes 4 s.peers.length ++ s.sortedPeers.flatMap encodePeer) ++
    (beBytes 4 s.sortedOnline.length ++ s.sortedOnline.flatMap fun id => id.bytes.toList) ++
    beBytes 8 s.expiresAt.toNat

end NetworkSnapshot

/-! ### What the encoding keeps -/

/-- Flow information and scope id of an IPv6 address. -/
def SocketAddr.scope : SocketAddr → Option (UInt32 × UInt32)
  | .v4 _ _ => none
  | .v6 _ _ flowinfo scopeId => some (flowinfo, scopeId)

def SocketAddr.unscoped : SocketAddr → SocketAddr
  | .v4 ip port => .v4 ip port
  | .v6 ip port _ _ => .v6 ip port 0 0

def Candidate.unscoped : Candidate → Candidate
  | .host address => .host address.unscoped
  | .serverReflexive address => .serverReflexive address.unscoped
  | .peerReflexive address => .peerReflexive address.unscoped

def PeerInfo.unscoped (peer : PeerInfo) : PeerInfo :=
  { peer with candidates := peer.candidates.map Candidate.unscoped }

/-- The scopes of a peer's candidates, in order. -/
def PeerInfo.scopes (peer : PeerInfo) : List (Option (UInt32 × UInt32)) :=
  peer.candidates.map fun c => c.address.scope

lemma SocketAddr.ext_unscoped {a b : SocketAddr} (h : a.unscoped = b.unscoped)
    (hs : a.scope = b.scope) : a = b := by
  cases a <;> cases b <;> simp_all [SocketAddr.unscoped, SocketAddr.scope]

lemma Candidate.ext_unscoped {a b : Candidate} (h : a.unscoped = b.unscoped)
    (hs : a.address.scope = b.address.scope) : a = b := by
  cases a <;> cases b <;> simp only [Candidate.unscoped, reduceCtorEq, Candidate.host.injEq,
    Candidate.serverReflexive.injEq, Candidate.peerReflexive.injEq] at h ⊢
  all_goals exact SocketAddr.ext_unscoped h hs

lemma PeerInfo.ext_unscoped {a b : PeerInfo} (h : a.unscoped = b.unscoped)
    (hs : a.scopes = b.scopes) : a = b := by
  have hc : a.candidates = b.candidates := by
    have hu : a.candidates.map Candidate.unscoped = b.candidates.map Candidate.unscoped :=
      congrArg PeerInfo.candidates h
    have hlen : a.candidates.length = b.candidates.length := by simpa using congrArg List.length hu
    refine List.ext_getElem hlen fun i ha hb => Candidate.ext_unscoped ?_ ?_
    · simpa [ha, hb] using congrArg (fun l => l[i]?) hu
    · simpa [PeerInfo.scopes, ha, hb] using congrArg (fun l => l[i]?) hs
  cases a
  cases b
  simp_all [PeerInfo.unscoped]

/-! ### The parts are unambiguous -/

section Parts

/-- No condition on the value. -/
abbrev Any {α : Type} : α → Prop := fun _ => True

variable {α : Type}

lemma unambiguous_array {n : ℕ} {f : α → Vector UInt8 n} (hf : Function.Injective f) :
    Unambiguous Any id fun a => (f a).toList :=
  Unambiguous.of_length (fun _ => Vector.length_toList) fun _ _ _ _ h =>
    hf (Vector.toList_inj.1 h)

lemma unambiguous_u64 : Unambiguous Any id fun x : UInt64 => beBytes 8 x.toNat :=
  Unambiguous.of_length (fun _ => length_beBytes ..) fun a b _ _ h =>
    UInt64.toNat_inj.1 (beBytes_inj a.toNat_lt b.toNat_lt h)

lemma unambiguous_u16 : Unambiguous Any id fun x : UInt16 => beBytes 2 x.toNat :=
  Unambiguous.of_length (fun _ => length_beBytes ..) fun a b _ _ h =>
    UInt16.toNat_inj.1 (beBytes_inj a.toNat_lt b.toNat_lt h)

lemma unambiguous_count : Unambiguous (· < 2 ^ 32) id (beBytes 4) := unambiguous_beBytes 4

lemma ipv4Addr_injective : Function.Injective Ipv4Addr.octets := fun a b h => by
  cases a; cases b; simp_all

lemma ipv6Addr_injective : Function.Injective Ipv6Addr.octets := fun a b h => by
  cases a; cases b; simp_all

lemma nodeId_injective : Function.Injective NodeId.bytes := fun a b h => by
  cases a; cases b; simp_all

/-- The pattern of the four optional fields: `0`, or `1` and the value. -/
lemma unambiguous_optional {enc : α → List UInt8} {encode : Option α → List UInt8}
    (hsome : ∀ a, encode (some a) = 1 :: enc a) (hnone : encode none = [0]) (h : Unambiguous Any id enc) :
    Unambiguous Any id encode := by
  have ho := h.option (show (1 : UInt8) ≠ 0 by decide)
  have he : encode = fun o => o.elim [0] fun a => 1 :: enc a := by
    funext o
    cases o
    · exact hnone
    · exact hsome _
  rw [he]
  exact (ho.mono (by simp)).view fun a b _ _ hab => by simpa using hab

lemma unambiguous_ipv4 : Unambiguous Any id encodeIpv4 :=
  unambiguous_optional (fun _ => rfl) rfl (unambiguous_array ipv4Addr_injective)

lemma unambiguous_ipv6 : Unambiguous Any id encodeIpv6 :=
  unambiguous_optional (fun _ => rfl) rfl (unambiguous_array ipv6Addr_injective)

lemma unambiguous_byte {f : α → UInt8} (hf : Function.Injective f) :
    Unambiguous Any id fun a => [f a] :=
  Unambiguous.of_length (fun _ => rfl) fun _ _ _ _ h => hf (List.singleton_inj.1 h)

lemma unambiguous_prefixLen : Unambiguous Any id fun b : UInt8 => [b] :=
  unambiguous_byte Function.injective_id

lemma unambiguous_ipv4Cidr : Unambiguous Any id encodeIpv4Cidr := by
  have hc := ((unambiguous_array ipv4Addr_injective).comap Ipv4Cidr.address).seq
    (unambiguous_prefixLen.comap Ipv4Cidr.prefixLen)
  refine unambiguous_optional (fun _ => rfl) rfl (hc.view fun a b _ _ hab => ?_)
  rcases a with ⟨aa, al⟩
  rcases b with ⟨ba, bl⟩
  simp_all

lemma unambiguous_ipv6Cidr : Unambiguous Any id encodeIpv6Cidr := by
  have hc := ((unambiguous_array ipv6Addr_injective).comap Ipv6Cidr.address).seq
    (unambiguous_prefixLen.comap Ipv6Cidr.prefixLen)
  refine unambiguous_optional (fun _ => rfl) rfl (hc.view fun a b _ _ hab => ?_)
  rcases a with ⟨aa, al⟩
  rcases b with ⟨ba, bl⟩
  simp_all

lemma unambiguous_vec : Unambiguous (fun l : List UInt8 => l.length < 2 ^ 32) id
    fun l => beBytes 4 l.length ++ l := by
  have h := Unambiguous.counted unambiguous_count (unambiguous_byte Function.injective_id)
  have he : (fun l : List UInt8 => beBytes 4 l.length ++ l) =
      fun l => beBytes 4 l.length ++ l.flatMap fun b => [id b] := by
    funext l
    simp
  rw [he]
  exact (h.mono fun l hl => ⟨hl, fun _ _ => trivial⟩).view fun a b _ _ hab => by simpa using hab

lemma stringBytes_injective : Function.Injective stringBytes := by
  intro a b h
  have hdata : a.toByteArray.data = b.toByteArray.data := Array.toList_inj.1 h
  exact String.toByteArray_inj.1 (ByteArray.ext hdata)

lemma unambiguous_string :
    Unambiguous (fun s : String => (stringBytes s).length < 2 ^ 32) id encodeString :=
  (unambiguous_vec.comap stringBytes).view fun _ _ _ _ h => stringBytes_injective h

lemma unambiguous_capabilities :
    Unambiguous (fun l : List PeerCapability => l.length < 2 ^ 32) id
      fun l => beBytes 4 l.length ++ l.map PeerCapability.toU8 := by
  have hinj : Function.Injective PeerCapability.toU8 := by
    intro a b _
    cases a
    cases b
    rfl
  have h := Unambiguous.counted unambiguous_count (unambiguous_byte hinj)
  have he : (fun l : List PeerCapability => beBytes 4 l.length ++ l.map PeerCapability.toU8) =
      fun l => beBytes 4 l.length ++ l.flatMap fun c => [c.toU8] := by
    funext l
    rw [List.map_eq_flatMap]
  rw [he]
  exact (h.mono fun l hl => ⟨hl, fun _ _ => trivial⟩).view fun a b _ _ hab => by simpa using hab

lemma unambiguous_socketAddress :
    Unambiguous Any SocketAddr.unscoped encodeSocketAddress := by
  have h4 := (unambiguous_array ipv4Addr_injective)
  have h6 := (unambiguous_array ipv6Addr_injective)
  intro a b r r' _ _ heq
  rcases a with ⟨ip, port⟩ | ⟨ip, port, fl, sc⟩ <;> rcases b with ⟨ip', port'⟩ | ⟨ip', port', fl', sc'⟩
  · simp only [encodeSocketAddress, SocketAddr.ip, SocketAddr.port, List.cons_append,
      List.append_assoc, List.cons.injEq, true_and] at heq
    obtain ⟨hip, hrest⟩ := h4 ip ip' _ _ trivial trivial heq
    obtain ⟨hport, hr⟩ := unambiguous_u16 port port' _ _ trivial trivial hrest
    simp only [id] at hip hport
    exact ⟨by rw [hip, hport], hr⟩
  · simp [encodeSocketAddress, SocketAddr.ip] at heq
  · simp [encodeSocketAddress, SocketAddr.ip] at heq
  · simp only [encodeSocketAddress, SocketAddr.ip, SocketAddr.port, List.cons_append,
      List.append_assoc, List.cons.injEq, true_and] at heq
    obtain ⟨hip, hrest⟩ := h6 ip ip' _ _ trivial trivial heq
    obtain ⟨hport, hr⟩ := unambiguous_u16 port port' _ _ trivial trivial hrest
    simp only [id] at hip hport
    exact ⟨by rw [hip, hport]; rfl, hr⟩

lemma unambiguous_candidate : Unambiguous Any Candidate.unscoped encodeCandidate := by
  intro a b r r' _ _ heq
  rcases a with a | a | a <;> rcases b with b | b | b <;>
    simp only [encodeCandidate, List.cons_append, List.cons.injEq, true_and] at heq
  all_goals first
    | exact absurd heq.1 (by decide)
    | (obtain ⟨hab, hr⟩ := unambiguous_socketAddress a b r r' trivial trivial heq
       exact ⟨by simp only [Candidate.unscoped, hab], hr⟩)

end Parts

/-! ### Peers and snapshots -/

/-- The lists of a peer are shorter than `2^32`. -/
structure PeerInfo.Bounded (peer : PeerInfo) : Prop where
  candidates : peer.candidates.length < 2 ^ 32
  credential : peer.credential.length < 2 ^ 32
  capabilities : peer.capabilities.length < 2 ^ 32

/-- Every string, byte vector and list of a snapshot is shorter than `2^32`. -/
structure NetworkSnapshot.Bounded (s : NetworkSnapshot) : Prop where
  dohServers : s.dohServers.length < 2 ^ 32
  dohServer : ∀ server ∈ s.dohServers, (stringBytes server).length < 2 ^ 32
  stunServers : s.stunServers.length < 2 ^ 32
  stunServer : ∀ server ∈ s.stunServers, (stringBytes server).length < 2 ^ 32
  peers : s.peers.length < 2 ^ 32
  peer : ∀ peer ∈ s.peers, peer.Bounded
  onlinePeers : s.onlinePeers.length < 2 ^ 32

lemma unambiguous_peer : Unambiguous PeerInfo.Bounded PeerInfo.unscoped encodePeer := by
  have hid := (unambiguous_array nodeId_injective).comap PeerInfo.nodeId
  have hinc := unambiguous_u64.comap PeerInfo.incarnation
  have hsign := (unambiguous_array Function.injective_id).comap PeerInfo.signingPublic
  have hnoise := (unambiguous_array Function.injective_id).comap PeerInfo.noisePublic
  have h4 := unambiguous_ipv4.comap PeerInfo.virtualIpv4
  have h6 := unambiguous_ipv6.comap PeerInfo.virtualIpv6
  have hcand := (Unambiguous.counted unambiguous_count unambiguous_candidate).comap
    PeerInfo.candidates
  have hcred := unambiguous_vec.comap PeerInfo.credential
  have hcap := unambiguous_capabilities.comap PeerInfo.capabilities
  have hfixed := (((((hid.seq hinc).seq hsign).seq hnoise).seq h4).seq h6).mono
    (Q := PeerInfo.Bounded) fun _ _ => trivial
  have hall := ((hfixed.seq (hcand.mono fun p hp => ⟨hp.candidates, fun _ _ => trivial⟩)).seq
    (hcred.mono fun p hp => hp.credential)).seq (hcap.mono fun p hp => hp.capabilities)
  refine hall.view fun a b _ _ hab => ?_
  simp only [Prod.mk.injEq, id] at hab
  cases a
  cases b
  simp_all [PeerInfo.unscoped]

lemma unambiguous_servers (omitted : Bool) :
    Unambiguous (fun l : List String => l.isEmpty = omitted ∧ l.length < 2 ^ 32 ∧
      ∀ server ∈ l, (stringBytes server).length < 2 ^ 32) id encodeServers := by
  have h := Unambiguous.counted unambiguous_count unambiguous_string
  intro l l' r r' hl hl' heq
  obtain ⟨he, hl⟩ := hl
  obtain ⟨he', hl'⟩ := hl'
  cases omitted with
  | true =>
    obtain rfl := List.isEmpty_iff.1 he
    obtain rfl := List.isEmpty_iff.1 he'
    exact ⟨rfl, by simpa [encodeServers] using heq⟩
  | false =>
    rw [encodeServers, encodeServers, he, he'] at heq
    obtain ⟨hm, hr⟩ := h l l' r r' hl hl' (by simpa using heq)
    exact ⟨by simpa using hm, hr⟩

lemma NetworkSnapshot.length_sortedPeers (s : NetworkSnapshot) :
    s.sortedPeers.length = s.peers.length :=
  List.length_insertionSort ..

variable {s t : NetworkSnapshot}

lemma NetworkSnapshot.mem_sortedPeers {p : PeerInfo} : p ∈ s.sortedPeers ↔ p ∈ s.peers :=
  List.mem_insertionSort _

/-- **What the signature covers**: among snapshots that omit the same server lists, everything but
the order of the peers and the scopes of their candidates. -/
theorem unambiguous_signed (noDoh noStun : Bool) :
    Unambiguous (fun s : NetworkSnapshot => s.Bounded ∧ s.dohServers.isEmpty = noDoh ∧
        s.stunServers.isEmpty = noStun)
      (fun s => (s.networkId, s.generation, s.virtualIpv4, s.virtualIpv6, s.dohServers,
        s.stunServers, s.sortedPeers.map PeerInfo.unscoped, s.sortedOnline, s.expiresAt))
      NetworkSnapshot.unsignedBytes := by
  have hdom : Unambiguous Any (fun _ => ()) fun _ : NetworkSnapshot => NetworkSnapshot.domain :=
    Unambiguous.of_length (fun _ => rfl) fun _ _ _ _ _ => rfl
  have hnet := (unambiguous_array Function.injective_id).comap NetworkSnapshot.networkId
  have hgen := unambiguous_u64.comap NetworkSnapshot.generation
  have h4 := unambiguous_ipv4Cidr.comap NetworkSnapshot.virtualIpv4
  have h6 := unambiguous_ipv6Cidr.comap NetworkSnapshot.virtualIpv6
  have hdoh := (unambiguous_servers noDoh).comap NetworkSnapshot.dohServers
  have hstun := (unambiguous_servers noStun).comap NetworkSnapshot.stunServers
  have hpeers := (Unambiguous.counted unambiguous_count unambiguous_peer).comap
    NetworkSnapshot.sortedPeers
  simp only [NetworkSnapshot.length_sortedPeers] at hpeers
  have honline := (Unambiguous.counted unambiguous_count
    (unambiguous_array nodeId_injective)).comap NetworkSnapshot.sortedOnline
  have hexp := unambiguous_u64.comap NetworkSnapshot.expiresAt
  have hfixed := (((((hdom.seq hnet).seq hgen).seq h4).seq h6)).mono
    (Q := fun s : NetworkSnapshot => s.Bounded ∧ s.dohServers.isEmpty = noDoh ∧
      s.stunServers.isEmpty = noStun) fun _ _ => trivial
  have hservers := (hfixed.seq (hdoh.mono fun s hs => ⟨hs.2.1, hs.1.dohServers, hs.1.dohServer⟩)).seq
    (hstun.mono fun s hs => ⟨hs.2.2, hs.1.stunServers, hs.1.stunServer⟩)
  have hlists := (hservers.seq (hpeers.mono fun s hs =>
      ⟨hs.1.peers, fun p hp => hs.1.peer p (NetworkSnapshot.mem_sortedPeers.1 hp)⟩)).seq
    (honline.mono fun s hs =>
      ⟨by rw [NetworkSnapshot.sortedOnline, List.length_insertionSort]; exact hs.1.onlinePeers,
        fun _ _ => trivial⟩)
  refine (hlists.seq (hexp.mono fun _ _ => trivial)).view fun a b _ _ hab => ?_
  simp only [Prod.mk.injEq, id, List.map_id_fun, true_and] at hab ⊢
  obtain ⟨⟨⟨⟨⟨⟨⟨⟨hnet, hgen⟩, h4⟩, h6⟩, hdoh⟩, hstun⟩, hpeers⟩, honline⟩, hexp⟩ := hab
  exact ⟨hnet, hgen, h4, h6, hdoh, hstun, hpeers, honline, hexp⟩

/-! ### Equal bytes and equal content -/

/-- Equal content: every field but the signature, the two peer lists up to order. -/
structure NetworkSnapshot.SameContent (s t : NetworkSnapshot) : Prop where
  networkId : s.networkId = t.networkId
  generation : s.generation = t.generation
  virtualIpv4 : s.virtualIpv4 = t.virtualIpv4
  virtualIpv6 : s.virtualIpv6 = t.virtualIpv6
  dohServers : s.dohServers = t.dohServers
  stunServers : s.stunServers = t.stunServers
  peers : s.peers.Perm t.peers
  onlinePeers : s.onlinePeers.Perm t.onlinePeers
  expiresAt : s.expiresAt = t.expiresAt

/-- The snapshots omit the same server lists, and their peers carry the same candidate scopes. -/
structure NetworkSnapshot.SameShape (s t : NetworkSnapshot) : Prop where
  dohServers : s.dohServers = [] ↔ t.dohServers = []
  stunServers : s.stunServers = [] ↔ t.stunServers = []
  scopes : ∀ p ∈ s.peers, ∀ q ∈ t.peers, p.nodeId = q.nodeId → p.scopes = q.scopes

lemma NetworkSnapshot.SameContent.sameShape (h : s.SameContent t)
    (hs : (s.peers.map PeerInfo.nodeId).Nodup) : s.SameShape t where
  dohServers := by rw [h.dohServers]
  stunServers := by rw [h.stunServers]
  scopes p hp q hq hpq := by
    have hq' : q ∈ s.peers := h.peers.mem_iff.2 hq
    rw [List.inj_on_of_nodup_map hs hp hq' hpq]

lemma NetworkSnapshot.SameShape.sameContent (h : s.SameShape t) (hs : s.Bounded) (ht : t.Bounded)
    (heq : s.unsignedBytes = t.unsignedBytes) :
    s.SameContent t := by
  have hdoh : t.dohServers.isEmpty = s.dohServers.isEmpty := by
    rw [Bool.eq_iff_iff, List.isEmpty_iff, List.isEmpty_iff, h.dohServers]
  have hstun : t.stunServers.isEmpty = s.stunServers.isEmpty := by
    rw [Bool.eq_iff_iff, List.isEmpty_iff, List.isEmpty_iff, h.stunServers]
  have hview := (unambiguous_signed s.dohServers.isEmpty s.stunServers.isEmpty).eq_of_eq
    ⟨hs, rfl, rfl⟩ ⟨ht, hdoh, hstun⟩ heq
  simp only [Prod.mk.injEq] at hview
  obtain ⟨hnet, hgen, h4, h6, hdoh, hstun, hpeers, honline, hexp⟩ := hview
  -- position by position the sorted peers agree up to scopes, hence on the node id, hence on scopes
  have hsorted : s.sortedPeers = t.sortedPeers := by
    have hlen : s.sortedPeers.length = t.sortedPeers.length := by
      simpa using congrArg List.length hpeers
    refine List.ext_getElem hlen fun i hi hi' => ?_
    have hu : (s.sortedPeers[i]).unscoped = (t.sortedPeers[i]).unscoped := by
      simpa [hi, hi'] using congrArg (fun l => l[i]?) hpeers
    refine PeerInfo.ext_unscoped hu (h.scopes _ ?_ _ ?_ (congrArg PeerInfo.nodeId hu :))
    · exact NetworkSnapshot.mem_sortedPeers.1 (List.getElem_mem hi)
    · exact NetworkSnapshot.mem_sortedPeers.1 (List.getElem_mem hi')
  refine ⟨hnet, hgen, h4, h6, hdoh, hstun, ?_, ?_, hexp⟩
  · have hp := (List.perm_insertionSort (fun a b : PeerInfo => a.nodeId.le b.nodeId) s.peers).symm
    refine hp.trans ?_
    change s.sortedPeers.Perm t.peers
    rw [hsorted]
    exact List.perm_insertionSort _ t.peers
  · have hp := (List.perm_insertionSort NodeId.le s.onlinePeers).symm
    refine hp.trans ?_
    change s.sortedOnline.Perm t.onlinePeers
    rw [honline]
    exact List.perm_insertionSort _ t.onlinePeers

/-- **When the signed bytes bind the content.**  Two snapshots with the same signed bytes have the
same content exactly when they omit the same server lists and agree on the candidates' scopes. -/
theorem unsignedBytes_eq_iff_sameContent (s t : NetworkSnapshot) (hs : s.Bounded) (ht : t.Bounded)
    (hd : (s.peers.map PeerInfo.nodeId).Nodup) (heq : s.unsignedBytes = t.unsignedBytes) :
    s.SameContent t ↔ s.SameShape t :=
  ⟨fun h => h.sameShape hd, fun h => h.sameContent hs ht heq⟩

/-- A snapshot without peers that names one DoH server, and the same with it as a STUN server. -/
def onlyDoh : NetworkSnapshot where
  networkId := Vector.replicate 16 7
  generation := 1
  virtualIpv4 := none
  virtualIpv6 := none
  dohServers := ["a"]
  stunServers := []
  peers := []
  onlinePeers := []
  expiresAt := 100
  signature := []

def onlyStun : NetworkSnapshot := { onlyDoh with dohServers := [], stunServers := ["a"] }

lemma unsignedBytes_onlyDoh_eq_onlyStun : onlyDoh.unsignedBytes = onlyStun.unsignedBytes := by
  decide +kernel

lemma length_stringBytes_a : (stringBytes "a").length = 1 := by decide +kernel

lemma bounded_onlyDoh : onlyDoh.Bounded := by
  constructor <;> simp [onlyDoh, length_stringBytes_a]

lemma bounded_onlyStun : onlyStun.Bounded := by
  constructor <;> simp [onlyStun, onlyDoh, length_stringBytes_a]

/-- Equal signed bytes, no peers, and different content. -/
theorem same_bytes_different_servers :
    ¬ ∀ s t : NetworkSnapshot, s.Bounded → t.Bounded → (s.peers.map PeerInfo.nodeId).Nodup →
      (t.peers.map PeerInfo.nodeId).Nodup → s.unsignedBytes = t.unsignedBytes → s.SameContent t := by
  intro h
  have hsame := h onlyDoh onlyStun bounded_onlyDoh bounded_onlyStun (by decide) (by decide)
    unsignedBytes_onlyDoh_eq_onlyStun
  exact absurd hsame.dohServers (by decide)

/-- The same two peers online, reported in the two orders. -/
def online (first second : UInt8) : NetworkSnapshot :=
  { onlyDoh with onlinePeers := [⟨Vector.replicate 32 first⟩, ⟨Vector.replicate 32 second⟩] }

lemma bounded_online (first second : UInt8) : (online first second).Bounded := by
  constructor <;> simp [online, onlyDoh, length_stringBytes_a]

theorem sameContent_online : (online 1 2).SameContent (online 2 1) :=
  (unsignedBytes_eq_iff_sameContent (online 1 2) (online 2 1) (bounded_online 1 2)
    (bounded_online 2 1) (by decide) (by decide +kernel)).2
    ⟨.rfl, .rfl, fun p hp => absurd hp (List.not_mem_nil)⟩

end Vela.Proto
