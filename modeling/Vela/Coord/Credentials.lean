import Vela.Coord.Records
import Vela.Coord.Address
import Vela.Runtime.Client

/-!
# The credentials in a snapshot

A row keeps the credential that was issued for it, and `load_peers` lists a row as long as it is not
revoked.  A client checks every record of a snapshot, at its own time, before it takes any of them.

* `credentials_accepted_iff` — then a snapshot passes exactly if every credential in it is in force;
* `credential_lapses` — nothing keeps one that has expired out of the snapshots of the others.
-/

namespace Vela.Coord

open Vela.Proto Vela.Crypto Codec Function
open Vela.Runtime (verifyPeerCredential)

/-! ### What a client accepts -/

/-- The credential of the record verifies and is about the record. -/
def Accepted (prim : Primitives) (serverPublic : Vector UInt8 32) (info : PeerInfo) (now : UInt64) :
    Prop :=
  ∃ credential, prim.credentialOfJson info.credential = some credential ∧
    credential.verify prim serverPublic now = .ok () ∧ credential.nodeId = info.nodeId ∧
    credential.signingPublic = info.signingPublic ∧ credential.noisePublic = info.noisePublic

section Clients

variable {serverPublic : Vector UInt8 32} {info : PeerInfo} {now : UInt64}

lemma not_mismatch {credential : MembershipCredential} (hnode : credential.nodeId = info.nodeId)
    (hsigning : credential.signingPublic = info.signingPublic)
    (hnoise : credential.noisePublic = info.noisePublic) :
    ¬ (credential.nodeId ≠ info.nodeId ∨ credential.signingPublic ≠ info.signingPublic ∨
      credential.noisePublic ≠ info.noisePublic) := by
  rintro (hne | hne | hne)
  · exact hne hnode
  · exact hne hsigning
  · exact hne hnoise

lemma verifyPeerCredential_of_accepted {prim : Primitives}
    (h : Accepted prim serverPublic info now) :
    verifyPeerCredential prim (some serverPublic) info now = .ok () := by
  obtain ⟨credential, hdecoded, hverify, hnode, hsigning, hnoise⟩ := h
  unfold verifyPeerCredential
  simp only [hdecoded, hverify]
  rw [if_neg (not_mismatch hnode hsigning hnoise)]

lemma checkPeer_of_accepted {suite : Suite} {node : Core.Node}
    (hkey : node.config.serverPublicKey = some serverPublic)
    (h : Accepted suite.toPrimitives serverPublic info now) :
    Core.checkPeer suite node info now = .ok () := by
  obtain ⟨credential, hdecoded, hverify, hnode, hsigning, hnoise⟩ := h
  have hid : ¬ nodeIdOf suite.toPrimitives info.signingPublic ≠ info.nodeId := by
    obtain ⟨-, -, hcredential⟩ := MembershipCredential.verify_eq_ok_iff.1 hverify
    rw [not_not, ← hnode, ← hsigning, hcredential]
  have hinfo : Core.validatePeerInfo suite info = .ok () := by
    unfold Core.validatePeerInfo
    rw [if_neg hid]
  have hcredential : Core.validateCredential suite info serverPublic now = .ok () := by
    unfold Core.validateCredential
    simp only [hdecoded, hverify]
    rw [if_neg (not_mismatch hnode hsigning hnoise)]
  unfold Core.checkPeer
  rw [hinfo, hkey]
  exact hcredential

end Clients

/-! ### What the rows keep -/

section Rows

variable (prim : Primitives) (server : Server)

/-- The bytes are a credential of the server, and the credential is about the identity. -/
structure Certifies (identity : PublicIdentity) (bytes : List UInt8) (credential : MembershipCredential) :
    Prop where
  decoded : prim.credentialOfJson bytes = some credential
  nodeId : credential.nodeId = identity.nodeId
  signingPublic : credential.signingPublic = identity.signingPublic
  noisePublic : credential.noisePublic = identity.noisePublic
  signed : credential.SignedBy prim (server.signer.publicKey prim)

def Record.identity (record : Record) : PublicIdentity where
  nodeId := record.nodeId
  signingPublic := record.signingPublic
  noisePublic := record.noisePublic

structure Enrolled (record : Record) : Prop where
  key : record.nodeId = nodeIdOf prim record.signingPublic
  certified : ∃ credential, Certifies prim server record.identity record.credential credential

/-- Every row and every row in hand is enrolled, and so is what a registration is about to store. -/
structure AllEnrolled (s : CoordState) (φ : ℕ → Progress) : Prop where
  records : RecordsHold (Enrolled prim server) s φ
  obtained : ∀ t identity bytes, (φ t).obtained = some (identity, bytes) →
    ∃ credential, Certifies prim server identity bytes credential

/-- What the other crates do for the credentials of a server: a signature verifies, and the JSON text
of a credential is read back. -/
structure Server.Issues : Prop where
  signs : server.signer.Signs prim
  json : ∀ credential : MembershipCredential, credential.tenant = server.tenant →
    prim.credentialOfJson (prim.credentialToJson credential) = some credential

/-- A registration by credential names the keys that are in the row of the node. -/
def NamesStoredKeys (cfg : TrackedCfg) : Pool.Move Env Request → Prop
  | .spawn _ _ => True
  | .step t _ => ∀ n row identity, cfg.at t = some (.selectCredential n) →
      cfg.shared.liveRow n = some row → (cfg.phase t).identity prim = some identity →
      identity.signingPublic = row.signingPublic ∧ identity.noisePublic = row.noisePublic

end Rows

variable {prim : Primitives} {server : Server}

lemma enrolled_over (a b : Record) (ha : Enrolled prim server a) (_ : Enrolled prim server b) :
    Enrolled prim server (a.over b) := ⟨ha.key, ha.certified⟩

variable {s : CoordState} {c : Section} {γ : Progress} {e : Env} {cfg : TrackedCfg} {t : ℕ}

lemma registerWithInvite_certifies (hserver : server.Issues prim) {clock : ℕ → UInt64} {nodeId : NodeId}
    {signingPublic noisePublic : Vector UInt8 32} {token : String} {registration : InviteRegistration}
    (h : (s.registerWithInvite prim server clock nodeId signingPublic noisePublic token).1 =
      .ok registration) :
    Certifies prim server ⟨nodeId, signingPublic, noisePublic⟩
      (prim.credentialToJson registration.credential) registration.credential := by
  unfold CoordState.registerWithInvite at h
  simp only at h
  split at h
  · cases h
  · split at h
    · cases h
    · obtain rfl := Except.ok.inj h
      exact
        { decoded := hserver.json _ rfl
          nodeId := rfl
          signingPublic := rfl
          noisePublic := rfl
          signed := MembershipCredential.signedBy_sign hserver.signs rfl }

/-! ### What one section keeps -/

/-- The sections that give a registration its credential, and those that start over. -/
def Obtains : Section → Prop
  | .recv _ _ | .registerWithInvite _ _ _ _ | .selectCredential _ => True
  | _ => False

lemma next_obtained (hc : ¬ Obtains c) (r : Response c) :
    (γ.next prim server c r).obtained = γ.obtained := by
  unfold Progress.next
  split <;> first | rfl | exact absurd trivial hc | (split <;> rfl)

lemma obtained_next (hserver : server.Issues prim) {identity : PublicIdentity} {bytes : List UInt8}
    (h : (γ.next prim server c (perform prim server e c s).1).obtained = some (identity, bytes)) :
    γ.obtained = some (identity, bytes) ∨
      (∃ credential, Certifies prim server identity bytes credential) ∨
      ∃ n row, c = .selectCredential n ∧ s.liveRow n = some row ∧
        γ.identity prim = some identity ∧ row.credential = bytes := by
  by_cases hc : Obtains c
  · cases c with
    | recv => cases h
    | registerWithInvite nodeId signingPublic noisePublic token =>
      revert h
      simp only [perform, Env.database]
      split
      · exact .inl
      · intro h
        cases hissued : (s.registerWithInvite prim server e.clock nodeId signingPublic noisePublic
          token).1 with
        | error error =>
          rw [hissued] at h
          exact .inl h
        | ok registration =>
          rw [hissued] at h
          cases h
          exact .inr (.inl ⟨_, registerWithInvite_certifies hserver hissued⟩)
    | selectCredential n =>
      revert h
      simp only [perform, Env.database]
      split
      · exact .inl
      · intro h
        cases hrow : s.liveRow n with
        | none =>
          rw [hrow] at h
          exact .inl h
        | some row =>
          rw [hrow] at h
          obtain ⟨found, hfound, heq⟩ := Option.map_eq_some_iff.1 h
          cases heq
          exact .inr (.inr ⟨n, row, rfl, hrow, hfound, rfl⟩)
    | _ => cases hc
  · rw [next_obtained hc] at h
    exact .inl h

lemma allEnrolled_step (hserver : server.Issues prim) (h : AllEnrolled prim server cfg.shared cfg.phase)
    (hguard : NamesStoredKeys prim cfg (.step t e)) (hat : cfg.at t = some c)
    (hok : (cfg.phase t).Allows prim c) :
    AllEnrolled prim server (perform prim server e c cfg.shared).2 (update cfg.phase t
      ((cfg.phase t).next prim server c (perform prim server e c cfg.shared).1)) := by
  refine ⟨recordsHold_step enrolled_over h.records hok fun peer hpeer => ?_, ?_⟩
  · exact ⟨hpeer.key, h.obtained t _ _ hpeer.credential⟩
  · refine Pool.forall_update (P := fun _ (γ : Progress) => ∀ identity bytes,
      γ.obtained = some (identity, bytes) → ∃ credential, Certifies prim server identity bytes
        credential) (fun identity bytes hu => ?_) h.obtained
    rcases obtained_next hserver hu with hheld | hissued | ⟨n, row, rfl, hrow, hidentity, rfl⟩
    · exact h.obtained t identity bytes hheld
    · exact hissued
    · -- the stored credential is about the row, and the registration names what is in the row
      obtain ⟨named, hnamed, hnode⟩ := hok
      rw [hidentity] at hnamed
      cases hnamed
      obtain ⟨hsigning, hnoise⟩ := hguard n row identity hat hrow hidentity
      obtain ⟨credential, hcredential⟩ :=
        (h.records.rows n row (Option.filter_eq_some_iff.1 hrow).1).certified
      exact ⟨credential,
        { decoded := hcredential.decoded
          nodeId := hcredential.nodeId.trans hnode.symm
          signingPublic := hcredential.signingPublic.trans hsigning.symm
          noisePublic := hcredential.noisePublic.trans hnoise.symm
          signed := hcredential.signed }⟩

lemma allEnrolled_spawn {s' : CoordState} {φ : ℕ → Progress} {q : Request}
    (h : AllEnrolled prim server s φ) (ha : q.accept s = some s') :
    AllEnrolled prim server s' (update φ t Progress.idle) := by
  refine ⟨recordsHold_spawn h.records ha, ?_⟩
  exact Pool.forall_update (P := fun _ (γ : Progress) => ∀ identity bytes,
    γ.obtained = some (identity, bytes) → ∃ credential, Certifies prim server identity bytes
      credential) (fun _ _ hu => by cases hu) h.obtained

lemma allEnrolled_of_reachable (hserver : server.Issues prim) {init : CoordState}
    (hinit : ∀ n row, init.peers.lookup n = some row → Enrolled prim server (row.record n))
    (h : (Tracked prim server).Reachable (NamesStoredKeys prim) ((Tracked prim server).initial init) cfg) :
    AllEnrolled prim server cfg.shared cfg.phase := by
  refine (h.invariant_rest (fun t => ⟨⟨⟩, rfl⟩)
    (fun _ => ⟨trivial, rfl⟩) ⟨recordsHold_initial hinit, fun _ _ _ ht => by cases ht⟩
    (fun _ _ q _ => body_progresses q) ?_ ?_).1
  · intro s s' φ t q hall _ ha
    exact allEnrolled_spawn hall ha
  · intro cfg t e c r s' hall hguard hat hok hexec
    obtain ⟨rfl, rfl⟩ := Prod.mk.inj (Option.some.inj hexec)
    exact allEnrolled_step hserver hall hguard hat hok

lemma accepted_iff_inForce {peer : StoredPeer} (h : Enrolled prim server peer.record) (now : UInt64) :
    Accepted prim (server.signer.publicKey prim) (privatePeer peer) now ↔
      ∃ credential, prim.credentialOfJson (privatePeer peer).credential = some credential ∧
        credential.InForce now := by
  obtain ⟨credential, hcredential⟩ := h.certified
  constructor
  · rintro ⟨found, hfound, hverify, -⟩
    exact ⟨found, hfound, (MembershipCredential.verify_eq_ok_iff.1 hverify).1⟩
  · rintro ⟨found, hfound, hforce⟩
    obtain rfl : credential = found := by
      have hboth := hcredential.decoded.symm.trans hfound
      exact Option.some.inj hboth
    have hnode : credential.nodeId = nodeIdOf prim credential.signingPublic := by
      rw [hcredential.nodeId, hcredential.signingPublic]
      exact h.key
    exact ⟨credential, hfound, MembershipCredential.verify_eq_ok_iff.2 ⟨hforce, hcredential.signed, hnode⟩,
      hcredential.nodeId, hcredential.signingPublic, hcredential.noisePublic⟩

/-- **When the records of a snapshot are accepted.**  `now` is the clock that `network_snapshot` reads
last; where every credential is in force then, no client with that clock refuses a record. -/
theorem credentials_accepted_iff (suite : Suite) (server : Server)
    (hserver : server.Issues suite.toPrimitives) (init : CoordState)
    (hinit : ∀ n row, init.peers.lookup n = some row →
      Enrolled suite.toPrimitives server (row.record n))
    (cfg : TrackedCfg) (h : (Tracked suite.toPrimitives server).Reachable
      (NamesStoredKeys suite.toPrimitives) ((Tracked suite.toPrimitives server).initial init) cfg)
    (t : ℕ) (hbuild : (cfg.phase t).build = .generation) (now : UInt64) (snapshot : NetworkSnapshot)
    (hsigned : ((cfg.phase t).next suite.toPrimitives server .unixTime now).signed = some snapshot) :
    ((∀ info ∈ snapshot.peers,
        Accepted suite.toPrimitives (server.signer.publicKey suite.toPrimitives) info now) ↔
      ∀ info ∈ snapshot.peers, ∃ credential,
        suite.credentialOfJson info.credential = some credential ∧ credential.InForce now) ∧
    ((∀ info ∈ snapshot.peers, ∃ credential,
        suite.credentialOfJson info.credential = some credential ∧ credential.InForce now) →
      ∀ info ∈ snapshot.peers,
        verifyPeerCredential suite.toPrimitives (some (server.signer.publicKey suite.toPrimitives))
          info now = .ok () ∧
        ∀ node : Core.Node,
          node.config.serverPublicKey = some (server.signer.publicKey suite.toPrimitives) →
          Core.checkPeer suite node info now = .ok ()) := by
  have hall := allEnrolled_of_reachable hserver hinit h
  have hpeers : snapshot.peers = (cfg.phase t).peers.map privatePeer := by
    have hsnapshot : (cfg.phase t).snapshot suite.toPrimitives server now = snapshot := by
      simp only [Progress.next, if_pos hbuild] at hsigned
      exact Option.some.inj hsigned
    rw [← hsnapshot]
    rfl
  have heach : ∀ info ∈ snapshot.peers,
      (Accepted suite.toPrimitives (server.signer.publicKey suite.toPrimitives) info now ↔
        ∃ credential, suite.credentialOfJson info.credential = some credential ∧
          credential.InForce now) := by
    intro info hinfo
    rw [hpeers] at hinfo
    obtain ⟨peer, hpeer, rfl⟩ := List.mem_map.1 hinfo
    exact accepted_iff_inForce (hall.records.listed t peer hpeer) now
  refine ⟨forall₂_congr heach, fun hforce info hinfo => ?_⟩
  have haccepted := (heach info hinfo).2 (hforce info hinfo)
  exact ⟨verifyPeerCredential_of_accepted haccepted,
    fun node hkey => checkPeer_of_accepted hkey haccepted⟩

/-! ### A credential that has expired -/

section Lapse

/-- A credential as bytes, in place of its JSON text. -/
def encodeCredential (c : MembershipCredential) : List UInt8 :=
  c.nodeId.bytes.toList ++ (c.signingPublic.toList ++ (c.noisePublic.toList ++ (c.serverKeyId.toList ++
    (beBytes 8 c.issuedAt.toNat ++ (beBytes 8 c.expiresAt.toNat ++ c.signature)))))

def decodeCredential (tenant : String) (bytes : List UInt8) : Option MembershipCredential := do
  let nodeId ← toArray? 32 (bytes.take 32)
  let bytes := bytes.drop 32
  let signingPublic ← toArray? 32 (bytes.take 32)
  let bytes := bytes.drop 32
  let noisePublic ← toArray? 32 (bytes.take 32)
  let bytes := bytes.drop 32
  let serverKeyId ← toArray? 32 (bytes.take 32)
  let bytes := bytes.drop 32
  let issuedAt := UInt64.ofNat (ofBeBytes (bytes.take 8))
  let bytes := bytes.drop 8
  let expiresAt := UInt64.ofNat (ofBeBytes (bytes.take 8))
  some { nodeId := ⟨nodeId⟩, signingPublic, noisePublic, tenant, issuedAt, expiresAt, serverKeyId
         signature := bytes.drop 8 }

lemma decode_encodeCredential (c : MembershipCredential) :
    decodeCredential c.tenant (encodeCredential c) = some c := by
  have hkey : ∀ (v : Vector UInt8 32) (rest : List UInt8),
      toArray? 32 ((v.toList ++ rest).take 32) = some v ∧ (v.toList ++ rest).drop 32 = rest := by
    intro v rest
    have hlength : v.toList.length = 32 := by simp
    rw [List.take_left' hlength, List.drop_left' hlength, toArray?_toList]
    exact ⟨rfl, rfl⟩
  have htime : ∀ (x : UInt64) (rest : List UInt8),
      UInt64.ofNat (ofBeBytes ((beBytes 8 x.toNat ++ rest).take 8)) = x ∧
        (beBytes 8 x.toNat ++ rest).drop 8 = rest := by
    intro x rest
    have hlength : (beBytes 8 x.toNat).length = 8 := length_beBytes 8 _
    have hlt : x.toNat < 256 ^ 8 := x.toNat_lt
    rw [List.take_left' hlength, List.drop_left' hlength, ofBeBytes_beBytes, Nat.mod_eq_of_lt hlt]
    exact ⟨UInt64.ofNat_toNat, rfl⟩
  unfold decodeCredential encodeCredential
  simp only [hkey, htime, Option.bind_eq_bind, Option.bind_some]

/-- The credential that the first peer gets at the time 10. -/
def firstCredential : MembershipCredential :=
  (MembershipCredential.unsigned ⟨demoNode, demoKey, demoKey⟩ "t" (10 + 365 * 24 * 3600)
    (demoServer.signer.keyId twinPrim) 10).sign twinPrim demoServer.signer

def lapsePrim : Primitives :=
  { twinPrim with
    base64Decode := fun text =>
      if text = "first" then some (encodeCredential firstCredential) else twinPrim.base64Decode text
    credentialToJson := encodeCredential
    credentialOfJson := decodeCredential "t" }

def lapseSuite : Suite := { Core.demoSuite with toPrimitives := lapsePrim }

lemma lapsePrim_issues : demoServer.Issues lapsePrim where
  signs := ⟨rfl, fun _ => rfl⟩
  json credential htenant := by
    have htenant : credential.tenant = "t" := htenant
    rw [← decode_encodeCredential credential, htenant]
    rfl

def lapseState : CoordState :=
  { twinState with
    invites := demoState.invites.insert (demoHash (stringBytes "ticket"))
      { demoInvite with expiresAt := 100000000 } }

def lateEnv : Env := { clock := fun _ => 40000000, fault := none, isOpen := true }

/-- The first peer joins; when its credential has expired, another one joins and is at the point where
`network_snapshot` reads the clock. -/
def lapseMoves : List (Pool.Move Env Request) :=
  .spawn 0 (.socket 7 [demoRegister "key" "" (some "token")]) :: (List.replicate 17 (.step 0 demoEnv) ++
    .spawn 1 (.socket 8 [twinRegister]) :: List.replicate 14 (.step 1 lateEnv))

def lapseEnd : {cfg // (Tracked lapsePrim demoServer).Reachable (fun _ _ => True)
      ((Tracked lapsePrim demoServer).initial lapseState) cfg ∧ (cfg.phase 1).build = .generation ∧
      (cfg.phase 1).peers.any fun peer =>
        (lapsePrim.credentialOfJson peer.credential).any fun c => c.expiresAt < 40000000} :=
  Pool.Spec.reach (fun _ _ => true) (fun _ _ _ => trivial) lapseMoves (by decide +kernel)

lemma lapseState_enrolled (n : NodeId) (row : PeerRow) (h : lapseState.peers.lookup n = some row) :
    Enrolled lapsePrim demoServer (row.record n) := by
  cases h

theorem credential_lapses :
    ¬ ∀ (prim : Primitives) (server : Server), server.Issues prim → ∀ init : CoordState,
      (∀ n row, init.peers.lookup n = some row → Enrolled prim server (row.record n)) →
      ∀ cfg : TrackedCfg, (Tracked prim server).Reachable (fun _ _ => True)
        ((Tracked prim server).initial init) cfg →
      ∀ t, (cfg.phase t).build = .generation → ∀ now snapshot,
        ((cfg.phase t).next prim server .unixTime now).signed = some snapshot →
        ∀ info ∈ snapshot.peers, Accepted prim (server.signer.publicKey prim) info now := by
  intro h
  obtain ⟨cfg, hreach, hbuild, hexpired⟩ := lapseEnd
  obtain ⟨peer, hpeer, hany⟩ := List.any_eq_true.1 hexpired
  cases hdecoded : lapsePrim.credentialOfJson peer.credential with
  | none =>
    rw [hdecoded] at hany
    cases hany
  | some credential =>
    rw [hdecoded] at hany
    have hlate : credential.expiresAt < 40000000 := of_decide_eq_true hany
    have hmem : privatePeer peer ∈
        ((cfg.phase 1).snapshot lapsePrim demoServer 40000000).peers := List.mem_map_of_mem hpeer
    have hsigned : ((cfg.phase 1).next lapsePrim demoServer .unixTime 40000000).signed =
        some ((cfg.phase 1).snapshot lapsePrim demoServer 40000000) := by
      simp only [Progress.next, if_pos hbuild]
    obtain ⟨found, hfound, hverify, -⟩ := h lapsePrim demoServer lapsePrim_issues lapseState
      lapseState_enrolled cfg hreach 1 hbuild 40000000 _ hsigned _ hmem
    obtain rfl := Option.some.inj (hdecoded.symm.trans hfound)
    exact (MembershipCredential.verify_eq_ok_iff.1 hverify).1.unexpired hlate

/-- Every registration by credential in the run names the stored keys. -/
def namesStoredKeys (cfg : TrackedCfg) : Pool.Move Env Request → Bool
  | .spawn _ _ => true
  | .step t _ =>
    match cfg.at t with
    | some (.selectCredential n) =>
      match cfg.shared.liveRow n, (cfg.phase t).identity lapsePrim with
      | some row, some identity =>
        identity.signingPublic == row.signingPublic && identity.noisePublic == row.noisePublic
      | _, _ => true
    | _ => true

def renewMoves : List (Pool.Move Env Request) :=
  .spawn 0 (.socket 7 [demoRegister "key" "" (some "token"), demoRegister "key" "first" none]) ::
    List.replicate 32 (.step 0 demoEnv)

lemma namesStoredKeys_sound (cfg : TrackedCfg) (m : Pool.Move Env Request)
    (hm : namesStoredKeys cfg m = true) : NamesStoredKeys lapsePrim cfg m := by
  cases m with
  | spawn => trivial
  | step t e =>
    intro n row identity hat hrow hidentity
    simpa [namesStoredKeys, hat, hrow, hidentity] using hm

def renewEnd : {cfg // (Tracked lapsePrim demoServer).Reachable (NamesStoredKeys lapsePrim)
      ((Tracked lapsePrim demoServer).initial lapseState) cfg ∧ (cfg.phase 0).build = .generation ∧
      (cfg.phase 0).peers.length = 1 ∧ ∀ peer ∈ (cfg.phase 0).peers,
        lapsePrim.credentialOfJson peer.credential = some firstCredential} :=
  Pool.Spec.reach _ namesStoredKeys_sound renewMoves (by decide +kernel)

theorem credentials_accepted_renewed :
    ∃ (cfg : TrackedCfg) (snapshot : NetworkSnapshot),
      (Tracked lapsePrim demoServer).Reachable (NamesStoredKeys lapsePrim)
        ((Tracked lapsePrim demoServer).initial lapseState) cfg ∧
      ((cfg.phase 0).next lapsePrim demoServer .unixTime 10).signed = some snapshot ∧
      snapshot.peers.length = 1 ∧
      ∀ info ∈ snapshot.peers, Accepted lapsePrim (demoServer.signer.publicKey lapsePrim) info 10 := by
  obtain ⟨cfg, hreach, hbuild, hlength, hcurrent⟩ := renewEnd
  have hsigned : ((cfg.phase 0).next lapsePrim demoServer .unixTime 10).signed =
      some ((cfg.phase 0).snapshot lapsePrim demoServer 10) := by
    simp only [Progress.next, if_pos hbuild]
  refine ⟨cfg, _, hreach, hsigned, (List.length_map _).trans hlength, ?_⟩
  refine (credentials_accepted_iff lapseSuite demoServer lapsePrim_issues lapseState
    lapseState_enrolled cfg hreach 0 hbuild 10 _ hsigned).1.2 fun info hinfo => ?_
  obtain ⟨peer, hpeer, rfl⟩ := List.mem_map.1 hinfo
  exact ⟨firstCredential, hcurrent peer hpeer, by decide +kernel, by decide +kernel, by decide +kernel⟩

end Lapse

end Vela.Coord
