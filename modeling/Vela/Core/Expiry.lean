import Vela.Core.Inbound

/-!
# Expired authority

What the data plane does for a peer once the snapshot or the peer's credential has expired.

* `expired_authority` — both, for the operations of the application.
-/

namespace Vela.Core

open Vela.Proto Vela.Crypto Vela.Ip Prog

variable {suite : Suite} {node : Node} {now : UInt64}

/-- An IP packet is encrypted for `p`. -/
def EncryptsFor (p : PeerRef) (c : Section) : Prop :=
  ∃ encryption, c = .encryptPacket encryption ∧ encryption.peer = p

/-- The peer has a session, and the packet is not too large for it. -/
def NodeState.Fits (node : Node) (s : NodeState) (p : PeerRef) (packet : IpPacket) : Prop :=
  ∃ session, (s.heap p).active = some session ∧ packet.bytes.length ≤ node.config.virtualMtu ∧
    packet.bytes.length ≤ node.config.maxPayloadSize ∧
    packet.bytes.length ≤ session.pathMtu.confirmed ∧ packet.bytes.length + 16 < 2 ^ 16

instance (s : NodeState) (p : PeerRef) (packet : IpPacket) : Decidable (s.Fits node p packet) :=
  match h : (s.heap p).active with
  | none => isFalse (by rintro ⟨session, hsession, -⟩; simp [h] at hsession)
  | some session => decidable_of_iff (packet.bytes.length ≤ node.config.virtualMtu ∧
      packet.bytes.length ≤ node.config.maxPayloadSize ∧
      packet.bytes.length ≤ session.pathMtu.confirmed ∧ packet.bytes.length + 16 < 2 ^ 16)
      ⟨fun hfits => ⟨session, h, hfits⟩, by
        rintro ⟨session', hsession, hfits⟩
        obtain rfl := Option.some.inj (h.symm.trans hsession)
        exact hfits⟩

/-! ### Slots -/

lemma mem_oks {ε α : Type} {slots : List (Except ε α)} {a : α} : a ∈ oks slots ↔ .ok a ∈ slots := by
  rw [oks, List.mem_filterMap]
  constructor
  · rintro ⟨slot, hslot, ha⟩
    cases slot with
    | ok b =>
      cases ha
      exact hslot
    | error e => cases ha
  · exact fun h => ⟨.ok a, h, rfl⟩

variable {x : IpPacket} {s s' : NodeState} {p : PeerRef} {c : Section}

lemma mem_oks_checkSize {packets : List IpPacket} :
    x ∈ oks (packets.map (checkSize node)) ↔ x ∈ packets ∧
      x.bytes.length ≤ node.config.virtualMtu ∧ x.bytes.length ≤ node.config.maxPayloadSize := by
  rw [mem_oks, List.mem_map]
  constructor
  · rintro ⟨y, hy, h⟩
    unfold checkSize at h
    split at h
    · cases h
    · rename_i hsize
      obtain rfl := Except.ok.inj h
      exact ⟨hy, by omega, by omega⟩
  · rintro ⟨hx, hmtu, hmax⟩
    refine ⟨x, hx, ?_⟩
    rw [checkSize, if_neg]
    omega

lemma mem_assigned {confirmed : ℕ} {valid : List IpPacket} {next : UInt64} :
    (∃ sequence, (sequence, x) ∈ oks (List.zipWith assignSequence
      (takeSequences confirmed (valid.map fun packet => packet.bytes.length) next).1 valid)) ↔
      x ∈ valid ∧ x.bytes.length ≤ confirmed := by
  simp only [mem_oks]
  induction valid generalizing next with
  | nil => simp [takeSequences]
  | cons y valid ih =>
    simp only [List.map_cons, takeSequences]
    split
    · rename_i hsize
      simp only [List.zipWith_cons_cons, assignSequence, List.mem_cons, reduceCtorEq, false_or, ih]
      constructor
      · exact fun h => ⟨.inr h.1, h.2⟩
      · rintro ⟨rfl | hx, hle⟩
        · omega
        · exact ⟨hx, hle⟩
    · rename_i hsize
      simp only [List.zipWith_cons_cons, assignSequence, List.mem_cons, Except.ok.injEq,
        Prod.mk.injEq, exists_or, ih]
      constructor
      · rintro (⟨sequence, -, rfl⟩ | ⟨hx, hle⟩)
        · exact ⟨.inl rfl, by omega⟩
        · exact ⟨.inr hx, hle⟩
      · rintro ⟨rfl | hx, hle⟩
        · exact .inl ⟨next, rfl, rfl⟩
        · exact .inr ⟨hx, hle⟩

/-! ### Encryption -/

section Encryption

variable {p : PeerRef} {session : PreparedSession}

lemma length_of_prepared {sequence : UInt64} {x : IpPacket} {prepared : PreparedDataPacket}
    (h : prepareEncryptedDataPacket suite p session sequence x = .ok prepared) :
    x.bytes.length + 16 < 2 ^ 16 := by
  unfold prepareEncryptedDataPacket at h
  split at h
  · cases h
  · rename_i header hheader
    unfold Header.new at hheader
    split at hheader
    · assumption
    · cases hheader

lemma prepared_of_length (hseal : Seals suite) (sequence : UInt64) {x : IpPacket}
    (h : x.bytes.length + 16 < 2 ^ 16) :
    ∃ prepared, prepareEncryptedDataPacket suite p session sequence x = .ok prepared := by
  have hheader : ∃ header, Header.new .data session.sessionId sequence (x.bytes.length + 16) =
      .ok header := by
    rw [Header.new, if_pos h]
    exact ⟨_, rfl⟩
  obtain ⟨header, hheader⟩ := hheader
  have hlength : x.bytes.length < 2 ^ 16 := by omega
  have hencrypt := hseal session.cipher.tx (nonce sequence) (encodedHeader header) x.bytes hlength
  obtain ⟨⟨ciphertext, tag⟩, hencrypt⟩ := Option.isSome_iff_exists.1 hencrypt
  rw [prepareEncryptedDataPacket, hheader]
  simp only [SessionCipher.encrypt, hencrypt]
  exact ⟨_, rfl⟩

lemma encryptOne_errors {item : UInt64 × IpPacket} (h : 2 ^ 16 ≤ item.2.bytes.length + 16) :
    (encryptOne suite p session item).Within (fun c => c = .worker) fun result =>
      ∃ error, result = .error error := by
  unfold encryptOne
  split
  · exact ⟨_, rfl⟩
  · rename_i prepared hprepared
    have hlength := length_of_prepared hprepared
    omega

lemma encryptChunk_errors {chunk : List (UInt64 × IpPacket)}
    (h : ∀ item ∈ chunk, 2 ^ 16 ≤ item.2.bytes.length + 16) :
    (encryptChunk suite p session chunk).Within (fun c => c = .worker) fun results =>
      ∀ result ∈ results, ∃ error, result = .error error := by
  refine ⟨rfl, fun failed => ?_⟩
  cases failed with
  | none => exact Within.collect _ _ fun item hitem => encryptOne_errors (h item hitem)
  | some text =>
    intro result hresult
    obtain ⟨item, -, rfl⟩ := List.mem_map.1 hresult
    exact ⟨_, rfl⟩

variable {work : List (UInt64 × IpPacket)}

lemma encryptWork_errors (h : ∀ item ∈ work, 2 ^ 16 ≤ item.2.bytes.length + 16) :
    (encryptWork suite node p session work).Within (fun c => c = .worker) fun results =>
      ∀ result ∈ results, ∃ error, result = .error error := by
  unfold encryptWork
  split
  · have hchunks := fun size => Within.collect _ (chunks size work) fun chunk hchunk =>
      @encryptChunk_errors suite p session chunk fun item hitem =>
        h item (mem_of_mem_chunks hchunk hitem)
    refine Within.bind (hchunks _) fun results hresults result hresult => ?_
    obtain ⟨results', hmem, hresult⟩ := List.mem_flatten.1 hresult
    exact hresults results' hmem result hresult
  · exact Within.collect _ _ fun item hitem => encryptOne_errors (h item hitem)

variable {Q : List Preparation → NodeState → Prop} {s : NodeState}

lemma collect_encrypts (hseal : Seals suite) (h : ∃ item ∈ work, item.2.bytes.length + 16 < 2 ^ 16) :
    ¬ (Prog.collect (encryptOne suite p session) work).avoids (execAt suite node now)
      (EncryptsFor p) Q s := by
  intro havoids
  obtain ⟨item, hitem, hlength⟩ := h
  induction work generalizing Q s with
  | nil => cases hitem
  | cons first work ih =>
    have hfirst := avoids_bind.1 havoids
    unfold encryptOne at hfirst
    split at hfirst
    · rename_i error herror
      rcases List.mem_cons.1 hitem with rfl | hitem
      · obtain ⟨prepared, hprepared⟩ := @prepared_of_length suite p session hseal item.1 item.2 hlength
        rw [hprepared] at herror
        cases herror
      · exact ih (avoids_bind.1 hfirst) hitem
    · exact hfirst.1 ⟨_, rfl, rfl⟩

lemma chunks_encrypt (hseal : Seals suite) {cs : List (List (UInt64 × IpPacket))}
    {Q : List (List Preparation) → NodeState → Prop}
    (h : ∃ chunk ∈ cs, ∃ item ∈ chunk, item.2.bytes.length + 16 < 2 ^ 16) :
    ¬ (Prog.collect (encryptChunk suite p session) cs).avoids (execAt suite node now)
      (EncryptsFor p) Q s := by
  intro havoids
  obtain ⟨chunk, hchunk, hshort⟩ := h
  induction cs generalizing Q s with
  | nil => cases hchunk
  | cons first cs ih =>
    have hfirst := avoids_bind.1 havoids
    by_cases hlong : ∀ item ∈ first, 2 ^ 16 ≤ item.2.bytes.length + 16
    · -- nothing in the first chunk is encrypted; the run goes on
      have hmay : (encryptChunk suite p session first).may (execAt suite node now)
          (fun results _ => True ∧ ∀ result ∈ results, ∃ error, result = .error error) s := by
        refine Within.may (fun c s hc _ => ?_) (encryptChunk_errors hlong)
          trivial
        subst hc
        exact ⟨default, _, _, rfl, trivial⟩
      obtain ⟨results, s', hrest, -⟩ := avoids_may hfirst hmay
      rcases List.mem_cons.1 hchunk with rfl | hchunk
      · obtain ⟨item, hitem, hlength⟩ := hshort
        have := hlong item hitem
        omega
      · exact ih (avoids_bind.1 hrest) hchunk
    · -- a worker that does not fail encrypts a packet of the first chunk
      have hworker := hfirst.2 default none s rfl
      obtain ⟨item, hitem⟩ := not_forall.1 hlong
      obtain ⟨hitem, hlength⟩ := Classical.not_imp.1 hitem
      exact collect_encrypts hseal ⟨item, hitem, by omega⟩ hworker

lemma encryptWork_encrypts (hseal : Seals suite) (h : ∃ item ∈ work, item.2.bytes.length + 16 < 2 ^ 16) :
    ¬ (encryptWork suite node p session work).avoids (execAt suite node now) (EncryptsFor p) Q s := by
  unfold encryptWork
  split
  · rename_i hparallel
    obtain ⟨hmany, hworkers⟩ := hparallel
    refine fun havoids => chunks_encrypt hseal ?_ (avoids_bind.1 havoids)
    have hsize : 0 < divCeil work.length
        (min (min dataEncryptMaxWorkers node.dataWorkers) work.length) := by
      unfold dataEncryptParallelThreshold at hmany
      unfold divCeil dataEncryptMaxWorkers
      refine Nat.div_pos ?_ ?_ <;> omega
    obtain ⟨item, hitem, hlength⟩ := h
    rw [← flatten_chunks hsize work] at hitem
    obtain ⟨chunk, hchunk, hitem⟩ := List.mem_flatten.1 hitem
    exact ⟨chunk, hchunk, item, hitem, hlength⟩
  · exact collect_encrypts hseal h

end Encryption

/-! ### Preparation -/

/-- What the send path does to the node: sessions may end, and keep what they know of the path. -/
structure Sent (s s' : NodeState) : Prop where
  expiresAt : s'.snapshotExpiresAt = s.snapshotExpiresAt
  active : ∀ p b, (s'.heap p).active = some b →
    ∃ a, (s.heap p).active = some a ∧ b.pathMtu.confirmed = a.pathMtu.confirmed

namespace Sent

variable {s s' s'' : NodeState}

lemma refl (s : NodeState) : Sent s s := ⟨rfl, fun _ b hb => ⟨b, hb, rfl⟩⟩

lemma trans (h : Sent s s') (h' : Sent s' s'') : Sent s s'' := by
  refine ⟨h'.expiresAt.trans h.expiresAt, fun p c hc => ?_⟩
  obtain ⟨b, hb, hbc⟩ := h'.active p c hc
  obtain ⟨a, ha, hab⟩ := h.active p b hb
  exact ⟨a, ha, hbc.trans hab⟩

lemma of_calmly (h : Calmly s s') : Sent s s' := by
  refine ⟨h.expiresAt, fun p b hb => ?_⟩
  obtain ⟨a, ha, hunused⟩ := (h.peer p).session hb
  exact ⟨a, ha, hunused.confirmed⟩

lemma fits (h : Sent s s') {p : PeerRef} {x : IpPacket} (hx : s'.Fits node p x) : s.Fits node p x := by
  obtain ⟨b, hb, hmtu, hmax, hconfirmed, hlength⟩ := hx
  obtain ⟨a, ha, hab⟩ := h.active p b hb
  exact ⟨a, ha, hmtu, hmax, hab ▸ hconfirmed, hlength⟩

end Sent

lemma Calmly.fits (h : Calmly s s') (hx : s.Fits node p x) : s'.Fits node p x := by
  obtain ⟨a, ha, hmtu, hmax, hconfirmed, hlength⟩ := hx
  have hrel := (h.peer p).active
  rw [ha] at hrel
  generalize hb : (s'.heap p).active = active at hrel
  cases hrel with
  | some hunused => exact ⟨_, hb, hmtu, hmax, hunused.confirmed ▸ hconfirmed, hlength⟩

/-- The sections of the send path. -/
def Sending : Section → Prop
  | .peer _ (.takeActive _) | .removeSession _ _ | .encryptPacket _ => True
  | c => Calm c

lemma sending_step {e : Env} (hc : Sending c) {r : Response c}
    (h : exec suite node e c s = some (r, s')) : Sent s s' := by
  have hcalm : Calm c → Sent s s' := fun hcalm => .of_calmly (calm_step hcalm h)
  cases c with
  | peer p op =>
    cases op with
    | takeActive expected =>
      obtain rfl : s.setPeer p (performPeer suite node e (s.heap p) (.takeActive expected)).2 = s' :=
        congrArg Prod.snd (Option.some.inj h)
      refine ⟨rfl, fun q b hb => ?_⟩
      by_cases hq : q = p
      · subst hq
        rcases @takeActive_cases suite node e (s.heap q) expected with h | h
        · rw [h] at hb
          exact ⟨b, by simpa [NodeState.setPeer] using hb, rfl⟩
        · rw [h] at hb
          simp [NodeState.setPeer] at hb
      · exact ⟨b, by simpa [NodeState.setPeer, hq] using hb, rfl⟩
    | _ => exact hcalm hc
  | removeSession p id =>
    cases h
    unfold NodeState.removeSession
    split
    · exact ⟨rfl, fun _ b hb => ⟨b, hb, rfl⟩⟩
    · exact .refl s
  | encryptPacket encryption => exact .of_calmly (encryptPacket_calmly encryption h)
  | _ => exact hcalm hc

/-- The sections of the send path that encrypt nothing for `p`. -/
def Mute (p : PeerRef) (c : Section) : Prop := Sending c ∧ ¬ EncryptsFor p c

lemma mute_calm (hc : Calm c) : Mute p c := by
  refine ⟨?_, ?_⟩
  · cases c with
    | peer q op => cases op <;> first | exact hc | trivial
    | _ => first | exact hc | trivial
  · rintro ⟨encryption, rfl, -⟩
    exact hc

section Mute

variable {p q : PeerRef} {s₀ s : NodeState}

lemma mute_avoids {α : Type} {prog : Task α} {post : α → Prop} (h : prog.Within (Mute p) post)
    (hs : Sent s₀ s) :
    prog.avoids (execAt suite node now) (EncryptsFor p) (fun a s => Sent s₀ s ∧ post a) s :=
  h.avoids (fun _ hc => hc.2) (fun _ _ _ _ _ hc hs he => hs.trans (sending_step hc.1 he)) hs

/-- The discipline of the programs that encrypt nothing for `p`. -/
abbrev muteDiscipline (p : PeerRef) : Discipline Section Response :=
  .within Response (Mute p)

lemma muteDiscipline_calm (c : Section) (hc : Mild c) : (muteDiscipline p).holds (call c) :=
  ⟨mute_calm hc.calm, fun _ => trivial⟩

lemma muteDiscipline_invalidate (q : PeerRef) (expected : Option UInt64) (request : Bool) :
    (muteDiscipline p).holds (invalidateSessionIf q expected request) := by
  refine holds_invalidateSessionIf muteDiscipline_calm (fun q expected => ?_) (fun q id => ?_)
    (fun nodeId => ?_) q expected request
  · exact ⟨⟨trivial, nofun⟩, fun _ => trivial⟩
  · exact ⟨⟨trivial, nofun⟩, fun _ => trivial⟩
  · exact ⟨⟨trivial, nofun⟩, fun _ => trivial⟩

variable {packets : List IpPacket}

lemma fits_of_assigned {session : ActiveSession} (hactive : (s.heap p).active = some session)
    {item : UInt64 × IpPacket}
    (hitem : item ∈ oks (List.zipWith assignSequence (takeSequences session.pathMtu.confirmed
      ((oks (packets.map (checkSize node))).map fun packet => packet.bytes.length)
      session.txSequence).1 (oks (packets.map (checkSize node)))))
    (hlength : item.2.bytes.length + 16 < 2 ^ 16) : item.2 ∈ packets ∧ s.Fits node p item.2 := by
  obtain ⟨hvalid, hconfirmed⟩ := mem_assigned.1 ⟨item.1, hitem⟩
  obtain ⟨hmem, hmtu, hmax⟩ := mem_oks_checkSize.1 hvalid
  exact ⟨hmem, session, hactive, hmtu, hmax, hconfirmed, hlength⟩

lemma prepareActive_sequences {peer : PeerState} {sizes : List ℕ} {session : PreparedSession}
    (h : (peer.prepareActive sizes).1 = some session) :
    ∃ active, peer.active = some active ∧
      session.sequences = (takeSequences active.pathMtu.confirmed sizes active.txSequence).1 := by
  unfold PeerState.prepareActive at h
  split at h
  · cases h
  · rename_i active hactive
    cases h
    exact ⟨active, hactive, rfl⟩

lemma prepareValid_avoids (hs : Sent s₀ s) (h : ∀ x ∈ packets, ¬ s₀.Fits node p x) :
    (prepareValid suite node p (oks (packets.map (checkSize node)))).avoids (execAt suite node now)
      (EncryptsFor p) (fun _ s' => Sent s₀ s') s := by
  refine avoids_callBind.2 ⟨nofun, fun e prepared s' he => ?_⟩
  have hs' := hs.trans (sending_step (c := .peer p (.prepareActive _)) trivial he)
  cases prepared with
  | none =>
    refine avoids_callBind.2 ⟨nofun, fun e taken s'' he => ?_⟩
    exact hs'.trans (sending_step (c := .peer p (.pushQueue _)) trivial he)
  | some session =>
    have hprepared : ((s.heap p).prepareActive ((oks (packets.map (checkSize node))).map
        fun packet => packet.bytes.length)).1 = some session :=
      congrArg Prod.fst (Option.some.inj he)
    obtain ⟨active, hactive, hsequences⟩ := prepareActive_sequences hprepared
    have hlong : ∀ item ∈ oks (List.zipWith assignSequence session.sequences
        (oks (packets.map (checkSize node)))), 2 ^ 16 ≤ item.2.bytes.length + 16 := by
      intro item hitem
      by_contra hlength
      rw [hsequences] at hitem
      obtain ⟨hmem, hfits⟩ := fits_of_assigned hactive hitem (by omega)
      exact h _ hmem (hs.fits hfits)
    have hmute : (encryptWork suite node p session (oks (List.zipWith assignSequence
        session.sequences (oks (packets.map (checkSize node)))))).Within (Mute p) fun _ => True :=
      (encryptWork_errors hlong).mono (fun c hc => hc ▸ mute_calm trivial) fun _ _ => trivial
    exact avoids_bind.2 (avoids_mono (fun _ _ h => h.1) (mute_avoids hmute hs'))

/-- **What is not encrypted**: nothing once the snapshot has expired, nothing for another peer, and
no packet that does not fit. -/
theorem prepareIpPackets_avoids (hs : Sent s₀ s)
    (h : s₀.snapshotExpiresAt ≤ now ∨ (q = p → ∀ x ∈ packets, ¬ s₀.Fits node p x)) :
    (prepareIpPackets suite node q packets).avoids (execAt suite node now) (EncryptsFor p)
      (fun _ s' => Sent s₀ s') s := by
  unfold prepareIpPackets
  split
  · exact hs
  refine avoids_callBind.2 ⟨nofun, fun e time s' he => ?_⟩
  cases he
  refine avoids_callBind.2 ⟨nofun, fun e expiresAt s' he => ?_⟩
  cases he
  rw [hs.expiresAt]
  split
  · have hmute := muteDiscipline_invalidate (p := p) q none true
    exact avoids_bind.2 (avoids_mono (fun _ _ h => h.1) (mute_avoids hmute hs))
  rename_i hcurrent
  dsimp only
  split
  · exact hs
  refine avoids_bind.2 (avoids_mono (fun _ _ h => h) ?_)
  have hfits := h.resolve_left hcurrent
  by_cases hq : q = p
  · subst hq
    exact prepareValid_avoids hs (hfits rfl)
  · have hmute : (muteDiscipline p).holds (prepareValid suite node q
        (oks (packets.map (checkSize node)))) := by
      refine holds_prepareValid (muteDiscipline_calm _ trivial) q (fun encryption hpeer => ?_)
        (fun _ => muteDiscipline_calm _ trivial) (fun _ => muteDiscipline_calm _ trivial) _
      refine ⟨⟨trivial, ?_⟩, fun _ => trivial⟩
      rintro ⟨_, ⟨⟩, hp⟩
      exact hq (hpeer.symm.trans hp)
    exact avoids_mono (fun _ _ h => h.1) (mute_avoids hmute hs)

/-- **What is encrypted**: while the snapshot is current, every packet that fits, or one before it;
the credential of the peer is not looked at. -/
theorem prepareIpPackets_encrypts (hseal : Seals suite) (hcurrent : ¬ s.snapshotExpiresAt ≤ now)
    {x : IpPacket} (hx : x ∈ packets) (hfits : s.Fits node p x) {Q : List Preparation → NodeState → Prop} :
    ¬ (prepareIpPackets suite node p packets).avoids (execAt suite node now) (EncryptsFor p) Q s := by
  intro havoids
  obtain ⟨session, hactive, hmtu, hmax, hconfirmed, hlength⟩ := hfits
  have hvalid : x ∈ oks (packets.map (checkSize node)) := mem_oks_checkSize.2 ⟨hx, hmtu, hmax⟩
  rw [prepareIpPackets, if_neg (List.ne_nil_of_mem hx)] at havoids
  have hclock := avoids_step havoids default rfl
  have hprepare := avoids_step hclock default rfl
  rw [if_neg hcurrent] at hprepare
  dsimp only at hprepare
  rw [if_neg (List.ne_nil_of_mem hvalid)] at hprepare
  have hsome : ∃ prepared, ((s.heap p).prepareActive ((oks (packets.map (checkSize node))).map
      fun packet => packet.bytes.length)).1 = some prepared := by
    simp only [PeerState.prepareActive, hactive]
    exact ⟨_, rfl⟩
  obtain ⟨prepared, hprepared⟩ := hsome
  have hexec : execAt suite node now default (.peer p (.prepareActive
      ((oks (packets.map (checkSize node))).map fun packet => packet.bytes.length))) s =
      some (some prepared, s.setPeer p ((s.heap p).prepareActive
        ((oks (packets.map (checkSize node))).map fun packet => packet.bytes.length)).2) := by
    rw [← hprepared]
    rfl
  have hwork := avoids_step (avoids_bind.1 hprepare) default hexec
  obtain ⟨active, hactive', hsequences⟩ := prepareActive_sequences hprepared
  obtain rfl := Option.some.inj (hactive.symm.trans hactive')
  refine encryptWork_encrypts hseal ?_ (avoids_bind.1 hwork)
  obtain ⟨sequence, hitem⟩ := mem_assigned.2 ⟨hvalid, hconfirmed⟩
  exact ⟨(sequence, x), hsequences ▸ hitem, hlength⟩

end Mute

/-! ### The operations of the send path -/

section Operations

variable {p q : PeerRef} {s₀ s : NodeState}

variable {x : IpPacket} {group : List (IpPacket × PeerRef)}

lemma sendIpPacket_avoids (hs : Sent s₀ s)
    (h : s₀.snapshotExpiresAt ≤ now ∨ (q = p → ¬ s₀.Fits node p x)) :
    (sendIpPacket suite node q x).run.avoids (execAt suite node now) (EncryptsFor p)
      (fun _ s' => Sent s₀ s') s := by
  have hpackets : s₀.snapshotExpiresAt ≤ now ∨ (q = p → ∀ y ∈ [x], ¬ s₀.Fits node p y) :=
    h.imp_right fun h hq y hy => List.mem_singleton.1 hy ▸ h hq
  refine avoids_bindExcept.2 (avoids_lift.2 ?_)
  refine avoids_mono (fun results s hs => ?_) (prepareIpPackets_avoids hs hpackets)
  dsimp only
  split
  · exact hs
  · have hmute := holds_sendPrepared muteDiscipline_calm (muteDiscipline_invalidate (p := p)) ‹_›
    exact avoids_mono (fun _ _ h => h.1) (mute_avoids hmute hs)
  · exact hs
  · exact hs

lemma sendIpPacket_encrypts (hseal : Seals suite) (hcurrent : ¬ s.snapshotExpiresAt ≤ now)
    (hfits : s.Fits node p x) {Q : Except SendError Unit → NodeState → Prop} :
    ¬ (sendIpPacket suite node p x).run.avoids (execAt suite node now) (EncryptsFor p) Q s := by
  intro havoids
  have hprepare := avoids_lift.1 (avoids_bindExcept.1 havoids)
  exact prepareIpPackets_encrypts hseal hcurrent (List.mem_singleton_self x) hfits hprepare

/-- Sections of the preparation that are always enabled. -/
def Preparing : Section → Prop
  | .peer _ .active | .peer _ .attempt | .peer _ (.prepareActive _) | .peer _ (.pushQueue _) => True
  | .worker | .encryptPacket _ => True
  | _ => False

lemma preparing_step {c : Section} (hc : Preparing c) (hs : Calmly s₀ s) :
    ∃ e r s', execAt suite node now e c s = some (r, s') ∧ Calmly s₀ s' := by
  have hcalm : ∀ {r : Response c} {s' : NodeState}, Calm c →
      execAt suite node now default c s = some (r, s') →
      ∃ e r s', execAt suite node now e c s = some (r, s') ∧ Calmly s₀ s' :=
    fun hcalm he => ⟨default, _, _, he, hs.trans (calm_step hcalm he)⟩
  cases c with
  | peer q op =>
    cases op with
    | active | attempt | prepareActive _ | pushQueue _ => exact hcalm trivial rfl
    | _ => exact hc.elim
  | worker => exact hcalm trivial rfl
  | encryptPacket encryption =>
    exact ⟨default, _, _, rfl, hs.trans
      (@encryptPacket_calmly suite node { (default : Env) with unixTime := now } s encryption _ rfl)⟩
  | _ => exact hc.elim

lemma preparing_may {α : Type} {prog : Task α}
    (h : (Discipline.within Response Preparing).holds prog) :
    prog.may (execAt suite node now) (fun _ s' => Calmly s s') s :=
  may_mono (fun _ _ h => h.1) (Within.may (fun _ _ => preparing_step) h (.refl s))

lemma shouldConnect_may (q : PeerRef) :
    (shouldConnect q).may (execAt suite node now) (fun _ s' => Calmly s s') s :=
  preparing_may (holds_shouldConnect ⟨trivial, fun _ => trivial⟩ ⟨trivial, fun _ => trivial⟩)

lemma of_routePacket (h : s.routePacket x = .ok q) :
    ∃ nodeId, s.routes.validateOutbound x = .ok nodeId ∧ s.peers.lookup nodeId = some q := by
  unfold NodeState.routePacket at h
  split at h
  · cases h
  · rename_i nodeId houtbound
    split at h
    · cases h
    · obtain rfl := Except.ok.inj h
      exact ⟨nodeId, houtbound, ‹_›⟩

lemma routePacket_ok {nodeId : NodeId} (h : s.routes.validateOutbound x = .ok nodeId)
    (hq : s.peers.lookup nodeId = some q) :
    s.routePacket x = .ok q := by
  rw [NodeState.routePacket, h]
  simp only [hq]

/-- **`send_ip`** encrypts nothing for `p` if and only if the snapshot has expired or there is no
packet that is routed to `p` and fits. -/
theorem sendIp_avoids_iff (hseal : Seals suite) (bytes : List UInt8) :
    (sendIp suite node bytes).run.avoids (execAt suite node now) (EncryptsFor p) (fun _ _ => True) s ↔
      s.snapshotExpiresAt ≤ now ∨
        ∀ x, IpPacket.parse bytes = .ok x → s.routePacket x = .ok p → ¬ s.Fits node p x := by
  constructor
  · intro havoids
    by_contra hcontra
    obtain ⟨hcurrent, hx⟩ := not_or.1 hcontra
    push Not at hx
    obtain ⟨x, hparse, hroute, hfits⟩ := hx
    obtain ⟨nodeId, houtbound, hlookup⟩ := of_routePacket hroute
    have hrouted := avoids_bindExcept.1 havoids
    rw [hparse] at hrouted
    have hfound := avoids_step (avoids_lift.1 (avoids_bindExcept.1 hrouted)) default rfl
    rw [houtbound] at hfound
    have hrouted := avoids_bindExcept.1 hfound
    have hpeer := avoids_step (avoids_lift.1 (avoids_bindExcept.1 hrouted)) default rfl
    rw [hlookup] at hpeer
    have hpeer := avoids_bindExcept.1 hpeer
    have hconnect := avoids_lift.1 (avoids_bindExcept.1 hpeer)
    obtain ⟨connect, s', hsend, hcalm⟩ := avoids_may hconnect (shouldConnect_may p)
    refine sendIpPacket_encrypts hseal ?_ (hcalm.fits hfits)
      (avoids_lift.1 (avoids_bindExcept.1 hsend))
    rw [hcalm.expiresAt]
    exact hcurrent
  · intro h
    refine avoids_bindExcept.2 ?_
    cases hparse : IpPacket.parse bytes with
    | error error => trivial
    | ok x =>
      refine avoids_bindExcept.2 (avoids_lift.2 ⟨nofun, fun e routed s' he => ?_⟩)
      cases he
      refine avoids_bindExcept.2 ?_
      cases houtbound : s.routes.validateOutbound x with
      | error error => trivial
      | ok nodeId =>
        refine avoids_bindExcept.2 (avoids_lift.2 ⟨nofun, fun e found s' he => ?_⟩)
        cases he
        refine avoids_bindExcept.2 ?_
        cases hlookup : s.peers.lookup nodeId with
        | none => trivial
        | some q =>
          have hroute := routePacket_ok houtbound hlookup
          have hfits : s.snapshotExpiresAt ≤ now ∨ (q = p → ¬ s.Fits node p x) := by
            refine h.imp_right fun h hq => h x hparse ?_
            rw [hroute, hq]
          have hconnect := holds_shouldConnect
            (muteDiscipline_calm (p := p) (.peer q .active) trivial)
            (muteDiscipline_calm (.peer q .attempt) trivial)
          refine avoids_bindExcept.2 (avoids_lift.2 (avoids_mono (fun connect s' h => ?_)
            (mute_avoids hconnect (.refl s))))
          refine avoids_bindExcept.2 (avoids_lift.2 (avoids_mono (fun result s' hs => ?_)
            (sendIpPacket_avoids h.1 hfits)))
          have hrest : (muteDiscipline p).holds (do
              lift (when (isIo result) (scheduleReconnect q))
              lift (when (result.toBool && connect) (requestConnection nodeId))
              ofExcept result : NodeM SendError Unit).run := by
            refine Discipline.bindExcept _ (Discipline.lift _ (holds_when ?_)) fun _ => ?_
            · exact holds_scheduleReconnect muteDiscipline_calm q
            refine Discipline.bindExcept _ (Discipline.lift _ (holds_when ?_)) fun _ => ?_
            · exact holds_requestConnection muteDiscipline_calm nodeId
            · exact holds_ofExcept result
          exact avoids_mono (fun _ _ _ => trivial) (mute_avoids hrest hs)

lemma encryptWork_refuses {session : PreparedSession} (sequence : UInt64) {x : IpPacket}
    (h : 2 ^ 16 ≤ x.bytes.length + 16) :
    ∃ error, encryptWork suite node p session [(sequence, x)] = .ret [.error error] := by
  -- one packet is encrypted by the task itself
  have hone : encryptWork suite node p session [(sequence, x)] =
      Prog.collect (encryptOne suite p session) [(sequence, x)] :=
    if_neg (by simp [dataEncryptParallelThreshold])
  have hrefused : ∃ error, encryptOne suite p session (sequence, x) = .ret (.error error) := by
    unfold encryptOne
    split
    · exact ⟨_, rfl⟩
    · have hlength := length_of_prepared ‹_›
      dsimp only at hlength
      omega
  obtain ⟨error, hrefused⟩ := hrefused
  refine ⟨error, ?_⟩
  rw [hone, Prog.collect, hrefused]
  rfl

lemma prepareValid_refuses {session : ActiveSession} (hsession : (s.heap p).active = some session)
    {x : IpPacket} (h : ¬ (x.bytes.length ≤ session.pathMtu.confirmed ∧ x.bytes.length + 16 < 2 ^ 16)) :
    (prepareValid suite node p [x]).avoids (execAt suite node now) (EncryptsFor p)
      (fun results _ => ∃ error, results = [.error error]) s := by
  refine avoids_callBind.2 ⟨nofun, fun e prepared s' he => ?_⟩
  have hprepared : ((s.heap p).prepareActive [x.bytes.length]).1 = prepared :=
    congrArg Prod.fst (Option.some.inj he)
  cases prepared with
  | none =>
    simp only [PeerState.prepareActive, hsession] at hprepared
    cases hprepared
  | some prepared =>
    obtain ⟨active, hactive, hsequences⟩ := prepareActive_sequences hprepared
    obtain rfl := Option.some.inj (hsession.symm.trans hactive)
    dsimp only
    by_cases hconfirmed : session.pathMtu.confirmed < x.bytes.length
    · have hnone : prepared.sequences = [none] := by
        rw [hsequences]
        simp [takeSequences, hconfirmed]
      rw [hnone]
      exact ⟨.packetTooLarge, rfl⟩
    · have hsome : prepared.sequences = [some session.txSequence] := by
        rw [hsequences]
        simp [takeSequences, hconfirmed]
      obtain ⟨error, hrefused⟩ := @encryptWork_refuses suite node p prepared session.txSequence x
        (by omega)
      rw [hsome]
      have hwork : (encryptWork suite node p prepared [(session.txSequence, x)]).avoids
          (execAt suite node now) (EncryptsFor p) (fun results _ => results = [.error error]) s' := by
        rw [hrefused]
        exact rfl
      refine avoids_bind.2 (avoids_mono (fun results _ hresults => ?_) hwork)
      exact ⟨error, by rw [hresults]; rfl⟩

lemma sendIpPacket_refuses (hcurrent : ¬ s.snapshotExpiresAt ≤ now) (hactive : (s.heap p).active.isSome)
    (hfits : ¬ s.Fits node p x) :
    (sendIpPacket suite node p x).run.avoids (execAt suite node now) (EncryptsFor p)
      (fun result _ => ∃ error, result = .error error) s := by
  refine avoids_bindExcept.2 (avoids_lift.2 ?_)
  have hone : (prepareIpPackets suite node p [x]).avoids (execAt suite node now) (EncryptsFor p)
      (fun results _ => ∃ error, results = [.error error]) s := by
    rw [prepareIpPackets, if_neg (List.cons_ne_nil _ _)]
    refine avoids_callBind.2 ⟨nofun, fun e time s' he => ?_⟩
    cases he
    refine avoids_callBind.2 ⟨nofun, fun e expiresAt s' he => ?_⟩
    cases he
    rw [if_neg hcurrent]
    dsimp only [List.map]
    unfold checkSize
    split
    · exact ⟨.packetTooLarge, rfl⟩
    · rename_i hsize
      obtain ⟨session, hsession⟩ := Option.isSome_iff_exists.1 hactive
      have hrefuses := @prepareValid_refuses suite node now p s session hsession x fun h =>
        hfits ⟨session, hsession, by omega, by omega, h⟩
      refine avoids_bind.2 (avoids_mono (fun results _ hresults => ?_) hrefuses)
      obtain ⟨error, rfl⟩ := hresults
      exact ⟨error, rfl⟩
  refine avoids_mono (fun results s h => ?_) hone
  obtain ⟨error, rfl⟩ := h
  exact ⟨error, rfl⟩

lemma sendPayload_avoids (hs : Sent s₀ s) {payload : List UInt8}
    (h : s₀.snapshotExpiresAt ≤ now ∨ ∀ x, ¬ s₀.Fits node p x) :
    (sendPayload suite node p payload).run.avoids (execAt suite node now) (EncryptsFor p)
      (fun _ s' => Sent s₀ s') s := by
  refine avoids_bindExcept.2 ?_
  cases hparse : IpPacket.parse payload with
  | error error => exact hs
  | ok x =>
    refine avoids_bindExcept.2 (avoids_lift.2 ⟨nofun, fun e routed s' he => ?_⟩)
    cases he
    refine avoids_bindExcept.2 ?_
    cases houtbound : s.routes.validateOutbound x with
    | error error => exact hs
    | ok nodeId =>
      dsimp only [Except.mapError, ofExcept, ExceptT.mk, ExceptT.run, Prog.avoids]
      split
      · exact hs
      · exact sendIpPacket_avoids hs (h.imp_right fun h _ => h x)

lemma flushQueue_avoids (hs : Sent s₀ s)
    (h : s₀.snapshotExpiresAt ≤ now ∨ ∀ x, ¬ s₀.Fits node p x) (fuel : ℕ) :
    (flushQueue suite node fuel p).avoids (execAt suite node now) (EncryptsFor p)
      (fun _ s' => Sent s₀ s') s := by
  induction fuel generalizing s with
  | zero => exact ⟨nofun, nofun⟩
  | succ fuel ih =>
    refine avoids_callBind.2 ⟨nofun, fun e payload s' he => ?_⟩
    have hs := hs.trans (sending_step (c := .peer p .popQueue) trivial he)
    cases payload with
    | none => exact hs
    | some payload =>
      refine avoids_bind.2 (avoids_mono (fun result s hs => ?_) (sendPayload_avoids hs h))
      cases result with
      | error error => exact hs
      | ok _ => exact ih hs

/-- **`flush_queue`** encrypts nothing for its peer if and only if the snapshot has expired or the
first packet of the queue is not routed to the peer or does not fit. -/
theorem flushQueue_avoids_iff (hseal : Seals suite) (fuel : ℕ) :
    (flushQueue suite node (fuel + 1) p).avoids (execAt suite node now) (EncryptsFor p)
      (fun _ _ => True) s ↔ s.snapshotExpiresAt ≤ now ∨
        ∀ bytes x, (s.heap p).queue.head? = some bytes → IpPacket.parse bytes = .ok x →
          s.routes.validateOutbound x = .ok p.nodeId → ¬ s.Fits node p x := by
  constructor
  · intro havoids
    by_contra hcontra
    obtain ⟨hcurrent, hx⟩ := not_or.1 hcontra
    push Not at hx
    obtain ⟨bytes, x, hhead, hparse, houtbound, hfits⟩ := hx
    have hexec : execAt suite node now default (.peer p .popQueue) s = some (some bytes,
        s.setPeer p { s.heap p with queue := (s.heap p).queue.tail }) := by
      rw [← hhead]
      rfl
    have hcalm := calm_step (c := .peer p .popQueue) trivial hexec
    have hpayload := avoids_bind.1 (avoids_step havoids default hexec)
    have hrouted := avoids_bindExcept.1 hpayload
    rw [hparse] at hrouted
    have hsend := avoids_step (avoids_lift.1 (avoids_bindExcept.1 hrouted)) default rfl
    rw [hcalm.routes, houtbound] at hsend
    have hsend := avoids_bindExcept.1 hsend
    dsimp only [Except.mapError, ofExcept, ExceptT.mk, ExceptT.run, Prog.avoids] at hsend
    rw [if_neg (not_not.2 rfl)] at hsend
    refine sendIpPacket_encrypts hseal ?_ (hcalm.fits hfits) hsend
    rw [hcalm.expiresAt]
    exact hcurrent
  · intro h
    by_cases hexpired : s.snapshotExpiresAt ≤ now
    · exact avoids_mono (fun _ _ _ => trivial) (flushQueue_avoids (.refl s) (.inl hexpired) _)
    by_cases hactive : (s.heap p).active.isSome
    swap
    · have hnone : ∀ x, ¬ s.Fits node p x := by
        rintro x ⟨session, hsession, -⟩
        exact hactive (by rw [hsession]; rfl)
      exact avoids_mono (fun _ _ _ => trivial) (flushQueue_avoids (.refl s) (.inr hnone) _)
    refine avoids_callBind.2 ⟨by simp [EncryptsFor], fun e payload s' he => ?_⟩
    have hcalm := calm_step (c := .peer p .popQueue) trivial he
    have hhead : (s.heap p).queue.head? = payload := congrArg Prod.fst (Option.some.inj he)
    have hactive' : (s'.heap p).active.isSome := by
      obtain rfl := congrArg Prod.snd (Option.some.inj he)
      simpa [NodeState.setPeer, performPeer] using hactive
    cases payload with
    | none => trivial
    | some payload =>
      have hrefused : (sendPayload suite node p payload).run.avoids (execAt suite node now)
          (EncryptsFor p) (fun result _ => ∃ error, result = .error error) s' := by
        refine avoids_bindExcept.2 ?_
        cases hparse : IpPacket.parse payload with
        | error error => exact ⟨_, rfl⟩
        | ok x =>
          refine avoids_bindExcept.2 (avoids_lift.2 ⟨by simp [EncryptsFor], fun e routed s'' he => ?_⟩)
          cases he
          refine avoids_bindExcept.2 ?_
          cases houtbound : s'.routes.validateOutbound x with
          | error error => exact ⟨_, rfl⟩
          | ok nodeId =>
            dsimp only [Except.mapError, ofExcept, ExceptT.mk, ExceptT.run, Prog.avoids]
            split
            · exact ⟨_, rfl⟩
            · rename_i hpeer
              obtain rfl := not_not.1 hpeer
              refine sendIpPacket_refuses (hcalm.expiresAt ▸ hexpired) hactive' fun hfits => ?_
              rw [hcalm.routes] at houtbound
              exact (h.resolve_left hexpired) payload x hhead hparse houtbound
                ((Sent.of_calmly hcalm).fits hfits)
      refine avoids_bind.2 (avoids_mono (fun result _ hresult => ?_) hrefused)
      obtain ⟨error, rfl⟩ := hresult
      trivial

lemma mem_oks_parsed {packets : List (List UInt8)} :
    x ∈ oks (packets.map fun bytes => (IpPacket.parse bytes).mapError SendError.ip) ↔
      ∃ bytes ∈ packets, IpPacket.parse bytes = .ok x := by
  rw [mem_oks, List.mem_map]
  exact exists_congr fun bytes => and_congr_right fun _ =>
    ⟨of_mapError, fun h => by rw [h]; rfl⟩

lemma mem_oks_routed {xs : List IpPacket} :
    (x, q) ∈ oks (List.zipWith (fun packet route => route.map (packet, ·)) xs
      (xs.map s.routePacket)) ↔ x ∈ xs ∧ s.routePacket x = .ok q := by
  rw [mem_oks, List.zipWith_map_right]
  induction xs with
  | nil => simp
  | cons y xs ih =>
    simp only [List.zipWith_cons_cons, List.mem_cons, ih]
    have hy : (.ok (x, q) : Except SendError _) = (s.routePacket y).map (y, ·) ↔
        x = y ∧ s.routePacket y = .ok q := by
      cases s.routePacket y with
      | error error => simp [Except.map]
      | ok q' =>
        simp only [Except.map, Except.ok.injEq, Prod.mk.injEq]
        exact and_congr_right fun _ => eq_comm
    rw [hy]
    constructor
    · rintro (⟨rfl, h⟩ | ⟨hx, h⟩)
      · exact ⟨.inl rfl, h⟩
      · exact ⟨.inr hx, h⟩
    · rintro ⟨rfl | hx, h⟩
      · exact .inl ⟨rfl, h⟩
      · exact .inr ⟨hx, h⟩

lemma group_peer (hkeys : s.Keyed) {routed : List (IpPacket × PeerRef)}
    (hrouted : ∀ entry ∈ routed, s.routePacket entry.1 = .ok entry.2)
    (hgroup : group ∈ routed.splitBy fun a b => a.2.nodeId == b.2.nodeId) {a b : IpPacket × PeerRef}
    (ha : a ∈ group) (hb : b ∈ group) : a.2 = b.2 := by
  have htable : ∀ entry ∈ group, s.peers.lookup entry.2.nodeId = some entry.2 := by
    intro entry hentry
    have hmem : entry ∈ routed := by
      rw [← List.flatten_splitBy (fun a b : IpPacket × PeerRef => a.2.nodeId == b.2.nodeId) routed]
      exact List.mem_flatten.2 ⟨group, hgroup, hentry⟩
    obtain ⟨nodeId, -, hlookup⟩ := of_routePacket (hrouted entry hmem)
    rw [hkeys nodeId _ hlookup]
    exact hlookup
  have hchain := List.isChain_of_mem_splitBy hgroup
  have hpairs : group.Pairwise fun a b => a.2.nodeId = b.2.nodeId := by
    have htrans : IsTrans (IpPacket × PeerRef) fun a b => a.2.nodeId = b.2.nodeId :=
      ⟨fun _ _ _ => Eq.trans⟩
    exact List.isChain_iff_pairwise.1 (hchain.imp fun a b h => beq_iff_eq.1 h)
  have hsymm : Std.Symm fun a b : IpPacket × PeerRef => a.2.nodeId = b.2.nodeId :=
    ⟨fun _ _ => Eq.symm⟩
  have hsame : a.2.nodeId = b.2.nodeId := by
    refine List.Pairwise.forall_of_forall ?_ hpairs ha hb
    exact fun _ _ => rfl
  have hb' := htable b hb
  rw [← hsame, htable a ha] at hb'
  exact Option.some.inj hb'

lemma prepareGroup_avoids (hs : Sent s₀ s) (hpeer : ∀ a ∈ group, ∀ b ∈ group, a.2 = b.2)
    (h : s₀.snapshotExpiresAt ≤ now ∨ ∀ x, (x, p) ∈ group → ¬ s₀.Fits node p x) :
    (prepareGroup suite node group).avoids (execAt suite node now) (EncryptsFor p)
      (fun _ s' => Sent s₀ s') s := by
  unfold prepareGroup
  split
  · exact hs
  rename_i x q rest
  have hconnect := holds_shouldConnect
    (muteDiscipline_calm (p := p) (.peer q .active) trivial)
    (muteDiscipline_calm (.peer q .attempt) trivial)
  refine avoids_bind.2 (avoids_mono (fun connect s hs => ?_) (mute_avoids hconnect hs))
  refine avoids_bind.2 (avoids_mono (fun results s hs => hs)
    (prepareIpPackets_avoids hs.1 (h.imp_right fun h hq y hy => ?_)))
  obtain ⟨⟨y, q'⟩, hmem, rfl⟩ := List.mem_map.1 hy
  obtain rfl : q' = q := hpeer _ hmem _ (.head _)
  exact h y (hq ▸ hmem)

lemma prepareGroup_may (hcurrent : ¬ s.snapshotExpiresAt ≤ now)
    (group : List (IpPacket × PeerRef)) :
    (prepareGroup suite node group).may (execAt suite node now) (fun _ s' => Calmly s s') s := by
  unfold prepareGroup
  split
  · exact .refl s
  rename_i x q rest
  refine may_bind.2 (may_mono (fun connect s' hs => ?_) (shouldConnect_may q))
  refine may_bind.2 (may_mono (fun results s'' hs' => hs.trans hs') ?_)
  rw [prepareIpPackets, if_neg (by simp)]
  refine ⟨default, now, s', rfl, default, s'.snapshotExpiresAt, s', rfl, ?_⟩
  have hcurrent' : ¬ s'.snapshotExpiresAt ≤ now := by
    rw [hs.expiresAt]
    exact hcurrent
  dsimp only [Prog.bind]
  rw [if_neg hcurrent']
  split
  · exact .refl s'
  · refine may_bind.2 (may_mono (fun _ _ h => h) (preparing_may ?_))
    refine holds_prepareValid (D := .within Response Preparing) ⟨trivial, fun _ => trivial⟩ q ?_ ?_ ?_ _
    · exact fun _ _ => ⟨trivial, fun _ => trivial⟩
    · exact fun _ => ⟨trivial, fun _ => trivial⟩
    · exact fun _ => ⟨trivial, fun _ => trivial⟩

lemma groups_encrypt (hseal : Seals suite) (hcurrent : ¬ s.snapshotExpiresAt ≤ now)
    {groups : List (List (IpPacket × PeerRef))} (hgroup : group ∈ groups)
    (hpeer : ∀ entry ∈ group, entry.2 = p) (hx : (x, p) ∈ group) (hfits : s.Fits node p x)
    {Q : List (List Preparation × List NodeId) → NodeState → Prop} :
    ¬ (Prog.collect (prepareGroup suite node) groups).avoids (execAt suite node now)
      (EncryptsFor p) Q s := by
  intro havoids
  induction groups generalizing Q s with
  | nil => cases hgroup
  | cons first groups ih =>
    have hfirst := avoids_bind.1 havoids
    rcases List.mem_cons.1 hgroup with rfl | hgroup
    · unfold prepareGroup at hfirst
      split at hfirst
      · cases hx
      rename_i y q rest
      obtain rfl : q = p := hpeer _ (.head _)
      have hconnect := avoids_bind.1 hfirst
      obtain ⟨connect, s', hprepare, hcalm⟩ := avoids_may hconnect (shouldConnect_may q)
      refine prepareIpPackets_encrypts hseal ?_ (List.mem_map.2 ⟨_, hx, rfl⟩) (hcalm.fits hfits)
        (avoids_bind.1 hprepare)
      rw [hcalm.expiresAt]
      exact hcurrent
    · obtain ⟨results, s', hrest, hcalm⟩ := avoids_may hfirst (prepareGroup_may hcurrent first)
      refine ih ?_ hgroup (hcalm.fits hfits) (avoids_bind.1 hrest)
      rw [hcalm.expiresAt]
      exact hcurrent

/-- **`send_ip_batch`** encrypts nothing for `p` if and only if the snapshot has expired or none of
the packets is routed to `p` and fits. -/
theorem sendIpBatch_avoids_iff (hseal : Seals suite) (hkeys : s.Keyed) (packets : List (List UInt8)) :
    (sendIpBatch suite node packets).avoids (execAt suite node now) (EncryptsFor p)
      (fun _ _ => True) s ↔ s.snapshotExpiresAt ≤ now ∨
        ∀ bytes ∈ packets, ∀ x, IpPacket.parse bytes = .ok x → s.routePacket x = .ok p →
          ¬ s.Fits node p x := by
  -- the packets with a peer, in groups
  let xs := oks (packets.map fun bytes => (IpPacket.parse bytes).mapError SendError.ip)
  let routed := oks (List.zipWith (fun packet route => route.map (packet, ·)) xs
    (xs.map s.routePacket))
  have hrouted : ∀ entry ∈ routed, s.routePacket entry.1 = .ok entry.2 :=
    fun entry hentry => (mem_oks_routed.1 hentry).2
  constructor
  · intro havoids
    by_contra hcontra
    obtain ⟨hcurrent, hx⟩ := not_or.1 hcontra
    push Not at hx
    obtain ⟨bytes, hbytes, x, hparse, hroute, hfits⟩ := hx
    have hmem : (x, p) ∈ routed := mem_oks_routed.2 ⟨mem_oks_parsed.2 ⟨bytes, hbytes, hparse⟩, hroute⟩
    rw [← List.flatten_splitBy (fun a b : IpPacket × PeerRef => a.2.nodeId == b.2.nodeId) routed] at hmem
    obtain ⟨group, hgroup, hmem⟩ := List.mem_flatten.1 hmem
    have hsend := avoids_bind.1 (avoids_step havoids default rfl)
    exact groups_encrypt hseal hcurrent hgroup
      (fun entry hentry => group_peer hkeys hrouted hgroup hentry hmem) hmem hfits
      (avoids_bind.1 hsend)
  · intro h
    refine avoids_callBind.2 ⟨nofun, fun e routes s' he => ?_⟩
    cases he
    have hgroups : (Prog.collect (prepareGroup suite node) (routed.splitBy
        fun a b => a.2.nodeId == b.2.nodeId)).avoids (execAt suite node now) (EncryptsFor p)
        (fun _ s' => Sent s s') s := by
      refine avoids_collect _ _ (fun group hgroup s' hs => ?_) (.refl s)
      refine prepareGroup_avoids hs (fun a ha b hb => group_peer hkeys hrouted hgroup ha hb)
        (h.imp_right fun h x hx => ?_)
      have hmem : (x, p) ∈ routed := by
        rw [← List.flatten_splitBy (fun a b : IpPacket × PeerRef => a.2.nodeId == b.2.nodeId) routed]
        exact List.mem_flatten.2 ⟨group, hgroup, hx⟩
      obtain ⟨hparsed, hroute⟩ := mem_oks_routed.1 hmem
      obtain ⟨bytes, hbytes, hparse⟩ := mem_oks_parsed.1 hparsed
      exact h bytes hbytes x hparse hroute
    refine avoids_bind.2 (avoids_bind.2 (avoids_mono (fun groups s' hs => ?_) hgroups))
    have hrest : (muteDiscipline p).holds (do
        let slots := (groups.flatMap Prod.fst).map awaitSend
        let results ← sendPreparedBatch (oks slots)
        scheduleReconnects ((oks slots).zip results)
        let connect := (groups.flatMap Prod.snd).insertionSort fun a b => a.le b
        (connect.destutter (· ≠ ·)).forM requestConnection
        return sendResults slots results : Task (List (Except SendError Unit))) := by
      refine Discipline.bind _ (holds_sendPreparedBatch muteDiscipline_calm
        muteDiscipline_invalidate _) fun results => ?_
      refine Discipline.bind _ (holds_scheduleReconnects muteDiscipline_calm _) fun _ => ?_
      refine Discipline.bind _ (Discipline.forM _ _ _
        (holds_requestConnection muteDiscipline_calm)) fun _ => Discipline.ret _ _
    exact avoids_mono (fun _ _ _ => trivial) (mute_avoids hrest hs)

end Operations

/-! ### The receive path -/

/-- **Receiving**: no packet of a peer is delivered once the snapshot or its membership has expired. -/
theorem dataRound_expired (hserver : node.config.serverPublicKey.isSome)
    (hexpired : s.snapshotExpiresAt ≤ now ∨ (s.heap p).membershipExpiresAt ≤ now) (worker : ℕ) :
    (dataRound suite node worker).wp (execAt suite node now) (fun _ s' =>
      ∃ new : List (NodeId × IpPacket), s'.ipPackets = new ++ s.ipPackets ∧
        ∀ peer ipPacket, (peer, ipPacket) ∈ new → ∃ packet ∈ s.dataQueues worker, ∃ q, q ≠ p ∧
          s.sessions.lookup packet.header.sessionId = some q ∧ peer = q.nodeId) s := by
  have hclock : ∀ e c s x, execAt suite node now e c s = some x →
      ∃ e' : Env, e'.unixTime ∈ ({now} : Set UInt64) ∧ exec suite node e' c s = some x :=
    fun e _ _ _ h => ⟨{ e with unixTime := now }, rfl, h⟩
  refine wp_mono (fun _ s' h => ?_) (dataRound_wp hclock worker s)
  obtain ⟨time, rfl, h⟩ := h
  obtain ⟨new, -, hevents, hnew⟩ := h.delivered
  refine ⟨_, hevents, fun peer ipPacket hmem => ?_⟩
  obtain ⟨d, hd, heq⟩ := List.mem_map.1 hmem
  cases heq
  obtain ⟨hcurrent, packet, hpacket, q, haccepted⟩ := hnew d hd
  obtain ⟨cipher, hcontext, -, -⟩ := haccepted.session
  refine ⟨packet, hpacket, q, ?_, hcontext.entry, haccepted.peer⟩
  rintro rfl
  exact hcontext.current hserver (hexpired.resolve_left hcurrent)

/-! ### Both -/

/-- **Expired authority.**  Let the snapshot or the credential of `p` have expired at `now`.  The three
ways to send encrypt nothing for `p` exactly if the snapshot has expired, or no packet is routed to `p`
and fits; a data worker delivers nothing that came over a session of `p`. -/
theorem expired_authority (suite : Suite) (node : Node) (hseal : Seals suite)
    (hserver : node.config.serverPublicKey.isSome) (s : NodeState) (hkeys : s.Keyed) (p : PeerRef)
    (hcached : (s.heap p).membershipExpiresAt =
      membershipExpiresAt suite (s.heap p).info node.config.serverPublicKey) (now : UInt64)
    (hexpired : s.snapshotExpiresAt ≤ now ∨
      membershipExpiresAt suite (s.heap p).info node.config.serverPublicKey ≤ now) :
    (∀ bytes, (sendIp suite node bytes).run.avoids (execAt suite node now) (EncryptsFor p)
        (fun _ _ => True) s ↔ s.snapshotExpiresAt ≤ now ∨
          ∀ x, IpPacket.parse bytes = .ok x → s.routePacket x = .ok p → ¬ s.Fits node p x) ∧
      (∀ packets, (sendIpBatch suite node packets).avoids (execAt suite node now) (EncryptsFor p)
        (fun _ _ => True) s ↔ s.snapshotExpiresAt ≤ now ∨ ∀ bytes ∈ packets,
          ∀ x, IpPacket.parse bytes = .ok x → s.routePacket x = .ok p → ¬ s.Fits node p x) ∧
      (∀ fuel, (flushQueue suite node (fuel + 1) p).avoids (execAt suite node now) (EncryptsFor p)
        (fun _ _ => True) s ↔ s.snapshotExpiresAt ≤ now ∨
          ∀ bytes x, (s.heap p).queue.head? = some bytes → IpPacket.parse bytes = .ok x →
            s.routes.validateOutbound x = .ok p.nodeId → ¬ s.Fits node p x) ∧
      ∀ worker, (dataRound suite node worker).wp (execAt suite node now) (fun _ s' =>
        ∃ new : List (NodeId × IpPacket), s'.ipPackets = new ++ s.ipPackets ∧
          ∀ peer ipPacket, (peer, ipPacket) ∈ new → ∃ packet ∈ s.dataQueues worker, ∃ q, q ≠ p ∧
            s.sessions.lookup packet.header.sessionId = some q ∧ peer = q.nodeId) s := by
  refine ⟨sendIp_avoids_iff hseal, sendIpBatch_avoids_iff hseal hkeys, flushQueue_avoids_iff hseal,
    dataRound_expired hserver ?_⟩
  rw [hcached]
  exact hexpired

section Demo

/-- The node is connected with the peer `1`, whose credential expires at 100, and has a packet for it. -/
def demoSending : {cfg // (plainPool demoSuite demoNode 3).Reachable (fun _ _ => True)
      ((plainPool demoSuite demoNode 3).initial demoState) cfg ∧
      cfg.shared.peers.entries = [⟨demoRef.nodeId, demoRef⟩] ∧ cfg.shared.snapshotExpiresAt = u64Max ∧
      (cfg.shared.heap demoRef).info = demoInfo 1 ∧ (cfg.shared.heap demoRef).membershipExpiresAt = 100 ∧
      (IpPacket.parse (demoIp 5 1)).toOption.any fun x =>
        decide (cfg.shared.routePacket x = .ok demoRef ∧ cfg.shared.Fits demoNode demoRef x)} :=
  Pool.Spec.reach (fun _ _ => true) (fun _ _ _ => trivial) demoConnected (by decide +kernel)

lemma demoConnected_state : ∃ cfg x,
    (plainPool demoSuite demoNode 3).Reachable (fun _ _ => True)
      ((plainPool demoSuite demoNode 3).initial demoState) cfg ∧
    cfg.shared.peers.entries = [⟨demoRef.nodeId, demoRef⟩] ∧
    cfg.shared.snapshotExpiresAt = u64Max ∧
    (cfg.shared.heap demoRef).info = demoInfo 1 ∧
    (cfg.shared.heap demoRef).membershipExpiresAt = 100 ∧
    IpPacket.parse (demoIp 5 1) = .ok x ∧
    cfg.shared.routePacket x = .ok demoRef ∧ cfg.shared.Fits demoNode demoRef x := by
  obtain ⟨cfg, hreach, hpeers, hsnapshot, hinfo, hmembership, hany⟩ := demoSending
  obtain ⟨x, hparse, hx⟩ := (Option.any_eq_true _ _).1 hany
  obtain ⟨hroute, hfits⟩ := of_decide_eq_true hx
  refine ⟨cfg, x, hreach, hpeers, hsnapshot, hinfo, hmembership, ?_, hroute, hfits⟩
  cases h : IpPacket.parse (demoIp 5 1) with
  | ok y =>
    rw [h] at hparse
    exact congrArg Except.ok (Option.some.inj hparse)
  | error e => rw [h] at hparse; cases hparse

/-- At 100 the credential of the peer `1` has expired, and a packet for it is still encrypted. -/
theorem expired_credential_encrypts :
    ¬ ∀ (suite : Suite) (node : Node) (fuel : ℕ) (heap : PeerRef → PeerState)
        (cfg : Pool.Config Section Response NodeState Unit),
      (plainPool suite node fuel).Reachable (fun _ _ => True)
        ((plainPool suite node fuel).initial (.new node heap)) cfg →
      node.config.serverPublicKey.isSome → ∀ (p : PeerRef) (now : UInt64),
      (cfg.shared.snapshotExpiresAt ≤ now ∨
        membershipExpiresAt suite (cfg.shared.heap p).info node.config.serverPublicKey ≤ now) →
      ∀ bytes, (sendIp suite node bytes).run.avoids (execAt suite node now) (EncryptsFor p)
        (fun _ _ => True) cfg.shared := by
  intro h
  obtain ⟨cfg, x, hreach, -, hsnapshot, hinfo, -, hparse, hroute, hfits⟩ := demoConnected_state
  have hexpired : membershipExpiresAt demoSuite (cfg.shared.heap demoRef).info
      demoNode.config.serverPublicKey ≤ 100 := by
    rw [hinfo]
    decide +kernel
  have havoids := h demoSuite demoNode 3 _ cfg hreach rfl demoRef 100 (.inr hexpired) (demoIp 5 1)
  have hseal : Seals demoSuite := fun _ _ _ _ _ => rfl
  rcases (sendIp_avoids_iff hseal (demoIp 5 1)).1 havoids with hsnapshot' | hnone
  · rw [hsnapshot] at hsnapshot'
    exact absurd hsnapshot' (by decide)
  · exact hnone x hparse hroute hfits

theorem expired_authority_connected : ∃ cfg,
    (plainPool demoSuite demoNode 3).Reachable (fun _ _ => True)
      ((plainPool demoSuite demoNode 3).initial demoState) cfg ∧
    ¬ (sendIp demoSuite demoNode (demoIp 5 1)).run.avoids (execAt demoSuite demoNode 100)
      (EncryptsFor demoRef) (fun _ _ => True) cfg.shared := by
  obtain ⟨cfg, x, hreach, hpeers, hsnapshot, hinfo, hmembership, hparse, hroute, hfits⟩ :=
    demoConnected_state
  have hkeys : cfg.shared.Keyed := by
    intro nodeId q hq
    have hmem := AList.mem_lookup_iff.1 hq
    rw [hpeers] at hmem
    obtain ⟨rfl, hqref⟩ := Sigma.mk.inj (List.mem_singleton.1 hmem)
    rw [eq_of_heq hqref]
  have hcached : membershipExpiresAt demoSuite (demoInfo 1) demoNode.config.serverPublicKey = 100 := by
    decide +kernel
  have hmain := expired_authority demoSuite demoNode (fun _ _ _ _ _ => rfl) rfl cfg.shared hkeys demoRef
    (by rw [hinfo, hcached, hmembership]) 100 (.inr (by rw [hinfo, hcached]; decide))
  refine ⟨cfg, hreach, fun havoids => ?_⟩
  rcases (hmain.1 (demoIp 5 1)).1 havoids with hsnapshot' | hnone
  · rw [hsnapshot] at hsnapshot'
    exact absurd hsnapshot' (by decide)
  · exact hnone x hparse hroute hfits

end Demo

end Vela.Core
