import Vela.Proto.Types
import Vela.Lib.Probe
import Mathlib.Tactic.Common

/-!
# Ephemeral ports

`allocate_tcp_port` of `vela-stack`, over what it reads of the TCP sockets and the listeners of `StackRuntime`.
The search for a free port goes once round the range, from the port after the last one given.  Every handle of
the socket set is held by one entry only, so an entry has its socket in place of the handle, and a `HashMap` is
the list of its entries.

* `tcp_ports_sound_complete` — a port is found exactly if one is free, and the next search finds another one
  as long as there is another one.
-/

namespace Vela.Stack

open Proto

/-! ### The runtime -/

/-- `smoltcp::socket::tcp::State` -/
inductive SocketState where
  | closed | listen | synSent | synReceived | established | finWait1 | finWait2 | closeWait | closing
  | lastAck | timeWait
  deriving DecidableEq

/-- The state of a `tcp::Socket` and its two endpoints. -/
structure Socket where
  state : SocketState
  tuple : Option ((IpAddr × UInt16) × (IpAddr × UInt16))

def Socket.localEndpoint (socket : Socket) : Option (IpAddr × UInt16) := socket.tuple.map Prod.fst

structure TcpState where
  socket : Socket

structure ListenerState where
  address : SocketAddr

inductive StackError where
  | noEphemeralPort
  deriving DecidableEq

/-- A port from `EPHEMERAL_PORT_START` to `EPHEMERAL_PORT_END`, which is the last one there is. -/
abbrev EphemeralPort := {port : UInt16 // 49152 ≤ port}

structure StackRuntime where
  tcp : List (ℕ × TcpState)
  listeners : List (ℕ × ListenerState)
  nextPort : EphemeralPort

namespace EphemeralPort

lemma toNat_bounds (port : EphemeralPort) : 49152 ≤ port.1.toNat ∧ port.1.toNat ≤ 65535 :=
  ⟨UInt16.le_iff_toNat_le.1 port.2, Nat.le_of_lt_succ port.1.toNat_lt⟩

/-- The port after another; the first one comes after the last. -/
def next (candidate : EphemeralPort) : EphemeralPort :=
  if h : candidate.1 = 65535 then ⟨49152, UInt16.le_refl _⟩
  else ⟨candidate.1 + 1, by
    have hbounds := toNat_bounds candidate
    have hne : candidate.1.toNat ≠ 65535 := fun heq => h (UInt16.toNat_inj.1 heq)
    rw [UInt16.le_iff_toNat_le, UInt16.toNat_add]
    simp
    omega⟩

end EphemeralPort

namespace StackRuntime

def usesPort (s : StackRuntime) (port : UInt16) : Bool :=
  s.listeners.any (fun (_, state) => state.address.port = port) ||
    s.tcp.any fun (_, state) =>
      state.socket.state ≠ .closed ∧ state.socket.localEndpoint.map Prod.snd = some port

/-- The rounds that are left, and the next port. -/
def searchPort (used : UInt16 → Bool) : ℕ → EphemeralPort → Except StackError UInt16 × EphemeralPort
  | 0, candidate => (.error .noEphemeralPort, candidate)
  | rounds + 1, candidate =>
    if used candidate.1 then searchPort used rounds candidate.next else (.ok candidate.1, candidate.next)

def allocateTcpPort (s : StackRuntime) : Except StackError UInt16 × StackRuntime :=
  let (port, nextPort) := searchPort s.usesPort (65535 - 49152 + 1) s.nextPort
  (port, { s with nextPort })

end StackRuntime

open StackRuntime

variable {used : UInt16 → Bool} {rounds : ℕ} {candidate : EphemeralPort}

/-! ### The round of the ports -/

namespace EphemeralPort

lemma toNat_next (port : EphemeralPort) :
    port.next.1.toNat = 49152 + (port.1.toNat - 49152 + 1) % 16384 := by
  have hbounds := port.toNat_bounds
  unfold next
  split_ifs with h
  · rw [h]
    rfl
  · have hne : port.1.toNat ≠ 65535 := fun heq => h (UInt16.toNat_inj.1 heq)
    simp only [UInt16.toNat_add, UInt16.toNat_one]
    omega

lemma toNat_iterate (port : EphemeralPort) (k : ℕ) :
    (next^[k] port).1.toNat = 49152 + (port.1.toNat - 49152 + k) % 16384 := by
  have hbounds := port.toNat_bounds
  induction k with
  | zero => rw [Function.iterate_zero_apply]; omega
  | succ k ih => rw [Function.iterate_succ_apply', toNat_next, ih]; omega

lemma ext_toNat {p q : EphemeralPort} (h : p.1.toNat = q.1.toNat) : p = q :=
  Subtype.ext (UInt16.toNat_inj.1 h)

lemma exists_iterate (start port : EphemeralPort) : ∃ k < 16384, next^[k] start = port := by
  have hbounds := port.toNat_bounds
  obtain ⟨k, hk, hround⟩ := Probe.exists_round (start.1.toNat - 49152) (show port.1.toNat - 49152 < 16384 by omega)
  exact ⟨k, hk, ext_toNat (by rw [toNat_iterate, hround]; omega)⟩

lemma eq_of_iterate_next {port : EphemeralPort} {k : ℕ} (hk : k < 16384) (h : next^[k] port.next = port) :
    k = 16383 := by
  have hbounds := port.toNat_bounds
  have hround := toNat_iterate port.next k
  rw [h, toNat_next] at hround
  omega

end EphemeralPort

/-! ### The search -/

open EphemeralPort

lemma searchPort_ok {port : UInt16} {after : EphemeralPort}
    (h : searchPort used rounds candidate = (.ok port, after)) :
    ∃ k < rounds, (next^[k] candidate).1 = port ∧ after = next^[k + 1] candidate ∧ used port = false ∧
      ∀ j < k, used (next^[j] candidate).1 = true := by
  induction rounds generalizing candidate with
  | zero => cases h
  | succ rounds ih =>
    unfold searchPort at h
    split_ifs at h with hused
    · obtain ⟨k, hk, hport, hafter, hfree, hbefore⟩ := ih h
      refine ⟨k + 1, by omega, hport, hafter, hfree, fun j hj => ?_⟩
      cases j with
      | zero => exact hused
      | succ j => exact hbefore j (by omega)
    · cases h
      exact ⟨0, by omega, rfl, rfl, by simpa using hused, by simp⟩

lemma searchPort_error_iff : (searchPort used rounds candidate).1 = .error .noEphemeralPort ↔
    ∀ k < rounds, used (next^[k] candidate).1 = true := by
  induction rounds generalizing candidate with
  | zero => exact iff_of_true rfl (by simp)
  | succ rounds ih =>
    unfold searchPort
    split_ifs with hused
    · rw [ih]
      constructor
      · intro h k hk
        cases k with
        | zero => exact hused
        | succ k => exact h k (by omega)
      · exact fun h k hk => h (k + 1) (by omega)
    · exact iff_of_false (by simp) fun h => hused (h 0 (by omega))

lemma searchPort_cases : (searchPort used rounds candidate).1 = .error .noEphemeralPort ∨
    ∃ port, (searchPort used rounds candidate).1 = .ok port := by
  induction rounds generalizing candidate with
  | zero => exact .inl rfl
  | succ rounds ih =>
    unfold searchPort
    split_ifs
    · exact ih
    · exact .inr ⟨_, rfl⟩

lemma allocateTcpPort_ok {s : StackRuntime} {port : UInt16} (h : s.allocateTcpPort.1 = .ok port) :
    ∃ found : EphemeralPort, found.1 = port ∧ s.usesPort port = false ∧
      s.allocateTcpPort.2 = { s with nextPort := found.next } ∧ ∃ k < 16384, next^[k] s.nextPort = found ∧
        ∀ j < k, s.usesPort (next^[j] s.nextPort).1 = true := by
  have hsearch : searchPort s.usesPort 16384 s.nextPort = (.ok port, s.allocateTcpPort.2.nextPort) :=
    Prod.ext h rfl
  obtain ⟨k, hk, hport, hafter, hfree, hbefore⟩ := searchPort_ok hsearch
  exact ⟨_, hport, hfree, by rw [← Function.iterate_succ_apply' next, ← hafter]; rfl, k, hk, rfl, hbefore⟩

/-- **Ephemeral ports are found exactly if there are any.** -/
theorem tcp_ports_sound_complete (s : StackRuntime) :
    (∀ port, s.allocateTcpPort.1 = .ok port → 49152 ≤ port.toNat ∧ port.toNat ≤ 65535 ∧
      (∀ listener ∈ s.listeners, listener.2.address.port ≠ port) ∧
      ∀ entry ∈ s.tcp, entry.2.socket.state ≠ .closed →
        entry.2.socket.localEndpoint.map Prod.snd ≠ some port) ∧
    (49152 ≤ s.allocateTcpPort.2.nextPort.1.toNat ∧ s.allocateTcpPort.2.nextPort.1.toNat ≤ 65535) ∧
    (s.allocateTcpPort.1 = .error .noEphemeralPort ↔
      ∀ port : UInt16, 49152 ≤ port.toNat → port.toNat ≤ 65535 → s.usesPort port = true) ∧
    (s.allocateTcpPort.1 = .error .noEphemeralPort ∨ ∃ port, s.allocateTcpPort.1 = .ok port) ∧
    ∀ port (s' : StackRuntime) port', s.allocateTcpPort.1 = .ok port → s'.nextPort = s.allocateTcpPort.2.nextPort →
      s'.allocateTcpPort.1 = .ok port' →
      (∃ free free' : EphemeralPort, free ≠ free' ∧ s'.usesPort free.1 = false ∧ s'.usesPort free'.1 = false) →
      port' ≠ port := by
  refine ⟨fun port h => ?_, EphemeralPort.toNat_bounds _, ?_, @searchPort_cases s.usesPort 16384 _,
    fun port s' port' h hnext h' hfree heq => ?_⟩
  · obtain ⟨found, rfl, hfree, -⟩ := allocateTcpPort_ok h
    have hbounds := found.toNat_bounds
    simp only [usesPort, Bool.or_eq_false_iff, List.any_eq_false, decide_eq_true_eq, not_and] at hfree
    exact ⟨hbounds.1, hbounds.2, hfree.1, hfree.2⟩
  · refine (@searchPort_error_iff s.usesPort 16384 _).trans ⟨fun h port hlow _ => ?_, fun h k _ => ?_⟩
    · obtain ⟨k, hk, hport⟩ := exists_iterate s.nextPort ⟨port, UInt16.le_iff_toNat_le.2 hlow⟩
      have hused := h k hk
      rwa [hport] at hused
    · have hbounds := (next^[k] s.nextPort).toNat_bounds
      exact h _ hbounds.1 hbounds.2
  · -- Were it the same port, the search would have come by all the others, and one of them is free.
    obtain ⟨found, rfl, -, hafter, -⟩ := allocateTcpPort_ok h
    obtain ⟨found', hfound', -, -, k, hk, hround, hbefore⟩ := allocateTcpPort_ok h'
    rw [hafter] at hnext
    rw [Subtype.ext (hfound'.trans heq), hnext] at hround
    rw [hnext, eq_of_iterate_next hk hround] at hbefore
    have hothers : ∀ free : EphemeralPort, s'.usesPort free.1 = false → free = found := by
      intro free hfree
      obtain ⟨j, hj, hport⟩ := exists_iterate found.next free
      by_contra hne
      have hlast : j ≠ 16383 := by
        rintro rfl
        rw [eq_of_iterate_next hk hround] at hround
        exact hne (hport.symm.trans hround)
      have hused := hbefore j (by omega)
      rw [hport, hfree] at hused
      cases hused
    obtain ⟨free, free', hne, hunused, hunused'⟩ := hfree
    exact hne ((hothers free hunused).trans (hothers free' hunused').symm)

end Vela.Stack
