import VeilVpn.Device.Lemmas.Roles
import VeilVpn.Device.Lemmas.Tables
import VeilVpn.Device.Lemmas.Tunnels

namespace Noise

variable {P : Primitives}

theorem params_setStaticPrivate {t t' : Tunn} {staticPrivate staticPublic : FixedBytes 32}
    {ref : RateLimiterRef}
    (h : t.setStaticPrivate P staticPrivate staticPublic ref = some t')
    : t'.handshake.params.staticPrivate = staticPrivate
        ∧
      t'.handshake.params.staticPublic = staticPublic
        ∧
      t'.handshake.params.peerStaticPublic = t.handshake.params.peerStaticPublic := by
  unfold Tunn.setStaticPrivate Handshake.setStaticPrivate NoiseParams.setStaticPrivate at h
  split at h
  . simp at h
  . next hset =>
    cases h
    split at hset
    . simp at hset
    . next hparams =>
      cases hset
      split at hparams
      . simp at hparams
      . cases hparams
        exact ⟨rfl, rfl, rfl⟩

theorem ofBytes_of_openStatic {packet : HandshakeInit} {staticPrivate staticPublic : FixedBytes 32}
    {key : Bytes} (h : packet.openStatic P staticPrivate staticPublic = some key)
    : (FixedBytes.ofBytes 32 key).val = key := by
  have hlen := P.length_open _ _ _ _ _ h
  rw [packet.encryptedStatic.length_val] at hlen
  have heq := FixedBytes.ofBytes_val (⟨key, by omega⟩ : FixedBytes 32)
  exact congrArg Subtype.val heq

def PassesStatic (P : Primitives) (h : Handshake) (packet : HandshakeInit) : Prop :=
  packet.openStatic P h.params.staticPrivate h.params.staticPublic
    = some h.params.peerStaticPublic.val

inductive FailsTimestamp (P : Primitives) (h : Handshake) (packet : HandshakeInit)
    : WireGuardError → Prop where
  | invalidAeadTag (hopen : packet.openTimestamp P h.params = none)
    : FailsTimestamp P h packet .invalidAeadTag
  | wrongTai64nTimestamp (timestamp : Tai64N)
    (hopen : packet.openTimestamp P h.params = some timestamp)
    (hafter : timestamp.after h.lastHandshakeTimestamp = false)
    : FailsTimestamp P h packet .wrongTai64nTimestamp

theorem PassesStatic.error {h h' : Handshake} {packet : HandshakeInit} {dstLen : Nat}
    {ephemeral : FixedBytes 32} {e : WireGuardError} (hstatic : PassesStatic P h packet)
    (hreceive : h.receiveHandshakeInitialization P packet dstLen ephemeral = (h', .error e))
    : FailsTimestamp P h packet e
        ∨
      (e = .destinationBufferTooSmall ∧ dstLen < handshakeRespSz) := by
  rw [receiveHandshakeInitialization_checks, hstatic] at hreceive
  dsimp only at hreceive
  rw [if_neg (not_not_intro rfl)] at hreceive
  split at hreceive
  . next hopen =>
    cases hreceive
    exact .inl (.invalidAeadTag hopen)
  . next timestamp hopen =>
    split at hreceive
    . next hafter =>
      cases hreceive
      exact .inl (.wrongTai64nTimestamp timestamp hopen (by simpa using hafter))
    . by_cases hlen : handshakeRespSz ≤ dstLen
      . rw [formatHandshakeResponse_eq _ _ hlen] at hreceive
        cases hreceive
      . rw [Handshake.formatHandshakeResponse, if_pos (Nat.not_le.mp hlen)] at hreceive
        cases hreceive
        exact .inr ⟨rfl, Nat.not_le.mp hlen⟩

end Noise

namespace Device

variable {C : Primitives} {d d' : Device} {e : Event} {outputs : List Output}

variable (C) in
/--
Every peer of the device has the key pair of the device, and the key under which it is found.
-/
structure Keyed (d : Device) : Prop where
  own : ∀ privateKey publicKey, d.keyPair = some (privateKey, publicKey) →
    publicKey = C.noise.x25519Public privateKey
  peer : ∀ key id, d.peers.lookup key = some id → ∃ p, d.peerArena.get id = some p
    ∧ d.keyPair = some (p.tunnel.handshake.params.staticPrivate,
        p.tunnel.handshake.params.staticPublic)
    ∧ p.tunnel.handshake.params.peerStaticPublic = key

theorem keyed_new (nextIndex : IndexLfsr) (config : DeviceConfig)
    (paymentConfig : Payment.PaymentConfig)
    : Keyed C (new nextIndex config paymentConfig) where
  own := by simp [new]
  peer := by simp [new]

theorem keyPair_of_step (h : (machine C).step d e = some (d', outputs))
    (hkey : ∀ privateKey env, e ≠ .setKey privateKey env)
    : d'.keyPair = d.keyPair := by
  rcases settings_of_step h with hsettings | ⟨privateKey, env, he, _⟩
  . exact congrArg Prod.fst hsettings
  . exact absurd he (hkey privateKey env)

theorem lookup_of_step (h : (machine C).step d e = some (d', outputs))
    (hadd : ∀ pubKey endpoint allowedIps keepalive presharedKey env,
      e ≠ .updatePeer pubKey false endpoint allowedIps keepalive presharedKey env)
    (key : FixedBytes 32) (id : PeerId) (hlookup : d'.peers.lookup key = some id)
    : d.peers.lookup key = some id := by
  cases tableStep h with
  | same hsame => rwa [hsame.peers] at hlookup
  | insert _ _ _ _ _ _ _ he _ => exact absurd he (hadd _ _ _ _ _ _)
  | remove _ _ _ _ _ _ _ _ _ hremoves =>
    rw [hremoves.peers, HashMap.lookup_erase, Option.ite_none_left_eq_some] at hlookup
    exact hlookup.2
  | clear _ hclear =>
    rw [hclear] at hlookup
    simp [clearPeers] at hlookup

namespace Keyed

theorem of_handles (hd : Keyed C d) (h : Handles C d outputs d') (hkeyPair : d'.keyPair = d.keyPair)
    (hpeers : ∀ key id, d'.peers.lookup key = some id → d.peers.lookup key = some id)
    : Keyed C d' where
  own := by
    rw [hkeyPair]
    exact hd.own
  peer := by
    intro key id hkey
    obtain ⟨p, hget, hkeys, hpeer⟩ := hd.peer key id (hpeers key id hkey)
    have hkept := h id
    rw [hget] at hkept
    generalize handed (effectsOf id outputs) = packets at hkept
    generalize d'.peerArena.get id = o at hkept
    cases hkept with
    | keeps hkeeps =>
      refine ⟨_, rfl, ?_, ?_⟩
      . rw [hkeyPair, hkeeps.params]
        exact hkeys
      . rw [hkeeps.params]
        exact hpeer

theorem updatePeer {pubKey : FixedBytes 32} {endpoint : Option SocketAddr}
    {allowedIps : List AllowedIP} {keepalive : Option UInt16}
    {presharedKey : Option (FixedBytes 32)} {env : Env} (hd : Keyed C d)
    (h : d.updatePeer C pubKey false endpoint allowedIps keepalive presharedKey env = some d')
    : Keyed C d' := by
  cases updatePeer_cases h with
  | remove hremove _ => cases hremove
  | add lfsr index privateKey publicKey limiter stamper p _ _ _ hkeyPair hpeer hdevice =>
    rw [hdevice]
    refine ⟨hd.own, ?_⟩
    intro key id hkey
    have hlookup : (d.peers.insert pubKey d.peerArena.size).lookup key = some id := hkey
    rw [HashMap.lookup_insert] at hlookup
    rw [get_addPeer]
    split at hlookup
    . next heq =>
      cases hlookup
      rw [if_pos rfl]
      refine ⟨p, rfl, ?_, ?_⟩
      . rw [hpeer]
        exact hkeyPair.trans (by rw [hd.own privateKey publicKey hkeyPair]; rfl)
      . rw [hpeer, heq]
        rfl
    . obtain ⟨p', hget, hkeys⟩ := hd.peer key id hlookup
      have hne : id ≠ d.peerArena.size := by
        rintro rfl
        rw [Arena.get_size] at hget
        simp at hget
      rw [if_neg hne]
      exact ⟨p', hget, hkeys⟩

theorem setKey (hd : Keyed C d) (privateKey : FixedBytes 32) (env : Env)
    : Keyed C (d.setKey C privateKey env) := by
  unfold Device.setKey
  dsimp only
  split
  . exact hd
  . constructor
    . intro privateKey' publicKey hkeyPair
      cases hkeyPair
      rfl
    . intro key id hkey
      obtain ⟨p, hget, _, hpeer⟩ := hd.peer key id hkey
      have hholds : d.holds id = true := HashMap.any_of_lookup hkey (beq_self_eq_true id)
      simp only [Arena.get_map, hget, Option.map_some, hholds, if_true]
      obtain ⟨hprivate, hpublic, hsame⟩ := Noise.params_setStaticPrivate (Option.some_get
        (p.tunnel.isSome_setStaticPrivate C.noise privateKey d.limiterArena.size)).symm
      refine ⟨_, rfl, ?_, ?_⟩
      . rw [hprivate, hpublic]
      . rw [hsame, hpeer]

theorem step (hd : Keyed C d) (h : (machine C).step d e = some (d', outputs)) : Keyed C d' := by
  by_cases hkey : ∃ privateKey env, e = .setKey privateKey env
  . obtain ⟨privateKey, env, rfl⟩ := hkey
    cases h
    exact hd.setKey privateKey env
  . by_cases hadd : ∃ pubKey endpoint allowedIps keepalive presharedKey env,
        e = .updatePeer pubKey false endpoint allowedIps keepalive presharedKey env
    . obtain ⟨pubKey, endpoint, allowedIps, keepalive, presharedKey, env, rfl⟩ := hadd
      simp only [machine, Device.step] at h
      split at h
      . simp at h
      . next hupdate =>
        cases h
        exact hd.updatePeer hupdate
    . simp only [not_exists] at hkey hadd
      exact hd.of_handles (handles_of_step h hkey hadd) (keyPair_of_step h hkey)
        (lookup_of_step h hadd)

end Keyed

section Run

variable {ts : List (Transition Device Event Output)} {nextIndex : IndexLfsr}
  {config : DeviceConfig} {paymentConfig : Payment.PaymentConfig} {privateKey publicKey : FixedBytes 32}

theorem keyed_of_run (hrun : (machine C).Run (new nextIndex config paymentConfig) ts d) : Keyed C d :=
  hrun.invariant (Keyed C) (keyed_new nextIndex config paymentConfig) fun _ _ _ _ hd h => hd.step h

/--
In every run the device and its peers read an initiation alike. Where the device finds the key of a
peer, this peer finds it as well, and only the timestamp can still be wrong. Where the device finds no
key, none of its peers does.
-/
theorem parseHandshakeAnon_agrees
    (hrun : (machine C).Run (new nextIndex config paymentConfig) ts d)
    (hkeyPair : d.keyPair = some (privateKey, publicKey)) (packet : Noise.HandshakeInit)
    : (∀ hh id,
        Noise.parseHandshakeAnon C.noise privateKey publicKey packet = .ok hh →
        d.peers.lookup hh.peerStaticPublic = some id →
          ∃ p, d.peerArena.get id = some p
            ∧
          Noise.PassesStatic C.noise p.tunnel.handshake packet
            ∧
          ∀ dstLen ephemeral h e,
            p.tunnel.handshake.receiveHandshakeInitialization C.noise packet dstLen ephemeral
              = (h, .error e) →
              e ≠ .wrongKey
                ∧
              (Noise.FailsTimestamp C.noise p.tunnel.handshake packet e
                ∨
              -- not with a buffer of the device, which has room for the answer
              (e = .destinationBufferTooSmall ∧ dstLen < Noise.handshakeRespSz)))
        ∧
      (∀ e,
        Noise.parseHandshakeAnon C.noise privateKey publicKey packet = .error e →
          ∀ key id, d.peers.lookup key = some id →
            ∃ p, d.peerArena.get id = some p
              ∧
            ∀ dstLen ephemeral,
              p.tunnel.handshake.receiveHandshakeInitialization C.noise packet dstLen ephemeral
                = (p.tunnel.handshake, .error e)) := by
  have hd := keyed_of_run hrun
  rw [Noise.parseHandshakeAnon_eq]
  constructor
  . intro hh id hparse hlookup
    obtain ⟨p, hget, hkeys, hpeer⟩ := hd.peer _ id hlookup
    rw [hkeyPair, Option.some.injEq, Prod.mk.injEq] at hkeys
    have hstatic : Noise.PassesStatic C.noise p.tunnel.handshake packet := by
      rw [Noise.PassesStatic, ← hkeys.1, ← hkeys.2, hpeer]
      split at hparse
      . cases hparse
      . next key hopen =>
        cases hparse
        rw [hopen, Noise.ofBytes_of_openStatic hopen]
    refine ⟨p, hget, hstatic, ?_⟩
    intro dstLen ephemeral h e hreceive
    have herror := hstatic.error hreceive
    refine ⟨?_, herror⟩
    rintro rfl
    rcases herror with hfails | ⟨hsmall, _⟩
    . cases hfails
    . cases hsmall
  . intro e hparse key id hlookup
    obtain ⟨p, hget, hkeys, _⟩ := hd.peer key id hlookup
    rw [hkeyPair, Option.some.injEq, Prod.mk.injEq] at hkeys
    refine ⟨p, hget, ?_⟩
    intro dstLen ephemeral
    rw [Noise.receiveHandshakeInitialization_checks, ← hkeys.1, ← hkeys.2]
    split at hparse
    . cases hparse
      rfl
    . cases hparse

end Run

namespace Sample

def changeKey : List Event := [
  .setKey (key 1) env,
  .updatePeer (key 2) false none [⟨.v4 clientIp, 32, IpAddr.le_width_v4 clientIp⟩] none none env,
  .setKey (key 4) env
]

def initiation : Noise.HandshakeInit where
  senderIdx := 5
  unencryptedEphemeral := key 3
  encryptedStatic := ⟨(key 2).val ++ List.replicate 16 0, by decide⟩
  encryptedTimestamp := ⟨[64, 0, 0, 0, 0, 0, 0, 1, 0, 0, 0, 0] ++ List.replicate 16 0, by decide⟩

theorem parseHandshakeAnon_initiation
    : Noise.parseHandshakeAnon noise (key 4) (noise.x25519Public (key 4)) initiation
        =
      .ok ⟨5, key 2⟩ :=
  rfl

end Sample

theorem parseHandshakeAnon_agrees_changed
    : ∃ ts d p, (machine Sample.primitives).Run Sample.server ts d
        ∧
      d.peerArena.get 0 = some p
        ∧
      Noise.PassesStatic Sample.noise p.tunnel.handshake Sample.initiation := by
  obtain ⟨ts, d, hrun, h⟩ := Machine.Run.exists_of_exec (machine Sample.primitives) Sample.server
    Sample.changeKey
    (fun _ d =>
      decide (d.keyPair = some (Sample.key 4, Sample.noise.x25519Public (Sample.key 4)))
        && decide (d.peers.lookup (Sample.key 2) = some 0))
    (by decide +kernel)
  simp only [Bool.and_eq_true, decide_eq_true_eq] at h
  obtain ⟨hkeyPair, hlookup⟩ := h
  obtain ⟨hagrees, _⟩ := parseHandshakeAnon_agrees hrun hkeyPair Sample.initiation
  obtain ⟨p, hget, hstatic, _⟩ := hagrees _ 0 Sample.parseHandshakeAnon_initiation hlookup
  exact ⟨ts, d, p, hrun, hget, hstatic⟩

end Device
