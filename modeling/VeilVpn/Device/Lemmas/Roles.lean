import VeilVpn.Device.Lemmas.Signals

namespace Device

section

variable {C : Primitives} {d d' : Device} {p p' : Peer} {sock : Socket} {env : Env}
  {effects : List Effect}

theorem handlePaymentSignalClient_usesWallet {payload : Bytes} {addr : SocketAddr}
    (h : handlePaymentSignalClient C d p payload sock addr env = some (p', effects))
    : (∃ f ∈ effects, f.usesWallet) ↔
        d.paymentWallet.isSome ∧ ∃ req, Payment.PaymentRequired.decode payload = some req := by
  cases handlePaymentSignalClient_cases h with
  | silent hreason _ heffects =>
    subst heffects
    rcases hreason with hwallet | hdecode
    . simp [hwallet]
    . simp [hdecode]
  | signed wallet req auth sends hwallet hdecode _ heffects _ =>
    subst heffects
    exact iff_of_true ⟨_, List.mem_cons_self, rfl⟩ ⟨by simp [hwallet], req, hdecode⟩

theorem SignalCase.usesWallet_iff {result : Noise.TunnResult} (hwallet : d.paymentWallet.isSome)
    (h : SignalCase C d p result sock env p' effects)
    : (∃ f ∈ effects, f.usesWallet) ↔ ∃ req, requestOf result = some req := by
  cases h with
  | plain _ hrequest heffects =>
    simp only [hrequest, reduceCtorEq, exists_false, iff_false]
    rintro ⟨f, hf, huses⟩
    have hplain := heffects f hf
    simp [Effect.isPlain, huses] at hplain
  | submit _ _ payload addr _ _ hrequest hhandle =>
    simp only [hrequest, reduceCtorEq, exists_false, iff_false]
    rintro ⟨f, hf, huses⟩
    cases handlePaymentSubmit_cases hhandle with
    | unchanged _ _ heffects => simp [heffects] at hf
    | rejected _ _ _ _ _ heffects => simp [heffects] at hf
    | accepted submit _ _ _ _ _ _ _ heffects =>
      rcases heffects with rfl | ⟨_, _, _, _, _, rfl, _⟩
      . simp only [List.mem_singleton] at hf
        simp [hf, Effect.usesWallet] at huses
      . simp only [List.mem_cons, List.not_mem_nil, or_false] at hf
        rcases hf with rfl | rfl <;> simp [Effect.usesWallet] at huses
  | request _ _ payload addr _ _ hrequest hhandle =>
    rw [hrequest, handlePaymentSignalClient_usesWallet hhandle]
    simp [hwallet]

theorem IsServer.usesWallet_iff {e : Event} {outputs : List Output} (hd : IsServer d)
    (h : (machine C).step d e = some (d', outputs))
    : (∃ o ∈ outputs, o.effect.usesWallet) ↔
        ∃ i req, incoming C d e = some i ∧ requestOf i.result = some req := by
  cases step_cases h with
  | quiet hincoming _ _ _ houtputs =>
    simp only [hincoming, reduceCtorEq, false_and, exists_false, iff_false]
    rintro ⟨o, ho, huses⟩
    rcases houtputs o ho with hsend | ⟨_, hclient⟩
    . have hplain := isPlain_of_isSend hsend
      simp [Effect.isPlain, huses] at hplain
    . simp [hd.isServer] at hclient
  | inbound i p p' sock dest addr afterErr flow env effects flushed hincoming _ _ hget _ hresult _ _
      hflushed houtputs =>
    have hwallet : d.paymentWallet.isSome := by
      apply hd.wallet_isSome
      apply hd.keyPair_isSome i.id
      simp [accountOf, hget]
    have hiff := (signalCase_of_handleResult hresult).usesWallet_iff hwallet
    simp only [hincoming, Option.some.injEq, exists_and_left, exists_eq_left']
    rw [← hiff, houtputs]
    constructor
    . rintro ⟨o, ho, huses⟩
      simp only [outputsFor, List.mem_map, List.mem_append] at ho
      obtain ⟨f, hf | hf, rfl⟩ := ho
      . exact ⟨f, hf, huses⟩
      . have hplain := isPlain_of_isSend (hflushed f hf)
        simp [Effect.isPlain, huses] at hplain
    . rintro ⟨f, hf, huses⟩
      refine ⟨⟨some i.id, f⟩, ?_, huses⟩
      simp [outputsFor, hf]
  | outbound id p p' src env effects hevent _ _ hresult _ _ houtputs =>
    subst hevent
    simp only [incoming, reduceCtorEq, false_and, exists_false, iff_false]
    rintro ⟨o, ho, huses⟩
    simp only [houtputs, outputsFor, List.mem_map] at ho
    obtain ⟨f, hf, rfl⟩ := ho
    have hplain := outbound_isPlain hresult f hf
    simp [Effect.isPlain, huses] at hplain

variable {nextIndex : IndexLfsr} {config : DeviceConfig} {paymentConfig : Payment.PaymentConfig}
  {ts : List (Transition Device Event Output)}

theorem paymentConfig_of_run (hrun : (machine C).Run (new nextIndex config paymentConfig) ts d)
    : d.paymentConfig = paymentConfig := by
  apply hrun.invariant (fun d => d.paymentConfig = paymentConfig) rfl
  intro s e s' os hs hstep
  rw [paymentConfig_of_step hstep, hs]

theorem isServer_of_run (hserver : paymentConfig.isServer = true)
    (hrun : (machine C).Run (new nextIndex config paymentConfig) ts d)
    : IsServer d :=
  hrun.invariant IsServer (isServer_new nextIndex config hserver) (fun _ _ _ _ hd h => hd.step h)

theorem isServer_before_of_run (hserver : paymentConfig.isServer = true)
    (hrun : (machine C).Run (new nextIndex config paymentConfig) ts d)
    {t : Transition Device Event Output} (ht : t ∈ ts)
    : IsServer t.before :=
  hrun.invariant_before IsServer (isServer_new nextIndex config hserver)
    (fun _ _ _ _ hd h => hd.step h) ht

/--
In every run of a server, a step signs with the wallet of the server or emits a payment exactly if
one of its peers has sent it a packet from the gateway address with a request for payment.
-/
theorem server_usesWallet_iff (hserver : paymentConfig.isServer = true)
    (hrun : (machine C).Run (new nextIndex config paymentConfig) ts d)
    : ∀ t ∈ ts,
        (∃ o ∈ t.outputs, o.effect.usesWallet) ↔
          ∃ i req, incoming C t.before t.event = some i ∧ requestOf i.result = some req := by
  intro t ht
  exact (isServer_before_of_run hserver hrun ht).usesWallet_iff (hrun.step_of_mem ht)

end

namespace Sample

/-!
A server with one client, on top of primitives that do not protect anything. It serves to show that
something can happen.
-/

theorem length_sealed (_ : FixedBytes 32) (_ : FixedBytes 12) (data _ : Bytes)
    : (data ++ List.replicate 16 0).length = data.length + 16 := by
  simp

theorem length_encrypted (_ : FixedBytes 32) (_ : FixedBytes 24) (data _ : Bytes)
    : (data ++ List.replicate 16 0).length = data.length + 16 := by
  simp

theorem length_opened (_ : FixedBytes 32) (_ : FixedBytes 12) (data _ plain : Bytes)
    (h : (if 16 ≤ data.length then some (data.take (data.length - 16)) else none) = some plain)
    : data.length = plain.length + 16 := by
  simp only [Option.ite_none_right_eq_some, Option.some.injEq] at h
  rw [← h.2, List.length_take]
  omega

def noise : Noise.Primitives where
  x25519Public := id
  diffieHellman := fun _ _ => .zero 32
  blake2s256 := fun _ => .zero 32
  hmacBlake2s := fun _ _ => .zero 32
  blake2sMac16 := fun _ _ => .zero 16
  blake2sMac24 := fun _ _ => .zero 24
  chacha20Poly1305Seal := fun _ _ data _ => data ++ List.replicate 16 0
  chacha20Poly1305Open := fun _ _ data _ =>
    if 16 ≤ data.length then some (data.take (data.length - 16)) else none
  xChacha20Poly1305Encrypt := fun _ _ data _ => data ++ List.replicate 16 0
  xChacha20Poly1305Decrypt := fun _ _ data _ => some data
  length_seal := length_sealed
  length_open := length_opened
  length_encrypt := length_encrypted

/--
Every signature holds the key that made it, and the address of a key is its beginning.
-/
def payment : Payment.Primitives where
  keccak256 := fun _ => .zero 32
  deriveSigningKey := id
  computeAddress := fun key => .ofBytes 20 key.val
  signPrehashRecoverable := fun key digest => (0, key, digest)
  recoverFromPrehash := fun _ _ r _ => some (.ofBytes 20 r.val)

def primitives : Primitives where
  noise := noise
  payment := payment

def key (byte : UInt8) : FixedBytes 32 :=
  .replicate 32 byte

def serverConfig : Payment.PaymentConfig where
  chainId := 5042002
  usdcContract := .zero 20
  amountPerQuota := 10000
  quotaBytes := 10 * 1024 * 1024
  usdcName := "USDC"
  usdcVersion := "2"
  gatewayWallet := .zero 20
  gatewayName := "GatewayWalletBatched"
  gatewayVersion := "1"
  isServer := true

def server : Device :=
  new { initial := 1, lfsr := 1, mask := 1 } { useConnectedSocket := false } serverConfig

def env : Env where
  now := 0
  later := 0
  systemTime := 0
  ephemeral := fun _ => key 7
  nonce := key 9
  limiterNonceKey := key 0
  limiterSecretKey := .zero 16
  settle := fun _ => .ok { success := true }
  connects := false

def clientIp : Ipv4Addr := .new 10 0 0 2

def clientAddr : SocketAddr where
  ip := .v4 (.new 192 0 2 7)
  port := 5000

def handshakeInit (clientKey : FixedBytes 32) : Received :=
  ⟨[1, 0, 0, 0] ++ [5, 0, 0, 0] ++ (key 3).val ++ (clientKey.val ++ List.replicate 16 0)
    ++ ([64, 0, 0, 0, 0, 0, 0, 1, 0, 0, 0, 0] ++ List.replicate 16 0) ++ List.replicate 32 0,
    by simp [maxUdpSize]⟩

def dataDatagram (receiverIdx : Nat) (counter : UInt8) (packet : Bytes)
    (h : packet.length ≤ 65503) : Received :=
  ⟨[4, 0, 0, 0] ++ Bytes.leBytes 4 receiverIdx ++ [counter, 0, 0, 0, 0, 0, 0, 0] ++ packet
    ++ List.replicate 16 0, by simp [maxUdpSize]; omega⟩

theorem length_nil_le : ([] : Bytes).length ≤ 65503 := by
  decide

def sendPacket (counter : UInt8) (packet : Bytes) (h : packet.length ≤ 65503) : Event :=
  .udp clientAddr (dataDatagram 0x101 counter packet h) env

/--
The server gets its key and its client, and the two shake hands.
-/
def setup : List Event := [
  .setKey (key 1) env,
  .openListenSocket 7000 (some 7000),
  .updatePeer (key 2) false none [⟨.v4 clientIp, 32, IpAddr.le_width_v4 clientIp⟩] none none env,
  .udp clientAddr (handshakeInit (key 2)) env
]

/--
A request for payment as only the server should send it, from the gateway and to the server.
-/
def forgedRequest : Bytes :=
  Payment.signalPacket Payment.paymentGatewayIp (.new 10 0 0 1) <|
    Payment.PaymentRequired.encode {
      amountUsdc := 1000000
      nonce := key 4
      recipient := .ofBytes 20 (key 2).val
      deadline := 0
      chainId := 5042002
      usdcContract := .zero 20
    }

def forgery : List Event :=
  setup ++ [sendPacket 0 forgedRequest (by decide +kernel)]

end Sample

/--
The client sends a request for payment to the server, and the server signs a payment to the client.
-/
theorem exists_server_usesWallet
    : ∃ ts d, (machine Sample.primitives).Run Sample.server ts d ∧
        ∃ t ∈ ts, ∃ o ∈ t.outputs, o.effect.usesWallet := by
  have hrun := Machine.Run.exists_of_exec (machine Sample.primitives) Sample.server
    Sample.forgery (fun ts _ => ts.any fun t => t.outputs.any fun o => o.effect.usesWallet)
    (by decide +kernel)
  simpa using hrun

theorem server_usesWallet_iff_forgery
    : ∃ ts d, (machine Sample.primitives).Run Sample.server ts d
        ∧ (∃ t ∈ ts, ∃ o ∈ t.outputs, o.effect.usesWallet)
        ∧ (∃ t ∈ ts, t.outputs ≠ [] ∧ ¬∃ o ∈ t.outputs, o.effect.usesWallet)
        ∧
      ∀ t ∈ ts,
        (∃ o ∈ t.outputs, o.effect.usesWallet) ↔
          ∃ i req, incoming Sample.primitives t.before t.event = some i
            ∧ requestOf i.result = some req := by
  obtain ⟨ts, d, hrun, h⟩ := Machine.Run.exists_of_exec (machine Sample.primitives) Sample.server
    Sample.forgery
    (fun ts _ => (ts.any fun t => t.outputs.any fun o => o.effect.usesWallet)
      && ts.any fun t => !t.outputs.isEmpty && !t.outputs.any fun o => o.effect.usesWallet)
    (by decide +kernel)
  have hiff := server_usesWallet_iff rfl hrun
  simp only [Bool.and_eq_true, List.any_eq_true, Bool.not_eq_true', Bool.eq_false_iff, ne_eq,
    List.isEmpty_iff] at h
  exact ⟨ts, d, hrun, h.1, h.2, hiff⟩

end Device
