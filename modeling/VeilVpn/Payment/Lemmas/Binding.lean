import VeilVpn.Collision
import VeilVpn.Text
import VeilVpn.Payment.Impl.Deposit

namespace Payment

theorem utf8_inj {s t : String} (h : utf8 s = utf8 t) : s = t :=
  Text.toUTF8_toList_inj h

theorem abiEncodeAddress_append_inj {addr addr' : FixedBytes 20} {b b' : Bytes}
    (h : abiEncodeAddress addr ++ b = abiEncodeAddress addr' ++ b')
    : addr = addr' ∧ b = b' := by
  unfold abiEncodeAddress at h
  rw [List.append_assoc, List.append_assoc, List.append_cancel_left_eq] at h
  exact FixedBytes.append_inj h

theorem abiEncodeU256_append_inj {v w : Nat} {b b' : Bytes} (hv : v < 2 ^ 128) (hw : w < 2 ^ 128)
    (h : abiEncodeU256 v ++ b = abiEncodeU256 w ++ b')
    : v = w ∧ b = b' := by
  unfold abiEncodeU256 at h
  rw [List.append_assoc, List.append_assoc, List.append_cancel_left_eq] at h
  obtain ⟨hvalue, hrest⟩ := List.append_inj h (by simp)
  exact ⟨Bytes.beBytes_inj hv hw hvalue, hrest⟩

theorem toNat_lt_u128 (v : UInt64) : v.toNat < 2 ^ 128 := by
  apply Nat.lt_trans v.toNat_lt
  decide

theorem abiEncodeU256_u64_append_inj {v w : UInt64} {b b' : Bytes}
    (h : abiEncodeU256 v.toNat ++ b = abiEncodeU256 w.toNat ++ b')
    : v = w ∧ b = b' := by
  obtain ⟨hvalue, hrest⟩ := abiEncodeU256_append_inj (toNat_lt_u128 v) (toNat_lt_u128 w) h
  exact ⟨UInt64.toNat_inj.mp hvalue, hrest⟩

theorem depositAbiEncodeU256_u64 (v : UInt64)
    : Deposit.abiEncodeU256 (.ofNat 128 v.toNat) = abiEncodeU256 v.toNat := by
  unfold Deposit.abiEncodeU256
  rw [BitVec.toNat_ofNat, Nat.mod_eq_of_lt (toNat_lt_u128 v)]
  rfl

def domainType : String :=
  "EIP712Domain(string name,string version,uint256 chainId,address verifyingContract)"

def transferType : String :=
  "TransferWithAuthorization(address from,address to,uint256 value,uint256 validAfter,"
    ++ "uint256 validBefore,bytes32 nonce)"

def receiveType : String :=
  "ReceiveWithAuthorization(address from,address to,uint256 value,uint256 validAfter,"
    ++ "uint256 validBefore,bytes32 nonce)"

variable (K : Primitives)

def domainData (domain : Eip712Domain) : Bytes :=
  (K.keccak256 (utf8 domainType)).val ++ ((K.keccak256 (utf8 domain.name)).val
    ++ ((K.keccak256 (utf8 domain.version)).val ++ (abiEncodeU256 domain.chainId.toNat
    ++ abiEncodeAddress domain.verifyingContract)))

def transferData (auth : TransferAuthorization) : Bytes :=
  (K.keccak256 (utf8 transferType)).val ++ (abiEncodeAddress auth.from
    ++ (abiEncodeAddress auth.to ++ (abiEncodeU256 auth.value.toNat
    ++ (abiEncodeU256 auth.validAfter.toNat ++ (abiEncodeU256 auth.validBefore.toNat
    ++ auth.nonce.val)))))

def receiveData (wallet : PaymentWallet) (config : PaymentConfig) (amount : BitVec 128)
    (nonce : FixedBytes 32) (now : UInt64) : Bytes :=
  (K.keccak256 (utf8 receiveType)).val ++ (abiEncodeAddress wallet.ethereumAddress
    ++ (abiEncodeAddress config.gatewayWallet ++ (abiEncodeU256 amount.toNat
    ++ (abiEncodeU256 0 ++ (abiEncodeU256 (now + 600).toNat ++ nonce.val)))))

def digestData (domain : Eip712Domain) (data : Bytes) : Bytes :=
  [0x19, 0x01] ++ ((K.keccak256 (domainData K domain)).val ++ (K.keccak256 data).val)

/--
The byte strings that are hashed for a digest.
-/
def hashed (domain : Eip712Domain) (type : String) (data : Bytes) : List Bytes :=
  [utf8 domainType, utf8 domain.name, utf8 domain.version, domainData K domain, utf8 type, data,
    digestData K domain data]

def transferHashed (domain : Eip712Domain) (auth : TransferAuthorization) : List Bytes :=
  hashed K domain transferType (transferData K auth)

def receiveHashed (wallet : PaymentWallet) (config : PaymentConfig) (amount : BitVec 128)
    (nonce : FixedBytes 32) (now : UInt64) : List Bytes :=
  hashed K config.usdcDomain receiveType (receiveData K wallet config amount nonce now)

variable {K}

theorem digest_eq (wallet : PaymentWallet) (config : PaymentConfig) (amount : BitVec 128)
    (nonce : FixedBytes 32) (now : UInt64)
    : Deposit.digest K wallet config amount nonce now
        =
      K.keccak256
        (digestData K config.usdcDomain (receiveData K wallet config amount nonce now)) := by
  simp only [Deposit.digest, Deposit.computeDomainSeparator, depositAbiEncodeU256_u64]
  rfl

theorem domainData_inj {domain domain' : Eip712Domain} {type type' : String} {data data' : Bytes}
    (hfree : ¬Collision K.keccak256 (hashed K domain type data) (hashed K domain' type' data'))
    (h : domainData K domain = domainData K domain')
    : domain = domain' := by
  obtain ⟨_, h⟩ := FixedBytes.append_inj h
  obtain ⟨hname, h⟩ := FixedBytes.append_inj h
  obtain ⟨hversion, h⟩ := FixedBytes.append_inj h
  obtain ⟨hchainId, h⟩ := abiEncodeU256_u64_append_inj h
  obtain ⟨hcontract, _⟩ := abiEncodeAddress_append_inj (congrArg (· ++ []) h)
  have hname := utf8_inj <| Collision.eq_of_hash_eq hfree (by simp [hashed]) (by simp [hashed]) hname
  have hversion :=
    utf8_inj <| Collision.eq_of_hash_eq hfree (by simp [hashed]) (by simp [hashed]) hversion
  cases domain
  cases domain'
  simp_all

theorem digestData_inj {domain domain' : Eip712Domain} {type type' : String} {data data' : Bytes}
    (hfree : ¬Collision K.keccak256 (hashed K domain type data) (hashed K domain' type' data'))
    (h : K.keccak256 (digestData K domain data) = K.keccak256 (digestData K domain' data'))
    : domain = domain' ∧ data = data' := by
  have h := Collision.eq_of_hash_eq hfree (by simp [hashed]) (by simp [hashed]) h
  obtain ⟨hdomain, hdata⟩ := FixedBytes.append_inj (List.append_cancel_left h)
  have hdomain := Collision.eq_of_hash_eq hfree (by simp [hashed]) (by simp [hashed]) hdomain
  have hdata := Collision.eq_of_hash_eq hfree (by simp [hashed]) (by simp [hashed])
    (FixedBytes.ext hdata)
  exact ⟨domainData_inj hfree hdomain, hdata⟩

theorem transferData_inj {auth auth' : TransferAuthorization}
    (h : transferData K auth = transferData K auth')
    : auth = auth' := by
  obtain ⟨_, h⟩ := FixedBytes.append_inj h
  obtain ⟨hfrom, h⟩ := abiEncodeAddress_append_inj h
  obtain ⟨hto, h⟩ := abiEncodeAddress_append_inj h
  obtain ⟨hvalue, h⟩ := abiEncodeU256_u64_append_inj h
  obtain ⟨hvalidAfter, h⟩ := abiEncodeU256_u64_append_inj h
  obtain ⟨hvalidBefore, h⟩ := abiEncodeU256_u64_append_inj h
  have hnonce : auth.nonce = auth'.nonce := FixedBytes.ext h
  cases auth
  cases auth'
  simp_all

theorem collision_of_transferData_eq_receiveData {domain : Eip712Domain}
    {auth : TransferAuthorization} {wallet : PaymentWallet} {config : PaymentConfig}
    {amount : BitVec 128} {nonce : FixedBytes 32} {now : UInt64}
    (h : transferData K auth = receiveData K wallet config amount nonce now)
    : Collision K.keccak256 (transferHashed K domain auth)
        (receiveHashed K wallet config amount nonce now) := by
  obtain ⟨htype, _⟩ := FixedBytes.append_inj h
  have hne : utf8 transferType ≠ utf8 receiveType := by
    intro heq
    exact absurd (utf8_inj heq) (by decide +kernel)
  exact ⟨_, by simp [transferHashed, hashed], _, by simp [receiveHashed, hashed], hne, htype⟩

theorem digest_binding (K : Primitives)
    : (∀ domain domain' auth auth',
        computeEip712Digest K domain auth = computeEip712Digest K domain' auth'
          →
        (domain = domain' ∧ auth = auth')
          ∨ Collision K.keccak256 (transferHashed K domain auth) (transferHashed K domain' auth'))
        ∧
      (∀ domain auth wallet config amount nonce now,
        computeEip712Digest K domain auth = Deposit.digest K wallet config amount nonce now
          →
        Collision K.keccak256 (transferHashed K domain auth)
          (receiveHashed K wallet config amount nonce now)) := by
  refine ⟨?_, ?_⟩
  . intro domain domain' auth auth' h
    by_cases hfree : Collision K.keccak256 (transferHashed K domain auth)
        (transferHashed K domain' auth')
    . exact .inr hfree
    . obtain ⟨hdomain, hdata⟩ := digestData_inj hfree h
      exact .inl ⟨hdomain, transferData_inj hdata⟩
  . intro domain auth wallet config amount nonce now h
    apply Classical.byContradiction
    intro hfree
    rw [digest_eq] at h
    obtain ⟨_, hdata⟩ := digestData_inj hfree h
    exact hfree (collision_of_transferData_eq_receiveData hdata)

namespace Sample

def constant : Primitives where
  keccak256 := fun _ => .zero 32
  deriveSigningKey := id
  computeAddress := fun _ => .zero 20
  signPrehashRecoverable := fun key digest => (0, key, digest)
  recoverFromPrehash := fun _ _ _ _ => none

def config : PaymentConfig where
  chainId := 5042002
  usdcContract := .zero 20
  amountPerQuota := 10000
  quotaBytes := 10 * 1024 * 1024
  usdcName := "USDC"
  usdcVersion := "2"
  gatewayWallet := .zero 20
  gatewayName := "GatewayWalletBatched"
  gatewayVersion := "1"
  isServer := false

def auth : TransferAuthorization where
  «from» := .zero 20
  «to» := .zero 20
  value := 10000
  validAfter := 0
  validBefore := 600
  nonce := .zero 32

end Sample

section

open Sample

theorem digest_binding_constant
    : (config.gatewayDomain ≠ config.usdcDomain
        ∧ Collision constant.keccak256 (transferHashed constant config.gatewayDomain auth)
          (transferHashed constant config.usdcDomain auth))
      ∧ Collision constant.keccak256 (transferHashed constant config.usdcDomain auth)
          (receiveHashed constant (.fromWireguardKey constant (.zero 32)) config 10000 (.zero 32)
            0) := by
  have hne : config.gatewayDomain ≠ config.usdcDomain := by decide +kernel
  obtain ⟨hbinds, hseparates⟩ := digest_binding constant
  refine ⟨⟨hne, ?_⟩, hseparates _ _ _ _ _ _ _ rfl⟩
  obtain ⟨hdomain, _⟩ | hcollision := hbinds config.gatewayDomain config.usdcDomain auth auth rfl
  . exact absurd hdomain hne
  . exact hcollision

end

end Payment
