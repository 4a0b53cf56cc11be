import VeilVpn.Payment.Impl.Tx
import VeilVpn.Rlp

namespace Payment

section Encoders

theorem exists_findIdx?_of_beNat {be : Bytes} (h : be.beNat ≠ 0)
    : ∃ i, be.findIdx? (· ≠ 0) = some i ∧ be.drop i = be.trimZeros := by
  induction be with
  | nil => exact absurd rfl h
  | cons byte rest ih =>
    by_cases hbyte : byte = 0
    . have hrest : Bytes.beNat rest ≠ 0 := by
        have heq := Bytes.beNat_trimZeros (0 :: rest)
        rw [Bytes.trimZeros_zero, Bytes.beNat_trimZeros] at heq
        rwa [hbyte, ← heq] at h
      obtain ⟨i, hfind, hdrop⟩ := ih hrest
      refine ⟨i + 1, ?_, ?_⟩
      . simpa [List.findIdx?_cons, hbyte] using hfind
      . rw [hbyte, Bytes.trimZeros_zero, List.drop_succ_cons, hdrop]
    . refine ⟨0, ?_, ?_⟩
      . simp [List.findIdx?_cons, hbyte]
      . rw [Bytes.trimZeros_of_ne hbyte, List.drop_zero]

theorem significant_eq_trimZeros {be : Bytes} (h : be.beNat ≠ 0)
    : significant be = be.trimZeros := by
  obtain ⟨i, hfind, hdrop⟩ := exists_findIdx?_of_beNat h
  rw [significant, hfind, Option.getD_some, hdrop]

theorem encodeLength_eq {len : Nat} (hlen : len < 2 ^ 64) (hpos : 0 < len)
    : encodeLength len = Rlp.lengthBytes len := by
  apply significant_eq_trimZeros
  rw [Bytes.beNat_beBytes]
  omega

theorem rlpEncodeBytes_eq {data : Bytes} (hlen : data.length < 2 ^ 64)
    : rlpEncodeBytes data = Rlp.encode (.bytes data) := by
  have hbyte : Rlp.isByte .bytes data = decide (data.length = 1 ∧ data.headD 0 < 0x80) := by
    rcases data with _ | ⟨byte, _ | ⟨byte', rest⟩⟩
    . rfl
    . simp [Rlp.isByte]
    . simp [Rlp.isByte]
  unfold rlpEncodeBytes
  rw [Rlp.encode, Rlp.wrap, hbyte, Rlp.header]
  simp only [decide_eq_true_eq]
  split
  . next hsingle =>
    rcases data with _ | ⟨byte, _ | ⟨byte', rest⟩⟩
    . simp at hsingle
    . rfl
    . simp at hsingle
  . split
    . rw [UInt8.ofNat_add]
      rfl
    . rw [encodeLength_eq hlen (by omega), UInt8.ofNat_add]
      rfl

theorem rlpEncodeList_eq {items : List Rlp.Item} (hlen : (Rlp.encodeAll items).length < 2 ^ 64)
    : rlpEncodeList (items.map Rlp.encode) = Rlp.encode (.list items) := by
  unfold rlpEncodeList
  rw [← Rlp.encodeAll_eq_flatten, Rlp.encode, Rlp.wrap, Rlp.header]
  dsimp only
  split
  . rw [UInt8.ofNat_add]
    rfl
  . rw [encodeLength_eq hlen (by omega), UInt8.ofNat_add]
    rfl

/--
An integer is the shortest string of bytes with its value.
-/
def integer (width value : Nat) : Rlp.Item :=
  .bytes (Bytes.beBytes width value).trimZeros

theorem rlpEncodeBytes_significant {width value : Nat} (hwidth : width ≤ 16) (hpos : value ≠ 0)
    (hlt : value < 256 ^ width)
    : rlpEncodeBytes (significant (Bytes.beBytes width value))
        =
      Rlp.encode (integer width value) := by
  have hne : (Bytes.beBytes width value).beNat ≠ 0 := by
    rw [Bytes.beNat_beBytes, Nat.mod_eq_of_lt hlt]
    exact hpos
  have hle := Bytes.length_trimZeros_le (Bytes.beBytes width value)
  rw [Bytes.length_beBytes] at hle
  rw [significant_eq_trimZeros hne, rlpEncodeBytes_eq (by omega), integer]

theorem rlpEncodeUint_eq (value : UInt64)
    : rlpEncodeUint value = Rlp.encode (integer 8 value.toNat) := by
  unfold rlpEncodeUint
  split
  . next hzero =>
    rw [hzero]
    rfl
  . next hne =>
    apply rlpEncodeBytes_significant (by omega)
    . intro heq
      exact hne (UInt64.toNat_inj.mp heq)
    . exact value.toNat_lt

theorem rlpEncodeU128_eq (value : BitVec 128)
    : rlpEncodeU128 value = Rlp.encode (integer 16 value.toNat) := by
  unfold rlpEncodeU128
  split
  . next hzero =>
    rw [hzero]
    rfl
  . next hne =>
    apply rlpEncodeBytes_significant (by omega)
    . intro heq
      exact hne (BitVec.toNat_inj.mp heq)
    . exact value.isLt

end Encoders

section Items

def IsInteger (item : Option Rlp.Item) (value : Nat) : Prop :=
  ∃ b, item = some (.bytes b) ∧ b.beNat = value ∧ b.head? ≠ some 0

theorem IsInteger.unique {item : Option Rlp.Item} {v w : Nat} (hv : IsInteger item v)
    (hw : IsInteger item w)
    : v = w := by
  obtain ⟨b, rfl, rfl, _⟩ := hv
  obtain ⟨b', heq, rfl, _⟩ := hw
  cases heq
  rfl

theorem isInteger_integer {width value : Nat} (h : value < 256 ^ width)
    : IsInteger (some (integer width value)) value := by
  refine ⟨_, rfl, ?_, Bytes.head?_trimZeros _⟩
  rw [Bytes.beNat_trimZeros, Bytes.beNat_beBytes, Nat.mod_eq_of_lt h]

theorem length_encode_integer_le (width value : Nat)
    : (Rlp.encode (integer width value)).length ≤ width + 9 := by
  have hle := Bytes.length_trimZeros_le (Bytes.beBytes width value)
  rw [Bytes.length_beBytes] at hle
  have hwrap := Rlp.length_wrap_le .bytes (Bytes.beBytes width value).trimZeros
  rw [integer, Rlp.encode]
  omega

namespace Eip1559Tx

structure Describes (items : List Rlp.Item) (tx : Eip1559Tx) : Prop where
  chainId : IsInteger items[0]? tx.chainId.toNat
  nonce : IsInteger items[1]? tx.nonce.toNat
  maxPriorityFeePerGas : IsInteger items[2]? tx.maxPriorityFeePerGas.toNat
  maxFeePerGas : IsInteger items[3]? tx.maxFeePerGas.toNat
  gasLimit : IsInteger items[4]? tx.gasLimit.toNat
  «to» : items[5]? = some (.bytes tx.to.val)
  value : IsInteger items[6]? tx.value.toNat
  data : items[7]? = some (.bytes tx.data.val)
  accessList : items[8]? = some (.list [])

theorem Describes.unique {items : List Rlp.Item} {tx tx' : Eip1559Tx} (h : Describes items tx)
    (h' : Describes items tx')
    : tx = tx' := by
  have hto := h.to.symm.trans h'.to
  have hdata := h.data.symm.trans h'.data
  simp only [Option.some.injEq, Rlp.Item.bytes.injEq] at hto hdata
  cases tx
  cases tx'
  congr
  . exact UInt64.toNat_inj.mp (h.chainId.unique h'.chainId)
  . exact UInt64.toNat_inj.mp (h.nonce.unique h'.nonce)
  . exact BitVec.toNat_inj.mp (h.maxPriorityFeePerGas.unique h'.maxPriorityFeePerGas)
  . exact BitVec.toNat_inj.mp (h.maxFeePerGas.unique h'.maxFeePerGas)
  . exact UInt64.toNat_inj.mp (h.gasLimit.unique h'.gasLimit)
  . exact FixedBytes.ext hto
  . exact BitVec.toNat_inj.mp (h.value.unique h'.value)
  . exact Subtype.ext hdata

def items (tx : Eip1559Tx) : List Rlp.Item :=
  [
    integer 8 tx.chainId.toNat,
    integer 8 tx.nonce.toNat,
    integer 16 tx.maxPriorityFeePerGas.toNat,
    integer 16 tx.maxFeePerGas.toNat,
    integer 8 tx.gasLimit.toNat,
    .bytes tx.to.val,
    integer 16 tx.value.toNat,
    .bytes tx.data.val,
    .list []
  ]

theorem describes_items (tx : Eip1559Tx) (more : List Rlp.Item)
    : Describes (tx.items ++ more) tx where
  chainId := isInteger_integer tx.chainId.toNat_lt
  nonce := isInteger_integer tx.nonce.toNat_lt
  maxPriorityFeePerGas := isInteger_integer tx.maxPriorityFeePerGas.isLt
  maxFeePerGas := isInteger_integer tx.maxFeePerGas.isLt
  gasLimit := isInteger_integer tx.gasLimit.toNat_lt
  «to» := rfl
  value := isInteger_integer tx.value.isLt
  data := rfl
  accessList := rfl

theorem rlpFields_eq (tx : Eip1559Tx) : tx.rlpFields = tx.items.map Rlp.encode := by
  have hdata : tx.data.val.length < 2 ^ 64 := by
    have := tx.data.property
    omega
  unfold rlpFields items
  rw [rlpEncodeUint_eq, rlpEncodeUint_eq, rlpEncodeUint_eq, rlpEncodeU128_eq, rlpEncodeU128_eq,
    rlpEncodeU128_eq, rlpEncodeBytes_eq (by simp), rlpEncodeBytes_eq hdata]
  rfl

theorem length_encodeAll_items (tx : Eip1559Tx)
    : (Rlp.encodeAll tx.items).length < 2 ^ 63 + 200 := by
  have hdata := tx.data.property
  have hbytes := Rlp.length_wrap_le .bytes tx.data.val
  have hto := Rlp.length_wrap_le .bytes tx.to.val
  rw [tx.to.length_val] at hto
  have h₀ := length_encode_integer_le 8 tx.chainId.toNat
  have h₁ := length_encode_integer_le 8 tx.nonce.toNat
  have h₂ := length_encode_integer_le 16 tx.maxPriorityFeePerGas.toNat
  have h₃ := length_encode_integer_le 16 tx.maxFeePerGas.toNat
  have h₄ := length_encode_integer_le 8 tx.gasLimit.toNat
  have h₆ := length_encode_integer_le 16 tx.value.toNat
  have h₈ : (Rlp.encode (.list [])).length = 1 := rfl
  simp only [items, Rlp.encodeAll, Rlp.encode, List.length_append, List.length_nil] at *
  omega

theorem decode_rlpEncodeList (items : List Rlp.Item)
    (hlen : (Rlp.encodeAll items).length < 2 ^ 63 + 300)
    : Rlp.decode (rlpEncodeList (items.map Rlp.encode)) = some (.list items) := by
  have hle := Rlp.length_wrap_le .list (Rlp.encodeAll items)
  rw [rlpEncodeList_eq (by omega), Rlp.decode_encode]
  rw [Rlp.encode]
  omega

/--
The payload that is signed holds the nine fields and nothing else, and no other transaction has it.
-/
theorem decode_rlpFields (tx : Eip1559Tx)
    : (∃ items,
        Rlp.decode (rlpEncodeList tx.rlpFields) = some (.list items)
          ∧
        items.length = 9
          ∧
        Describes items tx)
        ∧
      ∀ tx', rlpEncodeList (rlpFields tx') = rlpEncodeList tx.rlpFields → tx' = tx := by
  have hdecode : ∀ tx, Rlp.decode (rlpEncodeList (rlpFields tx)) = some (.list tx.items) := by
    intro tx
    have hlen := tx.length_encodeAll_items
    rw [rlpFields_eq, decode_rlpEncodeList]
    omega
  have hdescribes : ∀ tx, Describes (items tx) tx := by
    intro tx
    simpa using tx.describes_items []
  refine ⟨⟨tx.items, hdecode tx, rfl, hdescribes tx⟩, ?_⟩
  intro tx' heq
  have hitems := hdecode tx'
  rw [heq, hdecode tx, Option.some.injEq, Rlp.Item.list.injEq] at hitems
  have htx := hdescribes tx
  rw [hitems] at htx
  exact (hdescribes tx').unique htx

section Signature

variable {P : Primitives}

/--
The raw bytes are those of a transaction of type 2 with a signature.
-/
def Signed (raw : Bytes) (tx : Eip1559Tx) (yParity : UInt8) (r s : FixedBytes 32) : Prop :=
  ∃ enc items,
    raw = 0x02 :: enc
      ∧
    Rlp.decode enc = some (.list items)
      ∧
    items.length = 12
      ∧
    Describes items tx
      ∧
    IsInteger items[9]? yParity.toNat
      ∧
    IsInteger items[10]? r.val.beNat
      ∧
    IsInteger items[11]? s.val.beNat

def signedItems (tx : Eip1559Tx) (yParity : UInt8) (r s : FixedBytes 32) : List Rlp.Item :=
  tx.items ++ [integer 8 yParity.toNat, .bytes r.val, .bytes s.val]

theorem sign_eq {tx : Eip1559Tx} {key : FixedBytes 32} {yParity : UInt8} {r s : FixedBytes 32}
    (h : P.signPrehashRecoverable key (tx.signingHash P) = (yParity, r, s))
    : tx.sign P key = 0x02 :: rlpEncodeList ((tx.signedItems yParity r s).map Rlp.encode) := by
  unfold sign signedItems
  rw [h]
  dsimp only
  rw [rlpFields_eq, rlpEncodeUint_eq, rlpEncodeBytes_eq (by simp), rlpEncodeBytes_eq (by simp),
    List.map_append, UInt8.toNat_toUInt64]
  rfl

theorem length_encodeAll_signedItems (tx : Eip1559Tx) (yParity : UInt8) (r s : FixedBytes 32)
    : (Rlp.encodeAll (tx.signedItems yParity r s)).length < 2 ^ 63 + 300 := by
  have hitems := tx.length_encodeAll_items
  have hparity := length_encode_integer_le 8 yParity.toNat
  have hr := Rlp.length_wrap_le .bytes r.val
  have hs := Rlp.length_wrap_le .bytes s.val
  rw [r.length_val] at hr
  rw [s.length_val] at hs
  rw [Rlp.encodeAll_eq_flatten] at hitems ⊢
  simp only [signedItems, List.map_append, List.flatten_append, List.map_cons, List.map_nil,
    List.flatten_cons, List.flatten_nil, List.length_append, List.length_nil, Rlp.encode]
    at hitems ⊢
  omega

theorem decode_signedItems (tx : Eip1559Tx) (yParity : UInt8) (r s : FixedBytes 32)
    : Rlp.decode (rlpEncodeList ((tx.signedItems yParity r s).map Rlp.encode))
        =
      some (.list (tx.signedItems yParity r s)) :=
  decode_rlpEncodeList _ (tx.length_encodeAll_signedItems yParity r s)

theorem isInteger_bytes {b : Bytes} : IsInteger (some (.bytes b)) b.beNat ↔ b.head? ≠ some 0 := by
  constructor
  . rintro ⟨b', heq, _, hhead⟩
    cases heq
    exact hhead
  . intro hhead
    exact ⟨b, rfl, rfl, hhead⟩

theorem signed_signedItems_iff (tx : Eip1559Tx) (yParity : UInt8) (r s : FixedBytes 32)
    : Signed (0x02 :: rlpEncodeList ((tx.signedItems yParity r s).map Rlp.encode)) tx yParity r s
        ↔
      r.val.head? ≠ some 0 ∧ s.val.head? ≠ some 0 := by
  rw [← isInteger_bytes, ← isInteger_bytes]
  constructor
  . rintro ⟨enc, items, henc, hdecode, _, _, _, hr, hs⟩
    rw [List.cons.injEq] at henc
    rw [← henc.2, decode_signedItems, Option.some.injEq, Rlp.Item.list.injEq] at hdecode
    rw [← hdecode] at hr hs
    exact ⟨hr, hs⟩
  . rintro ⟨hr, hs⟩
    have hparity : IsInteger (some (integer 8 yParity.toNat)) yParity.toNat := by
      apply isInteger_integer
      have := yParity.toNat_lt
      omega
    exact ⟨_, _, rfl, tx.decode_signedItems yParity r s, rfl, tx.describes_items _, hparity, hr, hs⟩

/--
The two halves of a signature are integers as well, but they are encoded with all of their 32 bytes.
-/
theorem signed_sign_iff {tx : Eip1559Tx} {key : FixedBytes 32} {yParity : UInt8}
    {r s : FixedBytes 32} (h : P.signPrehashRecoverable key (tx.signingHash P) = (yParity, r, s))
    : Signed (tx.sign P key) tx yParity r s ↔ r.val.head? ≠ some 0 ∧ s.val.head? ≠ some 0 := by
  rw [sign_eq h, signed_signedItems_iff]

namespace Sample

def ones : FixedBytes 32 := ⟨List.replicate 32 1, List.length_replicate⟩

def short : FixedBytes 32 := ⟨0 :: List.replicate 31 1, by decide⟩

def signer : Primitives where
  keccak256 := fun _ => ones
  deriveSigningKey := id
  computeAddress := fun _ => .zero 20
  signPrehashRecoverable := fun key digest => (0, key, digest)
  recoverFromPrehash := fun _ _ _ _ => none

def tx : Eip1559Tx where
  chainId := 5042002
  nonce := 0
  maxPriorityFeePerGas := 1000000
  maxFeePerGas := 2000000
  gasLimit := 60000
  «to» := ⟨List.replicate 20 0xaa, List.length_replicate⟩
  value := 0
  data := ⟨[0x09, 0x5e, 0xa7, 0xb3], by decide⟩

end Sample

theorem signed_sign_iff_ones
    : Signed (Sample.tx.sign Sample.signer Sample.ones) Sample.tx 0 Sample.ones Sample.ones := by
  have hsign : Sample.signer.signPrehashRecoverable Sample.ones
      (Sample.tx.signingHash Sample.signer) = (0, Sample.ones, Sample.ones) := rfl
  apply (signed_sign_iff hsign).mpr
  decide

/--
The first byte of `r` is zero, and it stays in the transaction.
-/
theorem exists_not_signed
    : ∃ (P : Primitives) (tx : Eip1559Tx) (key : FixedBytes 32) (yParity : UInt8)
        (r s : FixedBytes 32),
        P.signPrehashRecoverable key (tx.signingHash P) = (yParity, r, s)
          ∧
        ¬Signed (tx.sign P key) tx yParity r s := by
  have hsign : Sample.signer.signPrehashRecoverable Sample.short
      (Sample.tx.signingHash Sample.signer) = (0, Sample.short, Sample.ones) := rfl
  refine ⟨_, _, _, _, _, _, hsign, ?_⟩
  rw [sign_eq hsign, signed_signedItems_iff]
  decide

end Signature

end Eip1559Tx

end Items

end Payment
