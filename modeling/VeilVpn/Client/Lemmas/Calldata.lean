import VeilVpn.Abi
import VeilVpn.Client.Impl.Ens

namespace Client
namespace Ens

open Text (utf8)

section Words

@[simp]
theorem length_uint256 (v : Nat) : (uint256 v).length = 32 := by
  rw [uint256, List.length_append, List.length_replicate, Bytes.length_beBytes]

theorem beNat_uint256 (v : Nat) : (uint256 v).beNat = v % 2 ^ 64 := by
  have hzeros : Bytes.beNat (List.replicate 24 0) = 0 := by decide
  have hpow : 256 ^ 8 = 2 ^ 64 := by decide
  rw [uint256, Bytes.beNat_append, hzeros, Nat.mul_zero, Nat.add_zero, Bytes.beNat_beBytes, hpow]

theorem uint256_eq_word {v : Nat} (h : v < 2 ^ 64) : uint256 v = Abi.word v := by
  have hbytes := Bytes.beBytes_beNat (uint256 v)
  rw [length_uint256, beNat_uint256, Nat.mod_eq_of_lt h] at hbytes
  exact hbytes.symm

theorem ceil32_lt (n : Nat) : ceil32 n < n + 32 := by
  unfold ceil32
  omega

theorem append_replicate_eq_pad (b : Bytes)
    : b ++ List.replicate (ceil32 b.length - b.length) 0 = Abi.pad b := by
  have hzeros : ceil32 b.length - b.length = (32 - b.length % 32) % 32 := by
    unfold ceil32
    omega
  rw [Abi.pad, hzeros]

theorem length_pad (b : Bytes) : (Abi.pad b).length = ceil32 b.length := by
  rw [← append_replicate_eq_pad, List.length_append, List.length_replicate]
  unfold ceil32
  omega

theorem pad32Vec_eq_pad (b : Bytes) : pad32Vec b = Abi.pad b := by
  unfold pad32Vec Abi.pad
  dsimp only
  split
  . next hrem =>
    have hzeros : (32 - b.length % 32) % 32 = 32 - b.length % 32 := by omega
    rw [hzeros]
  . next hrem =>
    have hzeros : (32 - b.length % 32) % 32 = 0 := by omega
    rw [hzeros, List.replicate_zero, List.append_nil]

end Words

section Canonical

variable (keccak256 : Bytes → FixedBytes 32) (name key : List Char)

/--
The call of `text(bytes32,string)` in the binary interface: a selector and the encoded arguments.
-/
def canonicalTextCall : Bytes :=
  [0x59, 0xd1, 0xd4, 0x3c] ++ Abi.encode [.static (namehash keccak256 name), .dynamic (utf8 key)]

def canonicalCalldata : Bytes :=
  [0x90, 0x61, 0xb9, 0x23]
    ++ Abi.encode [.dynamic (dnsEncode name), .dynamic (canonicalTextCall keccak256 name key)]

def textFields : Bytes :=
  (namehash keccak256 name).val ++ (uint256 64 ++ (uint256 (utf8 key).length ++ utf8 key))

theorem textCall_eq
    : textCall keccak256 name key
        =
      Abi.pad ([0x59, 0xd1, 0xd4, 0x3c] ++ textFields keccak256 name key) := by
  unfold textCall textFields
  dsimp only
  rw [pad32Vec_eq_pad]

theorem length_textFields
    : (textFields keccak256 name key).length = 96 + (utf8 key).length := by
  simp only [textFields, List.length_append, length_uint256, FixedBytes.length_val]
  omega

theorem textCall_eq_append
    : textCall keccak256 name key
        =
      [0x59, 0xd1, 0xd4, 0x3c] ++ (textFields keccak256 name key
        ++ List.replicate ((32 - (100 + (utf8 key).length) % 32) % 32) 0) := by
  have hlength : ([0x59, 0xd1, 0xd4, 0x3c] ++ textFields keccak256 name key).length
      = 100 + (utf8 key).length := by
    rw [List.length_append, length_textFields, List.length_cons, List.length_cons, List.length_cons,
      List.length_singleton]
    omega
  rw [textCall_eq, Abi.pad, hlength, List.append_assoc]

theorem canonicalTextCall_eq_append {key : List Char} (hkey : (utf8 key).length < 2 ^ 64)
    : canonicalTextCall keccak256 name key
        =
      [0x59, 0xd1, 0xd4, 0x3c] ++ (textFields keccak256 name key
        ++ List.replicate ((32 - (utf8 key).length % 32) % 32) 0) := by
  rw [canonicalTextCall, textFields, uint256_eq_word (by decide), uint256_eq_word hkey]
  simp only [Abi.encode, Abi.heads, Abi.Argument.tail, Abi.pad, List.length_cons, List.length_nil,
    List.flatMap_cons, List.flatMap_nil, List.nil_append, List.append_nil, List.append_assoc]

theorem length_textCall
    : (textCall keccak256 name key).length = ceil32 (100 + (utf8 key).length) := by
  rw [textCall_eq, length_pad, List.length_append, length_textFields]
  congr 1
  simp only [List.length_cons, List.length_nil]
  omega

theorem length_textCall_lt {key : List Char} (hkey : (utf8 key).length < 2 ^ 63)
    : (textCall keccak256 name key).length < 2 ^ 64 := by
  have hceil := ceil32_lt (100 + (utf8 key).length)
  rw [length_textCall]
  omega

theorem length_textCall_mod : (textCall keccak256 name key).length % 32 = 0 := by
  rw [textCall_eq, Abi.length_pad_mod]

theorem length_canonicalTextCall_mod : (canonicalTextCall keccak256 name key).length % 32 = 4 := by
  have hpad := Abi.length_pad_mod (utf8 key)
  rw [canonicalTextCall, List.length_append, Abi.length_encode]
  simp only [List.flatMap_cons, List.flatMap_nil, Abi.Argument.tail, List.length_append,
    Abi.length_word, List.length_cons, List.length_nil]
  omega

def callFront (name : List Char) : Bytes :=
  uint256 64 ++ (uint256 (64 + 32 + ceil32 (dnsEncode name).length)
    ++ (uint256 (dnsEncode name).length ++ Abi.pad (dnsEncode name)))

theorem calldata_eq
    : calldata keccak256 name key
        =
      [0x90, 0x61, 0xb9, 0x23] ++ (callFront name ++ (uint256 (textCall keccak256 name key).length
        ++ Abi.pad (textCall keccak256 name key))) := by
  unfold calldata callFront
  simp only [← append_replicate_eq_pad, List.append_assoc]

theorem length_callFront (call : Bytes)
    : (callFront name).length = (Abi.beforeTail [.dynamic (dnsEncode name)] [] call).length := by
  rw [Abi.length_beforeTail, Abi.tailOffset]
  simp only [callFront, List.flatMap_cons, List.flatMap_nil, Abi.Argument.tail, List.length_append,
    Abi.length_word, length_uint256, List.length_cons, List.length_nil]
  omega

theorem encode_pair (dnsName call : Bytes)
    : Abi.encode [.dynamic dnsName, .dynamic call]
        =
      Abi.beforeTail [.dynamic dnsName] [] call ++ (Abi.word call.length ++ Abi.pad call) := by
  have hencode := Abi.encode_eq_beforeTail_append [.dynamic dnsName] [] call
  rwa [List.singleton_append, List.flatMap_nil, List.append_nil] at hencode

theorem calldata_ne : calldata keccak256 name key ≠ canonicalCalldata keccak256 name key := by
  intro h
  rw [calldata_eq, canonicalCalldata, encode_pair] at h
  have htails := List.append_inj_right (List.append_cancel_left h) (length_callFront name _)
  have hwords := List.append_inj_left htails (by rw [length_uint256, Abi.length_word])
  have hnat := congrArg Bytes.beNat hwords
  rw [beNat_uint256, Abi.word, Bytes.beNat_beBytes] at hnat
  have htext := length_textCall_mod keccak256 name key
  have hcanonical := length_canonicalTextCall_mod keccak256 name key
  omega

/--
The calldata is canonical for no name and no key: the client counts the selector of the inner call
when it pads the call, the binary interface does not.
-/
theorem calldata_not_canonical
    : calldata keccak256 name key ≠ canonicalCalldata keccak256 name key
        ∧
      (textCall keccak256 name key).length % 32 = 0
        ∧
      (canonicalTextCall keccak256 name key).length % 32 = 4 :=
  ⟨calldata_ne keccak256 name key, length_textCall_mod keccak256 name key,
    length_canonicalTextCall_mod keccak256 name key⟩

/--
For a key that the client asks for, four zeros are missing at the end of the inner call.
-/
theorem calldata_endpoint_not_canonical
    : (∀ keccak256, calldata keccak256 "veil.eth".toList "vpn.endpoint".toList
        ≠ canonicalCalldata keccak256 "veil.eth".toList "vpn.endpoint".toList)
        ∧
      ∀ keccak256, canonicalTextCall keccak256 "veil.eth".toList "vpn.endpoint".toList
        = textCall keccak256 "veil.eth".toList "vpn.endpoint".toList ++ [0, 0, 0, 0] := by
  have hlength : (utf8 "vpn.endpoint".toList).length = 12 := by decide +kernel
  refine ⟨fun keccak256 => calldata_ne keccak256 _ _, ?_⟩
  intro keccak256
  rw [textCall_eq_append, canonicalTextCall_eq_append keccak256 _ (by rw [hlength]; decide), hlength]
  simp only [List.append_assoc]
  rfl

end Canonical

section Reader

variable (keccak256 : Bytes → FixedBytes 32) {name key : List Char}

theorem callFront_eq (call : Bytes) (hname : (dnsEncode name).length < 2 ^ 63)
    : callFront name = Abi.beforeTail [.dynamic (dnsEncode name)] [] call := by
  have hceil := ceil32_lt (dnsEncode name).length
  rw [callFront, uint256_eq_word (by decide), uint256_eq_word (by omega), uint256_eq_word (by omega)]
  simp only [Abi.beforeTail, Abi.heads, List.cons_append, List.nil_append, List.flatMap_cons,
    List.flatMap_nil, List.append_nil, List.length_cons, List.length_nil, Abi.Argument.tail,
    List.length_append, Abi.length_word, length_pad, List.append_assoc, Nat.add_assoc]

theorem calldata_eq_encode (hname : (dnsEncode name).length < 2 ^ 63)
    (hkey : (utf8 key).length < 2 ^ 63)
    : calldata keccak256 name key
        =
      [0x90, 0x61, 0xb9, 0x23]
        ++ Abi.encode [.dynamic (dnsEncode name), .dynamic (textCall keccak256 name key)] := by
  have hlength := length_textCall_lt keccak256 name hkey
  rw [calldata_eq, encode_pair, callFront_eq (textCall keccak256 name key) hname,
    uint256_eq_word hlength]

theorem drop_textCall (name : List Char) (hkey : (utf8 key).length < 2 ^ 63)
    : (textCall keccak256 name key).drop 4
        =
      (namehash keccak256 name).val ++ (Abi.word 64 ++ (Abi.word (utf8 key).length ++ (utf8 key
        ++ List.replicate ((32 - (100 + (utf8 key).length) % 32) % 32) 0))) := by
  rw [textCall_eq_append, textFields, uint256_eq_word (by decide), uint256_eq_word (by omega)]
  simp only [List.append_assoc]
  rfl

theorem dynamicAt_fields (node : FixedBytes 32) {b : Bytes} (hb : b.length < 2 ^ 64) (rest : Bytes)
    : Abi.dynamicAt (node.val ++ (Abi.word 64 ++ (Abi.word b.length ++ (b ++ rest)))) 1 = some b := by
  have hoffset : Bytes.slice (node.val ++ (Abi.word 64 ++ (Abi.word b.length ++ (b ++ rest)))) 32 64
      = Abi.word 64 := by
    apply Bytes.slice_append
    . rw [FixedBytes.length_val]
    . rw [Abi.length_word]
  have hlength : Bytes.slice (node.val ++ (Abi.word 64 ++ (Abi.word b.length ++ (b ++ rest)))) 64 96
      = Abi.word b.length := by
    rw [← List.append_assoc]
    apply Bytes.slice_append
    . rw [List.length_append, FixedBytes.length_val, Abi.length_word]
    . rw [Abi.length_word]
  have hbytes : Bytes.slice (node.val ++ (Abi.word 64 ++ (Abi.word b.length ++ (b ++ rest)))) 96
      (96 + b.length) = b := by
    rw [← List.append_assoc, ← List.append_assoc]
    apply Bytes.slice_append
    . simp only [List.length_append, FixedBytes.length_val, Abi.length_word]
    . rfl
  unfold Abi.dynamicAt
  simp only [Nat.mul_one, Nat.reduceAdd, hoffset, Abi.beNat_word (by decide : 64 < 256 ^ 32), hlength,
    Abi.beNat_word (by omega : b.length < 256 ^ 32)]
  rw [Bytes.index_of_le (by omega), hbytes]
  simp only [List.length_append, FixedBytes.length_val, Abi.length_word]
  omega

theorem calldata_reads (hname : (dnsEncode name).length < 2 ^ 63) (hkey : (utf8 key).length < 2 ^ 63)
    : Abi.dynamicAt ((calldata keccak256 name key).drop 4) 0 = some (dnsEncode name)
        ∧
      Abi.dynamicAt ((calldata keccak256 name key).drop 4) 1 = some (textCall keccak256 name key)
        ∧
      Bytes.slice ((textCall keccak256 name key).drop 4) 0 32 = (namehash keccak256 name).val
        ∧
      Abi.dynamicAt ((textCall keccak256 name key).drop 4) 1 = some (utf8 key) := by
  have hceil := ceil32_lt (dnsEncode name).length
  have hlength : (textCall keccak256 name key).length < 2 ^ 64 := length_textCall_lt keccak256 name hkey
  have hcalldata : (calldata keccak256 name key).drop 4
      = Abi.encode [.dynamic (dnsEncode name), .dynamic (textCall keccak256 name key)] := by
    rw [calldata_eq_encode keccak256 hname hkey]
    rfl
  rw [hcalldata]
  refine ⟨?_, ?_, ?_, ?_⟩
  . apply Abi.dynamicAt_encode [] [.dynamic (textCall keccak256 name key)] (dnsEncode name)
    . simp [Abi.tailOffset]
    . omega
  . apply Abi.dynamicAt_encode [.dynamic (dnsEncode name)] [] (textCall keccak256 name key)
    . simp only [Abi.tailOffset, List.singleton_append, List.length_cons, List.length_nil,
        List.flatMap_cons, List.flatMap_nil, List.append_nil, Abi.Argument.tail, List.length_append,
        Abi.length_word, length_pad]
      omega
    . omega
  . rw [drop_textCall keccak256 name hkey]
    exact Bytes.slice_append [] _ _ rfl (by rw [FixedBytes.length_val])
  . rw [drop_textCall keccak256 name hkey]
    exact dynamicAt_fields _ (by omega) _

end Reader

end Ens
end Client
