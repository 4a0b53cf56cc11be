import VeilVpn.Bytes

/-!
This module contains the cryptographic primitives that the tunnel takes from other crates. Only the
lengths of their results are fixed here, everything else about them is left open.
-/

namespace Noise

structure Primitives where
  x25519Public : FixedBytes 32 → FixedBytes 32
  diffieHellman : FixedBytes 32 → FixedBytes 32 → FixedBytes 32
  blake2s256 : Bytes → FixedBytes 32
  hmacBlake2s : Bytes → Bytes → FixedBytes 32
  blake2sMac16 : Bytes → Bytes → FixedBytes 16
  blake2sMac24 : Bytes → Bytes → FixedBytes 24
  /-- Key, nonce, plaintext and additional data to ciphertext and tag. -/
  chacha20Poly1305Seal : FixedBytes 32 → FixedBytes 12 → Bytes → Bytes → Bytes
  chacha20Poly1305Open : FixedBytes 32 → FixedBytes 12 → Bytes → Bytes → Option Bytes
  xChacha20Poly1305Encrypt : FixedBytes 32 → FixedBytes 24 → Bytes → Bytes → Bytes
  xChacha20Poly1305Decrypt : FixedBytes 32 → FixedBytes 24 → Bytes → Bytes → Option Bytes
  length_seal : ∀ key nonce data aad,
    (chacha20Poly1305Seal key nonce data aad).length = data.length + 16
  length_open : ∀ key nonce data aad plain,
    chacha20Poly1305Open key nonce data aad = some plain → data.length = plain.length + 16
  length_encrypt : ∀ key nonce data aad,
    (xChacha20Poly1305Encrypt key nonce data aad).length = data.length + 16

variable (P : Primitives)

def b2sHash (data1 data2 : Bytes) : FixedBytes 32 :=
  P.blake2s256 (data1 ++ data2)

def b2sHmac (key : FixedBytes 32) (data1 : Bytes) : FixedBytes 32 :=
  P.hmacBlake2s key.val data1

def b2sHmac2 (key : FixedBytes 32) (data1 data2 : Bytes) : FixedBytes 32 :=
  P.hmacBlake2s key.val (data1 ++ data2)

def b2sKeyedMac16 (key data1 : Bytes) : FixedBytes 16 :=
  P.blake2sMac16 key data1

def b2sKeyedMac16_2 (key data1 data2 : Bytes) : FixedBytes 16 :=
  P.blake2sMac16 key (data1 ++ data2)

def b2sMac24 (key data1 : Bytes) : FixedBytes 24 :=
  P.blake2sMac24 key data1

/--
The nonce of both AEAD wrappers and of the data packets: four zero bytes and the counter.
-/
def counterNonce (counter : UInt64) : FixedBytes 12 :=
  ⟨List.replicate 4 0 ++ Bytes.leBytes 8 counter.toNat, by simp⟩

def aeadChacha20Seal (key : FixedBytes 32) (counter : UInt64) (data aad : Bytes) : Bytes :=
  P.chacha20Poly1305Seal key (counterNonce counter) data aad

def aeadChacha20Open (key : FixedBytes 32) (counter : UInt64) (data aad : Bytes) : Option Bytes :=
  P.chacha20Poly1305Open key (counterNonce counter) data aad

end Noise
