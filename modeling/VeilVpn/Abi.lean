import VeilVpn.Bytes

/-!
This module contains the encoding of arguments in the application binary interface of Ethereum: one
word for each argument, and behind the words the bytes of those arguments whose size is not fixed.
-/

namespace Abi

def word (v : Nat) : Bytes :=
  Bytes.beBytes 32 v

def pad (b : Bytes) : Bytes :=
  b ++ List.replicate ((32 - b.length % 32) % 32) 0

def address (addr : FixedBytes 20) : FixedBytes 32 :=
  ⟨List.replicate 12 0 ++ addr.val, by simp⟩

inductive Argument where
  | static (word : FixedBytes 32)
  | dynamic (b : Bytes)

def Argument.tail : Argument → Bytes
  | .static _ => []
  | .dynamic b => word b.length ++ pad b

/--
The words. The one of a dynamic argument is where its tail begins.
-/
def heads (offset : Nat) : List Argument → Bytes
  | [] => []
  | .static w :: args => w.val ++ heads offset args
  | .dynamic b :: args => word offset ++ heads (offset + (Argument.dynamic b).tail.length) args

def encode (args : List Argument) : Bytes :=
  heads (32 * args.length) args ++ args.flatMap Argument.tail

def tailOffset (n : Nat) (front : List Argument) : Nat :=
  32 * n + (front.flatMap Argument.tail).length

@[simp]
theorem length_word (v : Nat) : (word v).length = 32 :=
  Bytes.length_beBytes 32 v

theorem beNat_word {v : Nat} (h : v < 256 ^ 32) : (word v).beNat = v := by
  rw [word, Bytes.beNat_beBytes, Nat.mod_eq_of_lt h]

theorem length_pad_mod (b : Bytes) : (pad b).length % 32 = 0 := by
  rw [pad, List.length_append, List.length_replicate]
  omega

theorem length_pad_lt (b : Bytes) : (pad b).length < b.length + 32 := by
  rw [pad, List.length_append, List.length_replicate]
  omega

@[simp]
theorem length_heads (offset : Nat) (args : List Argument)
    : (heads offset args).length = 32 * args.length := by
  induction args generalizing offset with
  | nil => rfl
  | cons arg args ih =>
    cases arg with
    | static w =>
      rw [heads, List.length_append, ih, w.property, List.length_cons]
      omega
    | dynamic b =>
      rw [heads, List.length_append, ih, length_word, List.length_cons]
      omega

theorem heads_append (offset : Nat) (front back : List Argument)
    : heads offset (front ++ back)
        =
      heads offset front ++ heads (offset + (front.flatMap Argument.tail).length) back := by
  induction front generalizing offset with
  | nil => rfl
  | cons arg front ih =>
    cases arg with
    | static w =>
      rw [List.cons_append, heads, heads, ih, List.flatMap_cons, Argument.tail, List.nil_append,
        List.append_assoc]
    | dynamic b =>
      rw [List.cons_append, heads, heads, ih, List.flatMap_cons, List.length_append, List.append_assoc,
        Nat.add_assoc]

theorem length_encode (args : List Argument)
    : (encode args).length = 32 * args.length + (args.flatMap Argument.tail).length := by
  rw [encode, List.length_append, length_heads]

section Slices

variable (front back : List Argument) (b : Bytes)

theorem slice_encode_head
    : (encode (front ++ .dynamic b :: back)).slice (32 * front.length) (32 * front.length + 32)
        =
      word (tailOffset (front ++ .dynamic b :: back).length front) := by
  rw [encode, heads_append, heads, List.append_assoc, List.append_assoc]
  apply Bytes.slice_append
  . exact length_heads _ _
  . rw [length_word]

def beforeTail : Bytes :=
  heads (32 * (front ++ .dynamic b :: back).length) (front ++ .dynamic b :: back)
    ++ front.flatMap Argument.tail

theorem length_beforeTail
    : (beforeTail front back b).length = tailOffset (front ++ .dynamic b :: back).length front := by
  rw [beforeTail, List.length_append, length_heads, tailOffset]

theorem encode_eq_beforeTail_append
    : encode (front ++ .dynamic b :: back)
        =
      beforeTail front back b ++ (word b.length ++ (b
        ++ (List.replicate ((32 - b.length % 32) % 32) 0 ++ back.flatMap Argument.tail))) := by
  rw [encode, List.flatMap_append, List.flatMap_cons, Argument.tail, pad, beforeTail]
  simp only [List.append_assoc]

theorem slice_encode_length
    : (encode (front ++ .dynamic b :: back)).slice
          (tailOffset (front ++ .dynamic b :: back).length front)
          (tailOffset (front ++ .dynamic b :: back).length front + 32)
        =
      word b.length := by
  rw [encode_eq_beforeTail_append]
  apply Bytes.slice_append
  . exact length_beforeTail front back b
  . rw [length_word]

theorem slice_encode_bytes
    : (encode (front ++ .dynamic b :: back)).slice
          (tailOffset (front ++ .dynamic b :: back).length front + 32)
          (tailOffset (front ++ .dynamic b :: back).length front + 32 + b.length)
        =
      b := by
  rw [encode_eq_beforeTail_append, ← List.append_assoc]
  apply Bytes.slice_append
  . rw [List.length_append, length_beforeTail, length_word]
  . rfl

theorem tailOffset_add_le_length_encode
    : tailOffset (front ++ .dynamic b :: back).length front + 32 + b.length
        ≤
      (encode (front ++ .dynamic b :: back)).length := by
  rw [← length_beforeTail front back b, encode_eq_beforeTail_append]
  simp only [List.length_append, length_word]
  omega

/--
What a reader takes for the dynamic argument whose word has the number `i`: the word says where the
length of the argument stands.
-/
def dynamicAt (data : Bytes) (i : Nat) : Option Bytes :=
  let offset := (data.slice (32 * i) (32 * i + 32)).beNat
  let length := (data.slice offset (offset + 32)).beNat
  data.index (offset + 32) (offset + 32 + length)

theorem dynamicAt_encode (hoffset : tailOffset (front ++ .dynamic b :: back).length front < 256 ^ 32)
    (hlength : b.length < 256 ^ 32)
    : dynamicAt (encode (front ++ .dynamic b :: back)) front.length = some b := by
  unfold dynamicAt
  dsimp only
  rw [slice_encode_head, beNat_word hoffset, slice_encode_length, beNat_word hlength,
    Bytes.index_of_le (by omega) (tailOffset_add_le_length_encode front back b), slice_encode_bytes]

end Slices

end Abi
