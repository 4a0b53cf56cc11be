import VeilVpn.Bytes

/-!
This module contains texts: the white space around them, the bytes they are made of, and byte
strings as hexadecimal digits and in base64.
-/

namespace Text

/--
The characters with the Unicode property `White_Space`.
-/
def isWhitespace (c : Char) : Bool :=
  let n := c.toNat
  (0x9 ≤ n && n ≤ 0xd) || n = 0x20 || n = 0x85 || n = 0xa0 || n = 0x1680
    || (0x2000 ≤ n && n ≤ 0x200a) || n = 0x2028 || n = 0x2029 || n = 0x202f || n = 0x205f
    || n = 0x3000

def trimChars (s : List Char) : List Char :=
  ((s.dropWhile isWhitespace).reverse.dropWhile isWhitespace).reverse

def trim (s : String) : String :=
  String.ofList (trimChars s.toList)

theorem drop_eq_get_cons {b : ByteArray} {i : Nat} (h : i < b.size)
    : b.data.toList.drop i = b.get! i :: b.data.toList.drop (i + 1) := by
  have hget : b.get! i = b.data[i] := getElem!_pos b.data i h
  rw [hget, ← Array.getElem_toList, List.getElem_cons_drop]

theorem toList_loop (b : ByteArray) (i : Nat) (front : List UInt8)
    : ByteArray.toList.loop b i front = front.reverse ++ b.data.toList.drop i := by
  fun_induction ByteArray.toList.loop b i front with
  | case1 i front hlt ih => simp [ih, drop_eq_get_cons hlt]
  | case2 i front hle =>
    have hle : b.data.toList.length ≤ i := Nat.le_of_not_lt hle
    simp [List.drop_eq_nil_of_le hle]

theorem toUTF8_toList_inj {s t : String} (h : s.toUTF8.toList = t.toUTF8.toList) : s = t := by
  simp only [ByteArray.toList, toList_loop, List.reverse_nil, List.nil_append, List.drop_zero] at h
  exact String.toByteArray_inj.mp (ByteArray.ext (Array.toList_inj.mp h))

def utf8 (s : List Char) : Bytes :=
  s.flatMap String.utf8EncodeChar

def bytes (s : String) : Bytes :=
  s.toByteArray.data.toList

/--
The text that is made of these bytes, if there is one.
-/
def fromUTF8 (b : Bytes) : Option String :=
  String.fromUTF8? b.toByteArray

theorem bytes_injective : Function.Injective bytes := by
  intro s t h
  apply String.toByteArray_inj.mp
  apply ByteArray.ext
  exact Array.toList_inj.mp h

theorem eq_bytes_of_fromUTF8 {b : Bytes} {s : String} (h : fromUTF8 b = some s) : b = bytes s := by
  have hbytes : s.toByteArray = b.toByteArray := by
    unfold fromUTF8 String.fromUTF8? at h
    split at h
    . cases h
      rfl
    . cases h
  rw [bytes, hbytes, List.data_toByteArray]

@[simp]
theorem fromUTF8_bytes (s : String) : fromUTF8 (bytes s) = some s := by
  have harray : (bytes s).toByteArray = s.toByteArray := by
    apply ByteArray.ext
    rw [bytes, ← Array.toList_inj, List.data_toByteArray]
  unfold fromUTF8 String.fromUTF8?
  rw [harray]
  exact dif_pos s.isValidUTF8

def isCharBoundary : List Char → Nat → Bool
  | _, 0 => true
  | [], _ + 1 => false
  | c :: s, n + 1 => c.utf8Size ≤ n + 1 && isCharBoundary s (n + 1 - c.utf8Size)

theorem ofNat_ne_of_lt {n : Nat} (h : n < 255) : UInt8.ofNat n ≠ 255 := by
  intro heq
  have hnat := congrArg UInt8.toNat heq
  rw [UInt8.toNat_ofNat', Nat.mod_eq_of_lt (Nat.lt_succ_of_lt h)] at hnat
  exact Nat.ne_of_lt h hnat

theorem ne_of_mem_utf8 {s : List Char} {byte : UInt8} (h : byte ∈ utf8 s) : byte ≠ 255 := by
  rw [utf8, List.mem_flatMap] at h
  obtain ⟨c, _, h⟩ := h
  unfold String.utf8EncodeChar at h
  dsimp only at h
  split_ifs at h
  all_goals
    simp only [List.mem_cons, List.not_mem_nil, or_false] at h
    rcases h with rfl | rfl | rfl | rfl
    all_goals
      apply ofNat_ne_of_lt
      omega

theorem length_utf8_of_utf8Size {s : List Char} (h : ∀ c ∈ s, c.utf8Size = 1)
    : (utf8 s).length = s.length := by
  induction s with
  | nil => rfl
  | cons c s ih =>
    rw [List.forall_mem_cons] at h
    rw [utf8, List.flatMap_cons, List.length_append, String.length_utf8EncodeChar, h.1, ← utf8, ih h.2,
      List.length_cons, Nat.add_comm]

theorem isCharBoundary_of_utf8Size {s : List Char} {n : Nat} (h : ∀ c ∈ s, c.utf8Size = 1)
    (hn : n ≤ s.length)
    : isCharBoundary s n = true := by
  induction s generalizing n with
  | nil =>
    rw [Nat.le_zero.mp hn]
    rfl
  | cons c s ih =>
    cases n with
    | zero => rfl
    | succ n =>
      rw [List.forall_mem_cons] at h
      rw [isCharBoundary, h.1, Nat.add_sub_cancel, ih h.2 (Nat.le_of_succ_le_succ hn)]
      simp

end Text

namespace Hex

def digit (n : Nat) : Char :=
  if n < 10 then Char.ofNat (48 + n) else Char.ofNat (87 + n)

def encodeByte (byte : UInt8) : List Char :=
  [digit (byte.toNat / 16), digit (byte.toNat % 16)]

def encode (b : Bytes) : String :=
  String.ofList (b.flatMap encodeByte)

def value (c : Char) : Option Nat :=
  if '0' ≤ c ∧ c ≤ '9' then
    some (c.toNat - 48)
  else if 'a' ≤ c ∧ c ≤ 'f' then
    some (c.toNat - 87)
  else if 'A' ≤ c ∧ c ≤ 'F' then
    some (c.toNat - 55)
  else
    none

def decodeChars : List Char → Option Bytes
  | [] => some []
  | [_] => none
  | hi :: lo :: rest =>
    match value hi, value lo, decodeChars rest with
    | some hi, some lo, some bytes => some (UInt8.ofNat (hi * 16 + lo) :: bytes)
    | _, _, _ => none

def decode (s : String) : Option Bytes :=
  decodeChars s.toList

theorem value_digit {n : Nat} (h : n < 16) : value (digit n) = some n := by
  have hall : ∀ n : Fin 16, value (digit n.val) = some n.val := by decide
  exact hall ⟨n, h⟩

theorem decodeChars_flatMap (b : Bytes) : decodeChars (b.flatMap encodeByte) = some b := by
  induction b with
  | nil => rfl
  | cons byte rest ih =>
    have hlt := byte.toNat_lt
    have hhi : value (digit (byte.toNat / 16)) = some (byte.toNat / 16) := by
      apply value_digit
      omega
    have hlo : value (digit (byte.toNat % 16)) = some (byte.toNat % 16) := by
      apply value_digit
      omega
    rw [List.flatMap_cons, encodeByte, List.cons_append, List.cons_append, List.nil_append,
      decodeChars, hhi, hlo, ih]
    dsimp only
    rw [Nat.div_add_mod', UInt8.ofNat_toNat]

theorem decode_encode (b : Bytes) : decode (encode b) = some b := by
  rw [decode, encode, String.toList_ofList, decodeChars_flatMap]

theorem utf8Size_of_mem_encode {b : Bytes} {c : Char} (h : c ∈ (encode b).toList) : c.utf8Size = 1 := by
  have hall : ∀ n : Fin 16, (digit n.val).utf8Size = 1 := by decide
  rw [encode, String.toList_ofList, List.mem_flatMap] at h
  obtain ⟨byte, _, hc⟩ := h
  have hlt := byte.toNat_lt
  rw [encodeByte, List.mem_cons, List.mem_singleton] at hc
  rcases hc with rfl | rfl
  . exact hall ⟨byte.toNat / 16, by omega⟩
  . exact hall ⟨byte.toNat % 16, by omega⟩

theorem length_toList_encode (b : Bytes) : (encode b).toList.length = 2 * b.length := by
  rw [encode, String.toList_ofList]
  induction b with
  | nil => rfl
  | cons byte b ih =>
    rw [List.flatMap_cons, List.length_append, ih, List.length_cons]
    simp only [encodeByte, List.length_cons, List.length_nil]
    omega

theorem encode_injective : Function.Injective encode := by
  intro a b h
  have hdecode := congrArg decode h
  rw [decode_encode, decode_encode, Option.some.injEq] at hdecode
  exact hdecode

end Hex

namespace Radix64

def alphabet : List Char :=
  "ABCDEFGHIJKLMNOPQRSTUVWXYZabcdefghijklmnopqrstuvwxyz0123456789+/".toList

def digit (n : Nat) : Char :=
  alphabet.getD n '='

def value (c : Char) : Option Nat :=
  alphabet.idxOf? c

def encodeChars : Bytes → List Char
  | [] => []
  | [a] => [digit (a.toNat / 4), digit (a.toNat % 4 * 16), '=', '=']
  | [a, b] =>
    [digit (a.toNat / 4), digit (a.toNat % 4 * 16 + b.toNat / 16), digit (b.toNat % 16 * 4), '=']
  | a :: b :: c :: rest =>
    digit (a.toNat / 4) :: digit (a.toNat % 4 * 16 + b.toNat / 16)
      :: digit (b.toNat % 16 * 4 + c.toNat / 64) :: digit (c.toNat % 64) :: encodeChars rest

/--
Only the canonical text of a byte string is read, with its padding and without bits that no byte
takes.
-/
def decodeChars : List Char → Option Bytes
  | [] => some []
  | [a, b, '=', '='] =>
    match value a, value b with
    | some a, some b => if b % 16 = 0 then some [UInt8.ofNat (a * 4 + b / 16)] else none
    | _, _ => none
  | [a, b, c, '='] =>
    match value a, value b, value c with
    | some a, some b, some c =>
      if c % 4 = 0 then
        some [UInt8.ofNat (a * 4 + b / 16), UInt8.ofNat (b % 16 * 16 + c / 4)]
      else
        none
    | _, _, _ => none
  | a :: b :: c :: d :: rest =>
    match value a, value b, value c, value d, decodeChars rest with
    | some a, some b, some c, some d, some bytes =>
      some (UInt8.ofNat (a * 4 + b / 16) :: UInt8.ofNat (b % 16 * 16 + c / 4)
        :: UInt8.ofNat (c % 4 * 64 + d) :: bytes)
    | _, _, _, _, _ => none
  | _ => none

def encode (b : Bytes) : String :=
  String.ofList (encodeChars b)

def decode (s : String) : Option Bytes :=
  decodeChars s.toList

end Radix64
