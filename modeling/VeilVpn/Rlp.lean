import VeilVpn.Bytes

/-!
This module contains the recursive length prefix encoding: items are byte strings and lists of
items, and every item has one encoding.
-/

namespace Rlp

inductive Item where
  | bytes (b : Bytes)
  | list (items : List Item)

inductive Kind where
  | bytes
  | list

def Kind.offset : Kind → Nat
  | .bytes => 0x80
  | .list => 0xc0

def lengthBytes (n : Nat) : Bytes :=
  (Bytes.beBytes 8 n).trimZeros

def header (kind : Kind) (n : Nat) : Bytes :=
  if n ≤ 55 then
    [UInt8.ofNat (kind.offset + n)]
  else
    UInt8.ofNat (kind.offset + 55 + (lengthBytes n).length) :: lengthBytes n

/--
The byte strings that are their own encoding.
-/
def isByte : Kind → Bytes → Bool
  | .bytes, [byte] => byte < 0x80
  | _, _ => false

def wrap (kind : Kind) (payload : Bytes) : Bytes :=
  if isByte kind payload then payload else header kind payload.length ++ payload

mutual

def encode : Item → Bytes
  | .bytes b => wrap .bytes b
  | .list items => wrap .list (encodeAll items)

def encodeAll : List Item → Bytes
  | [] => []
  | item :: items => encode item ++ encodeAll items

end

def readShort (kind : Kind) (n : Nat) (rest : Bytes) : Option (Kind × Bytes × Bytes) :=
  if n ≤ rest.length ∧ isByte kind (rest.take n) = false then
    some (kind, rest.take n, rest.drop n)
  else
    none

def readLong (kind : Kind) (m : Nat) (rest : Bytes) : Option (Kind × Bytes × Bytes) :=
  let n := Bytes.beNat (rest.take m)
  if (rest.take m).head? ≠ some 0 ∧ 55 < n ∧ m + n ≤ rest.length then
    some (kind, (rest.drop m).take n, (rest.drop m).drop n)
  else
    none

/--
The kind and the payload of the first item and what follows it. Everything that could be shorter is
rejected.
-/
def read : Bytes → Option (Kind × Bytes × Bytes)
  | [] => none
  | first :: rest =>
    let p := first.toNat
    if p < 0x80 then
      some (.bytes, [first], rest)
    else if p ≤ 0xb7 then
      readShort .bytes (p - 0x80) rest
    else if p < 0xc0 then
      readLong .bytes (p - 0xb7) rest
    else if p ≤ 0xf7 then
      readShort .list (p - 0xc0) rest
    else
      readLong .list (p - 0xf7) rest

def decodeAll : Nat → Bytes → Option (List Item)
  | _, [] => some []
  | 0, _ :: _ => none
  | fuel + 1, first :: rest =>
    match read (first :: rest) with
    | none => none
    | some (.bytes, payload, rest) => (decodeAll fuel rest).map (.bytes payload :: ·)
    | some (.list, payload, rest) =>
      match decodeAll fuel payload, decodeAll fuel rest with
      | some items, some more => some (.list items :: more)
      | _, _ => none

def decode (b : Bytes) : Option Item :=
  match decodeAll b.length b with
  | some [item] => some item
  | _ => none

section Read

variable {kind : Kind} {payload : Bytes}

theorem length_lengthBytes_le (n : Nat) : (lengthBytes n).length ≤ 8 := by
  have hle := Bytes.length_trimZeros_le (Bytes.beBytes 8 n)
  rwa [Bytes.length_beBytes] at hle

theorem beNat_lengthBytes {n : Nat} (h : n < 2 ^ 64) : (lengthBytes n).beNat = n := by
  rw [lengthBytes, Bytes.beNat_trimZeros, Bytes.beNat_beBytes]
  exact Nat.mod_eq_of_lt h

theorem lengthBytes_pos {n : Nat} (h : n < 2 ^ 64) (hn : 0 < n) : 0 < (lengthBytes n).length := by
  rw [List.length_pos_iff]
  intro hnil
  have hnat := beNat_lengthBytes h
  rw [hnil] at hnat
  have hzero : Bytes.beNat [] = 0 := rfl
  omega

theorem readShort_append (hbyte : isByte kind payload = false) (rest : Bytes)
    : readShort kind payload.length (payload ++ rest) = some (kind, payload, rest) := by
  unfold readShort
  rw [List.take_left, List.drop_left, if_pos ⟨by simp, hbyte⟩]

theorem readLong_append (hlong : 55 < payload.length) (hlen : payload.length < 2 ^ 64) (rest : Bytes)
    : readLong kind (lengthBytes payload.length).length
        (lengthBytes payload.length ++ payload ++ rest)
        =
      some (kind, payload, rest) := by
  unfold readLong
  rw [List.append_assoc, List.take_left, List.drop_left, beNat_lengthBytes hlen]
  dsimp only
  rw [List.take_left, List.drop_left, if_pos ⟨Bytes.head?_trimZeros _, hlong, by simp⟩]

theorem toNat_ofNat_of_lt {n : Nat} (h : n < 256) : (UInt8.ofNat n).toNat = n := by
  simp only [UInt8.toNat_ofNat']
  omega

theorem read_wrap (kind : Kind) (hlen : payload.length < 2 ^ 64) (rest : Bytes)
    : read (wrap kind payload ++ rest) = some (kind, payload, rest) := by
  unfold wrap
  split
  . next hbyte =>
    unfold isByte at hbyte
    split at hbyte
    . next byte =>
      have hlt : byte.toNat < 0x80 := of_decide_eq_true hbyte
      simp [read, hlt]
    . simp at hbyte
  . next hbyte =>
    rw [Bool.not_eq_true] at hbyte
    unfold header
    split
    . next hshort =>
      have hread := readShort_append hbyte rest
      cases kind with
      | bytes =>
        have hfirst := toNat_ofNat_of_lt (n := 0x80 + payload.length) (by omega)
        simp only [Kind.offset, List.cons_append, List.nil_append, read, hfirst]
        rw [if_neg (by omega), if_pos (by omega), Nat.add_sub_cancel_left, hread]
      | list =>
        have hfirst := toNat_ofNat_of_lt (n := 0xc0 + payload.length) (by omega)
        simp only [Kind.offset, List.cons_append, List.nil_append, read, hfirst]
        rw [if_neg (by omega), if_neg (by omega), if_neg (by omega), if_pos (by omega),
          Nat.add_sub_cancel_left, hread]
    . next hlong =>
      have hlong : 55 < payload.length := Nat.not_le.mp hlong
      have hread := @readLong_append kind payload hlong hlen rest
      have hle := length_lengthBytes_le payload.length
      have hpos := lengthBytes_pos hlen (by omega)
      cases kind with
      | bytes =>
        have hfirst := toNat_ofNat_of_lt (n := 0xb7 + (lengthBytes payload.length).length)
          (by omega)
        simp only [Kind.offset, Nat.reduceAdd, List.cons_append, read, hfirst]
        rw [if_neg (by omega), if_neg (by omega), if_pos (by omega), Nat.add_sub_cancel_left, hread]
      | list =>
        have hfirst := toNat_ofNat_of_lt (n := 0xf7 + (lengthBytes payload.length).length)
          (by omega)
        simp only [Kind.offset, Nat.reduceAdd, List.cons_append, read, hfirst]
        rw [if_neg (by omega), if_neg (by omega), if_neg (by omega), if_neg (by omega),
          Nat.add_sub_cancel_left, hread]

end Read

section Decode

theorem header_pos (kind : Kind) (n : Nat) : 0 < (header kind n).length := by
  unfold header
  split <;> simp

theorem length_wrap_list (payload : Bytes) : payload.length < (wrap .list payload).length := by
  have hpos := header_pos .list payload.length
  have hwrap : wrap .list payload = header .list payload.length ++ payload := rfl
  rw [hwrap, List.length_append]
  omega

theorem length_le_length_wrap (kind : Kind) (payload : Bytes)
    : payload.length ≤ (wrap kind payload).length := by
  unfold wrap
  split <;> simp

theorem wrap_pos (kind : Kind) (payload : Bytes) : 0 < (wrap kind payload).length := by
  unfold wrap
  split
  . next hbyte =>
    unfold isByte at hbyte
    split at hbyte
    . simp
    . simp at hbyte
  . have hpos := header_pos kind payload.length
    rw [List.length_append]
    omega

theorem encode_pos (item : Item) : 0 < (encode item).length := by
  cases item with
  | bytes b => exact wrap_pos .bytes b
  | list items => exact wrap_pos .list (encodeAll items)

theorem length_header_le (kind : Kind) (n : Nat) : (header kind n).length ≤ 9 := by
  have hle := length_lengthBytes_le n
  unfold header
  split
  . simp
  . rw [List.length_cons]
    omega

theorem length_wrap_le (kind : Kind) (payload : Bytes)
    : (wrap kind payload).length ≤ payload.length + 9 := by
  have hle := length_header_le kind payload.length
  unfold wrap
  split
  . omega
  . rw [List.length_append]
    omega

theorem encodeAll_eq_flatten (items : List Item) : encodeAll items = (items.map encode).flatten := by
  induction items with
  | nil => rfl
  | cons item items ih => rw [encodeAll, ih, List.map_cons, List.flatten_cons]

theorem decodeAll_succ {b : Bytes} (hb : 0 < b.length) (fuel : Nat)
    : decodeAll (fuel + 1) b
        =
      match read b with
      | none => none
      | some (.bytes, payload, rest) => (decodeAll fuel rest).map (.bytes payload :: ·)
      | some (.list, payload, rest) =>
        match decodeAll fuel payload, decodeAll fuel rest with
        | some items, some more => some (.list items :: more)
        | _, _ => none := by
  cases b with
  | nil => simp at hb
  | cons first rest => rw [decodeAll]

/--
The decoder reads one item after the other, and the payload of a list before what follows it. The
induction is on the fuel, of which there is a unit for every byte.
-/
theorem decodeAll_encodeAll (items : List Item) {fuel : Nat} (hfuel : (encodeAll items).length ≤ fuel)
    (hlen : (encodeAll items).length < 2 ^ 64)
    : decodeAll fuel (encodeAll items) = some items := by
  induction fuel generalizing items with
  | zero =>
    cases items with
    | nil => rfl
    | cons item items =>
      have hpos := encode_pos item
      rw [encodeAll, List.length_append] at hfuel
      omega
  | succ fuel ih =>
    cases items with
    | nil => rfl
    | cons item items =>
      have hpos := encode_pos item
      rw [encodeAll, List.length_append] at hfuel hlen
      have hrest := ih items (by omega) (by omega)
      rw [encodeAll, decodeAll_succ (by rw [List.length_append]; omega)]
      cases item with
      | bytes b =>
        rw [encode] at hlen ⊢
        have hle := length_le_length_wrap .bytes b
        rw [read_wrap .bytes (by omega)]
        dsimp only
        rw [hrest]
        rfl
      | list inner =>
        rw [encode] at hfuel hlen ⊢
        have hlt := length_wrap_list (encodeAll inner)
        have hinner := ih inner (by omega) (by omega)
        rw [read_wrap .list (by omega)]
        dsimp only
        rw [hinner, hrest]

theorem decode_encode {item : Item} (hlen : (encode item).length < 2 ^ 64)
    : decode (encode item) = some item := by
  have hall : encodeAll [item] = encode item := by
    rw [encodeAll, encodeAll, List.append_nil]
  have hdecode := decodeAll_encodeAll [item] (Nat.le_refl _) (by rw [hall]; exact hlen)
  rw [hall] at hdecode
  unfold decode
  rw [hdecode]

example : decode [0x81, 0x7f] = none := rfl

end Decode

end Rlp
