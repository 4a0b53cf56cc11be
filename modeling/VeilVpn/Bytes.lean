import Mathlib.Algebra.GroupWithZero.Nat
import Mathlib.Data.List.Basic
import Mathlib.Data.List.TakeDrop

/-!
This module contains byte strings, fixed size byte arrays and the big and little endian encodings
of natural numbers into them.
-/

abbrev Bytes := List UInt8

def FixedBytes (n : Nat) := { bytes : Bytes // bytes.length = n }
  deriving DecidableEq

namespace Bytes

def slice (b : Bytes) (start stop : Nat) : Bytes :=
  (b.drop start).take (stop - start)

theorem length_slice (b : Bytes) (start stop : Nat) (h : stop ≤ b.length)
    : (b.slice start stop).length = stop - start := by
  simp only [slice, List.length_take, List.length_drop]
  omega

theorem slice_append (pre field post : Bytes) {start stop : Nat} (hpre : pre.length = start)
    (hfield : start + field.length = stop)
    : (pre ++ (field ++ post)).slice start stop = field := by
  subst hpre hfield
  simp only [slice, List.drop_left, Nat.add_sub_cancel_left, List.take_left]

theorem slice_append_slice (b : Bytes) {start mid stop : Nat} (hstart : start ≤ mid) (hstop : mid ≤ stop)
    : b.slice start mid ++ b.slice mid stop = b.slice start stop := by
  have hdrop : b.drop mid = (b.drop start).drop (mid - start) := by
    rw [List.drop_drop, Nat.add_sub_cancel' hstart]
  have hlen : stop - start = (mid - start) + (stop - mid) := by omega
  rw [slice, slice, slice, hdrop, hlen, List.take_add]

theorem take_append_slice_append_drop (b : Bytes) {start stop : Nat} (h : start ≤ stop)
    : b.take start ++ (b.slice start stop ++ b.drop stop) = b := by
  have hdrop : b.drop stop = (b.drop start).drop (stop - start) := by
    rw [List.drop_drop, Nat.add_sub_cancel' h]
  rw [slice, hdrop, List.take_append_drop, List.take_append_drop]

/--
The bytes from `start` to `stop`, which panics if `b` does not have all of them.
-/
def index (b : Bytes) (start stop : Nat) : Option Bytes :=
  if start ≤ stop ∧ stop ≤ b.length then some (b.slice start stop) else none

theorem index_of_le {b : Bytes} {start stop : Nat} (hstart : start ≤ stop) (hstop : stop ≤ b.length)
    : b.index start stop = some (b.slice start stop) :=
  if_pos ⟨hstart, hstop⟩

theorem index_of_lt {b : Bytes} {start stop : Nat} (h : stop < start) : b.index start stop = none :=
  if_neg fun hle => Nat.not_le_of_lt h hle.1

theorem slice_zero (b : Bytes) (stop : Nat) : b.slice 0 stop = b.take stop := by
  simp [slice]

theorem slice_take (b : Bytes) {start stop len : Nat} (h : stop ≤ len)
    : slice (b.take len) start stop = b.slice start stop := by
  simp only [slice, List.drop_take, List.take_take]
  congr 1
  omega

def beNat (b : Bytes) : Nat :=
  b.foldl (fun acc byte => acc * 256 + byte.toNat) 0

def leNat : Bytes → Nat
  | [] => 0
  | byte :: rest => byte.toNat + 256 * leNat rest

def leBytes : Nat → Nat → Bytes
  | 0, _ => []
  | n + 1, v => UInt8.ofNat v :: leBytes n (v / 256)

def beBytes (n v : Nat) : Bytes :=
  (leBytes n v).reverse

@[simp]
theorem length_leBytes (n v : Nat) : (leBytes n v).length = n := by
  induction n generalizing v with
  | zero => rfl
  | succ n ih => simp [leBytes, ih]

@[simp]
theorem length_beBytes (n v : Nat) : (beBytes n v).length = n := by
  simp [beBytes]

theorem beNat_eq_leNat_reverse (b : Bytes) : b.beNat = leNat b.reverse := by
  unfold beNat
  rw [List.foldl_eq_foldr_reverse]
  generalize b.reverse = l
  induction l with
  | nil => rfl
  | cons byte rest ih =>
    simp only [List.foldr_cons, leNat, ih]
    omega

theorem leNat_leBytes (n v : Nat) : leNat (leBytes n v) = v % 256 ^ n := by
  induction n generalizing v with
  | zero => simp [leBytes, leNat, Nat.mod_one]
  | succ n ih =>
    simp only [leBytes, leNat, ih]
    have hbyte : (UInt8.ofNat v).toNat = v % 256 := by simp
    rw [hbyte, Nat.pow_succ, Nat.mul_comm (256 ^ n) 256, Nat.mod_mul]

theorem beNat_beBytes (n v : Nat) : beNat (beBytes n v) = v % 256 ^ n := by
  rw [beNat_eq_leNat_reverse]
  simp only [beBytes, List.reverse_reverse]
  apply leNat_leBytes

theorem leNat_lt (b : Bytes) : leNat b < 256 ^ b.length := by
  induction b with
  | nil => simp [leNat]
  | cons byte rest ih =>
    have hbyte : byte.toNat < 256 := byte.toNat_lt
    simp only [leNat, List.length_cons, Nat.pow_succ]
    omega

theorem beNat_lt (b : Bytes) : beNat b < 256 ^ b.length := by
  rw [beNat_eq_leNat_reverse, ← List.length_reverse]
  apply leNat_lt

theorem leNat_append (a b : Bytes) : leNat (a ++ b) = leNat a + 256 ^ a.length * leNat b := by
  induction a with
  | nil => simp [leNat]
  | cons byte a ih =>
    rw [List.cons_append, leNat, ih, leNat, List.length_cons, Nat.pow_succ, Nat.mul_add, Nat.add_assoc,
      Nat.mul_assoc, Nat.mul_left_comm 256]

theorem beNat_append (a b : Bytes) : beNat (a ++ b) = beNat b + 256 ^ b.length * beNat a := by
  rw [beNat_eq_leNat_reverse, List.reverse_append, leNat_append, List.length_reverse,
    ← beNat_eq_leNat_reverse, ← beNat_eq_leNat_reverse]

theorem leBytes_leNat (b : Bytes) : leBytes b.length (leNat b) = b := by
  induction b with
  | nil => rfl
  | cons byte rest ih =>
    have hbyte : byte.toNat < 256 := byte.toNat_lt
    have hhead : UInt8.ofNat (byte.toNat + 256 * leNat rest) = byte := by
      apply UInt8.toNat_inj.mp
      simp only [UInt8.toNat_ofNat', Nat.reducePow]
      omega
    have htail : (byte.toNat + 256 * leNat rest) / 256 = leNat rest := by omega
    simp only [List.length_cons, leNat, leBytes, hhead, htail, ih]

theorem beBytes_beNat (b : Bytes) : beBytes b.length (beNat b) = b := by
  rw [beNat_eq_leNat_reverse, beBytes, ← List.length_reverse, leBytes_leNat, List.reverse_reverse]

theorem beBytes_inj {n v w : Nat} (hv : v < 256 ^ n) (hw : w < 256 ^ n)
    (h : beBytes n v = beBytes n w)
    : v = w := by
  have hnat : beNat (beBytes n v) = beNat (beBytes n w) := congrArg beNat h
  rw [beNat_beBytes, beNat_beBytes, Nat.mod_eq_of_lt hv, Nat.mod_eq_of_lt hw] at hnat
  exact hnat

def trimZeros (b : Bytes) : Bytes :=
  b.dropWhile (· = 0)

theorem trimZeros_zero (b : Bytes) : trimZeros (0 :: b) = b.trimZeros := by
  simp [trimZeros]

theorem trimZeros_of_ne {byte : UInt8} (h : byte ≠ 0) (b : Bytes)
    : trimZeros (byte :: b) = byte :: b := by
  simp [trimZeros, h]

theorem head?_trimZeros (b : Bytes) : b.trimZeros.head? ≠ some 0 := by
  induction b with
  | nil => simp [trimZeros]
  | cons byte rest ih =>
    by_cases hbyte : byte = 0
    . rw [hbyte, trimZeros_zero]
      exact ih
    . rw [trimZeros_of_ne hbyte]
      simpa using hbyte

theorem beNat_trimZeros (b : Bytes) : b.trimZeros.beNat = b.beNat := by
  induction b with
  | nil => rfl
  | cons byte rest ih =>
    by_cases hbyte : byte = 0
    . rw [hbyte, trimZeros_zero, ih]
      simp [beNat]
    . rw [trimZeros_of_ne hbyte]

theorem length_trimZeros_le (b : Bytes) : b.trimZeros.length ≤ b.length :=
  (List.dropWhile_suffix _).length_le

end Bytes

namespace FixedBytes

def zero (n : Nat) : FixedBytes n :=
  ⟨List.replicate n 0, by simp⟩

def replicate (n : Nat) (byte : UInt8) : FixedBytes n :=
  ⟨List.replicate n byte, List.length_replicate⟩

def slice (b : Bytes) (start n : Nat) (h : start + n ≤ b.length) : FixedBytes n :=
  ⟨(b.drop start).take n, by simp only [List.length_take, List.length_drop]; omega⟩

/--
Copy `n` bytes of `b` from `start` on, which panics if `b` ends before.
-/
def index (b : Bytes) (start n : Nat) : Option (FixedBytes n) :=
  if h : start + n ≤ b.length then some (slice b start n h) else none

theorem index_of_le {b : Bytes} {start n : Nat} (h : start + n ≤ b.length)
    : index b start n = some (slice b start n h) :=
  dif_pos h

theorem val_slice {b : Bytes} {start n : Nat} (h : start + n ≤ b.length)
    : (slice b start n h).val = Bytes.slice b start (start + n) := by
  rw [Bytes.slice, Nat.add_sub_cancel_left]
  rfl

/--
`b` cut, or filled up with zeros, to exactly `n` bytes.
-/
def ofBytes (n : Nat) (b : Bytes) : FixedBytes n :=
  ⟨(b ++ List.replicate n 0).take n, by simp⟩

def ofBe (n v : Nat) : FixedBytes n :=
  ⟨Bytes.beBytes n v, by simp⟩

def ofLe (n v : Nat) : FixedBytes n :=
  ⟨Bytes.leBytes n v, by simp⟩

@[simp]
theorem length_val (b : FixedBytes n) : b.val.length = n := b.property

@[ext]
theorem ext {a b : FixedBytes n} (h : a.val = b.val) : a = b :=
  Subtype.ext h

@[simp]
theorem ofBytes_val (b : FixedBytes n) : ofBytes n b.val = b := by
  apply ext
  simp only [ofBytes]
  rw [List.take_append_of_le_length (by simp)]
  rw [List.take_of_length_le (by simp)]

theorem slice_take {b : Bytes} {len start n : Nat} (h : start + n ≤ (b.take len).length)
    : slice (b.take len) start n h
        =
      slice b start n (Nat.le_trans h (List.length_take_le' len b)) := by
  apply Subtype.ext
  simp only [slice, List.drop_take, List.take_take]
  rw [List.length_take] at h
  congr 1
  omega

theorem append_inj {a a' : FixedBytes n} {b b' : Bytes} (h : a.val ++ b = a'.val ++ b')
    : a = a' ∧ b = b' := by
  obtain ⟨hval, hrest⟩ := List.append_inj h (by simp)
  exact ⟨ext hval, hrest⟩

end FixedBytes
