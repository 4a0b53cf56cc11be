import Mathlib.Data.List.Chain
import VeilVpn.Bytes

/-!
This module contains names as they are sent to a name server: for each label its length in one byte
and its bytes, and a zero byte at the end.
-/

namespace Dns

/--
A length that does not fit a byte is cut off.
-/
def encode (labels : List Bytes) : Bytes :=
  labels.flatMap (fun label => UInt8.ofNat label.length :: label) ++ [0]

/--
The labels up to the first zero byte in the place of a length, and what follows it.
-/
def parse : Bytes → Option (List Bytes × Bytes)
  | [] => none
  | len :: rest =>
    if len = 0 then
      some ([], rest)
    else if len.toNat ≤ rest.length then
      (parse (rest.drop len.toNat)).map fun r => (rest.take len.toNat :: r.1, r.2)
    else
      none
  termination_by b => b.length
  decreasing_by exact Nat.lt_succ_of_le (List.length_drop ▸ Nat.sub_le _ _)

/--
A label that its length byte describes and that is not taken for the end.
-/
def IsLabel (label : Bytes) : Prop :=
  0 < label.length ∧ label.length < 256

variable {b label rest : Bytes} {labels front back : List Bytes}

theorem encode_nil : encode [] = [0] :=
  rfl

theorem encode_cons (label : Bytes) (labels : List Bytes)
    : encode (label :: labels) = UInt8.ofNat label.length :: (label ++ encode labels) := by
  rw [encode, encode, List.flatMap_cons, List.cons_append, List.cons_append, List.append_assoc]

theorem encode_ne_nil (labels : List Bytes) : encode labels ≠ [] := by
  simp [encode]

theorem encode_append_nil (front back : List Bytes)
    : encode (front ++ [] :: back) = encode front ++ encode back := by
  simp [encode]

theorem infix_encode_of_mem (h : label ∈ labels) : label <:+: encode labels := by
  induction labels with
  | nil => cases h
  | cons first labels ih =>
    rw [encode_cons]
    cases h with
    | head => exact ⟨[UInt8.ofNat label.length], encode labels, by simp⟩
    | tail _ hmem =>
      obtain ⟨front, back, heq⟩ := ih hmem
      exact ⟨UInt8.ofNat first.length :: (first ++ front), back, by simp [← heq]⟩

/--
A byte of ones that is not part of a label is a length, and a label follows it.
-/
theorem isChain_encode (h : ∀ label ∈ labels, 255 ∉ label)
    : (encode labels).IsChain fun first second => ¬(first = 255 ∧ second = 255) := by
  induction labels with
  | nil => exact .singleton 0
  | cons label labels ih =>
    rw [List.forall_mem_cons] at h
    have hlabel : label.IsChain fun first second => ¬(first = 255 ∧ second = 255) := by
      refine (List.pairwise_of_forall_mem_list fun first hfirst second _ hones => ?_).isChain
      exact h.1 (hones.1 ▸ hfirst)
    have hrest := hlabel.append (ih h.2) fun last hlast next _ hones => by
      exact h.1 (hones.1 ▸ List.mem_of_getLast? hlast)
    rw [encode_cons, List.isChain_cons]
    refine ⟨fun next hnext hones => ?_, hrest⟩
    cases label with
    | nil => simp at hones
    | cons byte label =>
      cases hnext
      exact h.1 (hones.2 ▸ List.mem_cons_self)

theorem IsLabel.toNat_ofNat (h : IsLabel label) : (UInt8.ofNat label.length).toNat = label.length := by
  rw [UInt8.toNat_ofNat', Nat.mod_eq_of_lt h.2]

theorem IsLabel.ofNat_ne_zero (h : IsLabel label) : UInt8.ofNat label.length ≠ 0 := by
  intro hzero
  have hlength := h.toNat_ofNat
  rw [hzero] at hlength
  exact absurd hlength (Nat.ne_of_lt h.1)

theorem parse_zero (rest : Bytes) : parse (0 :: rest) = some ([], rest) := by
  rw [parse, if_pos rfl]

theorem parse_encode_append (h : ∀ label ∈ labels, IsLabel label) (rest : Bytes)
    : parse (encode labels ++ rest) = some (labels, rest) := by
  induction labels with
  | nil => rw [encode_nil, List.singleton_append, parse_zero]
  | cons label labels ih =>
    have hlabel := h label List.mem_cons_self
    rw [encode_cons, List.cons_append, parse, if_neg hlabel.ofNat_ne_zero, hlabel.toNat_ofNat,
      List.append_assoc, if_pos (by simp), List.drop_left, List.take_left,
      ih fun label hmem => h label (List.mem_cons_of_mem _ hmem)]
    rfl

theorem eq_of_parse (h : parse b = some (labels, rest))
    : b = encode labels ++ rest ∧ ∀ label ∈ labels, IsLabel label := by
  fun_induction parse b generalizing labels with
  | case1 => cases h
  | case2 tail =>
    cases h
    exact ⟨rfl, by simp⟩
  | case3 len tail hlen hle ih =>
    rw [Option.map_eq_some_iff] at h
    obtain ⟨r, hparse, heq⟩ := h
    cases heq
    obtain ⟨hdrop, hlabels⟩ := ih hparse
    have hlength : (tail.take len.toNat).length = len.toNat := by
      rw [List.length_take, Nat.min_eq_left hle]
    have hpos : 0 < len.toNat := by
      refine Nat.pos_of_ne_zero fun hzero => hlen ?_
      exact UInt8.toNat_inj.mp hzero
    refine ⟨?_, ?_⟩
    . rw [encode_cons, hlength, UInt8.ofNat_toNat, List.cons_append, List.append_assoc, ← hdrop,
        List.take_append_drop]
    . rw [List.forall_mem_cons]
      refine ⟨⟨?_, ?_⟩, hlabels⟩
      . rwa [hlength]
      . rw [hlength]
        exact len.toNat_lt
  | case4 => cases h

theorem parse_encode_append_nil (h : ∀ label ∈ front, IsLabel label) (back : List Bytes)
    : parse (encode (front ++ [] :: back)) = some (front, encode back) := by
  rw [encode_append_nil, parse_encode_append h]

end Dns
