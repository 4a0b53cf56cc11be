import VeilVpn.Dns
import VeilVpn.Client.Impl.Ens

namespace Client
namespace Ens

open Text (utf8)

section Labels

variable (keccak256 : Bytes → FixedBytes 32)

def labels (name : List Char) : List Bytes :=
  (name.splitOn '.').map utf8

/--
The hash that the Ethereum Name Service gives to a name with these labels.
-/
def hashLabels (labels : List Bytes) : FixedBytes 32 :=
  labels.foldr (fun label node => keccak256 (node.val ++ (keccak256 label).val)) (.zero 32)

/--
The name that the resolver reads is the one whose hash it is given.
-/
def NamesAgree (name : List Char) : Prop :=
  ∃ labels, Dns.parse (dnsEncode name) = some (labels, [])
    ∧ hashLabels keccak256 labels = namehash keccak256 name

variable {keccak256} {name : List Char} {found : List Bytes} {rest : Bytes}

theorem dnsEncode_eq (name : List Char) : dnsEncode name = Dns.encode (labels name) := by
  rw [dnsEncode, Dns.encode, labels, List.flatMap_map]

theorem namehash_eq (h : name ≠ []) : namehash keccak256 name = hashLabels keccak256 (labels name) := by
  unfold namehash hashLabels labels
  rw [if_neg (by simpa using h)]
  dsimp only
  rw [List.foldl_reverse, List.foldr_map]

theorem labels_nil : labels [] = [[]] :=
  rfl

theorem not_namesAgree_of_parse (hparse : Dns.parse (dnsEncode name) = some (found, rest))
    (hrest : rest ≠ [])
    : ¬NamesAgree keccak256 name := by
  rintro ⟨labels, hwhole, _⟩
  rw [hparse] at hwhole
  cases hwhole
  exact hrest rfl

theorem namesAgree_of_isLabel (h : ∀ label ∈ labels name, Dns.IsLabel label)
    : NamesAgree keccak256 name := by
  have hne : name ≠ [] := by
    rintro rfl
    have hlabel := h [] (by rw [labels_nil]; exact List.mem_singleton_self [])
    exact absurd hlabel.1 (Nat.lt_irrefl 0)
  refine ⟨labels name, ?_, (namehash_eq hne).symm⟩
  rw [dnsEncode_eq, ← List.append_nil (Dns.encode (labels name)), Dns.parse_encode_append h]

end Labels

section Marking

def marker : FixedBytes 32 :=
  .replicate 32 255

/--
A hash that tells whether a label was too long, and keeps telling it.
-/
def marking (b : Bytes) : FixedBytes 32 :=
  if 255 < b.length ∨ (b.length = 64 ∧ (b.take 32 = marker.val ∨ b.drop 32 = marker.val)) then
    marker
  else
    .zero 32

variable {labels : List Bytes} {name : List Char}

theorem marking_append_marker (node : FixedBytes 32) : marking (node.val ++ marker.val) = marker := by
  apply if_pos
  refine .inr ⟨by simp, .inr ?_⟩
  rw [List.drop_left' node.property]

theorem marking_marker_append (hash : FixedBytes 32) : marking (marker.val ++ hash.val) = marker := by
  apply if_pos
  refine .inr ⟨by simp, .inl ?_⟩
  rw [List.take_left' marker.property]

theorem hashLabels_marking_of_long (h : ∃ label ∈ labels, 255 < label.length)
    : hashLabels marking labels = marker := by
  induction labels with
  | nil =>
    obtain ⟨label, hmem, _⟩ := h
    cases hmem
  | cons first labels ih =>
    rw [hashLabels, List.foldr_cons, ← hashLabels]
    obtain ⟨label, hmem, hlong⟩ := h
    cases hmem with
    | head =>
      have hfirst : marking first = marker := if_pos (.inl hlong)
      rw [hfirst, marking_append_marker]
    | tail _ hmem => rw [ih ⟨label, hmem, hlong⟩, marking_marker_append]

theorem hashLabels_marking_of_zero (h : ∀ label ∈ labels, marking label = .zero 32)
    : hashLabels marking labels = .zero 32 := by
  induction labels with
  | nil => rfl
  | cons first labels ih =>
    rw [List.forall_mem_cons] at h
    rw [hashLabels, List.foldr_cons, ← hashLabels, ih h.2, h.1]
    rfl

theorem ones_infix_of_eq_marker {b : Bytes} (h : b = marker.val) : [255, 255] <:+: b := by
  rw [h]
  exact ⟨[], List.replicate 30 255, rfl⟩

/--
A label that is found in a name is not marked, since the marker does not occur there.
-/
theorem marking_of_parse (hparse : Dns.parse (dnsEncode name) = some (labels, []))
    : ∀ label ∈ labels, marking label = .zero 32 := by
  obtain ⟨hencode, hlabels⟩ := Dns.eq_of_parse hparse
  have hchain : (dnsEncode name).IsChain fun first second => ¬(first = 255 ∧ second = 255) := by
    rw [dnsEncode_eq]
    apply Dns.isChain_encode
    intro label hmem hones
    rw [Ens.labels, List.mem_map] at hmem
    obtain ⟨text, _, rfl⟩ := hmem
    exact Text.ne_of_mem_utf8 hones rfl
  intro label hmem
  have hinfix := Dns.infix_encode_of_mem hmem
  rw [List.append_nil] at hencode
  rw [← hencode] at hinfix
  have hones : ∀ b, b <:+: label → b ≠ marker.val := by
    intro b hb heq
    have hpair := hchain.infix (((ones_infix_of_eq_marker heq).trans hb).trans hinfix)
    rw [List.isChain_cons_cons] at hpair
    exact hpair.1 ⟨rfl, rfl⟩
  refine if_neg ?_
  rintro (hlong | ⟨_, htake | hdrop⟩)
  . exact absurd (hlabels label hmem).2 (Nat.not_lt_of_le hlong)
  . exact hones _ (List.take_prefix 32 label).isInfix htake
  . exact hones _ (List.drop_suffix 32 label).isInfix hdrop

/--
A label that is too long shows in the marking hash of the name, but not in that of what is parsed.
-/
theorem length_lt_of_namesAgree (hagree : NamesAgree marking name)
    : ∀ label ∈ Ens.labels name, label.length < 256 := by
  intro label hmem
  refine Nat.lt_of_not_le fun hlong => ?_
  have hne : name ≠ [] := by
    rintro rfl
    rw [labels_nil, List.mem_singleton] at hmem
    subst hmem
    exact absurd hlong (by decide)
  obtain ⟨found, hparse, hhash⟩ := hagree
  rw [hashLabels_marking_of_zero (marking_of_parse hparse), namehash_eq hne,
    hashLabels_marking_of_long ⟨label, hmem, hlong⟩] at hhash
  exact absurd hhash (by decide)

end Marking

theorem nil_notMem_labels {keccak256 : Bytes → FixedBytes 32} {name : List Char}
    (hshort : ∀ label ∈ labels name, label.length < 256) (hagree : NamesAgree keccak256 name)
    : [] ∉ labels name := by
  intro hmem
  obtain ⟨front, back, hsplit, hfront⟩ := List.eq_append_cons_of_mem hmem
  have hvalid : ∀ label ∈ front, Dns.IsLabel label := by
    intro label hlabel
    refine ⟨List.length_pos_iff.mpr fun hnil => hfront (hnil ▸ hlabel), hshort label ?_⟩
    rw [hsplit]
    exact List.mem_append_left _ hlabel
  have hparse : Dns.parse (dnsEncode name) = some (front, Dns.encode back) := by
    rw [dnsEncode_eq, hsplit, Dns.parse_encode_append_nil hvalid]
  exact not_namesAgree_of_parse hparse (Dns.encode_ne_nil back) hagree

/--
The resolver is asked about the same name twice, whatever the hash is, exactly if no label of the name
is empty or too long for its length byte.
-/
theorem namesAgree_iff (name : List Char)
    : (∀ keccak256, NamesAgree keccak256 name)
        ↔
      ∀ label ∈ name.splitOn '.', 0 < (utf8 label).length ∧ (utf8 label).length < 256 := by
  have hlabels : (∀ label ∈ labels name, Dns.IsLabel label)
      ↔ ∀ label ∈ name.splitOn '.', 0 < (utf8 label).length ∧ (utf8 label).length < 256 := by
    rw [labels, List.forall_mem_map]
    rfl
  rw [← hlabels]
  constructor
  . intro hagree label hmem
    have hshort := length_lt_of_namesAgree (hagree marking)
    have hempty := nil_notMem_labels hshort (hagree marking)
    exact ⟨List.length_pos_iff.mpr fun hnil => hempty (hnil ▸ hmem), hshort label hmem⟩
  . intro h keccak256
    exact namesAgree_of_isLabel h

/--
An empty label ends the name too early, and so does a label of 256 bytes.
-/
theorem exists_names_disagree
    : (∀ keccak256, ¬NamesAgree keccak256 [])
        ∧
      (∀ keccak256, ¬NamesAgree keccak256 "a..eth".toList)
        ∧
      ∀ keccak256, ¬NamesAgree keccak256 (List.replicate 256 'a') := by
  refine ⟨?_, ?_, ?_⟩
  . intro keccak256
    exact not_namesAgree_of_parse (Dns.parse_zero [0]) (List.cons_ne_nil 0 [])
  . intro keccak256
    have hencode : dnsEncode "a..eth".toList = Dns.encode [[97]] ++ Dns.encode [[101, 116, 104]] := by
      decide +kernel
    have hlabels : ∀ label ∈ [([97] : Bytes)], Dns.IsLabel label := by
      simp [Dns.IsLabel]
    have hparse := Dns.parse_encode_append hlabels (Dns.encode [[101, 116, 104]])
    rw [← hencode] at hparse
    exact not_namesAgree_of_parse hparse (Dns.encode_ne_nil _)
  . intro keccak256
    have hencode : dnsEncode (List.replicate 256 'a') = 0 :: (List.replicate 256 97 ++ [0]) := by
      decide +kernel
    have hparse := Dns.parse_zero (List.replicate 256 97 ++ [0])
    rw [← hencode] at hparse
    exact not_namesAgree_of_parse hparse (List.append_ne_nil_of_right_ne_nil _ (List.cons_ne_nil 0 []))

end Ens
end Client
