import VeilVpn.Abi
import VeilVpn.Client.Impl.Ens

namespace Client
namespace Ens

open Text (utf8)

section Words

def wordAt (bytes : Bytes) (i : Nat) : Nat :=
  (bytes.slice i (i + 32)).beNat

def usizeAt (bytes : Bytes) (i : Nat) : Nat :=
  wordAt bytes i % 2 ^ 64

/--
The bytes that the first word points at, if neither it nor their length is too large for a `usize`.
-/
def addressed (bytes : Bytes) : Option Bytes :=
  let offset := wordAt bytes 0
  let len := wordAt bytes offset
  if 64 ≤ bytes.length ∧ offset < 2 ^ 64 ∧ 0 < len ∧ len < 2 ^ 64
      ∧ offset + 32 + len ≤ bytes.length then
    some (bytes.slice (offset + 32) (offset + 32 + len))
  else
    none

/--
The text of an answer, which is empty if something in the answer is out of range.
-/
def exactText (U : Lossy) (bytes : Bytes) : List Char :=
  (((addressed bytes).bind addressed).map U.fromUtf8Lossy).getD []

/--
The client finds `inner` where the first word points.
-/
structure Points (bytes inner : Bytes) : Prop where
  length : 64 ≤ bytes.length
  pos : 0 < usizeAt bytes (usizeAt bytes 0)
  inside : usizeAt bytes 0 + 32 + usizeAt bytes (usizeAt bytes 0) ≤ bytes.length
  fits : usizeAt bytes 0 + 32 + usizeAt bytes (usizeAt bytes 0) < 2 ^ 64
  eq : bytes.slice (usizeAt bytes 0 + 32) (usizeAt bytes 0 + 32 + usizeAt bytes (usizeAt bytes 0))
    = inner

/--
A sum that the client computes does not fit a `usize`.
-/
def Overflows (bytes : Bytes) : Prop :=
  64 ≤ bytes.length
    ∧
  (2 ^ 64 ≤ usizeAt bytes 0 + 32
    ∨
  (usizeAt bytes 0 + 32 ≤ bytes.length ∧ 0 < usizeAt bytes (usizeAt bytes 0)
    ∧ 2 ^ 64 ≤ usizeAt bytes 0 + 32 + usizeAt bytes (usizeAt bytes 0)))

/--
A word that the client reads does not fit a `usize`.
-/
def Reduces (bytes : Bytes) : Prop :=
  2 ^ 64 ≤ wordAt bytes 0 ∨ 2 ^ 64 ≤ wordAt bytes (usizeAt bytes 0)

inductive PointedCase (bytes : Bytes) : Option (Option Bytes) → Prop where
  | overflows (h : Overflows bytes) : PointedCase bytes none
  | outside (hfits : ¬Overflows bytes) (h : ∀ inner, ¬Points bytes inner)
    : PointedCase bytes (some none)
  | points {inner : Bytes} (hfits : ¬Overflows bytes) (h : Points bytes inner)
    : PointedCase bytes (some (some inner))

variable {P : Profile} {U : Lossy} {bytes inner text : Bytes} {a b : Nat}

theorem Profile.add_of_lt (P : Profile) (h : a + b < 2 ^ 64) : P.add a b = some (a + b) :=
  if_pos h

theorem Profile.add_of_le (P : Profile) (h : 2 ^ 64 ≤ a + b) (ha : a < 2 ^ 64) (hb : b < 2 ^ 64)
    : P.add a b = none ∨ ∃ sum, P.add a b = some sum ∧ sum < a ∧ sum < b := by
  unfold Profile.add
  rw [if_neg (Nat.not_lt_of_le h)]
  cases P with
  | debug => exact .inl rfl
  | release =>
    refine .inr ⟨_, rfl, ?_⟩
    have hmod : (a + b) % 2 ^ 64 = a + b - 2 ^ 64 := by
      rw [Nat.mod_eq_sub_mod h, Nat.mod_eq_of_lt (by omega)]
    omega

theorem usizeAt_lt (bytes : Bytes) (i : Nat) : usizeAt bytes i < 2 ^ 64 :=
  Nat.mod_lt _ (by decide)

theorem usizeAt_of_lt {i : Nat} (h : wordAt bytes i < 2 ^ 64) : usizeAt bytes i = wordAt bytes i :=
  Nat.mod_eq_of_lt h

theorem readUsize_of_length (h : bytes.length = 32) : readUsize bytes = bytes.beNat % 2 ^ 64 := by
  have hlow : (bytes.drop 24).length = 8 := by
    rw [List.length_drop, h]
  have hslice : bytes.slice 24 32 = bytes.drop 24 :=
    List.take_of_length_le (Nat.le_of_eq hlow)
  have hlt := Bytes.beNat_lt (bytes.drop 24)
  have hbytes := Bytes.beNat_append (bytes.take 24) (bytes.drop 24)
  rw [hlow] at hlt
  rw [List.take_append_drop, hlow] at hbytes
  have hpow : 2 ^ 64 = 256 ^ 8 := by simp
  rw [readUsize, if_neg (by omega), hslice, hbytes, hpow, Nat.add_mul_mod_self_left,
    Nat.mod_eq_of_lt hlt]

theorem readUsize_slice (bytes : Bytes) {i : Nat} (h : i + 32 ≤ bytes.length)
    : readUsize (bytes.slice i (i + 32)) = usizeAt bytes i := by
  apply readUsize_of_length
  rw [Bytes.length_slice _ _ _ h, Nat.add_sub_cancel_left]

/--
A slice up to a sum. If the sum wraps, then the slice ends before it starts.
-/
theorem bind_add_index (P : Profile) (ha : a < 2 ^ 64) (hb : b < 2 ^ 64)
    (hle : a ≤ bytes.length ∨ b ≤ bytes.length) (f : Nat → Bytes → Option (Option Bytes))
    : ((P.add a b).bind fun stop =>
          if stop > bytes.length then some none else (bytes.index a stop).bind (f stop))
        =
      if 2 ^ 64 ≤ a + b then
        none
      else if bytes.length < a + b then
        some none
      else
        f (a + b) (bytes.slice a (a + b)) := by
  split
  . next hover =>
    rcases P.add_of_le hover ha hb with hnone | ⟨stop, hsum, hlta, hltb⟩
    . rw [hnone, Option.bind_none]
    . rw [hsum, Option.bind_some, if_neg (by omega), Bytes.index_of_lt hlta, Option.bind_none]
  . next hfits =>
    rw [P.add_of_lt (Nat.lt_of_not_le hfits), Option.bind_some]
    split
    . rfl
    . next hin =>
      rw [Bytes.index_of_le (Nat.le_add_right a b) (Nat.le_of_not_lt hin), Option.bind_some]

theorem pointedBytes_eq (P : Profile) (h : 64 ≤ bytes.length)
    : pointedBytes P bytes
        =
      if 2 ^ 64 ≤ usizeAt bytes 0 + 32 then
        none
      else if bytes.length < usizeAt bytes 0 + 32 then
        some none
      else if usizeAt bytes (usizeAt bytes 0) = 0 then
        some none
      else if 2 ^ 64 ≤ usizeAt bytes 0 + 32 + usizeAt bytes (usizeAt bytes 0) then
        none
      else if bytes.length < usizeAt bytes 0 + 32 + usizeAt bytes (usizeAt bytes 0) then
        some none
      else
        some (some (bytes.slice (usizeAt bytes 0 + 32)
          (usizeAt bytes 0 + 32 + usizeAt bytes (usizeAt bytes 0)))) := by
  have hread := readUsize_slice bytes (i := 0) (by omega)
  rw [Nat.zero_add] at hread
  unfold pointedBytes
  rw [if_neg (Nat.not_lt_of_le h), Bytes.index_of_le (Nat.zero_le 32) (by omega)]
  simp only [Option.bind_eq_bind, Option.bind_some, hread, Option.map_eq_bind]
  rw [bind_add_index P (usizeAt_lt bytes 0) (by decide) (.inr (by omega))]
  split
  . rfl
  . next hfits =>
    split
    . rfl
    . next hin =>
      have hin := Nat.le_of_not_lt hin
      rw [readUsize_slice bytes hin]
      split
      . rfl
      . rw [bind_add_index P (Nat.lt_of_not_le hfits) (usizeAt_lt _ _) (.inl hin)]
        rfl

theorem pointedBytes_cases (P : Profile) (bytes : Bytes)
    : PointedCase bytes (pointedBytes P bytes) := by
  by_cases hlength : 64 ≤ bytes.length
  . rw [pointedBytes_eq P hlength]
    split
    . next hover => exact .overflows ⟨hlength, .inl hover⟩
    . next hfits =>
      split
      . next hout =>
        refine .outside (fun h => ?_) (fun _ h => ?_)
        . exact h.2.elim hfits fun h => Nat.not_le_of_lt hout h.1
        . have := h.inside
          omega
      . next hin =>
        split
        . next hzero =>
          refine .outside (fun h => ?_) (fun _ h => Nat.ne_of_gt h.pos hzero)
          exact h.2.elim hfits fun h => Nat.ne_of_gt h.2.1 hzero
        . next hpos =>
          have hpos := Nat.pos_of_ne_zero hpos
          split
          . next hover => exact .overflows ⟨hlength, .inr ⟨Nat.le_of_not_lt hin, hpos, hover⟩⟩
          . next hfits' =>
            have hfits : ¬Overflows bytes := fun h => h.2.elim hfits fun h => hfits' h.2.2
            split
            . next hout => exact .outside hfits fun _ h => Nat.not_le_of_lt hout h.inside
            . next hin' =>
              exact .points hfits ⟨hlength, hpos, Nat.le_of_not_lt hin', Nat.lt_of_not_le hfits', rfl⟩
  . rw [pointedBytes, if_pos (Nat.lt_of_not_le hlength)]
    exact .outside (fun h => hlength h.1) fun _ h => hlength h.length

theorem Points.ne_nil (h : Points bytes inner) : inner ≠ [] := by
  rintro rfl
  have hlength := congrArg List.length h.eq
  rw [Bytes.length_slice _ _ _ h.inside, List.length_nil, Nat.add_sub_cancel_left] at hlength
  exact Nat.ne_of_gt h.pos hlength

theorem Points.unique {inner' : Bytes} (h : Points bytes inner) (h' : Points bytes inner')
    : inner = inner' :=
  h.eq.symm.trans h'.eq

theorem addressed_of_le (h : 2 ^ 64 ≤ wordAt bytes 0) : addressed bytes = none := by
  unfold addressed
  exact if_neg fun hcond => Nat.not_lt_of_le h hcond.2.1

theorem addressed_eq_some_iff (hfits : ¬Overflows bytes)
    : addressed bytes = some inner ↔ Points bytes inner ∧ ¬Reduces bytes := by
  unfold addressed
  dsimp only
  constructor
  . intro h
    split at h
    . next hcond =>
      obtain ⟨hlength, hoffset, hpos, hlen, hin⟩ := hcond
      have hword := usizeAt_of_lt hoffset
      have hlen' : usizeAt bytes (usizeAt bytes 0) = wordAt bytes (wordAt bytes 0) := by
        rw [hword, usizeAt_of_lt hlen]
      rw [Option.some.injEq] at h
      refine ⟨⟨hlength, ?_, ?_, ?_, ?_⟩, ?_⟩
      . rwa [hlen']
      . rwa [hlen', hword]
      . refine Nat.lt_of_not_le fun hover => hfits ⟨hlength, .inr ⟨?_, ?_, hover⟩⟩
        . omega
        . rwa [hlen']
      . rwa [hlen', hword]
      . rintro (hreduced | hreduced)
        . omega
        . rw [hword] at hreduced
          omega
    . cases h
  . rintro ⟨hpoints, hreduces⟩
    have hoffset : wordAt bytes 0 < 2 ^ 64 := Nat.lt_of_not_le fun h => hreduces (.inl h)
    have hword := usizeAt_of_lt hoffset
    have hlen : wordAt bytes (wordAt bytes 0) < 2 ^ 64 := by
      refine Nat.lt_of_not_le fun h => hreduces (.inr ?_)
      rwa [hword]
    obtain ⟨hlength, hpos, hin, _, heq⟩ := hpoints
    rw [hword, usizeAt_of_lt hlen] at hpos hin heq
    rw [if_pos ⟨hlength, hoffset, hpos, hlen, hin⟩, heq]

end Words

section Answers

/--
The answer makes a sum overflow, which ends in a panic in both profiles.
-/
def Panics (bytes : Bytes) : Prop :=
  Overflows bytes ∨ ∃ inner, Points bytes inner ∧ Overflows inner

/--
What goes wrong with an answer: the client panics, or a word that is too large is reduced and leads to
a text all the same.
-/
inductive Misdecoded (bytes : Bytes) : Prop where
  | panics (h : Panics bytes)
  | reduced {inner text : Bytes} (h : Points bytes inner) (htext : Points inner text)
    (hreduces : Reduces bytes ∨ Reduces inner)

inductive DecodeCase (U : Lossy) (bytes : Bytes) : Option (Except String (List Char)) → Prop where
  | panics (h : Panics bytes) : DecodeCase U bytes none
  | empty (hfits : ¬Panics bytes) (h : ∀ inner text, Points bytes inner → ¬Points inner text)
    : DecodeCase U bytes (some (.ok []))
  | text {inner text : Bytes} (hfits : ¬Panics bytes) (h : Points bytes inner)
    (htext : Points inner text)
    : DecodeCase U bytes (some (.ok (U.fromUtf8Lossy text)))

variable {P : Profile} {U : Lossy} {bytes inner text : Bytes}

theorem not_panics_of_points (hfits : ¬Overflows bytes) (h : Points bytes inner)
    (hfits' : ¬Overflows inner)
    : ¬Panics bytes := by
  rintro (hover | ⟨inner', hpoints, hover⟩)
  . exact hfits hover
  . exact hfits' (h.unique hpoints ▸ hover)

theorem decodeResolveTextResult_cases (P : Profile) (U : Lossy) (bytes : Bytes)
    : DecodeCase U bytes (decodeResolveTextResult P U bytes) := by
  have hcase := pointedBytes_cases P bytes
  unfold decodeResolveTextResult
  generalize pointedBytes P bytes = pointed at hcase ⊢
  cases hcase with
  | overflows h => exact .panics (.inl h)
  | outside hfits h =>
    refine .empty ?_ fun inner _ hpoints => absurd hpoints (h inner)
    rintro (hover | ⟨inner, hpoints, _⟩)
    . exact hfits hover
    . exact h inner hpoints
  | @points inner hfits h =>
    have hcase := pointedBytes_cases P inner
    rw [Option.bind_eq_bind, Option.bind_some]
    dsimp only
    generalize pointedBytes P inner = pointed at hcase ⊢
    cases hcase with
    | overflows hover => exact .panics (.inr ⟨inner, h, hover⟩)
    | outside hfits' htext =>
      refine .empty (not_panics_of_points hfits h hfits') fun inner' text hpoints => ?_
      rw [← h.unique hpoints]
      exact htext text
    | points hfits' htext => exact .text (not_panics_of_points hfits h hfits') h htext

theorem bind_addressed_eq_some_iff (hfits : ¬Panics bytes)
    : (addressed bytes).bind addressed = some text
        ↔
      ∃ inner, Points bytes inner ∧ Points inner text ∧ ¬(Reduces bytes ∨ Reduces inner) := by
  have houter := fun hover => hfits (.inl hover)
  have hinner := fun inner hpoints hover => hfits (.inr ⟨inner, hpoints, hover⟩)
  rw [Option.bind_eq_some_iff]
  constructor
  . rintro ⟨inner, hbytes, htext⟩
    obtain ⟨hpoints, hreduces⟩ := (addressed_eq_some_iff houter).mp hbytes
    obtain ⟨hpoints', hreduces'⟩ := (addressed_eq_some_iff (hinner inner hpoints)).mp htext
    exact ⟨inner, hpoints, hpoints', fun hor => hor.elim hreduces hreduces'⟩
  . rintro ⟨inner, hpoints, htext, hreduces⟩
    rw [not_or] at hreduces
    exact ⟨inner, (addressed_eq_some_iff houter).mpr ⟨hpoints, hreduces.1⟩,
      (addressed_eq_some_iff (hinner inner hpoints)).mpr ⟨htext, hreduces.2⟩⟩

theorem exactText_of_forall_ne (U : Lossy) (h : ∀ text, (addressed bytes).bind addressed ≠ some text)
    : exactText U bytes = [] := by
  rw [exactText, Option.eq_none_iff_forall_ne_some.mpr h]
  rfl

theorem fromUtf8Lossy_eq_exactText_iff (U : Lossy) (hfits : ¬Panics bytes) (h : Points bytes inner)
    (htext : Points inner text)
    : U.fromUtf8Lossy text = exactText U bytes ↔ ¬(Reduces bytes ∨ Reduces inner) := by
  constructor
  . intro heq hreduces
    have hempty : exactText U bytes = [] := by
      refine exactText_of_forall_ne U fun text' htext' => ?_
      obtain ⟨inner', hpoints, _, hnot⟩ := (bind_addressed_eq_some_iff hfits).mp htext'
      exact hnot (h.unique hpoints ▸ hreduces)
    exact htext.ne_nil (U.eq_nil_of_fromUtf8Lossy text (heq.trans hempty))
  . intro hreduces
    rw [exactText, (bind_addressed_eq_some_iff hfits).mpr ⟨inner, h, htext, hreduces⟩]
    rfl

theorem decodeResolveTextResult_eq_none_iff (P : Profile) (U : Lossy) (bytes : Bytes)
    : decodeResolveTextResult P U bytes = none ↔ Panics bytes := by
  have hcase := decodeResolveTextResult_cases P U bytes
  generalize decodeResolveTextResult P U bytes = decoded at hcase ⊢
  cases hcase with
  | panics h => exact iff_of_true rfl h
  | empty hfits _ => exact iff_of_false nofun hfits
  | text hfits _ _ => exact iff_of_false nofun hfits

/--
Every answer is decoded, in both profiles and with every word that is too large out of range, unless
it is one of those that are decoded wrongly. The client panics exactly if a sum overflows.
-/
theorem decodeResolveTextResult_exact_iff (P : Profile) (U : Lossy) (bytes : Bytes)
    : (decodeResolveTextResult P U bytes = some (.ok (exactText U bytes)) ↔ ¬Misdecoded bytes)
        ∧
      (decodeResolveTextResult P U bytes = none ↔ Panics bytes) := by
  refine ⟨?_, decodeResolveTextResult_eq_none_iff P U bytes⟩
  have hcase := decodeResolveTextResult_cases P U bytes
  generalize decodeResolveTextResult P U bytes = decoded at hcase ⊢
  cases hcase with
  | panics h => exact iff_of_false nofun fun hnot => hnot (.panics h)
  | empty hfits h =>
    have hempty : exactText U bytes = [] := by
      refine exactText_of_forall_ne U fun text htext => ?_
      obtain ⟨inner, hpoints, hpoints', _⟩ := (bind_addressed_eq_some_iff hfits).mp htext
      exact h inner text hpoints hpoints'
    refine iff_of_true (by rw [hempty]) ?_
    rintro (hpanics | ⟨hpoints, htext, _⟩)
    . exact hfits hpanics
    . exact h _ _ hpoints htext
  | text hfits h htext =>
    rw [Option.some.injEq, Except.ok.injEq, fromUtf8Lossy_eq_exactText_iff U hfits h htext]
    refine ⟨fun hreduces => ?_, fun hnot hreduces => hnot (.reduced h htext hreduces)⟩
    rintro (hpanics | ⟨hpoints, _, hreduces'⟩)
    . exact hfits hpanics
    . exact hreduces (h.unique hpoints ▸ hreduces')

end Answers

namespace Sample

def topOffset : Bytes :=
  List.replicate 24 0 ++ (List.replicate 7 0xff ++ 0xf0 :: List.replicate 32 0)

def largeOffset : Bytes :=
  List.replicate 23 0 ++ (1 :: List.replicate 7 0 ++ 64 :: List.replicate 32 0)
    ++ (List.replicate 31 0 ++ 96 :: (List.replicate 31 0 ++ 32 :: (List.replicate 31 0 ++ 1 ::
      (97 :: List.replicate 31 0))))

end Sample

/--
An offset near the limit panics, and one beyond the limit is taken for a small one.
-/
theorem exists_answer_misdecoded
    : (∀ P U, decodeResolveTextResult P U Sample.topOffset = none)
        ∧
      (∀ P U, decodeResolveTextResult P U Sample.largeOffset = some (.ok ['a']))
        ∧
      2 ^ 64 ≤ wordAt Sample.largeOffset 0
        ∧
      ∀ U, exactText U Sample.largeOffset = [] := by
  have hword : 2 ^ 64 ≤ wordAt Sample.largeOffset 0 := by
    decide +kernel
  refine ⟨?_, ?_, hword, ?_⟩
  . intro P U
    exact (decodeResolveTextResult_eq_none_iff P U Sample.topOffset).mpr
      (.inl ⟨by decide, .inl (by decide +kernel)⟩)
  . intro P U
    have houter : pointedBytes P Sample.largeOffset = some (some (Sample.largeOffset.drop 96)) := by
      cases P <;> decide +kernel
    have hinner : pointedBytes P (Sample.largeOffset.drop 96) = some (some (utf8 ['a'])) := by
      cases P <;> decide +kernel
    unfold decodeResolveTextResult
    rw [houter, Option.bind_eq_bind, Option.bind_some]
    dsimp only
    rw [hinner, Option.bind_some]
    dsimp only
    rw [U.fromUtf8Lossy_utf8]
  . intro U
    rw [exactText, addressed_of_le hword]
    rfl

section Canonical

variable {back : List Abi.Argument} {b : Bytes}
  (hsize : 32 * (back.length + 1) + 32 + b.length < 2 ^ 64)
include hsize

theorem usizeAt_encode_offset
    : usizeAt (Abi.encode (.dynamic b :: back)) 0 = 32 * (back.length + 1) := by
  have hhead := Abi.slice_encode_head [] back b
  simp only [List.nil_append, List.length_nil, Nat.mul_zero, Nat.zero_add, Abi.tailOffset,
    List.flatMap_nil, Nat.add_zero, List.length_cons] at hhead
  have hlt : 32 * (back.length + 1) < 2 ^ 64 := by omega
  rw [usizeAt, wordAt, Nat.zero_add, hhead, Abi.beNat_word (Nat.lt_trans hlt (by simp)),
    Nat.mod_eq_of_lt hlt]

theorem usizeAt_encode_length
    : usizeAt (Abi.encode (.dynamic b :: back)) (32 * (back.length + 1)) = b.length := by
  have hlength := Abi.slice_encode_length [] back b
  simp only [List.nil_append, List.length_nil, Abi.tailOffset, List.flatMap_nil, Nat.add_zero,
    List.length_cons] at hlength
  have hlt : b.length < 2 ^ 64 := by omega
  rw [usizeAt, wordAt, hlength, Abi.beNat_word (Nat.lt_trans hlt (by simp)), Nat.mod_eq_of_lt hlt]

theorem pointedBytes_encode (P : Profile)
    : pointedBytes P (Abi.encode (.dynamic b :: back)) = some (if b = [] then none else some b) := by
  have hbytes := Abi.slice_encode_bytes [] back b
  have hle := Abi.tailOffset_add_le_length_encode [] back b
  simp only [List.nil_append, List.length_nil, Abi.tailOffset, List.flatMap_nil, Nat.add_zero,
    List.length_cons] at hbytes hle
  rw [pointedBytes_eq P (by omega), usizeAt_encode_offset hsize, usizeAt_encode_length hsize,
    if_neg (by omega), if_neg (by omega)]
  by_cases hb : b = []
  . rw [if_pos hb, if_pos (List.length_eq_zero_iff.mpr hb)]
  . rw [if_neg hb, if_neg (mt List.length_eq_zero_iff.mp hb), if_neg (by omega), if_neg (by omega),
      hbytes]

end Canonical

section Texts

variable {s : List Char} {b : Bytes}

theorem length_encode_dynamic_lt (b : Bytes) : (Abi.encode [.dynamic b]).length < b.length + 96 := by
  have hpad := Abi.length_pad_lt b
  rw [Abi.length_encode, List.flatMap_singleton, Abi.Argument.tail, List.length_append, Abi.length_word,
    List.length_singleton]
  omega

theorem eq_nil_of_utf8 (U : Lossy) (h : utf8 s = []) : s = [] := by
  have hs := U.fromUtf8Lossy_utf8 s
  rw [h] at hs
  exact hs.symm.trans (U.fromUtf8Lossy_utf8 [])

theorem decodeResolveTextResult_encode (P : Profile) (U : Lossy) {back back' : List Abi.Argument}
    (hsize : 32 * (back.length + 1) + 32 + (Abi.encode (.dynamic (utf8 s) :: back')).length < 2 ^ 64)
    (hsize' : 32 * (back'.length + 1) + 32 + (utf8 s).length < 2 ^ 64)
    : decodeResolveTextResult P U
          (Abi.encode (.dynamic (Abi.encode (.dynamic (utf8 s) :: back')) :: back))
        =
      some (.ok s) := by
  have hne : Abi.encode (.dynamic (utf8 s) :: back') ≠ [] := by
    intro hnil
    have hlength := Abi.length_encode (.dynamic (utf8 s) :: back')
    rw [hnil, List.length_nil, List.length_cons] at hlength
    omega
  unfold decodeResolveTextResult
  rw [pointedBytes_encode hsize, if_neg hne, Option.bind_eq_bind, Option.bind_some]
  dsimp only
  rw [pointedBytes_encode hsize', Option.bind_some]
  by_cases hs : utf8 s = []
  . rw [if_pos hs, eq_nil_of_utf8 U hs]
  . rw [if_neg hs]
    dsimp only
    rw [U.fromUtf8Lossy_utf8]

/--
The text of a canonical answer is decoded, also if it is empty.
-/
theorem decodeResolveTextResult_canonical (P : Profile) (U : Lossy) (s : List Char)
    (resolver : FixedBytes 20) (hsize : (utf8 s).length < 2 ^ 63)
    : decodeResolveTextResult P U
          (Abi.encode [.dynamic (Abi.encode [.dynamic (utf8 s)]), .static (Abi.address resolver)])
        =
      some (.ok s) := by
  have hlt := length_encode_dynamic_lt (utf8 s)
  apply decodeResolveTextResult_encode
  . rw [List.length_singleton]
    omega
  . rw [List.length_nil]
    omega

end Texts

section Lookup

structure HasResult (resp : Json) (b : Bytes) : Prop where
  error : resp.get "error" = none
  result : resp.get "result" = some (.string ("0x" ++ Hex.encode b))

/--
The RPC node answers the request for a record with the canonical encoding of its text.
-/
def Answers (env : Env) (name : List Char) (key : String) (s : List Char) : Prop :=
  ∃ resp resolver,
    env.post (rpcBody (calldata env.keccak256 name key.toList)) = .ok resp
      ∧ HasResult resp
          (Abi.encode [.dynamic (Abi.encode [.dynamic (utf8 s)]), .static (Abi.address resolver)])
      ∧ (utf8 s).length < 2 ^ 63

variable {env : Env} {name s : List Char} {key : String} {resp : Json} {b : Bytes}

theorem decodeResponse_of_hasResult (P : Profile) (U : Lossy) (logs : Bool) (h : HasResult resp b)
    (hb : 4 ≤ b.length)
    : decodeResponse P U logs resp = decodeResolveTextResult P U b := by
  have htext : ("0x" ++ Hex.encode b).toList = '0' :: 'x' :: (Hex.encode b).toList := by
    rw [String.toList_append]
    rfl
  have hsingle : ∀ c ∈ '0' :: 'x' :: (Hex.encode b).toList, c.utf8Size = 1 := by
    simp only [List.forall_mem_cons]
    exact ⟨by decide, by decide, fun c => Hex.utf8Size_of_mem_encode⟩
  have hboundary := Text.isCharBoundary_of_utf8Size hsingle (Nat.min_le_left _ 100)
  have hdigits := Hex.length_toList_encode b
  have hlong : ¬('0' :: 'x' :: (Hex.encode b).toList = "0x".toList
      ∨ ('0' :: 'x' :: (Hex.encode b).toList).length < 10) := by
    rintro (heq | hlt)
    . have hlength := congrArg List.length heq
      rw [List.length_cons, List.length_cons, hdigits] at hlength
      have : "0x".toList.length = 2 := rfl
      omega
    . rw [List.length_cons, List.length_cons, hdigits] at hlt
      omega
  unfold decodeResponse
  rw [h.error, h.result]
  dsimp only [Option.isSome, Option.bind, Json.asStr, Option.getD]
  rw [htext, Text.length_utf8_of_utf8Size hsingle, hboundary, Bool.not_true, Bool.and_false,
    if_neg Bool.false_ne_true, if_neg Bool.false_ne_true, if_neg hlong]
  have hdecode : Hex.decodeChars (Hex.encode b).toList = some b := Hex.decode_encode b
  have hfront : Lines.afterFront "0x".toList ('0' :: 'x' :: (Hex.encode b).toList)
      = some (Hex.encode b).toList := rfl
  rw [hfront]
  dsimp only
  rw [hdecode]

theorem record_of_answers (h : Answers env name key s) : record env name key = some s := by
  obtain ⟨resp, resolver, hpost, hresult, hsize⟩ := h
  have hlt := length_encode_dynamic_lt (utf8 s)
  unfold record getEnsText
  rw [hpost]
  dsimp only
  rw [decodeResponse_of_hasResult _ _ _ hresult, decodeResolveTextResult_encode]
  . rfl
  . rw [List.length_singleton]
    omega
  . rw [List.length_nil]
    omega
  . rw [Abi.length_encode, List.length_cons, List.length_singleton]
    omega

theorem resolveVpnNode_of_answers {texts : String → List Char}
    (h : ∀ key ∈ ["vpn.ishuman", "vpn.publickey", "vpn.endpoint", "vpn.http", "vpn.metadata"],
      Answers env name key (texts key))
    : resolveVpnNode env name
        =
      some (if texts "vpn.endpoint" = [] ∧ texts "vpn.http" = [] then
        .error ("No VPN records found for " ++ String.ofList name)
      else
        .ok {
          ensName := name
          isHuman := texts "vpn.ishuman" = "true".toList ∨ texts "vpn.ishuman" = "1".toList
          publicKey := texts "vpn.publickey"
          endpoint := texts "vpn.endpoint"
          http := texts "vpn.http"
          metadata := texts "vpn.metadata"
        }) := by
  simp only [List.forall_mem_cons] at h
  obtain ⟨hishuman, hpublickey, hendpoint, hhttp, hmetadata, _⟩ := h
  unfold resolveVpnNode
  rw [record_of_answers hishuman, record_of_answers hpublickey, record_of_answers hendpoint,
    record_of_answers hhttp, record_of_answers hmetadata]
  simp only [Option.bind_eq_bind, Option.bind_some, Bool.and_eq_true, List.isEmpty_iff]
  split
  . rfl
  . rfl

end Lookup

namespace Sample

/--
A text that is not UTF-8 is replaced as a whole.
-/
def lossy : Lossy where
  fromUtf8Lossy := fun b =>
    match Text.fromUTF8 b with
    | some s => s.toList
    | none => [Char.ofNat 0xfffd]
  fromUtf8Lossy_utf8 := by
    intro s
    have hvalid : Text.fromUTF8 (utf8 s) = some (String.ofList s) :=
      dif_pos (String.ofList s).isValidUTF8
    rw [hvalid]
    exact String.toList_ofList
  eq_nil_of_fromUtf8Lossy := by
    intro b h
    split at h
    . next s hs =>
      rw [Text.eq_bytes_of_fromUTF8 hs, String.toList_eq_nil_iff.mp h]
      rfl
    . cases h

end Sample

theorem decodeResolveTextResult_canonical_endpoint
    : (utf8 "10.0.0.1:51820".toList).length < 2 ^ 63
        ∧
      decodeResolveTextResult .release Sample.lossy
          (Abi.encode [.dynamic (Abi.encode [.dynamic (utf8 "10.0.0.1:51820".toList)]),
            .static (Abi.address (.zero 20))])
        =
      some (.ok "10.0.0.1:51820".toList) := by
  have hsize : (utf8 "10.0.0.1:51820".toList).length < 2 ^ 63 := by
    decide +kernel
  exact ⟨hsize, decodeResolveTextResult_canonical .release Sample.lossy _ (.zero 20) hsize⟩

end Ens
end Client
