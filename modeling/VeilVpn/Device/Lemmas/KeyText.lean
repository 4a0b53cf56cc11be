import VeilVpn.Device.Impl.Uapi

namespace Device

namespace Uapi

section Pairs

inductive CharBytes (c : Char) : Prop where
  | single (hsize : c.utf8Size = 1) (hc : c.toNat < 0x80)
    (hbytes : String.utf8EncodeChar c = [UInt8.ofNat c.toNat])
  | double (lead second : UInt8) (hsize : c.utf8Size = 2)
    (hbytes : String.utf8EncodeChar c = [lead, second])
    (hlead : 0xc0 ≤ lead) (hsecond : isContinuation second = true)
  | long (lead second third : UInt8) (rest : Bytes) (hsize : 3 ≤ c.utf8Size)
    (hbytes : String.utf8EncodeChar c = lead :: second :: third :: rest)
    (hlead : 0xc0 ≤ lead) (hsecond : isContinuation second = true)
    (hthird : isContinuation third = true)

theorem isContinuation_ofNat {n : Nat} (h : n < 64) : isContinuation (UInt8.ofNat (n + 128)) = true := by
  have hall : ∀ n : Fin 64, isContinuation (UInt8.ofNat (n.val + 128)) = true := by decide
  exact hall ⟨n, h⟩

theorem le_ofNat {n : Nat} (hle : 0xc0 ≤ n) (hlt : n < 256) : 0xc0 ≤ UInt8.ofNat n := by
  rw [UInt8.le_iff_toNat_le, UInt8.toNat_ofNat', Nat.mod_eq_of_lt hlt]
  exact hle

theorem charBytes (c : Char) : CharBytes c := by
  have hsize := String.length_utf8EncodeChar c
  have hbytes := String.utf8EncodeChar.eq_1 c
  split_ifs at hbytes with hsingle hdouble htriple
  all_goals rw [hbytes] at hsize
  . exact .single hsize.symm (Nat.lt_succ_of_le hsingle) hbytes
  . exact .double _ _ hsize.symm hbytes (le_ofNat (by omega) (by omega)) (isContinuation_ofNat (by omega))
  . exact .long _ _ _ _ (Nat.le_of_eq hsize) hbytes (le_ofNat (by omega) (by omega))
      (isContinuation_ofNat (by omega)) (isContinuation_ofNat (by omega))
  . exact .long _ _ _ _ (hsize ▸ by simp) hbytes (le_ofNat (by omega) (by omega))
      (isContinuation_ofNat (by omega)) (isContinuation_ofNat (by omega))

theorem isContinuation_of_lead {lead : UInt8} (h : 0xc0 ≤ lead) : isContinuation lead = false := by
  simp only [isContinuation, Bool.and_eq_false_iff, decide_eq_false_iff_not]
  exact .inr (UInt8.not_lt.mpr h)

theorem head?_utf8 (text : List Char)
    : (text.flatMap String.utf8EncodeChar).head?.any isContinuation = false := by
  have hsingle : ∀ n : Fin 0x80, isContinuation (UInt8.ofNat n.val) = false := by decide
  cases text with
  | nil => rfl
  | cons c text =>
    rw [List.flatMap_cons]
    cases charBytes c with
    | single _ hc hbytes =>
      rw [hbytes]
      exact hsingle ⟨_, hc⟩
    | double _ _ _ hbytes hlead _ =>
      rw [hbytes]
      exact isContinuation_of_lead hlead
    | long _ _ _ _ _ hbytes hlead _ _ =>
      rw [hbytes]
      exact isContinuation_of_lead hlead

/--
The text is read as these bytes, a pair of characters for each of them. The first character of a pair
may be a plus sign.
-/
inductive Reads : List Char → Bytes → Prop where
  | nil : Reads [] []
  | digits {a b : Char} {x y : Nat} {text : List Char} {bytes : Bytes}
    (ha : Hex.value a = some x) (hb : Hex.value b = some y) (h : Reads text bytes)
    : Reads (a :: b :: text) (UInt8.ofNat (x * 16 + y) :: bytes)
  | plus {b : Char} {y : Nat} {text : List Char} {bytes : Bytes}
    (hb : Hex.value b = some y) (h : Reads text bytes)
    : Reads ('+' :: b :: text) (UInt8.ofNat y :: bytes)

inductive Cuts : List Char → Prop where
  | first {a : Char} {text : List Char} (ha : 3 ≤ a.utf8Size) : Cuts (a :: text)
  | second {a b : Char} {text : List Char} (ha : a.utf8Size = 1) (hb : 2 ≤ b.utf8Size)
    : Cuts (a :: b :: text)

/--
What follows some pairs is a character that the next two bytes cut.
-/
def CutsAfterPairs (text : List Char) : Prop :=
  ∃ front bytes rest, text = front ++ rest ∧ Reads front bytes ∧ Cuts rest

variable {a b : Char} {text front rest : List Char} {bytes : Bytes} {byte : UInt8}

theorem toNat_lt_of_value {x : Nat} (h : Hex.value a = some x) : a.toNat < 0x80 := by
  have hle : ∀ c : Char, a ≤ c → c.toNat < 0x80 → a.toNat < 0x80 := by
    intro c hac hc
    exact Nat.lt_of_le_of_lt (UInt32.le_iff_toNat_le.mp (Char.le_def.mp hac)) hc
  unfold Hex.value at h
  split_ifs at h with hdigit hlower hupper
  . exact hle '9' hdigit.2 (by decide)
  . exact hle 'f' hlower.2 (by decide)
  . exact hle 'F' hupper.2 (by decide)

theorem utf8_of_lt (h : a.toNat < 0x80) : String.utf8EncodeChar a = [UInt8.ofNat a.toNat] := by
  rw [String.utf8EncodeChar]
  exact if_pos (Nat.le_of_lt_succ h)

theorem ofNat_ofNat_toNat (h : a.toNat < 0x80) : Char.ofNat (UInt8.ofNat a.toNat).toNat = a := by
  rw [UInt8.toNat_ofNat', Nat.mod_eq_of_lt (Nat.lt_trans h (by decide)), Char.ofNat_toNat]

theorem value_plus : Hex.value '+' = none := by
  decide

theorem fromStrRadix_eq_some_iff (ha : a.toNat < 0x80) (hb : b.toNat < 0x80)
    : fromStrRadix (UInt8.ofNat a.toNat) (UInt8.ofNat b.toNat) = some byte
        ↔
      (∃ x y, Hex.value a = some x ∧ Hex.value b = some y ∧ UInt8.ofNat (x * 16 + y) = byte)
        ∨
      (a = '+' ∧ ∃ y, Hex.value b = some y ∧ UInt8.ofNat y = byte) := by
  unfold fromStrRadix
  simp only [ofNat_ofNat_toNat ha, ofNat_ofNat_toNat hb]
  split
  . next hplus =>
    have hplus : a = '+' := by
      rw [← ofNat_ofNat_toNat ha, hplus]
      rfl
    simp [hplus, value_plus]
  . next hplus =>
    have hplus : a ≠ '+' := by
      rintro rfl
      exact hplus rfl
    split
    . next x y hx hy => simp [hplus, hx, hy]
    . next hnot =>
      refine iff_of_false (by simp) ?_
      rintro (⟨x, y, hx, hy, _⟩ | ⟨heq, _⟩)
      . exact hnot x y hx hy
      . exact hplus heq

theorem isContinuation_pair (ha : a.toNat < 0x80) (text : List Char)
    : (isContinuation (UInt8.ofNat a.toNat)
        || (text.flatMap String.utf8EncodeChar).head?.any isContinuation) = false := by
  have hfirst := head?_utf8 [a]
  rw [List.flatMap_singleton, utf8_of_lt ha] at hfirst
  rw [head?_utf8, Bool.or_false]
  exact hfirst

section Step

variable (ha : a.toNat < 0x80) (hb : b.toNat < 0x80)
include ha hb

theorem utf8_pair (text : List Char)
    : (a :: b :: text).flatMap String.utf8EncodeChar
        =
      UInt8.ofNat a.toNat :: UInt8.ofNat b.toNat :: text.flatMap String.utf8EncodeChar := by
  rw [List.flatMap_cons, List.flatMap_cons, utf8_of_lt ha, utf8_of_lt hb, List.singleton_append,
    List.singleton_append]

theorem fromHex_pair_none (h : fromStrRadix (UInt8.ofNat a.toNat) (UInt8.ofNat b.toNat) = none)
    : fromHex ((a :: b :: text).flatMap String.utf8EncodeChar) = some none := by
  rw [utf8_pair ha hb, fromHex, isContinuation_pair ha, if_neg Bool.false_ne_true, h]

theorem fromHex_pair_some (h : fromStrRadix (UInt8.ofNat a.toNat) (UInt8.ofNat b.toNat) = some byte)
    : fromHex ((a :: b :: text).flatMap String.utf8EncodeChar)
        =
      (fromHex (text.flatMap String.utf8EncodeChar)).map fun bytes => bytes.map (byte :: ·) := by
  rw [utf8_pair ha hb, fromHex, isContinuation_pair ha, if_neg Bool.false_ne_true, h]

end Step

theorem fromHex_append (h : Reads front bytes)
    : fromHex ((front ++ rest).flatMap String.utf8EncodeChar)
        =
      (fromHex (rest.flatMap String.utf8EncodeChar)).map fun tail => tail.map (bytes ++ ·) := by
  induction h with
  | nil => simp
  | digits ha hb _ ih =>
    have hpair := (fromStrRadix_eq_some_iff (toNat_lt_of_value ha) (toNat_lt_of_value hb)).mpr
      (.inl ⟨_, _, ha, hb, rfl⟩)
    rw [List.cons_append, List.cons_append,
      fromHex_pair_some (toNat_lt_of_value ha) (toNat_lt_of_value hb) hpair, ih]
    simp [Function.comp_def]
  | plus hb _ ih =>
    have hpair := (fromStrRadix_eq_some_iff (a := '+') (by decide) (toNat_lt_of_value hb)).mpr
      (.inr ⟨rfl, _, hb, rfl⟩)
    rw [List.cons_append, List.cons_append,
      fromHex_pair_some (by decide) (toNat_lt_of_value hb) hpair, ih]
    simp [Function.comp_def]

theorem fromHex_of_continuation {hi lo next : UInt8} {rest : Bytes} (h : isContinuation next = true)
    : fromHex (hi :: lo :: next :: rest) = none := by
  rw [fromHex, List.head?_cons, Option.any_some, h, Bool.or_true, if_pos rfl]

theorem fromHex_of_cuts (h : Cuts text) : fromHex (text.flatMap String.utf8EncodeChar) = none := by
  cases h with
  | @first a text ha =>
    rw [List.flatMap_cons]
    cases charBytes a with
    | single hsize _ _ => omega
    | double _ _ hsize _ _ _ => omega
    | long _ _ _ _ _ hbytes _ _ hthird =>
      rw [hbytes]
      exact fromHex_of_continuation hthird
  | @second a b text ha hb =>
    rw [List.flatMap_cons, List.flatMap_cons]
    cases charBytes a with
    | single _ _ hbytes =>
      rw [hbytes]
      cases charBytes b with
      | single hsize _ _ => omega
      | double _ _ _ hbytes _ hsecond =>
        rw [hbytes]
        exact fromHex_of_continuation hsecond
      | long _ _ _ _ _ hbytes _ hsecond _ =>
        rw [hbytes]
        exact fromHex_of_continuation hsecond
    | double _ _ hsize _ _ _ => omega
    | long _ _ _ _ hsize _ _ _ _ => omega

theorem fromStrRadix_of_lead {lead : UInt8} (h : 0xc0 ≤ lead) (lo : UInt8)
    : fromStrRadix lead lo = none := by
  have hall : ∀ n : Fin 64, Hex.value (Char.ofNat (n.val + 0xc0)) = none := by decide
  have hle : 0xc0 ≤ lead.toNat := UInt8.le_iff_toNat_le.mp h
  have hvalue : Hex.value (Char.ofNat lead.toNat) = none := by
    have hlead := hall ⟨lead.toNat - 0xc0, by have := lead.toNat_lt; omega⟩
    rwa [Nat.sub_add_cancel hle] at hlead
  have hne : lead ≠ 43 := by
    rintro rfl
    simp at hle
  unfold fromStrRadix
  simp only [hvalue, if_neg hne]

theorem fromHex_double {lead second : UInt8} (hlead : 0xc0 ≤ lead) (text : List Char)
    : fromHex (lead :: second :: text.flatMap String.utf8EncodeChar) = some none := by
  rw [fromHex, head?_utf8, isContinuation_of_lead hlead, Bool.or_false, if_neg Bool.false_ne_true,
    fromStrRadix_of_lead hlead]

inductive FromHexCase (text : List Char) : Option (Option Bytes) → Prop where
  | reads {bytes : Bytes} (h : Reads text bytes) : FromHexCase text (some (some bytes))
  | cuts (h : CutsAfterPairs text) : FromHexCase text none
  | wrong : FromHexCase text (some none)

theorem fromHexCase_of_cuts (h : Cuts text)
    : FromHexCase text (fromHex (text.flatMap String.utf8EncodeChar)) := by
  rw [fromHex_of_cuts h]
  exact .cuts ⟨[], [], text, rfl, .nil, h⟩

theorem fromHexCase_of_double (h : a.utf8Size = 2) (text : List Char)
    : FromHexCase (a :: text) (fromHex ((a :: text).flatMap String.utf8EncodeChar)) := by
  rw [List.flatMap_cons]
  cases charBytes a with
  | single hsize _ _ => omega
  | double _ _ _ hbytes hlead _ =>
    rw [hbytes, List.cons_append, List.cons_append, List.nil_append, fromHex_double hlead]
    exact .wrong
  | long _ _ _ _ hsize _ _ _ _ => omega

theorem FromHexCase.cons (ha : a.toNat < 0x80) (hb : b.toNat < 0x80)
    (h : FromHexCase text (fromHex (text.flatMap String.utf8EncodeChar)))
    : FromHexCase (a :: b :: text) (fromHex ((a :: b :: text).flatMap String.utf8EncodeChar)) := by
  cases hpair : fromStrRadix (UInt8.ofNat a.toNat) (UInt8.ofNat b.toNat) with
  | none =>
    rw [fromHex_pair_none ha hb hpair]
    exact .wrong
  | some byte =>
    have hreads : ∀ {front bytes}, Reads front bytes → Reads (a :: b :: front) (byte :: bytes) := by
      intro front bytes hfront
      rcases (fromStrRadix_eq_some_iff ha hb).mp hpair with ⟨x, y, hx, hy, rfl⟩ | ⟨rfl, y, hy, rfl⟩
      . exact .digits hx hy hfront
      . exact .plus hy hfront
    rw [fromHex_pair_some ha hb hpair]
    generalize fromHex (text.flatMap String.utf8EncodeChar) = read at h ⊢
    cases h with
    | reads h => exact .reads (hreads h)
    | cuts h =>
      obtain ⟨front, bytes, rest, rfl, hfront, hcuts⟩ := h
      exact .cuts ⟨a :: b :: front, byte :: bytes, rest, rfl, hreads hfront, hcuts⟩
    | wrong => exact .wrong

theorem fromHex_cases (text : List Char) (heven : 2 ∣ (text.flatMap String.utf8EncodeChar).length)
    : FromHexCase text (fromHex (text.flatMap String.utf8EncodeChar)) := by
  induction text using List.twoStepInduction with
  | nil => exact .reads .nil
  | singleton a =>
    cases charBytes a with
    | single _ _ hbytes =>
      rw [List.flatMap_singleton, hbytes] at heven
      simp at heven
    | double _ _ hsize _ _ _ => exact fromHexCase_of_double hsize []
    | long _ _ _ _ hsize _ _ _ _ => exact fromHexCase_of_cuts (.first hsize)
  | cons_cons a b text ih _ =>
    cases charBytes a with
    | single hsize ha hbytes =>
      cases charBytes b with
      | single _ hb hbytes' =>
        refine (ih ?_).cons ha hb
        rw [utf8_pair ha hb, List.length_cons, List.length_cons] at heven
        omega
      | double _ _ hsize' _ _ _ => exact fromHexCase_of_cuts (.second hsize (by omega))
      | long _ _ _ _ hsize' _ _ _ _ => exact fromHexCase_of_cuts (.second hsize (by omega))
    | double _ _ hsize _ _ _ => exact fromHexCase_of_double hsize (b :: text)
    | long _ _ _ _ hsize _ _ _ _ => exact fromHexCase_of_cuts (.first hsize)

theorem Reads.length_utf8 (h : Reads text bytes)
    : (text.flatMap String.utf8EncodeChar).length = 2 * bytes.length := by
  induction h with
  | nil => rfl
  | digits ha hb _ ih =>
    rw [utf8_pair (toNat_lt_of_value ha) (toNat_lt_of_value hb), List.length_cons, List.length_cons, ih,
      List.length_cons]
    omega
  | plus hb _ ih =>
    rw [utf8_pair (by decide) (toNat_lt_of_value hb), List.length_cons, List.length_cons, ih,
      List.length_cons]
    omega

theorem Reads.fromHex (h : Reads text bytes)
    : fromHex (text.flatMap String.utf8EncodeChar) = some (some bytes) := by
  rw [← List.append_nil text, fromHex_append h]
  simp [Uapi.fromHex]

theorem decodeChars_eq_some_iff
    : Hex.decodeChars text = some bytes ↔ Reads text bytes ∧ '+' ∉ text := by
  constructor
  . intro h
    induction text using List.twoStepInduction generalizing bytes with
    | nil =>
      cases h
      exact ⟨.nil, List.not_mem_nil⟩
    | singleton => cases h
    | cons_cons hi lo rest ih _ =>
      rw [Hex.decodeChars] at h
      split at h
      . next x y tail hx hy htail =>
        cases h
        obtain ⟨hreads, hplus⟩ := ih htail
        refine ⟨.digits hx hy hreads, ?_⟩
        simp only [List.mem_cons, not_or]
        refine ⟨?_, ?_, hplus⟩
        . rintro rfl
          cases value_plus.symm.trans hx
        . rintro rfl
          cases value_plus.symm.trans hy
      . cases h
  . rintro ⟨h, hplus⟩
    induction h with
    | nil => rfl
    | digits ha hb _ ih =>
      simp only [List.mem_cons, not_or] at hplus
      rw [Hex.decodeChars, ha, hb, ih hplus.2.2]
    | plus _ _ _ => exact absurd List.mem_cons_self hplus

end Pairs

section Key

def Spells (F : TextFormat) (s : List Char) (key : FixedBytes 32) : Prop :=
  Hex.decodeChars s = some key.val
    ∨
  (((s.flatMap String.utf8EncodeChar).length = 43 ∨ (s.flatMap String.utf8EncodeChar).length = 44)
    ∧ F.base64Decode s = some key.val)

/--
The text is read without a panic, as the key that it spells if it spells one.
-/
def ReadAsSpelled (F : TextFormat) (s : List Char) : Prop :=
  (∃ r, keyBytes F s = some r) ∧ ∀ key, keyBytes F s = some (some key) ↔ Spells F s key

/--
What goes wrong: a character is cut, a plus sign stands for a digit or what is not base64 is taken for
the zero key.
-/
inductive Misread (F : TextFormat) (s : List Char) : Prop where
  | cuts (hlength : (s.flatMap String.utf8EncodeChar).length = 64) (h : CutsAfterPairs s)
  | plus {key : FixedBytes 32} (h : Reads s key.val) (hplus : '+' ∈ s)
  | base64
    (hlength : (s.flatMap String.utf8EncodeChar).length = 43
      ∨ (s.flatMap String.utf8EncodeChar).length = 44)
    (h : F.base64Decode s = none)

inductive KeyBytesCase (F : TextFormat) (s : List Char) : Option (Option (FixedBytes 32)) → Prop where
  | hex {key : FixedBytes 32} (h : Reads s key.val) : KeyBytesCase F s (some (some key))
  | cuts (hlength : (s.flatMap String.utf8EncodeChar).length = 64) (h : CutsAfterPairs s)
    : KeyBytesCase F s none
  | base64 {key : FixedBytes 32}
    (hlength : (s.flatMap String.utf8EncodeChar).length = 43
      ∨ (s.flatMap String.utf8EncodeChar).length = 44)
    (h : F.base64Decode s = some key.val) : KeyBytesCase F s (some (some key))
  | undecoded
    (hlength : (s.flatMap String.utf8EncodeChar).length = 43
      ∨ (s.flatMap String.utf8EncodeChar).length = 44)
    (h : F.base64Decode s = none) : KeyBytesCase F s (some (some (.zero 32)))
  | illegal : KeyBytesCase F s (some none)

variable {F : TextFormat} {s : List Char} {key : FixedBytes 32}

theorem keyBytes_cases (F : TextFormat) (s : List Char) : KeyBytesCase F s (keyBytes F s) := by
  unfold keyBytes
  dsimp only
  split
  . next hlength =>
    have hcase := fromHex_cases s (by rw [hlength]; decide)
    generalize fromHex (s.flatMap String.utf8EncodeChar) = read at hcase
    cases hcase with
    | @reads bytes h =>
      have hbytes : bytes.length = 32 := by
        have := h.length_utf8
        omega
      rw [Option.map_some, Option.map_some, FixedBytes.ofBytes_val ⟨bytes, hbytes⟩]
      exact .hex h
    | cuts h => exact .cuts hlength h
    | wrong => exact .illegal
  . split
    . next hlength =>
      split
      . next key hdecode =>
        split
        . next h => exact @KeyBytesCase.base64 F s ⟨key, h⟩ hlength hdecode
        . exact .illegal
      . next hdecode => exact .undecoded hlength hdecode
    . exact .illegal

theorem Reads.length_utf8_key (h : Reads s key.val) : (s.flatMap String.utf8EncodeChar).length = 64 := by
  rw [h.length_utf8, key.property]

theorem keyBytes_of_reads (F : TextFormat) (h : Reads s key.val) : keyBytes F s = some (some key) := by
  unfold keyBytes
  rw [if_pos h.length_utf8_key, h.fromHex, Option.map_some, Option.map_some, FixedBytes.ofBytes_val]

theorem keyBytes_of_cuts (F : TextFormat) (hlength : (s.flatMap String.utf8EncodeChar).length = 64)
    (h : CutsAfterPairs s)
    : keyBytes F s = none := by
  obtain ⟨front, bytes, rest, rfl, hfront, hcuts⟩ := h
  unfold keyBytes
  rw [if_pos hlength, fromHex_append hfront, fromHex_of_cuts hcuts]
  rfl

section Base64

variable
  (hlength : (s.flatMap String.utf8EncodeChar).length = 43
    ∨ (s.flatMap String.utf8EncodeChar).length = 44)
include hlength

theorem keyBytes_of_base64 (h : F.base64Decode s = some key.val)
    : keyBytes F s = some (some key) := by
  unfold keyBytes
  rw [if_neg (by omega), if_pos hlength, h]
  dsimp only
  rw [dif_pos key.property]
  rfl

theorem keyBytes_of_undecoded (h : F.base64Decode s = none)
    : keyBytes F s = some (some (.zero 32)) := by
  unfold keyBytes
  rw [if_neg (by omega), if_pos hlength, h]

end Base64

theorem keyBytes_of_spells (h : Spells F s key) : keyBytes F s = some (some key) := by
  rcases h with hhex | ⟨hlength, hbase64⟩
  . exact keyBytes_of_reads F (decodeChars_eq_some_iff.mp hhex).1
  . exact keyBytes_of_base64 hlength hbase64

theorem spells_hex (F : TextFormat) (key : FixedBytes 32) : Spells F (hex key.val) key :=
  .inl (Hex.decode_encode key.val)

theorem keyBytes_hex (F : TextFormat) (key : FixedBytes 32)
    : keyBytes F (hex key.val) = some (some key) :=
  keyBytes_of_spells (spells_hex F key)

theorem Misread.not_readAsSpelled (h : Misread F s) : ¬ReadAsSpelled F s := by
  rintro ⟨⟨r, hr⟩, hkeys⟩
  cases h with
  | cuts hlength h =>
    rw [keyBytes_of_cuts F hlength h] at hr
    cases hr
  | plus h hplus =>
    rcases (hkeys _).mp (keyBytes_of_reads F h) with hhex | ⟨hlength, _⟩
    . exact (decodeChars_eq_some_iff.mp hhex).2 hplus
    . have := h.length_utf8_key
      omega
  | base64 hlength h =>
    rcases (hkeys _).mp (keyBytes_of_undecoded hlength h) with hhex | ⟨_, hbase64⟩
    . have := (decodeChars_eq_some_iff.mp hhex).1.length_utf8_key
      omega
    . rw [h] at hbase64
      cases hbase64

theorem readAsSpelled_of_not_misread (h : ¬Misread F s) : ReadAsSpelled F s := by
  have hspells : ∀ key, keyBytes F s = some (some key) → Spells F s key := by
    intro key hkey
    have hcase := keyBytes_cases F s
    rw [hkey] at hcase
    cases hcase with
    | hex hreads =>
      by_cases hplus : '+' ∈ s
      . exact absurd (.plus hreads hplus) h
      . exact .inl (decodeChars_eq_some_iff.mpr ⟨hreads, hplus⟩)
    | base64 hlength hbase64 => exact .inr ⟨hlength, hbase64⟩
    | undecoded hlength hdecode => exact absurd (.base64 hlength hdecode) h
  refine ⟨?_, fun key => ⟨hspells key, keyBytes_of_spells⟩⟩
  have hcase := keyBytes_cases F s
  cases hread : keyBytes F s with
  | some r => exact ⟨r, rfl⟩
  | none =>
    rw [hread] at hcase
    cases hcase with
    | cuts hlength hcuts => exact absurd (.cuts hlength hcuts) h

/--
A text is read as the key it spells unless it is one of those that are misread. The key that a text
spells is always the one that is read, so that the digits of a key are read as this key.
-/
theorem readAsSpelled_iff (F : TextFormat) (s : List Char)
    : (ReadAsSpelled F s ↔ ¬Misread F s)
        ∧
      (∀ key, Spells F s key → keyBytes F s = some (some key))
        ∧
      ∀ key, Spells F (hex key.val) key ∧ keyBytes F (hex key.val) = some (some key) := by
  refine ⟨⟨fun hread hmisread => hmisread.not_readAsSpelled hread, readAsSpelled_of_not_misread⟩,
    fun key => keyBytes_of_spells, ?_⟩
  intro key
  exact ⟨spells_hex F key, keyBytes_hex F key⟩

/--
A text whose third byte continues a character panics. A plus sign in front of a digit is read as a
zero. A text that the base64 crate does not decode is the zero key.
-/
theorem exists_key_misread
    : (∀ F, keyBytes F ('0' :: 'é' :: List.replicate 61 '0') = none)
        ∧
      (∀ F, keyBytes F ('+' :: '1' :: List.replicate 62 '0') = some (some (.ofBytes 32 [1])))
        ∧
      Hex.decodeChars ('+' :: '1' :: List.replicate 62 '0') = none
        ∧
      ∀ F : TextFormat, F.base64Decode (List.replicate 44 '!') = none →
        keyBytes F (List.replicate 44 '!') = some (some (.zero 32)) := by
  have hzeros : ∀ n, Reads (List.replicate (2 * n) '0') (List.replicate n 0) := by
    intro n
    induction n with
    | zero => exact .nil
    | succ n ih => exact .digits (x := 0) (y := 0) (a := '0') (b := '0') (by decide) (by decide) ih
  refine ⟨?_, ?_, ?_, ?_⟩
  . intro F
    exact keyBytes_of_cuts F (by decide) ⟨[], [], _, rfl, .nil, .second (by decide) (by decide)⟩
  . intro F
    exact keyBytes_of_reads F (.plus (by decide) (hzeros 31))
  . decide
  . intro F
    exact keyBytes_of_undecoded (.inr (by decide))

end Key

end Uapi

end Device
