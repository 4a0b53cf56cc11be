import VeilVpn.Device.Impl.Uapi

namespace Device

namespace Uapi

section Hex

theorem isHexDigit_of_mem_hex {b : Bytes} {c : Char} (h : c ∈ hex b) : ∃ n < 16, c = Hex.digit n := by
  rw [hex, Hex.encode, String.toList_ofList, List.mem_flatMap] at h
  obtain ⟨byte, _, hc⟩ := h
  have hlt := byte.toNat_lt
  simp only [Hex.encodeByte, List.mem_cons, List.not_mem_nil, or_false] at hc
  rcases hc with rfl | rfl
  . exact ⟨_, by omega, rfl⟩
  . exact ⟨_, by omega, rfl⟩

theorem notMem_hex {c : Char} (hc : ∀ n : Fin 16, c ≠ Hex.digit n.val) (b : Bytes) : c ∉ hex b := by
  intro h
  obtain ⟨n, hn, hdigit⟩ := isHexDigit_of_mem_hex h
  exact hc ⟨n, hn⟩ hdigit

end Hex

section Read

variable {C : Primitives} {F : TextFormat} {envs : Nat → ApiEnv} {d : Device} {n : Nat}
  {lines rest : List (List Char)} {val line : List Char} {key : FixedBytes 32}

theorem apiHandler_set (hlines : ∀ line ∈ lines, '\n' ∉ line) (order : HashMap.Iteration d.peers)
    : apiHandler C F envs d order (Lines.write ("set=1".toList :: lines))
        =
      (apiSet C F envs d 0 (lines.map (· ++ ['\n']))).map fun (d, status) => (d, trailer status) := by
  have hread : Lines.read (Lines.write ("set=1".toList :: lines))
      = "set=1\n".toList :: lines.map (· ++ ['\n']) := by
    have hall : ∀ line ∈ "set=1".toList :: lines, '\n' ∉ line := by
      rw [List.forall_mem_cons]
      exact ⟨by decide, hlines⟩
    have hread := Lines.read_write hall []
    rw [List.append_nil] at hread
    rw [hread]
    simp [Lines.read]
  unfold apiHandler
  rw [hread]
  rfl

theorem apiSet_publicKey (hkey : keyBytes F val = some (some key)) (hval : '=' ∉ val)
    : apiSet C F envs d n ((field "public_key" val ++ ['\n']) :: rest)
        =
      apiSetPeer C F envs d (.new key) n rest := by
  have hsplit : (field "public_key" val).splitOn '=' = ["public_key".toList, val] :=
    Lines.splitOn_append (by decide) hval
  have hne : (field "public_key" val).isEmpty = false := by simp [field]
  rw [apiSet, List.dropLast_concat]
  simp only [hne, Bool.false_eq_true, if_false, hsplit, String.ofList_toList, hkey]

theorem parseAllowedIp_v4 (F : TextFormat) (ip : Ipv4Addr)
    : parseAllowedIp F (F.displayIp (.v4 ip) ++ "/32".toList)
        = some ⟨.v4 ip, 32, Nat.le_refl 32⟩ := by
  have hsplit : (F.displayIp (.v4 ip) ++ "/32".toList).splitOn '/' = [F.displayIp (.v4 ip), "32".toList] := by
    apply Lines.splitOn_append _ (by decide)
    exact fun h => (F.printable_displayIp _ _ h).2.2 rfl
  have hcidr : Decimal.parseBelow (2 ^ 8) "32".toList = some 32 := by decide
  rw [parseAllowedIp, hsplit]
  simp only [F.parse_displayIp, hcidr]
  rfl

theorem parsePeerLine_allowedIp (F : TextFormat) (ip : Ipv4Addr)
    : parsePeerLine F (field "allowed_ip" (F.displayIp (.v4 ip) ++ "/32".toList))
        = some (.ok (.option (.allowedIp ⟨.v4 ip, 32, Nat.le_refl 32⟩))) := by
  rw [parsePeerLine, field, Lines.splitOnce_append (by decide)]
  simp only [String.ofList_toList, parseAllowedIp_v4]
  rfl

theorem apiSetPeer_option {o : PeerOption} (h : parsePeerLine F line = some (.ok (.option o)))
    (s : PeerSettings)
    : apiSetPeer C F envs d s n ((line ++ ['\n']) :: rest)
        =
      apiSetPeer C F envs d (s.apply o) n rest := by
  have hne : line.isEmpty = false := by
    cases line with
    | nil => simp [parsePeerLine, Lines.splitOnce] at h
    | cons _ _ => rfl
  rw [apiSetPeer, List.dropLast_concat]
  simp only [hne, Bool.false_eq_true, if_false, h]

theorem apiSetPeer_publicKey (hkey : keyBytes F val = some (some key)) (s : PeerSettings)
    : apiSetPeer C F envs d s n ((field "public_key" val ++ ['\n']) :: rest)
        =
      (commit C d s (envs n).env).bind fun d =>
        apiSetPeer C F envs d { s with publicKey := key, allowedIps := [] } (n + 1) rest := by
  have hparse : parsePeerLine F (field "public_key" val) = some (.ok (.publicKey val)) := by
    rw [parsePeerLine, field, Lines.splitOnce_append (by decide)]
    simp only [String.ofList_toList]
  have hne : (field "public_key" val).isEmpty = false := by simp [field]
  rw [apiSetPeer, List.dropLast_concat]
  simp only [hne, Bool.false_eq_true, if_false, hparse]
  cases commit C d s (envs n).env with
  | none => rfl
  | some d => simp only [hkey, Option.bind_some]

theorem apiSetPeer_end (s : PeerSettings)
    : apiSetPeer C F envs d s n (['\n'] :: rest)
        =
      (commit C d s (envs n).env).map fun d => (d, .success) := by
  rw [apiSetPeer]
  rfl

end Read

end Uapi

namespace Sample

open Uapi (hex notMem_hex)

/--
The numbers of an address, with a separator between them.
-/
def displayNumbers {α : Type} (separator : Char) (display : α → List Char) (numbers : List α)
    : List Char :=
  [separator].intercalate (numbers.map display)

def parseNumbers {α : Type} (separator : Char) (parse : List Char → Option α) (s : List Char)
    : Option (List α) :=
  (s.splitOn separator).mapM parse

section Numbers

variable {α : Type} {separator : Char} {display : α → List Char} {parse : List Char → Option α}

theorem parseNumbers_displayNumbers (hseparator : ∀ a, separator ∉ display a)
    (hparse : ∀ a, parse (display a) = some a) {numbers : List α} (hne : numbers ≠ [])
    : parseNumbers separator parse (displayNumbers separator display numbers) = some numbers := by
  have hall : (numbers.map display).mapM parse = some numbers := by
    clear hne
    induction numbers with
    | nil => rfl
    | cons a numbers ih =>
      rw [List.map_cons, List.mapM_cons, hparse, ih]
      rfl
  rw [parseNumbers, displayNumbers, List.splitOn_intercalate _ _ (by simpa using hne), hall]
  rw [List.forall_mem_map]
  exact fun a _ => hseparator a

theorem mem_displayNumbers {numbers : List α} {c : Char}
    (h : c ∈ displayNumbers separator display numbers)
    : c = separator ∨ ∃ a, c ∈ display a := by
  induction numbers with
  | nil => simp [displayNumbers] at h
  | cons a numbers ih =>
    cases numbers with
    | nil => exact .inr ⟨a, by simpa [displayNumbers] using h⟩
    | cons b numbers =>
      rw [displayNumbers, List.map_cons, List.map_cons, List.intercalate_cons_cons, List.append_assoc,
        List.mem_append, List.mem_append, List.mem_singleton] at h
      rcases h with hmem | heq | hmem
      . exact .inr ⟨a, hmem⟩
      . exact .inl heq
      . exact ih hmem

end Numbers

/--
The groups of an IPv6 address are displayed with all of their zeros.
-/
def displayIp : IpAddr → List Char
  | .v4 addr => displayNumbers '.' (fun byte : UInt8 => Decimal.display byte.toNat) addr.val
  | .v6 addr =>
    displayNumbers ':' hex ((List.range 8).map fun i => addr.val.slice (2 * i) (2 * i + 2))

def parseIp (s : List Char) : Option IpAddr :=
  if '.' ∈ s then
    match parseNumbers '.' (fun part => (Decimal.parseBelow 256 part).map UInt8.ofNat) s with
    | none => none
    | some b => if h : b.length = 4 then some (.v4 ⟨b, h⟩) else none
  else
    match parseNumbers ':' Hex.decodeChars s with
    | none => none
    | some groups => if h : groups.flatten.length = 16 then some (.v6 ⟨groups.flatten, h⟩) else none

theorem notMem_displayIp {c : Char} (hdot : c ≠ '.') (hcolon : c ≠ ':') (hdigit : c.isDigit = false)
    (hhex : ∀ n : Fin 16, c ≠ Hex.digit n.val) (ip : IpAddr)
    : c ∉ displayIp ip := by
  intro h
  cases ip with
  | v4 addr =>
    rcases mem_displayNumbers h with heq | ⟨_, hmem⟩
    . exact hdot heq
    . exact Decimal.notMem_display hdigit _ hmem
  | v6 addr =>
    rcases mem_displayNumbers h with heq | ⟨_, hmem⟩
    . exact hcolon heq
    . exact notMem_hex hhex _ hmem

theorem parseIp_v4 (addr : Ipv4Addr) : parseIp (displayIp (.v4 addr)) = some (.v4 addr) := by
  obtain ⟨numbers, hlength⟩ := addr
  have hnumbers : parseNumbers '.' (fun part => (Decimal.parseBelow 256 part).map UInt8.ofNat)
      (displayNumbers '.' (fun byte : UInt8 => Decimal.display byte.toNat) numbers)
        = some numbers := by
    apply parseNumbers_displayNumbers
    . exact fun byte => Decimal.notMem_display (by decide) _
    . intro byte
      rw [Decimal.parseBelow_display byte.toNat_lt, Option.map_some, UInt8.ofNat_toNat]
    . rintro rfl
      simp at hlength
  have hmem : '.' ∈ displayNumbers '.' (fun byte : UInt8 => Decimal.display byte.toNat) numbers := by
    match numbers, hlength with
    | _ :: _ :: _, _ => simp [displayNumbers]
  simp only [parseIp, displayIp, if_pos hmem, hnumbers, dif_pos hlength]

theorem flatten_groups (addr : Ipv6Addr)
    : ((List.range 8).map fun i => addr.val.slice (2 * i) (2 * i + 2)).flatten = addr.val := by
  have hall : addr.val.slice 0 16 = addr.val := by
    rw [Bytes.slice, List.drop_zero, List.take_of_length_le (Nat.le_of_eq addr.property)]
  simp only [List.range, List.range.loop, List.map_cons, List.map_nil, List.flatten_cons,
    List.flatten_nil, List.append_nil, Nat.reduceMul, Nat.reduceAdd]
  simp (disch := decide) only [Bytes.slice_append_slice, hall]

theorem parseIp_v6 (addr : Ipv6Addr) : parseIp (displayIp (.v6 addr)) = some (.v6 addr) := by
  have hgroups : parseNumbers ':' Hex.decodeChars (displayIp (.v6 addr))
      = some ((List.range 8).map fun i => addr.val.slice (2 * i) (2 * i + 2)) :=
    parseNumbers_displayNumbers (notMem_hex (by decide)) Hex.decode_encode (by simp)
  have hmem : '.' ∉ displayIp (.v6 addr) := by
    intro h
    rcases mem_displayNumbers h with heq | ⟨_, hhex⟩
    . cases heq
    . exact notMem_hex (by decide) _ hhex
  simp only [parseIp, if_neg hmem, hgroups, flatten_groups, dif_pos addr.property]
  rfl

def parseSocketAddr (s : List Char) : Option SocketAddr :=
  let parts :=
    match s with
    | '[' :: rest => (Lines.splitOnce ']' rest).map fun (ip, port) => (ip, port.drop 1)
    | _ => Lines.splitOnce ':' s
  match parts with
  | none => none
  | some (ip, port) =>
    match parseIp ip, Decimal.parseBelow (2 ^ 16) port with
    | some ip, some port => some ⟨ip, UInt16.ofNat port⟩
    | _, _ => none

def displaySocketAddr (addr : SocketAddr) : List Char :=
  match addr.ip with
  | .v4 _ => displayIp addr.ip ++ ':' :: Decimal.display addr.port.toNat
  | .v6 _ => '[' :: displayIp addr.ip ++ ']' :: ':' :: Decimal.display addr.port.toNat

theorem notMem_displaySocketAddr {c : Char} (hip : ∀ ip, c ∉ displayIp ip)
    (hdigit : c.isDigit = false) (hbrackets : c ∉ ['[', ']', ':']) (addr : SocketAddr)
    : c ∉ displaySocketAddr addr := by
  have hport : c ∉ Decimal.display addr.port.toNat := Decimal.notMem_display hdigit _
  simp only [List.mem_cons, List.not_mem_nil, or_false, not_or] at hbrackets
  unfold displaySocketAddr
  split
  . simp [hip, hport, hbrackets]
  . simp [hip, hport, hbrackets]

def textFormat : Uapi.TextFormat where
  base64Decode := Radix64.decodeChars
  displayIp
  parseIp
  displaySocketAddr
  parseSocketAddr
  parse_displayIp := by
    rintro (addr | addr)
    . exact parseIp_v4 addr
    . exact parseIp_v6 addr
  printable_displayIp := by
    intro ip c hc
    refine ⟨?_, ?_, ?_⟩ <;> rintro rfl <;>
      exact notMem_displayIp (by decide) (by decide) (by decide) (by decide) ip hc
  printable_displaySocketAddr := by
    intro addr c hc
    constructor <;> rintro rfl <;>
      exact notMem_displaySocketAddr
        (notMem_displayIp (by decide) (by decide) (by decide) (by decide)) (by decide) (by decide)
        addr hc

end Sample

end Device
