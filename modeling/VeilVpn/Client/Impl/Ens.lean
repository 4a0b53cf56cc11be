import VeilVpn.Json
import VeilVpn.Lines
import VeilVpn.Text

/-!
This module contains how the desktop client looks up the text records of a VPN node in the Ethereum
Name Service.
-/

namespace Client
namespace Ens

open Text (utf8)

def ensUniversalResolver : String :=
  "0xeeeeeeee14d718c2b47d9923deab1335e144eeee"

/--
How the client is compiled. A sum that does not fit a `usize` panics in a debug build and wraps in a
release build.
-/
inductive Profile where
  | debug
  | release

def Profile.add (P : Profile) (a b : Nat) : Option Nat :=
  if a + b < 2 ^ 64 then
    some (a + b)
  else
    match P with
    | .debug => none
    | .release => some ((a + b) % 2 ^ 64)

/--
What the client takes from the standard library to read texts. Only what is not UTF-8 is replaced,
and never by nothing.
-/
structure Lossy where
  fromUtf8Lossy : Bytes → List Char
  fromUtf8Lossy_utf8 : ∀ s, fromUtf8Lossy (utf8 s) = s
  eq_nil_of_fromUtf8Lossy : ∀ b, fromUtf8Lossy b = [] → b = []

section Encoding

variable (keccak256 : Bytes → FixedBytes 32)

def namehash (name : List Char) : FixedBytes 32 :=
  if name.isEmpty then
    .zero 32
  else
    let step := fun (node : FixedBytes 32) label =>
      keccak256 (node.val ++ (keccak256 (utf8 label)).val)
    (name.splitOn '.').reverse.foldl step (.zero 32)

def dnsEncode (name : List Char) : Bytes :=
  (name.splitOn '.').flatMap (fun label => UInt8.ofNat (utf8 label).length :: utf8 label) ++ [0]

def uint256 (val : Nat) : Bytes :=
  List.replicate 24 0 ++ Bytes.beBytes 8 val

def ceil32 (n : Nat) : Nat :=
  ((n + 31) / 32) * 32

def pad32Vec (buf : Bytes) : Bytes :=
  let rem := buf.length % 32
  if rem ≠ 0 then
    buf ++ List.replicate (32 - rem) 0
  else
    buf

def textCall (name key : List Char) : Bytes :=
  let node := namehash keccak256 name
  pad32Vec <|
    [0x59, 0xd1, 0xd4, 0x3c] ++ (node.val ++ (uint256 64 ++ (uint256 (utf8 key).length ++ utf8 key)))

def calldata (name key : List Char) : Bytes :=
  let dnsName := dnsEncode name
  let textCall := textCall keccak256 name key
  let dnsLen := dnsName.length
  let dnsPadded := ceil32 dnsLen
  let textLen := textCall.length
  let textPadded := ceil32 textLen
  -- Offsets: first bytes at 0x40, second bytes at 0x40 + 0x20 + dns_padded
  let firstOffset := 64
  let secondOffset := firstOffset + 32 + dnsPadded
  [0x90, 0x61, 0xb9, 0x23] ++ (uint256 firstOffset ++ (uint256 secondOffset
    ++ (uint256 dnsLen ++ (dnsName ++ (List.replicate (dnsPadded - dnsLen) 0
    ++ (uint256 textLen ++ (textCall ++ List.replicate (textPadded - textLen) 0)))))))

def rpcBody (calldata : Bytes) : Json :=
  .object [
    ("jsonrpc", .string "2.0"),
    ("method", .string "eth_call"),
    ("params", .array [
      .object [
        ("to", .string ensUniversalResolver),
        ("data", .string ("0x" ++ Hex.encode calldata))
      ],
      .string "latest"
    ]),
    ("id", .number "1")
  ]

end Encoding

section Decoding

variable (P : Profile) (U : Lossy)

def readUsize (bytes : Bytes) : Nat :=
  if bytes.length < 32 then 0 else (bytes.slice 24 32).beNat

/--
The bytes that the first word of `bytes` points at. `decode_resolve_text_result` takes this step
twice, and returns the empty text if there are none. A panic is `none`.
-/
def pointedBytes (bytes : Bytes) : Option (Option Bytes) :=
  if bytes.length < 64 then
    some none
  else do
    let offset := readUsize (← bytes.index 0 32)
    let start ← P.add offset 32
    if start > bytes.length then
      some none
    else
      let len := readUsize (← bytes.index offset start)
      if len = 0 then
        some none
      else
        let stop ← P.add start len
        if stop > bytes.length then
          some none
        else
          (bytes.index start stop).map some

def decodeResolveTextResult (bytes : Bytes) : Option (Except String (List Char)) := do
  match ← pointedBytes P bytes with
  | none => some (.ok [])
  | some inner =>
    -- inner = ABI-encoded (string): offset(32) + length(32) + data
    match ← pointedBytes P inner with
    | none => some (.ok [])
    | some text => some (.ok (U.fromUtf8Lossy text))

/--
What `get_ens_text` makes of the answer of the RPC node. Its beginning is cut off only if it is
logged.
-/
def decodeResponse (logs : Bool) (resp : Json) : Option (Except String (List Char)) :=
  if (resp.get "error").isSome then
    some (.ok [])
  else
    let resultHex := (((resp.get "result").bind Json.asStr).getD "0x").toList
    let len := (utf8 resultHex).length
    if logs && !Text.isCharBoundary resultHex (min len 100) then
      none
    else if resultHex = "0x".toList ∨ len < 10 then
      some (.ok [])
    else
      match Hex.decodeChars ((Lines.afterFront "0x".toList resultHex).getD resultHex) with
      | none => some (.error "hex decode failed")
      | some bytes => decodeResolveTextResult P U bytes

end Decoding

/--
The client and what it sends its requests to. `post` is the answer to the body of a request.
-/
structure Env where
  profile : Profile
  lossy : Lossy
  keccak256 : Bytes → FixedBytes 32
  logs : Bool
  post : Json → Except String Json

def getEnsText (env : Env) (name key : List Char) : Option (Except String (List Char)) :=
  match env.post (rpcBody (calldata env.keccak256 name key)) with
  | .error e => some (.error e)
  | .ok resp => decodeResponse env.profile env.lossy env.logs resp

structure VpnNodeInfo where
  ensName : List Char
  isHuman : Bool
  endpoint : List Char
  http : List Char
  publicKey : List Char
  metadata : List Char
  deriving DecidableEq

/--
A record of the node. One that cannot be read is empty.
-/
def record (env : Env) (ensName : List Char) (key : String) : Option (List Char) :=
  (getEnsText env ensName key.toList).map fun result =>
    match result with
    | .ok val => val
    | .error _ => []

def resolveVpnNode (env : Env) (ensName : List Char) : Option (Except String VpnNodeInfo) := do
  let isHuman ← record env ensName "vpn.ishuman"
  let publicKey ← record env ensName "vpn.publickey"
  let endpoint ← record env ensName "vpn.endpoint"
  let http ← record env ensName "vpn.http"
  let metadata ← record env ensName "vpn.metadata"
  if endpoint.isEmpty && http.isEmpty then
    some (.error ("No VPN records found for " ++ String.ofList ensName))
  else
    some <| .ok {
      ensName := ensName
      isHuman := isHuman = "true".toList ∨ isHuman = "1".toList
      publicKey := publicKey
      endpoint := endpoint
      http := http
      metadata := metadata
    }

end Ens
end Client
