import VeilVpn.Net

/-!
This module contains the four kinds of messages that the tunnel receives from the network and the
parser that tells them apart.
-/

namespace Noise

inductive WireGuardError where
  | destinationBufferTooSmall
  | incorrectPacketLength
  | unexpectedPacket
  | wrongPacketType
  | wrongIndex
  | wrongKey
  | invalidTai64nTimestamp
  | wrongTai64nTimestamp
  | invalidMac
  | invalidAeadTag
  | invalidCounter
  | duplicateCounter
  | invalidPacket
  | noCurrentSession
  | lockFailed
  | connectionExpired
  | underLoad
  deriving DecidableEq

inductive TunnResult where
  | done
  | err (e : WireGuardError)
  | writeToNetwork (datagram : Bytes)
  | writeToTunnelV4 (packet : Bytes) (src : Ipv4Addr)
  | writeToTunnelV6 (packet : Bytes) (src : Ipv6Addr)
  deriving DecidableEq

structure HandshakeInit where
  senderIdx : UInt32
  unencryptedEphemeral : FixedBytes 32
  encryptedStatic : FixedBytes 48
  encryptedTimestamp : FixedBytes 28

structure HandshakeResponse where
  senderIdx : UInt32
  receiverIdx : UInt32
  unencryptedEphemeral : FixedBytes 32
  encryptedNothing : FixedBytes 16

structure PacketCookieReply where
  receiverIdx : UInt32
  nonce : FixedBytes 24
  encryptedCookie : FixedBytes 32

structure PacketData where
  receiverIdx : UInt32
  counter : UInt64
  encryptedEncapsulatedPacket : Bytes

inductive Packet where
  | handshakeInit (p : HandshakeInit)
  | handshakeResponse (p : HandshakeResponse)
  | packetCookieReply (p : PacketCookieReply)
  | packetData (p : PacketData)

def handshakeInitType : Nat := 1

def handshakeRespType : Nat := 2

def cookieReplyType : Nat := 3

def dataType : Nat := 4

def handshakeInitSz : Nat := 148

def handshakeRespSz : Nat := 92

def cookieReplySz : Nat := 64

def dataOverheadSz : Nat := 32

def u32Le (src : Bytes) (start : Nat) : UInt32 :=
  UInt32.ofNat (src.slice start (start + 4)).leNat

def parseIncomingPacket (src : Bytes) : Except WireGuardError Packet :=
  if src.length < 4 then
    .error .invalidPacket
  else
    -- The reserved zero fields are part of the type
    let packetType := (src.slice 0 4).leNat
    if h : packetType = handshakeInitType ∧ src.length = handshakeInitSz then
      .ok <| .handshakeInit {
        senderIdx := u32Le src 4
        unencryptedEphemeral := .slice src 8 32 (by simp [h.2, handshakeInitSz])
        encryptedStatic := .slice src 40 48 (by simp [h.2, handshakeInitSz])
        encryptedTimestamp := .slice src 88 28 (by simp [h.2, handshakeInitSz])
      }
    else if h : packetType = handshakeRespType ∧ src.length = handshakeRespSz then
      .ok <| .handshakeResponse {
        senderIdx := u32Le src 4
        receiverIdx := u32Le src 8
        unencryptedEphemeral := .slice src 12 32 (by simp [h.2, handshakeRespSz])
        encryptedNothing := .slice src 44 16 (by simp [h.2, handshakeRespSz])
      }
    else if h : packetType = cookieReplyType ∧ src.length = cookieReplySz then
      .ok <| .packetCookieReply {
        receiverIdx := u32Le src 4
        nonce := .slice src 8 24 (by simp [h.2, cookieReplySz])
        encryptedCookie := .slice src 32 32 (by simp [h.2, cookieReplySz])
      }
    else if packetType = dataType ∧ dataOverheadSz ≤ src.length then
      .ok <| .packetData {
        receiverIdx := u32Le src 4
        counter := UInt64.ofNat (src.slice 8 16).leNat
        encryptedEncapsulatedPacket := src.drop 16
      }
    else
      .error .invalidPacket

end Noise
