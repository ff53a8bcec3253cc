import Gamin.Library.Memory

/-! # The wire protocol between libgamin and the server

Sizes, request types and event codes of `gam_protocol.h` and `fam.h`, and the packet
header as it is read from memory.  Client and server run on one host, so the 16-bit
fields are stored in host order, here the little-endian one.
-/

namespace Gamin

open Gamin.Library

abbrev Bytes := List UInt8

instance : LawfulBEq Bytes := inferInstance

/-- An address as the application hands it to the library; `0` is NULL. -/
abbrev Pointer := Nat

def maxPathLen : Nat := 4096
def gamProtoVersion : Nat := 1
def gamPacketHeaderLen : Nat := 10

/-- `sizeof(GAMPacket)`: five 16-bit fields and the path. -/
def sizeofGAMPacket : Nat := gamPacketHeaderLen + maxPathLen

def gamReqFile : Nat := 1
def gamReqDir : Nat := 2
def gamReqCancel : Nat := 3
def gamReqDebug : Nat := 4
def gamOptNoexists : Nat := 16

def famChanged : Nat := 1
def famDeleted : Nat := 2
def famCreated : Nat := 5
def famMoved : Nat := 6
def famAcknowledge : Nat := 7
def famExists : Nat := 8
def famEndExist : Nat := 9

/-- The unsigned short at an address. -/
def readShort (memory : Nat → UInt8) (address : Nat) : Nat :=
  (memory address).toNat + 256 * (memory (address + 1)).toNat

/-- The two bytes of an unsigned short; a larger number is truncated as the cast does. -/
def shortBytes (number : Nat) : Bytes :=
  [UInt8.ofNat (number % 65536), UInt8.ofNat (number % 65536 / 256)]

/-! ## The fields of a packet that starts at `packet` -/

def packetLen (memory : Nat → UInt8) (packet : Nat) : Nat := readShort memory packet
def packetVersion (memory : Nat → UInt8) (packet : Nat) : Nat := readShort memory (packet + 2)
def packetSeq (memory : Nat → UInt8) (packet : Nat) : Nat := readShort memory (packet + 4)
def packetType (memory : Nat → UInt8) (packet : Nat) : Nat := readShort memory (packet + 6)
def packetPathlen (memory : Nat → UInt8) (packet : Nat) : Nat := readShort memory (packet + 8)

/-- The address of `packet->path[0]`. -/
def packetPath (packet : Nat) : Nat := packet + gamPacketHeaderLen

/-- A packet as a value. -/
structure GAMPacket where
  version : Nat
  seq : Nat
  type : Nat
  path : Bytes
  deriving DecidableEq, Repr

/-- The packet at an address as a value. -/
def packetAt (memory : Nat → UInt8) (packet : Nat) : GAMPacket where
  version := packetVersion memory packet
  seq := packetSeq memory packet
  type := packetType memory packet
  path := window memory (packetPath packet) (packetPathlen memory packet)

/-- The bytes of a packet on the wire. -/
def GAMPacket.encode (packet : GAMPacket) : Bytes :=
  shortBytes (gamPacketHeaderLen + packet.path.length) ++ shortBytes packet.version ++
    shortBytes packet.seq ++ shortBytes packet.type ++ shortBytes packet.path.length ++ packet.path

/-- The unsigned short at an offset of a byte list. -/
def shortAt (bytes : Bytes) (offset : Nat) : Nat :=
  (bytes.getD offset 0).toNat + 256 * (bytes.getD (offset + 1) 0).toNat

/-- The string at an address, which ends before the first NUL byte; there is one among
the next `bound` bytes. -/
def cString (memory : Nat → UInt8) (address bound : Nat) : Bytes :=
  (window memory address bound).takeWhile (· ≠ 0)

theorem readShort_window (memory : Nat → UInt8) (address length offset : Nat)
    (inside : offset + 1 < length) :
    readShort memory (address + offset) = shortAt (window memory address length) offset := by
  simp [readShort, shortAt, List.getD_eq_getElem?_getD, inside, show offset < length by omega,
    Nat.add_assoc]

theorem shortAt_append (bytes more : Bytes) (offset : Nat) (inside : offset + 1 < bytes.length) :
    shortAt (bytes ++ more) offset = shortAt bytes offset := by
  simp [shortAt, List.getD_eq_getElem?_getD, List.getElem?_append_left, inside,
    show offset < bytes.length by omega]

theorem GAMPacket.encode_length (packet : GAMPacket) :
    packet.encode.length = gamPacketHeaderLen + packet.path.length := by
  simp [encode, shortBytes, gamPacketHeaderLen]
  omega

end Gamin
