import Sylar.ByteArray.Refinement
import Sylar.Lib.IntCodec

/-! The typed writers and readers of `sylar/bytearray.cc`. The byte order of the
machine is a parameter `host`, and the object representation of an integer in
memory follows it; `float` and `double` are their raw bit patterns. -/
namespace Sylar.ByteArray

open Lib.IntCodec

/-- The `k` bytes of an integer object in the memory of the machine. -/
def object (host : Endian) (k v : Nat) : List UInt8 :=
  match host with
  | .little => bytesLE k v
  | .big => (bytesLE k v).reverse

def objectValue (host : Endian) (bytes : List UInt8) : Nat :=
  match host with
  | .little => ofBytesLE bytes
  | .big => ofBytesLE bytes.reverse

/-- `byteswap` of `endian.h`: `bswap_16`, `bswap_32` or `bswap_64`. -/
def byteswap (k : Nat) (v : BitVec (8 * k)) : BitVec (8 * k) := swapBytes k v

section Writers

variable (heap : Heap) (host : Endian)

/-- The body shared by the fixed-width writers of two bytes and more. -/
def writeFixed (k : Nat) (value : BitVec (8 * k)) : M Unit := do
  let s ← get
  let value := if s.endian ≠ host then byteswap k value else value
  write heap (object host k value.toNat)

def writeFint8 (value : Int8) : M Unit := write heap (object host 1 value.toBitVec.toNat)
def writeFuint8 (value : UInt8) : M Unit := write heap (object host 1 value.toNat)
def writeFint16 (value : Int16) : M Unit := writeFixed heap host 2 value.toBitVec
def writeFuint16 (value : UInt16) : M Unit := writeFixed heap host 2 value.toBitVec
def writeFint32 (value : Int32) : M Unit := writeFixed heap host 4 value.toBitVec
def writeFuint32 (value : UInt32) : M Unit := writeFixed heap host 4 value.toBitVec
def writeFint64 (value : Int64) : M Unit := writeFixed heap host 8 value.toBitVec
def writeFuint64 (value : UInt64) : M Unit := writeFixed heap host 8 value.toBitVec

def encodeZigzag32 (v : Int32) : UInt32 :=
  if v < 0 then (-v).toUInt32 * 2 - 1 else (v * 2).toUInt32

def encodeZigzag64 (v : Int64) : UInt64 :=
  if v < 0 then (-v).toUInt64 * 2 - 1 else (v * 2).toUInt64

def decodeZigzag32 (v : UInt32) : Int32 := ((v >>> 1) ^^^ -(v &&& 1)).toInt32

def decodeZigzag64 (v : UInt64) : Int64 := ((v >>> 1) ^^^ -(v &&& 1)).toInt64

/-- `tmp[i++] = x` for a scratch array of `cap` bytes. -/
def push (cap : Nat) (tmp : List UInt8) (x : UInt8) : M (List UInt8) :=
  if tmp.length < cap then pure (tmp ++ [x]) else throw .overrun

/-- The loop of the varint writers; `value` is shifted right by seven bits in
every pass, so `w` passes are enough for `w` bits. -/
def varintLoop {w : Nat} (cap : Nat) : Nat → List UInt8 → BitVec w → M (List UInt8)
  | 0, _, _ => throw .diverges
  | fuel + 1, tmp, value =>
    if value.toNat ≥ 0x80 then do
      let tmp ← push cap tmp (UInt8.ofNat ((value.toNat &&& 0x7F) ||| 0x80))
      varintLoop cap fuel tmp (value >>> 7)
    else
      push cap tmp (UInt8.ofNat value.toNat)

/-- The body shared by the varint writers, with a scratch array of `cap` bytes. -/
def writeVarint {w : Nat} (cap : Nat) (value : BitVec w) : M Unit := do
  let tmp ← varintLoop cap w [] value
  write heap tmp

def writeUint32 (value : UInt32) : M Unit := writeVarint heap 5 value.toBitVec
def writeUint64 (value : UInt64) : M Unit := writeVarint heap 10 value.toBitVec
def writeInt32 (value : Int32) : M Unit := writeUint32 heap (encodeZigzag32 value)
def writeInt64 (value : Int64) : M Unit := writeUint64 heap (encodeZigzag64 value)
def writeFloat (bits : UInt32) : M Unit := writeFuint32 heap host bits
def writeDouble (bits : UInt64) : M Unit := writeFuint64 heap host bits

end Writers

section Readers

variable (host : Endian)

/-- The macro `XX` of the fixed-width readers. -/
def readFixed (k : Nat) : M (BitVec (8 * k)) := do
  let bytes ← read k
  let s ← get
  let v := BitVec.ofNat (8 * k) (objectValue host bytes)
  pure (if s.endian = host then v else byteswap k v)

def readFint8 : M Int8 := do
  let bytes ← read 1
  pure (Int8.ofBitVec (BitVec.ofNat 8 (objectValue host bytes)))

def readFuint8 : M UInt8 := do
  let bytes ← read 1
  pure (UInt8.ofNat (objectValue host bytes))

def readFint16 : M Int16 := do let v ← readFixed host 2; pure (Int16.ofBitVec v)
def readFuint16 : M UInt16 := do let v ← readFixed host 2; pure (UInt16.ofBitVec v)
def readFint32 : M Int32 := do let v ← readFixed host 4; pure (Int32.ofBitVec v)
def readFuint32 : M UInt32 := do let v ← readFixed host 4; pure (UInt32.ofBitVec v)
def readFint64 : M Int64 := do let v ← readFixed host 8; pure (Int64.ofBitVec v)
def readFuint64 : M UInt64 := do let v ← readFixed host 8; pure (UInt64.ofBitVec v)

/-- The loop `for (int i = 0; i < w; i += 7)` of the varint readers. -/
def varintRead {w : Nat} : Nat → Nat → BitVec w → M (BitVec w)
  | 0, _, _ => throw .diverges
  | fuel + 1, i, result =>
    if i < w then do
      let b ← readFuint8 host
      if b.toNat < 0x80 then
        pure (result ||| (BitVec.ofNat w b.toNat <<< i))
      else
        varintRead fuel (i + 7) (result ||| (BitVec.ofNat w (b.toNat &&& 0x7f) <<< i))
    else
      pure result

def readUint32 : M UInt32 := do
  let v ← varintRead host 32 0 0#32
  pure (UInt32.ofBitVec v)

def readUint64 : M UInt64 := do
  let v ← varintRead host 64 0 0#64
  pure (UInt64.ofBitVec v)

def readInt32 : M Int32 := do let v ← readUint32 host; pure (decodeZigzag32 v)
def readInt64 : M Int64 := do let v ← readUint64 host; pure (decodeZigzag64 v)
def readFloat : M UInt32 := readFuint32 host
def readDouble : M UInt64 := readFuint64 host

end Readers

inductive Scalar where
  | fint8 (v : Int8)
  | fuint8 (v : UInt8)
  | fint16 (v : Int16)
  | fuint16 (v : UInt16)
  | fint32 (v : Int32)
  | fuint32 (v : UInt32)
  | fint64 (v : Int64)
  | fuint64 (v : UInt64)
  | uint32 (v : UInt32)
  | uint64 (v : UInt64)
  | int32 (v : Int32)
  | int64 (v : Int64)
  | float (bits : UInt32)
  | double (bits : UInt64)
  deriving DecidableEq

def Scalar.write (heap : Heap) (host : Endian) : Scalar → M Unit
  | .fint8 v => writeFint8 heap host v
  | .fuint8 v => writeFuint8 heap host v
  | .fint16 v => writeFint16 heap host v
  | .fuint16 v => writeFuint16 heap host v
  | .fint32 v => writeFint32 heap host v
  | .fuint32 v => writeFuint32 heap host v
  | .fint64 v => writeFint64 heap host v
  | .fuint64 v => writeFuint64 heap host v
  | .uint32 v => writeUint32 heap v
  | .uint64 v => writeUint64 heap v
  | .int32 v => writeInt32 heap v
  | .int64 v => writeInt64 heap v
  | .float bits => writeFloat heap host bits
  | .double bits => writeDouble heap host bits

inductive Kind where
  | fint8 | fuint8 | fint16 | fuint16 | fint32 | fuint32 | fint64 | fuint64
  | uint32 | uint64 | int32 | int64 | float | double
  deriving DecidableEq

def Scalar.kind : Scalar → Kind
  | .fint8 _ => .fint8
  | .fuint8 _ => .fuint8
  | .fint16 _ => .fint16
  | .fuint16 _ => .fuint16
  | .fint32 _ => .fint32
  | .fuint32 _ => .fuint32
  | .fint64 _ => .fint64
  | .fuint64 _ => .fuint64
  | .uint32 _ => .uint32
  | .uint64 _ => .uint64
  | .int32 _ => .int32
  | .int64 _ => .int64
  | .float _ => .float
  | .double _ => .double

def Kind.read (host : Endian) : Kind → M Scalar
  | .fint8 => do let v ← readFint8 host; pure (.fint8 v)
  | .fuint8 => do let v ← readFuint8 host; pure (.fuint8 v)
  | .fint16 => do let v ← readFint16 host; pure (.fint16 v)
  | .fuint16 => do let v ← readFuint16 host; pure (.fuint16 v)
  | .fint32 => do let v ← readFint32 host; pure (.fint32 v)
  | .fuint32 => do let v ← readFuint32 host; pure (.fuint32 v)
  | .fint64 => do let v ← readFint64 host; pure (.fint64 v)
  | .fuint64 => do let v ← readFuint64 host; pure (.fuint64 v)
  | .uint32 => do let v ← readUint32 host; pure (.uint32 v)
  | .uint64 => do let v ← readUint64 host; pure (.uint64 v)
  | .int32 => do let v ← readInt32 host; pure (.int32 v)
  | .int64 => do let v ← readInt64 host; pure (.int64 v)
  | .float => do let v ← readFloat host; pure (.float v)
  | .double => do let v ← readDouble host; pure (.double v)

def writeAll (heap : Heap) (host : Endian) : List Scalar → M Unit
  | [] => pure ()
  | x :: xs => do
    x.write heap host
    writeAll heap host xs

def readAll (host : Endian) : List Kind → M (List Scalar)
  | [] => pure []
  | k :: ks => do
    let x ← k.read host
    let xs ← readAll host ks
    pure (x :: xs)

/-- Set the byte order, write the values, rewind, read them back, and report
`getReadSize()`. -/
def roundTrip (heap : Heap) (host : Endian) (little : Bool) (xs : List Scalar) :
    M (List Scalar × Nat) := do
  setLittleEndian little
  writeAll heap host xs
  setPosition 0
  let ys ← readAll host (xs.map Scalar.kind)
  let s ← get
  pure (ys, s.getReadSize)

end Sylar.ByteArray
