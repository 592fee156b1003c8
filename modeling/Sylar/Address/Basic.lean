import Sylar.ByteArray.Scalars

/-! The IP addresses of `sylar/address.cc`. An address is the `sockaddr` it wraps: the port and
the IPv4 address stand there in network order, the IPv6 address as its sixteen bytes. The
byte order of the machine is a parameter `host`. -/
namespace Sylar

namespace IPAddress

/-- What the C++ leaves undefined. -/
inductive Fault where
  | shiftWidth
  | signedOverflow
  | outOfBounds
  deriving DecidableEq, Repr

def AF_INET : UInt16 := 2
def AF_INET6 : UInt16 := 10

def byteswapOnLittleEndian (host : Endian) (k : Nat) (v : BitVec (8 * k)) : BitVec (8 * k) :=
  match host with
  | .little => ByteArray.byteswap k v
  | .big => v

/-- `CreateMask<T>` for an unsigned `T` of `w` bits. The distance is a `size_t`, and what is
shifted and then decremented is an `int`. -/
def createMask (w : Nat) (bits : UInt32) : Except Fault (BitVec w) :=
  let distance := (UInt64.ofNat w - bits.toUInt64).toNat
  if 32 ≤ distance then .error .shiftWidth
  else
    let shifted := (2 ^ distance : Int).bmod (2 ^ 32)
    if shifted - 1 < -2 ^ 31 then .error .signedOverflow
    else .ok (BitVec.ofInt w (shifted - 1))

end IPAddress

open IPAddress

structure IPv4Address where
  sinFamily : UInt16
  sinPort : BitVec 16
  sAddr : BitVec 32
  deriving DecidableEq

namespace IPv4Address

section Calls

variable (host : Endian)

def new (address : BitVec 32) (port : BitVec 16) : IPv4Address :=
  { sinFamily := AF_INET
    sinPort := byteswapOnLittleEndian host 2 port
    sAddr := byteswapOnLittleEndian host 4 address }

/-- The address in host byte order. -/
def address (a : IPv4Address) : BitVec 32 := byteswapOnLittleEndian host 4 a.sAddr

/-- A null pointer is `none`. -/
def broadcastAAddress (a : IPv4Address) (prefixLen : UInt32) : Except Fault (Option IPv4Address) :=
  if 32 < prefixLen then .ok none
  else do
    let mask ← createMask 32 prefixLen
    return some { a with sAddr := a.sAddr ||| byteswapOnLittleEndian host 4 mask }

def networkAddress (a : IPv4Address) (prefixLen : UInt32) : Except Fault (Option IPv4Address) :=
  if 32 < prefixLen then .ok none
  else do
    let mask ← createMask 32 prefixLen
    return some { a with sAddr := a.sAddr &&& byteswapOnLittleEndian host 4 mask }

def subnetMask (prefixLen : UInt32) : Except Fault IPv4Address := do
  let mask ← createMask 32 prefixLen
  return { sinFamily := AF_INET, sinPort := 0, sAddr := ~~~byteswapOnLittleEndian host 4 mask }

end Calls

end IPv4Address

structure IPv6Address where
  sin6Family : UInt16
  sin6Port : BitVec 16
  s6Addr : Vector UInt8 16
  deriving DecidableEq

namespace IPv6Address

/-- `s6_addr[i] = f(s6_addr[i])`. -/
def update (bytes : Vector UInt8 16) (i : Nat) (f : UInt8 → UInt8) :
    Except Fault (Vector UInt8 16) :=
  if h : i < 16 then .ok (bytes.set i (f bytes[i])) else .error .outOfBounds

/-- The loops that store `value` in `count` bytes from `first` on. -/
def fill (value : UInt8) (first count : Nat) (bytes : Vector UInt8 16) :
    Except Fault (Vector UInt8 16) :=
  (List.range' first count).foldlM (fun bytes i => update bytes i fun _ => value) bytes

def broadcastAAddress (a : IPv6Address) (prefixLen : UInt32) : Except Fault IPv6Address := do
  let mask ← createMask 8 (prefixLen % 8)
  let i := (prefixLen / 8).toNat
  let bytes ← update a.s6Addr i (· ||| UInt8.ofBitVec mask)
  let bytes ← fill 0xff (i + 1) (16 - (i + 1)) bytes
  return { a with s6Addr := bytes }

def networkAddress (a : IPv6Address) (prefixLen : UInt32) : Except Fault IPv6Address := do
  let mask ← createMask 8 (prefixLen % 8)
  let i := (prefixLen / 8).toNat
  let bytes ← update a.s6Addr i (· &&& UInt8.ofBitVec mask)
  let bytes ← fill 0x00 (i + 1) (16 - (i + 1)) bytes
  return { a with s6Addr := bytes }

/-- The family is set before `memset` clears the whole object. -/
def subnetMask (prefixLen : UInt32) : Except Fault IPv6Address := do
  let mask ← createMask 8 (prefixLen % 8)
  let i := (prefixLen / 8).toNat
  let bytes ← update (Vector.replicate 16 0) i fun _ => ~~~UInt8.ofBitVec mask
  let bytes ← fill 0xff 0 i bytes
  return { sin6Family := 0, sin6Port := 0, s6Addr := bytes }

end IPv6Address

end Sylar
