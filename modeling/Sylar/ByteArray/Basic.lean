import Sylar.Lib.Blocks

/-! The byte buffer of `sylar/bytearray.cc`: a singly linked list of equally
sized memory blocks with a cursor. A node pointer is the index of its node in
the list and a null pointer is `none`. Every call runs in `ByteArray.M`, which
keeps the object's state also when the call is left by an exception. -/
namespace Sylar

open Lib.Blocks

inductive Endian where
  | little
  | big
  deriving DecidableEq, Repr

namespace ByteArray

structure Node where
  ptr : List UInt8
  size : Nat
  length_ptr : ptr.length = size

/-- How a call can be left other than by returning: by one of the two exceptions, by
undefined behaviour or not at all. -/
inductive Err where
  | outOfRange (what : String)
  | lengthError
  | nullNode
  | overrun
  | diverges
  deriving DecidableEq, Repr

def Err.isThrown : Err → Bool
  | .outOfRange _ | .lengthError => true
  | _ => false

end ByteArray

/-- `allocated` counts the blocks ever allocated: it only selects which
unspecified bytes the next `new char[s]` finds in memory. -/
structure ByteArray where
  baseSize : Nat
  position : Nat
  capacity : Nat
  size : Nat
  endian : Endian
  nodes : List ByteArray.Node
  cur : Option Nat
  allocated : Nat

namespace ByteArray

abbrev M := EStateM Err ByteArray

/-- Bytes found in memory by the `k`-th `new char[s]`, at each offset. -/
abbrev Heap := Nat → Nat → UInt8

def Node.alloc (heap : Heap) (k s : Nat) : Node where
  ptr := (List.range s).map (heap k)
  size := s
  length_ptr := by simp

/-- `memcpy(ptr + npos, src, src.length)` inside the block. -/
def Node.store (node : Node) (npos : Nat) (src : List UInt8)
    (h : npos + src.length ≤ node.size) : Node where
  ptr := overwrite node.ptr npos src
  size := node.size
  length_ptr := by
    rw [length_overwrite _ _ _ (by rw [node.length_ptr]; exact h), node.length_ptr]

def fresh (heap : Heap) (baseSize : Nat) : ByteArray where
  baseSize := baseSize
  position := 0
  capacity := baseSize
  size := 0
  endian := .big
  nodes := [Node.alloc heap 0 baseSize]
  cur := some 0
  allocated := 1

def getCapacity (s : ByteArray) : Nat := s.capacity - s.position

def getReadSize (s : ByteArray) : Nat := s.size - s.position

def setLittleEndian (val : Bool) : M Unit :=
  modify fun s => { s with endian := if val then .little else .big }

def deref (p : Option Nat) : M Node := fun s =>
  match p with
  | none => .error .nullNode s
  | some i =>
    match s.nodes[i]? with
    | none => .error .nullNode s
    | some node => .ok node s

def next (p : Option Nat) : M (Option Nat) := fun s =>
  match p with
  | none => .error .nullNode s
  | some i => .ok (if i + 1 < s.nodes.length then some (i + 1) else none) s

def advance : M Unit := do
  let s ← get
  let p ← next s.cur
  modify fun s => { s with cur := p }

def storeCur (npos : Nat) (src : List UInt8) : M Unit := do
  let s ← get
  let node ← deref s.cur
  if h : npos + src.length ≤ node.size then
    modify fun s => { s with nodes := s.nodes.set (s.cur.getD 0) (node.store npos src h) }
  else
    throw .overrun

def loadCur (npos n : Nat) : M (List UInt8) := do
  let s ← get
  let node ← deref s.cur
  if npos + n ≤ node.size then
    pure ((node.ptr.drop npos).take n)
  else
    throw .overrun

/-- The `for` loop of `addCapacity`: append `count` new nodes. -/
def growLoop (heap : Heap) : Nat → M Unit
  | 0 => pure ()
  | count + 1 => do
    modify fun s => { s with
      nodes := s.nodes ++ [Node.alloc heap s.allocated s.baseSize]
      capacity := s.capacity + s.baseSize
      allocated := s.allocated + 1 }
    growLoop heap count

def addCapacity (heap : Heap) (size : Nat) : M Unit := do
  if size = 0 then
    pure ()
  else
    let s ← get
    let oldCap := s.getCapacity
    if oldCap ≥ size then
      pure ()
    else
      -- `ceil(1.0 * size / m_baseSize)`, taken as the exact ceiling
      let count := (size - oldCap + s.baseSize - 1) / s.baseSize
      let first := if count = 0 then none else some s.nodes.length
      growLoop heap count
      if oldCap = 0 then
        modify fun s => { s with cur := first }

/-- The copy loop of `write`. Every pass stores at least one byte when blocks
are not empty, so `fuel` is the number of bytes left. -/
def writeLoop : Nat → List UInt8 → Nat → Nat → M Unit
  | _, [], _, _ => pure ()
  | 0, _ :: _, _, _ => throw .diverges
  | fuel + 1, x :: xs, npos, ncap => do
    let buf := x :: xs
    let size := buf.length
    let s ← get
    if ncap ≥ size then
      storeCur npos buf
      let node ← deref s.cur
      if node.size = npos + size then
        advance
      modify fun s => { s with position := s.position + size }
    else
      storeCur npos (buf.take ncap)
      modify fun s => { s with position := s.position + ncap }
      advance
      let s ← get
      let node ← deref s.cur
      writeLoop fuel (buf.drop ncap) 0 node.size

def write (heap : Heap) (buf : List UInt8) : M Unit := do
  if buf.length = 0 then
    pure ()
  else
    addCapacity heap buf.length
    let s ← get
    let npos := s.position % s.baseSize
    let node ← deref s.cur
    writeLoop buf.length buf npos (node.size - npos)
    modify fun s => if s.position > s.size then { s with size := s.position } else s

/-- The copy loop of `read`; it returns the bytes copied to the caller. -/
def readLoop : Nat → Nat → Nat → Nat → M (List UInt8)
  | _, 0, _, _ => pure []
  | 0, _ + 1, _, _ => throw .diverges
  | fuel + 1, size + 1, npos, ncap => do
    let s ← get
    if ncap ≥ size + 1 then
      let out ← loadCur npos (size + 1)
      let node ← deref s.cur
      if node.size = npos + (size + 1) then
        advance
      modify fun s => { s with position := s.position + (size + 1) }
      pure out
    else
      let out ← loadCur npos ncap
      modify fun s => { s with position := s.position + ncap }
      advance
      let s ← get
      let node ← deref s.cur
      let rest ← readLoop fuel (size + 1 - ncap) 0 node.size
      pure (out ++ rest)

def read (size : Nat) : M (List UInt8) := do
  let s ← get
  if size > s.getReadSize then
    throw (.outOfRange "not enough len")
  else
    let npos := s.position % s.baseSize
    let node ← deref s.cur
    readLoop size size npos (node.size - npos)

/-- The loop of `setPosition`; it returns what is left of `v`. -/
def seekLoop : Nat → Nat → M Nat
  | 0, _ => throw .diverges
  | fuel + 1, v => do
    let s ← get
    let node ← deref s.cur
    if v > node.size then
      advance
      seekLoop fuel (v - node.size)
    else
      pure v

def setPosition (v : Nat) : M Unit := do
  let s ← get
  if v > s.capacity then
    throw (.outOfRange "set_position out of range")
  else
    modify fun s => { s with
      position := v
      size := if v > s.size then v else s.size
      cur := some 0 }
    let v ← seekLoop (v + 1) v
    let s ← get
    let node ← deref s.cur
    if v = node.size then
      advance

def clear : M Unit :=
  modify fun s => { s with
    position := 0
    size := 0
    capacity := s.baseSize
    cur := some 0
    nodes := s.nodes.take 1 }

/-- `struct iovec`: `len` bytes at offset `off` of a node. -/
structure Iovec where
  node : Nat
  off : Nat
  len : Nat
  deriving DecidableEq, Repr

/-- The loop that cuts `len` bytes after a node pointer into iovecs. -/
def iovLoop : Nat → Option Nat → Nat → Nat → Nat → M (List Iovec)
  | _, _, _, _, 0 => pure []
  | 0, _, _, _, _ + 1 => throw .diverges
  | fuel + 1, cur, npos, ncap, len + 1 => do
    let _ ← deref cur
    let node := cur.getD 0
    if ncap ≥ len + 1 then
      pure [⟨node, npos, len + 1⟩]
    else
      let cur ← next cur
      let blk ← deref cur
      let rest ← iovLoop fuel cur 0 blk.size (len + 1 - ncap)
      pure (⟨node, npos, ncap⟩ :: rest)

def getWriteBuffers (heap : Heap) (len : Nat) : M (Nat × List Iovec) := do
  if len = 0 then
    pure (0, [])
  else
    addCapacity heap len
    let s ← get
    let npos := s.position % s.baseSize
    let node ← deref s.cur
    let iovs ← iovLoop len s.cur npos (node.size - npos) len
    pure (len, iovs)

def getReadBuffers (buffers : List Iovec) (len : Nat) : M (Nat × List Iovec) := do
  let s ← get
  let len := if len > s.getReadSize then s.getReadSize else len
  if len = 0 then
    pure (0, buffers)
  else
    let npos := s.position % s.baseSize
    let node ← deref s.cur
    let iovs ← iovLoop len s.cur npos (node.size - npos) len
    pure (len, buffers ++ iovs)

def load (cur : Option Nat) (npos n : Nat) : M (List UInt8) := do
  let node ← deref cur
  if npos + n ≤ node.size then
    pure ((node.ptr.drop npos).take n)
  else
    throw .overrun

/-- The copy loop of the `const` overload of `read`. It walks a pointer of its own; where
the last copy ends a block, the pointer's step to the next one is not used any more. -/
def peekLoop : Nat → Option Nat → Nat → Nat → Nat → M (List UInt8)
  | _, _, _, _, 0 => pure []
  | 0, _, _, _, _ + 1 => throw .diverges
  | fuel + 1, cur, npos, ncap, size + 1 => do
    if ncap ≥ size + 1 then
      load cur npos (size + 1)
    else
      let out ← load cur npos ncap
      let cur ← next cur
      let blk ← deref cur
      let rest ← peekLoop fuel cur 0 blk.size (size + 1 - ncap)
      pure (out ++ rest)

/-- The `const` overload of `read`. It starts in the node of the cursor whatever the
position is, and `m_size - position` is unsigned. -/
def readAt (size position : Nat) : M (List UInt8) := do
  let s ← get
  let left := if position ≤ s.size then s.size - position else 2 ^ 64 - (position - s.size)
  if size > left then
    throw (.outOfRange "not enough len")
  else
    let npos := position % s.baseSize
    let node ← deref s.cur
    peekLoop size s.cur npos (node.size - npos) size

def toString : M (List UInt8) := do
  let s ← get
  if s.getReadSize = 0 then
    pure []
  else
    readAt s.getReadSize s.position

end ByteArray

end Sylar
