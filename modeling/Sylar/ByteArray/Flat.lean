import Sylar.ByteArray.Basic

/-! The purpose of `ByteArray`, stated without blocks: one flat byte memory with
a size and a cursor. `Flat.Step` is the contract of every operation, and
`WellFormed` is the invariant that ties the linked blocks to the flat view. -/
namespace Sylar.ByteArray

open Lib.Blocks

structure Flat where
  mem : List UInt8
  pos : Nat
  size : Nat
  pos_le : pos ≤ size
  size_le : size ≤ mem.length

namespace Flat

def stored (f : Flat) : List UInt8 := f.mem.take f.size

end Flat

inductive Op where
  | write (buf : List UInt8)
  | read (n : Nat)
  | setPosition (v : Nat)
  | getWriteBuffers (len : Nat)
  | clear
  deriving DecidableEq, Repr

inductive Outcome where
  | done
  | bytes (out : List UInt8)
  | lent (len : Nat)
  | thrown (what : String)
  deriving DecidableEq, Repr

/-- The memory after making room for `n` bytes at the cursor: whole blocks of
unspecified bytes are appended, and only as many as are missing. -/
def Flat.Grown (b : Nat) (f : Flat) (n : Nat) (mem : List UInt8) : Prop :=
  ∃ pad : List UInt8, mem = f.mem ++ pad ∧
    pad.length = b * ((n - (f.mem.length - f.pos) + b - 1) / b)

inductive Flat.Step (b : Nat) : Flat → Op → Outcome → Flat → Prop where
  | write {f f' : Flat} {buf mem : List UInt8} (grown : f.Grown b buf.length mem)
      (hmem : f'.mem = overwrite mem f.pos buf)
      (hpos : f'.pos = f.pos + buf.length)
      (hsize : f'.size = max f.size (f.pos + buf.length)) :
      Step b f (.write buf) .done f'
  | read {f f' : Flat} {n : Nat} (fits : n ≤ f.size - f.pos)
      (hmem : f'.mem = f.mem) (hpos : f'.pos = f.pos + n) (hsize : f'.size = f.size) :
      Step b f (.read n) (.bytes ((f.stored.drop f.pos).take n)) f'
  | readThrows {f : Flat} {n : Nat} (short : n > f.size - f.pos) :
      Step b f (.read n) (.thrown "not enough len") f
  | setPosition {f f' : Flat} {v : Nat} (inside : v ≤ f.mem.length)
      (hmem : f'.mem = f.mem) (hpos : f'.pos = v) (hsize : f'.size = max f.size v) :
      Step b f (.setPosition v) .done f'
  | setPositionThrows {f : Flat} {v : Nat} (outside : v > f.mem.length) :
      Step b f (.setPosition v) (.thrown "set_position out of range") f
  | getWriteBuffers {f f' : Flat} {len : Nat} (grown : f.Grown b len f'.mem)
      (hpos : f'.pos = f.pos) (hsize : f'.size = f.size) :
      Step b f (.getWriteBuffers len) (.lent len) f'
  | clear {f f' : Flat} (hmem : f'.mem = f.mem.take b)
      (hpos : f'.pos = 0) (hsize : f'.size = 0) :
      Step b f .clear .done f'

inductive Flat.Run (b : Nat) : Flat → List Op → List Outcome → Flat → Prop where
  | nil (f : Flat) : Run b f [] [] f
  | cons {f f' f'' : Flat} {op : Op} {out : Outcome} {ops : List Op}
      {outs : List Outcome} (step : Flat.Step b f op out f')
      (rest : Run b f' ops outs f'') : Run b f (op :: ops) (out :: outs) f''

def Op.run (heap : Heap) : Op → M Outcome
  | .write buf => do ByteArray.write heap buf; pure .done
  | .read n => do let out ← ByteArray.read n; pure (.bytes out)
  | .setPosition v => do ByteArray.setPosition v; pure .done
  | .getWriteBuffers len => do let r ← ByteArray.getWriteBuffers heap len; pure (.lent r.1)
  | .clear => do ByteArray.clear; pure .done

/-- A caller that catches every `out_of_range` and goes on with the same object.
Undefined behaviour ends the run. -/
def runOps (heap : Heap) : List Op → ByteArray → Except Err (List Outcome × ByteArray)
  | [], s => .ok ([], s)
  | op :: ops, s =>
    match (op.run heap).run s with
    | .ok out s' => do
      let (outs, s'') ← runOps heap ops s'
      pure (out :: outs, s'')
    | .error (.outOfRange what) s' => do
      let (outs, s'') ← runOps heap ops s'
      pure (.thrown what :: outs, s'')
    | .error e _ => .error e

def memory (s : ByteArray) : List UInt8 := (s.nodes.map Node.ptr).flatten

/-- What the block loops rely on: equally sized blocks, and a node pointer that
names the block of the cursor. -/
structure Aligned (b : Nat) (s : ByteArray) : Prop where
  baseSize : s.baseSize = b
  node_size : ∀ node ∈ s.nodes, node.size = b
  root : s.nodes ≠ []
  capacity : s.capacity = b * s.nodes.length
  position_le_capacity : s.position ≤ s.capacity
  cur : s.cur = if s.position = s.capacity then none else some (s.position / b)

structure WellFormed (b : Nat) (s : ByteArray) : Prop extends Aligned b s where
  position_le : s.position ≤ s.size
  size_le : s.size ≤ s.capacity

variable {b : Nat} {s : ByteArray}

theorem Aligned.ptr_length (h : Aligned b s) :
    ∀ blk ∈ s.nodes.map Node.ptr, blk.length = b := by
  intro blk hblk
  obtain ⟨node, hnode, rfl⟩ := List.mem_map.mp hblk
  rw [node.length_ptr, h.node_size node hnode]

@[simp] theorem Aligned.length_memory (h : Aligned b s) : s.memory.length = s.capacity := by
  rw [memory, length_flatten_blocks h.ptr_length, List.length_map, h.capacity]

def WellFormed.flat (h : WellFormed b s) : Flat where
  mem := s.memory
  pos := s.position
  size := s.size
  pos_le := h.position_le
  size_le := by rw [h.toAligned.length_memory]; exact h.size_le

end Sylar.ByteArray
