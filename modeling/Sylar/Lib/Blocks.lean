import Mathlib.Data.List.Basic
import Mathlib.Tactic.Ring

/-! Flat views of lists that are stored as a sequence of equally sized blocks.
`overwrite` is the flat store operation; the block lemmas say that storing into
one block, or reading from one, is the same operation on the flattened list at
the offset `b * i + off`. -/
namespace Sylar.Lib.Blocks

variable {α : Type*}

/-- Replace the elements at offsets `i, i + 1, …` by `xs`. -/
def overwrite (l : List α) (i : Nat) (xs : List α) : List α :=
  l.take i ++ xs ++ l.drop (i + xs.length)

@[simp] theorem overwrite_nil (l : List α) (i : Nat) : overwrite l i [] = l := by
  simp [overwrite]

theorem overwrite_front (l xs : List α) : overwrite l 0 xs = xs ++ l.drop xs.length := by
  rw [overwrite, List.take_zero, List.nil_append, Nat.zero_add]

@[simp] theorem length_overwrite (l : List α) (i : Nat) (xs : List α)
    (h : i + xs.length ≤ l.length) : (overwrite l i xs).length = l.length := by
  simp only [overwrite, List.length_append, List.length_take, List.length_drop]
  omega

theorem overwrite_append (l : List α) (i : Nat) (xs ys : List α) (h : i ≤ l.length) :
    overwrite (overwrite l i xs) (i + xs.length) ys = overwrite l i (xs ++ ys) := by
  have hlen : (l.take i ++ xs).length = i + xs.length := by
    simp only [List.length_append, List.length_take]
    omega
  unfold overwrite
  rw [← hlen, List.take_left', List.drop_append, hlen]
  · simp only [List.length_append, List.append_assoc, List.drop_drop,
      Nat.add_sub_cancel_left]
    rw [List.drop_eq_nil_of_le (by omega : (l.take i ++ xs).length ≤ i + xs.length + ys.length)]
    simp only [List.nil_append]
    congr 4
    omega
  · rfl

theorem overwrite_append_left (l k : List α) (i : Nat) (xs : List α) :
    overwrite (l ++ k) (l.length + i) xs = l ++ overwrite k i xs := by
  unfold overwrite
  rw [List.take_length_add_append, Nat.add_assoc, List.drop_length_add_append]
  simp only [List.append_assoc]

theorem overwrite_append_right (l k : List α) (i : Nat) (xs : List α)
    (h : i + xs.length ≤ l.length) :
    overwrite (l ++ k) i xs = overwrite l i xs ++ k := by
  unfold overwrite
  rw [List.take_append_of_le_length (by omega), List.drop_append_of_le_length h]
  simp only [List.append_assoc]

theorem take_overwrite_end (l : List α) (i : Nat) (xs : List α) (h : i ≤ l.length) :
    (overwrite l i xs).take (i + xs.length) = l.take i ++ xs := by
  unfold overwrite
  apply List.take_left'
  simp only [List.length_append, List.length_take]
  omega

theorem drop_overwrite (l : List α) (i : Nat) (xs : List α) (h : i ≤ l.length) :
    (overwrite l i xs).drop i = xs ++ l.drop (i + xs.length) := by
  unfold overwrite
  rw [List.append_assoc]
  apply List.drop_left'
  rw [List.length_take]
  omega

/-- A store that starts inside the first `m` elements and may run past them, seen up to
its end: what lies behind those elements does not matter. -/
theorem take_overwrite_max (l pad : List α) (i m : Nat) (xs : List α) (hi : i ≤ m)
    (hm : m ≤ l.length) :
    (overwrite (l ++ pad) i xs).take (max m (i + xs.length)) = overwrite (l.take m) i xs := by
  have hfront : (l ++ pad).take i = (l.take m).take i := by
    rw [List.take_append_of_le_length (by omega), List.take_take, Nat.min_eq_left hi]
  have hback : ((l ++ pad).drop (i + xs.length)).take (m - (i + xs.length)) =
      (l.take m).drop (i + xs.length) := by
    rw [← List.drop_take, List.take_append_of_le_length (by omega)]
  have hlen : ((l.take m).take i ++ xs).length = i + xs.length := by
    simp only [List.length_append, List.length_take]
    omega
  have hmax : max m (i + xs.length) =
      ((l.take m).take i ++ xs).length + (m - (i + xs.length)) := by
    rw [hlen]
    omega
  unfold overwrite
  rw [hfront, hmax, List.take_length_add_append, hback]

section Blocks

variable {b : Nat} {blocks : List (List α)}

theorem length_flatten_blocks (hb : ∀ blk ∈ blocks, blk.length = b) :
    blocks.flatten.length = b * blocks.length := by
  induction blocks with
  | nil => simp
  | cons blk rest ih =>
    have hblk : blk.length = b := hb blk (by simp)
    have hrest := ih fun x hx => hb x (by simp [hx])
    rw [List.flatten_cons, List.length_append, hblk, hrest, List.length_cons]
    ring

/-- Storing into block `i` at `off` is a flat store at `b * i + off`. -/
theorem flatten_set_overwrite (hb : ∀ blk ∈ blocks, blk.length = b)
    (i off : Nat) (xs : List α) (hi : i < blocks.length)
    (hoff : off + xs.length ≤ b) :
    (blocks.set i (overwrite blocks[i] off xs)).flatten =
      overwrite blocks.flatten (b * i + off) xs := by
  induction blocks generalizing i with
  | nil => simp at hi
  | cons blk rest ih =>
    have hblk : blk.length = b := hb blk (by simp)
    cases i with
    | zero =>
      simp only [List.set_cons_zero, List.flatten_cons, List.getElem_cons_zero,
        Nat.mul_zero, Nat.zero_add]
      rw [overwrite_append_right _ _ _ _ (by omega)]
    | succ i =>
      have hrest := ih (fun x hx => hb x (by simp [hx])) i
        (by simpa using hi)
      simp only [List.set_cons_succ, List.flatten_cons, List.getElem_cons_succ]
      rw [hrest, show b * (i + 1) + off = blk.length + (b * i + off) by
        rw [hblk]; ring, overwrite_append_left]

theorem take_drop_block (hb : ∀ blk ∈ blocks, blk.length = b)
    (i off n : Nat) (hi : i < blocks.length) (hoff : off + n ≤ b) :
    (blocks[i].drop off).take n =
      (blocks.flatten.drop (b * i + off)).take n := by
  induction blocks generalizing i with
  | nil => simp at hi
  | cons blk rest ih =>
    have hblk : blk.length = b := hb blk (by simp)
    cases i with
    | zero =>
      simp only [List.getElem_cons_zero, List.flatten_cons, Nat.mul_zero,
        Nat.zero_add]
      rw [List.drop_append_of_le_length (by omega),
        List.take_append_of_le_length (by simp; omega)]
    | succ i =>
      have hrest := ih (fun x hx => hb x (by simp [hx])) i
        (by simpa using hi)
      simp only [List.getElem_cons_succ, List.flatten_cons]
      rw [hrest, show b * (i + 1) + off = blk.length + (b * i + off) by
        rw [hblk]; ring, List.drop_length_add_append]

end Blocks

end Sylar.Lib.Blocks
