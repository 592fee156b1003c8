import Mathlib.Data.Nat.Digits.Lemmas
import Sylar.Lib.Numerals

/-! The text form of an IPv6 address after RFC 4291, section 2.2: groups of one to four
hexadecimal digits between colons, one `::` for one or more groups of zeros, and a dotted
IPv4 address in the place of the last two groups. An address is its eight groups. -/
namespace Sylar.Lib.Rfc4291

open Numerals

section Definitions

def xdigit (b : UInt8) : Option Nat :=
  if 48 ≤ b ∧ b ≤ 57 then some (b.toNat - 48)
  else if 65 ≤ b ∧ b ≤ 70 then some (b.toNat - 55)
  else if 97 ≤ b ∧ b ≤ 102 then some (b.toNat - 87)
  else none

/-- A group of one to four hexadecimal digits. -/
def h16 (piece : List UInt8) : Option Nat :=
  if piece = [] ∨ 4 < piece.length then none
  else (piece.mapM xdigit).map fun ds => ds.foldl (fun n d => n * 16 + d) 0

def octet (piece : List UInt8) : Option Nat :=
  if piece = [] ∨ 3 < piece.length ∨ piece.any (!isDigit ·) ∨ 255 < value piece then none
  else some (value piece)

/-- The two groups of a dotted IPv4 address. -/
def dotted (piece : List UInt8) : Option (List Nat) :=
  match (piece.splitOn 46).mapM octet with
  | some [a, b, c, d] => some [256 * a + b, 256 * c + d]
  | _ => none

/-- Groups between colons; at the end of an address the last piece may be dotted. -/
def groups (atEnd : Bool) (text : List UInt8) : Option (List Nat) :=
  if text = [] then some []
  else do
    let pieces := text.splitOn 58
    let front ← pieces.dropLast.mapM h16
    let piece := pieces.getLastD []
    let back ←
      match h16 piece with
      | some g => some [g]
      | none => if atEnd then dotted piece else none
    return front ++ back

/-- What stands before and after the first `::`. -/
def cutDouble : List UInt8 → Option (List UInt8 × List UInt8)
  | 58 :: 58 :: text => some ([], text)
  | b :: text => (cutDouble text).map fun (before, after) => (b :: before, after)
  | [] => none

def parse (text : List UInt8) : Option (List Nat) :=
  match cutDouble text with
  | none => do
    let gs ← groups true text
    if gs.length = 8 then some gs else none
  | some (before, after) => do
    let front ← groups false before
    let back ← groups true after
    if front.length + back.length < 8 then
      some (front ++ List.replicate (8 - (front.length + back.length)) 0 ++ back)
    else none

def bytes (gs : List Nat) : List UInt8 :=
  gs.flatMap fun g => [UInt8.ofNat (g / 256), UInt8.ofNat g]

def doubles : List UInt8 → Nat
  | 58 :: 58 :: text => doubles (58 :: text) + 1
  | _ :: text => doubles text
  | [] => 0

def hexDigit (d : Nat) : UInt8 := UInt8.ofNat (if d < 10 then 48 + d else 87 + d)

def hexadecimal (n : Nat) : List UInt8 :=
  if n = 0 then [48] else ((Nat.digits 16 n).map hexDigit).reverse

def join (gs : List Nat) : List UInt8 := [58].intercalate (gs.map hexadecimal)

end Definitions

example : parse (join [0x2001, 0xdb8] ++ 58 :: 58 :: join [1]) =
    some [0x2001, 0xdb8, 0, 0, 0, 0, 0, 1] := by decide

section Digits

variable {g : Nat}

theorem hexDigit_spec : ∀ d < 16, xdigit (hexDigit d) = some d ∧ hexDigit d ≠ 58 ∧
    hexDigit d ≠ 93 := by decide

theorem mapM_map_some {α β : Type} {f : β → Option α} {g : α → β} {l : List α}
    (h : ∀ a ∈ l, f (g a) = some a) : (l.map g).mapM f = some l := by
  induction l with
  | nil => rfl
  | cons a l ih =>
    rw [List.map_cons, List.mapM_cons, h a List.mem_cons_self,
      ih fun b hb => h b (List.mem_cons_of_mem _ hb)]
    rfl

@[simp] theorem hexadecimal_ne_nil (g : Nat) : hexadecimal g ≠ [] := by
  unfold hexadecimal
  split
  · exact List.cons_ne_nil _ _
  · rename_i hg
    simpa using Nat.digits_ne_nil_iff_ne_zero.mpr hg

theorem mem_hexadecimal {b : UInt8} (hb : b ∈ hexadecimal g) : b ≠ 58 ∧ b ≠ 93 := by
  unfold hexadecimal at hb
  split at hb
  · obtain rfl := List.mem_singleton.mp hb
    decide
  · obtain ⟨d, hd, rfl⟩ := List.mem_map.mp (List.mem_reverse.mp hb)
    exact (hexDigit_spec d (Nat.digits_lt_base (by decide) hd)).2

theorem h16_hexadecimal (hg : g < 65536) : h16 (hexadecimal g) = some g := by
  unfold hexadecimal
  split
  · rename_i hzero
    rw [hzero]
    rfl
  · rename_i hne
    have hlen : (Nat.digits 16 g).length ≤ 4 := (Nat.digits_length_le_iff (by decide) g).mpr hg
    have hnil : Nat.digits 16 g ≠ [] := Nat.digits_ne_nil_iff_ne_zero.mpr hne
    have hread : ((Nat.digits 16 g).reverse.map hexDigit).mapM xdigit =
        some (Nat.digits 16 g).reverse := by
      apply mapM_map_some
      intro d hd
      exact (hexDigit_spec d (Nat.digits_lt_base (by decide) (List.mem_reverse.mp hd))).1
    rw [← List.map_reverse, h16, if_neg (by simp [hnil, hlen]), hread, Option.map_some,
      foldl_digits, List.reverse_reverse, Nat.ofDigits_digits]

end Digits

section Groups

variable {g : Nat} {gs : List Nat}

theorem join_cons (g : Nat) (gs : List Nat) :
    join (g :: gs) = hexadecimal g ++ gs.flatMap fun g => 58 :: hexadecimal g := by
  induction gs generalizing g with
  | nil => simp [join]
  | cons g' gs ih =>
    have hstep : join (g :: g' :: gs) = hexadecimal g ++ [58] ++ join (g' :: gs) :=
      List.intercalate_cons_cons
    rw [hstep, ih, List.flatMap_cons, List.append_assoc]
    rfl

theorem join_ne_nil (h : gs ≠ []) : join gs ≠ [] := by
  obtain ⟨g, gs, rfl⟩ := List.exists_cons_of_ne_nil h
  rw [join_cons]
  exact List.append_ne_nil_of_left_ne_nil (hexadecimal_ne_nil g) _

theorem bracket_notMem_join (gs : List Nat) : 93 ∉ join gs := by
  intro hmem
  cases gs with
  | nil => cases hmem
  | cons g gs =>
    rw [join_cons, List.mem_append, List.mem_flatMap] at hmem
    rcases hmem with hmem | ⟨g', -, hmem⟩
    · exact (mem_hexadecimal hmem).2 rfl
    · rcases List.mem_cons.mp hmem with hmem | hmem
      · cases hmem
      · exact (mem_hexadecimal hmem).2 rfl

theorem splitOn_join (h : gs ≠ []) : (join gs).splitOn 58 = gs.map hexadecimal := by
  apply List.splitOn_intercalate
  · intro l hl
    obtain ⟨g, -, rfl⟩ := List.mem_map.mp hl
    exact fun hmem => (mem_hexadecimal hmem).1 rfl
  · simpa using h

theorem groups_join (atEnd : Bool) (h : ∀ g ∈ gs, g < 65536) :
    groups atEnd (join gs) = some gs := by
  rcases List.eq_nil_or_concat gs with rfl | ⟨front, g, rfl⟩
  · rfl
  · have hfront : (front.map hexadecimal).mapM h16 = some front := by
      apply mapM_map_some
      intro g' hg'
      exact h16_hexadecimal (h g' (by simp [hg']))
    have hlast : h16 (hexadecimal g) = some g := h16_hexadecimal (h g (by simp))
    unfold groups
    rw [if_neg (join_ne_nil (by simp)), splitOn_join (by simp)]
    simp [hfront, hlast]

end Groups

section Colons

variable {b : UInt8} {l r : List UInt8}

theorem cutDouble_cons (h : b ≠ 58 ∨ l.head? ≠ some 58) : cutDouble (b :: l) =
    (cutDouble l).map fun (before, after) => (b :: before, after) := by
  rw [cutDouble.eq_def]
  split
  · simp_all
  · rename_i heq
    obtain ⟨rfl, rfl⟩ := List.cons.inj heq
    rfl
  · simp_all

theorem doubles_cons (h : b ≠ 58 ∨ l.head? ≠ some 58) : doubles (b :: l) = doubles l := by
  rw [doubles.eq_def]
  split
  · simp_all
  · rename_i heq
    obtain ⟨rfl, rfl⟩ := List.cons.inj heq
    rfl
  · simp_all

theorem cutDouble_hexadecimal (g : Nat) (r : List UInt8) : cutDouble (hexadecimal g ++ r) =
    (cutDouble r).map fun (before, after) => (hexadecimal g ++ before, after) := by
  have hplain : ∀ l : List UInt8, (∀ b ∈ l, b ≠ 58) → cutDouble (l ++ r) =
      (cutDouble r).map fun (before, after) => (l ++ before, after) := by
    intro l hl
    induction l with
    | nil => simp
    | cons b l ih =>
      obtain ⟨hb, hl⟩ := List.forall_mem_cons.mp hl
      rw [List.cons_append, cutDouble_cons (.inl hb), ih hl, Option.map_map]
      rfl
  exact hplain _ fun b hb => (mem_hexadecimal hb).1

theorem doubles_append (hl : ∀ b ∈ l, b ≠ 58) (r : List UInt8) :
    doubles (l ++ r) = doubles r := by
  induction l with
  | nil => rfl
  | cons b l ih =>
    obtain ⟨hb, hl⟩ := List.forall_mem_cons.mp hl
    rw [List.cons_append, doubles_cons (.inl hb), ih hl]

theorem head?_hexadecimal (g : Nat) (r : List UInt8) : (hexadecimal g ++ r).head? ≠ some 58 := by
  rw [List.head?_append_of_ne_nil _ (hexadecimal_ne_nil g)]
  exact fun h => (mem_hexadecimal (List.mem_of_mem_head? h)).1 rfl

theorem cutDouble_join (gs : List Nat) (r : List UInt8) : cutDouble (join gs ++ r) =
    (cutDouble r).map fun (before, after) => (join gs ++ before, after) := by
  have hrest : ∀ gs : List Nat, cutDouble ((gs.flatMap fun g => 58 :: hexadecimal g) ++ r) =
      (cutDouble r).map fun (before, after) =>
        ((gs.flatMap fun g => 58 :: hexadecimal g) ++ before, after) := by
    intro gs
    induction gs with
    | nil => simp
    | cons g gs ih =>
      rw [List.flatMap_cons, List.cons_append, List.cons_append, List.append_assoc,
        cutDouble_cons (.inr (head?_hexadecimal g _)), cutDouble_hexadecimal, ih, Option.map_map,
        Option.map_map]
      simp [Function.comp_def]
  cases gs with
  | nil => simp [join]
  | cons g gs =>
    rw [join_cons, List.append_assoc, cutDouble_hexadecimal, hrest, Option.map_map]
    simp [Function.comp_def]

theorem doubles_join (gs : List Nat) (r : List UInt8) : doubles (join gs ++ r) = doubles r := by
  have hplain : ∀ g (r : List UInt8), doubles (hexadecimal g ++ r) = doubles r := fun g r =>
    doubles_append (fun b hb => (mem_hexadecimal hb).1) r
  have hrest : ∀ gs : List Nat, doubles ((gs.flatMap fun g => 58 :: hexadecimal g) ++ r) =
      doubles r := by
    intro gs
    induction gs with
    | nil => rfl
    | cons g gs ih =>
      rw [List.flatMap_cons, List.cons_append, List.cons_append, List.append_assoc,
        doubles_cons (.inr (head?_hexadecimal g _)), hplain, ih]
  cases gs with
  | nil => rfl
  | cons g gs => rw [join_cons, List.append_assoc, hplain, hrest]

theorem head?_join (gs : List Nat) (hr : r.head? ≠ some 58) : (join gs ++ r).head? ≠ some 58 := by
  cases gs with
  | nil => exact hr
  | cons g gs =>
    rw [join_cons, List.append_assoc]
    exact head?_hexadecimal g _

end Colons

section Addresses

variable {before after gs : List Nat}

theorem parse_join (h : ∀ g ∈ gs, g < 65536) (hlen : gs.length = 8) :
    parse (join gs) = some gs := by
  have hcut : cutDouble (join gs) = none := by
    have := cutDouble_join gs []
    rwa [List.append_nil] at this
  unfold parse
  rw [hcut]
  simp [groups_join true h, hlen]

/-- A `::` stands for the groups that are missing, at least one. -/
theorem parse_double (hbefore : ∀ g ∈ before, g < 65536) (hafter : ∀ g ∈ after, g < 65536)
    (hlen : before.length + after.length < 8) :
    parse (join before ++ 58 :: 58 :: join after) =
      some (before ++ List.replicate (8 - (before.length + after.length)) 0 ++ after) := by
  have hcut : cutDouble (join before ++ 58 :: 58 :: join after) =
      some (join before, join after) := by
    rw [cutDouble_join]
    simp [cutDouble]
  unfold parse
  rw [hcut]
  simp [groups_join _ hbefore, groups_join _ hafter, hlen]

end Addresses

end Sylar.Lib.Rfc4291
