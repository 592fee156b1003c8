import Mathlib.Data.Nat.Digits.Defs

/-! Numbers as texts: printing in decimal, and reading the digits back from the
front. -/
namespace Sylar.Lib.Numerals

theorem forall_byte {P : UInt8 → Prop} (h : ∀ n < 256, P (UInt8.ofNat n)) (b : UInt8) : P b := by
  rw [← UInt8.ofNat_toNat (x := b)]
  exact h b.toNat b.toNat_lt

theorem foldl_digits (base : Nat) (l : List Nat) :
    l.foldl (fun n d => n * base + d) 0 = Nat.ofDigits base l.reverse := by
  rw [Nat.ofDigits_eq_foldr, List.foldr_reverse]
  congr 1
  funext n d
  push_cast
  ring

def isDigit (b : UInt8) : Bool := 48 ≤ b && b ≤ 57

def digit (d : Nat) : UInt8 := UInt8.ofNat (48 + d)

def decimalAux : Nat → Nat → List UInt8
  | 0, _ => []
  | fuel + 1, n => if n < 10 then [digit n] else decimalAux fuel (n / 10) ++ [digit (n % 10)]

def decimal (n : Nat) : List UInt8 := decimalAux (n + 1) n

def value (ds : List UInt8) : Nat := ds.foldl (fun n b => n * 10 + (b.toNat - 48)) 0

theorem digit_spec : ∀ d < 10, isDigit (digit d) = true ∧ (digit d).toNat - 48 = d := by decide

theorem value_append (ds : List UInt8) (b : UInt8) :
    value (ds ++ [b]) = value ds * 10 + (b.toNat - 48) := by
  rw [value, List.foldl_append]
  rfl

theorem value_decimalAux {fuel n : Nat} (h : n < fuel) : value (decimalAux fuel n) = n := by
  induction fuel generalizing n with
  | zero => omega
  | succ fuel ih =>
    unfold decimalAux
    split
    · rename_i hn
      rw [← List.nil_append [digit n], value_append, (digit_spec n hn).2]
      exact Nat.zero_add n
    · rw [value_append, ih (by omega), (digit_spec (n % 10) (by omega)).2]
      omega

theorem isDigit_decimalAux (fuel n : Nat) : ∀ b ∈ decimalAux fuel n, isDigit b = true := by
  induction fuel generalizing n with
  | zero => simp [decimalAux]
  | succ fuel ih =>
    unfold decimalAux
    split
    · rename_i hn
      simp [(digit_spec n hn).1]
    · intro b hb
      rcases List.mem_append.mp hb with hb | hb
      · exact ih _ b hb
      · rw [List.mem_singleton.mp hb]
        exact (digit_spec (n % 10) (by omega)).1

theorem value_decimal (n : Nat) : value (decimal n) = n := value_decimalAux (Nat.lt_succ_self n)

theorem isDigit_decimal (n : Nat) : ∀ b ∈ decimal n, isDigit b = true := isDigit_decimalAux _ n

@[simp] theorem decimal_ne_nil (n : Nat) : decimal n ≠ [] := by
  unfold decimal decimalAux
  split
  · simp
  · simp

example : decimal 8042 = [56, 48, 52, 50] := by decide

end Sylar.Lib.Numerals
