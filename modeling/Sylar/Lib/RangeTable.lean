import Mathlib.Data.List.Basic

/-! Rows of byte ranges, each with what a byte in it leads to. What holds of every
entry of a row holds of whatever the row picks for a byte, so a property of an
automaton can be read off its table entry by entry. -/
namespace Sylar.Lib.RangeTable

variable {γ : Type*}

abbrev Row (γ : Type*) := List (Nat × Nat × γ)

def pick (b : Nat) : Row γ → Option γ
  | [] => none
  | (lo, hi, g) :: row => if lo ≤ b ∧ b ≤ hi then some g else pick b row

theorem mem_of_pick {b : Nat} {row : Row γ} {g : γ} (h : pick b row = some g) :
    ∃ lo hi, (lo, hi, g) ∈ row ∧ lo ≤ b ∧ b ≤ hi := by
  induction row with
  | nil => cases h
  | cons entry row ih =>
    obtain ⟨lo, hi, g'⟩ := entry
    simp only [pick] at h
    split at h
    · rename_i hb
      obtain rfl := Option.some.inj h
      exact ⟨lo, hi, List.mem_cons_self, hb⟩
    · obtain ⟨lo', hi', hmem, hb⟩ := ih h
      exact ⟨lo', hi', List.mem_cons_of_mem _ hmem, hb⟩

theorem pick_map {δ : Type*} (f : γ → δ) (b : Nat) (row : Row γ) :
    pick b (row.map fun e => (e.1, e.2.1, f e.2.2)) = (pick b row).map f := by
  induction row with
  | nil => rfl
  | cons entry row ih =>
    simp only [List.map_cons, pick, ih]
    split <;> rfl

end Sylar.Lib.RangeTable
