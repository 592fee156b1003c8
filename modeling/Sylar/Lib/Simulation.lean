import Mathlib.Data.List.Basic

/-! Two fallible computations that fail alike or give related results, and the rules
for sequences and loops of them. -/
namespace Sylar.Lib

variable {φ α β α' β' γ : Type}

inductive Related (R : α → β → Prop) : Except φ α → Except φ β → Prop where
  | ok {a : α} {b : β} (h : R a b) : Related R (.ok a) (.ok b)
  | error (e : φ) : Related R (.error e) (.error e)

variable {R : α → β → Prop} {S : α' → β' → Prop} {x : Except φ α} {y : Except φ β}

theorem Related.bind {f : α → Except φ α'} {g : β → Except φ β'} (h : Related R x y)
    (hfg : ∀ a b, R a b → Related S (f a) (g b)) : Related S (x >>= f) (y >>= g) := by
  cases h with
  | ok h => exact hfg _ _ h
  | error e => exact .error e

theorem Related.attach (h : Related R x y) : Related (fun a b => R a b ∧ x = .ok a) x y := by
  cases h with
  | ok h => exact .ok ⟨h, rfl⟩
  | error e => exact .error e

theorem Related.foldlM {f : α → γ → Except φ α} {g : β → γ → Except φ β} (l : List γ)
    {a : α} {b : β} (h : R a b)
    (hstep : ∀ c ∈ l, ∀ a b, R a b → Related R (f a c) (g b c)) :
    Related R (l.foldlM f a) (l.foldlM g b) := by
  induction l generalizing a b with
  | nil => exact .ok h
  | cons c l ih =>
    rw [List.foldlM_cons, List.foldlM_cons]
    refine (hstep c List.mem_cons_self a b h).bind ?_
    intro a b h
    exact ih h fun c hc => hstep c (List.mem_cons_of_mem _ hc)

theorem Related.exists_ok {b : β} (h : Related R x (.ok b)) : ∃ a, x = .ok a ∧ R a b := by
  generalize hy : Except.ok b = y at h
  cases h with
  | ok h =>
    obtain rfl := Except.ok.inj hy
    exact ⟨_, rfl, h⟩
  | error e => cases hy

theorem Related.eq_error {e : φ} (h : Related R x (.error e)) : x = .error e := by
  generalize hy : Except.error e = y at h
  cases h with
  | ok h => cases hy
  | error e' => rw [Except.error.inj hy]

theorem Related.eq {x' : Except φ α} (h : Related (· = ·) x x') : x = x' := by
  cases h with
  | ok h => rw [h]
  | error e => rfl

end Sylar.Lib
