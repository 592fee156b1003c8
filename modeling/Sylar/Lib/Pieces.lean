import Mathlib.Data.List.Basic

/-! A list that arrives in pieces, none of them empty. What is to be read may end
inside a piece, which then goes on with the beginning of what follows. -/
namespace Sylar.Lib.Pieces

variable {α : Type*} (d : List α) (rest more cuts : List (List α)) (piece : List α)

/-- The pieces of one part, the last of which goes on with `d`, and those after it. -/
def goOn (d : List α) (rest : List (List α)) : List α → List (List α) → List (List α)
  | piece, [] => (piece ++ d) :: rest
  | piece, c :: cuts => piece :: goOn d rest c cuts

@[simp] theorem goOn_nil : goOn [] rest piece cuts = piece :: (cuts ++ rest) := by
  induction cuts generalizing piece with
  | nil => rw [goOn, List.append_nil, List.nil_append]
  | cons c cuts ih => rw [goOn, ih, List.cons_append]

@[simp] theorem goOn_append :
    goOn d more piece cuts ++ rest = goOn d (more ++ rest) piece cuts := by
  induction cuts generalizing piece with
  | nil => rfl
  | cons c cuts ih => rw [goOn, goOn, List.cons_append, ih]

@[simp] theorem flatten_goOn :
    (goOn d rest piece cuts).flatten = piece ++ cuts.flatten ++ (d ++ rest.flatten) := by
  induction cuts generalizing piece with
  | nil => simp [goOn]
  | cons c cuts ih => simp [goOn, ih]

theorem exists_goOn : ∃ t reads, goOn d rest piece cuts = (piece ++ t) :: reads ∧
    piece ++ t ∈ goOn d [] piece cuts := by
  cases cuts with
  | nil => exact ⟨d, rest, rfl, List.mem_cons_self⟩
  | cons c cuts =>
    refine ⟨[], goOn d rest c cuts, ?_, ?_⟩
    · rw [List.append_nil, goOn]
    · rw [List.append_nil, goOn]
      exact List.mem_cons_self

theorem length_flatten_cons {c : List α} (hc : c ≠ []) :
    ∃ n, (c :: more).flatten.length = n + 1 ∧ c.length ≤ n + 1 ∧
      n + 1 - c.length = more.flatten.length := by
  have hpos := List.length_pos_iff.mpr hc
  have hsum : (c :: more).flatten.length = c.length + more.flatten.length := by
    rw [List.flatten_cons, List.length_append]
  exact ⟨(c :: more).flatten.length - 1, by omega⟩

variable {more}

theorem eq_nil_of_flatten (hne : ∀ c ∈ more, c ≠ []) (h : more.flatten = []) : more = [] := by
  cases more with
  | nil => rfl
  | cons c more => exact absurd (List.append_eq_nil_iff.mp h).1 (hne c List.mem_cons_self)

theorem first_cut {c : α} {a a' r r' : List α} (ha : c ∉ a) (ha' : c ∉ a')
    (h : a ++ c :: r = a' ++ c :: r') : a = a' ∧ r = r' := by
  induction a generalizing a' with
  | nil =>
    cases a' with
    | nil => exact ⟨rfl, (List.cons.inj h).2⟩
    | cons b a' => exact absurd (List.cons.inj h).1 (List.ne_of_not_mem_cons ha')
  | cons b a ih =>
    cases a' with
    | nil => exact absurd (List.cons.inj h).1.symm (List.ne_of_not_mem_cons ha)
    | cons b' a' =>
      obtain ⟨rfl, hrest⟩ := List.cons.inj h
      obtain ⟨rfl, hr⟩ := ih (List.not_mem_of_not_mem_cons ha) (List.not_mem_of_not_mem_cons ha')
        hrest
      exact ⟨rfl, hr⟩

end Sylar.Lib.Pieces
