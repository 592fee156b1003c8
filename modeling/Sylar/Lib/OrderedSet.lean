import Mathlib.Order.Lattice
import Mathlib.Data.List.Basic
import Mathlib.Data.List.Induction
import Mathlib.Data.List.TakeDrop
import Mathlib.Data.List.TakeWhile

/-! An ordered set in the manner of a search tree with a comparator: the
elements stand in one list, an iterator is a position in it, and the position
one past the last element is the end. The comparator is read from a linearly
ordered key; elements whose keys agree count as the same element. -/
namespace Sylar.Lib.OrderedSet

variable {α κ : Type*}

def lowerBound (below : α → Bool) (l : List α) : Nat :=
  (l.takeWhile below).length

/-- Whether the iterator stands on an element equivalent to `x`, given that
nothing before it is. -/
def holds (less : α → α → Bool) (x : α) (l : List α) (it : Nat) : Bool :=
  l[it]?.any fun y => !less x y

def find (less : α → α → Bool) (x : α) (l : List α) : Nat :=
  let it := lowerBound (less · x) l
  if holds less x l it then it else l.length

def insert (less : α → α → Bool) (x : α) (l : List α) : List α × Nat :=
  let it := lowerBound (less · x) l
  if holds less x l it then (l, it) else (l.take it ++ x :: l.drop it, it)

theorem take_lowerBound (below : α → Bool) (l : List α) :
    l.take (lowerBound below l) = l.takeWhile below := by
  induction l with
  | nil => rfl
  | cons a l ih =>
    simp only [lowerBound, List.takeWhile_cons] at ih ⊢
    split
    · simpa using ih
    · rfl

theorem drop_lowerBound (below : α → Bool) (l : List α) :
    l.drop (lowerBound below l) = l.dropWhile below := by
  induction l with
  | nil => rfl
  | cons a l ih =>
    simp only [lowerBound, List.takeWhile_cons, List.dropWhile_cons] at ih ⊢
    split
    · simpa using ih
    · rfl

theorem insert_snd (less : α → α → Bool) (x : α) (l : List α) :
    (insert less x l).2 = lowerBound (less · x) l := by
  simp only [insert]
  split <;> rfl

theorem insert_last {less : α → α → Bool} {x : α} {l : List α} (h : ∀ y ∈ l, less y x = true) :
    (insert less x l).1 = l ++ [x] := by
  have hall : l.takeWhile (less · x) = l := List.takeWhile_eq_self_iff.mpr h
  simp [insert, lowerBound, hall, holds]

theorem foldl_insert {less : α → α → Bool} {l : List α}
    (h : l.Pairwise fun a b => less a b = true) :
    l.foldl (fun set x => (insert less x set).1) [] = l := by
  induction l using List.reverseRecOn with
  | nil => rfl
  | append_singleton l x ih =>
    obtain ⟨hl, -, hlast⟩ := List.pairwise_append.mp h
    rw [List.foldl_append, ih hl]
    exact insert_last fun y hy => hlast y hy x (List.mem_singleton_self x)

theorem head_of_lowerBound_ne_zero {below : α → Bool} {l : List α} (h : lowerBound below l ≠ 0) :
    ∃ x ∈ l, below x = true := by
  cases l with
  | nil => exact absurd rfl h
  | cons x l =>
    refine ⟨x, List.mem_cons_self, ?_⟩
    by_contra hx
    apply h
    rw [lowerBound, List.takeWhile_cons_of_neg hx]
    rfl

theorem take_drop_eq_filter {p : α → Bool} {l : List α} {n : Nat}
    (hfront : ∀ x ∈ l.take n, p x = true) (hback : ∀ x ∈ l.drop n, p x = false) :
    l.take n = l.filter p ∧ l.drop n = l.filter (!p ·) := by
  have hcut : ∀ q : α → Bool, l.filter q = (l.take n).filter q ++ (l.drop n).filter q := by
    intro q
    rw [← List.filter_append, List.take_append_drop]
  constructor
  · rw [hcut, List.filter_eq_self.mpr hfront, List.filter_eq_nil_iff.mpr (by simpa using hback),
      List.append_nil]
  · rw [hcut, List.filter_eq_nil_iff.mpr (by simpa using hfront),
      List.filter_eq_self.mpr (by simpa using hback), List.nil_append]

section Keyed

variable [LinearOrder κ]

def Sorted (key : α → κ) (l : List α) : Prop :=
  l.Pairwise fun a b => key a < key b

variable {key key' : α → κ} {l : List α} {x : α}

theorem Sorted.nodup (h : Sorted key l) : l.Nodup := by
  apply List.Pairwise.imp _ h
  intro a b hab heq
  rw [heq] at hab
  exact lt_irrefl _ hab

theorem Sorted.congr (h : Sorted key l) (hkey : ∀ a ∈ l, key' a = key a) : Sorted key' l := by
  apply List.Pairwise.imp_of_mem _ h
  intro a b ha hb hab
  rw [hkey a ha, hkey b hb]
  exact hab

theorem Sorted.sublist {l' : List α} (h : Sorted key l) (hsub : l'.Sublist l) :
    Sorted key l' :=
  List.Pairwise.sublist hsub h

theorem Sorted.eq_of_perm {l' : List α} (h : Sorted key l) (h' : Sorted key l') (hperm : l.Perm l') :
    l = l' := by
  apply List.Perm.eq_of_pairwise _ h h' hperm
  intro a b _ _ hab hba
  exact absurd hba (lt_asymm hab)

theorem Sorted.split (h : Sorted key l) (hx : x ∈ l) :
    ∃ before after, l = before ++ x :: after ∧ x ∉ before ++ after ∧
      (∀ y ∈ before, key y < key x) ∧ ∀ y ∈ after, key x < key y := by
  obtain ⟨before, after, rfl⟩ := List.append_of_mem hx
  obtain ⟨_, hright, hcross⟩ := List.pairwise_append.mp h
  have hafter := (List.pairwise_cons.mp hright).1
  have hbefore : ∀ y ∈ before, key y < key x := fun y hy => hcross y hy x (by simp)
  refine ⟨before, after, rfl, ?_, hbefore, hafter⟩
  intro hmem
  rcases List.mem_append.mp hmem with hmem | hmem
  · exact lt_irrefl _ (hbefore x hmem)
  · exact lt_irrefl _ (hafter x hmem)

theorem Sorted.lowerBound_split (h : Sorted key l) (below : α → Bool) (k : κ)
    (hbelow : ∀ a ∈ l, below a = true ↔ key a < k) :
    (∀ y ∈ l.take (lowerBound below l), key y < k) ∧
      ∀ y ∈ l.drop (lowerBound below l), k ≤ key y := by
  rw [take_lowerBound, drop_lowerBound]
  constructor
  · intro y hy
    apply (hbelow y ((List.takeWhile_sublist below).subset hy)).mp
    exact List.all_eq_true.mp List.all_takeWhile y hy
  · induction l with
    | nil => simp
    | cons a l ih =>
      obtain ⟨hhead, htail⟩ := List.pairwise_cons.mp h
      intro y hy
      by_cases ha : below a = true
      · rw [List.dropWhile_cons_of_pos ha] at hy
        exact ih htail (fun b hb => hbelow b (List.mem_cons_of_mem _ hb)) y hy
      · rw [List.dropWhile_cons_of_neg ha] at hy
        have hka : k ≤ key a := not_lt.mp fun hlt => ha ((hbelow a (by simp)).mpr hlt)
        rcases List.mem_cons.mp hy with rfl | hy
        · exact hka
        · exact le_of_lt (lt_of_le_of_lt hka (hhead y hy))

variable {less : α → α → Bool} (hless : ∀ a b, less a b = true ↔ key a < key b)
include hless

theorem find_of_split {before after : List α} (hbefore : ∀ y ∈ before, key y < key x) :
    find less x (before ++ x :: after) = before.length := by
  have hirr : less x x = false := by
    rw [Bool.eq_false_iff]
    intro hxx
    exact lt_irrefl _ ((hless x x).mp hxx)
  have hlower : lowerBound (less · x) (before ++ x :: after) = before.length := by
    have hall : ∀ y ∈ before, less y x = true := fun y hy => (hless y x).mpr (hbefore y hy)
    simp only [lowerBound]
    rw [List.takeWhile_append_of_pos hall, List.takeWhile_cons_of_neg (by simp [hirr]),
      List.append_nil]
  simp [find, hlower, holds, hirr]

theorem Sorted.insert_fresh (h : Sorted key l) (hfresh : ∀ y ∈ l, key y ≠ key x) :
    ∃ it, insert less x l = (l.take it ++ x :: l.drop it, it) ∧
      Sorted key (l.take it ++ x :: l.drop it) := by
  obtain ⟨hbelow, habove⟩ := h.lowerBound_split (less · x) (key x) fun a _ => hless a x
  have habove' : ∀ y ∈ l.drop (lowerBound (less · x) l), key x < key y := by
    intro y hy
    exact lt_of_le_of_ne (habove y hy) (hfresh y (List.mem_of_mem_drop hy)).symm
  have hnot : holds less x l (lowerBound (less · x) l) = false := by
    simp only [holds]
    rw [← List.head?_drop]
    cases hdrop : l.drop (lowerBound (less · x) l) with
    | nil => rfl
    | cons y after =>
      have hxy := (hless x y).mpr (habove' y (by simp [hdrop]))
      simp [hxy]
  refine ⟨lowerBound (less · x) l, by simp [insert, hnot], ?_⟩
  have hsplit : (l.take (lowerBound (less · x) l) ++ l.drop (lowerBound (less · x) l)).Pairwise
      fun a b => key a < key b := by
    rw [List.take_append_drop]
    exact h
  obtain ⟨hleft, hright, hcross⟩ := List.pairwise_append.mp hsplit
  refine List.pairwise_append.mpr ⟨hleft, List.pairwise_cons.mpr ⟨habove', hright⟩, ?_⟩
  intro a ha b hb
  rcases List.mem_cons.mp hb with rfl | hb
  · exact hbelow a ha
  · exact hcross a ha b hb

end Keyed

end Sylar.Lib.OrderedSet
