import Mathlib.Data.List.Basic
import Mathlib.Data.List.Perm.Basic
import Mathlib.Algebra.Order.Group.Multiset
import Mathlib.Tactic.Abel

/-! A row of slots with contents, and what changing one slot does to all
contents taken together. -/
namespace Sylar.Lib.Slots

variable {α β : Type*}

private theorem split_at {l : List α} {i : Nat} {a : α} (h : l[i]? = some a) (b : α) :
    ∃ before after, l = before ++ a :: after ∧ l.set i b = before ++ b :: after := by
  obtain ⟨hi, rfl⟩ := List.getElem?_eq_some_iff.mp h
  refine ⟨l.take i, l.drop (i + 1), ?_, ?_⟩
  · rw [List.getElem_cons_drop, List.take_append_drop]
  · rw [List.set_eq_take_append_cons_drop, if_pos hi]

theorem flatMap_set_perm {l : List α} {i : Nat} {a : α} (h : l[i]? = some a) (b : α)
    (f : α → List β) : ((l.set i b).flatMap f ++ f a).Perm (l.flatMap f ++ f b) := by
  obtain ⟨before, after, rfl, hset⟩ := split_at h b
  rw [hset, ← Multiset.coe_eq_coe]
  simp only [List.flatMap_append, List.flatMap_cons, ← Multiset.coe_add]
  abel

theorem filterMap_set_perm {l : List α} {i : Nat} {a : α} (h : l[i]? = some a) (b : α)
    (f : α → Option β) :
    ((l.set i b).filterMap f ++ (f a).toList).Perm (l.filterMap f ++ (f b).toList) := by
  simp only [List.filterMap_eq_flatMap_toList]
  exact flatMap_set_perm h b fun x => (f x).toList

theorem flatMap_set_gain {l : List α} {i : Nat} {a b : α} {f : α → List β} {x : β}
    (h : l[i]? = some a) (hgain : (f b).Perm (x :: f a)) :
    ((l.set i b).flatMap f).Perm (x :: l.flatMap f) := by
  have hset := (flatMap_set_perm h b f).trans (hgain.append_left _)
  exact (List.perm_append_right_iff (f a)).mp (hset.trans List.perm_middle)

theorem flatMap_set_lose {l : List α} {i : Nat} {a b : α} {f : α → List β} {x : β}
    (h : l[i]? = some a) (hlose : (f a).Perm (x :: f b)) :
    (x :: (l.set i b).flatMap f).Perm (l.flatMap f) := by
  have hset := ((hlose.append_left _).symm.trans (flatMap_set_perm h b f))
  exact (List.perm_append_right_iff (f b)).mp (List.perm_middle.symm.trans hset)

theorem count_flatMap_set [BEq β] {l : List α} {i : Nat} {a : α} (h : l[i]? = some a) (b : α)
    (f : α → List β) (x : β) :
    ((l.set i b).flatMap f).count x + (f a).count x = (l.flatMap f).count x + (f b).count x := by
  have hcount := (flatMap_set_perm h b f).count_eq x
  rwa [List.count_append, List.count_append] at hcount

theorem sum_map_set {M : Type*} [AddCommMonoid M] {l : List α} {i : Nat} {a : α}
    (h : l[i]? = some a) (b : α) (f : α → M) :
    ((l.set i b).map f).sum + f a = (l.map f).sum + f b := by
  obtain ⟨before, after, rfl, hset⟩ := split_at h b
  rw [hset]
  simp only [List.map_append, List.map_cons, List.sum_append, List.sum_cons]
  abel

theorem mem_set_of_ne {l : List α} {i : Nat} {a x : α} (h : l[i]? = some a) (hx : x ∈ l)
    (hne : x ≠ a) (b : α) : x ∈ l.set i b := by
  obtain ⟨before, after, rfl, hset⟩ := split_at h b
  rw [hset]
  simp only [List.mem_append, List.mem_cons] at hx ⊢
  rcases hx with hx | hx | hx
  · exact .inl hx
  · exact absurd hx hne
  · exact .inr (.inr hx)

end Sylar.Lib.Slots
