import Mathlib.Data.List.Lex
import Sylar.Http.Request

/-! The headers as an ordered map. Two keys are the same for `CaseInsensitiveLess` when
they agree in lower case up to their first null, and it compares such texts letter by
letter. -/
namespace Sylar.Http

open Lib

/-- What `strcasecmp` sees of a text. -/
def foldCase (text : Bytes) : List Nat := (text.takeWhile (· ≠ 0)).map fun b => (tolower b).toNat

section Compare

variable {b c : UInt8} {text : Bytes}

theorem tolower_eq_zero (h : tolower b = 0) : b = 0 := by
  unfold tolower at h
  split at h
  case isTrue hb =>
    simp only [UInt8.le_iff_toNat_le, ← UInt8.toNat_inj, UInt8.toNat_add] at hb h
    simp at hb h
    omega
  case isFalse => exact h

@[simp] theorem foldCase_zero : foldCase (0 :: text) = [] := rfl

@[simp] theorem foldCase_cons (h : b ≠ 0) :
    foldCase (b :: text) = (tolower b).toNat :: foldCase text := by
  rw [foldCase, List.takeWhile_cons_of_pos (by simpa using h)]
  rfl

theorem strcasecmpLess_iff (lhs rhs : Bytes) :
    strcasecmpLess lhs rhs = true ↔ foldCase lhs < foldCase rhs := by
  fun_induction strcasecmpLess lhs rhs with
  | case1 => simp [foldCase]
  | case2 r rs =>
    by_cases hr : r = 0
    · subst hr
      simp [foldCase]
    · rw [foldCase_cons hr]
      simp [hr, foldCase]
  | case3 => simp [foldCase]
  | case4 ls r rs =>
    rw [foldCase_zero]
    by_cases hr : r = 0
    · subst hr
      simp [foldCase_zero]
    · rw [foldCase_cons hr]
      simp [hr]
  | case5 l ls r rs hl hsame ih =>
    have hr : r ≠ 0 := by
      rintro rfl
      exact hl (tolower_eq_zero hsame)
    rw [foldCase_cons hl, foldCase_cons hr, hsame, List.cons_lt_cons_iff, ih]
    simp
  | case6 l ls r rs hl hdiff =>
    rw [foldCase_cons hl, decide_eq_true_eq, UInt8.lt_iff_toNat_lt]
    by_cases hr : r = 0
    · subst hr
      rw [foldCase_zero]
      simp [tolower]
    · have hne : (tolower l).toNat ≠ (tolower r).toNat := mt UInt8.toNat_inj.mp hdiff
      rw [foldCase_cons hr, List.cons_lt_cons_iff]
      simp [hne]

theorem strcasecmpEq_iff (lhs rhs : Bytes) :
    strcasecmpEq lhs rhs = true ↔ foldCase lhs = foldCase rhs := by
  unfold strcasecmpEq
  rw [Bool.and_eq_true, Bool.not_eq_true', Bool.not_eq_true', ← Bool.not_eq_true,
    ← Bool.not_eq_true, strcasecmpLess_iff, strcasecmpLess_iff, not_lt, not_lt]
  exact ⟨fun h => le_antisymm h.2 h.1, fun h => ⟨h.ge, h.le⟩⟩

end Compare

namespace Headers

def Ordered (headers : Headers) : Prop := OrderedSet.Sorted (fun e => foldCase e.1) headers

def Lacks (headers : Headers) (key : Bytes) : Prop := ∀ e ∈ headers, foldCase e.1 ≠ foldCase key

variable {headers headers' : Headers} {key val : Bytes}

theorem lowerBound_split (h : headers.Ordered) (key : Bytes) :
    (∀ e ∈ headers.take (headers.lowerBound key), foldCase e.1 < foldCase key) ∧
      ∀ e ∈ headers.drop (headers.lowerBound key), foldCase key ≤ foldCase e.1 :=
  OrderedSet.Sorted.lowerBound_split h _ _ fun e _ => strcasecmpLess_iff e.1 key

theorem getElem?_lowerBound (key : Bytes) :
    headers[headers.lowerBound key]? = (headers.drop (headers.lowerBound key)).head? :=
  List.head?_drop.symm

theorem find_of_mem (h : headers.Ordered) {e : Bytes × Bytes} (he : e ∈ headers)
    (hkey : foldCase e.1 = foldCase key) : headers.find key = some e.2 := by
  obtain ⟨hbelow, habove⟩ := lowerBound_split h key
  -- nothing before the bound has the key, and nothing behind the first element there has
  have hdrop : e ∈ headers.drop (headers.lowerBound key) := by
    rw [← List.take_append_drop (headers.lowerBound key) headers] at he
    apply (List.mem_append.mp he).resolve_left
    intro hmem
    exact absurd hkey (ne_of_lt (hbelow e hmem))
  have hsorted : OrderedSet.Sorted (fun e : Bytes × Bytes => foldCase e.1)
      (headers.drop (headers.lowerBound key)) := OrderedSet.Sorted.sublist h (List.drop_sublist _ _)
  unfold find
  rw [getElem?_lowerBound]
  cases hrest : headers.drop (headers.lowerBound key) with
  | nil =>
    rw [hrest] at hdrop
    cases hdrop
  | cons e' rest =>
    rw [hrest] at hdrop hsorted habove
    have heq : e = e' := by
      apply (List.mem_cons.mp hdrop).resolve_right
      intro hmem
      have hlt : foldCase e'.1 < foldCase e.1 := (List.pairwise_cons.mp hsorted).1 e hmem
      exact absurd (habove e' List.mem_cons_self) (not_le_of_gt (hkey ▸ hlt))
    have hnot : ¬ strcasecmpLess key e'.1 = true := by
      rw [strcasecmpLess_iff, ← heq, hkey]
      exact lt_irrefl _
    simp [hnot, heq]

theorem find_of_lacks (h : headers.Ordered) (hlacks : headers.Lacks key) :
    headers.find key = none := by
  obtain ⟨-, habove⟩ := lowerBound_split h key
  unfold find
  rw [getElem?_lowerBound]
  cases hrest : headers.drop (headers.lowerBound key) with
  | nil => rfl
  | cons e rest =>
    have he : e ∈ headers.drop (headers.lowerBound key) := by
      rw [hrest]
      exact List.mem_cons_self
    have hlt : strcasecmpLess key e.1 = true := by
      rw [strcasecmpLess_iff]
      exact lt_of_le_of_ne (habove e he) (hlacks e (List.mem_of_mem_drop he)).symm
    simp [hlt]

theorem set_of_lacks (val : Bytes) (h : headers.Ordered) (hlacks : headers.Lacks key) :
    (headers.set key val).Ordered ∧ (headers.set key val).Perm ((key, val) :: headers) := by
  obtain ⟨it, hinsert, hsorted⟩ := OrderedSet.Sorted.insert_fresh
    (fun a b : Bytes × Bytes => strcasecmpLess_iff a.1 b.1) (x := (key, val)) h hlacks
  have hset : headers.set key val = headers.take it ++ (key, val) :: headers.drop it := by
    have hit : headers.lowerBound key = it := by
      have hsnd := congrArg Prod.snd hinsert
      rw [OrderedSet.insert_snd] at hsnd
      exact hsnd
    have hnone := find_of_lacks h hlacks
    unfold find at hnone
    unfold set
    rw [hit] at hnone ⊢
    cases hget : headers[it]? with
    | none =>
      have hle := List.getElem?_eq_none_iff.mp hget
      simp only [hget, List.take_of_length_le hle, List.drop_eq_nil_of_le hle]
    | some e =>
      rw [hget] at hnone
      by_cases hlt : strcasecmpLess key e.1 = true
      · simp only [hget, if_pos hlt]
      · simp [hlt] at hnone
  rw [hset]
  refine ⟨hsorted, List.perm_middle.trans ?_⟩
  rw [List.take_append_drop]

theorem lacks_of_strcasecmpEq (h : ∀ e ∈ headers, strcasecmpEq e.1 key = false) :
    headers.Lacks key := by
  intro e he hsame
  have htrue := (strcasecmpEq_iff e.1 key).mpr hsame
  rw [h e he] at htrue
  cases htrue

def setAll (headers added : Headers) : Headers := added.foldl (fun hs e => hs.set e.1 e.2) headers

theorem setAll_of_distinct {added : Headers} (h : headers.Ordered)
    (hdistinct : (headers ++ added).Pairwise fun a b => foldCase a.1 ≠ foldCase b.1) :
    (headers.setAll added).Ordered ∧ (headers.setAll added).Perm (headers ++ added) := by
  induction added generalizing headers with
  | nil =>
    rw [List.append_nil]
    exact ⟨h, List.Perm.refl _⟩
  | cons e added ih =>
    have hlacks : headers.Lacks e.1 := by
      intro e' he'
      exact (List.pairwise_append.mp hdistinct).2.2 e' he' e List.mem_cons_self
    obtain ⟨hordered, hperm⟩ := set_of_lacks e.2 h hlacks
    have hmoved : (headers.set e.1 e.2 ++ added).Perm (headers ++ e :: added) :=
      (hperm.append_right added).trans List.perm_middle.symm
    have hnext := hmoved.symm.pairwise hdistinct fun hab => hab.symm
    obtain ⟨hordered', hperm'⟩ := ih hordered hnext
    exact ⟨hordered', hperm'.trans hmoved⟩

@[simp] theorem setAll_append (headers added more : Headers) :
    headers.setAll (added ++ more) = (headers.setAll added).setAll more :=
  List.foldl_append

theorem setAll_nil (h : headers.Ordered) : setAll [] headers = headers := by
  have hdistinct : ([] ++ headers).Pairwise
      fun a b : Bytes × Bytes => foldCase a.1 ≠ foldCase b.1 := List.Pairwise.imp ne_of_lt h
  obtain ⟨hordered, hperm⟩ := setAll_of_distinct List.Pairwise.nil hdistinct
  exact OrderedSet.Sorted.eq_of_perm hordered h hperm

@[simp] theorem set_ne_nil (headers : Headers) (key val : Bytes) : headers.set key val ≠ [] := by
  unfold set
  dsimp only
  split
  case h_1 e he =>
    split
    · simp
    · intro hnil
      have hlen : headers.length = 0 := by simpa using congrArg List.length hnil
      rw [List.length_eq_zero_iff.mp hlen] at he
      cases he
  case h_2 => simp

@[simp] theorem setAll_ne_nil (added : Headers) (h : headers ≠ []) : headers.setAll added ≠ [] := by
  induction added generalizing headers with
  | nil => exact h
  | cons e added ih => exact ih (headers.set_ne_nil e.1 e.2)

theorem setAll_nil_iff (added : Headers) : setAll [] added = [] ↔ added = [] := by
  cases added with
  | nil => simp [setAll]
  | cons e added =>
    have hne : setAll [] (e :: added) ≠ [] := setAll_ne_nil added (set_ne_nil [] e.1 e.2)
    simp [hne]

section Map

theorem find_eq_some_iff (h : headers.Ordered) :
    headers.find key = some val ↔ ∃ e ∈ headers, foldCase e.1 = foldCase key ∧ e.2 = val := by
  constructor
  · intro hfind
    by_cases hlacks : headers.Lacks key
    · rw [find_of_lacks h hlacks] at hfind
      cases hfind
    · unfold Lacks at hlacks
      push Not at hlacks
      obtain ⟨e, he, hkey⟩ := hlacks
      rw [find_of_mem h he hkey] at hfind
      exact ⟨e, he, hkey, Option.some.inj hfind⟩
  · rintro ⟨e, he, hkey, rfl⟩
    exact find_of_mem h he hkey

theorem set_of_present {before after : Headers} {e : Bytes × Bytes} (val : Bytes)
    (h : Ordered (before ++ e :: after)) (hkey : foldCase e.1 = foldCase key) :
    set key val (before ++ e :: after) = before ++ (e.1, val) :: after := by
  obtain ⟨-, -, hbefore⟩ := List.pairwise_append.mp h
  have hlower : lowerBound key (before ++ e :: after) = before.length := by
    have hless : ∀ x ∈ before, strcasecmpLess x.1 key = true := by
      intro x hx
      rw [strcasecmpLess_iff, ← hkey]
      exact hbefore x hx e List.mem_cons_self
    have hnot : ¬ strcasecmpLess e.1 key = true := by
      rw [strcasecmpLess_iff, hkey]
      exact lt_irrefl _
    rw [lowerBound, OrderedSet.lowerBound, List.takeWhile_append_of_pos hless]
    simp [hnot]
  have hnot : ¬ strcasecmpLess key e.1 = true := by
    rw [strcasecmpLess_iff, hkey]
    exact lt_irrefl _
  have hget : (before ++ e :: after)[before.length]? = some e := by simp
  simp only [set, hlower, hget, if_neg hnot]
  simp

/-- What `set` does to a map: there is one entry for the key, with the value, under the
spelling that was there first, and the other entries stay. -/
theorem set_spec (key val : Bytes) (h : headers.Ordered) : ∃ key', foldCase key' = foldCase key ∧
    (key' = key ∨ ∃ e ∈ headers, e.1 = key') ∧ (headers.set key val).Ordered ∧
    ∀ e, e ∈ headers.set key val ↔
      e = (key', val) ∨ e ∈ headers ∧ foldCase e.1 ≠ foldCase key := by
  by_cases hlacks : headers.Lacks key
  · obtain ⟨hordered, hperm⟩ := set_of_lacks val h hlacks
    refine ⟨key, rfl, .inl rfl, hordered, ?_⟩
    intro e
    rw [hperm.mem_iff, List.mem_cons]
    exact or_congr_right ⟨fun he => ⟨he, hlacks e he⟩, And.left⟩
  · unfold Lacks at hlacks
    push Not at hlacks
    obtain ⟨e, he, hkey⟩ := hlacks
    obtain ⟨before, after, rfl, -, hbelow, habove⟩ := OrderedSet.Sorted.split h he
    rw [set_of_present val h hkey]
    have hordered : Ordered (before ++ (e.1, val) :: after) := by
      obtain ⟨hfront, hback, hcross⟩ := List.pairwise_append.mp h
      obtain ⟨hafter, hrest⟩ := List.pairwise_cons.mp hback
      refine List.pairwise_append.mpr
        ⟨hfront, List.Pairwise.cons (a := (e.1, val)) hafter hrest, ?_⟩
      intro a ha b hb
      rcases List.mem_cons.mp hb with rfl | hb
      · exact hcross a ha e List.mem_cons_self
      · exact hcross a ha b (List.mem_cons_of_mem _ hb)
    refine ⟨e.1, hkey, .inr ⟨e, he, rfl⟩, hordered, ?_⟩
    intro x
    have hother : ∀ x ∈ before ++ after, foldCase x.1 ≠ foldCase key := by
      intro x hx
      rw [← hkey]
      rcases List.mem_append.mp hx with hx | hx
      · exact ne_of_lt (hbelow x hx)
      · exact (ne_of_lt (habove x hx)).symm
    rw [List.perm_middle.mem_iff, List.perm_middle.mem_iff, List.mem_cons, List.mem_cons]
    constructor
    · rintro (hx | hx)
      · exact .inl hx
      · exact .inr ⟨.inr hx, hother x hx⟩
    · rintro (hx | ⟨hx | hx, hne⟩)
      · exact .inl hx
      · rw [hx] at hne
        exact absurd hkey hne
      · exact .inr hx

theorem find_set (val k : Bytes) (h : headers.Ordered) :
    (headers.set key val).find k =
      if foldCase k = foldCase key then some val else headers.find k := by
  obtain ⟨key', hkey, -, hordered, hmem⟩ := set_spec key val h
  split
  · rename_i hk
    exact find_of_mem hordered ((hmem (key', val)).mpr (.inl rfl)) (hkey.trans hk.symm)
  · rename_i hk
    ext v
    rw [find_eq_some_iff hordered, find_eq_some_iff h]
    constructor
    · rintro ⟨e, he, hek, hev⟩
      rcases (hmem e).mp he with rfl | ⟨he, -⟩
      · exact absurd (hek.symm.trans hkey) hk
      · exact ⟨e, he, hek, hev⟩
    · rintro ⟨e, he, hek, hev⟩
      refine ⟨e, (hmem e).mpr (.inr ⟨he, ?_⟩), hek, hev⟩
      rw [hek]
      exact hk

variable {added : Headers}

theorem find_setAll (k : Bytes) (h : headers.Ordered) :
    (headers.setAll added).find k =
      ((added.reverse.find? fun e => foldCase k = foldCase e.1).map (·.2)).or (headers.find k) := by
  induction added generalizing headers with
  | nil => rfl
  | cons e added ih =>
    obtain ⟨-, -, -, hordered, -⟩ := set_spec e.1 e.2 h
    have hstep : headers.setAll (e :: added) = (headers.set e.1 e.2).setAll added := rfl
    rw [hstep, ih hordered, find_set e.2 k h, List.reverse_cons, List.find?_append]
    cases hlast : added.reverse.find? fun e => foldCase k = foldCase e.1 with
    | some x => rfl
    | none =>
      by_cases hk : foldCase k = foldCase e.1
      · simp [hk]
      · simp [hk]

end Map

end Headers

end Sylar.Http
