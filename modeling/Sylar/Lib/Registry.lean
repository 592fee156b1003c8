import Mathlib.Data.List.Basic
import Mathlib.Data.List.Nodup

/-! Entries that a history of calls sets and drops by key. `InForce` says which call of a
history an entry comes from; `live` lists the entries in force in the order of those
calls, and a list that is kept up to date call by call is that list. -/
namespace Sylar.Lib.Registry

variable {C K V : Type*}

/-- What a call does to the entry of one key. -/
inductive Change (K V : Type*) where
  | put (k : K) (v : V)
  | drop (k : K)

def Change.key : Change K V → K
  | .put k _ => k
  | .drop k => k

variable [DecidableEq K] (ev : C → Option (Change K V))

def touches (c : C) (k : K) : Bool := (ev c).any fun x => x.key = k

/-- Call `i` set the entry of `k` to `v`, and no later call has set or dropped it. -/
def InForce (h : List C) (i : Nat) (k : K) (v : V) : Prop :=
  (∃ c, h[i]? = some c ∧ ev c = some (.put k v)) ∧
    ∀ j c, i < j → h[j]? = some c → touches ev c k = false

def live : List C → List (K × V)
  | [] => []
  | c :: h =>
    match ev c with
    | some (.put k v) => if h.any (touches ev · k) then live h else (k, v) :: live h
    | _ => live h

def update (l : List (K × V)) : Option (Change K V) → List (K × V)
  | none => l
  | some (.put k v) => l.filter (·.1 ≠ k) ++ [(k, v)]
  | some (.drop k) => l.filter (·.1 ≠ k)

variable {ev}

theorem touches_put {c : C} {k : K} {v : V} (hc : ev c = some (.put k v)) :
    touches ev c k = true := by
  simp [touches, hc, Change.key]

@[simp] theorem not_inForce_nil (i : Nat) (k : K) (v : V) : ¬ InForce ev [] i k v := by
  rintro ⟨⟨c, hc, -⟩, -⟩
  cases hc

theorem inForce_zero {c : C} {h : List C} {k : K} {v : V} :
    InForce ev (c :: h) 0 k v ↔ ev c = some (.put k v) ∧ h.any (touches ev · k) = false := by
  have hall : (∀ j c', 0 < j → (c :: h)[j]? = some c' → touches ev c' k = false) ↔
      h.any (touches ev · k) = false := by
    rw [List.any_eq_false]
    constructor
    · intro hlater c' hc'
      obtain ⟨j, hj⟩ := List.mem_iff_getElem?.mp hc'
      exact Bool.eq_false_iff.mp (hlater (j + 1) c' (Nat.succ_pos j) hj)
    · intro hlater j c' hj hget
      cases j with
      | zero => omega
      | succ j => exact Bool.eq_false_iff.mpr (hlater c' (List.mem_of_getElem? hget))
  unfold InForce
  rw [hall]
  simp

theorem inForce_succ {c : C} {h : List C} {i : Nat} {k : K} {v : V} :
    InForce ev (c :: h) (i + 1) k v ↔ InForce ev h i k v := by
  unfold InForce
  refine and_congr Iff.rfl ?_
  constructor
  · intro hlater j c' hj hget
    exact hlater (j + 1) c' (Nat.succ_lt_succ hj) hget
  · intro hlater j c' hj hget
    cases j with
    | zero => omega
    | succ j => exact hlater j c' (Nat.lt_of_succ_lt_succ hj) hget

theorem InForce.unique {h : List C} {i j : Nat} {k : K} {v w : V} (hi : InForce ev h i k v)
    (hj : InForce ev h j k w) : i = j ∧ v = w := by
  obtain ⟨⟨c, hc, hput⟩, hlater⟩ := hi
  obtain ⟨⟨c', hc', hput'⟩, hlater'⟩ := hj
  have hij : i = j := by
    rcases Nat.lt_trichotomy i j with hlt | heq | hlt
    · have := hlater j c' hlt hc'
      rw [touches_put hput'] at this
      cases this
    · exact heq
    · have := hlater' i c hlt hc
      rw [touches_put hput] at this
      cases this
  subst hij
  rw [hc] at hc'
  cases hc'
  rw [hput] at hput'
  cases hput'
  exact ⟨rfl, rfl⟩

theorem InForce.call_unique {h : List C} {i : Nat} {k l : K} {v w : V}
    (hk : InForce ev h i k v) (hl : InForce ev h i l w) : k = l ∧ v = w := by
  obtain ⟨⟨c, hc, hput⟩, -⟩ := hk
  obtain ⟨⟨c', hc', hput'⟩, -⟩ := hl
  rw [hc] at hc'
  cases hc'
  rw [hput] at hput'
  cases hput'
  exact ⟨rfl, rfl⟩

variable (ev) in
/-- The first call of a history either sets an entry that stays in force, or leaves the
list to the calls after it. -/
theorem live_cons (c : C) (h : List C) :
    (∃ k v, InForce ev (c :: h) 0 k v ∧ live ev (c :: h) = (k, v) :: live ev h) ∨
      ((∀ k v, ¬ InForce ev (c :: h) 0 k v) ∧ live ev (c :: h) = live ev h) := by
  cases hc : ev c with
  | none =>
    refine .inr ⟨?_, by simp only [live, hc]⟩
    intro k v hin
    rw [inForce_zero, hc] at hin
    cases hin.1
  | some x =>
    cases x with
    | drop k =>
      refine .inr ⟨?_, by simp only [live, hc]⟩
      intro k v hin
      rw [inForce_zero, hc] at hin
      cases hin.1
    | put k v =>
      by_cases hany : h.any (touches ev · k) = true
      · refine .inr ⟨?_, by simp only [live, hc, if_pos hany]⟩
        intro k' v' hin
        rw [inForce_zero, hc] at hin
        obtain ⟨heq, hlater⟩ := hin
        cases heq
        rw [hany] at hlater
        cases hlater
      · refine .inl ⟨k, v, ?_, by simp only [live, hc, if_neg hany]⟩
        exact inForce_zero.mpr ⟨hc, Bool.eq_false_iff.mpr hany⟩

theorem mem_live {h : List C} {k : K} {v : V} :
    (k, v) ∈ live ev h ↔ ∃ i, InForce ev h i k v := by
  induction h with
  | nil => simp [live]
  | cons c h ih =>
    have hsplit : (∃ i, InForce ev (c :: h) i k v) ↔
        InForce ev (c :: h) 0 k v ∨ ∃ i, InForce ev h i k v := by
      constructor
      · rintro ⟨i, hi⟩
        cases i with
        | zero => exact .inl hi
        | succ i => exact .inr ⟨i, inForce_succ.mp hi⟩
      · rintro (hzero | ⟨i, hi⟩)
        · exact ⟨0, hzero⟩
        · exact ⟨i + 1, inForce_succ.mpr hi⟩
    rw [hsplit, ← ih]
    rcases live_cons ev c h with ⟨k', v', hin, hlive⟩ | ⟨hnone, hlive⟩
    · rw [hlive, List.mem_cons, Prod.mk.injEq]
      refine or_congr_left ⟨?_, ?_⟩
      · rintro ⟨rfl, rfl⟩
        exact hin
      · intro hin'
        exact hin'.call_unique hin
    · rw [hlive]
      exact ⟨.inr, fun hor => hor.resolve_left (hnone k v)⟩

theorem nodup_live (h : List C) : ((live ev h).map Prod.fst).Nodup := by
  induction h with
  | nil => exact List.nodup_nil
  | cons c h ih =>
    rcases live_cons ev c h with ⟨k, v, hin, hlive⟩ | ⟨-, hlive⟩
    · rw [hlive, List.map_cons, List.nodup_cons]
      refine ⟨?_, ih⟩
      intro hmem
      obtain ⟨⟨k', w⟩, hw, rfl⟩ := List.mem_map.mp hmem
      obtain ⟨j, hj⟩ := mem_live.mp hw
      have := (hin.unique (inForce_succ.mpr hj)).1
      omega
    · rw [hlive]
      exact ih

variable (ev) in
theorem find?_live (p : K → Bool) (h : List C) :
    match (live ev h).find? (p ·.1) with
    | some (k, v) => ∃ i, InForce ev h i k v ∧ p k = true ∧
        ∀ j l w, InForce ev h j l w → p l = true → i ≤ j
    | none => ∀ j l w, InForce ev h j l w → p l = false := by
  induction h with
  | nil =>
    intro j l w hin
    exact absurd hin (not_inForce_nil j l w)
  | cons c h ih =>
    -- entries of the tail, for a head that does not pass or sets nothing in force
    have htail (hskip : ∀ k v, InForce ev (c :: h) 0 k v → p k = false) :
        match (live ev h).find? (p ·.1) with
        | some (k, v) => ∃ i, InForce ev (c :: h) i k v ∧ p k = true ∧
            ∀ j l w, InForce ev (c :: h) j l w → p l = true → i ≤ j
        | none => ∀ j l w, InForce ev (c :: h) j l w → p l = false := by
      cases hfind : (live ev h).find? (p ·.1) with
      | some e =>
        rw [hfind] at ih
        obtain ⟨i, hin, hp, hfirst⟩ := ih
        refine ⟨i + 1, inForce_succ.mpr hin, hp, ?_⟩
        intro j l w hj hl
        cases j with
        | zero =>
          rw [hskip l w hj] at hl
          cases hl
        | succ j => exact Nat.succ_le_succ (hfirst j l w (inForce_succ.mp hj) hl)
      | none =>
        rw [hfind] at ih
        intro j l w hj
        cases j with
        | zero => exact hskip l w hj
        | succ j => exact ih j l w (inForce_succ.mp hj)
    rcases live_cons ev c h with ⟨k, v, hin, hlive⟩ | ⟨hnone, hlive⟩
    · rw [hlive, List.find?_cons]
      cases hp : p k with
      | true => exact ⟨0, hin, hp, fun j _ _ _ _ => Nat.zero_le j⟩
      | false =>
        apply htail
        intro k' v' hin'
        rw [(hin'.call_unique hin).1]
        exact hp
    · rw [hlive]
      exact htail fun k v hin => absurd hin (hnone k v)

theorem live_concat (h : List C) (c : C) :
    live ev (h ++ [c]) = update (live ev h) (ev c) := by
  induction h with
  | nil =>
    cases hc : ev c with
    | none => simp only [List.nil_append, live, hc, update]
    | some x => cases x <;> simp [live, hc, update]
  | cons d h ih =>
    have hany (k : K) : (h ++ [c]).any (touches ev · k) =
        (h.any (touches ev · k) || touches ev c k) := by simp
    rw [List.cons_append]
    cases hd : ev d with
    | none => simp only [live, hd, ih]
    | some x =>
      cases x with
      | drop k => simp only [live, hd, ih]
      | put k v =>
        simp only [live, hd, hany, ih]
        cases hlater : h.any (touches ev · k) with
        | true => simp
        | false =>
          cases hc : ev c with
          | none => simp [touches, hc, update]
          | some y =>
            cases y with
            | drop l =>
              by_cases hkl : k = l
              · simp [touches, hc, update, Change.key, hkl]
              · simp [touches, hc, update, Change.key, hkl, Ne.symm hkl]
            | put l w =>
              by_cases hkl : k = l
              · simp [touches, hc, update, Change.key, hkl]
              · simp [touches, hc, update, Change.key, hkl, Ne.symm hkl]

theorem eraseP_eq_filter {l : List (K × V)} (hl : (l.map Prod.fst).Nodup) (k : K) :
    l.eraseP (·.1 = k) = l.filter (·.1 ≠ k) := by
  induction l with
  | nil => rfl
  | cons e l ih =>
    rw [List.map_cons, List.nodup_cons] at hl
    by_cases he : e.1 = k
    · have hrest : l.filter (·.1 ≠ k) = l := by
        rw [List.filter_eq_self]
        intro e' he'
        have hne : e'.1 ≠ k := by
          rintro rfl
          exact hl.1 (he ▸ List.mem_map_of_mem he')
        simpa using hne
      rw [List.eraseP_cons_of_pos (by simpa using he), List.filter_cons_of_neg (by simpa using he),
        hrest]
    · rw [List.eraseP_cons_of_neg (by simpa using he), List.filter_cons_of_pos (by simpa using he),
        ih hl.2]

end Sylar.Lib.Registry
