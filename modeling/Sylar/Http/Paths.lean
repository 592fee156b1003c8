import Sylar.Http.Parser

/-! Paths through the automaton. What each arc does is read off the table entry by
entry; the rest follows along the bytes. The states before the first blank of a
request, where its method is, are entered from the first state only. -/
namespace Sylar.Http

open Lib

section Table

variable {r : Bool} {cs : Nat} {b : UInt8} {arc : Arc}

theorem state_of_le (h : 350 ≤ cs) : state cs = ⟨[], []⟩ := by
  have hblock : blocks[cs / 50]? = none := List.getElem?_eq_none (show 7 ≤ cs / 50 by omega)
  simp only [state, hblock, Option.bind_none, Option.getD_none]

theorem next_entry {P : Nat → Nat × Nat × Arc → Prop}
    (h : ∀ cs < 350, ∀ e ∈ (state cs).arcs ++ (state cs).relaxed, P cs e)
    (hn : next r cs b = some arc) :
    ∃ lo hi, P cs (lo, hi, arc) ∧ lo ≤ b.toNat ∧ b.toNat ≤ hi := by
  have hentry : ∃ lo hi, (lo, hi, arc) ∈ (state cs).arcs ++ (state cs).relaxed ∧
      lo ≤ b.toNat ∧ b.toNat ≤ hi := by
    simp only [next] at hn
    cases hp : RangeTable.pick b.toNat (state cs).arcs with
    | some arc' =>
      rw [hp] at hn
      obtain rfl := Option.some.inj hn
      obtain ⟨lo, hi, hmem, hb⟩ := RangeTable.mem_of_pick hp
      exact ⟨lo, hi, List.mem_append_left _ hmem, hb⟩
    | none =>
      rw [hp] at hn
      obtain ⟨lo, hi, hmem, hb⟩ := RangeTable.mem_of_pick (Option.ite_none_right_eq_some.mp hn).2
      exact ⟨lo, hi, List.mem_append_right _ hmem, hb⟩
  obtain ⟨lo, hi, hmem, hb⟩ := hentry
  have hcs : cs < 350 := by
    by_contra hcs
    rw [state_of_le (Nat.le_of_not_lt hcs)] at hmem
    cases hmem
  exact ⟨lo, hi, h cs hcs _ hmem, hb⟩

def inMethod (cs : Nat) : Bool := cs == 2 || (175 ≤ cs && cs ≤ 193)

def pastMethod (cs : Nat) : Bool := cs != httpParserStart && !inMethod cs

/-- An arc that does not need `uri_relaxed` is there in any case. -/
theorem next_relaxed (h : next false cs b = some arc) : next r cs b = some arc := by
  unfold next at h ⊢
  cases hpick : RangeTable.pick b.toNat (state cs).arcs with
  | none =>
    rw [hpick] at h
    cases h
  | some arc' =>
    rw [hpick] at h
    exact h

theorem next_target (h : next r cs b = some arc) :
    arc.target ≠ httpParserError ∧ (httpParserFirstFinal ≤ arc.target ↔ .done ∈ arc.actions) := by
  obtain ⟨_, _, h, _⟩ := next_entry
    (P := fun _ e => e.2.2.target ≠ httpParserError ∧
      (httpParserFirstFinal ≤ e.2.2.target ↔ .done ∈ e.2.2.actions)) (by decide +kernel) h
  exact h

theorem next_inMethod (hcs : inMethod cs) (h : next r cs b = some arc) :
    (b = 32 ∧ arc = Arc.tr4) ∨ (b ≠ 32 ∧ arc.actions = [] ∧ inMethod arc.target) := by
  obtain ⟨lo, hi, h, hlo, hhi⟩ := next_entry
    (P := fun cs e => inMethod cs → (e.1 = 32 ∧ e.2.1 = 32 ∧ e.2.2 = Arc.tr4) ∨
      (32 < e.1 ∧ e.2.2.actions = [] ∧ inMethod e.2.2.target)) (by decide +kernel) h
  rcases h hcs with ⟨rfl, rfl, harc⟩ | ⟨hlt, harc⟩
  · exact .inl ⟨UInt8.toNat_inj.mp (Nat.le_antisymm hhi hlo), harc⟩
  · refine .inr ⟨?_, harc⟩
    rintro rfl
    exact absurd (Nat.lt_of_lt_of_le hlt hlo) (by decide)

theorem next_blank (hcs : inMethod cs) : next r cs 32 = some Arc.tr4 := by
  have hlt : cs < 350 := by
    simp only [inMethod, Bool.or_eq_true, beq_iff_eq, Bool.and_eq_true, decide_eq_true_eq] at hcs
    omega
  have hpick : ∀ cs < 350, inMethod cs →
      RangeTable.pick (32 : UInt8).toNat (state cs).arcs = some Arc.tr4 := by decide +kernel
  rw [next, hpick cs hlt hcs]

theorem next_pastMethod (hcs : pastMethod cs) (h : next r cs b = some arc) :
    .request_method ∉ arc.actions ∧ pastMethod arc.target := by
  obtain ⟨_, _, h, _⟩ := next_entry
    (P := fun cs e => pastMethod cs → .request_method ∉ e.2.2.actions ∧ pastMethod e.2.2.target)
    (by decide +kernel) h
  exact h hcs

def methodStart (b : UInt8) : Bool := (48 ≤ b && b ≤ 57) || (65 ≤ b && b ≤ 90)

theorem next_start (hb : methodStart b) : next r httpParserStart b = some Arc.tr0 := by
  have hrow : (state httpParserStart).arcs =
      [(48, 57, Arc.tr0), (60, 60, Arc.tr2), (64, 64, Arc.tr3), (65, 90, Arc.tr0)] := rfl
  simp only [methodStart, Bool.or_eq_true, Bool.and_eq_true, decide_eq_true_eq,
    UInt8.le_iff_toNat_le] at hb
  change 48 ≤ b.toNat ∧ b.toNat ≤ 57 ∨ 65 ≤ b.toNat ∧ b.toNat ≤ 90 at hb
  have hpick : RangeTable.pick b.toNat (state httpParserStart).arcs = some Arc.tr0 := by
    rcases hb with hb | hb
    · rw [hrow, RangeTable.pick, if_pos hb]
    · rw [hrow, RangeTable.pick, if_neg (by omega), RangeTable.pick, if_neg (by omega),
        RangeTable.pick, if_neg (by omega), RangeTable.pick, if_pos hb]
  rw [next, hpick]

@[simp] theorem next_error : next r httpParserError b = none := by
  cases r <;> rfl

end Table

section Paths

variable (r : Bool)

/-- The state after the bytes; the automaton stops where it is done. -/
def run : Nat → Bytes → Nat
  | cs, [] => cs
  | cs, b :: bs =>
    match next r cs b with
    | none => httpParserError
    | some arc => if .done ∈ arc.actions then arc.target else run arc.target bs

def completes : Nat → Bytes → Bool
  | _, [] => false
  | cs, b :: bs =>
    match next r cs b with
    | none => false
    | some arc => if .done ∈ arc.actions then bs.isEmpty else completes arc.target bs

variable {r} {cs : Nat} {b : UInt8} {arc : Arc} {bs more : Bytes}

theorem run_cons (h : next r cs b = some arc) (hd : .done ∉ arc.actions) :
    run r cs (b :: bs) = run r arc.target bs := by
  simp only [run, h, if_neg hd]

theorem completes_cons (h : next r cs b = some arc) (hd : .done ∉ arc.actions) :
    completes r cs (b :: bs) = completes r arc.target bs := by
  simp only [completes, h, if_neg hd]

theorem completes_next (h : completes r cs (b :: bs)) :
    ∃ arc, next r cs b = some arc ∧
      (.done ∈ arc.actions ∧ bs = [] ∨ .done ∉ arc.actions ∧ completes r arc.target bs) := by
  cases hn : next r cs b with
  | none => simp [completes, hn] at h
  | some arc =>
    refine ⟨arc, rfl, ?_⟩
    by_cases hd : .done ∈ arc.actions
    · simp only [completes, hn, if_pos hd, List.isEmpty_iff] at h
      exact .inl ⟨hd, h⟩
    · exact .inr ⟨hd, completes_cons hn hd ▸ h⟩

theorem completes_ne_error (h : completes r cs bs) : cs ≠ httpParserError := by
  rintro rfl
  cases bs with
  | nil => cases h
  | cons b bs =>
    obtain ⟨arc, hn, _⟩ := completes_next h
    rw [next_error] at hn
    cases hn

theorem completes_append (hm : more ≠ []) (hcs : cs < httpParserFirstFinal)
    (h : completes r cs (bs ++ more)) :
    run r cs bs < httpParserFirstFinal ∧ completes r (run r cs bs) more := by
  induction bs generalizing cs with
  | nil => exact ⟨hcs, h⟩
  | cons b bs ih =>
    obtain ⟨arc, hn, ⟨-, hnil⟩ | ⟨hd, h⟩⟩ := completes_next h
    · exact absurd (List.append_eq_nil_iff.mp hnil).2 hm
    · rw [run_cons hn hd]
      exact ih (Nat.lt_of_not_le fun hle => hd ((next_target hn).2.mp hle)) h

theorem run_ne_error (hcs : cs ≠ httpParserError) (h : completes r cs (bs ++ more)) :
    run r cs bs ≠ httpParserError := by
  induction bs generalizing cs with
  | nil => exact hcs
  | cons b bs ih =>
    obtain ⟨arc, hn, ⟨hd, -⟩ | ⟨hd, h⟩⟩ := completes_next h
    · simpa only [run, hn, if_pos hd] using (next_target hn).1
    · rw [run_cons hn hd]
      exact ih (next_target hn).1 h

theorem completes_run (h : completes r cs bs) : httpParserFirstFinal ≤ run r cs bs := by
  induction bs generalizing cs with
  | nil => cases h
  | cons b bs ih =>
    obtain ⟨arc, hn, ⟨hd, -⟩ | ⟨hd, h⟩⟩ := completes_next h
    · simpa only [run, hn, if_pos hd] using (next_target hn).2.mpr hd
    · rw [run_cons hn hd]
      exact ih h

theorem run_pastMethod (hcs : pastMethod cs) : pastMethod (run r cs bs) := by
  induction bs generalizing cs with
  | nil => exact hcs
  | cons b bs ih =>
    cases hn : next r cs b with
    | none => simpa only [run, hn] using (by decide)
    | some arc =>
      have harc := (next_pastMethod hcs hn).2
      by_cases hd : .done ∈ arc.actions
      · simpa only [run, hn, if_pos hd] using harc
      · rw [run_cons hn hd]
        exact ih harc

/-- A word that the automaton stays among the states of a method with. -/
def word (r : Bool) : Nat → Bytes → Bool
  | cs, [] => inMethod cs
  | cs, b :: bs =>
    inMethod cs && match next r cs b with
      | none => false
      | some arc => word r arc.target bs

theorem word_inMethod (h : word r cs bs) : inMethod cs := by
  cases bs with
  | nil => exact h
  | cons b bs => exact (Bool.and_eq_true_iff.mp h).1

theorem word_next (h : word r cs (b :: bs)) :
    ∃ n, next r cs b = some (.st n) ∧ b ≠ 32 ∧ word r n bs := by
  obtain ⟨hcs, h⟩ := Bool.and_eq_true_iff.mp h
  cases hn : next r cs b with
  | none => simp [hn] at h
  | some arc =>
    rw [hn] at h
    rcases next_inMethod hcs hn with ⟨-, rfl⟩ | ⟨hb, hact, -⟩
    · exact absurd (word_inMethod h) (by decide)
    · refine ⟨arc.target, ?_, hb, h⟩
      obtain ⟨actions, target⟩ := arc
      obtain rfl := hact
      rfl

theorem word_append {t u : Bytes} (h : word r cs (t ++ u)) : word r (run r cs t) u := by
  induction t generalizing cs with
  | nil => exact h
  | cons b t ih =>
    obtain ⟨n, hn, -, h⟩ := word_next h
    rw [run_cons hn List.not_mem_nil]
    exact ih h

theorem run_word {t g : Bytes} (hw : word r cs t) : run r cs (t ++ 32 :: g) = run r 3 g := by
  induction t generalizing cs with
  | nil => exact run_cons (next_blank hw) (by decide)
  | cons b t ih =>
    obtain ⟨n, hn, -, hw⟩ := word_next hw
    rw [List.cons_append, run_cons hn List.not_mem_nil]
    exact ih hw

theorem run_method {t g : Bytes} (hb : methodStart b) (hw : word r 2 t) :
    run r httpParserStart (b :: (t ++ 32 :: g)) = run r 3 g := by
  rw [run_cons (next_start hb) (by decide)]
  exact run_word hw

theorem blank_not_mem_word (h : word r cs bs) : 32 ∉ bs := by
  induction bs generalizing cs with
  | nil => exact List.not_mem_nil
  | cons b bs ih =>
    obtain ⟨n, -, hb, h⟩ := word_next h
    exact List.not_mem_cons_of_ne_of_not_mem hb.symm (ih h)

theorem completes_word (hcs : inMethod cs) (h : completes r cs bs) :
    ∃ t g, bs = t ++ 32 :: g ∧ word r cs t ∧ completes r 3 g := by
  induction bs generalizing cs with
  | nil => cases h
  | cons b bs ih =>
    obtain ⟨arc, hn, hstep⟩ := completes_next h
    rcases next_inMethod hcs hn with ⟨rfl, rfl⟩ | ⟨hb, hact, htarget⟩
    · rcases hstep with ⟨hd, -⟩ | ⟨-, h⟩
      · exact absurd hd (by decide)
      · exact ⟨[], bs, rfl, hcs, h⟩
    · rcases hstep with ⟨hd, -⟩ | ⟨-, h⟩
      · simp [hact] at hd
      · obtain ⟨t, g, rfl, hw, hg⟩ := ih htarget h
        exact ⟨b :: t, g, rfl, by simp [word, hcs, hn, hw], hg⟩

end Paths

end Sylar.Http
