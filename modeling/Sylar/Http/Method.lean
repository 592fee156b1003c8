import Sylar.Http.Request

/-! The lookup of a method by its text. A text is found at a place in memory when
the bytes there begin with it, so for a text without blanks the word there
decides. No method's text begins, or goes on, where another one has lost its first
letter. -/
namespace Sylar.Http

theorem strncmpEq_length (name m : Bytes) (h0 : 0 ∉ name) :
    strncmpEq name m name.length = true ↔ name <+: m := by
  induction name generalizing m with
  | nil => simp [strncmpEq]
  | cons a name ih =>
    obtain ⟨ha, h0⟩ := List.ne_and_not_mem_of_not_mem_cons h0
    cases m with
    | nil => simp [strncmpEq]
    | cons b m =>
      simp only [List.length_cons, strncmpEq, Bool.and_eq_true, Bool.or_eq_true, beq_iff_eq, ih m h0,
        List.cons_prefix_cons, Ne.symm ha, false_or]

theorem strncmpInside_length (name m : Bytes) (h : m <+: name → name <+: m) :
    strncmpInside name m name.length = true := by
  induction name generalizing m with
  | nil => rfl
  | cons a name ih =>
    cases m with
    | nil => cases List.prefix_nil.mp (h List.nil_prefix)
    | cons b m =>
      simp only [List.cons_prefix_cons] at h
      simp only [List.length_cons, strncmpInside, Bool.or_eq_true, bne_iff_ne]
      by_cases hab : a = b
      · exact .inr (ih m fun hm => (h ⟨hab.symm, hm⟩).2)
      · exact .inl (.inl hab)

theorem strncmpInside_terminated {a b : Bytes} {n : Nat} (ha : n ≤ a.length) (hb : 0 ∈ b) :
    strncmpInside a b n = true := by
  induction n generalizing a b with
  | zero => simp [strncmpInside]
  | succ n ih =>
    obtain ⟨x, a, rfl⟩ := List.exists_cons_of_length_pos (Nat.lt_of_lt_of_le n.succ_pos ha)
    cases b with
    | nil => cases hb
    | cons y b =>
      simp only [strncmpInside, Bool.or_eq_true, bne_iff_ne, beq_iff_eq]
      by_cases hxy : x = y
      · subst hxy
        rcases List.mem_cons.mp hb with h0 | hb
        · exact .inl (.inr h0.symm)
        · exact .inr (ih (Nat.le_of_succ_le_succ ha) hb)
      · exact .inl (.inl hxy)

theorem charsInside_of_forall {m : Bytes}
    (h : ∀ e ∈ httpMethodMap, strncmpInside e.2 m e.2.length) : charsInside m := by
  have hgo : ∀ es : List (HttpMethod × Bytes),
      (∀ e ∈ es, strncmpInside e.2 m e.2.length) → charsInside.go m es := by
    intro es hes
    induction es with
    | nil => rfl
    | cons e es ih =>
      have hrest := ih fun e he => hes e (List.mem_cons_of_mem _ he)
      rw [charsInside.go, hes e List.mem_cons_self, hrest]
      simp
  exact hgo httpMethodMap h

theorem httpMethodMap_length : ∀ e ∈ httpMethodMap, e.2.length ≤ 11 := by
  decide

theorem charsInside_of_length {m : Bytes} (h : 11 ≤ m.length) : charsInside m := by
  refine charsInside_of_forall fun e he => strncmpInside_length _ _ fun hm => ?_
  exact hm.eq_of_length_le ((httpMethodMap_length e he).trans h) ▸ List.prefix_rfl

theorem httpMethodMap_text : ∀ e ∈ httpMethodMap,
    0 ∉ e.2 ∧ (32 ∉ e.2 ∨ [77, 32, 45, 32, 83] <+: e.2) := by
  decide

theorem httpMethodMap_tail : ∀ e ∈ httpMethodMap, ∀ e' ∈ httpMethodMap,
    ¬ e'.2 <+: e.2.tail ∧ ¬ e.2.tail <+: e'.2 := by
  decide

theorem httpMethodMap_invaild : ∀ e ∈ httpMethodMap, e.1 ≠ .INVAILD_METHOD ∧ ¬ e.2 <+: [77] := by
  decide

theorem charsToHttpMethod_valid {m : Bytes} (h : charsToHttpMethod m ≠ .INVAILD_METHOD) :
    ∃ e ∈ httpMethodMap, e.2 <+: m := by
  cases hf : httpMethodMap.find? fun e => strncmpEq e.2 m e.2.length with
  | none => simp [charsToHttpMethod, hf] at h
  | some e =>
    have hmem := List.mem_of_find?_eq_some hf
    have hfound : strncmpEq e.2 m e.2.length = true :=
      List.find?_some (p := fun e : HttpMethod × Bytes => strncmpEq e.2 m e.2.length) hf
    exact ⟨e, hmem, (strncmpEq_length _ _ (httpMethodMap_text e hmem).1).mp hfound⟩

theorem charsToHttpMethod_invaild {m : Bytes} (h : ∀ e ∈ httpMethodMap, ¬ e.2 <+: m) :
    charsToHttpMethod m = .INVAILD_METHOD := by
  by_contra hv
  obtain ⟨e, hmem, hpre⟩ := charsToHttpMethod_valid hv
  exact h e hmem hpre

section Words

variable {name t g : Bytes}

theorem prefix_word (hname : 32 ∉ name) : name <+: t ++ 32 :: g ↔ name <+: t := by
  constructor
  · intro h
    rcases List.prefix_or_prefix_of_prefix h (List.prefix_append t (32 :: g)) with h' | ⟨u, rfl⟩
    · exact h'
    · have hu : u <+: 32 :: g := (List.prefix_append_right_inj t).mp h
      rcases List.prefix_cons_iff.mp hu with rfl | ⟨u, rfl, -⟩
      · simp
      · exact absurd (List.mem_append_right _ List.mem_cons_self) hname
  · exact fun h => h.trans (List.prefix_append _ _)

theorem prefix_blank {more : Bytes} (ht : 32 ∉ t) (h : 77 :: 32 :: more <+: t ++ 32 :: g) :
    t = [77] ∧ more <+: g := by
  match t, ht with
  | [], _ => exact absurd (List.cons_prefix_cons.mp h).1 (by decide)
  | [a], _ =>
    obtain ⟨rfl, htail⟩ := List.cons_prefix_cons.mp h
    exact ⟨rfl, (List.cons_prefix_cons.mp (show 32 :: more <+: 32 :: g from htail)).2⟩
  | a :: b :: t, ht =>
    obtain ⟨rfl, -⟩ := List.cons_prefix_cons.mp (List.cons_prefix_cons.mp h).2
    exact absurd (List.mem_cons_of_mem _ List.mem_cons_self) ht

theorem charsToHttpMethod_word (g' : Bytes) (ht : 32 ∉ t) (hM : t ≠ [77]) :
    charsToHttpMethod (t ++ 32 :: g) = charsToHttpMethod (t ++ 32 :: g') := by
  have hsame : ∀ e ∈ httpMethodMap, strncmpEq e.2 (t ++ 32 :: g) e.2.length =
      strncmpEq e.2 (t ++ 32 :: g') e.2.length := by
    intro e he
    obtain ⟨h0, hblank⟩ := httpMethodMap_text e he
    rw [Bool.eq_iff_iff, strncmpEq_length _ _ h0, strncmpEq_length _ _ h0]
    rcases hblank with hblank | hblank
    · rw [prefix_word hblank, prefix_word hblank]
    · constructor <;>
        exact fun h => absurd (prefix_blank ht (hblank.trans h)).1 hM
  rw [charsToHttpMethod, charsToHttpMethod, ← List.head?_filter, List.filter_congr hsame,
    List.head?_filter]

theorem charsInside_word (g : Bytes) (ht : 32 ∉ t) (hM : t ≠ [77]) :
    charsInside (t ++ 32 :: g) := by
  refine charsInside_of_forall fun e he => strncmpInside_length _ _ fun hm => absurd hm ?_
  rintro ⟨u, hu⟩
  rw [List.append_assoc] at hu
  rcases (httpMethodMap_text e he).2 with hblank | hblank
  · exact hblank (hu ▸ List.mem_append_right t List.mem_cons_self)
  · exact hM (prefix_blank ht (hu ▸ hblank)).1

end Words

end Sylar.Http
