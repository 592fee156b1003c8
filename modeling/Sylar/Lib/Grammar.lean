import Mathlib.Computability.Language
import Mathlib.Data.Nat.Bitwise

/-! Regular grammars over bytes, written the way standards write them: rules with
names whose right sides are sets of bytes, sequences, alternatives, repetitions and
other rules. A stack of expressions derives a word piece by piece, and the meaning of
each form of expression is an operation on languages. -/
namespace Sylar.Lib.Grammar

section ByteSets

/-- The bytes from `lo` to `hi`, one bit for each. -/
def span (lo hi : Nat) : Nat := 2 ^ (hi + 1) - 2 ^ lo

def ranges (l : List (Nat × Nat)) : Nat := l.foldr (fun r s => span r.1 r.2 ||| s) 0

theorem testBit_span (lo hi b : Nat) : (span lo hi).testBit b ↔ lo ≤ b ∧ b ≤ hi := by
  by_cases h : lo ≤ hi + 1
  · have hshift : span lo hi = (2 ^ (hi + 1 - lo) - 1) <<< lo := by
      rw [Nat.shiftLeft_eq, Nat.sub_mul, ← Nat.pow_add, Nat.sub_add_cancel h, Nat.one_mul, span]
    rw [hshift, Nat.testBit_shiftLeft, Nat.testBit_two_pow_sub_one, Bool.and_eq_true,
      decide_eq_true_eq, decide_eq_true_eq]
    omega
  · have hzero : span lo hi = 0 :=
      Nat.sub_eq_zero_of_le (Nat.pow_le_pow_right (by decide) (by omega))
    rw [hzero, Nat.zero_testBit]
    simp only [Bool.false_eq_true, false_iff]
    omega

end ByteSets

inductive Expr (ι : Type) where
  | bytes (set : Nat)
  | empty
  | seq (e f : Expr ι)
  | alt (e f : Expr ι)
  | many (e : Expr ι)
  | rule (name : ι)
deriving DecidableEq

namespace Expr

variable {ι : Type}

def char (c : Char) : Expr ι := .bytes (span c.toNat c.toNat)

def seqs : List (Expr ι) → Expr ι
  | [] => .empty
  | [e] => e
  | e :: f :: es => .seq e (seqs (f :: es))

def alts : List (Expr ι) → Expr ι
  | [] => .bytes 0
  | [e] => e
  | e :: f :: es => .alt e (alts (f :: es))

def opt (e : Expr ι) : Expr ι := .alt e .empty

def many1 (e : Expr ι) : Expr ι := .seq e (.many e)

def times : Nat → Expr ι → Expr ι
  | 0, _ => .empty
  | n + 1, e => .seq e (times n e)

def upTo : Nat → Expr ι → Expr ι
  | 0, _ => .empty
  | n + 1, e => .opt (.seq e (upTo n e))

end Expr

/-- The words an expression stands for, a rule standing for its right side. -/
inductive Matches {ι : Type} (g : ι → Expr ι) : Expr ι → List UInt8 → Prop
  | bytes {set : Nat} {b : UInt8} (mem : set.testBit b.toNat) : Matches g (.bytes set) [b]
  | empty : Matches g .empty []
  | seq {e f u v} (first : Matches g e u) (second : Matches g f v) :
    Matches g (.seq e f) (u ++ v)
  | left {e f w} (h : Matches g e w) : Matches g (.alt e f) w
  | right {e f w} (h : Matches g f w) : Matches g (.alt e f) w
  | stop {e} : Matches g (.many e) []
  | more {e u v} (first : Matches g e u) (others : Matches g (.many e) v) :
    Matches g (.many e) (u ++ v)
  | rule {name w} (h : Matches g (g name) w) : Matches g (.rule name) w

variable {ι : Type} (g : ι → Expr ι)

def lang (e : Expr ι) : Language UInt8 := {w | Matches g e w}

section Denotation

variable {g}

theorem mem_lang_bytes {set : Nat} {w : List UInt8} :
    w ∈ lang g (.bytes set) ↔ ∃ b : UInt8, set.testBit b.toNat ∧ w = [b] := by
  constructor
  · intro h
    cases h with
    | bytes mem => exact ⟨_, mem, rfl⟩
  · rintro ⟨b, mem, rfl⟩
    exact .bytes mem

theorem mem_lang_char {c : Char} {w : List UInt8} (hc : c.toNat < 256) :
    w ∈ lang g (.char c) ↔ w = [UInt8.ofNat c.toNat] := by
  rw [Expr.char, mem_lang_bytes]
  simp only [testBit_span]
  constructor
  · rintro ⟨b, hb, rfl⟩
    rw [← Nat.le_antisymm hb.2 hb.1, UInt8.ofNat_toNat]
  · rintro rfl
    refine ⟨_, ?_, rfl⟩
    rw [UInt8.toNat_ofNat_of_lt' hc]
    exact ⟨le_rfl, le_rfl⟩

theorem lang_empty : lang g .empty = 1 := by
  ext w
  rw [Language.mem_one]
  constructor
  · intro h
    cases h
    rfl
  · rintro rfl
    exact .empty

theorem lang_seq (e f : Expr ι) : lang g (.seq e f) = lang g e * lang g f := by
  ext w
  rw [Language.mem_mul]
  constructor
  · intro h
    cases h with
    | seq first second => exact ⟨_, first, _, second, rfl⟩
  · rintro ⟨u, hu, v, hv, rfl⟩
    exact .seq hu hv

theorem lang_alt (e f : Expr ι) : lang g (.alt e f) = lang g e + lang g f := by
  ext w
  rw [Language.mem_add]
  constructor
  · intro h
    cases h with
    | left h => exact .inl h
    | right h => exact .inr h
  · rintro (h | h)
    · exact .left h
    · exact .right h

theorem lang_rule (name : ι) : lang g (.rule name) = lang g (g name) := by
  ext w
  constructor
  · intro h
    cases h with
    | rule h => exact h
  · exact .rule

theorem Matches.mem_kstar {e f : Expr ι} {w : List UInt8} (h : Matches g f w)
    (hf : f = .many e) : w ∈ KStar.kstar (lang g e) := by
  induction h with
  | stop => exact Language.nil_mem_kstar _
  | more first _ _ ih =>
    obtain rfl := Expr.many.inj hf
    rw [← Language.one_add_self_mul_kstar_eq_kstar, Language.mem_add]
    exact .inr (Language.append_mem_mul first (ih rfl))
  | _ => cases hf

theorem lang_many (e : Expr ι) : lang g (.many e) = KStar.kstar (lang g e) := by
  ext w
  constructor
  · intro h
    exact h.mem_kstar rfl
  · intro h
    rw [Language.mem_kstar] at h
    obtain ⟨L, rfl, hL⟩ := h
    induction L with
    | nil => exact .stop
    | cons u L ih =>
      have others := ih fun v hv => hL v (List.mem_cons_of_mem u hv)
      exact .more (hL u List.mem_cons_self) others

theorem mem_many_bytes {set : Nat} {w : List UInt8} :
    w ∈ lang g (.many (.bytes set)) ↔ ∀ b ∈ w, set.testBit b.toNat := by
  constructor
  · intro h b hb
    rw [lang_many, Language.mem_kstar] at h
    obtain ⟨L, rfl, hL⟩ := h
    obtain ⟨u, hu, hbu⟩ := List.mem_flatten.mp hb
    obtain ⟨c, hc, rfl⟩ := mem_lang_bytes.mp (hL u hu)
    rw [List.mem_singleton.mp hbu]
    exact hc
  · intro h
    induction w with
    | nil => exact .stop
    | cons b w ih =>
      have hrest := ih fun c hc => h c (List.mem_cons_of_mem _ hc)
      exact .more (.bytes (h b List.mem_cons_self)) hrest

end Denotation

section Alphabet

variable {g} (set : Nat)

/-- Whether only bytes of the set occur in the words of an expression. -/
def within (g : ι → Expr ι) : Nat → Expr ι → Bool
  | 0, _ => false
  | _ + 1, .bytes s => s &&& set == s
  | _ + 1, .empty => true
  | n + 1, .seq e f => within g n e && within g n f
  | n + 1, .alt e f => within g n e && within g n f
  | n + 1, .many e => within g n e
  | n + 1, .rule name => within g n (g name)

theorem Matches.testBit_of_within {e : Expr ι} {w : List UInt8} (h : Matches g e w) {n : Nat}
    (hn : within set g n e = true) : ∀ b ∈ w, set.testBit b.toNat := by
  induction h generalizing n with
  | @bytes s b mem =>
    cases n with
    | zero => cases hn
    | succ n =>
      simp only [within, beq_iff_eq] at hn
      have hbit : (s &&& set).testBit b.toNat = true := by rw [hn, mem]
      rw [Nat.testBit_and, Bool.and_eq_true] at hbit
      simpa using hbit.2
  | empty => simp
  | stop => simp
  | seq _ _ ih₁ ih₂ =>
    cases n with
    | zero => cases hn
    | succ n =>
      simp only [within, Bool.and_eq_true] at hn
      intro b hb
      exact (List.mem_append.mp hb).elim (ih₁ hn.1 b) (ih₂ hn.2 b)
  | left _ ih =>
    cases n with
    | zero => cases hn
    | succ n =>
      simp only [within, Bool.and_eq_true] at hn
      exact ih hn.1
  | right _ ih =>
    cases n with
    | zero => cases hn
    | succ n =>
      simp only [within, Bool.and_eq_true] at hn
      exact ih hn.2
  | more _ _ ih₁ ih₂ =>
    cases n with
    | zero => cases hn
    | succ n =>
      intro b hb
      exact (List.mem_append.mp hb).elim (ih₁ (n := n) hn b) (ih₂ (n := n + 1) hn b)
  | rule _ ih =>
    cases n with
    | zero => cases hn
    | succ n => exact ih (n := n) hn

/-- Whether the words over the set of an expression are words of another one, which may
have another grammar. -/
def sub [DecidableEq ι] (g h : ι → Expr ι) : Nat → Expr ι → Expr ι → Bool
  | 0, _, _ => false
  | n + 1, .alt a b, f => sub g h n a f && sub g h n b f
  | n + 1, e, .alt c d => sub g h n e c || sub g h n e d
  | _ + 1, .bytes s, .bytes t => s &&& set &&& t == s &&& set
  | _ + 1, .empty, .empty => true
  | n + 1, .seq a b, .seq c d => sub g h n a c && sub g h n b d
  | n + 1, .many a, .many c => sub g h n a c
  | n + 1, .rule r, .rule q => r == q && sub g h n (g r) (h q)
  | _, _, _ => false

end Alphabet

section Inclusion

variable [DecidableEq ι] {set : Nat} {g h : ι → Expr ι} {n : Nat}

theorem mem_of_sub {e f : Expr ι} (hsub : sub set g h n e f = true) {w : List UInt8}
    (hw : ∀ b ∈ w, set.testBit b.toNat) (hmem : w ∈ lang g e) : w ∈ lang h f := by
  fun_induction sub set g h n e f generalizing w with
  | case1 => cases hsub
  | case2 n a b f iha ihb =>
    rw [Bool.and_eq_true] at hsub
    rw [lang_alt, Language.mem_add] at hmem
    exact hmem.elim (iha hsub.1 hw) (ihb hsub.2 hw)
  | case3 n e c d he ihc ihd =>
    rw [Bool.or_eq_true] at hsub
    rw [lang_alt, Language.mem_add]
    exact hsub.imp (fun hc => ihc hc hw hmem) (fun hd => ihd hd hw hmem)
  | case4 n s t =>
    obtain ⟨b, hb, rfl⟩ := mem_lang_bytes.mp hmem
    refine mem_lang_bytes.mpr ⟨b, ?_, rfl⟩
    have hboth : (s &&& set).testBit b.toNat = true := by
      rw [Nat.testBit_and, hb, hw b List.mem_cons_self]
      rfl
    rw [← beq_iff_eq.mp hsub, Nat.testBit_and, Bool.and_eq_true] at hboth
    exact hboth.2
  | case5 => rwa [lang_empty] at hmem ⊢
  | case6 n a b c d iha ihb =>
    rw [Bool.and_eq_true] at hsub
    rw [lang_seq] at hmem ⊢
    obtain ⟨u, hu, v, hv, rfl⟩ := Language.mem_mul.mp hmem
    exact Language.append_mem_mul
      (iha hsub.1 (fun b hb => hw b (List.mem_append_left v hb)) hu)
      (ihb hsub.2 (fun b hb => hw b (List.mem_append_right u hb)) hv)
  | case7 n a c ih =>
    rw [lang_many, Language.mem_kstar] at hmem ⊢
    obtain ⟨L, rfl, hL⟩ := hmem
    refine ⟨L, rfl, ?_⟩
    intro u hu
    exact ih hsub (fun b hb => hw b (List.mem_flatten_of_mem hu hb)) (hL u hu)
  | case8 n r q ih =>
    rw [Bool.and_eq_true, beq_iff_eq] at hsub
    rw [lang_rule] at hmem ⊢
    exact ih hsub.2 hw hmem
  | case9 => cases hsub

theorem lang_eq_of_sub {e f : Expr ι} (hef : sub (2 ^ 256 - 1) g h n e f = true)
    (hfe : sub (2 ^ 256 - 1) h g n f e = true) : lang g e = lang h f := by
  have hall : ∀ w : List UInt8, ∀ b ∈ w, (2 ^ 256 - 1).testBit b.toNat := by
    intro w b _
    rw [Nat.testBit_two_pow_sub_one, decide_eq_true_eq]
    exact b.toNat_lt
  ext w
  exact ⟨mem_of_sub hef (hall w), mem_of_sub hfe (hall w)⟩

end Inclusion

end Sylar.Lib.Grammar
