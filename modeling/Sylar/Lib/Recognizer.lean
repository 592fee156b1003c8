import Mathlib.Algebra.BigOperators.Group.List.Basic
import Mathlib.Data.List.Dedup
import Sylar.Lib.Grammar
import Sylar.Lib.RangeTable

/-! Deciding that an automaton given by rows of byte ranges accepts the words of a
grammar. What is left to derive after a part of the word is a list of stacks of
expressions; a search goes over the pairs of a state and such a list that are
reachable together, and its success gives the two languages equal, or one inside the
other. The search is a computation on closed terms. -/
namespace Sylar.Lib.Grammar

section Saturation

variable {α κ V : Type*} (succ : α → Option (List α)) (seen : V → α → Bool) (record : V → α → V)

/-- Search from the elements of `work` over the successors not seen before. -/
def saturate : Nat → List α → V → Bool
  | 0, _, _ => false
  | _ + 1, [], _ => true
  | n + 1, x :: work, v =>
    if seen v x then saturate n work v
    else
      match succ x with
      | none => false
      | some next => saturate n (next ++ work) (record v x)

/-- A search that ends has found a set that is closed under successors. Elements with
the same key count as one. -/
theorem exists_closed_of_saturate (key : α → κ) (known : V → κ → Prop)
    (hseen : ∀ v x, seen v x = true → known v (key x))
    (hrecord : ∀ v x c, known (record v x) c → c = key x ∨ known v c)
    {n : Nat} {work : List α} {v : V} (h : saturate succ seen record n work v = true) :
    ∃ T : κ → Prop, (∀ x ∈ work, known v (key x) ∨ T (key x)) ∧
      ∀ c, T c → ∃ x next, key x = c ∧ succ x = some next ∧
        ∀ y ∈ next, known v (key y) ∨ T (key y) := by
  induction n generalizing work v with
  | zero => cases h
  | succ n ih =>
    match work with
    | [] => exact ⟨fun _ => False, by simp, by simp⟩
    | x :: work =>
      simp only [saturate] at h
      split at h
      · rename_i hx
        obtain ⟨T, hwork, hT⟩ := ih h
        refine ⟨T, ?_, hT⟩
        intro y hy
        rcases List.mem_cons.mp hy with rfl | hy
        · exact .inl (hseen v y hx)
        · exact hwork y hy
      · split at h
        · cases h
        · rename_i next hnext
          obtain ⟨T, hwork, hT⟩ := ih h
          -- what is known after `x` was recorded is `x` itself or was known before
          have hback : ∀ c, known (record v x) c ∨ T c → known v c ∨ (c = key x ∨ T c) := by
            rintro c (hc | hc)
            · rcases hrecord v x c hc with hc | hc
              · exact .inr (.inl hc)
              · exact .inl hc
            · exact .inr (.inr hc)
          refine ⟨fun c => c = key x ∨ T c, ?_, ?_⟩
          · intro y hy
            rcases List.mem_cons.mp hy with rfl | hy
            · exact .inr (.inl rfl)
            · exact hback _ (hwork y (List.mem_append_right next hy))
          · rintro c (rfl | hc)
            · exact ⟨x, next, rfl, hnext, fun y hy =>
                hback _ (hwork y (List.mem_append_left work hy))⟩
            · obtain ⟨y, next', hy, hnext', hall⟩ := hT c hc
              exact ⟨y, next', hy, hnext', fun z hz => hback _ (hall z hz)⟩

end Saturation

variable {ι : Type} (g : ι → Expr ι)

/-- Expressions still to be derived, the first one first. -/
abbrev Stack (ι : Type) := List (Expr ι)

def langs (k : Stack ι) : Language UInt8 := (k.map (lang g)).prod

/-- What any of the stacks derives. -/
def union (K : List (Stack ι)) : Language UInt8 := {w | ∃ k ∈ K, w ∈ langs g k}

theorem mem_union {K : List (Stack ι)} {w : List UInt8} :
    w ∈ union g K ↔ ∃ k ∈ K, w ∈ langs g k := Iff.rfl

theorem langs_cons (e : Expr ι) (k : Stack ι) : langs g (e :: k) = lang g e * langs g k := rfl

@[simp] theorem langs_singleton (e : Expr ι) : langs g [e] = lang g e := mul_one _

/-- The heads of a language: whether it has the empty word, and by the first byte
what is derived after it. -/
def Heads (L : Language UInt8) (r : Bool × List (Nat × Stack ι)) : Prop :=
  ([] ∈ L ↔ r.1 = true) ∧
    ∀ (b : UInt8) w, b :: w ∈ L ↔ ∃ h ∈ r.2, h.1.testBit b.toNat ∧ w ∈ langs g h.2

def join {β : Type*} : Option (Bool × List β) → Option (Bool × List β) → Option (Bool × List β)
  | some a, some b => some (a.1 || b.1, a.2 ++ b.2)
  | _, _ => none

def expand : Nat → Stack ι → Option (Bool × List (Nat × Stack ι))
  | 0, _ => none
  | _ + 1, [] => some (true, [])
  | _ + 1, .bytes set :: k => some (false, [(set, k)])
  | n + 1, .empty :: k => expand n k
  | n + 1, .seq e f :: k => expand n (e :: f :: k)
  | n + 1, .alt e f :: k => join (expand n (e :: k)) (expand n (f :: k))
  | n + 1, .many e :: k => join (expand n (e :: .many e :: k)) (expand n k)
  | n + 1, .rule name :: k => expand n (g name :: k)

def gather (fuel : Nat) : List (Stack ι) → Option (Bool × List (Nat × Stack ι))
  | [] => some (false, [])
  | k :: K => join (expand g fuel k) (gather fuel K)

section Expansion

variable {g}

theorem Heads.add {L M : Language UInt8} {r s : Bool × List (Nat × Stack ι)}
    (hL : Heads g L r) (hM : Heads g M s) : Heads g (L + M) (r.1 || s.1, r.2 ++ s.2) := by
  constructor
  · rw [Language.mem_add, hL.1, hM.1, Bool.or_eq_true]
  · intro b w
    rw [Language.mem_add, hL.2, hM.2]
    simp only [List.mem_append, or_and_right, exists_or]

theorem join_heads {L M : Language UInt8} {a b : Option (Bool × List (Nat × Stack ι))}
    (ha : ∀ r, a = some r → Heads g L r) (hb : ∀ r, b = some r → Heads g M r)
    {r : Bool × List (Nat × Stack ι)} (h : join a b = some r) : Heads g (L + M) r := by
  match a, b with
  | some a, some b =>
    obtain rfl := Option.some.inj h
    exact (ha a rfl).add (hb b rfl)
  | none, _ => cases h
  | some _, none => cases h

theorem heads_bytes (set : Nat) (k : Stack ι) :
    Heads g (langs g (.bytes set :: k)) (false, [(set, k)]) := by
  simp only [Heads, langs_cons, Language.mem_mul, mem_lang_bytes]
  constructor
  · simp
  · intro b w
    constructor
    · rintro ⟨u, ⟨c, hc, rfl⟩, v, hv, h⟩
      obtain ⟨rfl, rfl⟩ := List.cons.inj h
      exact ⟨(set, k), List.mem_singleton.mpr rfl, hc, hv⟩
    · rintro ⟨h, hmem, hb, hw⟩
      obtain rfl := List.mem_singleton.mp hmem
      exact ⟨[b], ⟨b, hb, rfl⟩, w, hw, rfl⟩

theorem expand_heads {n : Nat} {k : Stack ι} {r : Bool × List (Nat × Stack ι)}
    (h : expand g n k = some r) : Heads g (langs g k) r := by
  induction n generalizing k r with
  | zero => cases h
  | succ n ih =>
    match k with
    | [] =>
      obtain rfl := Option.some.inj h
      simp [Heads, langs, Language.mem_one]
    | .bytes set :: k =>
      obtain rfl := Option.some.inj h
      exact heads_bytes set k
    | .empty :: k =>
      rw [langs_cons, lang_empty, one_mul]
      exact ih h
    | .seq e f :: k =>
      rw [langs_cons, lang_seq, mul_assoc]
      exact ih h
    | .alt e f :: k =>
      rw [langs_cons, lang_alt, add_mul]
      exact join_heads (fun _ => ih) (fun _ => ih) h
    | .many e :: k =>
      -- a repetition is one round and the repetition again, or nothing
      rw [langs_cons, lang_many, ← Language.one_add_self_mul_kstar_eq_kstar, add_mul, one_mul,
        mul_assoc, ← lang_many, add_comm]
      exact join_heads (fun _ => ih) (fun _ => ih) h
    | .rule name :: k =>
      rw [langs_cons, lang_rule]
      exact ih h

theorem union_cons (k : Stack ι) (K : List (Stack ι)) :
    union g (k :: K) = langs g k + union g K := by
  ext w
  simp only [Language.mem_add, mem_union, List.mem_cons, exists_eq_or_imp]

theorem union_congr {K K' : List (Stack ι)} (h : ∀ k, k ∈ K ↔ k ∈ K') : union g K = union g K' := by
  ext w
  constructor
  · rintro ⟨k, hk, hw⟩
    exact ⟨k, (h k).mp hk, hw⟩
  · rintro ⟨k, hk, hw⟩
    exact ⟨k, (h k).mpr hk, hw⟩

theorem gather_heads {n : Nat} {K : List (Stack ι)} {r : Bool × List (Nat × Stack ι)}
    (h : gather g n K = some r) : Heads g (union g K) r := by
  induction K generalizing r with
  | nil =>
    obtain rfl := Option.some.inj h
    simp [Heads, mem_union]
  | cons k K ih =>
    rw [union_cons]
    exact join_heads (fun _ => expand_heads) (fun _ => ih) h

end Expansion

/-- Whether the words of an expression begin with bytes of the set only. -/
def startsIn (set fuel : Nat) (e : Expr ι) : Bool :=
  (expand g fuel [e]).any fun r => r.2.all fun h => h.1 &&& set == h.1

theorem testBit_of_startsIn {set n : Nat} {e : Expr ι} {b : UInt8} {w : List UInt8}
    (h : startsIn g set n e = true) (hw : b :: w ∈ lang g e) : set.testBit b.toNat := by
  unfold startsIn at h
  cases hr : expand g n [e] with
  | none => simp [hr] at h
  | some r =>
    rw [hr, Option.any_some, List.all_eq_true] at h
    rw [← langs_singleton, (expand_heads hr).2] at hw
    obtain ⟨head, hhead, hbit, -⟩ := hw
    have hset : head.1 &&& set = head.1 := by simpa using h head hhead
    rw [← hset, Nat.testBit_and, Bool.and_eq_true] at hbit
    exact hbit.2

/-- What is left to derive after some bytes, if the expansions end. -/
def after (fuel : Nat) : List (Stack ι) → List UInt8 → Option (List (Stack ι))
  | K, [] => some K
  | K, b :: w =>
    (gather g fuel K).bind fun r =>
      after fuel (r.2.filterMap fun h => if h.1.testBit b.toNat then some h.2 else none) w

theorem append_mem_of_after {n : Nat} {K K' : List (Stack ι)} {u : List UInt8}
    (h : after g n K u = some K') (w : List UInt8) : u ++ w ∈ union g K ↔ w ∈ union g K' := by
  induction u generalizing K with
  | nil =>
    obtain rfl := Option.some.inj h
    rfl
  | cons b u ih =>
    obtain ⟨r, hr, h⟩ := Option.bind_eq_some_iff.mp h
    rw [List.cons_append, (gather_heads hr).2, ← ih h, mem_union]
    constructor
    · rintro ⟨head, hhead, hbit, hw⟩
      exact ⟨head.2, List.mem_filterMap.mpr ⟨head, hhead, if_pos hbit⟩, hw⟩
    · rintro ⟨k, hk, hw⟩
      obtain ⟨head, hhead, hk⟩ := List.mem_filterMap.mp hk
      obtain ⟨hbit, hk⟩ := Option.ite_none_right_eq_some.mp hk
      exact ⟨head, hhead, hbit, (Option.some.inj hk) ▸ hw⟩

@[simp] theorem union_singleton (e : Expr ι) : union g [[e]] = lang g e := by
  ext w
  simp [mem_union, langs_singleton]

theorem append_not_mem_of_after {n : Nat} {e : Expr ι} {u : List UInt8}
    (h : after g n [[e]] u = some []) (w : List UInt8) : u ++ w ∉ lang g e := by
  rw [← union_singleton, append_mem_of_after g h, mem_union]
  simp

/-- Whether a word is in the language of an expression, if the expansions end. -/
def test (fuel : Nat) (e : Expr ι) (w : List UInt8) : Option Bool :=
  (after g fuel [[e]] w).bind fun K => (gather g fuel K).map (·.1)

theorem mem_lang_of_test {n : Nat} {e : Expr ι} {w : List UInt8} {v : Bool}
    (h : test g n e w = some v) : w ∈ lang g e ↔ v = true := by
  obtain ⟨K, hK, h⟩ := Option.bind_eq_some_iff.mp h
  obtain ⟨r, hr, rfl⟩ := Option.map_eq_some_iff.mp h
  rw [← union_singleton, ← List.append_nil w, append_mem_of_after g hK, (gather_heads hr).1]

/-- Cut the bytes of `m` so that all bytes of a part have the same heads, and list the
heads of each part. -/
def cells {β : Type*} (m : Nat) : List (Nat × β) → List (List β)
  | [] => [[]]
  | (set, k) :: hs =>
    let i := m &&& set
    if i = 0 then cells m hs
    else if i = m then (cells m hs).map (k :: ·)
    else (cells i hs).map (k :: ·) ++ cells (m ^^^ i) hs

theorem exists_cell {β : Type*} (hs : List (Nat × β)) {m b : Nat} (hb : m.testBit b) :
    ∃ K ∈ cells m hs, ∀ k, k ∈ K ↔ ∃ h ∈ hs, h.1.testBit b ∧ h.2 = k := by
  induction hs generalizing m with
  | nil => exact ⟨[], List.mem_singleton.mpr rfl, by simp⟩
  | cons h hs ih =>
    obtain ⟨set, k⟩ := h
    have hand : (m &&& set).testBit b = set.testBit b := by
      rw [Nat.testBit_and, hb, Bool.true_and]
    simp only [cells]
    split
    · rename_i hzero
      have hset : set.testBit b = false := by rw [← hand, hzero, Nat.zero_testBit]
      obtain ⟨K, hK, hmem⟩ := ih hb
      exact ⟨K, hK, by simp [hmem, hset]⟩
    · split
      · rename_i hall
        have hset : set.testBit b = true := by rw [← hand, hall, hb]
        obtain ⟨K, hK, hmem⟩ := ih hb
        exact ⟨k :: K, List.mem_map_of_mem hK, by simp [hmem, hset, eq_comm (a := k)]⟩
      · cases hset : set.testBit b with
        | true =>
          obtain ⟨K, hK, hmem⟩ := ih (hand.trans hset)
          exact ⟨k :: K, List.mem_append_left _ (List.mem_map_of_mem hK),
            by simp [hmem, hset, eq_comm (a := k)]⟩
        | false =>
          have hxor : (m ^^^ (m &&& set)).testBit b := by
            rw [Nat.testBit_xor, hand, hb, hset, Bool.xor_false]
          obtain ⟨K, hK, hmem⟩ := ih hxor
          exact ⟨K, List.mem_append_right _ hK, by simp [hmem, hset]⟩

variable {γ : Type*} (target : γ → Nat)

def gain (q m : Nat) : List (Nat × Nat) → List (Nat × Nat)
  | [] => [(q, m)]
  | (q', m') :: gs => bif q'.beq q then (q', m ||| m') :: gs else (q', m') :: gain q m gs

theorem gain_left (q m : Nat) (gs : List (Nat × Nat)) {b : Nat} (hb : m.testBit b) :
    ∃ m', (q, m') ∈ gain q m gs ∧ m'.testBit b := by
  induction gs with
  | nil => exact ⟨m, List.mem_singleton.mpr rfl, hb⟩
  | cons entry gs ih =>
    obtain ⟨q', m'⟩ := entry
    unfold gain
    cases hq : q'.beq q with
    | true =>
      obtain rfl := Nat.eq_of_beq_eq_true hq
      refine ⟨m ||| m', List.mem_cons_self, ?_⟩
      rw [Nat.testBit_or, hb, Bool.true_or]
    | false =>
      obtain ⟨m'', hmem, hb⟩ := ih
      exact ⟨m'', List.mem_cons_of_mem _ hmem, hb⟩

theorem gain_right (q m : Nat) {gs : List (Nat × Nat)} {q₀ m₀ b : Nat} (h : (q₀, m₀) ∈ gs)
    (hb : m₀.testBit b) : ∃ m', (q₀, m') ∈ gain q m gs ∧ m'.testBit b := by
  induction gs with
  | nil => cases h
  | cons entry gs ih =>
    obtain ⟨q', m'⟩ := entry
    unfold gain
    cases q'.beq q with
    | true =>
      rcases List.mem_cons.mp h with heq | h
      · obtain ⟨rfl, rfl⟩ := Prod.mk.inj heq
        refine ⟨m ||| m₀, List.mem_cons_self, ?_⟩
        rw [Nat.testBit_or, hb, Bool.or_true]
      · exact ⟨m₀, List.mem_cons_of_mem _ h, hb⟩
    | false =>
      rcases List.mem_cons.mp h with heq | h
      · obtain ⟨rfl, rfl⟩ := Prod.mk.inj heq
        exact ⟨m₀, List.mem_cons_self, hb⟩
      · obtain ⟨m'', hmem, hb⟩ := ih h
        exact ⟨m'', List.mem_cons_of_mem _ hmem, hb⟩

/-- The bytes of `rest` that a row has no range for, and by the state the row leads to
the others. -/
def group : Nat → RangeTable.Row γ → Nat × List (Nat × Nat)
  | rest, [] => (rest, [])
  | rest, (lo, hi, arc) :: row =>
    let m := span lo hi &&& rest
    let others := group (rest ^^^ m) row
    (others.1, gain (target arc) m others.2)

section Group

variable {row : RangeTable.Row γ} {rest b : Nat} (hb : rest.testBit b)

include hb

theorem testBit_span_and (lo hi : Nat) :
    (span lo hi &&& rest).testBit b = true ↔ lo ≤ b ∧ b ≤ hi := by
  rw [Nat.testBit_and, hb, Bool.and_true, testBit_span]

theorem testBit_rest {lo hi : Nat} (hout : ¬ (lo ≤ b ∧ b ≤ hi)) :
    (rest ^^^ (span lo hi &&& rest)).testBit b = true := by
  rw [← testBit_span_and hb, Bool.not_eq_true] at hout
  rw [Nat.testBit_xor, hb, hout, Bool.xor_false]

theorem group_none (hpick : RangeTable.pick b row = none) :
    (group target rest row).1.testBit b := by
  induction row generalizing rest with
  | nil => exact hb
  | cons entry row ih =>
    obtain ⟨lo, hi, arc⟩ := entry
    simp only [RangeTable.pick] at hpick
    split at hpick
    · cases hpick
    · rename_i hout
      exact ih (testBit_rest hb hout) hpick

theorem group_some {arc : γ} (hpick : RangeTable.pick b row = some arc) :
    ∃ m, (target arc, m) ∈ (group target rest row).2 ∧ m.testBit b := by
  induction row generalizing rest with
  | nil => cases hpick
  | cons entry row ih =>
    obtain ⟨lo, hi, arc'⟩ := entry
    simp only [RangeTable.pick] at hpick
    split at hpick
    · rename_i hin
      obtain rfl := Option.some.inj hpick
      exact gain_left _ _ _ ((testBit_span_and hb lo hi).mpr hin)
    · rename_i hout
      obtain ⟨m, hm, hbit⟩ := ih (testBit_rest hb hout) hpick
      exact gain_right _ _ hm hbit

end Group

/-- Follow the heads along a row of the automaton. Bytes the row has no range for must
not start any head. -/
def arcs {β : Type*} (heads : List (Nat × β)) (row : RangeTable.Row γ) :
    Option (List (Nat × List β)) :=
  let groups := group target (2 ^ 256 - 1) row
  if heads.all fun h => h.1 &&& groups.1 == 0 then
    some (groups.2.flatMap fun e => (cells e.2 heads).map fun K => (e.1, K))
  else none

section Arcs

variable {β : Type*} {heads : List (Nat × β)} {row : RangeTable.Row γ}
  {next : List (Nat × List β)} {b : UInt8}

theorem testBit_bytes (b : UInt8) : (2 ^ 256 - 1).testBit b.toNat = true := by
  rw [Nat.testBit_two_pow_sub_one, decide_eq_true_eq]
  exact b.toNat_lt

theorem arcs_none (h : arcs target heads row = some next)
    (hpick : RangeTable.pick b.toNat row = none) : ∀ h ∈ heads, h.1.testBit b.toNat = false := by
  obtain ⟨hall, -⟩ := Option.ite_none_right_eq_some.mp h
  intro head hhead
  have hzero : head.1 &&& (group target (2 ^ 256 - 1) row).1 = 0 := by
    simpa using List.all_eq_true.mp hall head hhead
  have hbit := congrArg (Nat.testBit · b.toNat) hzero
  rw [Nat.testBit_and, group_none target (testBit_bytes b) hpick] at hbit
  simpa using hbit

theorem arcs_some {arc : γ} (h : arcs target heads row = some next)
    (hpick : RangeTable.pick b.toNat row = some arc) :
    ∃ K, (target arc, K) ∈ next ∧ ∀ k, k ∈ K ↔ ∃ h ∈ heads, h.1.testBit b.toNat ∧ h.2 = k := by
  obtain ⟨-, hnext⟩ := Option.ite_none_right_eq_some.mp h
  obtain rfl := Option.some.inj hnext
  obtain ⟨m, hm, hbit⟩ := group_some target (testBit_bytes b) hpick
  obtain ⟨K, hK, hmem⟩ := exists_cell heads hbit
  exact ⟨K, List.mem_flatMap.mpr ⟨_, hm, List.mem_map_of_mem hK⟩, hmem⟩

end Arcs

/-- Lists of stacks met before, in buckets by the number of the state. -/
abbrev Visited (ι : Type) := List (List (List (List (Stack ι))))

namespace Visited

def width : Nat := 24

def none : Visited ι := List.replicate width (List.replicate width [])

def bucket (v : Visited ι) (q : Nat) : List (List (Stack ι)) :=
  ((v[q / width]?).bind fun r => r[q % width]?).getD []

def seen [DecidableEq ι] (v : Visited ι) (x : Nat × List (Stack ι)) : Bool :=
  (v.bucket x.1).any fun K => x.2.all (K.contains ·) && K.all (x.2.contains ·)

def record (v : Visited ι) (x : Nat × List (Stack ι)) : Visited ι :=
  v.modify (x.1 / width) fun r => r.modify (x.1 % width) (x.2 :: ·)

def Known (v : Visited ι) (c : Nat × Language UInt8) : Prop := ∃ K ∈ v.bucket c.1, union g K = c.2

theorem known_of_seen [DecidableEq ι] (v : Visited ι) (x : Nat × List (Stack ι))
    (h : v.seen x = true) : v.Known g (x.1, union g x.2) := by
  obtain ⟨K, hK, hsame⟩ := List.any_eq_true.mp h
  refine ⟨K, hK, union_congr ?_⟩
  intro k
  simp only [Bool.and_eq_true, List.all_eq_true, List.contains_iff_mem] at hsame
  exact ⟨hsame.2 k, hsame.1 k⟩

theorem bucket_record (v : Visited ι) (x : Nat × List (Stack ι)) {q : Nat} {K : List (Stack ι)}
    (h : K ∈ (v.record x).bucket q) : (q = x.1 ∧ K = x.2) ∨ K ∈ v.bucket q := by
  simp only [bucket, record, List.getElem?_modify] at h ⊢
  split at h
  · rename_i hdiv
    cases hr : v[q / width]? with
    | none => simp [hr] at h
    | some r =>
      simp only [hr, Option.map_eq_map, Option.map_some, Option.bind_some,
        List.getElem?_modify] at h ⊢
      split at h
      · rename_i hmod
        cases hK : r[q % width]? with
        | none => simp [hK] at h
        | some bucket =>
          simp only [hK, Option.map_some, Option.getD_some, List.mem_cons] at h ⊢
          have hq : q = x.1 := by
            rw [← Nat.div_add_mod q width, ← Nat.div_add_mod x.1 width, hdiv, hmod]
          exact h.imp_left fun h => ⟨hq, h⟩
      · exact .inr (by simpa using h)
  · exact .inr (by simpa using h)

theorem known_record (v : Visited ι) (x : Nat × List (Stack ι)) (c : Nat × Language UInt8)
    (h : (v.record x).Known g c) : c = (x.1, union g x.2) ∨ v.Known g c := by
  obtain ⟨K, hK, hc⟩ := h
  rcases v.bucket_record x hK with ⟨hq, rfl⟩ | hK
  · exact .inl (Prod.ext hq hc.symm)
  · exact .inr ⟨K, hK, hc⟩

theorem not_known_none (c : Nat × Language UInt8) : ¬ none.Known g c := by
  rintro ⟨K, hK, -⟩
  simp only [bucket, none, List.getElem?_replicate] at hK
  split at hK
  · simp only [Option.bind_some, List.getElem?_replicate] at hK
    split at hK
    · simp at hK
    · simp at hK
  · simp at hK

end Visited

section Search

variable (row : Nat → RangeTable.Row γ) (final : Nat → Bool)

/-- Whether the automaton ends in a final state when started in the given one. -/
def accepts : Nat → List UInt8 → Bool
  | q, [] => final q
  | q, b :: w =>
    match RangeTable.pick b.toNat (row q) with
    | none => false
    | some arc => accepts (target arc) w

/-- The pairs after one byte. An exact search also asks that the automaton accepts and
goes on only where the stacks do. -/
def successors [DecidableEq ι] (exact : Bool) (fuel : Nat) (x : Nat × List (Stack ι)) :
    Option (List (Nat × List (Stack ι))) :=
  match gather g fuel x.2 with
  | none => none
  | some (empty, heads) =>
    if (empty → final x.1) ∧ (exact → final x.1 → empty) then
      (arcs target heads (row x.1)).map fun next =>
        (if exact then next else next.filter (!·.2.isEmpty)).map fun y => (y.1, y.2.dedup)
    else none

def explore [DecidableEq ι] (exact : Bool) (fuel rounds : Nat) (q : Nat) (e : Expr ι) : Bool :=
  saturate (successors g target row final exact fuel) Visited.seen Visited.record rounds
    [(q, [[e]])] Visited.none

variable {g target row final} [DecidableEq ι] {exact : Bool} {fuel : Nat}

section Successors

variable {x : Nat × List (Stack ι)} {next : List (Nat × List (Stack ι))}
  (h : successors g target row final exact fuel x = some next)

include h

theorem exists_heads_of_successors : ∃ empty heads all,
    Heads g (union g x.2) (empty, heads) ∧ (empty → final x.1) ∧ (exact → final x.1 → empty) ∧
      arcs target heads (row x.1) = some all ∧
      next = (if exact then all else all.filter (!·.2.isEmpty)).map fun y => (y.1, y.2.dedup) := by
  unfold successors at h
  split at h
  · cases h
  · rename_i empty heads hgather
    split at h
    · rename_i hempty
      obtain ⟨all, hall, hnext⟩ := Option.map_eq_some_iff.mp h
      exact ⟨empty, heads, all, gather_heads hgather, hempty.1, hempty.2, hall, hnext.symm⟩
    · cases h

theorem nil_mem_of_successors :
    ([] ∈ union g x.2 → final x.1) ∧ (exact → final x.1 → [] ∈ union g x.2) := by
  obtain ⟨empty, heads, all, hheads, hfinal, hexact, -, -⟩ := exists_heads_of_successors h
  exact ⟨fun hnil => hfinal (hheads.1.mp hnil), fun he hq => hheads.1.mpr (hexact he hq)⟩

theorem cons_mem_of_successors (b : UInt8) :
    match RangeTable.pick b.toNat (row x.1) with
    | none => ∀ w, b :: w ∉ union g x.2
    | some arc =>
      (∃ K, (target arc, K) ∈ next ∧ ∀ w, b :: w ∈ union g x.2 ↔ w ∈ union g K) ∨
        exact = false ∧ ∀ w, b :: w ∉ union g x.2 := by
  obtain ⟨empty, heads, all, hheads, -, -, harcs, rfl⟩ := exists_heads_of_successors h
  split
  · rename_i hpick
    intro w hw
    obtain ⟨head, hhead, hbit, -⟩ := (hheads.2 b w).mp hw
    rw [arcs_none target harcs hpick head hhead] at hbit
    cases hbit
  · rename_i arc hpick
    obtain ⟨K, hK, hmem⟩ := arcs_some target harcs hpick
    have hcons : ∀ w, b :: w ∈ union g x.2 ↔ w ∈ union g K := by
      intro w
      rw [hheads.2, mem_union]
      constructor
      · rintro ⟨head, hhead, hbit, hw⟩
        exact ⟨head.2, (hmem _).mpr ⟨head, hhead, hbit, rfl⟩, hw⟩
      · rintro ⟨k, hk, hw⟩
        obtain ⟨head, hhead, hbit, rfl⟩ := (hmem k).mp hk
        exact ⟨head, hhead, hbit, hw⟩
    have hdedup : ∀ w, b :: w ∈ union g x.2 ↔ w ∈ union g K.dedup := by
      intro w
      rw [hcons, union_congr fun k => List.mem_dedup.symm]
    by_cases hdrop : exact = false ∧ K = []
    · refine .inr ⟨hdrop.1, ?_⟩
      intro w hw
      rw [hcons, hdrop.2, mem_union] at hw
      simp at hw
    · refine .inl ⟨K.dedup, ?_, hdedup⟩
      apply List.mem_map_of_mem (f := fun y : Nat × List (Stack ι) => (y.1, y.2.dedup))
        (a := (target arc, K))
      cases exact with
      | true => exact hK
      | false => simp_all

end Successors

/-- The empty word and every first byte agree along the search, so by induction every
word does. -/
theorem accepts_of_closed {T : Nat × Language UInt8 → Prop}
    (hT : ∀ c, T c → ∃ x next, (x.1, union g x.2) = c ∧
      successors g target row final exact fuel x = some next ∧ ∀ y ∈ next, T (y.1, union g y.2))
    (w : List UInt8) {q : Nat} {L : Language UInt8} (h : T (q, L)) :
    (w ∈ L → accepts target row final q w) ∧ (exact → accepts target row final q w → w ∈ L) := by
  induction w generalizing q L with
  | nil =>
    obtain ⟨x, next, hx, hnext, -⟩ := hT _ h
    obtain ⟨rfl, rfl⟩ := Prod.mk.inj hx
    exact nil_mem_of_successors hnext
  | cons b w ih =>
    obtain ⟨x, next, hx, hnext, hall⟩ := hT _ h
    obtain ⟨rfl, rfl⟩ := Prod.mk.inj hx
    have hcons := cons_mem_of_successors hnext b
    simp only [accepts]
    cases hpick : RangeTable.pick b.toNat (row x.1) with
    | none =>
      rw [hpick] at hcons
      exact ⟨fun hw => absurd hw (hcons w), fun _ hq => by cases hq⟩
    | some arc =>
      rw [hpick] at hcons
      rcases hcons with ⟨K, hK, hmem⟩ | ⟨rfl, hmem⟩
      · rw [hmem]
        exact ih (hall _ hK)
      · exact ⟨fun hw => absurd hw (hmem w), fun he => by cases he⟩

theorem explore_closed {rounds q : Nat} {e : Expr ι}
    (h : explore g target row final exact fuel rounds q e = true) (w : List UInt8) :
    (w ∈ lang g e → accepts target row final q w) ∧
      (exact → accepts target row final q w → w ∈ lang g e) := by
  obtain ⟨T, hwork, hT⟩ := exists_closed_of_saturate _ _ _
    (fun x : Nat × List (Stack ι) => (x.1, union g x.2)) (Visited.Known g)
    (Visited.known_of_seen g) (Visited.known_record g) h
  simp only [Visited.not_known_none, false_or] at hwork hT
  rw [← union_singleton]
  exact accepts_of_closed hT w (hwork _ (List.mem_singleton.mpr rfl))

/-- An exact search that ends: the automaton accepts the words of the expression. -/
theorem accepts_iff_of_explore {rounds q : Nat} {e : Expr ι}
    (h : explore g target row final true fuel rounds q e = true) (w : List UInt8) :
    accepts target row final q w ↔ w ∈ lang g e :=
  ⟨(explore_closed h w).2 rfl, (explore_closed h w).1⟩

end Search

end Sylar.Lib.Grammar
