import Mathlib.Tactic.DeriveFintype
import Sylar.Lib.Grammar
import Sylar.Uri.Create

/-! What the automaton is reading. Its states fall into phases, and which actions run on
a byte depends on the phase and the byte only. The states of a reference without a
scheme have their own copies of the phases of an authority, where no path is saved. -/
namespace Sylar.Uri

open Lib Lib.Grammar Lib.Numerals
open Http (Bytes)

/-- The flag of the phases in an authority tells whether it comes after a scheme. In
`userOrHost` and `portOrUser` it is open whether an `@` will follow. -/
inductive Phase where
  | dead
  | start
  | text
  | scheme
  | colon
  | slash
  | rootSlash
  | authority (hier : Bool)
  | userOrHost (hier : Bool)
  | hostStart (hier : Bool)
  | host (hier : Bool)
  | literal (hier : Bool)
  | portOrUserStart (hier : Bool)
  | portOrUser (hier : Bool)
  | user (hier : Bool)
  | portStart (hier : Bool)
  | port (hier : Bool)
  | path
  | queryStart
  | query
  | fragmentStart
  | fragment
deriving Repr, DecidableEq, Fintype

/-- The bytes that the phases tell apart; `punct` is what a scheme has besides letters
and digits. -/
inductive Kind where
  | slash
  | question
  | hash
  | colon
  | at
  | bracket
  | closeBracket
  | alpha
  | digit
  | punct
  | two
  | other
deriving Repr, DecidableEq

instance : Fintype Kind where
  elems := {.slash, .question, .hash, .colon, .at, .bracket, .closeBracket, .alpha, .digit, .punct,
    .two, .other}
  complete k := by cases k <;> decide

def kinds : List (Nat × Kind) :=
  [(ranges [(65, 90), (97, 122)], .alpha), (span 48 57, .digit), (span 47 47, .slash),
   (span 58 58, .colon), (span 64 64, .at), (span 63 63, .question), (span 35 35, .hash),
   (ranges [(43, 43), (45, 46)], .punct), (span 91 91, .bracket), (span 93 93, .closeBracket),
   (span 2 2, .two),
   (ranges [(0, 1), (3, 34), (36, 42), (44, 44), (59, 62), (92, 92), (94, 96), (123, 255)], .other)]

def kind (b : UInt8) : Kind :=
  ((kinds.find? fun e => e.1.testBit b.toNat).map (·.2)).getD .other

namespace Phase

/-- The end of an authority: what is open is saved, and after a scheme so is the empty
path. An authority that ends in nothing has the mark already. -/
def ending (hier : Bool) (save mark : List Action) : List Action :=
  if hier then save ++ mark ++ [.save_path] else save

def close (hier : Bool) (save mark : List Action) : Kind → List Action × Phase
  | .slash => if hier then (save ++ mark, .path) else (save, .text)
  | .question => (ending hier save mark, .queryStart)
  | .hash => (ending hier save mark, .fragmentStart)
  | _ => ([], .dead)

def textStep : Kind → List Action × Phase
  | .question => ([], .queryStart)
  | .hash => ([], .fragmentStart)
  | _ => ([], .text)

def step (ph : Phase) (k : Kind) : List Action × Phase :=
  match ph with
  | .dead => ([], .dead)
  | .start =>
    match k with
    | .alpha => ([.marku], .scheme)
    | .slash => ([], .rootSlash)
    | _ => textStep k
  | .text => textStep k
  | .scheme =>
    match k with
    | .colon => ([.save_scheme], .colon)
    | .alpha | .digit | .punct => ([], .scheme)
    | _ => textStep k
  | .colon => if k = .slash then ([], .slash) else textStep k
  | .slash => if k = .slash then ([], .authority true) else textStep k
  | .rootSlash => if k = .slash then ([], .authority false) else textStep k
  | .authority hier =>
    match k with
    | .slash | .question | .hash => close hier [.markh, .save_host] [] k
    | .colon => ([.markh, .save_host], .portOrUserStart hier)
    | .at => ([.markh, .save_userinfo], .hostStart hier)
    | .bracket => ([.markh], .literal hier)
    | .two => ([.markh], .host hier)
    | _ => ([.markh], .userOrHost hier)
  | .userOrHost hier =>
    match k with
    | .slash | .question | .hash => close hier [.save_host] [.markh] k
    | .colon => ([.save_host], .portOrUserStart hier)
    | .at => ([.save_userinfo], .hostStart hier)
    | .two => ([], .host hier)
    | _ => ([], .userOrHost hier)
  | .hostStart hier =>
    match k with
    | .slash | .question | .hash => close hier [.markh, .save_host] [] k
    | .colon => ([.markh, .save_host], .portStart hier)
    | .at => ([], .dead)
    | .bracket => ([.markh], .literal hier)
    | _ => ([.markh], .host hier)
  | .host hier =>
    match k with
    | .slash | .question | .hash => close hier [.save_host] [.markh] k
    | .colon => ([.save_host], .portStart hier)
    | .at => ([], .dead)
    | _ => ([], .host hier)
  | .literal hier => if k = .closeBracket then ([], .host hier) else ([], .literal hier)
  | .portOrUserStart hier =>
    match k with
    | .slash | .question | .hash => close hier [.markh, .save_port] [] k
    | .digit => ([.markh], .portOrUser hier)
    | .at => ([.save_userinfo], .hostStart hier)
    | _ => ([], .user hier)
  | .portOrUser hier =>
    match k with
    | .slash | .question | .hash => close hier [.save_port] [.markh] k
    | .digit => ([], .portOrUser hier)
    | .at => ([.save_userinfo], .hostStart hier)
    | _ => ([], .user hier)
  | .user hier =>
    match k with
    | .slash | .question | .hash => ([], .dead)
    | .at => ([.save_userinfo], .hostStart hier)
    | _ => ([], .user hier)
  | .portStart hier =>
    if k = .digit then ([.markh], .port hier) else close hier [.markh, .save_port] [] k
  | .port hier =>
    if k = .digit then ([], .port hier) else close hier [.save_port] [.markh] k
  | .path =>
    match k with
    | .question => ([.save_path], .queryStart)
    | .hash => ([.save_path], .fragmentStart)
    | _ => ([], .path)
  | .queryStart =>
    if k = .hash then ([.marku, .save_query], .fragmentStart) else ([.marku], .query)
  | .query => if k = .hash then ([.save_query], .fragmentStart) else ([], .query)
  | .fragmentStart => ([.marku], .fragment)
  | .fragment => ([], .fragment)

def atEof : Phase → List Action
  | .authority hier => ending hier [.markh, .save_host] []
  | .userOrHost hier => ending hier [.save_host] [.markh]
  | .hostStart hier => ending hier [.markh, .save_host] []
  | .host hier => ending hier [.save_host] [.markh]
  | .portOrUserStart hier => ending hier [.markh, .save_port] []
  | .portOrUser hier => ending hier [.save_port] [.markh]
  | .portStart hier => ending hier [.markh, .save_port] []
  | .port hier => ending hier [.save_port] [.markh]
  | .path => [.save_path]
  | .queryStart => [.marku, .save_query]
  | .query => [.save_query]
  | .fragmentStart => [.marku, .save_fragment]
  | .fragment => [.save_fragment]
  | _ => []

end Phase

def phases : List (RangeTable.Row Phase) :=
  [[(1, 2, .fragment), (3, 6, .text), (7, 8, .query), (9, 30, .host false),
    (31, 32, .userOrHost false), (33, 35, .user false), (36, 37, .host false),
    (38, 49, .literal false)],
   [(50, 99, .literal false)], [(100, 149, .literal false)], [(150, 199, .literal false)],
   [(200, 228, .literal false), (229, 242, .host true), (243, 244, .path), (245, 249, .host true)],
   [(250, 252, .host true), (253, 254, .userOrHost true), (255, 257, .user true),
    (258, 259, .host true), (260, 299, .literal true)],
   [(300, 349, .literal true)], [(350, 399, .literal true)], [(400, 449, .literal true)],
   [(450, 450, .literal true), (451, 451, .start), (452, 452, .text), (453, 453, .fragmentStart),
    (454, 454, .fragment), (455, 455, .text), (456, 456, .queryStart), (457, 457, .query),
    (458, 458, .rootSlash), (459, 459, .authority false), (460, 460, .host false),
    (461, 461, .portStart false), (462, 462, .port false), (463, 466, .host false),
    (467, 467, .userOrHost false), (468, 468, .portOrUserStart false),
    (469, 469, .hostStart false), (470, 488, .host false), (489, 489, .portOrUser false),
    (490, 499, .userOrHost false)],
   [(500, 507, .userOrHost false), (508, 508, .scheme), (509, 509, .colon), (510, 510, .slash),
    (511, 511, .authority true), (512, 512, .host true), (513, 513, .path),
    (514, 514, .portStart true), (515, 515, .port true), (516, 519, .host true),
    (520, 520, .userOrHost true), (521, 521, .portOrUserStart true), (522, 522, .hostStart true),
    (523, 541, .host true), (542, 542, .portOrUser true), (543, 549, .userOrHost true)],
   [(550, 560, .userOrHost true)]]

def phaseOf (cs : Nat) : Phase :=
  ((phases[cs / 50]?).bind fun row => RangeTable.pick cs row).getD .dead

section Table

variable {cs : Nat} {b : UInt8} {arc : Arc}

theorem state_lt (h : next cs b = some arc) : cs < 561 := by
  by_contra hcs
  have hrow : state cs = [] := by
    by_cases hlt : cs < 600
    · have hsmall : ∀ cs < 600, 561 ≤ cs → state cs = [] := by decide +kernel
      exact hsmall cs hlt (by omega)
    · have hblock : blocks[cs / 50]? = none :=
        List.getElem?_eq_none (show 12 ≤ cs / 50 by omega)
      simp only [state, hblock, Option.bind_none, Option.getD_none]
  rw [next, hrow] at h
  cases h

theorem phaseOf_live : ∀ cs < 561, 0 < cs → phaseOf cs ≠ .dead := by decide +kernel

theorem forall_phase {P : Phase → Nat → Prop}
    (h : ∀ row ∈ phases, ∀ e ∈ row, ∀ i < e.2.1 + 1 - e.1, P e.2.2 (e.1 + i))
    (hcs : phaseOf cs ≠ .dead) : P (phaseOf cs) cs := by
  unfold phaseOf at hcs ⊢
  cases hpick : (phases[cs / 50]?).bind fun row => RangeTable.pick cs row with
  | none =>
    rw [hpick] at hcs
    exact absurd rfl hcs
  | some ph =>
    obtain ⟨row, hrow, hpick⟩ := Option.bind_eq_some_iff.mp hpick
    obtain ⟨lo, hi, hmem, hlo, hhi⟩ := RangeTable.mem_of_pick hpick
    have hP := h row (List.mem_of_getElem? hrow) (lo, hi, ph) hmem (cs - lo) (by simp only; omega)
    rwa [Nat.add_sub_cancel' hlo] at hP

def kindsIn (lo hi : Nat) : List Kind :=
  (kinds.filter fun e => span lo hi &&& e.1 != 0).map (·.2)

/-- An entry of the table leads on as the phase says, on every kind of byte in its
range. -/
def entryOk (ph : Phase) : Nat × Nat × Arc → Bool
  | (lo, hi, ⟨actions, target⟩) =>
    0 < target && target < 561 &&
      (kindsIn lo hi).all fun k => ph.step k == (actions, phaseOf target)

theorem phases_step : ∀ row ∈ phases, ∀ e ∈ row, ∀ i < e.2.1 + 1 - e.1,
    (state (e.1 + i)).all (entryOk e.2.2) = true := by
  decide +kernel

theorem exists_kind : ∀ b : UInt8, ∃ k ∈ kinds, k.1.testBit b.toNat ∧ k.2 = kind b :=
  forall_byte (by decide +kernel)

theorem kind_mem_kindsIn {lo hi : Nat} (hb : lo ≤ b.toNat ∧ b.toNat ≤ hi) :
    kind b ∈ kindsIn lo hi := by
  obtain ⟨k, hk, hbit, hkind⟩ := exists_kind b
  refine List.mem_map.mpr ⟨k, List.mem_filter.mpr ⟨hk, ?_⟩, hkind⟩
  rw [bne_iff_ne]
  intro hzero
  have hmeet : (span lo hi &&& k.1).testBit b.toNat = true := by
    rw [Nat.testBit_and, hbit, (testBit_span lo hi _).mpr hb]
    rfl
  simp only [hzero, Nat.zero_testBit, Bool.false_eq_true] at hmeet

theorem next_entryOk (h : next cs b = some arc) :
    ∃ lo hi, entryOk (phaseOf cs) (lo, hi, arc) = true ∧ lo ≤ b.toNat ∧ b.toNat ≤ hi := by
  obtain ⟨lo, hi, hmem, hb⟩ := RangeTable.mem_of_pick h
  have hpos : 0 < cs := by
    rw [Nat.pos_iff_ne_zero]
    rintro rfl
    cases hmem
  have hall := forall_phase (P := fun ph cs => (state cs).all (entryOk ph) = true) phases_step
    (phaseOf_live cs (state_lt h) hpos)
  exact ⟨lo, hi, List.all_eq_true.mp hall _ hmem, hb⟩

theorem step_phaseOf (h : next cs b = some arc) :
    (phaseOf cs).step (kind b) = (arc.actions, phaseOf arc.target) := by
  obtain ⟨lo, hi, hentry, hb⟩ := next_entryOk h
  simp only [entryOk, Bool.and_eq_true, List.all_eq_true, beq_iff_eq] at hentry
  exact hentry.2 _ (kind_mem_kindsIn hb)

theorem phaseOf_target (h : next cs b = some arc) : phaseOf arc.target ≠ .dead := by
  obtain ⟨lo, hi, hentry, -⟩ := next_entryOk h
  simp only [entryOk, Bool.and_eq_true, decide_eq_true_eq] at hentry
  exact phaseOf_live _ hentry.1.2 hentry.1.1

/-- Where the text may end, the phase tells what is left to do; nothing is done where it
may not. -/
theorem atEof_phaseOf (hcs : phaseOf cs ≠ .dead) :
    atEof cs = if uriParserFirstFinal ≤ cs then (phaseOf cs).atEof else [] :=
  forall_phase (P := fun ph cs => atEof cs = if uriParserFirstFinal ≤ cs then ph.atEof else [])
    (by decide +kernel) hcs

end Table

end Sylar.Uri
