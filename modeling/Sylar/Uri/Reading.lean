import Mathlib.Data.List.TakeWhile
import Sylar.Lib.Run
import Sylar.Uri.Reader

/-! How the parts of a uri with an authority are read, one after the other. After each
part it is said what the bytes that can follow it lead to. -/
namespace Sylar.Uri

open Lib Lib.Numerals
open Http (Bytes)

namespace Kind

def inUser : Kind → Bool
  | .alpha | .digit | .punct | .colon | .other => true
  | _ => false

def inName : Kind → Bool
  | .alpha | .digit | .punct | .two | .other => true
  | _ => false

def inScheme : Kind → Bool
  | .alpha | .digit | .punct => true
  | _ => false

end Kind

section Kinds

@[simp] theorem kind_slash : kind 47 = .slash := by decide

@[simp] theorem kind_colon : kind 58 = .colon := by decide

@[simp] theorem kind_question : kind 63 = .question := by decide

@[simp] theorem kind_hash : kind 35 = .hash := by decide

@[simp] theorem kind_at : kind 64 = .at := by decide

@[simp] theorem kind_bracket : kind 91 = .bracket := by decide

@[simp] theorem kind_closeBracket : kind 93 = .closeBracket := by decide

theorem kind_eq_colon : ∀ b, kind b = .colon → b = 58 := forall_byte (by decide +kernel)

theorem kind_eq_digit : ∀ b, kind b = .digit ↔ isDigit b = true := forall_byte (by decide +kernel)

end Kinds

/-- The first colon of a userinfo comes right before a digit. -/
def colonDigit (w : Bytes) : Bool :=
  match w.dropWhile (· != 58) with
  | _ :: d :: _ => isDigit d
  | _ => false

def kept (w : Bytes) : Bytes := if colonDigit w then (w.dropWhile (· != 58)).drop 1 else w

section Kept

variable {w a d : Bytes}

theorem dropWhile_colon (ha : 58 ∉ a) :
    (a ++ 58 :: d).dropWhile (· != 58) = 58 :: d := by
  rw [List.dropWhile_append_of_pos]
  · simp
  · intro b hb
    simpa using ne_of_mem_of_not_mem hb ha

theorem colonDigit_append (ha : 58 ∉ a) : colonDigit (a ++ 58 :: d) = d.head?.any isDigit := by
  rw [colonDigit, dropWhile_colon ha]
  cases d <;> rfl

theorem kept_append (ha : 58 ∉ a) :
    kept (a ++ 58 :: d) = if d.head?.any isDigit then d else a ++ [58] ++ d := by
  rw [kept, colonDigit_append ha, dropWhile_colon ha]
  simp

theorem colonDigit_of_not_mem (h : 58 ∉ w) : colonDigit w = false := by
  have hnil : w.dropWhile (· != 58) = [] := by
    rw [List.dropWhile_eq_nil_iff]
    intro b hb
    simpa using ne_of_mem_of_not_mem hb h
  rw [colonDigit, hnil]

theorem kept_of_not_mem (h : 58 ∉ w) : kept w = w := by
  rw [kept, colonDigit_of_not_mem h]
  rfl

theorem kept_eq_iff : kept w = w ↔ colonDigit w = false := by
  by_cases hmem : (58 : UInt8) ∈ w
  · obtain ⟨a, d, rfl, ha⟩ := List.eq_append_cons_of_mem hmem
    rw [kept_append ha, colonDigit_append ha]
    split
    · rename_i hdigit
      rw [hdigit]
      simp only [Bool.true_eq_false, iff_false]
      intro hlen
      have hlength := congrArg List.length hlen
      simp only [List.length_append, List.length_cons] at hlength
      omega
    · rename_i hdigit
      simpa using hdigit
  · rw [kept_of_not_mem hmem, colonDigit_of_not_mem hmem]
    simp

end Kept

namespace Reader

variable {marked : Bool} {x : Phase × Reader} {b : UInt8} {u v w : Bytes} {uri : Uri}

theorem read_append {y z : Phase × Reader} (hu : read marked x u = .ok y)
    (hv : read marked y v = .ok z) : read marked x (u ++ v) = .ok z := by
  rw [read, List.foldlM_append]
  exact bind_eq_ok.mpr ⟨y, hu, hv⟩

/-- One byte, by its kind; `t` is the reader after the actions. -/
theorem read_byte {ph : Phase} {r t : Reader} {k : Kind} (hk : kind b = k)
    (hr : (ph.step k).1.foldlM (acts marked) r = .ok t) :
    read marked (ph, r) [b] = .ok ((ph.step k).2, t.push b) := by
  rw [read, List.foldlM_cons, step, hk, hr]
  rfl

theorem read_cons {y z : Phase × Reader} (hb : read marked x [b] = .ok y)
    (hw : read marked y w = .ok z) : read marked x (b :: w) = .ok z := read_append hb hw

theorem read_quiet {ph : Phase} (h : ∀ b ∈ w, ph.step (kind b) = ([], ph)) (r : Reader) :
    read marked (ph, r) w = .ok (ph, { r with held := r.held.map (· ++ w) }) := by
  induction w generalizing r with
  | nil =>
    obtain ⟨held, uri⟩ := r
    cases held <;> simp [read]
    all_goals rfl
  | cons b w ih =>
    have hrest := ih (fun b hb => h b (List.mem_cons_of_mem _ hb)) (r.push b)
    have hheld : (r.push b).held.map (· ++ w) = r.held.map (· ++ b :: w) := by
      simp [push, Function.comp_def]
    rw [hheld] at hrest
    refine read_cons (y := (ph, r.push b)) ?_ hrest
    rw [read, List.foldlM_cons, step, h b List.mem_cons_self]
    rfl

theorem read_scheme (hb : kind b = .alpha) (hw : ∀ c ∈ w, (kind c).inScheme) :
    read marked (.start, .fresh) (b :: w ++ [58, 47, 47]) =
      .ok (.authority true, ⟨none, { Uri.fresh with scheme := b :: w }⟩) := by
  have hquiet : ∀ c ∈ w, Phase.scheme.step (kind c) = ([], .scheme) := by
    intro c hc
    have hkind := hw c hc
    cases hk : kind c <;> simp [hk, Kind.inScheme] at hkind <;> rfl
  have hfirst : read marked (.start, .fresh) [b] = .ok (.scheme, ⟨some [b], .fresh⟩) :=
    read_byte (t := ⟨some [], .fresh⟩) hb rfl
  have hcolon : read marked (.scheme, ⟨some (b :: w), .fresh⟩) [58] =
      .ok (.colon, ⟨none, { Uri.fresh with scheme := b :: w }⟩) :=
    read_byte (t := ⟨none, { Uri.fresh with scheme := b :: w }⟩) kind_colon rfl
  have hslash : read marked (.colon, ⟨none, { Uri.fresh with scheme := b :: w }⟩) [47] =
      .ok (.slash, ⟨none, { Uri.fresh with scheme := b :: w }⟩) :=
    read_byte (t := ⟨none, { Uri.fresh with scheme := b :: w }⟩) kind_slash rfl
  have hslashes : read marked (.slash, ⟨none, { Uri.fresh with scheme := b :: w }⟩) [47] =
      .ok (.authority true, ⟨none, { Uri.fresh with scheme := b :: w }⟩) :=
    read_byte (t := ⟨none, { Uri.fresh with scheme := b :: w }⟩) kind_slash rfl
  exact read_append (read_cons hfirst (read_quiet hquiet _))
    (read_cons hcolon (read_cons hslash hslashes))

section Userinfo

variable {a d : Bytes}

theorem read_name (h : ∀ b ∈ a, (kind b).inName ∧ kind b ≠ .two) :
    a = [] ∨ read marked (.authority true, ⟨none, uri⟩) a =
      .ok (.userOrHost true, ⟨some a, uri⟩) := by
  cases a with
  | nil => exact .inl rfl
  | cons b a =>
    right
    have hquiet : ∀ c ∈ a, (Phase.userOrHost true).step (kind c) = ([], .userOrHost true) := by
      intro c hc
      obtain ⟨hname, htwo⟩ := h c (List.mem_cons_of_mem _ hc)
      cases hk : kind c <;> simp [hk, Kind.inName] at hname htwo <;> rfl
    have hfirst : read marked (.authority true, ⟨none, uri⟩) [b] =
        .ok (.userOrHost true, ⟨some [b], uri⟩) := by
      obtain ⟨hname, htwo⟩ := h b List.mem_cons_self
      cases hk : kind b <;> simp [hk, Kind.inName] at hname htwo <;>
        exact read_byte (t := ⟨some [], uri⟩) hk rfl
    exact read_cons hfirst (read_quiet hquiet _)

theorem read_name_colon (h : ∀ b ∈ a, (kind b).inName ∧ kind b ≠ .two) :
    read marked (.authority true, ⟨none, uri⟩) (a ++ [58]) =
      .ok (.portOrUserStart true, ⟨some (a ++ [58]), { uri with host := a }⟩) := by
  rcases read_name h with rfl | hread
  · exact read_byte (t := ⟨some [], { uri with host := [] }⟩) kind_colon rfl
  · exact read_append hread (read_byte (t := ⟨some a, { uri with host := a }⟩) kind_colon rfl)

theorem read_name_at (h : ∀ b ∈ a, (kind b).inName ∧ kind b ≠ .two) :
    read marked (.authority true, ⟨none, uri⟩) (a ++ [64]) =
      .ok (.hostStart true, ⟨none, { uri with userinfo := a }⟩) := by
  rcases read_name h with rfl | hread
  · exact read_byte (t := ⟨none, { uri with userinfo := [] }⟩) kind_at rfl
  · exact read_append hread (read_byte (t := ⟨none, { uri with userinfo := a }⟩) kind_at rfl)

theorem read_user_at (hd : ∀ b ∈ d, (kind b).inUser) (s : Bytes) :
    read marked (.user true, ⟨some s, uri⟩) (d ++ [64]) =
      .ok (.hostStart true, ⟨none, { uri with userinfo := s ++ d }⟩) := by
  have hquiet : ∀ c ∈ d, (Phase.user true).step (kind c) = ([], .user true) := by
    intro c hc
    have hkind := hd c hc
    cases hk : kind c <;> simp [hk, Kind.inUser] at hkind <;> rfl
  exact read_append (read_quiet hquiet _)
    (read_byte (t := ⟨none, { uri with userinfo := s ++ d }⟩) kind_at rfl)

theorem read_portOrUser_at (hd : ∀ b ∈ d, (kind b).inUser) (s : Bytes) :
    read marked (.portOrUser true, ⟨some s, uri⟩) (d ++ [64]) =
      .ok (.hostStart true, ⟨none, { uri with userinfo := s ++ d }⟩) := by
  induction d generalizing s with
  | nil =>
    rw [List.append_nil]
    exact read_byte (t := ⟨none, { uri with userinfo := s }⟩) kind_at rfl
  | cons b d ih =>
    have hrest : ∀ c ∈ d, (kind c).inUser := fun c hc => hd c (List.mem_cons_of_mem _ hc)
    rw [List.append_cons s b d]
    by_cases hdigit : kind b = .digit
    · exact read_cons (read_byte (t := ⟨some s, uri⟩) hdigit rfl) (ih hrest (s ++ [b]))
    · have hkind := hd b List.mem_cons_self
      refine read_cons (y := (.user true, ⟨some (s ++ [b]), uri⟩)) ?_ (read_user_at hrest _)
      cases hk : kind b <;> simp [hk, Kind.inUser] at hkind hdigit <;>
        exact read_byte (t := ⟨some s, uri⟩) hk rfl

/-- From the colon on: the mark that a digit right after it sets stays. -/
theorem read_after_colon (h : ∀ b ∈ d, (kind b).inUser) (s : Bytes) :
    read marked (.portOrUserStart true, ⟨some s, uri⟩) (d ++ [64]) =
      .ok (.hostStart true,
        ⟨none, { uri with userinfo := if d.head?.any isDigit then d else s ++ d }⟩) := by
  cases d with
  | nil =>
    rw [List.append_nil]
    exact read_byte (t := ⟨none, { uri with userinfo := s }⟩) kind_at rfl
  | cons b d =>
    have hrest : ∀ c ∈ d, (kind c).inUser := fun c hc => h c (List.mem_cons_of_mem _ hc)
    by_cases hdigit : (b :: d).head?.any isDigit = true
    · rw [if_pos hdigit]
      have hfirst : read marked (.portOrUserStart true, ⟨some s, uri⟩) [b] =
          .ok (.portOrUser true, ⟨some [b], uri⟩) :=
        read_byte (t := ⟨some [], uri⟩) ((kind_eq_digit b).mpr hdigit) rfl
      exact read_cons hfirst (read_portOrUser_at hrest [b])
    · rw [if_neg hdigit, List.append_cons s b d]
      have hkind := h b List.mem_cons_self
      have hother : kind b ≠ .digit := fun hk => hdigit ((kind_eq_digit b).mp hk)
      refine read_cons (y := (.user true, ⟨some (s ++ [b]), uri⟩)) ?_ (read_user_at hrest _)
      cases hk : kind b <;> simp [hk, Kind.inUser] at hkind hother <;>
        exact read_byte (t := ⟨some s, uri⟩) hk rfl

theorem read_userinfo (h : ∀ b ∈ w, (kind b).inUser) :
    ∃ host, read marked (.authority true, ⟨none, uri⟩) (w ++ [64]) =
      .ok (.hostStart true, ⟨none, { uri with userinfo := kept w, host := host }⟩) := by
  have hname : ∀ b ∈ w, b ≠ 58 → (kind b).inName ∧ kind b ≠ .two := by
    intro b hb hcolon
    have hkind := h b hb
    cases hk : kind b <;> simp [hk, Kind.inUser] at hkind <;> simp [Kind.inName]
    exact hcolon (kind_eq_colon b hk)
  by_cases hmem : (58 : UInt8) ∈ w
  · obtain ⟨a, d, rfl, ha⟩ := List.eq_append_cons_of_mem hmem
    have hfirst : read marked (.authority true, ⟨none, uri⟩) (a ++ [58]) = _ :=
      read_name_colon fun b hb => hname b (by simp [hb]) (ne_of_mem_of_not_mem hb ha)
    refine ⟨a, ?_⟩
    rw [kept_append ha, List.append_cons a 58 d, List.append_assoc]
    exact read_append hfirst (read_after_colon (fun b hb => h b (by simp [hb])) _)
  · refine ⟨uri.host, ?_⟩
    rw [kept_of_not_mem hmem]
    exact read_name_at fun b hb => hname b hb (ne_of_mem_of_not_mem hb hmem)

end Userinfo

section Host

variable {host : Bytes}

/-- Where a host has been read: nothing of it, or all of it since the mark. -/
def AfterHost (host : Bytes) (uri : Uri) (x : Phase × Reader) : Prop :=
  host = [] ∧ (x.1 = .authority true ∨ x.1 = .hostStart true) ∧ x.2 = ⟨none, uri⟩ ∨
    (x.1 = .userOrHost true ∨ x.1 = .host true) ∧ x.2 = ⟨some host, uri⟩

theorem read_reg_name {ph : Phase} (hph : ph = .userOrHost true ∨ ph = .host true)
    (h : ∀ b ∈ w, (kind b).inName) (s : Bytes) :
    ∃ x, read marked (ph, ⟨some s, uri⟩) w = .ok x ∧ AfterHost (s ++ w) uri x := by
  induction w generalizing ph s with
  | nil =>
    refine ⟨(ph, ⟨some s, uri⟩), rfl, .inr ⟨hph, ?_⟩⟩
    rw [List.append_nil]
  | cons b w ih =>
    have hb := h b List.mem_cons_self
    have hstep : ∃ ph', (ph' = .userOrHost true ∨ ph' = .host true) ∧
        read marked (ph, ⟨some s, uri⟩) [b] = .ok (ph', ⟨some (s ++ [b]), uri⟩) := by
      rcases hph with rfl | rfl <;> cases hk : kind b <;> simp [hk, Kind.inName] at hb <;>
        refine ⟨_, ?_, read_byte (t := ⟨some s, uri⟩) hk rfl⟩ <;> decide
    obtain ⟨ph', hph', hread⟩ := hstep
    obtain ⟨x, hx, hafter⟩ := ih hph' (fun c hc => h c (List.mem_cons_of_mem _ hc)) (s ++ [b])
    rw [← List.append_cons] at hafter
    exact ⟨x, read_cons hread hx, hafter⟩

theorem read_literal {inner : Bytes} {ph : Phase} (hph : ph = .authority true ∨ ph = .hostStart true)
    (h : ∀ b ∈ inner, kind b ≠ .closeBracket) :
    read marked (ph, ⟨none, uri⟩) (91 :: inner ++ [93]) =
      .ok (.host true, ⟨some (91 :: inner ++ [93]), uri⟩) := by
  have hquiet : ∀ c ∈ inner, (Phase.literal true).step (kind c) = ([], .literal true) :=
    fun c hc => if_neg (h c hc)
  have hopen : read marked (ph, ⟨none, uri⟩) [91] = .ok (.literal true, ⟨some [91], uri⟩) := by
    rcases hph with rfl | rfl
    · exact read_byte (t := ⟨some [], uri⟩) kind_bracket rfl
    · exact read_byte (t := ⟨some [], uri⟩) kind_bracket rfl
  exact read_append (read_cons hopen (read_quiet hquiet _))
    (read_byte (t := ⟨some (91 :: inner), uri⟩) kind_closeBracket rfl)

theorem read_host {ph : Phase} (hph : ph = .authority true ∨ ph = .hostStart true)
    (h : (∃ inner, host = 91 :: inner ++ [93] ∧ ∀ b ∈ inner, kind b ≠ .closeBracket) ∨
      ∀ b ∈ host, (kind b).inName) :
    ∃ x, read marked (ph, ⟨none, uri⟩) host = .ok x ∧ AfterHost host uri x := by
  rcases h with ⟨inner, rfl, hinner⟩ | hname
  · exact ⟨_, read_literal hph hinner, .inr ⟨.inr rfl, rfl⟩⟩
  · cases host with
    | nil => exact ⟨(ph, ⟨none, uri⟩), rfl, .inl ⟨rfl, hph, rfl⟩⟩
    | cons b w =>
      have hb := hname b List.mem_cons_self
      have hstep : ∃ ph', (ph' = .userOrHost true ∨ ph' = .host true) ∧
          read marked (ph, ⟨none, uri⟩) [b] = .ok (ph', ⟨some [b], uri⟩) := by
        rcases hph with rfl | rfl <;> cases hk : kind b <;> simp [hk, Kind.inName] at hb <;>
          refine ⟨_, ?_, read_byte (t := ⟨some [], uri⟩) hk rfl⟩ <;> decide
      obtain ⟨ph', hph', hread⟩ := hstep
      obtain ⟨x, hx, hafter⟩ := read_reg_name hph'
        (fun c hc => hname c (List.mem_cons_of_mem _ hc)) [b]
      exact ⟨x, read_cons hread hx, hafter⟩

end Host

structure Ended (marked : Bool) (x : Phase × Reader) (uri : Uri) : Prop where
  hash : read marked x [35] = .ok (.fragmentStart, ⟨none, uri⟩)
  finish : finish marked x = .ok ⟨none, uri⟩

structure Ending (marked : Bool) (x : Phase × Reader) (uri : Uri) : Prop
    extends Ended marked x uri where
  question : read marked x [63] = .ok (.queryStart, ⟨none, uri⟩)

structure Closing (marked : Bool) (x : Phase × Reader) (uri : Uri) : Prop where
  slash : read marked x [47] = .ok (.path, ⟨some [47], uri⟩)
  ending : Ending marked x { uri with path := [] }

section Rest

variable {host path : Bytes} {query : Option Bytes} {ph : Phase}

theorem AfterHost.closing (h : AfterHost host uri x) : Closing marked x { uri with host := host } := by
  obtain ⟨ph, r⟩ := x
  have hstart : ∀ ph, ph = .authority true ∨ ph = .hostStart true →
      Closing marked (ph, ⟨none, uri⟩) { uri with host := [] } := by
    rintro ph (rfl | rfl)
    all_goals exact
      { slash := read_byte (t := ⟨some [], { uri with host := [] }⟩) kind_slash rfl
        ending :=
          { question := read_byte (t := ⟨none, { uri with host := [], path := [] }⟩) kind_question rfl
            hash := read_byte (t := ⟨none, { uri with host := [], path := [] }⟩) kind_hash rfl
            finish := rfl } }
  have hread : ∀ ph, ph = .userOrHost true ∨ ph = .host true →
      Closing marked (ph, ⟨some host, uri⟩) { uri with host := host } := by
    rintro ph (rfl | rfl)
    all_goals exact
      { slash := read_byte (t := ⟨some [], { uri with host := host }⟩) kind_slash rfl
        ending :=
          { question :=
              read_byte (t := ⟨none, { uri with host := host, path := [] }⟩) kind_question rfl
            hash := read_byte (t := ⟨none, { uri with host := host, path := [] }⟩) kind_hash rfl
            finish := rfl } }
  rcases h with ⟨rfl, hph, hr⟩ | ⟨hph, hr⟩
  · obtain rfl : r = _ := hr
    exact hstart ph hph
  · obtain rfl : r = _ := hr
    exact hread ph hph

def isPortStart (ph : Phase) : Prop := ph = .portOrUserStart true ∨ ph = .portStart true

theorem AfterHost.colon (marked : Bool) (h : AfterHost host uri x) :
    ∃ ph, isPortStart ph ∧
      read marked x [58] = .ok (ph, ⟨some (host ++ [58]), { uri with host := host }⟩) := by
  obtain ⟨ph, r⟩ := x
  rcases h with ⟨rfl, hph, hr⟩ | ⟨hph, hr⟩
  · obtain rfl : r = _ := hr
    rcases hph with rfl | rfl
    · exact ⟨_, .inl rfl, read_byte (t := ⟨some [], { uri with host := [] }⟩) kind_colon rfl⟩
    · exact ⟨_, .inr rfl, read_byte (t := ⟨some [], { uri with host := [] }⟩) kind_colon rfl⟩
  · obtain rfl : r = _ := hr
    rcases hph with rfl | rfl
    · exact ⟨_, .inl rfl, read_byte (t := ⟨some host, { uri with host := host }⟩) kind_colon rfl⟩
    · exact ⟨_, .inr rfl, read_byte (t := ⟨some host, { uri with host := host }⟩) kind_colon rfl⟩

theorem closing_of_save_port {r : Reader} {n : Int} (hph : ph = .portOrUser true ∨ ph = .port true)
    (hport : acts marked r .save_port = .ok ⟨none, { uri with port := n }⟩) :
    Closing marked (ph, r) { uri with port := n } := by
  have hslash : [Action.save_port, .markh].foldlM (acts marked) r =
      .ok ⟨some [], { uri with port := n }⟩ := by
    rw [List.foldlM_cons, hport]
    rfl
  have hend : [Action.save_port, .markh, .save_path].foldlM (acts marked) r =
      .ok ⟨none, { uri with port := n, path := [] }⟩ := by
    rw [List.foldlM_cons, hport]
    rfl
  rcases hph with rfl | rfl
  all_goals exact
    { slash := read_byte (t := ⟨some [], { uri with port := n }⟩) kind_slash hslash
      ending :=
        { question := read_byte (t := ⟨none, { uri with port := n, path := [] }⟩) kind_question hend
          hash := read_byte (t := ⟨none, { uri with port := n, path := [] }⟩) kind_hash hend
          finish := hend } }

theorem closing_port (hph : ph = .portOrUser true ∨ ph = .port true) (hne : w ≠ []) :
    Closing marked (ph, ⟨some w, uri⟩) { uri with port := atoi w } := by
  apply closing_of_save_port hph
  simp only [acts, act, save, if_neg hne]

theorem read_port (hph : isPortStart ph) (hdigits : ∀ b ∈ w, isDigit b) (hne : w ≠ []) (s : Bytes) :
    ∃ x, read marked (ph, ⟨some s, uri⟩) w = .ok x ∧
      Closing marked x { uri with port := atoi w } := by
  obtain ⟨d, ds, rfl⟩ := List.exists_cons_of_ne_nil hne
  have hkind : ∀ b ∈ d :: ds, kind b = .digit := fun b hb => (kind_eq_digit b).mpr (hdigits b hb)
  have hd := hkind d List.mem_cons_self
  have hquiet : ∀ q : Phase, q = .portOrUser true ∨ q = .port true →
      ∀ c ∈ ds, q.step (kind c) = ([], q) := by
    rintro q (rfl | rfl) c hc
    all_goals
      rw [hkind c (List.mem_cons_of_mem _ hc)]
      rfl
  have hfirst : ∃ q : Phase, (q = .portOrUser true ∨ q = .port true) ∧
      read marked (ph, ⟨some s, uri⟩) [d] = .ok (q, ⟨some [d], uri⟩) := by
    rcases hph with rfl | rfl
    · exact ⟨_, .inl rfl, read_byte (t := ⟨some [], uri⟩) hd rfl⟩
    · exact ⟨_, .inr rfl, read_byte (t := ⟨some [], uri⟩) hd rfl⟩
  obtain ⟨q, hq, hread⟩ := hfirst
  exact ⟨_, read_cons hread (read_quiet (hquiet q hq) _), closing_port hq hne⟩

def IsPath (path : Bytes) : Prop :=
  path = [] ∨ ∃ rest, path = 47 :: rest ∧ ∀ b ∈ rest, kind b ≠ .question ∧ kind b ≠ .hash

theorem path_quiet (h : ∀ b ∈ w, kind b ≠ .question ∧ kind b ≠ .hash) :
    ∀ b ∈ w, Phase.path.step (kind b) = ([], .path) := by
  intro b hb
  obtain ⟨hquestion, hhash⟩ := h b hb
  cases hk : kind b <;> first | rfl | simp_all

theorem Closing.read_path (hx : Closing marked x uri) (hpath : IsPath path) :
    ∃ y, read marked x path = .ok y ∧ Ending marked y { uri with path := path } := by
  rcases hpath with rfl | ⟨rest, rfl, hrest⟩
  · exact ⟨x, rfl, hx.ending⟩
  · refine ⟨(.path, ⟨some (47 :: rest), uri⟩), read_cons hx.slash ?_, ?_⟩
    · exact read_quiet (path_quiet hrest) _
    · exact
        { question := read_byte (t := ⟨none, { uri with path := 47 :: rest }⟩) kind_question rfl
          hash := read_byte (t := ⟨none, { uri with path := 47 :: rest }⟩) kind_hash rfl
          finish := rfl }

def before (c : UInt8) : Option Bytes → Bytes
  | none => []
  | some t => c :: t

theorem Ending.read_query (hx : Ending marked x uri)
    (hquery : ∀ q, query = some q → ∀ b ∈ q, kind b ≠ .hash) :
    ∃ y, read marked x (before 63 query) = .ok y ∧
      Ended marked y { uri with query := query.getD uri.query } := by
  match query with
  | none => exact ⟨x, rfl, hx.toEnded⟩
  | some [] =>
    exact ⟨_, hx.question,
      { hash := read_byte (t := ⟨none, { uri with query := [] }⟩) kind_hash rfl
        finish := rfl }⟩
  | some (b :: q) =>
    have hkind := hquery _ rfl
    have hquiet : ∀ c ∈ q, Phase.query.step (kind c) = ([], .query) :=
      fun c hc => if_neg (hkind c (List.mem_cons_of_mem _ hc))
    have hfirst : read marked (.queryStart, ⟨none, uri⟩) [b] = .ok (.query, ⟨some [b], uri⟩) := by
      have hb := hkind b List.mem_cons_self
      cases hk : kind b <;> first
        | exact absurd hk hb
        | exact read_byte (t := ⟨some [], uri⟩) hk rfl
    exact ⟨(.query, ⟨some (b :: q), uri⟩),
      read_cons hx.question (read_cons hfirst (read_quiet hquiet _)),
      { hash := read_byte (t := ⟨none, { uri with query := b :: q }⟩) kind_hash rfl
        finish := rfl }⟩

theorem Ended.read_fragment (hx : Ended marked x uri) (fragment : Option Bytes) :
    ∃ y, read marked x (before 35 fragment) = .ok y ∧
      Reader.finish marked y = .ok ⟨none, { uri with fragment := fragment.getD uri.fragment }⟩ := by
  match fragment with
  | none => exact ⟨x, rfl, hx.finish⟩
  | some [] => exact ⟨_, hx.hash, rfl⟩
  | some (b :: f) =>
    have hfirst : read marked (.fragmentStart, ⟨none, uri⟩) [b] =
        .ok (.fragment, ⟨some [b], uri⟩) := read_byte (t := ⟨some [], uri⟩) rfl rfl
    exact ⟨(.fragment, ⟨some (b :: f), uri⟩),
      read_cons hx.hash (read_cons hfirst (read_quiet (fun _ _ => rfl) _)), rfl⟩

end Rest

end Reader

end Sylar.Uri
