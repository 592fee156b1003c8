import Sylar.Uri.Grammar
import Sylar.Uri.Reading

/-! The parts of a uri that has a scheme and an authority. A record of them carries that
each part is in its language, so every record is the text of a uri; what `Uri::Create`
makes of that text is told part by part. -/
namespace Sylar.Uri

open Lib Lib.Grammar Lib.Numerals
open Http (Bytes ascii)

def ragel (r : Rule) : Language UInt8 := lang (grammar .ragel) (.rule r)

theorem mem_ragel {r : Rule} {w : Bytes} (n : Nat)
    (h : test (grammar .ragel) n (.rule r) w = some true) : w ∈ ragel r :=
  (mem_lang_of_test _ h).mpr rfl

section Languages

variable {w : Bytes} {n : Nat}

def kindSet (P : Kind → Bool) : Nat :=
  (kinds.filter fun e => P e.2).foldr (fun (e : Nat × Kind) s => e.1 ||| s) 0

theorem kind_of_testBit : ∀ b : UInt8, ∀ e ∈ kinds, e.1.testBit b.toNat → kind b = e.2 :=
  forall_byte (by decide +kernel)

theorem testBit_kindSet {P : Kind → Bool} {b : UInt8} (h : (kindSet P).testBit b.toNat) :
    P (kind b) := by
  have hfold : ∀ l : List (Nat × Kind), (l.foldr (fun (e : Nat × Kind) s => e.1 ||| s) 0).testBit b.toNat = true →
      ∃ e ∈ l, e.1.testBit b.toNat := by
    intro l
    induction l with
    | nil => simp
    | cons e l ih =>
      rw [List.foldr_cons, Nat.testBit_or, Bool.or_eq_true]
      rintro (h | h)
      · exact ⟨e, List.mem_cons_self, h⟩
      · obtain ⟨e', he', hbit⟩ := ih h
        exact ⟨e', List.mem_cons_of_mem _ he', hbit⟩
  obtain ⟨e, he, hbit⟩ := hfold _ h
  obtain ⟨hmem, hP⟩ := List.mem_filter.mp he
  rw [kind_of_testBit b e hmem hbit]
  exact hP

theorem kind_of_within {d : Dialect} {e : Expr Rule} (P : Kind → Bool) (n : Nat)
    (hw : w ∈ lang (grammar d) e) (h : within (kindSet P) (grammar d) n e = true) :
    ∀ b ∈ w, P (kind b) :=
  fun b hb => testBit_kindSet (Matches.testBit_of_within _ hw h b hb)

theorem userinfo_kinds (hw : w ∈ ragel .userinfo) : ∀ b ∈ w, (kind b).inUser :=
  kind_of_within Kind.inUser 12 hw (by decide)

theorem port_digits (hw : w ∈ ragel .port) : ∀ b ∈ w, isDigit b := by
  intro b hb
  have hkind := kind_of_within (· == .digit) 12 hw (by decide) b hb
  exact (kind_eq_digit b).mp (by simpa using hkind)

theorem scheme_kinds (hw : w ∈ ragel .scheme) :
    ∃ b v, w = b :: v ∧ kind b = .alpha ∧ ∀ c ∈ v, (kind c).inScheme := by
  have hall := kind_of_within Kind.inScheme 12 hw (by decide)
  have hne : [] ∉ ragel .scheme := by
    rw [ragel, mem_lang_of_test (n := 12) (v := false) _ (by decide)]
    decide
  obtain ⟨b, v, rfl⟩ := List.exists_cons_of_ne_nil (ne_of_mem_of_not_mem hw hne)
  have hfirst : (kindSet (· == .alpha)).testBit b.toNat :=
    testBit_of_startsIn _ (n := 12) (by decide) hw
  have hkind := testBit_kindSet hfirst
  exact ⟨b, v, rfl, by simpa using hkind, fun c hc => hall c (List.mem_cons_of_mem _ hc)⟩

theorem lang_host (d : Dialect) : lang (grammar d) (.rule .host) =
    lang (grammar d) (.rule .IP_literal) +
      (lang (grammar d) (.rule .IPv4address) + lang (grammar d) (.rule .reg_name)) := by
  rw [lang_rule, ← lang_alt, ← lang_alt]
  rfl

theorem literal_kinds {d : Dialect} (hw : w ∈ lang (grammar d) (.rule .IP_literal)) :
    ∃ inner, w = 91 :: inner ++ [93] ∧ ∀ b ∈ inner, kind b ≠ .closeBracket := by
  have hseq : w ∈ lang (grammar d) (.char '[') *
      (lang (grammar d) (.alt (.rule .IPv6address) (.rule .IPvFuture)) *
        lang (grammar d) (.char ']')) := by
    rw [← lang_seq, ← lang_seq]
    exact (lang_rule Rule.IP_literal).le hw
  obtain ⟨o, ho, v, hv, rfl⟩ := Language.mem_mul.mp hseq
  obtain ⟨inner, hinner, c, hc, rfl⟩ := Language.mem_mul.mp hv
  obtain rfl := (mem_lang_char (by decide)).mp ho
  obtain rfl := (mem_lang_char (by decide)).mp hc
  refine ⟨inner, rfl, ?_⟩
  intro b hb
  have hkind := kind_of_within (· != .closeBracket) 60 hinner
    (by cases d <;> decide) b hb
  simpa using hkind

theorem host_kinds {d : Dialect} (hw : w ∈ lang (grammar d) (.rule .host)) :
    (∃ inner, w = 91 :: inner ++ [93] ∧ ∀ b ∈ inner, kind b ≠ .closeBracket) ∨
      ∀ b ∈ w, (kind b).inName := by
  rw [lang_host, Language.mem_add, Language.mem_add] at hw
  rcases hw with h | h | h
  · exact .inl (literal_kinds h)
  · exact .inr (kind_of_within Kind.inName 60 h (by cases d <;> decide))
  · exact .inr (kind_of_within Kind.inName 60 h (by cases d <;> decide))

theorem path_kinds (hw : w ∈ ragel .path_abempty) : Reader.IsPath w := by
  have hall := kind_of_within (fun k => k != .question && k != .hash) 12 hw (by decide)
  cases w with
  | nil => exact .inl rfl
  | cons b v =>
    have hfirst : (span 47 47).testBit b.toNat :=
      testBit_of_startsIn _ (n := 12) (by decide) hw
    rw [testBit_span] at hfirst
    obtain rfl : b = 47 := UInt8.toNat_inj.mp (Nat.le_antisymm hfirst.2 hfirst.1)
    refine .inr ⟨v, rfl, ?_⟩
    intro c hc
    simpa using hall c (List.mem_cons_of_mem _ hc)

theorem query_kinds (hw : w ∈ ragel .query) : ∀ b ∈ w, kind b ≠ .hash := by
  intro b hb
  simpa using kind_of_within (· != .hash) 12 hw (by decide) b hb

end Languages

/-- The parts of `scheme://[userinfo@]host[:port][path][?query][#fragment]`, each in its
language. -/
structure Parts where
  scheme : Bytes
  userinfo : Option Bytes
  host : Bytes
  port : Option Bytes
  path : Bytes
  query : Option Bytes
  fragment : Option Bytes
  scheme_mem : scheme ∈ ragel .scheme
  userinfo_mem : ∀ w, userinfo = some w → w ∈ ragel .userinfo
  host_mem : host ∈ ragel .host
  port_mem : ∀ w, port = some w → w ∈ ragel .port
  path_mem : path ∈ ragel .path_abempty
  query_mem : ∀ w, query = some w → w ∈ ragel .query
  fragment_mem : ∀ w, fragment = some w → w ∈ ragel .fragment

namespace Parts

open Reader (before)

def userPrefix : Option Bytes → Bytes
  | none => []
  | some w => w ++ [64]

variable (p : Parts)

def text : Bytes :=
  p.scheme ++ [58, 47, 47] ++ userPrefix p.userinfo ++ p.host ++ before 58 p.port ++ p.path ++
    before 63 p.query ++ before 35 p.fragment

def uri : Uri :=
  { scheme := p.scheme
    userinfo := (p.userinfo.map kept).getD []
    host := p.host
    path := p.path
    query := p.query.getD []
    fragment := p.fragment.getD []
    port := (p.port.map atoi).getD 0 }

section Reading

variable (marked : Bool)

theorem read_userPrefix (u : Uri) : ∃ ph host,
    (ph = .authority true ∨ ph = .hostStart true) ∧
      Reader.read marked (.authority true, ⟨none, u⟩) (userPrefix p.userinfo) =
        .ok (ph, ⟨none, { u with
          userinfo := (p.userinfo.map kept).getD u.userinfo
          host := host }⟩) := by
  cases huser : p.userinfo with
  | none => exact ⟨_, u.host, .inl rfl, rfl⟩
  | some w =>
    obtain ⟨host, hread⟩ := Reader.read_userinfo (userinfo_kinds (p.userinfo_mem w huser))
    exact ⟨_, host, .inr rfl, hread⟩

theorem read_upto_host : ∃ x h,
    Reader.read marked (.start, .fresh)
        (p.scheme ++ [58, 47, 47] ++ userPrefix p.userinfo ++ p.host) = .ok x ∧
      Reader.AfterHost p.host
        { Uri.fresh with
          scheme := p.scheme
          userinfo := (p.userinfo.map kept).getD []
          host := h } x := by
  obtain ⟨b, v, hscheme, hb, hv⟩ := scheme_kinds p.scheme_mem
  obtain ⟨ph, h, hph, huser⟩ := p.read_userPrefix marked { Uri.fresh with scheme := b :: v }
  obtain ⟨x, hread, hafter⟩ := Reader.read_host hph (host_kinds p.host_mem)
  rw [hscheme]
  exact ⟨x, h, Reader.read_append (Reader.read_append (Reader.read_scheme hb hv) huser) hread, hafter⟩

theorem read_authority (hport : p.port ≠ some []) : ∃ x,
    Reader.read marked (.start, .fresh)
        (p.scheme ++ [58, 47, 47] ++ userPrefix p.userinfo ++ p.host ++ before 58 p.port) = .ok x ∧
      Reader.Closing marked x
        { Uri.fresh with
          scheme := p.scheme
          userinfo := (p.userinfo.map kept).getD []
          host := p.host
          port := (p.port.map atoi).getD 0 } := by
  obtain ⟨x, h, hread, hafter⟩ := p.read_upto_host marked
  cases hp : p.port with
  | none => exact ⟨x, Reader.read_append hread rfl, hafter.closing⟩
  | some ds =>
    have hne : ds ≠ [] := by
      rintro rfl
      exact hport hp
    obtain ⟨ph, hph, hcolon⟩ := hafter.colon marked
    obtain ⟨y, hy, hclosing⟩ := Reader.read_port hph (port_digits (p.port_mem ds hp)) hne _
    refine ⟨y, Reader.read_append hread (Reader.read_cons hcolon hy), ?_⟩
    rw [Option.map_some, Option.getD_some]
    exact hclosing

theorem read_text (hport : p.port ≠ some []) : ∃ y,
    Reader.read marked (.start, .fresh) p.text = .ok y ∧
      Reader.finish marked y = .ok ⟨none, p.uri⟩ := by
  obtain ⟨x, hauthority, hclosing⟩ := p.read_authority marked hport
  obtain ⟨x₁, hpath, hending⟩ := hclosing.read_path (path_kinds p.path_mem)
  obtain ⟨x₂, hquery, hended⟩ := hending.read_query fun q hq => query_kinds (p.query_mem q hq)
  obtain ⟨y, hfragment, hfinish⟩ := hended.read_fragment p.fragment
  exact ⟨y, Reader.read_append (Reader.read_append (Reader.read_append hauthority hpath) hquery)
    hfragment, hfinish⟩

end Reading

end Parts

end Sylar.Uri
