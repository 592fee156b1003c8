import Mathlib.Tactic.Abel
import Sylar.Uri.Throws

/-! The language of `Uri::Create` and the one of RFC 3986. The two grammars differ below
`host` only, so a text is in one and not in the other because of its host: a literal
that `uri.rl` lacks, or the byte that it writes for the digit 2. -/
namespace Sylar.Uri

open Lib Lib.Grammar Lib.Numerals
open Http (Bytes ascii)

def rfc (r : Rule) : Language UInt8 := lang (grammar .rfc3986) (.rule r)

def noAuthority : Expr Rule :=
  .alt (.seqs [.rule .scheme, .char ':', pathOnly, tail])
    (.seq (.alts [.rule .path_absolute, .rule .path_noscheme, .empty]) tail)

def hostBefore : Expr Rule :=
  .seqs [.opt (.seq (.rule .scheme) (.char ':')), .char '/', .char '/',
    .opt (.seq (.rule .userinfo) (.char '@'))]

def hostAfter : Expr Rule :=
  .seqs [.opt (.seq (.char ':') (.rule .port)), .rule .path_abempty, tail]

section Decomposition

variable (d : Dialect)

theorem lang_relative_ref : lang (grammar d) (.rule .relative_ref) =
    (lang (grammar d) netPath +
      lang (grammar d) (.alts [.rule .path_absolute, .rule .path_noscheme, .empty])) *
        lang (grammar d) tail := by
  rw [← lang_alt, ← lang_seq, lang_rule, grammar, lang_seq, lang_rule, lang_seq]
  rfl

theorem lang_noAuthority : lang (grammar d) noAuthority =
    lang (grammar d) (.rule .scheme) * (lang (grammar d) (.char ':') *
        (lang (grammar d) pathOnly * lang (grammar d) tail)) +
      lang (grammar d) (.alts [.rule .path_absolute, .rule .path_noscheme, .empty]) *
        lang (grammar d) tail := by
  rw [← lang_seq, ← lang_seq, ← lang_seq, ← lang_seq, ← lang_alt]
  rfl

theorem lang_hostBefore : lang (grammar d) hostBefore =
    (lang (grammar d) (.rule .scheme) * lang (grammar d) (.char ':') + 1) *
      (lang (grammar d) (.char '/') * (lang (grammar d) (.char '/') *
        lang (grammar d) (.opt (.seq (.rule .userinfo) (.char '@'))))) := by
  rw [← lang_empty, ← lang_seq, ← lang_seq, ← lang_seq, ← lang_alt, ← lang_seq]
  rfl

theorem lang_hostAfter : lang (grammar d) hostAfter =
    lang (grammar d) (.opt (.seq (.char ':') (.rule .port))) *
      (lang (grammar d) (.rule .path_abempty) * lang (grammar d) tail) := by
  rw [← lang_seq, ← lang_seq]
  rfl

theorem lang_reference : lang (grammar d) (.rule .URI_reference) =
    lang (grammar d) noAuthority +
      lang (grammar d) hostBefore * (lang (grammar d) (.rule .host) * lang (grammar d) hostAfter) := by
  rw [lang_URI_reference, lang_URI, lang_hier_part, lang_relative_ref, lang_netPath, lang_authority,
    lang_noAuthority, lang_hostBefore, lang_hostAfter]
  simp only [mul_add, add_mul, mul_assoc, one_mul]
  abel

theorem mem_reference {text : Bytes} : text ∈ lang (grammar d) (.rule .URI_reference) ↔
    text ∈ lang (grammar d) noAuthority ∨
      ∃ before host after, text = before ++ (host ++ after) ∧ before ∈ lang (grammar d) hostBefore ∧
        host ∈ lang (grammar d) (.rule .host) ∧ after ∈ lang (grammar d) hostAfter := by
  rw [lang_reference, Language.mem_add, Language.mem_mul]
  apply or_congr Iff.rfl
  constructor
  · rintro ⟨before, hbefore, rest, hrest, rfl⟩
    obtain ⟨host, hhost, after, hafter, rfl⟩ := Language.mem_mul.mp hrest
    exact ⟨before, host, after, rfl, hbefore, hhost, hafter⟩
  · rintro ⟨before, host, after, rfl, hbefore, hhost, hafter⟩
    exact ⟨before, hbefore, _, Language.append_mem_mul hhost hafter, rfl⟩

end Decomposition

section SameRules

theorem lang_path_abempty (d : Dialect) : lang (grammar d) (.rule .path_abempty) =
    lang (grammar d) (.many slashSegment) := by
  cases d with
  | rfc3986 =>
    rw [lang_rule]
    exact lang_rule Rule.segments
  | ragel =>
    have hsegments : lang (grammar .ragel) (.rule .segments) =
        lang (grammar .ragel) (.many slashSegment) := lang_rule _
    have hseq : lang (grammar .ragel) (.rule .path_abempty) =
        (lang (grammar .ragel) slashSegment + 1) * lang (grammar .ragel) (.rule .segments) := by
      rw [lang_rule, ← lang_empty (g := grammar .ragel), ← lang_alt, ← lang_seq]
      rfl
    rw [hseq, hsegments, lang_many, add_mul, one_mul]
    exact add_eq_right_iff_le.mpr mul_kstar_le_kstar

theorem noAuthority_same : lang (grammar .ragel) noAuthority = lang (grammar .rfc3986) noAuthority :=
  lang_eq_of_sub (n := 60) (by decide) (by decide)

theorem hostBefore_same : lang (grammar .ragel) hostBefore = lang (grammar .rfc3986) hostBefore :=
  lang_eq_of_sub (n := 60) (by decide) (by decide)

theorem reg_name_same :
    lang (grammar .ragel) (.rule .reg_name) = lang (grammar .rfc3986) (.rule .reg_name) :=
  lang_eq_of_sub (n := 60) (by decide) (by decide)

theorem hostAfter_same : lang (grammar .ragel) hostAfter = lang (grammar .rfc3986) hostAfter := by
  have hport : lang (grammar .ragel) (.opt (.seq (.char ':') (.rule .port))) =
      lang (grammar .rfc3986) (.opt (.seq (.char ':') (.rule .port))) :=
    lang_eq_of_sub (n := 60) (by decide) (by decide)
  have htail : lang (grammar .ragel) tail = lang (grammar .rfc3986) tail :=
    lang_eq_of_sub (n := 60) (by decide) (by decide)
  have hpath : lang (grammar .ragel) (.many slashSegment) =
      lang (grammar .rfc3986) (.many slashSegment) :=
    lang_eq_of_sub (n := 60) (by decide) (by decide)
  rw [lang_hostAfter, lang_hostAfter, lang_path_abempty, lang_path_abempty, hport, htail, hpath]

end SameRules

section Hosts

variable {host : Bytes}

theorem mem_many_left {g : Rule → Expr Rule} {set : Nat} {e : Expr Rule} {w : Bytes}
    (h : ∀ b ∈ w, set.testBit b.toNat) : w ∈ lang g (.many (.alt (.bytes set) e)) := by
  induction w with
  | nil => exact .stop
  | cons b w ih =>
    have hrest := ih fun c hc => h c (List.mem_cons_of_mem _ hc)
    exact .more (.left (.bytes (h b List.mem_cons_self))) hrest

theorem ipv4_reg_name {d : Dialect} {w : Bytes}
    (h : w ∈ lang (grammar .rfc3986) (.rule .IPv4address)) : w ∈ lang (grammar d) (.rule .reg_name) :=
  .rule (mem_many_left fun b hb =>
    Matches.testBit_of_within (ranges (unreserved ++ subDelims)) h (n := 60) (by decide) b hb)

/-- A host that only the standard has is a literal. -/
theorem literal_of_rfc (h : host ∈ rfc .host) (hnot : host ∉ ragel .host) :
    ∃ inner, host = 91 :: inner ++ [93] ∧ ∀ b ∈ inner, kind b ≠ .closeBracket := by
  rw [rfc, lang_host, Language.mem_add, Language.mem_add] at h
  rw [ragel, lang_host, Language.mem_add, Language.mem_add] at hnot
  rcases h with h | h | h
  · exact literal_kinds h
  · exact absurd (.inr (.inr (ipv4_reg_name h))) hnot
  · exact absurd (.inr (.inr (reg_name_same ▸ h))) hnot

def notTwo : Nat := ranges [(0, 1), (3, 255)]

theorem testBit_notTwo : ∀ b : UInt8, notTwo.testBit b.toNat ↔ b ≠ 2 :=
  forall_byte (by decide +kernel)

theorem two_mem_of_ragel (h : host ∈ ragel .host) (hnot : host ∉ rfc .host) : 2 ∈ host := by
  by_contra htwo
  have hw : ∀ b ∈ host, notTwo.testBit b.toNat :=
    fun b hb => (testBit_notTwo b).mpr (ne_of_mem_of_not_mem hb htwo)
  exact hnot (mem_of_sub (n := 80) (by decide) hw h)

/-- Hosts without brackets and without that byte are the same in both. -/
theorem host_same (hbracket : 91 ∉ host) (htwo : 2 ∉ host) :
    host ∈ ragel .host ↔ host ∈ rfc .host := by
  constructor
  · intro h
    by_contra hnot
    exact htwo (two_mem_of_ragel h hnot)
  · intro h
    by_contra hnot
    obtain ⟨inner, rfl, -⟩ := literal_of_rfc h hnot
    exact hbracket List.mem_cons_self

end Hosts

/-- The text has a host of one grammar that the other one lacks. -/
def HostOnly (d d' : Dialect) (text : Bytes) : Prop :=
  ∃ before host after, text = before ++ (host ++ after) ∧ before ∈ lang (grammar d) hostBefore ∧
    host ∈ lang (grammar d) (.rule .host) ∧ after ∈ lang (grammar d) hostAfter ∧
    host ∉ lang (grammar d') (.rule .host)

section Difference

variable {text : Bytes}

theorem hostOnly_of_mem {d d' : Dialect}
    (hno : lang (grammar d) noAuthority = lang (grammar d') noAuthority)
    (hbefore : lang (grammar d) hostBefore = lang (grammar d') hostBefore)
    (hafter : lang (grammar d) hostAfter = lang (grammar d') hostAfter)
    (h : text ∈ lang (grammar d) (.rule .URI_reference))
    (hnot : text ∉ lang (grammar d') (.rule .URI_reference)) : HostOnly d d' text := by
  rw [mem_reference] at h hnot
  rcases h with h | ⟨before, host, after, rfl, hb, hh, ha⟩
  · exact absurd (.inl (hno ▸ h)) hnot
  · refine ⟨before, host, after, rfl, hb, hh, ha, ?_⟩
    intro hh'
    exact hnot (.inr ⟨before, host, after, rfl, hbefore ▸ hb, hh', hafter ▸ ha⟩)

theorem bracket_not_mem {d : Dialect} {e : Expr Rule} {w : Bytes} (hw : w ∈ lang (grammar d) e)
    (h : within (kindSet (· != .bracket)) (grammar d) 60 e = true) : 91 ∉ w := by
  intro hmem
  have hkind := kind_of_within (· != .bracket) 60 hw h 91 hmem
  rw [kind_bracket] at hkind
  cases hkind

theorem not_mem_ragel_of_hostOnly (h : HostOnly .rfc3986 .ragel text) :
    text ∉ ragel .URI_reference := by
  obtain ⟨before, host, after, rfl, hb, hh, ha, hnot⟩ := h
  obtain ⟨inner, rfl, hinner⟩ := literal_of_rfc hh hnot
  intro hmem
  have hclose : ∀ w : Bytes, (∀ b ∈ w, kind b ≠ .closeBracket) → 93 ∉ w :=
    fun w hw h93 => hw 93 h93 kind_closeBracket
  have hopen : (91 : UInt8) ∈ before ++ (91 :: inner ++ [93] ++ after) := by simp
  rcases (mem_reference .ragel).mp hmem with h | ⟨before', host', after', heq, hb', hh', ha'⟩
  · exact bracket_not_mem h (by decide) hopen
  · have hbefore := bracket_not_mem hb (by decide)
    have hbefore' := bracket_not_mem hb' (by decide)
    have hafter' := bracket_not_mem ha' (by decide)
    rcases host_kinds hh' with ⟨inner', rfl, hinner'⟩ | hname
    · have hcut : before ++ 91 :: (inner ++ 93 :: after) =
          before' ++ 91 :: (inner' ++ 93 :: after') := by simpa using heq
      obtain ⟨-, hrest⟩ := Pieces.first_cut hbefore hbefore' hcut
      obtain ⟨rfl, -⟩ := Pieces.first_cut (hclose _ hinner) (hclose _ hinner') hrest
      exact hnot hh'
    · rw [heq] at hopen
      have hhost' : 91 ∈ host' := by
        rcases List.mem_append.mp hopen with h | h
        · exact absurd h hbefore'
        · rcases List.mem_append.mp h with h | h
          · exact h
          · exact absurd h hafter'
      have hkind := hname 91 hhost'
      rw [kind_bracket] at hkind
      cases hkind

theorem not_mem_rfc_of_hostOnly (h : HostOnly .ragel .rfc3986 text) :
    text ∉ rfc .URI_reference := by
  obtain ⟨before, host, after, rfl, -, hh, -, hnot⟩ := h
  intro hmem
  have htwo := two_mem_of_ragel hh hnot
  have hbit := Matches.testBit_of_within notTwo hmem (n := 80) (by decide) 2 (by simp [htwo])
  exact (testBit_notTwo 2).mp hbit rfl

theorem hostOnly_rfc_iff :
    HostOnly .rfc3986 .ragel text ↔ text ∈ rfc .URI_reference ∧ text ∉ ragel .URI_reference := by
  constructor
  · intro h
    refine ⟨?_, not_mem_ragel_of_hostOnly h⟩
    obtain ⟨before, host, after, rfl, hb, hh, ha, -⟩ := h
    exact (mem_reference _).mpr (.inr ⟨before, host, after, rfl, hb, hh, ha⟩)
  · rintro ⟨h, hnot⟩
    exact hostOnly_of_mem noAuthority_same.symm hostBefore_same.symm hostAfter_same.symm h hnot

theorem hostOnly_ragel_iff :
    HostOnly .ragel .rfc3986 text ↔ text ∈ ragel .URI_reference ∧ text ∉ rfc .URI_reference := by
  constructor
  · intro h
    refine ⟨?_, not_mem_rfc_of_hostOnly h⟩
    obtain ⟨before, host, after, rfl, hb, hh, ha, -⟩ := h
    exact (mem_reference _).mpr (.inr ⟨before, host, after, rfl, hb, hh, ha⟩)
  · rintro ⟨h, hnot⟩
    exact hostOnly_of_mem noAuthority_same hostBefore_same hostAfter_same h hnot

theorem create_iff :
    (∃ u, create text = .ok (some u)) ↔ text ∈ ragel .URI_reference ∧ ¬ EmptyPort text := by
  constructor
  · rintro ⟨u, hu⟩
    refine ⟨mem_of_create hu, ?_⟩
    intro hempty
    cases hu.symm.trans (error_of_emptyPort false hempty)
  · rintro ⟨hmem, hempty⟩
    cases h : createWith (acts false text) text with
    | error f => exact absurd (emptyPort_of_error h) hempty
    | ok o =>
      have hsteps := h
      rw [createWith_of_mem hmem] at hsteps
      obtain ⟨x, -, hsteps⟩ := bind_eq_ok.mp hsteps
      obtain ⟨r, -, hsteps⟩ := bind_eq_ok.mp hsteps
      obtain rfl := Except.ok.inj hsteps
      exact ⟨r.uri, h⟩

/-- `Uri::Create` gives a uri for the texts of `uri.rl` without an empty port after a
scheme. It does so for the texts of the standard and no others, except for texts of the
standard with such a port and for those whose host the other grammar lacks. A host
without a bracket and without the byte of value 2 is in both. -/
theorem create_language (text : Bytes) :
    ((∃ u, create text = .ok (some u)) ↔ text ∈ ragel .URI_reference ∧ ¬ EmptyPort text) ∧
      (((∃ u, create text = .ok (some u)) ↔ text ∈ rfc .URI_reference) ↔
        ¬ HostOnly .rfc3986 .ragel text ∧ ¬ (HostOnly .ragel .rfc3986 text ∧ ¬ EmptyPort text) ∧
          ¬ (text ∈ rfc .URI_reference ∧ EmptyPort text)) ∧
      ∀ host : Bytes, 91 ∉ host → 2 ∉ host → (host ∈ ragel .host ↔ host ∈ rfc .host) := by
  refine ⟨create_iff, ?_, fun host => host_same⟩
  rw [create_iff, hostOnly_rfc_iff, hostOnly_ragel_iff]
  by_cases hragel : text ∈ ragel .URI_reference <;> by_cases hrfc : text ∈ rfc .URI_reference <;>
    by_cases hempty : EmptyPort text <;> simp [hragel, hrfc, hempty]

/-- `http://[1::1]/` and `http://h:` are uris, but the one is refused and the other one
throws; `//\x0200.0.0.0` is none and is accepted. -/
theorem language_differs :
    (ascii ['h', 't', 't', 'p', ':', '/', '/', '[', '1', ':', ':', '1', ']', '/'] ∈
        rfc .URI_reference ∧
      create (ascii ['h', 't', 't', 'p', ':', '/', '/', '[', '1', ':', ':', '1', ']', '/']) =
        .ok none) ∧
    (ascii ['h', 't', 't', 'p', ':', '/', '/', 'h', ':'] ∈ rfc .URI_reference ∧
      create (ascii ['h', 't', 't', 'p', ':', '/', '/', 'h', ':']) = .error .nullMark) ∧
    ascii ['/', '/'] ++ 2 :: ascii ['0', '0', '.', '0', '.', '0', '.', '0'] ∉ rfc .URI_reference ∧
    create (ascii ['/', '/'] ++ 2 :: ascii ['0', '0', '.', '0', '.', '0', '.', '0']) =
      .ok (some { Uri.fresh with
        host := 2 :: ascii ['0', '0', '.', '0', '.', '0', '.', '0'] }) := by
  refine ⟨⟨?_, ?_⟩, ⟨?_, ?_⟩, ?_, ?_⟩
  · exact (mem_lang_of_test (n := 60) (v := true) _ (by decide)).mpr rfl
  · decide
  · exact (mem_lang_of_test (n := 60) (v := true) _ (by decide)).mpr rfl
  · decide
  · rw [rfc, mem_lang_of_test (n := 60) (v := false) _ (by decide)]
    decide
  · decide

end Difference

end Sylar.Uri
