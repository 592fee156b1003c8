import Sylar.Lib.Pieces
import Sylar.Uri.Parts

/-! The texts of the grammar that have a scheme and an authority are the texts of parts,
and `Uri::Create` accepts each of them unless its port is there and empty. -/
namespace Sylar.Uri

open Lib Lib.Grammar Lib.Numerals
open Http (Bytes)
open Reader (before)

section Options

variable {g : Rule → Expr Rule} {e : Expr Rule} {c : Char} {w : Bytes}

theorem mem_opt : w ∈ lang g (.opt e) ↔ w ∈ lang g e ∨ w = [] := by
  rw [Expr.opt, lang_alt, Language.mem_add, lang_empty, Language.mem_one]

theorem mem_before (hc : c.toNat < 256) : w ∈ lang g (.opt (.seq (.char c) e)) ↔
    ∃ o, w = before (UInt8.ofNat c.toNat) o ∧ ∀ v, o = some v → v ∈ lang g e := by
  rw [mem_opt, lang_seq, Language.mem_mul]
  constructor
  · rintro (⟨a, ha, v, hv, rfl⟩ | rfl)
    · obtain rfl := (mem_lang_char hc).mp ha
      exact ⟨some v, rfl, fun u hu => Option.some.inj hu ▸ hv⟩
    · exact ⟨none, rfl, by simp⟩
  · rintro ⟨o, rfl, ho⟩
    cases o with
    | none => exact .inr rfl
    | some v => exact .inl ⟨_, (mem_lang_char hc).mpr rfl, v, ho v rfl, rfl⟩

theorem mem_userPrefix : w ∈ lang g (.opt (.seq (.rule .userinfo) (.char '@'))) ↔
    ∃ o, w = Parts.userPrefix o ∧ ∀ v, o = some v → v ∈ lang g (.rule .userinfo) := by
  rw [mem_opt, lang_seq, Language.mem_mul]
  constructor
  · rintro (⟨v, hv, a, ha, rfl⟩ | rfl)
    · obtain rfl := (mem_lang_char (by decide)).mp ha
      exact ⟨some v, rfl, fun u hu => Option.some.inj hu ▸ hv⟩
    · exact ⟨none, rfl, by simp⟩
  · rintro ⟨o, rfl, ho⟩
    cases o with
    | none => exact .inr rfl
    | some v => exact .inl ⟨v, ho v rfl, _, (mem_lang_char (by decide)).mpr rfl, rfl⟩

end Options

section Rules

variable {d : Dialect} {w : Bytes}

theorem lang_authority : lang (grammar d) (.rule .authority) =
    lang (grammar d) (.opt (.seq (.rule .userinfo) (.char '@'))) * (lang (grammar d) (.rule .host) *
      lang (grammar d) (.opt (.seq (.char ':') (.rule .port)))) := by
  rw [lang_rule, ← lang_seq, ← lang_seq]
  rfl

theorem lang_netPath : lang (grammar d) netPath =
    lang (grammar d) (.char '/') * (lang (grammar d) (.char '/') *
      (lang (grammar d) (.rule .authority) * lang (grammar d) (.rule .path_abempty))) := by
  rw [← lang_seq, ← lang_seq, ← lang_seq]
  rfl

theorem lang_tail : lang (grammar d) tail =
    lang (grammar d) (.opt (.seq (.char '?') (.rule .query))) *
      lang (grammar d) (.opt (.seq (.char '#') (.rule .fragment))) := lang_seq _ _

/-- What `hier_part` has besides a path after an authority. -/
def pathOnly : Expr Rule := .alts [.rule .path_absolute, .rule .path_rootless, .empty]

theorem lang_hier_part : lang (grammar d) (.rule .hier_part) =
    lang (grammar d) netPath + lang (grammar d) pathOnly := by
  rw [lang_rule, ← lang_alt]
  rfl

theorem lang_URI : lang (grammar d) (.rule .URI) =
    lang (grammar d) (.rule .scheme) * (lang (grammar d) (.char ':') *
      (lang (grammar d) (.rule .hier_part) * lang (grammar d) tail)) := by
  rw [lang_rule, ← lang_seq, ← lang_seq, ← lang_seq]
  rfl

theorem lang_URI_reference : lang (grammar d) (.rule .URI_reference) =
    lang (grammar d) (.rule .URI) + lang (grammar d) (.rule .relative_ref) := by
  rw [lang_rule, ← lang_alt]
  rfl

end Rules

namespace Parts

variable (p : Parts)

theorem authority_mem :
    userPrefix p.userinfo ++ (p.host ++ before 58 p.port) ∈ ragel .authority := by
  rw [ragel, lang_authority]
  apply Language.append_mem_mul
  · exact mem_userPrefix.mpr ⟨p.userinfo, rfl, p.userinfo_mem⟩
  · apply Language.append_mem_mul p.host_mem
    exact (mem_before (by decide)).mpr ⟨p.port, rfl, p.port_mem⟩

theorem tail_mem : before 63 p.query ++ before 35 p.fragment ∈ lang (grammar .ragel) tail := by
  rw [lang_tail]
  apply Language.append_mem_mul
  · exact (mem_before (by decide)).mpr ⟨p.query, rfl, p.query_mem⟩
  · exact (mem_before (by decide)).mpr ⟨p.fragment, rfl, p.fragment_mem⟩

theorem text_mem : p.text ∈ ragel .URI_reference := by
  have htext : p.text = p.scheme ++ ([58] ++ (([47] ++ ([47] ++
      ((userPrefix p.userinfo ++ (p.host ++ before 58 p.port)) ++ p.path))) ++
      (before 63 p.query ++ before 35 p.fragment))) := by
    simp [text]
  have hslash : [47] ∈ lang (grammar .ragel) (.char '/') := (mem_lang_char (by decide)).mpr rfl
  rw [htext, ragel, lang_URI_reference, Language.mem_add, lang_URI, lang_hier_part, lang_netPath]
  left
  apply Language.append_mem_mul p.scheme_mem
  apply Language.append_mem_mul ((mem_lang_char (by decide)).mpr rfl)
  refine Language.append_mem_mul ?_ p.tail_mem
  rw [Language.mem_add]
  left
  apply Language.append_mem_mul hslash
  apply Language.append_mem_mul hslash
  exact Language.append_mem_mul p.authority_mem p.path_mem

end Parts

section Split

variable {w σ rest : Bytes}

theorem colon_not_mem_scheme (h : σ ∈ ragel .scheme) : 58 ∉ σ := by
  intro hmem
  have hkind := kind_of_within Kind.inScheme 12 h (by decide) 58 hmem
  rw [kind_colon] at hkind
  cases hkind

/-- What is left of a relative reference after a letter and more characters of a
scheme. -/
def schemeLike : List (Stack Rule) := [[.many (.rule .pchar_nc), .rule .segments, tail]]

theorem after_alpha : ∀ b, kind b ≠ .alpha ∨
    after (grammar .ragel) 80 [[.rule .relative_ref]] [b] = some schemeLike :=
  forall_byte (by decide +kernel)

theorem after_schemeChar : ∀ b, (kind b).inScheme = false ∨
    after (grammar .ragel) 80 schemeLike [b] = some schemeLike :=
  forall_byte (by decide +kernel)

theorem schemeLike_colon (h : σ ++ 58 :: rest ∈ union (grammar .ragel) schemeLike)
    (hσ : ∀ b ∈ σ, (kind b).inScheme) : False := by
  induction σ with
  | nil =>
    have hcolon : after (grammar .ragel) 80 schemeLike [58] = some [] := by decide
    have hnone := (append_mem_of_after _ hcolon rest).mp h
    simp [mem_union] at hnone
  | cons b σ ih =>
    have hstep := (after_schemeChar b).resolve_left (by simp [hσ b List.mem_cons_self])
    exact ih ((append_mem_of_after _ hstep _).mp h) fun c hc => hσ c (List.mem_cons_of_mem _ hc)

theorem relative_ref_colon (hσ : σ ∈ ragel .scheme) : σ ++ 58 :: rest ∉ ragel .relative_ref := by
  intro h
  obtain ⟨b, v, rfl, hb, hv⟩ := scheme_kinds hσ
  rw [ragel, ← union_singleton] at h
  have hfirst := (after_alpha b).resolve_left (not_not_intro hb)
  exact schemeLike_colon ((append_mem_of_after _ hfirst _).mp h) hv

theorem exists_parts_of_netPath {a t : Bytes} (hσ : σ ∈ ragel .scheme)
    (ha : a ∈ lang (grammar .ragel) netPath) (ht : t ∈ lang (grammar .ragel) tail) :
    ∃ p : Parts, p.scheme = σ ∧ p.text = σ ++ 58 :: (a ++ t) := by
  rw [lang_netPath] at ha
  obtain ⟨s₁, hs₁, a₁, ha₁, rfl⟩ := Language.mem_mul.mp ha
  obtain ⟨s₂, hs₂, a₂, ha₂, rfl⟩ := Language.mem_mul.mp ha₁
  obtain ⟨authority, hauthority, path, hpath, rfl⟩ := Language.mem_mul.mp ha₂
  rw [lang_authority] at hauthority
  obtain ⟨u, hu, hp, hhp, rfl⟩ := Language.mem_mul.mp hauthority
  obtain ⟨host, hhost, colonPort, hcolonPort, rfl⟩ := Language.mem_mul.mp hhp
  rw [lang_tail] at ht
  obtain ⟨q, hq, f, hf, rfl⟩ := Language.mem_mul.mp ht
  obtain rfl := (mem_lang_char (by decide)).mp hs₁
  obtain rfl := (mem_lang_char (by decide)).mp hs₂
  obtain ⟨userinfo, rfl, huserinfo⟩ := mem_userPrefix.mp hu
  obtain ⟨port, rfl, hport⟩ := (mem_before (by decide)).mp hcolonPort
  obtain ⟨query, rfl, hquery⟩ := (mem_before (by decide)).mp hq
  obtain ⟨fragment, rfl, hfragment⟩ := (mem_before (by decide)).mp hf
  exact ⟨{ scheme := σ, userinfo, host, port, path, query, fragment
           scheme_mem := hσ
           userinfo_mem := huserinfo
           host_mem := hhost
           port_mem := hport
           path_mem := hpath
           query_mem := hquery
           fragment_mem := hfragment }, rfl, by simp [Parts.text]⟩

/-- A text of the grammar with a scheme and an authority is the text of parts. -/
theorem exists_parts (hσ : σ ∈ ragel .scheme) (h : σ ++ 58 :: 47 :: 47 :: rest ∈ ragel .URI_reference) :
    ∃ p : Parts, p.scheme = σ ∧ p.text = σ ++ 58 :: 47 :: 47 :: rest := by
  rw [ragel, lang_URI_reference, Language.mem_add] at h
  rcases h with h | h
  · rw [lang_URI] at h
    obtain ⟨σ', hσ', colonRest, hcolonRest, hsplit⟩ := Language.mem_mul.mp h
    obtain ⟨c, hc, r, hr, rfl⟩ := Language.mem_mul.mp hcolonRest
    obtain rfl := (mem_lang_char (by decide)).mp hc
    obtain ⟨hsame, hrest⟩ :=
      Pieces.first_cut (colon_not_mem_scheme hσ') (colon_not_mem_scheme hσ) hsplit
    have hr' : r ∈ lang (grammar .ragel) netPath * lang (grammar .ragel) tail +
        lang (grammar .ragel) (.seq pathOnly tail) := by
      rw [lang_seq, ← add_mul, ← lang_hier_part]
      exact hr
    rw [Language.mem_add] at hr'
    rcases hr' with hnet | hpath
    · obtain ⟨a, ha, t, ht, hat⟩ := Language.mem_mul.mp hnet
      obtain ⟨p, hp, htext⟩ := exists_parts_of_netPath hσ ha ht
      refine ⟨p, hp, htext.trans ?_⟩
      rw [hat]
      exact congrArg (σ ++ 58 :: ·) hrest
    · have hnone : after (grammar .ragel) 80 [[.seq pathOnly tail]] [47, 47] = some [] := by
        decide
      have hr47 : r = [47, 47] ++ rest := hrest
      exact absurd (hr47 ▸ hpath) (append_not_mem_of_after _ hnone rest)
  · exact absurd h (relative_ref_colon hσ)

end Split

end Sylar.Uri
