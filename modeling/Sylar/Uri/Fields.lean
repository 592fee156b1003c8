import Sylar.Uri.Shape

/-! What `Uri::Create` makes of the texts that the automaton accepts. For a uri with a
scheme and an authority every member is the part it stands for, but for a userinfo
whose first colon comes right before a digit: the port that could begin there moves the
mark, and only what follows the colon is kept. -/
namespace Sylar.Uri

open Lib Lib.Grammar Lib.Numerals
open Http (Bytes ascii)

section Acceptance

variable {text : Bytes} {marked : Bool}

theorem accepts_iff_reach (cs : Nat) (w : Bytes) :
    Grammar.accepts Arc.target state (fun cs => decide (uriParserFirstFinal ≤ cs)) cs w ↔
      ∃ cs', reach cs w = some cs' ∧ uriParserFirstFinal ≤ cs' := by
  induction w generalizing cs with
  | nil => simp [Grammar.accepts, reach]
  | cons b w ih =>
    simp only [Grammar.accepts, reach, next]
    cases RangeTable.pick b.toNat (state cs) with
    | none => simp
    | some arc => exact ih arc.target

theorem mem_iff_reach : text ∈ ragel .URI_reference ↔
    ∃ cs, reach uriParserStart text = some cs ∧ uriParserFirstFinal ≤ cs := by
  rw [ragel, ← accepts_iff]
  exact accepts_iff_reach uriParserStart text

theorem result_final {cs : Nat} (h : uriParserFirstFinal ≤ cs) (uri : Uri) :
    result cs uri = some uri := by
  have hne : cs ≠ uriParserError := by
    rintro rfl
    exact absurd h (by decide)
  rw [result, if_neg hne, if_pos h]

theorem createWith_of_mem (h : text ∈ ragel .URI_reference) :
    createWith (acts marked text) text = do
      let x ← Reader.read marked (.start, .fresh) text
      let r ← Reader.finish marked x
      return some r.uri := by
  obtain ⟨cs, hreach, hfinal⟩ := mem_iff_reach.mp h
  rw [createWith_of_reach hreach]
  simp only [Reader.finishAt, if_pos hfinal, result_final hfinal]

theorem mem_of_createWith {uri : Uri} (h : createWith (acts marked text) text = .ok (some uri)) :
    text ∈ ragel .URI_reference := by
  rw [mem_iff_reach]
  rcases reach_or_stuck uriParserStart text with ⟨cs, hreach⟩ | ⟨u, b, v, cs, htext, hreach, hb⟩
  · rw [createWith_of_reach hreach] at h
    obtain ⟨x, -, h⟩ := bind_eq_ok.mp h
    obtain ⟨r, -, h⟩ := bind_eq_ok.mp h
    refine ⟨cs, hreach, ?_⟩
    by_contra hfinal
    have hnone : result cs r.uri = none := by
      rw [result, if_neg hfinal]
      split <;> rfl
    rw [hnone] at h
    cases h
  · rw [createWith_of_stuck htext hreach hb] at h
    obtain ⟨x, -, h⟩ := bind_eq_ok.mp h
    cases h

theorem mem_of_create {uri : Uri} (h : create text = .ok (some uri)) : text ∈ ragel .URI_reference := by
  have hfalse : createWith (acts false text) text = .ok (some uri) := h
  exact mem_of_createWith hfalse

end Acceptance

namespace Parts

variable {p : Parts}

theorem createWith_text (marked : Bool) (h : p.port ≠ some []) :
    createWith (acts marked p.text) p.text = .ok (some p.uri) := by
  obtain ⟨y, hread, hfinish⟩ := p.read_text marked h
  rw [createWith_of_mem p.text_mem, hread]
  exact bind_eq_ok.mpr ⟨y, rfl, bind_eq_ok.mpr ⟨_, hfinish, rfl⟩⟩

theorem create_text (h : p.port ≠ some []) : create p.text = .ok (some p.uri) :=
  createWith_text false h

theorem port_uri {ds : Bytes} (h : p.port = some ds) : p.uri.port = atoi ds := by
  have hport : p.uri.port = (p.port.map atoi).getD 0 := rfl
  rw [hport, h, Option.map_some, Option.getD_some]

theorem getPath_uri : p.uri.getPath = if p.path = [] then ascii ['/'] else p.path := by
  simp only [Uri.getPath, uri, List.isEmpty_iff]

theorem atoi_digits {ds : Bytes} (hdigits : ∀ b ∈ ds, isDigit b) (h : value ds < 2 ^ 31) :
    atoi ds = value ds := by
  have htake : ds.takeWhile isDigit = ds := List.takeWhile_eq_self_iff.mpr hdigits
  unfold atoi
  rw [htake]
  apply Int.bmod_eq_of_le
  · omega
  · omega

structure Kept (p : Parts) (u : Uri) : Prop where
  scheme : u.scheme = p.scheme
  userinfo : u.userinfo = p.userinfo.getD []
  host : u.host = p.host
  path : u.getPath = if p.path = [] then ascii ['/'] else p.path
  query : u.query = p.query.getD []
  fragment : u.fragment = p.fragment.getD []
  port : ∀ ds, p.port = some ds → value ds < 2 ^ 31 → u.port = value ds

theorem kept_uri_iff : Kept p p.uri ↔ ∀ w, p.userinfo = some w → colonDigit w = false := by
  have huser : p.uri.userinfo = p.userinfo.getD [] ↔
      ∀ w, p.userinfo = some w → colonDigit w = false := by
    simp only [uri]
    cases p.userinfo with
    | none => simp
    | some w => simp [kept_eq_iff]
  constructor
  · intro h
    exact huser.mp h.userinfo
  · intro h
    refine ⟨rfl, huser.mpr h, rfl, getPath_uri, rfl, rfl, ?_⟩
    intro ds hds hlt
    rw [port_uri hds]
    exact atoi_digits (port_digits (p.port_mem ds hds)) hlt

/-- The texts of parts with a port that is not empty are accepted, and the uri has all
the parts as its members exactly if no digit comes right after the first colon of the
userinfo. -/
theorem create_fields (p : Parts) (hport : p.port ≠ some []) (u : Uri)
    (hu : create p.text = .ok (some u)) :
    Kept p u ↔ ∀ w, p.userinfo = some w → colonDigit w = false := by
  rw [create_text hport] at hu
  obtain rfl := Option.some.inj (Except.ok.inj hu)
  exact kept_uri_iff

def fooUri : Parts where
  scheme := ascii ['f', 'o', 'o']
  userinfo := some (ascii ['u', 's', 'e', 'r'])
  host := ascii ['h']
  port := some (ascii ['8', '0', '4', '2'])
  path := ascii ['/', 'o', 'v', 'e', 'r']
  query := some (ascii ['n', 'a', 'm', 'e'])
  fragment := some (ascii ['n', 'o', 's', 'e'])
  scheme_mem := mem_ragel 40 (by decide)
  userinfo_mem := by rintro w ⟨⟩; exact mem_ragel 40 (by decide)
  host_mem := mem_ragel 40 (by decide)
  port_mem := by rintro w ⟨⟩; exact mem_ragel 40 (by decide)
  path_mem := mem_ragel 40 (by decide)
  query_mem := by rintro w ⟨⟩; exact mem_ragel 40 (by decide)
  fragment_mem := by rintro w ⟨⟩; exact mem_ragel 40 (by decide)

theorem create_fields_fooUri : fooUri.port ≠ some [] ∧
    create fooUri.text = .ok (some fooUri.uri) ∧
    (Kept fooUri fooUri.uri ↔ ∀ w, fooUri.userinfo = some w → colonDigit w = false) :=
  ⟨by decide, create_text (by decide),
    create_fields fooUri (by decide) fooUri.uri (create_text (by decide))⟩

def digitUri : Parts where
  scheme := ascii ['h', 't', 't', 'p']
  userinfo := some (ascii ['u', ':', '1'])
  host := ascii ['h']
  port := none
  path := ascii ['/']
  query := none
  fragment := none
  scheme_mem := mem_ragel 40 (by decide)
  userinfo_mem := by rintro w ⟨⟩; exact mem_ragel 40 (by decide)
  host_mem := mem_ragel 40 (by decide)
  port_mem := by rintro w ⟨⟩
  path_mem := mem_ragel 40 (by decide)
  query_mem := by rintro w ⟨⟩
  fragment_mem := by rintro w ⟨⟩

/-- Of the userinfo `u:1` only the `1` is kept. -/
theorem digit_after_colon_loses_userinfo :
    digitUri.port ≠ some [] ∧ digitUri.userinfo = some (ascii ['u', ':', '1']) ∧
      create digitUri.text = .ok (some
        { scheme := ascii ['h', 't', 't', 'p']
          userinfo := ascii ['1']
          host := ascii ['h']
          path := ascii ['/']
          query := []
          fragment := []
          port := 0 }) := by
  refine ⟨by decide, rfl, ?_⟩
  rfl

end Parts

end Sylar.Uri
