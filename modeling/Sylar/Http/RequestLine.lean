import Sylar.Http.Cuts
import Sylar.Http.Fills
import Sylar.Http.Unset

/-! The method of a request line. The callback looks up the characters at the token, and a method
is found when its name is the front of the token. A token with more behind the name is taken for
the method; the one name with blanks is never found. -/
namespace Sylar.Http

open Lib
open Scanner (Lies)

/-- `Request_Line` of the grammar. The URI is any text that takes the automaton to the version;
a line lies in memory. -/
structure RequestLine (uriRelaxed : Bool) where
  token : Bytes
  uri : Bytes
  minor : UInt8
  eol : Bytes
  token_ne : token ≠ []
  token_length : token.length ≤ 20
  token_chars : ∀ b ∈ token, methodStart b = true
  uri_blank : 32 ∉ uri
  uri_run : run uriRelaxed 3 (uri ++ [32]) = 4
  minor_digit : minor = 48 ∨ minor = 49
  eol_crlf : eol = [13, 10] ∨ eol = [10]
  fits : token.length + uri.length + eol.length + 10 < 2 ^ 63

namespace RequestLine

variable {r : Bool} (line : RequestLine r)

def version : Bytes := ascii ['H', 'T', 'T', 'P', '/', '1', '.'] ++ [line.minor] ++ line.eol

def text : Bytes := line.token ++ 32 :: (line.uri ++ 32 :: line.version)

/-- The line is parsed with the method whose name the token is, or with the error 1000. -/
def Exact (after : Bytes) (queryStart : Nat) : Prop :=
  ∃ s, (HttpRequestParser.new queryStart r).httpParserExecute (line.text ++ after)
      line.text.length = .ok (line.text.length, s) ∧
    (∀ m, s.hasError = false ∧ s.data.method = m ↔ (m, line.token) ∈ httpMethodMap) ∧
    ((∀ m, (m, line.token) ∉ httpMethodMap) → s.error = 1000)

end RequestLine

section Table

variable {r : Bool} {cs k : Nat} {b : UInt8} {arc : Arc}

def methodState (k : Nat) : Nat := if k = 1 then 2 else 173 + k

theorem next_method (hk : 1 ≤ k) (hlt : k < 20) (hb : methodStart b = true) :
    next r (methodState k) b = some (.st (methodState (k + 1))) := by
  have hrow : ∀ k < 20, 1 ≤ k → (state (methodState k)).arcs = [(32, 32, Arc.tr4),
      (48, 57, .st (methodState (k + 1))), (65, 90, .st (methodState (k + 1)))] := by
    decide +kernel
  simp only [methodStart, Bool.or_eq_true, Bool.and_eq_true, decide_eq_true_eq,
    UInt8.le_iff_toNat_le] at hb
  change 48 ≤ b.toNat ∧ b.toNat ≤ 57 ∨ 65 ≤ b.toNat ∧ b.toNat ≤ 90 at hb
  have hpick : RangeTable.pick b.toNat (state (methodState k)).arcs =
      some (.st (methodState (k + 1))) := by
    rw [hrow k hlt hk, RangeTable.pick, if_neg (by omega), RangeTable.pick]
    rcases hb with hb | hb
    · rw [if_pos hb]
    · rw [if_neg (by omega), RangeTable.pick, if_pos hb]
  rw [next, hpick]

theorem inMethod_methodState : ∀ k ≤ 20, 1 ≤ k → inMethod (methodState k) = true := by
  decide

theorem word_methodState {t : Bytes} (hk : 1 ≤ k) (hlen : k + t.length ≤ 20)
    (ht : ∀ b ∈ t, methodStart b = true) : word r (methodState k) t = true := by
  induction t generalizing k with
  | nil => exact inMethod_methodState k hlen hk
  | cons b t ih =>
    rw [List.length_cons] at hlen
    have hnext : next r (methodState k) b = some (.st (methodState (k + 1))) :=
      next_method hk (by omega) (ht b List.mem_cons_self)
    have hrest : word r (methodState (k + 1)) t = true :=
      ih (by omega) (by omega) fun b hb => ht b (List.mem_cons_of_mem _ hb)
    simp only [word, inMethod_methodState k (by omega) hk, hnext, Arc.st, hrest, Bool.true_and]

def inUri (cs : Nat) : Bool := cs == 3 || (19 ≤ cs && cs ≤ 174)

def uriActions : List Action :=
  [.mark, .request_path, .request_uri, .fragment, .start_query, .query_string]

theorem next_inUri (hcs : inUri cs = true) (h : next r cs b = some arc) :
    arc.actions ⊆ uriActions ∧ (b = 32 ∧ arc.target = 4 ∨ b ≠ 32 ∧ inUri arc.target = true) := by
  obtain ⟨lo, hi, h, hlo, hhi⟩ := next_entry
    (P := fun cs e => inUri cs = true → e.2.2.actions ⊆ uriActions ∧
      ((e.1 = 32 ∧ e.2.1 = 32 ∧ e.2.2.target = 4) ∨
        (e.2.1 < 32 ∨ 32 < e.1) ∧ inUri e.2.2.target = true))
    (by decide +kernel) h
  obtain ⟨hactions, ⟨rfl, rfl, htarget⟩ | ⟨hout, htarget⟩⟩ := h hcs
  · exact ⟨hactions, .inl ⟨UInt8.toNat_inj.mp (Nat.le_antisymm hhi hlo), htarget⟩⟩
  · refine ⟨hactions, .inr ⟨?_, htarget⟩⟩
    rintro rfl
    change lo ≤ 32 at hlo
    change 32 ≤ hi at hhi
    dsimp only at hout
    omega

end Table

section Uri

variable {mem : Bytes} {p cs : Nat} {q q' : Bool} {s₀ s : HttpRequestParser}

/-- What stays while a URI is read: the offsets that are set are in front of `p`, and neither the
method nor the error has changed. -/
structure InUri (q : Bool) (p : Nat) (s₀ s : HttpRequestParser) : Prop where
  mark : s.parser.mark ≤ p
  query : q = true → s.parser.queryStart ≤ p
  relaxed : s.parser.uriRelaxed = s₀.parser.uriRelaxed
  method : s.data.method = s₀.data.method
  error : s.error = s₀.error

theorem InUri.mono (h : InUri q p s₀ s) (hq : q' = true → q = true) : InUri q' (p + 1) s₀ s :=
  { mark := Nat.le_succ_of_le h.mark
    query := fun hq' => Nat.le_succ_of_le (h.query (hq hq'))
    relaxed := h.relaxed
    method := h.method
    error := h.error }

theorem stdString_ok {off : Nat} (hoff : off ≤ p) (hmem : p ≤ mem.length) (hp : p < 2 ^ 63) :
    ∃ text, stdString mem off (len off p) = .ok text := by
  unfold stdString len
  rw [if_pos hoff, if_neg (by omega), if_pos (by omega)]
  exact ⟨_, rfl⟩

theorem InUri.onText (h : InUri q p s₀ s) (set : Bytes → HttpRequest → HttpRequest) {off : Nat}
    (hoff : off ≤ p) (hmem : p ≤ mem.length) (hp : p < 2 ^ 63)
    (hset : ∀ text req, (set text req).method = req.method) :
    ∃ s', onText mem set off (len off p) s = .ok s' ∧ InUri q p s₀ s' := by
  obtain ⟨text, htext⟩ := stdString_ok hoff hmem hp
  refine ⟨{ s with data := set text s.data }, ?_, ?_⟩
  · unfold Http.onText
    rw [htext]
    rfl
  · exact { h with method := (hset text s.data).trans h.method }

theorem InUri.act (h : InUri q p s₀ s) (hmem : p ≤ mem.length) (hp : p < 2 ^ 63) {a : Action}
    (ha : a ∈ uriActions) (hread : ¬(a = .query_string ∧ q = false)) :
    ∃ s', act mem p s a = .ok s' ∧ InUri (q || a = .start_query) p s₀ s' := by
  have hkept : ∀ {a : Action}, a ≠ .start_query → (q || decide (a = .start_query)) = q := by
    intro a ha
    simp [ha]
  simp only [uriActions, List.mem_cons, List.not_mem_nil, or_false] at ha
  rcases ha with rfl | rfl | rfl | rfl | rfl | rfl
  · exact ⟨_, rfl, by rw [hkept (by decide)]; exact { h with mark := Nat.le_refl p }⟩
  · rw [hkept (by decide)]
    exact h.onText (fun text req => { req with path := text }) h.mark hmem hp
      fun _ _ => rfl
  · exact ⟨_, rfl, by rw [hkept (by decide)]; exact h⟩
  · rw [hkept (by decide)]
    exact h.onText (fun text req => { req with fragment := text }) h.mark hmem hp
      fun _ _ => rfl
  · exact ⟨_, rfl, { h with query := fun _ => Nat.le_refl p }⟩
  · rw [hkept (by decide)]
    have hq : q = true := by simpa using hread
    exact h.onText (fun text req => { req with query := text }) (h.query hq) hmem hp
      fun _ _ => rfl

theorem InUri.acts (h : InUri q p s₀ s) (hmem : p ≤ mem.length) (hp : p < 2 ^ 63)
    {as : List Action} (has : as ⊆ uriActions) (hread : querySet q as = some q') :
    ∃ s', as.foldlM (Http.act mem p) s = .ok s' ∧ InUri q' p s₀ s' := by
  induction as generalizing q s with
  | nil =>
    obtain rfl := Option.some.inj hread
    exact ⟨s, rfl, h⟩
  | cons a as ih =>
    unfold querySet at hread
    split at hread
    · cases hread
    case isFalse hset =>
      obtain ⟨s₁, hact, h₁⟩ := h.act hmem hp (has List.mem_cons_self) hset
      obtain ⟨s₂, hacts, h₂⟩ := ih h₁ (fun a ha => has (List.mem_cons_of_mem _ ha)) hread
      refine ⟨s₂, ?_, h₂⟩
      rw [List.foldlM_cons, hact]
      exact hacts

theorem InUri.step {b : UInt8} {bs : Bytes} (hcs : inUri cs = true)
    (h : InUri (inQuery cs) p s₀ s) (hrun : run s₀.parser.uriRelaxed cs (b :: bs) = 4)
    (hmem : p ≤ mem.length) (hp : p < 2 ^ 63) :
    ∃ arc s', next s₀.parser.uriRelaxed cs b = some arc ∧ .done ∉ arc.actions ∧
      InUri (inQuery arc.target) (p + 1) s₀ s' ∧ ∀ more,
        Http.scan mem p cs (b :: more) s = Http.scan mem (p + 1) arc.target more s' := by
  cases hn : next s₀.parser.uriRelaxed cs b with
  | none =>
    simp only [run, hn] at hrun
    cases hrun
  | some arc =>
    obtain ⟨hactions, -⟩ := next_inUri hcs hn
    obtain ⟨q, hset, hq⟩ := next_querySet hn
    obtain ⟨s', hacts, h'⟩ := h.acts hmem hp hactions hset
    have hd : .done ∉ arc.actions := fun hd => absurd (hactions hd) (by decide)
    refine ⟨arc, s', rfl, hd, h'.mono hq, fun more => ?_⟩
    rw [scan_some (h.relaxed ▸ hn) hd, hacts]
    rfl

theorem InUri.scan {uri : Bytes} (more : Bytes) (hcs : inUri cs = true)
    (h : InUri (inQuery cs) p s₀ s) (hblank : 32 ∉ uri)
    (hrun : run s₀.parser.uriRelaxed cs (uri ++ [32]) = 4)
    (hmem : p + uri.length ≤ mem.length) (hlt : p + uri.length < 2 ^ 63) :
    ∃ s', Http.scan mem p cs (uri ++ 32 :: more) s =
        Http.scan mem (p + uri.length + 1) 4 more s' ∧
      InUri false (p + uri.length + 1) s₀ s' := by
  induction uri generalizing p cs s with
  | nil =>
    obtain ⟨arc, s', hn, -, h', hscan⟩ := h.step hcs hrun hmem hlt
    obtain ⟨-, ⟨-, htarget⟩ | ⟨hne, -⟩⟩ := next_inUri hcs hn
    · rw [htarget] at h' hscan
      exact ⟨s', hscan more, h'⟩
    · exact absurd rfl hne
  | cons b uri ih =>
    obtain ⟨hb, hblank⟩ := List.ne_and_not_mem_of_not_mem_cons hblank
    rw [List.length_cons] at hmem hlt ⊢
    obtain ⟨arc, s₁, hn, hd, h₁, hscan⟩ := h.step hcs hrun (show p ≤ mem.length by omega) (by omega)
    obtain ⟨-, ⟨hb', -⟩ | ⟨-, htarget⟩⟩ := next_inUri hcs hn
    · exact absurd hb'.symm hb
    · rw [List.cons_append, run_cons hn hd] at hrun
      obtain ⟨s₂, hrest, h₂⟩ := ih htarget h₁ hblank hrun (by omega) (by omega)
      have hlen : p + 1 + uri.length = p + (uri.length + 1) := by omega
      rw [hlen] at hrest h₂
      exact ⟨s₂, (hscan _).trans hrest, h₂⟩

end Uri

section Lookup

variable {t g : Bytes}

theorem charsToHttpMethod_name : ∀ e ∈ httpMethodMap, charsToHttpMethod e.2 = e.1 := by
  decide +kernel

theorem charsToHttpMethod_eq_invaild :
    charsToHttpMethod t = .INVAILD_METHOD ↔ ∀ e ∈ httpMethodMap, ¬ e.2 <+: t := by
  constructor
  · intro hnone e he hpre
    have hfound : strncmpEq e.2 t e.2.length = true :=
      (strncmpEq_length _ _ (httpMethodMap_text e he).1).mpr hpre
    cases hf : httpMethodMap.find? fun e => strncmpEq e.2 t e.2.length with
    | none => exact List.find?_eq_none.mp hf e he hfound
    | some e' =>
      rw [charsToHttpMethod, hf] at hnone
      exact (httpMethodMap_invaild e' (List.mem_of_find?_eq_some hf)).1 hnone
  · exact charsToHttpMethod_invaild

/-- Before its blank a token is looked up as if nothing came after it, unless the rest of the
name with blanks does. -/
theorem charsToHttpMethod_token (ht : 32 ∉ t) (hg : ¬ [45, 32, 83] <+: g) :
    charsToHttpMethod (t ++ 32 :: g) = charsToHttpMethod t := by
  have hsame : ∀ e ∈ httpMethodMap,
      strncmpEq e.2 (t ++ 32 :: g) e.2.length = strncmpEq e.2 t e.2.length := by
    intro e he
    obtain ⟨h0, hblank⟩ := httpMethodMap_text e he
    rw [Bool.eq_iff_iff, strncmpEq_length _ _ h0, strncmpEq_length _ _ h0]
    rcases hblank with hblank | hblank
    · exact prefix_word hblank
    · constructor
      · intro h
        exact absurd (prefix_blank ht (hblank.trans h)).2 hg
      · intro h
        exact absurd ((hblank.trans h).subset (by decide)) ht
  rw [charsToHttpMethod, charsToHttpMethod, ← List.head?_filter, List.filter_congr hsame,
    List.head?_filter]

end Lookup

namespace RequestLine

variable {r : Bool} (line : RequestLine r)

theorem blank_not_mem_token : 32 ∉ line.token := fun h =>
  absurd (line.token_chars 32 h) (by decide)

theorem version_eq : ∃ rest, line.version = 72 :: rest := ⟨_, rfl⟩

theorem charsToHttpMethod_text (after : Bytes) :
    charsToHttpMethod (line.text ++ after) = charsToHttpMethod line.token := by
  unfold text
  rw [List.append_assoc, List.cons_append]
  apply charsToHttpMethod_token line.blank_not_mem_token
  obtain ⟨rest, hversion⟩ := line.version_eq
  have hblank := line.uri_blank
  rw [hversion]
  intro h
  match huri : line.uri with
  | [] =>
    rw [huri] at h
    exact absurd (List.cons_prefix_cons.mp h).1 (by decide)
  | [a] =>
    rw [huri] at h
    have hlast := (List.cons_prefix_cons.mp (List.cons_prefix_cons.mp h).2).2
    exact absurd (List.cons_prefix_cons.mp hlast).1 (by decide)
  | a :: b :: uri =>
    rw [huri] at h hblank
    obtain ⟨rfl, -⟩ := List.cons_prefix_cons.mp (List.cons_prefix_cons.mp h).2
    exact hblank (List.mem_cons_of_mem _ List.mem_cons_self)

theorem fills_version_eol : ∃ n, Fills 4 line.version 13
    fun req => { req with version := n } := by
  unfold version
  rcases line.eol_crlf with heol | heol
  · rw [heol]
    exact ⟨_, fills_version line.minor_digit⟩
  · rw [heol]
    exact ⟨_, fills_version_end line.minor_digit (by decide)⟩

@[simp] theorem length_text : line.text.length = line.token.length + line.uri.length +
    line.eol.length + 10 := by
  simp only [text, version, ascii, List.length_append, List.length_cons, List.length_map,
    List.length_nil]
  omega

theorem lies_version (after : Bytes) :
    Lies (line.text ++ after) (line.token.length + 1 + line.uri.length + 1) line.version := by
  have htext : line.text = (line.token ++ 32 :: (line.uri ++ [32])) ++ line.version := by
    simp [text]
  have hlies : Lies (line.text ++ after) 0
      ((line.token ++ 32 :: (line.uri ++ [32])) ++ line.version) := by
    rw [htext]
    exact ⟨Nat.zero_le _, List.prefix_append _ _⟩
  have hlen : 0 + (line.token ++ 32 :: (line.uri ++ [32])).length =
      line.token.length + 1 + line.uri.length + 1 := by
    simp only [List.length_append, List.length_cons, List.length_nil]
    omega
  rw [← hlen]
  exact hlies.right

theorem scan_token {mem : Bytes} (hmem : 11 ≤ mem.length) (s : HttpRequestParser) :
    scan mem 0 httpParserStart line.text s =
      scan mem (line.token.length + 1) 3 (line.uri ++ 32 :: line.version)
        (onRequestMethod mem 0 s.begun) := by
  unfold text
  have hchars := line.token_chars
  have hshort := line.token_length
  cases htoken : line.token with
  | nil => exact absurd htoken line.token_ne
  | cons b t =>
    rw [htoken] at hchars hshort
    rw [List.length_cons] at hshort ⊢
    have hword : word s.parser.uriRelaxed (methodState 1) t = true :=
      word_methodState (Nat.le_refl 1) (by omega) fun b hb => hchars b (List.mem_cons_of_mem _ hb)
    refine (scan_first (hchars b List.mem_cons_self) hword).trans ?_
    rw [charsInside_of_length hmem, comparing_true]
    rfl

theorem scan_text (after : Bytes) {s : HttpRequestParser} (hr : s.parser.uriRelaxed = r) :
    ∃ s', scan (line.text ++ after) 0 httpParserStart line.text s =
        .ok (line.text.length, 13, s') ∧
      s'.error = (onRequestMethod (line.text ++ after) 0 s.begun).error ∧
      s'.data.method = (onRequestMethod (line.text ++ after) 0 s.begun).data.method := by
  have hfits := line.fits
  have hlength := line.length_text
  have hversion : line.version.length = line.eol.length + 8 := by
    simp [version, ascii]
  have hparser : (onRequestMethod (line.text ++ after) 0 s.begun).parser = s.begun.parser :=
    (onRequestMethod_reported _ _ _).parser
  have hstart : InUri (inQuery 3) (line.token.length + 1)
      (onRequestMethod (line.text ++ after) 0 s.begun)
      (onRequestMethod (line.text ++ after) 0 s.begun) :=
    { mark := by rw [hparser]; exact Nat.zero_le _
      query := fun hq => by cases hq
      relaxed := rfl
      method := rfl
      error := rfl }
  have hrun : run (onRequestMethod (line.text ++ after) 0 s.begun).parser.uriRelaxed 3
      (line.uri ++ [32]) = 4 := by
    rw [hparser]
    exact hr ▸ line.uri_run
  have hmem : line.token.length + 1 + line.uri.length ≤ (line.text ++ after).length := by
    rw [List.length_append]
    omega
  obtain ⟨s₁, huri, h₁⟩ := hstart.scan line.version rfl line.uri_blank hrun hmem (by omega)
  obtain ⟨n, hfills⟩ := line.fills_version_eol
  obtain ⟨s₂, hscan, hdata, herror⟩ := hfills _ _ s₁ [] (line.lies_version after) (by omega)
  rw [List.append_nil] at hscan
  refine ⟨s₂, ?_, herror.trans h₁.error, ?_⟩
  · have htoken := List.length_pos_iff.mpr line.token_ne
    have hlong : 11 ≤ (line.text ++ after).length := by
      rw [List.length_append]
      omega
    rw [line.scan_token hlong, huri, hscan, hversion, hlength,
      show line.token.length + 1 + line.uri.length + 1 + (line.eol.length + 8) =
        line.token.length + line.uri.length + line.eol.length + 10 by omega]
    rfl
  · rw [hdata]
    exact h₁.method

/-- What a line makes of a new parser: it is in the state after the line, with the method of the
token or the error for none. -/
theorem execute_text (after : Bytes) (queryStart : Nat) :
    ∃ s, (HttpRequestParser.new queryStart r).httpParserExecute (line.text ++ after)
        line.text.length = .ok (line.text.length, s) ∧ s.parser.cs = 13 ∧
      s.error = (if charsToHttpMethod line.token = .INVAILD_METHOD then 1000 else 0) ∧
      (charsToHttpMethod line.token ≠ .INVAILD_METHOD →
        s.data.method = charsToHttpMethod line.token) := by
  have hne : line.text.length ≠ 0 := by
    rw [line.length_text]
    omega
  have hlen : line.text.length ≤ (line.text ++ after).length := by
    rw [List.length_append]
    exact Nat.le_add_right _ _
  obtain ⟨s, hscan, herror, hmethod⟩ :=
    line.scan_text after (s := (HttpRequestParser.new queryStart r).rewind) rfl
  have hcs : s.parser.cs = httpParserStart := (scan_kept hscan).2.cs
  refine ⟨s.stopped line.text.length 13, ?_, ?_, ?_, ?_⟩
  · rw [HttpRequestParser.httpParserExecute_eq hne hlen (Nat.zero_le _), List.take_left]
    exact congrArg (· >>= _) hscan
  · exact HttpRequestParser.stopped_cs (by rw [hcs]; decide)
  · refine herror.trans ?_
    simp only [onRequestMethod, List.drop_zero, line.charsToHttpMethod_text]
    split <;> rfl
  · intro hvalid
    refine hmethod.trans ?_
    simp only [onRequestMethod, List.drop_zero, line.charsToHttpMethod_text, if_neg hvalid]

/-- The exact lines whose token is taken for what it is: it is a name, or no name is its front. -/
theorem exact_iff (line : RequestLine r) (after : Bytes) (queryStart : Nat) :
    line.Exact after queryStart ↔
      (∃ m, (m, line.token) ∈ httpMethodMap) ∨ ∀ e ∈ httpMethodMap, ¬ e.2 <+: line.token := by
  unfold Exact
  obtain ⟨s, hexec, hcs, herror, hmethod⟩ := line.execute_text after queryStart
  have hhas : s.hasError = (s.error != 0) := by
    rw [HttpRequestParser.hasError, HttpParser.hasError, hcs]
    exact Bool.or_false _
  constructor
  · rintro ⟨s', hexec', hexact, -⟩
    obtain rfl : s = s' := (Prod.mk.inj (Except.ok.inj (hexec.symm.trans hexec'))).2
    rw [← charsToHttpMethod_eq_invaild]
    by_contra hcond
    obtain ⟨hname, hvalid⟩ := not_or.mp hcond
    rw [if_neg hvalid] at herror
    have hnone : s.hasError = false := by
      rw [hhas, herror]
      rfl
    exact hname ⟨_, (hexact _).mp ⟨hnone, rfl⟩⟩
  · intro hcond
    refine ⟨s, hexec, ?_⟩
    rcases hcond with ⟨m, hm⟩ | hnone
    · have hfound : charsToHttpMethod line.token = m := charsToHttpMethod_name _ hm
      have hvalid : charsToHttpMethod line.token ≠ .INVAILD_METHOD := by
        rw [hfound]
        exact (httpMethodMap_invaild _ hm).1
      rw [if_neg hvalid] at herror
      refine ⟨fun m' => ?_, fun hno => absurd hm (hno m)⟩
      rw [hhas, herror, hmethod hvalid]
      constructor
      · rintro ⟨-, rfl⟩
        rwa [hfound]
      · intro hm'
        exact ⟨rfl, charsToHttpMethod_name _ hm'⟩
    · rw [if_pos (charsToHttpMethod_eq_invaild.mpr hnone)] at herror
      refine ⟨fun m => ?_, fun _ => herror⟩
      rw [hhas, herror]
      constructor
      · rintro ⟨herr, -⟩
        cases herr
      · intro hm
        exact absurd List.prefix_rfl (hnone _ hm)

def getx : RequestLine false where
  token := ascii ['G', 'E', 'T', 'X']
  uri := ascii ['/']
  minor := 49
  eol := [13, 10]
  token_ne := by decide
  token_length := by decide
  token_chars := by decide +kernel
  uri_blank := by decide
  uri_run := by decide
  minor_digit := by decide
  eol_crlf := by decide
  fits := by decide

theorem getx_parsed_as_get :
    ((HttpRequestParser.new 0 false).httpParserExecute getx.text getx.text.length).map
        (fun x => (x.1, x.2.hasError, x.2.data.method)) = .ok (17, false, .GET) ∧
      (∀ m, (m, getx.token) ∉ httpMethodMap) ∧ ¬ getx.Exact [] 0 := by
  have hexec : ((HttpRequestParser.new 0 false).httpParserExecute getx.text getx.text.length).map
      (fun x => (x.1, x.2.hasError, x.2.data.method)) = .ok (17, false, .GET) := by
    decide +kernel
  have hname : ∀ m, (m, getx.token) ∉ httpMethodMap := by
    intro m
    cases m <;> decide
  refine ⟨hexec, hname, ?_⟩
  rintro ⟨s, hs, hexact, -⟩
  rw [List.append_nil] at hs
  rw [hs] at hexec
  obtain ⟨-, hfine⟩ := Prod.mk.inj (Except.ok.inj hexec)
  obtain ⟨herror, hmethod⟩ := Prod.mk.inj hfine
  exact hname _ ((hexact .GET).mp ⟨herror, hmethod⟩)

end RequestLine

end Sylar.Http
