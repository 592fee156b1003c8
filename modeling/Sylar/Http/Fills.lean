import Sylar.Http.Grammar
import Sylar.Http.Headers
import Sylar.Http.Print
import Sylar.Http.Scan

/-! What the parser makes of the parts of a request that lie in one read: a text leads from
one state to another and fills in members of the request. Texts that follow each other
compose. -/
namespace Sylar.Http

open Lib Lib.Numerals
open Scanner (Lies)

theorem stdString_of_lies {mem w : Bytes} {off : Nat} (h : Lies mem off w)
    (hlt : w.length < 2 ^ 63) : stdString mem off w.length = .ok w := by
  rw [stdString, if_neg (Nat.not_le_of_lt hlt), if_pos h.fits,
    ← List.prefix_iff_eq_take.mp h.front]

/-- From the state `cs` the parser reads `w` to the state `cs'`, and the callbacks make
`fill` of the request. -/
abbrev Fills : Nat → Bytes → Nat → (HttpRequest → HttpRequest) → Prop :=
  Scanner.Fills (2 ^ 63) scan HttpRequestParser.data fun s s' => s'.error = s.error

theorem Fills.trans {cs cs₁ cs₂ : Nat} {w w' : Bytes} {fill fill' : HttpRequest → HttpRequest}
    (h : Fills cs w cs₁ fill) (h' : Fills cs₁ w' cs₂ fill') :
    Fills cs (w ++ w') cs₂ (fill' ∘ fill) :=
  Scanner.Fills.trans (fun herror herror' => herror'.trans herror) h h'

section Scan

variable {mem w more : Bytes} {p cs cs' : Nat} {b d : UInt8} {arc : Arc} {s : HttpRequestParser}

theorem scan_arc (h : next false cs b = some arc) (hd : .done ∉ arc.actions) :
    scan mem p cs (b :: more) s =
      arc.actions.foldlM (act mem p) s >>= scan mem (p + 1) arc.target more :=
  scan_some (next_relaxed h) hd

theorem scan_quiet (h : Quiet cs w cs') :
    scan mem p cs (w ++ more) s = scan mem (p + w.length) cs' more s :=
  Scanner.scan_quiet (fun _ _ arc => scan_arc arc List.not_mem_nil) h

theorem scan_stretch {a : Action} {n : Nat} (hfirst : next false cs b = some ⟨[a], n⟩)
    (ha : a ≠ .done) (hquiet : Quiet n w cs') (hend : next false cs' d = some arc)
    (hd : .done ∉ arc.actions) :
    scan mem p cs (b :: w ++ d :: more) s =
      act mem p s a >>= fun s =>
        arc.actions.foldlM (act mem (p + (b :: w).length)) s >>=
          scan mem (p + (b :: w).length + 1) arc.target more := by
  have hone : ∀ more s,
      scan mem p cs (b :: more) s = act mem p s a >>= scan mem (p + 1) n more := by
    intro more s
    rw [scan_arc hfirst (by simpa using ha.symm), List.foldlM_cons, bind_assoc]
    rfl
  exact Scanner.scan_stretch (fun _ _ arc => scan_arc arc List.not_mem_nil) hone hquiet
    fun _ _ => scan_arc hend hd

theorem Part.scan_word {part : Part} {r : Rule} (hreads : part.reads r = true) (hw : w ∈ r.words)
    (hend : (d, arc) ∈ part.ends) (hd : .done ∉ arc.actions) :
    scan mem p part.start (w ++ d :: more) s =
      act mem p s part.first >>= fun s =>
        arc.actions.foldlM (act mem (p + w.length)) s >>=
          scan mem (p + w.length + 1) arc.target more := by
  have hfirst : part.first ≠ .done := by
    rintro heq
    have hoffset := part.offset
    rw [heq] at hoffset
    exact absurd hoffset (by decide)
  cases w with
  | nil =>
    have hskip := part.skipped (Part.empty_of_nil_mem hreads hw) _ hend
    rw [List.nil_append, scan_arc hskip (List.not_mem_cons_of_ne_of_not_mem hfirst.symm hd),
      List.foldlM_cons, bind_assoc]
    rfl
  | cons b w =>
    obtain ⟨n, cs, hn, hquiet, hends⟩ := Part.exists_quiet hreads hw
    exact scan_stretch hn hfirst hquiet (hends _ hend) hd

end Scan

section RequestLine

variable {mem w : Bytes} {off n : Nat} {d : UInt8} {s : HttpRequestParser}

theorem Fills.of_acts {cs cs' : Nat} {a : Action} {as : List Action}
    {fill : HttpRequest → HttpRequest}
    (hscan : ∀ mem p s more, scan mem p cs (w ++ d :: more) s =
      act mem p s a >>= fun s =>
        as.foldlM (act mem (p + w.length)) s >>= scan mem (p + w.length + 1) cs' more)
    (hacts : ∀ mem p s, Lies mem p (w ++ [d]) → w.length < 2 ^ 63 →
      ∃ s₁ s', act mem p s a = .ok s₁ ∧ as.foldlM (act mem (p + w.length)) s₁ = .ok s' ∧
        s'.data = fill s.data ∧ s'.error = s.error) :
    Fills cs (w ++ [d]) cs' fill := by
  intro mem p s more hlies hlt
  rw [List.length_append, List.length_singleton] at hlt ⊢
  obtain ⟨s₁, s', hfirst, hlast, hdata, herror⟩ := hacts mem p s hlies (by omega)
  refine ⟨s', ?_, hdata, herror⟩
  rw [List.append_assoc, List.singleton_append, hscan, hfirst, ok_bind, hlast]
  rfl

theorem Quiet.fills {cs cs' : Nat} (h : Quiet cs w cs') : Fills cs w cs' id :=
  fun _ _ s _ _ _ => ⟨s, scan_quiet h, rfl, rfl⟩

theorem onText_of_lies (h : Lies mem off w) (hlt : w.length < 2 ^ 63)
    (set : Bytes → HttpRequest → HttpRequest) :
    onText mem set off (len off (off + w.length)) s = .ok { s with data := set w s.data } := by
  rw [len, if_pos (Nat.le_add_right _ _), Nat.add_sub_cancel_left, onText, stdString_of_lies h hlt]
  rfl

theorem acts_cons {p : Nat} {a : Action} {as : List Action} {s' : HttpRequestParser}
    (h : act mem p s a = .ok s') : (a :: as).foldlM (act mem p) s = as.foldlM (act mem p) s' := by
  rw [List.foldlM_cons, h]
  rfl

theorem act_request_path (h : Lies mem s.parser.mark w) (hlt : w.length < 2 ^ 63) :
    act mem (s.parser.mark + w.length) s .request_path =
      .ok { s with data := { s.data with path := w } } :=
  onText_of_lies h hlt fun text req => { req with path := text }

theorem act_query_string (h : Lies mem s.parser.queryStart w) (hlt : w.length < 2 ^ 63) :
    act mem (s.parser.queryStart + w.length) s .query_string =
      .ok { s with data := { s.data with query := w } } :=
  onText_of_lies h hlt fun text req => { req with query := text }

theorem act_fragment (h : Lies mem s.parser.mark w) (hlt : w.length < 2 ^ 63) :
    act mem (s.parser.mark + w.length) s .fragment =
      .ok { s with data := { s.data with fragment := w } } :=
  onText_of_lies h hlt fun text req => { req with fragment := text }

theorem fills_path {arc : Arc} (hw : w ∈ Rule.relative_part.words)
    (hend : (d, arc) ∈ Part.path.ends) :
    Fills 3 (w ++ [d]) arc.target fun req => { req with path := w } := by
  have hactions : arc.actions = [.request_path, .request_uri] ∨ arc.actions = [.request_path] := by
    have hall : ∀ e ∈ Part.path.ends,
        e.2.actions = [.request_path, .request_uri] ∨ e.2.actions = [.request_path] := by decide
    exact hall _ hend
  have hd : .done ∉ arc.actions := by
    rcases hactions with h | h <;> rw [h] <;> decide
  apply Fills.of_acts fun _ _ _ _ => Part.scan_word Part.path_reads hw hend hd
  · intro mem p s hlies hlt
    have hpath := act_request_path (s := { s with parser := { s.parser with mark := p } })
      hlies.left hlt
    rcases hactions with h | h <;> rw [h] <;> exact ⟨_, _, rfl, acts_cons hpath, rfl, rfl⟩

theorem fills_query {arc : Arc} (hw : w ∈ Rule.query.words) (hend : (d, arc) ∈ Part.query.ends) :
    Fills 29 (w ++ [d]) arc.target fun req => { req with query := w } := by
  have hactions : arc.actions = [.query_string, .request_uri] := by
    have hall : ∀ e ∈ Part.query.ends, e.2.actions = [.query_string, .request_uri] := by decide
    exact hall _ hend
  have hd : .done ∉ arc.actions := by
    rw [hactions]
    decide
  apply Fills.of_acts fun _ _ _ _ => Part.scan_word Part.query_reads hw hend hd
  · intro mem p s hlies hlt
    have hquery := act_query_string (s := { s with parser := { s.parser with queryStart := p } })
      hlies.left hlt
    rw [hactions]
    exact ⟨_, _, rfl, acts_cons hquery, rfl, rfl⟩

theorem fills_fragment (hw : w ∈ Rule.fragment.words) :
    Fills 20 (w ++ [32]) 4 fun req => { req with fragment := w } := by
  apply Fills.of_acts fun _ _ _ _ =>
    Part.scan_word Part.fragment_reads hw List.mem_cons_self (by decide)
  intro mem p s hlies hlt
  have hfragment := act_fragment (s := { s with parser := { s.parser with mark := p } })
    hlies.left hlt
  exact ⟨_, _, rfl, acts_cons hfragment, rfl, rfl⟩

theorem httpMethodToString_word (m : HttpMethod)
    (h : Part.method.accepts httpParserStart (httpMethodToString m) = true) :
    32 ∉ httpMethodToString m ∧ httpMethodToString m ≠ [77] ∧ m ≠ .INVAILD_METHOD ∧
      charsToHttpMethod (httpMethodToString m ++ [32]) = m := by
  cases m <;> revert h <;> decide

theorem fills_method {m : HttpMethod} (hw : httpMethodToString m ∈ Rule.Method.words) :
    Fills httpParserStart (httpMethodToString m ++ [32]) 3 fun req => { req with method := m } := by
  obtain ⟨hblank, hM, hvalid, hfound⟩ :=
    httpMethodToString_word m ((Part.accepts_iff Part.method_reads).mpr hw)
  apply Fills.of_acts fun _ _ _ _ =>
    Part.scan_word Part.method_reads hw List.mem_cons_self (by decide)
  intro mem p s hlies hlt
  obtain ⟨rest, hrest⟩ := hlies.front
  have hm : charsToHttpMethod (mem.drop p) = m := by
    rw [← hrest, List.append_assoc, List.singleton_append, charsToHttpMethod_word [] hblank hM]
    exact hfound
  have hinside : charsInside (mem.drop p) = true := by
    rw [← hrest, List.append_assoc, List.singleton_append]
    exact charsInside_word rest hblank hM
  have hmethod : act mem (p + (httpMethodToString m).length)
      { s with parser := { s.parser with mark := p } } .request_method =
      .ok { s with
        parser := { s.parser with mark := p }, data := { s.data with method := m } } := by
    simp only [act, onRequestMethod, hm, hinside, comparing_true, if_neg hvalid]
  exact ⟨_, _, rfl, acts_cons hmethod, rfl, rfl⟩

def versionLine (minor : UInt8) : Bytes :=
  ascii ['H', 'T', 'T', 'P', '/', '1', '.'] ++ [minor, 13, 10]

theorem quiet_version {minor : UInt8} (h : minor = 48 ∨ minor = 49) :
    Quiet 5 (ascii ['T', 'T', 'P', '/', '1', '.'] ++ [minor]) 12 := by
  have hlast : Quiet 11 [minor] 12 := by
    rcases h with rfl | rfl <;> exact .cons (by decide) .nil
  exact .cons (n := 6) (by decide) <| .cons (n := 7) (by decide) <| .cons (n := 8) (by decide) <|
    .cons (n := 9) (by decide) <| .cons (n := 10) (by decide) <| .cons (n := 11) (by decide) hlast

theorem fills_version_end {minor : UInt8} (h : minor = 48 ∨ minor = 49)
    (hend : next false 12 d = some ⟨[.http_version], n⟩) :
    Fills 4 (ascii ['H', 'T', 'T', 'P', '/', '1', '.'] ++ [minor] ++ [d]) n
      fun req => { req with version := 0x10 + (minor.toNat - 48) } := by
  have hfirst : next false 4 72 = some ⟨[.mark], 5⟩ := by decide
  apply Fills.of_acts fun _ _ _ _ =>
    scan_stretch hfirst (by decide) (quiet_version h) hend (by simp)
  intro mem p s hlies _
  obtain ⟨rest, hrest⟩ := hlies.front
  have hversion : act mem (p + 8) { s with parser := { s.parser with mark := p } } .http_version =
      .ok { s with
        parser := { s.parser with mark := p }
        data := { s.data with version := 0x10 + (minor.toNat - 48) } } := by
    have hlen : len p (p + 8) = 8 := by
      rw [len, if_pos (Nat.le_add_right _ _), Nat.add_sub_cancel_left]
    have hinside : versionInside mem p 8 = true :=
      versionInside_of_le (Nat.le_trans (by simp [ascii]) hlies.fits)
    simp only [act, onRequestVersion, hlen, hinside, comparing_true, ← hrest]
    rcases h with rfl | rfl <;> rfl
  exact ⟨_, _, rfl, acts_cons hversion, rfl, rfl⟩

theorem fills_version {minor : UInt8} (h : minor = 48 ∨ minor = 49) :
    Fills 4 (versionLine minor) 13 fun req => { req with version := 0x10 + (minor.toNat - 48) } := by
  have hend : next false 12 13 = some ⟨[.http_version], 17⟩ := by decide
  have hnewline : Quiet 17 [10] 13 := .cons (by decide) .nil
  exact Fills.trans (fills_version_end h hend) hnewline.fills

end RequestLine

section HeaderLine

variable {mem name value more : Bytes} {p : Nat} {s : HttpRequestParser}

def isControl (b : UInt8) : Bool := b < 32 || b == 127

def separators : Bytes :=
  ascii ['(', ')', '<', '>', '@', ',', ';', ':', '\\', '"', '/', '[', ']', '?', '=', '\x7b', '\x7d',
    ' ', '\t']

def isToken (b : UInt8) : Bool := b < 128 && !isControl b && !separators.contains b

theorem next_token : ∀ b : UInt8, isToken b = true →
    next false 13 b = some ⟨[.start_field], 14⟩ ∧ next false 14 b = some (.st 14) :=
  forall_byte (by decide +kernel)

theorem next_value : ∀ b : UInt8, isControl b = false →
    (b ≠ 32 → next false 15 b = some ⟨[.mark], 16⟩) ∧ next false 16 b = some (.st 16) :=
  forall_byte (by decide +kernel)

theorem scan_name (hne : name ≠ []) (htoken : ∀ b ∈ name, isToken b = true) :
    scan mem p 13 (name ++ 58 :: more) s =
      scan mem (p + name.length + 1) 15 more
        { s with parser := { s.parser with fieldStart := p, fieldLen := name.length } } := by
  obtain ⟨b, w, rfl⟩ := List.exists_cons_of_ne_nil hne
  have hquiet : Quiet 14 w 14 := .of_forall fun c hc =>
    (next_token c (htoken c (List.mem_cons_of_mem b hc))).2
  have hfirst := (next_token b (htoken b List.mem_cons_self)).1
  have hlen : len p (p + (b :: w).length) = (b :: w).length := by
    rw [len, if_pos (Nat.le_add_right _ _), Nat.add_sub_cancel_left]
  rw [scan_stretch hfirst (by decide) hquiet (show next false 14 58 = some Arc.tr27 by decide)
    (by decide)]
  simp only [act, ok_bind, Arc.tr27, List.foldlM_cons, List.foldlM_nil, hlen]
  rfl

theorem scan_value (hcontrol : ∀ b ∈ value, isControl b = false) (hblank : value.head? ≠ some 32) :
    scan mem p 15 (value ++ 13 :: more) s =
      act mem p s .mark >>= fun s =>
        [.write_value].foldlM (act mem (p + value.length)) s >>=
          scan mem (p + value.length + 1) 17 more := by
  cases value with
  | nil =>
    have hend : next false 15 13 = some ⟨[.mark, .write_value], 17⟩ := by decide
    rw [List.nil_append, scan_arc hend (by decide), List.foldlM_cons, bind_assoc]
    rfl
  | cons b w =>
    have hquiet : Quiet 16 w 16 := .of_forall fun c hc =>
      (next_value c (hcontrol c (List.mem_cons_of_mem b hc))).2
    have hfirst := (next_value b (hcontrol b List.mem_cons_self)).1 (by simpa using hblank)
    have hend : next false 16 13 = some ⟨[.write_value], 17⟩ := by decide
    exact scan_stretch hfirst (by decide) hquiet hend (by decide)

theorem scan_blanks (n : Nat) : ∃ mark, scan mem p 15 (List.replicate n 32 ++ more) s =
    scan mem (p + n) 15 more { s with parser := { s.parser with mark } } := by
  induction n generalizing p s with
  | zero => exact ⟨s.parser.mark, rfl⟩
  | succ n ih =>
    have hblank : next false 15 32 = some ⟨[.mark], 15⟩ := by decide
    obtain ⟨mark, hscan⟩ := ih (p := p + 1) (s := { s with parser := { s.parser with mark := p } })
    refine ⟨mark, ?_⟩
    rw [List.replicate_succ, List.cons_append, scan_arc hblank (by decide)]
    apply hscan.trans
    rw [Nat.add_assoc, Nat.add_comm 1 n]

def headerLine (name : Bytes) (blanks : Nat) (value : Bytes) : Bytes :=
  name ++ 58 :: (List.replicate blanks 32 ++ (value ++ [13, 10]))

theorem act_write_value (hne : name ≠ []) (hname : Lies mem s.parser.fieldStart name)
    (hfield : s.parser.fieldLen = name.length) (hvalue : Lies mem s.parser.mark value)
    (hlt : name.length < 2 ^ 63) (hlt' : value.length < 2 ^ 63) :
    act mem (s.parser.mark + value.length) s .write_value =
      .ok { s with data := { s.data with headers := s.data.headers.set name value } } := by
  have hlen : len s.parser.mark (s.parser.mark + value.length) = value.length := by
    rw [len, if_pos (Nat.le_add_right _ _), Nat.add_sub_cancel_left]
  rw [act, onRequestHttpField, hlen, hfield, if_neg (mt List.length_eq_zero_iff.mp hne),
    stdString_of_lies hname hlt, stdString_of_lies hvalue hlt']
  rfl

theorem fills_header (blanks : Nat) (hne : name ≠ []) (htoken : ∀ b ∈ name, isToken b = true)
    (hcontrol : ∀ b ∈ value, isControl b = false) (hblank : value.head? ≠ some 32) :
    Fills 13 (headerLine name blanks value) 13 fun req =>
      { req with headers := req.headers.set name value } := by
  intro mem p s more hlies hlt
  have hlen : (headerLine name blanks value).length =
      name.length + 1 + blanks + value.length + 1 + 1 := by
    simp [headerLine]
    omega
  have hsplit : headerLine name blanks value ++ more =
      name ++ 58 :: (List.replicate blanks 32 ++ (value ++ 13 :: ([10] ++ more))) := by
    simp [headerLine]
  have hname : Lies mem p name := hlies.left
  have hvalue : Lies mem (p + name.length + 1 + blanks) value := by
    have hafter := hlies.right
    rw [← List.singleton_append] at hafter
    have hlast := hafter.right.right.left
    rwa [List.length_singleton, List.length_replicate] at hlast
  -- the value is stored where its end is read, with all three offsets set
  have hwrite := act_write_value (s := { s with
    parser := { s.parser with
      fieldStart := p, fieldLen := name.length, mark := p + name.length + 1 + blanks } })
    hne hname rfl hvalue (by omega) (by omega)
  have hread : ∀ s : HttpRequestParser,
      scan mem (p + name.length + 1) 15
        (List.replicate blanks 32 ++ (value ++ 13 :: ([10] ++ more))) s =
      [.write_value].foldlM (act mem (p + name.length + 1 + blanks + value.length))
          { s with parser := { s.parser with mark := p + name.length + 1 + blanks } } >>=
        scan mem (p + name.length + 1 + blanks + value.length + 1) 17 ([10] ++ more) := by
    intro s
    obtain ⟨mark, hblanks⟩ := scan_blanks blanks
    rw [hblanks, scan_value hcontrol hblank]
    rfl
  have hnewline : Quiet 17 [10] 13 := .cons (by decide) .nil
  have hscan := congrArg (scan mem p 13 · s) hsplit
  rw [scan_name hne htoken, hread, acts_cons hwrite] at hscan
  have hend : p + (headerLine name blanks value).length =
      p + name.length + 1 + blanks + value.length + 1 + [(10 : UInt8)].length := by
    rw [hlen, List.length_singleton]
    omega
  rw [hend]
  exact ⟨_, hscan.trans (scan_quiet hnewline), rfl, rfl⟩

structure Plain (e : Bytes × Bytes) : Prop where
  ne_nil : e.1 ≠ []
  token : ∀ b ∈ e.1, isToken b = true
  control : ∀ b ∈ e.2, isControl b = false
  blank : e.2.head? ≠ some 32

theorem Plain.of_check {e : Bytes × Bytes} (hkey : (!e.1.isEmpty && e.1.all isToken) = true)
    (hval : (e.2.all (!isControl ·) && e.2.head? != some 32) = true) : Plain e := by
  simp only [Bool.and_eq_true, Bool.not_eq_true', List.isEmpty_eq_false_iff, List.all_eq_true,
    bne_iff_ne, ne_eq] at hkey hval
  exact ⟨hkey.1, hkey.2, hval.1, hval.2⟩

theorem Plain.fills {e : Bytes × Bytes} (h : Plain e) (blanks : Nat) :
    Fills 13 (headerLine e.1 blanks e.2) 13 fun req =>
      { req with headers := req.headers.set e.1 e.2 } :=
  fills_header blanks h.ne_nil h.token h.control h.blank

theorem fills_headers {headers : Headers} (h : ∀ e ∈ headers, Plain e) :
    Fills 13 (headers.flatMap fun e => headerLine e.1 0 e.2) 13 fun req =>
      { req with headers := req.headers.setAll headers } := by
  induction headers with
  | nil => exact Quiet.fills .nil
  | cons e headers ih =>
    exact ((h e List.mem_cons_self).fills 0).trans (ih fun e' he => h e' (List.mem_cons_of_mem e he))

theorem scan_end : ∃ s', scan mem p 13 (13 :: 10 :: more) s = .ok (p + 2, 348, s') ∧
    s'.data = s.data ∧ s'.error = s.error := by
  have hreturn : next false 13 13 = some ⟨[.start_field], 18⟩ := by decide
  have hnewline : next false 18 10 = some ⟨[.done], 348⟩ := by decide
  have hdone : ∀ s : HttpRequestParser, ∃ s', act mem (p + 1) s .done = .ok s' ∧
      s'.data = s.data ∧ s'.error = s.error := by
    intro s
    unfold act
    by_cases hsent : s.parser.xmlSent ∨ s.parser.jsonSent
    · exact ⟨_, if_pos hsent, rfl, rfl⟩
    · exact ⟨_, if_neg hsent, rfl, rfl⟩
  obtain ⟨s', hact, hdata, herror⟩ := hdone { s with parser := { s.parser with fieldStart := p } }
  refine ⟨s', ?_, hdata, herror⟩
  rw [scan_arc hreturn (by decide), acts_cons (show act mem p s .start_field = .ok _ from rfl)]
  apply (scan_done (next_relaxed hnewline) (by decide)).trans
  rw [acts_cons hact]
  rfl

end HeaderLine

end Sylar.Http
