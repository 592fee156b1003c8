import Sylar.Http.Body
import Sylar.Http.Dump

/-! What the parser of a response makes of the lines of a head that lie in one read. The
automaton follows the names that it knows letter by letter, so a name leads to a state of its
own; every other name leads to the one state for a field without a meaning. -/
namespace Sylar.Http.Client

open Lib Lib.Numerals
open Scanner (Lies)
open HttpRequest (connectionKey contentLengthKey closeText)

section Offsets

/-- The offsets that the parser has set are not after the byte at `p`. -/
structure Behind (p : Nat) (s : HttpResponseParser) : Prop where
  mark : s.parser.mark ≤ p
  fieldStart : s.parser.fieldStart ≤ p
  fieldLen : s.parser.fieldLen ≤ p
  bodyStart : s.parser.bodyStart ≤ p + 1

variable {mem bs : Bytes} {p q cs : Nat} {a : Action} {s s' : HttpResponseParser}

theorem Behind.mono (h : Behind q s) (hle : q ≤ p) : Behind p s where
  mark := h.mark.trans hle
  fieldStart := h.fieldStart.trans hle
  fieldLen := h.fieldLen.trans hle
  bodyStart := h.bodyStart.trans (Nat.succ_le_succ hle)

theorem Behind.congr (h : Behind p s) (hsame : s'.parser = s.parser) : Behind p s' := by
  constructor <;> rw [hsame]
  · exact h.mark
  · exact h.fieldStart
  · exact h.fieldLen
  · exact h.bodyStart

theorem Behind.of_act (h : Behind p s) (hact : act mem p s a = .ok s') : Behind p s' := by
  cases a with
  | mark =>
    obtain rfl := Except.ok.inj hact
    exact ⟨Nat.le_refl p, h.fieldStart, h.fieldLen, h.bodyStart⟩
  | start_field =>
    obtain rfl := Except.ok.inj hact
    exact ⟨h.mark, Nat.le_refl p, h.fieldLen, h.bodyStart⟩
  | done =>
    obtain rfl := Except.ok.inj hact
    exact ⟨h.mark, h.fieldStart, h.fieldLen, Nat.le_refl (p + 1)⟩
  | write_content_len | write_connection_close | status_code | chunk_size | trans_chunked =>
    obtain rfl := Except.ok.inj hact
    exact ⟨h.mark, h.fieldStart, h.fieldLen, h.bodyStart⟩
  | write_field =>
    obtain rfl := Except.ok.inj hact
    have hlen : len s.parser.fieldStart p ≤ p := by
      rw [len, if_pos h.fieldStart]
      exact Nat.sub_le _ _
    exact ⟨h.mark, h.fieldStart, hlen, h.bodyStart⟩
  | write_value =>
    rcases ite_eq_iff.mp hact with ⟨-, hact⟩ | ⟨-, hact⟩
    · obtain rfl := Except.ok.inj hact
      exact h
    · obtain ⟨key, -, hact⟩ := bind_eq_ok.mp hact
      obtain ⟨val, -, hact⟩ := bind_eq_ok.mp hact
      obtain rfl := Except.ok.inj hact
      exact h.congr rfl
  | reason_phrase =>
    obtain ⟨text, -, hact⟩ := bind_eq_ok.mp hact
    obtain rfl := Except.ok.inj hact
    exact h.congr rfl
  | http_version =>
    obtain rfl := Except.ok.inj hact
    apply h.congr
    unfold onResponseVersion
    dsimp only
    split
    · rfl
    · split <;> rfl

theorem Behind.of_acts {as : List Action} (h : Behind p s)
    (hacts : as.foldlM (act mem p) s = .ok s') :
    Behind p s' := by
  induction as generalizing s with
  | nil =>
    obtain rfl := Except.ok.inj hacts
    exact h
  | cons a as ih =>
    rw [List.foldlM_cons] at hacts
    obtain ⟨s₁, hact, hacts⟩ := bind_eq_ok.mp hacts
    exact ih (h.of_act hact) hacts

/-- Wherever a scan stops, its offsets are not after the last byte that it took. -/
theorem Behind.of_scan {x : Nat × Nat × HttpResponseParser} (h : Behind (p - 1) s)
    (hscan : scan mem p cs bs s = .ok x) : Behind (x.1 - 1) x.2.2 := by
  induction bs generalizing p cs s with
  | nil =>
    obtain rfl := Except.ok.inj hscan
    exact h
  | cons b bs ih =>
    rw [scan] at hscan
    cases hn : next cs b with
    | none =>
      rw [hn] at hscan
      obtain rfl := Except.ok.inj hscan
      exact h
    | some arc =>
      rw [hn] at hscan
      obtain ⟨s₁, hacts, hscan⟩ := bind_eq_ok.mp hscan
      have hstep : Behind p s₁ := (h.mono (Nat.sub_le p 1)).of_acts hacts
      rcases ite_eq_iff.mp hscan with ⟨-, hscan⟩ | ⟨-, hscan⟩
      · obtain rfl := Except.ok.inj hscan
        exact hstep
      · exact ih (p := p + 1) hstep hscan

theorem Behind.inBounds {length : Nat} (h : Behind (p - 1) s) (hpos : 0 < length)
    (hle : p ≤ length) : s.InBounds length := by
  have hmark := h.mark
  have hstart := h.fieldStart
  have hlen := h.fieldLen
  have hbody := h.bodyStart
  constructor <;> omega

end Offsets

/-- From the state `cs` the parser reads `w` to the state `cs'`, and the callbacks make
`fill` of the response. -/
abbrev Fills : Nat → Bytes → Nat → (HttpResponse → HttpResponse) → Prop :=
  Scanner.Fills (2 ^ 63) scan HttpResponseParser.data fun s s' =>
    s'.error = s.error ∧ s'.parser.chunked = s.parser.chunked

theorem Fills.trans {cs cs₁ cs₂ : Nat} {w w' : Bytes} {fill fill' : HttpResponse → HttpResponse}
    (h : Fills cs w cs₁ fill) (h' : Fills cs₁ w' cs₂ fill') :
    Fills cs (w ++ w') cs₂ (fill' ∘ fill) :=
  Scanner.Fills.trans (fun hs ht => ⟨ht.1.trans hs.1, ht.2.trans hs.2⟩) h h'

abbrev Quiet : Nat → Bytes → Nat → Prop := Scanner.Quiet fun cs b n => next cs b = some (.st n)

def quiet : Nat → Bytes → Option Nat
  | cs, [] => some cs
  | cs, b :: bs =>
    (next cs b).bind fun arc => if arc.actions = [] then quiet arc.target bs else none

theorem Quiet.of_quiet {cs cs' : Nat} {w : Bytes} (h : quiet cs w = some cs') : Quiet cs w cs' := by
  induction w generalizing cs with
  | nil =>
    obtain rfl := Option.some.inj h
    exact .nil
  | cons b w ih =>
    obtain ⟨arc, hn, h⟩ := Option.bind_eq_some_iff.mp h
    obtain ⟨hactions, h⟩ := Option.ite_none_right_eq_some.mp h
    refine .cons ?_ (ih h)
    rw [hn, Arc.st, ← hactions]

section Scan

variable {mem w more : Bytes} {p cs cs' n : Nat} {b d : UInt8} {a : Action} {arc : Arc}
  {s s' : HttpResponseParser}

theorem scan_arc (h : next cs b = some arc) (hd : .done ∉ arc.actions) :
    scan mem p cs (b :: more) s =
      arc.actions.foldlM (act mem p) s >>= scan mem (p + 1) arc.target more := by
  rw [scan, h]
  simp only [if_neg hd]

theorem scan_quiet (h : Quiet cs w cs') :
    scan mem p cs (w ++ more) s = scan mem (p + w.length) cs' more s :=
  Scanner.scan_quiet (fun _ _ arc => scan_arc arc List.not_mem_nil) h

theorem scan_stretch {first : Arc} (hfirst : next cs b = some first) (hnot : .done ∉ first.actions)
    (hquiet : Quiet first.target w cs') (hend : next cs' d = some arc) (hd : .done ∉ arc.actions) :
    scan mem p cs (b :: w ++ d :: more) s =
      first.actions.foldlM (act mem p) s >>= fun s =>
        arc.actions.foldlM (act mem (p + (b :: w).length)) s >>=
          scan mem (p + (b :: w).length + 1) arc.target more :=
  Scanner.scan_stretch (fun _ _ arc => scan_arc arc List.not_mem_nil)
    (fun _ _ => scan_arc hfirst hnot) hquiet fun _ _ => scan_arc hend hd

theorem Quiet.fills (h : Quiet cs w cs') : Fills cs w cs' id :=
  fun _ _ s _ _ _ => ⟨s, scan_quiet h, rfl, rfl, rfl⟩

theorem len_add (off n : Nat) : len off (off + n) = n := by
  rw [len, if_pos (Nat.le_add_right _ _), Nat.add_sub_cancel_left]

end Scan

section Field

variable {mem more name value w : Bytes} {p start cs cs' n c c' : Nat} {b : UInt8}
  {s : HttpResponseParser}

/-- From the beginning of a line the parser reads the name and its colon to the state `cs`. -/
def Names (start : Nat) (name : Bytes) (cs : Nat) : Prop :=
  ∀ mem p more s, ∃ close, scan mem p start (name ++ 58 :: more) s =
    scan mem (p + name.length + 1) cs more
      { s with parser := { s.parser with close, fieldStart := p, fieldLen := name.length } }

/-- From there it reads a blank, the value and the end of the line to the state `cs'`. -/
def Values (cs : Nat) (value : Bytes) (cs' : Nat) : Prop :=
  ∀ mem p more s, ∃ contentLen, scan mem p cs (32 :: (value ++ 13 :: 10 :: more)) s =
    act mem (p + 1 + value.length)
        { s with parser := { s.parser with mark := p + 1, contentLen } } .write_value >>=
      scan mem (p + 1 + value.length + 2) cs' more

theorem Names.of_quiet {first : Arc} (hfirst : next start b = some first)
    (hactions : first.actions = [.start_field] ∨
      first.actions = [.write_connection_close, .start_field])
    (hquiet : Quiet first.target w n) (hcolon : next n 58 = some ⟨[.write_field], cs⟩) :
    Names start (b :: w) cs := by
  intro mem p more s
  have hnot : .done ∉ first.actions := by
    rcases hactions with h | h <;> rw [h] <;> decide
  rw [scan_stretch hfirst hnot hquiet hcolon (by simp)]
  rcases hactions with h | h
  · refine ⟨s.parser.close, ?_⟩
    rw [h]
    simp only [List.foldlM_cons, List.foldlM_nil, act, pure_bind, ok_bind, len_add]
  · refine ⟨true, ?_⟩
    rw [h]
    simp only [List.foldlM_cons, List.foldlM_nil, act, pure_bind, ok_bind, len_add]

theorem scan_blank (hblank : next cs 32 = some ⟨[.mark], cs⟩) :
    scan mem p cs (32 :: more) s =
      scan mem (p + 1) cs more { s with parser := { s.parser with mark := p } } := by
  rw [scan_arc hblank (by simp)]
  rfl

theorem Values.nil (hblank : next cs 32 = some ⟨[.mark], cs⟩)
    (hend : next cs 13 = some ⟨[.mark, .write_value], n⟩) (hnewline : next n 10 = some (.st cs')) :
    Values cs [] cs' := by
  intro mem p more s
  refine ⟨s.parser.contentLen, ?_⟩
  rw [scan_blank hblank, List.nil_append, scan_arc hend (by simp), List.foldlM_cons, bind_assoc]
  simp only [act, ok_bind, List.foldlM_cons, List.foldlM_nil, bind_pure]
  congr 1
  funext s
  exact scan_quiet (.cons hnewline .nil)

theorem Values.cons (hblank : next cs 32 = some ⟨[.mark], cs⟩)
    (hfirst : next cs b = some ⟨[.mark], c⟩) (hquiet : Quiet c w c') {as : List Action}
    (hend : next c' 13 = some ⟨as, n⟩)
    (hactions : as = [.write_value] ∨ as = [.write_content_len, .write_value])
    (hnewline : next n 10 = some (.st cs')) : Values cs (b :: w) cs' := by
  intro mem p more s
  have hnot : .done ∉ as := by
    rcases hactions with h | h <;> rw [h] <;> decide
  have hread : scan mem p cs (32 :: (b :: w ++ 13 :: 10 :: more)) s = _ := scan_blank hblank
  rw [scan_stretch hfirst (by simp) hquiet hend hnot] at hread
  have hrest : scan mem (p + 1 + (b :: w).length + 1) n (10 :: more) =
      scan mem (p + 1 + (b :: w).length + 2) cs' more := by
    funext s
    exact scan_quiet (.cons hnewline .nil)
  rcases hactions with rfl | rfl
  · refine ⟨s.parser.contentLen, hread.trans ?_⟩
    simp only [List.foldlM_cons, List.foldlM_nil, act, ok_bind, bind_pure, hrest]
  · refine ⟨toInt (strtol 10 (mem.drop (p + 1))), hread.trans ?_⟩
    simp only [List.foldlM_cons, List.foldlM_nil, act, ok_bind, bind_pure, hrest]

theorem act_write_value (hne : name ≠ []) (hname : Lies mem s.parser.fieldStart name)
    (hfield : s.parser.fieldLen = name.length) (hvalue : Lies mem s.parser.mark value)
    (hlt : name.length < 2 ^ 63) (hlt' : value.length < 2 ^ 63) :
    act mem (s.parser.mark + value.length) s .write_value =
      .ok { s with data := { s.data with headers := s.data.headers.set name value } } := by
  rw [act, onResponseHttpField, len_add, hfield, if_neg (mt List.length_eq_zero_iff.mp hne),
    stdString_of_lies hname hlt, stdString_of_lies hvalue hlt']
  rfl

theorem Names.fills (hname : Names start name cs) (hvalue : Values cs value cs')
    (hne : name ≠ []) :
    Fills start (headerLine name 1 value) cs' fun rsp =>
      { rsp with headers := rsp.headers.set name value } := by
  intro mem p s more hlies hlt
  have hlen : (headerLine name 1 value).length = name.length + 1 + 1 + value.length + 2 := by
    simp [headerLine]
    omega
  have hsplit : headerLine name 1 value ++ more =
      name ++ 58 :: 32 :: (value ++ 13 :: 10 :: more) := by
    simp [headerLine]
  have hlies' : Lies mem (p + name.length + 1 + 1) value := by
    have hafter := hlies.right
    rw [← List.singleton_append] at hafter
    exact hafter.right.right.left
  obtain ⟨close, hscan⟩ := hname mem p (32 :: (value ++ 13 :: 10 :: more)) s
  obtain ⟨contentLen, hscan'⟩ := hvalue mem (p + name.length + 1) more
    { s with parser := { s.parser with close, fieldStart := p, fieldLen := name.length } }
  have hwrite := act_write_value (s := { s with
    parser := { s.parser with
      close, fieldStart := p, fieldLen := name.length, mark := p + name.length + 1 + 1
      contentLen } })
    hne hlies.left rfl hlies' (by omega) (by omega)
  rw [hsplit, hscan, hscan', hwrite, ok_bind, hlen]
  exact ⟨_, congrArg (scan mem · cs' more _) (by omega), rfl, rfl, rfl⟩

end Field

section Names

def transferEncodingKey : Bytes :=
  ascii ['t', 'r', 'a', 'n', 's', 'f', 'e', 'r', '-', 'e', 'n', 'c', 'o', 'd', 'i', 'n', 'g']

/-- The letters that lead to a state inside one of the names that the automaton knows. -/
def spelled (cs : Nat) : Option Bytes :=
  if 25 ≤ cs ∧ cs ≤ 34 then some (connectionKey.take (cs - 24))
  else if 44 ≤ cs ∧ cs ≤ 60 then some (transferEncodingKey.take (cs - 43))
  else if 101 ≤ cs ∧ cs ≤ 111 then some (contentLengthKey.take (cs - 97))
  else none

/-- The states inside a name. In state 21 it can be no known name any more. -/
def nameStates : List Nat := 21 :: (List.range 112).filter fun cs => (spelled cs).isSome

def tracks (cs : Nat) (letters : Bytes) : Bool := cs == 21 || spelled cs == some letters

theorem next_first : ∀ b : UInt8, isToken b = true →
    (((next 20 b).any fun arc =>
      arc.actions == [.start_field] && tracks arc.target [tolower b]) &&
    (next 43 b).any fun arc =>
      arc.actions == [.write_connection_close, .start_field] && tracks arc.target [tolower b]) =
        true :=
  forall_byte (by decide +kernel)

theorem next_letter : ∀ b : UInt8, isToken b = true → (nameStates.all fun cs =>
    (next cs b).any fun arc => arc.actions.isEmpty && (arc.target == 21 ||
      (spelled cs).any fun letters => tracks arc.target (letters ++ [tolower b]))) = true :=
  forall_byte (by decide +kernel)

theorem next_colon : (nameStates.all fun cs => next cs 58 == some ⟨[.write_field],
    if spelled cs = some connectionKey then 35
    else if spelled cs = some transferEncodingKey then 61
    else if spelled cs = some contentLengthKey then 112 else 22⟩) = true := by
  decide +kernel

variable {name value w u : Bytes} {start cs cs' : Nat} {b : UInt8}

theorem spelled_eq_some (h : spelled cs = some u) : cs ∈ nameStates := by
  have hlt : cs < 112 := by
    unfold spelled at h
    split at h
    · omega
    · split at h
      · omega
      · split at h
        · omega
        · cases h
  apply List.mem_cons_of_mem
  rw [List.mem_filter, List.mem_range, h]
  exact ⟨hlt, rfl⟩

theorem tracks_iff : tracks cs u = true ↔ cs = 21 ∨ spelled cs = some u := by
  simp [tracks]

theorem mem_nameStates (h : tracks cs u = true) : cs ∈ nameStates := by
  rcases tracks_iff.mp h with rfl | h
  · exact List.mem_cons_self
  · exact spelled_eq_some h

theorem next_tracks (h : tracks cs u = true) (hb : isToken b = true) :
    ∃ n, next cs b = some (.st n) ∧ tracks n (u ++ [tolower b]) = true := by
  have hletter := List.all_eq_true.mp (next_letter b hb) cs (mem_nameStates h)
  obtain ⟨⟨actions, n⟩, hnext, harc⟩ := (Option.any_eq_true _ _).mp hletter
  simp only [Bool.and_eq_true, List.isEmpty_iff, Bool.or_eq_true, beq_iff_eq] at harc
  obtain ⟨rfl, hto⟩ := harc
  refine ⟨n, hnext, ?_⟩
  rcases hto with rfl | hto
  · rfl
  · obtain ⟨letters, hletters, hto⟩ := (Option.any_eq_true _ _).mp hto
    rcases tracks_iff.mp h with rfl | hspelled
    · cases hletters
    · obtain rfl := Option.some.inj (hspelled.symm.trans hletters)
      exact hto

theorem quiet_letters (h : tracks cs u = true) (htoken : ∀ b ∈ w, isToken b = true) :
    ∃ cs', Quiet cs w cs' ∧ tracks cs' (u ++ w.map tolower) = true := by
  induction w generalizing cs u with
  | nil => exact ⟨cs, .nil, by simpa using h⟩
  | cons b w ih =>
    obtain ⟨n, hnext, hn⟩ := next_tracks h (htoken b List.mem_cons_self)
    obtain ⟨cs', hquiet, htracks⟩ := ih hn fun c hc => htoken c (List.mem_cons_of_mem b hc)
    exact ⟨cs', .cons hnext hquiet, by simpa using htracks⟩

theorem names_of_token (hstart : start = 20 ∨ start = 43) (hne : name ≠ [])
    (htoken : ∀ b ∈ name, isToken b = true) :
    ∃ n cs, tracks n (name.map tolower) = true ∧ next n 58 = some ⟨[.write_field], cs⟩ ∧
      Names start name cs := by
  obtain ⟨b, w, rfl⟩ := List.exists_cons_of_ne_nil hne
  have hfirst : ∃ arc, next start b = some arc ∧ (arc.actions = [.start_field] ∨
      arc.actions = [.write_connection_close, .start_field]) ∧
      tracks arc.target [tolower b] = true := by
    have hboth := next_first b (htoken b List.mem_cons_self)
    rw [Bool.and_eq_true, Option.any_eq_true, Option.any_eq_true] at hboth
    obtain ⟨⟨arc, hnext, harc⟩, ⟨arc', hnext', harc'⟩⟩ := hboth
    rw [Bool.and_eq_true, beq_iff_eq] at harc harc'
    rcases hstart with rfl | rfl
    · exact ⟨arc, hnext, .inl harc.1, harc.2⟩
    · exact ⟨arc', hnext', .inr harc'.1, harc'.2⟩
  obtain ⟨arc, hnext, hactions, htracks⟩ := hfirst
  obtain ⟨n, hquiet, hn⟩ :=
    quiet_letters htracks fun c hc => htoken c (List.mem_cons_of_mem b hc)
  have hcolon := List.all_eq_true.mp next_colon n (mem_nameStates hn)
  rw [beq_iff_eq] at hcolon
  exact ⟨n, _, hn, hcolon, Names.of_quiet hnext hactions hquiet hcolon⟩

theorem isToken_ne_zero : ∀ b : UInt8, isToken b = true → b ≠ 0 := forall_byte (by decide +kernel)

theorem foldCase_token (htoken : ∀ b ∈ name, isToken b = true) :
    foldCase name = (name.map tolower).map UInt8.toNat := by
  have htake : name.takeWhile (· ≠ 0) = name := by
    apply List.takeWhile_eq_self_iff.mpr
    intro b hb
    exact decide_eq_true (isToken_ne_zero b (htoken b hb))
  rw [foldCase, htake, List.map_map]
  rfl

def knownKeys : List Bytes := [connectionKey, transferEncodingKey, contentLengthKey]

theorem foldCase_knownKeys : ∀ key ∈ knownKeys, foldCase key = key.map UInt8.toNat := by decide

theorem names_other (hstart : start = 20 ∨ start = 43) (hne : name ≠ [])
    (htoken : ∀ b ∈ name, isToken b = true)
    (hother : ∀ key ∈ knownKeys, strcasecmpEq name key = false) : Names start name 22 := by
  obtain ⟨n, cs, htracks, hcolon, hnames⟩ := names_of_token hstart hne htoken
  have hspelled : ∀ key ∈ knownKeys, spelled n ≠ some key := by
    intro key hkey hspelled
    have hletters : key = name.map tolower := by
      rcases tracks_iff.mp htracks with rfl | h
      · cases hspelled
      · exact Option.some.inj (hspelled.symm.trans h)
    have heq : strcasecmpEq name key = true := by
      rw [strcasecmpEq_iff, foldCase_token htoken, foldCase_knownKeys key hkey, hletters]
    rw [hother key hkey] at heq
    cases heq
  have hend := List.all_eq_true.mp next_colon n (mem_nameStates htracks)
  rw [beq_iff_eq, hcolon, if_neg (hspelled _ (by decide)), if_neg (hspelled _ (by decide)),
    if_neg (hspelled _ (by decide))] at hend
  obtain rfl : cs = 22 := congrArg Arc.target (Option.some.inj hend)
  exact hnames

theorem names_connection : Names 20 connectionKey 35 := by
  have hquiet : Quiet 25 connectionKey.tail 34 := .of_quiet (by decide)
  have hfirst : next 20 99 = some .tr36 := by decide
  exact Names.of_quiet hfirst (.inl rfl) hquiet (by decide)

theorem names_contentLength (hstart : start = 20 ∨ start = 43) :
    Names start contentLengthKey 112 := by
  have hquiet : Quiet 25 contentLengthKey.tail 111 := .of_quiet (by decide)
  have hfirst : next 20 99 = some .tr36 ∧ next 43 99 = some .tr77 := by decide
  rcases hstart with rfl | rfl
  · exact Names.of_quiet hfirst.1 (.inl rfl) hquiet (by decide)
  · exact Names.of_quiet hfirst.2 (.inr rfl) hquiet (by decide)

end Names

section Lines

variable {value w : Bytes} {start : Nat} {e : Bytes × Bytes}

theorem next_value : ∀ b : UInt8,
    (isspace b = false → next 22 b = some ⟨[.mark], 23⟩) ∧
      (b ≠ 10 → b ≠ 13 → next 23 b = some (.st 23)) :=
  forall_byte (by decide +kernel)

theorem values_other (hline : ∀ b ∈ value, b ≠ 10 ∧ b ≠ 13)
    (hblank : ∀ b ∈ value.head?, isspace b = false) : Values 22 value 20 := by
  have hloop : next 22 32 = some ⟨[.mark], 22⟩ := by decide
  have hnewline : next 24 10 = some (.st 20) := by decide
  cases value with
  | nil => exact Values.nil hloop (by decide) hnewline
  | cons b w =>
    have hquiet : Quiet 23 w 23 := by
      apply Scanner.Quiet.of_forall
      intro c hc
      obtain ⟨h10, h13⟩ := hline c (List.mem_cons_of_mem b hc)
      exact (next_value c).2 h10 h13
    have hfirst := (next_value b).1 (hblank b rfl)
    have hend : next 23 13 = some ⟨[.write_value], 24⟩ := by decide
    exact Values.cons hloop hfirst hquiet hend (.inl rfl) hnewline

theorem values_connection (close : Bool) :
    Values 35 (closeText close) (if close then 43 else 20) := by
  have hloop : next 35 32 = some ⟨[.mark], 35⟩ := by decide
  cases close with
  | false =>
    have hquiet : Quiet 23 (closeText false).tail 23 := .of_quiet (by decide)
    exact Values.cons (b := 107) (n := 24) hloop (by decide) hquiet (by decide) (.inl rfl)
      (by decide)
  | true =>
    have hquiet : Quiet 96 (closeText true).tail 100 := .of_quiet (by decide)
    exact Values.cons (b := 99) (n := 88) hloop (by decide) hquiet (by decide) (.inl rfl)
      (by decide)

theorem next_decimal : ∀ b : UInt8, isDigit b = true →
    next 112 b = some ⟨[.mark], 119⟩ ∧ next 119 b = some (.st 119) ∧
      next 16 b = some ⟨[.mark], 17⟩ ∧ next 17 b = some (.st 17) :=
  forall_byte (by decide +kernel)

theorem values_contentLength (n : Nat) : Values 112 (decimal n) 20 := by
  obtain ⟨b, w, hdigits⟩ := List.exists_cons_of_ne_nil (decimal_ne_nil n)
  have hdigit := isDigit_decimal n
  rw [hdigits] at hdigit ⊢
  have hquiet : Quiet 119 w 119 := .of_forall fun c hc =>
    (next_decimal c (hdigit c (List.mem_cons_of_mem b hc))).2.1
  exact Values.cons (n := 24) (by decide) (next_decimal b (hdigit b List.mem_cons_self)).1 hquiet
    (by decide) (.inr rfl) (by decide)

/-- What a header of a response needs to be read back: its name is a token and none that the
parser knows, and its value is one line that does not begin with a blank. -/
structure Plain (e : Bytes × Bytes) : Prop where
  ne_nil : e.1 ≠ []
  token : ∀ b ∈ e.1, isToken b = true
  other : ∀ key ∈ knownKeys, strcasecmpEq e.1 key = false
  line : ∀ b ∈ e.2, b ≠ 10 ∧ b ≠ 13
  blank : ∀ b ∈ e.2.head?, isspace b = false

theorem Plain.fills (h : Plain e) :
    Fills 20 (headerLine e.1 1 e.2) 20 fun rsp =>
      { rsp with headers := rsp.headers.set e.1 e.2 } :=
  (names_other (.inl rfl) h.ne_nil h.token h.other).fills (values_other h.line h.blank) h.ne_nil

theorem fills_headers {headers : Headers} (h : ∀ e ∈ headers, Plain e) :
    Fills 20 (headers.flatMap fun e => headerLine e.1 1 e.2) 20 fun rsp =>
      { rsp with headers := rsp.headers.setAll headers } := by
  induction headers with
  | nil => exact Quiet.fills .nil
  | cons e headers ih =>
    exact (h e List.mem_cons_self).fills.trans (ih fun e' he => h e' (List.mem_cons_of_mem e he))

theorem fills_connection (close : Bool) :
    Fills 20 (headerLine connectionKey 1 (closeText close)) (if close then 43 else 20) fun rsp =>
      { rsp with headers := rsp.headers.set connectionKey (closeText close) } :=
  names_connection.fills (values_connection close) (by decide)

theorem fills_contentLength (n : Nat) (hstart : start = 20 ∨ start = 43) :
    Fills start (headerLine contentLengthKey 1 (decimal n)) 20 fun rsp =>
      { rsp with headers := rsp.headers.set contentLengthKey (decimal n) } :=
  (names_contentLength hstart).fills (values_contentLength n) (by decide)

end Lines

end Sylar.Http.Client
