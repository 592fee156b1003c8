import Sylar.Log.Formatter

/-! Log patterns as sequences of literals, escapes and items, and what `LogFormatter` makes of
them. The scan prints a percent sign for an escape, but goes on at the second sign of it, which
then starts an item or another escape. -/
namespace Sylar.LogFormatter

inductive Letter where
  | m | p | r | c | t | n | d | f | l | F | T | N
  deriving DecidableEq, Repr

namespace Letter

def char : Letter → Char
  | m => 'm' | p => 'p' | r => 'r' | c => 'c' | t => 't' | n => 'n'
  | d => 'd' | f => 'f' | l => 'l' | F => 'F' | T => 'T' | N => 'N'

def byte (i : Letter) : UInt8 := UInt8.ofNat i.char.toNat

/-- The text of an item. A date is printed by the format, and by the default one if there is none
or it is empty. -/
def print (libc : Libc) (level : LogLevel) (event : LogEvent) (fmt : Text) : Letter → Option Text
  | m => some event.content
  | p => some level.toString
  | r => some (Lib.Numerals.decimal event.elapse.toNat)
  | c => some event.loggerName
  | t => some (FormatItem.printInt event.threadId.toInt)
  | n => some [10]
  | d => (libc.localtime event.time.toInt64).map
      (libc.strftime (FormatItem.dateFormat fmt))
  | f => some event.file
  | l => some (FormatItem.printInt event.line.toInt)
  | F => some (Lib.Numerals.decimal event.fiberId.toNat)
  | T => some [9]
  | N => some event.threadName

/-- The date of the item is there, and fits with its null into `buf`. -/
def Fits (libc : Libc) (event : LogEvent) (fmt : Text) (i : Letter) : Prop :=
  i = d → ∃ tm, libc.localtime event.time.toInt64 = some tm ∧
    (libc.strftime (FormatItem.dateFormat fmt) tm).length < 64

def item : Letter → Text → FormatItem
  | m, _ => .message
  | p, _ => .level
  | r, _ => .elapse
  | c, _ => .name
  | t, _ => .threadId
  | n, _ => .newLine
  | d, fmt => .dateTime (FormatItem.dateFormat fmt)
  | f, _ => .fileName
  | l, _ => .line
  | F, _ => .fiberId
  | T, _ => .tab
  | N, _ => .threadName

theorem lookup_byte (i : Letter) : FormatItem.formatItems.lookup [i.byte] = some i.item := by
  cases i <;> rfl

theorem inName_byte (i : Letter) : inName i.byte = true := by
  cases i <;> decide

theorem exists_of_lookup {str : Text} {make : Text → FormatItem}
    (h : FormatItem.formatItems.lookup str = some make) : ∃ i : Letter, str = [i.byte] := by
  have hkeys : FormatItem.formatItems.map (·.1) =
      [m, p, r, c, t, n, d, f, l, F, T, N].map fun i => [i.byte] := rfl
  obtain ⟨before, after, htable, -⟩ := List.lookup_eq_some_iff.mp h
  have hmem : str ∈ FormatItem.formatItems.map (·.1) := by simp [htable]
  rw [hkeys] at hmem
  obtain ⟨i, -, hi⟩ := List.mem_map.mp hmem
  exact ⟨i, hi.symm⟩

variable (libc : Libc) (level : LogLevel) (event : LogEvent) (fmt : Text) (i : Letter)

theorem format_of_fits (h : i.Fits libc event fmt) :
    ∃ w, i.print libc level event fmt = some w ∧
      (i.item fmt).format libc level event = some w := by
  cases i with
  | d =>
    obtain ⟨tm, htm, hlen⟩ := h rfl
    refine ⟨_, by rw [print, htm, Option.map_some], ?_⟩
    simp [item, FormatItem.format, htm, hlen]
  | _ => exact ⟨_, rfl, rfl⟩

theorem format_of_not_fits (h : ¬ i.Fits libc event fmt) :
    (i.item fmt).format libc level event = none := by
  unfold Fits at h
  push Not at h
  obtain ⟨rfl, hnone⟩ := h
  unfold item FormatItem.format
  cases htm : libc.localtime event.time.toInt64 with
  | none => rfl
  | some tm =>
    have hlen := hnone tm htm
    simp [Nat.not_lt.mpr hlen]

end Letter

inductive Token where
  | literal (b : UInt8) (ne_percent : b ≠ 37)
  | escape
  | bare (i : Letter)
  | braced (i : Letter) (fmt : Text) (closed : 125 ∉ fmt)

namespace Token

def text : Token → Text
  | literal b _ => [b]
  | escape => [37, 37]
  | bare i => [37, i.byte]
  | braced i fmt _ => 37 :: i.byte :: 123 :: (fmt ++ [125])

def print (libc : Libc) (level : LogLevel) (event : LogEvent) : Token → Option Text
  | literal b _ => some [b]
  | escape => some [37]
  | bare i => i.print libc level event []
  | braced i fmt _ => i.print libc level event fmt

def Fits (libc : Libc) (event : LogEvent) : Token → Prop
  | literal _ _ | escape => True
  | bare i => i.Fits libc event []
  | braced i fmt _ => i.Fits libc event fmt

/-- The variables of the scan after a token that it reads as it is meant. -/
def after (s : Scan) : Token → Scan
  | literal b _ => s.append b
  | escape => s.append 37
  | bare i => s.push [i.byte] []
  | braced i fmt _ => s.push [i.byte] fmt

def format (libc : Libc) (level : LogLevel) (event : LogEvent) : Token → Option Text
  | literal b _ => some [b]
  | escape => some [37]
  | bare i => (i.item []).format libc level event
  | braced i fmt _ => (i.item fmt).format libc level event

variable (libc : Libc) (level : LogLevel) (event : LogEvent) (t : Token)

theorem format_of_fits (h : t.Fits libc event) :
    ∃ w, t.print libc level event = some w ∧ t.format libc level event = some w := by
  cases t with
  | literal b hb => exact ⟨[b], rfl, rfl⟩
  | escape => exact ⟨[37], rfl, rfl⟩
  | bare i => exact i.format_of_fits libc level event [] h
  | braced i fmt hfmt => exact i.format_of_fits libc level event fmt h

theorem format_of_not_fits (h : ¬ t.Fits libc event) : t.format libc level event = none := by
  cases t with
  | literal b hb => exact absurd trivial h
  | escape => exact absurd trivial h
  | bare i => exact i.format_of_not_fits libc level event [] h
  | braced i fmt hfmt => exact i.format_of_not_fits libc level event fmt h

@[simp] theorem bad_after (s : Scan) : (t.after s).bad = s.bad := by
  cases t <;> simp [after, Letter.lookup_byte]

theorem print_after (s : Scan) :
    (t.after s).print libc level event =
      Option.map₂ (· ++ ·) (s.print libc level event) (t.format libc level event) := by
  cases t with
  | literal b hb => simp [after, format]
  | escape => simp [after, format]
  | bare i => exact s.print_push libc level event [] i.lookup_byte
  | braced i fmt hfmt => exact s.print_push libc level event fmt i.lookup_byte

theorem scan (s : Scan) {rest : Text} (hescape : t ≠ escape)
    (hbare : ∀ i, t = bare i → ∀ b ∈ rest.head?, endsName b = true) :
    scanLoop 0 (t.text ++ rest) s = scanLoop 0 rest (t.after s) := by
  cases t with
  | literal b hb => exact scanLoop_append s hb
  | escape => exact absurd rfl hescape
  | bare i =>
    have hname : ∀ b ∈ [i.byte], inName b = true := by simp [i.inName_byte]
    change scanLoop 0 (37 :: ([i.byte] ++ rest)) s = _
    refine scanLoop_push s ?_ ?_
    · simpa using (inName_spec _ i.inName_byte).2.2
    · rw [scanName_passed hname, List.nil_append, scanName_stop (hbare i rfl)]
  | braced i fmt hfmt =>
    have hname : ∀ b ∈ [i.byte], inName b = true := by simp [i.inName_byte]
    have htext : (braced i fmt hfmt).text ++ rest =
        37 :: (([i.byte] ++ 123 :: fmt ++ [125]) ++ rest) := by
      simp [text]
    rw [htext]
    refine scanLoop_push s ?_ ?_
    · simpa using (inName_spec _ i.inName_byte).2.2
    · rw [List.append_assoc, List.append_assoc, scanName_passed hname, List.nil_append,
        List.cons_append, scanName_brace, List.singleton_append, scanFmt_closed hfmt,
        List.nil_append]

end Token

def text (ts : List Token) : Text := ts.flatMap Token.text

def Separated : List Token → Prop
  | [] => True
  | t :: ts => (∀ i, t = .bare i → ∀ b ∈ (text ts).head?, endsName b = true) ∧ Separated ts

structure Pattern where
  tokens : List Token
  separated : Separated tokens

/-- An item that is no item, up to the end of the pattern: its name is unknown, or its opening
brace is not closed. The name goes as far as letters and closing braces do. -/
inductive BadItem where
  | bare (name rest : Text) (word : ∀ b ∈ name, inName b = true)
    (unknown : ∀ i : Letter, name ≠ [i.byte]) (ends : ∀ b ∈ rest.head?, endsName b = true)
    (no_escape : name = [] → rest.head? ≠ some 37)
  | braced (name fmt rest : Text) (word : ∀ b ∈ name, inName b = true)
    (unknown : ∀ i : Letter, name ≠ [i.byte]) (closed : 125 ∉ fmt)
  | unclosed (name tail : Text) (word : ∀ b ∈ name, inName b = true) (unclosed : 125 ∉ tail)

def BadItem.text : BadItem → Text
  | bare name rest .. => 37 :: (name ++ rest)
  | braced name fmt rest .. => 37 :: (name ++ 123 :: (fmt ++ 125 :: rest))
  | unclosed name tail .. => 37 :: (name ++ 123 :: tail)

section Scanning

variable {ts : List Token} (s : Scan)

theorem scan_tokens {rest : Text} (hsep : Separated ts) (hescape : .escape ∉ ts)
    (hrest : ∀ b ∈ rest.head?, b = 37) :
    scanLoop 0 (text ts ++ rest) s = scanLoop 0 rest (ts.foldl Token.after s) := by
  induction ts generalizing s with
  | nil => rfl
  | cons t ts ih =>
    have hne : t ≠ .escape := fun ht => hescape (by simp [ht])
    have hbare : ∀ i, t = .bare i → ∀ b ∈ (text ts ++ rest).head?, endsName b = true := by
      intro i hi b hb
      cases htext : text ts with
      | nil =>
        rw [htext, List.nil_append] at hb
        rw [hrest b hb]
        rfl
      | cons c cs =>
        rw [htext] at hb
        exact hsep.1 i hi b (by rw [htext]; exact hb)
    have htext : text (t :: ts) ++ rest = t.text ++ (text ts ++ rest) := by simp [text]
    rw [htext, t.scan s hne hbare, ih _ hsep.2 fun hmem => hescape (List.mem_cons_of_mem t hmem)]
    rfl

theorem bad_foldl_after : (ts.foldl Token.after s).bad = s.bad := by
  induction ts generalizing s with
  | nil => rfl
  | cons t ts ih => rw [List.foldl_cons, ih, t.bad_after]

theorem print_foldl_after (libc : Libc) (level : LogLevel) (event : LogEvent) :
    (ts.foldl Token.after s).print libc level event =
      Option.map₂ (· ++ ·) (s.print libc level event)
        (concat (Token.format libc level event) ts) := by
  induction ts generalizing s with
  | nil => simp [concat]
  | cons t ts ih =>
    rw [List.foldl_cons, ih, t.print_after, concat, Option.map₂_assoc]
    exact List.append_assoc

theorem bad_of_unknown {name fmt : Text} (h : ∀ i : Letter, name ≠ [i.byte]) :
    (s.push name fmt).bad = true := by
  rw [Scan.bad_push, Bool.or_eq_true]
  right
  cases hmake : FormatItem.formatItems.lookup name with
  | none => rfl
  | some make =>
    obtain ⟨i, hi⟩ := Letter.exists_of_lookup hmake
    exact absurd hi (h i)

theorem head_ne_percent {name rest : Text} (hword : ∀ b ∈ name, inName b = true)
    (hrest : name = [] → rest.head? ≠ some 37) : (name ++ rest).head? ≠ some 37 := by
  cases name with
  | nil => exact hrest rfl
  | cons b name =>
    have hb := (inName_spec b (hword b List.mem_cons_self)).2.2
    simpa using hb

theorem scan_badItem (bad : BadItem) : (scanLoop 0 bad.text s).bad = true := by
  cases bad with
  | bare name rest hword hunknown hends hescape =>
    have hit : scanName [] (name ++ rest) = ⟨name, [], false, rest⟩ := by
      rw [scanName_passed hword, List.nil_append, scanName_stop hends]
    rw [BadItem.text, scanLoop_push s (head_ne_percent hword hescape) hit]
    exact (scanLoop_grows 0 rest _).bad (bad_of_unknown s hunknown)
  | braced name fmt rest hword hunknown hclosed =>
    have hit :
        scanName [] ((name ++ 123 :: (fmt ++ [125])) ++ rest) = ⟨name, fmt, false, rest⟩ := by
      rw [List.append_assoc, scanName_passed hword, List.nil_append, List.cons_append,
        scanName_brace, List.append_assoc, List.singleton_append, scanFmt_closed hclosed,
        List.nil_append]
    have htext : (BadItem.braced name fmt rest hword hunknown hclosed).text =
        37 :: ((name ++ 123 :: (fmt ++ [125])) ++ rest) := by
      simp [BadItem.text]
    have hhead : ((name ++ 123 :: (fmt ++ [125])) ++ rest).head? ≠ some 37 := by
      rw [List.append_assoc]
      exact head_ne_percent hword fun _ => by simp
    rw [htext, scanLoop_push s hhead hit]
    exact (scanLoop_grows 0 rest _).bad (bad_of_unknown s hunknown)
  | unclosed name tail hword hunclosed =>
    have hit : scanName [] (name ++ 123 :: tail) = ⟨name, [], true, []⟩ := by
      rw [scanName_passed hword, List.nil_append, scanName_brace, scanFmt_unclosed hunclosed]
    rw [BadItem.text, scanLoop_item s (head_ne_percent hword fun _ => by simp), hit, if_pos rfl]
    exact (scanLoop_grows 0 _ _).bad (s.bad_fail [])

end Scanning

section Escapes

def zeroLibc : Libc := ⟨Unit, fun _ => some (), fun _ _ => [48]⟩

def zeroEvent : LogEvent := ⟨[48], 0, 0, 0, 0, 0, [48], [48], [48]⟩

theorem zero_print (i : Letter) (fmt : Text) :
    ∃ b w, i.print zeroLibc .DEBUG zeroEvent fmt = some (b :: w) ∧
      (i.item fmt).format zeroLibc .DEBUG zeroEvent = some (b :: w) ∧ b ≠ i.byte ∧ b ≠ 37 := by
  cases i <;> exact ⟨_, _, rfl, rfl, by decide, by decide⟩

theorem zero_fits (t : Token) : t.Fits zeroLibc zeroEvent := by
  have hfits : ∀ (i : Letter) (fmt : Text), i.Fits zeroLibc zeroEvent fmt :=
    fun _ _ _ => ⟨(), rfl, Nat.one_lt_ofNat⟩
  cases t with
  | literal b hb => trivial
  | escape => trivial
  | bare i => exact hfits i []
  | braced i fmt hfmt => exact hfits i fmt

variable {ts : List Token} {s : Scan} {w v : Text}

/-- What a pattern is meant to print starts with a percent sign only at an escape. -/
theorem zero_concat (h : concat (Token.print zeroLibc .DEBUG zeroEvent) ts = some (37 :: v)) :
    ∃ ts', ts = .escape :: ts' ∧ concat (Token.print zeroLibc .DEBUG zeroEvent) ts' = some v := by
  cases ts with
  | nil => simp [concat] at h
  | cons t ts =>
    rw [concat, Option.map₂_eq_some_iff] at h
    obtain ⟨first, more, hfirst, hmore, heq⟩ := h
    have hitem : ∀ (i : Letter) (fmt : Text),
        i.print zeroLibc .DEBUG zeroEvent fmt ≠ some first := by
      intro i fmt hi
      obtain ⟨b, u, hprint, -, -, hb⟩ := zero_print i fmt
      rw [hprint, Option.some.injEq] at hi
      subst hi
      exact hb (List.cons.inj heq).1
    cases t with
    | literal b hb =>
      cases hfirst
      exact absurd (List.cons.inj heq).1 hb
    | escape =>
      cases hfirst
      exact ⟨ts, rfl, hmore.trans (congrArg some (List.cons.inj heq).2)⟩
    | bare i => exact absurd hfirst (hitem i [])
    | braced i fmt hfmt => exact absurd hfirst (hitem i fmt)

theorem starts_of_print {skip : Nat} {rest us : Text} {b : UInt8}
    (hs : s.print zeroLibc .DEBUG zeroEvent = some (w ++ b :: us))
    (hgood : (scanLoop skip rest s).bad = false)
    (hprint : (scanLoop skip rest s).print zeroLibc .DEBUG zeroEvent = some (w ++ v)) :
    ∃ v', v = b :: v' := by
  obtain ⟨w', hw', hle⟩ := (scanLoop_grows skip rest s).print hgood _ _ _ _ hprint
  rw [hs, Option.some.injEq] at hw'
  subst hw'
  obtain ⟨more, hmore⟩ := (List.prefix_append_right_inj w).mp hle
  exact ⟨us ++ more, hmore.symm⟩

/-- The scan is at the second sign of an escape and printed more signs than were meant: it never
falls back. -/
theorem scan_ahead (k : Nat)
    (hs : s.print zeroLibc .DEBUG zeroEvent = some (w ++ List.replicate (k + 1) 37))
    (hv : concat (Token.print zeroLibc .DEBUG zeroEvent) ts = some v)
    (hgood : (scanLoop 0 (37 :: text ts) s).bad = false) :
    (scanLoop 0 (37 :: text ts) s).print zeroLibc .DEBUG zeroEvent ≠ some (w ++ v) := by
  intro hprint
  induction ts generalizing s w v k with
  | nil =>
    obtain ⟨v, rfl⟩ := starts_of_print hs hgood hprint
    obtain ⟨ts', hts, -⟩ := zero_concat hv
    cases hts
  | cons t ts ih =>
    obtain ⟨v, rfl⟩ := starts_of_print hs hgood hprint
    obtain ⟨ts', hts, hv⟩ := zero_concat hv
    obtain ⟨rfl, rfl⟩ := List.cons.inj hts
    have hscan : scanLoop 0 (37 :: text (.escape :: ts)) s =
        scanLoop 0 (37 :: text ts) ((s.append 37).append 37) :=
      (scanLoop_percents s).trans (scanLoop_percents _)
    rw [hscan] at hgood hprint
    have hcount : List.replicate (k + 1) (37 : UInt8) ++ [37] ++ [37] =
        37 :: List.replicate (k + 1 + 1) 37 := by
      rw [← List.replicate_succ', ← List.replicate_succ', List.replicate_succ]
    have hs' : ((s.append 37).append 37).print zeroLibc .DEBUG zeroEvent =
        some ((w ++ [37]) ++ List.replicate (k + 1 + 1) 37) := by
      rw [Scan.print_append, Scan.print_append, hs, Option.map_some, Option.map_some,
        List.append_assoc, List.append_assoc, ← List.append_assoc (List.replicate _ _), hcount]
      simp
    exact ih (k + 1) hs' hv hgood (by simpa using hprint)

theorem print_of_text {b : UInt8} {rest : Text} (htext : text ts = b :: rest) (hb : b ≠ 37)
    (hv : concat (Token.print zeroLibc .DEBUG zeroEvent) ts = some v) : ∃ v', v = b :: v' := by
  cases ts with
  | nil => cases htext
  | cons t ts =>
    cases t with
    | literal c hc =>
      rw [concat, Option.map₂_eq_some_iff] at hv
      obtain ⟨first, more, hfirst, -, rfl⟩ := hv
      cases hfirst
      cases htext
      exact ⟨more, rfl⟩
    | escape => exact absurd (List.cons.inj htext).1.symm hb
    | bare i => exact absurd (List.cons.inj htext).1.symm hb
    | braced i fmt hfmt => exact absurd (List.cons.inj htext).1.symm hb

/-- A sign before a literal starts an item, whose name starts with the literal. -/
theorem scan_literal {b : UInt8} {rest : Text} (hb : b ≠ 37)
    (hs : s.print zeroLibc .DEBUG zeroEvent = some w)
    (hgood : (scanLoop 0 (37 :: b :: rest) s).bad = false) :
    (scanLoop 0 (37 :: b :: rest) s).print zeroLibc .DEBUG zeroEvent ≠ some (w ++ b :: v) := by
  intro hprint
  rw [scanLoop_item s (by simpa using hb)] at hgood hprint
  split at hgood
  case isTrue => exact absurd ((scanLoop_grows 0 _ _).bad rfl) (Bool.eq_false_iff.mp hgood)
  case isFalse hclosed =>
    rw [if_neg hclosed] at hprint
    by_cases hname : ∃ i : Letter, (scanName [] (b :: rest)).str = [i.byte]
    case neg =>
      push Not at hname
      exact absurd ((scanLoop_grows _ _ _).bad (bad_of_unknown s hname))
        (Bool.eq_false_iff.mp hgood)
    obtain ⟨i, hi⟩ := hname
    have hbyte : b = i.byte := by
      rcases scanName_cons_str b rest with hempty | hle
      · rw [hi] at hempty
        cases hempty
      · rw [hi] at hle
        exact (List.cons_prefix_cons.mp hle).1
    obtain ⟨c, u, -, hitem, hown, -⟩ := zero_print i (scanName [] (b :: rest)).fmt
    have hpush := s.print_push zeroLibc .DEBUG zeroEvent (scanName [] (b :: rest)).fmt
      i.lookup_byte
    rw [hs, hitem, Option.map₂_some_some, ← hi] at hpush
    obtain ⟨v', hv'⟩ := starts_of_print hpush hgood hprint
    rw [← hbyte] at hown
    exact hown (List.cons.inj hv').1.symm

/-- What starts at the second sign of an escape is not what was meant to follow the escape. -/
theorem scan_second (hs : s.print zeroLibc .DEBUG zeroEvent = some w)
    (hv : concat (Token.print zeroLibc .DEBUG zeroEvent) ts = some v)
    (hgood : (scanLoop 0 (37 :: text ts) s).bad = false) :
    (scanLoop 0 (37 :: text ts) s).print zeroLibc .DEBUG zeroEvent ≠ some (w ++ v) := by
  intro hprint
  cases htext : text ts with
  | nil =>
    have hbad := scan_badItem s (.bare [] [] (by simp) (by simp) (by simp) (by simp))
    rw [htext] at hgood
    exact absurd hbad (Bool.eq_false_iff.mp hgood)
  | cons b rest =>
    rw [htext] at hgood hprint
    by_cases hb : b = 37
    case neg =>
      obtain ⟨v', rfl⟩ := print_of_text htext hb hv
      exact scan_literal hb hs hgood hprint
    -- Another sign is printed at once, which is right only if this is an escape, too.
    subst hb
    have hs' : (s.append 37).print zeroLibc .DEBUG zeroEvent = some (w ++ [37]) := by
      rw [Scan.print_append, hs, Option.map_some]
    rw [scanLoop_percents] at hgood hprint
    obtain ⟨v', rfl⟩ := starts_of_print hs' hgood hprint
    obtain ⟨ts', rfl, hv'⟩ := zero_concat hv
    obtain rfl : 37 :: text ts' = rest := (List.cons.inj htext).2
    rw [scanLoop_percents] at hgood hprint
    have hs'' : ((s.append 37).append 37).print zeroLibc .DEBUG zeroEvent =
        some ((w ++ [37]) ++ List.replicate (0 + 1) 37) := by
      rw [Scan.print_append, hs', Option.map_some]
      rfl
    exact scan_ahead 0 hs'' hv' hgood (by simpa using hprint)

end Escapes

theorem concat_of_fits (libc : Libc) (level : LogLevel) (event : LogEvent) {ts : List Token}
    (h : ∀ t ∈ ts, t.Fits libc event) :
    ∃ w, concat (Token.print libc level event) ts = some w ∧
      concat (Token.format libc level event) ts = some w := by
  induction ts with
  | nil => exact ⟨[], rfl, rfl⟩
  | cons t ts ih =>
    obtain ⟨first, hprint, hformat⟩ :=
      t.format_of_fits libc level event (h t List.mem_cons_self)
    obtain ⟨more, hprints, hformats⟩ := ih fun t' ht' => h t' (List.mem_cons_of_mem t ht')
    exact ⟨first ++ more, by rw [concat, hprint, hprints, Option.map₂_some_some],
      by rw [concat, hformat, hformats, Option.map₂_some_some]⟩

theorem concat_of_not_fits (libc : Libc) (level : LogLevel) (event : LogEvent) {ts : List Token}
    {t : Token} (ht : t ∈ ts) (h : ¬ t.Fits libc event) :
    concat (Token.format libc level event) ts = none := by
  obtain ⟨before, after, rfl⟩ := List.append_of_mem ht
  rw [concat_append, concat, t.format_of_not_fits libc level event h, Option.map₂_none_left,
    Option.map₂_none_right]

theorem Separated.left {as bs : List Token} (h : Separated (as ++ bs)) : Separated as := by
  induction as with
  | nil => trivial
  | cons t as ih =>
    refine ⟨fun i hi b hb => h.1 i hi b ?_, ih h.2⟩
    change b ∈ (text (as ++ bs)).head?
    have htext : text (as ++ bs) = text as ++ text bs := List.flatMap_append
    rw [htext, List.head?_append, Option.mem_def.mp hb]
    rfl

namespace Pattern

variable (p : Pattern)

def text : Text := LogFormatter.text p.tokens

/-- The literals, a percent sign for each escape, and the texts of the items, in order. -/
def print (libc : Libc) (level : LogLevel) (event : LogEvent) : Option Text :=
  concat (Token.print libc level event) p.tokens

def DatesFit (libc : Libc) (event : LogEvent) : Prop := ∀ t ∈ p.tokens, t.Fits libc event

def Prints (libc : Libc) (level : LogLevel) (event : LogEvent) : Prop :=
  ∃ w, p.print libc level event = some w ∧ (new p.text).format libc level event = some w

/-- `init` reads the pattern as it is meant. It prints what it should for every event whose dates
fit into the buffer, and what follows the pattern is refused if it is no item. -/
structure AsMeant : Prop where
  no_error : isError p.text = false
  prints : ∀ libc level event, p.Prints libc level event ↔ p.DatesFit libc event
  refused : ∀ bad : BadItem, isError (p.text ++ bad.text) = true

theorem asMeant_of_not_escape (h : .escape ∉ p.tokens) : p.AsMeant := by
  have hscan : scanLoop 0 p.text .start = p.tokens.foldl Token.after .start := by
    rw [← List.append_nil p.text, text, scan_tokens .start p.separated h (by simp), scanLoop_nil]
  refine ⟨?_, ?_, ?_⟩
  · rw [isError_eq, hscan, bad_foldl_after, Scan.bad_start]
  · intro libc level event
    have hformat : (new p.text).format libc level event =
        concat (Token.format libc level event) p.tokens := by
      rw [format_new, hscan, print_foldl_after, Scan.print_start]
      simp
    unfold Prints print
    rw [hformat]
    constructor
    · rintro ⟨w, -, hw⟩ t ht
      by_contra hfits
      rw [concat_of_not_fits libc level event ht hfits] at hw
      cases hw
    · exact concat_of_fits libc level event
  · intro bad
    have hhead : ∀ b ∈ bad.text.head?, b = 37 := by
      cases bad <;> simp [BadItem.text]
    rw [isError_eq, text, scan_tokens .start p.separated h hhead]
    exact scan_badItem _ bad

theorem not_escape_of_asMeant (h : p.AsMeant) : .escape ∉ p.tokens := by
  intro hmem
  obtain ⟨pre, post, htokens, hpre⟩ := List.eq_append_cons_of_mem hmem
  have htext : p.text = LogFormatter.text pre ++ (37 :: 37 :: LogFormatter.text post) := by
    simp [text, LogFormatter.text, htokens, Token.text]
  have hsep : Separated pre := Separated.left (htokens ▸ p.separated)
  have hscan : scanLoop 0 p.text .start =
      scanLoop 0 (37 :: LogFormatter.text post) ((pre.foldl Token.after .start).append 37) := by
    rw [htext, scan_tokens .start hsep hpre (by simp), scanLoop_percents]
  obtain ⟨w, hw, hformat⟩ := (h.prints zeroLibc .DEBUG zeroEvent).mpr fun t _ => zero_fits t
  obtain ⟨u, hprint, hu⟩ :=
    concat_of_fits zeroLibc .DEBUG zeroEvent fun t (_ : t ∈ pre) => zero_fits t
  obtain ⟨v, hv, -⟩ :=
    concat_of_fits zeroLibc .DEBUG zeroEvent fun t (_ : t ∈ post) => zero_fits t
  have hs : ((pre.foldl Token.after .start).append 37).print zeroLibc .DEBUG zeroEvent =
      some (u ++ [37]) := by
    rw [Scan.print_append, print_foldl_after, Scan.print_start, hu]
    rfl
  rw [print, htokens, concat_append, hprint, concat, hv] at hw
  obtain rfl : u ++ ([37] ++ v) = w := Option.some.inj hw
  have hgood := h.no_error
  rw [isError_eq, hscan] at hgood
  rw [format_new, hscan, ← List.append_assoc] at hformat
  exact scan_second hs hv hgood hformat

/-- A pattern is read as it is meant exactly if there is no escape in it. -/
theorem asMeant_iff : p.AsMeant ↔ .escape ∉ p.tokens :=
  ⟨p.not_escape_of_asMeant, p.asMeant_of_not_escape⟩

end Pattern

/-- `%%` is refused, and what it prints is not a percent sign. -/
theorem percents_refused :
    text [.escape] = .ofChars ['%', '%'] ∧ isError (text [.escape]) = true ∧
    ∀ libc level event,
      concat (Token.print libc level event) [.escape] = some (.ofChars ['%']) ∧
      (new (text [.escape])).format libc level event =
        some (.ofChars ['%', '<', '<', 'e', 'r', 'r', 'o', 'r', '_', 'f', 'o', 'r', 'm', 'a', 't',
          ' ', '%', '>', '>']) :=
  ⟨by decide, by decide, fun _ _ _ => ⟨rfl, rfl⟩⟩

end Sylar.LogFormatter
