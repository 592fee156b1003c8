import Mathlib.Data.Option.NAry
import Sylar.Lib.Numerals
import Sylar.Log.Define

/-! `LogFormatter` of `sylar/log.cc`: `init` cuts a pattern into pieces and makes an item of
each, and `format` prints the items for an event. -/
namespace Sylar

open Lib.Numerals

structure LogEvent where
  file : Text
  line : Int32
  elapse : UInt32
  threadId : Int32
  fiberId : UInt32
  time : UInt64
  threadName : Text
  content : Text
  loggerName : Text

/-- The calls for a date, in some locale and time zone. `localtime_r` fails for a year out of
range, and `strftime` gives the whole text of a format, which it reads up to a first null. -/
structure Libc where
  Tm : Type
  localtime : Int64 → Option Tm
  strftime : Text → Tm → Text

inductive FormatItem where
  | message | level | elapse | name | threadId | newLine
  | dateTime (format : Text)
  | fileName | line | fiberId | tab | threadName
  | string (str : Text)
  deriving DecidableEq, Repr

namespace FormatItem

def defaultFormat : Text :=
  .ofChars ['%', 'Y', '-', '%', 'm', '-', '%', 'd', ' ', '%', 'H', ':', '%', 'M', ':', '%', 'S']

/-- `m_format` as the constructor of `DateTimeFormatItem` sets it. -/
def dateFormat (format : Text) : Text := if format.isEmpty then defaultFormat else format

def printInt (n : Int) : Text := if n < 0 then 45 :: decimal n.natAbs else decimal n.natAbs

/-- Nothing where the characters of `buf` are not determined: `localtime_r` failed, or the date and
its null do not fit into the 64 bytes. -/
def format (libc : Libc) (level : LogLevel) (event : LogEvent) : FormatItem → Option Text
  | .message => some event.content
  | .level => some level.toString
  | .elapse => some (decimal event.elapse.toNat)
  | .name => some event.loggerName
  | .threadId => some (printInt event.threadId.toInt)
  | .newLine => some [10]
  | .dateTime format => do
    let tm ← libc.localtime event.time.toInt64
    let buf := libc.strftime format tm
    if buf.length < 64 then return buf else none
  | .fileName => some event.file
  | .line => some (printInt event.line.toInt)
  | .fiberId => some (decimal event.fiberId.toNat)
  | .tab => some [9]
  | .threadName => some event.threadName
  | .string str => some str

def formatItems : List (Text × (Text → FormatItem)) :=
  [(.ofChars ['m'], fun _ => .message),
   (.ofChars ['p'], fun _ => .level),
   (.ofChars ['r'], fun _ => .elapse),
   (.ofChars ['c'], fun _ => .name),
   (.ofChars ['t'], fun _ => .threadId),
   (.ofChars ['n'], fun _ => .newLine),
   (.ofChars ['d'], fun fmt => .dateTime (dateFormat fmt)),
   (.ofChars ['f'], fun _ => .fileName),
   (.ofChars ['l'], fun _ => .line),
   (.ofChars ['F'], fun _ => .fiberId),
   (.ofChars ['T'], fun _ => .tab),
   (.ofChars ['N'], fun _ => .threadName)]

end FormatItem

structure LogFormatter where
  pattern : Text
  items : List FormatItem
  error : Bool
  deriving DecidableEq, Repr

namespace LogFormatter

def isalpha (b : UInt8) : Bool := (65 ≤ b && b ≤ 90) || (97 ≤ b && b ≤ 122)

/-- What ends the name of an item: neither a letter nor one of the braces. -/
def endsName (b : UInt8) : Bool := !isalpha b && b != 123 && b != 125

/-- A tuple of `vec`; the third component tells an item from a text. -/
structure Piece where
  str : Text
  fmt : Text
  isItem : Bool
  deriving DecidableEq, Repr

/-- The variables of `init` after the inner loop: `inFmt` is `fmt_status == 1`, and `rest` is the
pattern from `n` on. -/
structure ItemScan where
  str : Text
  fmt : Text
  inFmt : Bool
  rest : Text

/-- The inner loop with `fmt_status == 1`; `fmt` is the part of the format passed so far, which is
assigned at the closing brace. -/
def scanFmt (str : Text) : Text → Text → ItemScan
  | _, [] => ⟨str, [], true, []⟩
  | fmt, b :: bs => if b = 125 then ⟨str, fmt, false, bs⟩ else scanFmt str (fmt ++ [b]) bs

/-- The inner loop with `fmt_status == 0`; `str` is the part of the name passed so far. A closing
brace belongs to the name. -/
def scanName : Text → Text → ItemScan
  | str, [] => ⟨str, [], false, []⟩
  | str, b :: bs =>
    if endsName b then ⟨str, [], false, b :: bs⟩
    else if b = 123 then scanFmt str [] bs
    else scanName (str ++ [b]) bs

structure Scan where
  nstr : Text
  vec : List Piece
  error : Bool
  deriving DecidableEq, Repr

namespace Scan

def start : Scan := ⟨[], [], false⟩

def append (s : Scan) (b : UInt8) : Scan := { s with nstr := s.nstr ++ [b] }

def flushed (s : Scan) : List Piece :=
  if s.nstr.isEmpty then s.vec else s.vec ++ [⟨s.nstr, [], false⟩]

def push (s : Scan) (str fmt : Text) : Scan := ⟨[], s.flushed ++ [⟨str, fmt, true⟩], s.error⟩

/-- An opening brace without a closing one; `nstr` stays where it is. -/
def fail (s : Scan) (fmt : Text) : Scan :=
  { s with
    vec := s.vec ++ [⟨.ofChars ['<', '<', 'p', 'a', 't', 't', 'e', 'r', 'n', '_', 'e', 'r', 'r',
      'o', 'r', '>', '>'], fmt, false⟩]
    error := true }

end Scan

/-- The outer loop over the rest of the pattern. `skip` characters of it were consumed by the last
item. -/
def scanLoop : Nat → Text → Scan → Scan
  | _, [], s => s
  | skip + 1, _ :: bs, s => scanLoop skip bs s
  | 0, b :: bs, s =>
    if b ≠ 37 then scanLoop 0 bs (s.append b)
    -- The second of two percent signs is not consumed.
    else if bs.head? = some 37 then scanLoop 0 bs (s.append 37)
    else
      let it := scanName [] bs
      if it.inFmt then scanLoop 0 bs (s.fail it.fmt)
      else scanLoop (bs.length - it.rest.length) bs (s.push it.str it.fmt)

/-- The item that the last loop of `init` makes of a tuple, and whether it sets `m_error`. -/
def Piece.make (i : Piece) : FormatItem × Bool :=
  if i.isItem then
    match FormatItem.formatItems.lookup i.str with
    | none =>
      (.string (.ofChars ['<', '<', 'e', 'r', 'r', 'o', 'r', '_', 'f', 'o', 'r', 'm', 'a', 't', ' ',
        '%'] ++ i.str ++ .ofChars ['>', '>']), true)
    | some make => (make i.fmt, false)
  else (.string i.str, false)

def addItem (f : LogFormatter) (i : Piece) : LogFormatter :=
  { f with items := f.items ++ [i.make.1], error := f.error || i.make.2 }

def new (pattern : Text) : LogFormatter :=
  let s := scanLoop 0 pattern .start
  s.flushed.foldl addItem ⟨pattern, [], s.error⟩

def isError (pattern : Text) : Bool := (new pattern).error

def format (f : LogFormatter) (libc : Libc) (level : LogLevel) (event : LogEvent) : Option Text :=
  f.items.foldlM (fun os i => do return os ++ (← i.format libc level event)) []

section Printing

variable {α : Type}

/-- Texts one after the other, if all of them are there. -/
def concat (f : α → Option Text) : List α → Option Text
  | [] => some []
  | a :: as => Option.map₂ (· ++ ·) (f a) (concat f as)

@[simp] theorem concat_append (f : α → Option Text) (as bs : List α) :
    concat f (as ++ bs) = Option.map₂ (· ++ ·) (concat f as) (concat f bs) := by
  induction as with
  | nil => simp [concat]
  | cons a as ih =>
    rw [List.cons_append, concat, ih, concat, Option.map₂_assoc]
    exact List.append_assoc

theorem concat_map {β : Type} (f : α → Option Text) (g : β → α) (bs : List β) :
    concat f (bs.map g) = concat (fun b => f (g b)) bs := by
  induction bs with
  | nil => rfl
  | cons b bs ih => rw [List.map_cons, concat, ih, concat]

variable (libc : Libc) (level : LogLevel) (event : LogEvent)

theorem foldlM_format (items : List FormatItem) (os : Text) :
    items.foldlM (fun os i => do return os ++ (← i.format libc level event)) os =
      (concat (FormatItem.format libc level event) items).map (os ++ ·) := by
  induction items generalizing os with
  | nil => simp [concat]
  | cons i items ih =>
    rw [List.foldlM_cons, concat]
    cases i.format libc level event with
    | none => rfl
    | some w =>
      have h := ih (os ++ w)
      cases hc : concat (FormatItem.format libc level event) items with
      | none => simpa [hc] using h
      | some v => simpa [hc] using h

end Printing

theorem foldl_addItem (vec : List Piece) (f : LogFormatter) :
    vec.foldl addItem f =
      { f with
        items := f.items ++ vec.map (·.make.1)
        error := f.error || vec.any (·.make.2) } := by
  induction vec generalizing f with
  | nil => simp
  | cons i vec ih => simp [ih, addItem, Bool.or_assoc]

namespace Scan

/-- An error was found, or will be when the items are made. -/
def bad (s : Scan) : Bool := s.error || s.vec.any (·.make.2)

def print (libc : Libc) (level : LogLevel) (event : LogEvent) (s : Scan) : Option Text :=
  (concat (fun i => i.make.1.format libc level event) s.vec).map (· ++ s.nstr)

variable (s : Scan) (libc : Libc) (level : LogLevel) (event : LogEvent)

@[simp] theorem bad_start : start.bad = false := rfl

@[simp] theorem print_start : start.print libc level event = some [] := rfl

theorem any_flushed : s.flushed.any (·.make.2) = s.vec.any (·.make.2) := by
  unfold flushed
  split
  · rfl
  · simp [Piece.make]

theorem concat_flushed :
    concat (fun i => i.make.1.format libc level event) s.flushed = s.print libc level event := by
  unfold flushed print
  split
  case isTrue hempty => simp [List.isEmpty_iff.mp hempty]
  case isFalse =>
    rw [concat_append]
    simp [concat, Piece.make, FormatItem.format]

@[simp] theorem bad_append (b : UInt8) : (s.append b).bad = s.bad := rfl

@[simp] theorem print_append (b : UInt8) :
    (s.append b).print libc level event = (s.print libc level event).map (· ++ [b]) := by
  simp [print, append, Function.comp_def]

@[simp] theorem bad_push (str fmt : Text) :
    (s.push str fmt).bad = (s.bad || (FormatItem.formatItems.lookup str).isNone) := by
  have hmake : (Piece.make ⟨str, fmt, true⟩).2 = (FormatItem.formatItems.lookup str).isNone := by
    unfold Piece.make
    rw [if_pos rfl]
    cases FormatItem.formatItems.lookup str <;> rfl
  simp [bad, push, any_flushed, hmake, Bool.or_assoc]

theorem print_push {str : Text} {make : Text → FormatItem} (fmt : Text)
    (h : FormatItem.formatItems.lookup str = some make) :
    (s.push str fmt).print libc level event =
      Option.map₂ (· ++ ·) (s.print libc level event) ((make fmt).format libc level event) := by
  have hmake : Piece.make ⟨str, fmt, true⟩ = (make fmt, false) := by
    unfold Piece.make
    rw [if_pos rfl, h]
  rw [print, push, concat_append, concat_flushed, concat, hmake]
  simp [concat]

@[simp] theorem bad_fail (fmt : Text) : (s.fail fmt).bad = true := rfl

end Scan

theorem isError_eq (pattern : Text) : isError pattern = (scanLoop 0 pattern .start).bad := by
  unfold isError new
  rw [foldl_addItem]
  simp [Scan.any_flushed, Scan.bad]

theorem format_new (pattern : Text) (libc : Libc) (level : LogLevel) (event : LogEvent) :
    (new pattern).format libc level event =
      (scanLoop 0 pattern .start).print libc level event := by
  unfold format new
  rw [foldl_addItem, foldlM_format, ← Scan.concat_flushed]
  simp [concat_map]

section Loop

variable {str fmt name rest : Text} {b : UInt8} (s : Scan)

@[simp] theorem scanLoop_nil (skip : Nat) : scanLoop skip [] s = s := by
  cases skip <;> rfl

theorem scanLoop_skip (passed rest : Text) :
    scanLoop passed.length (passed ++ rest) s = scanLoop 0 rest s := by
  induction passed with
  | nil => rfl
  | cons b passed ih => exact ih

theorem scanLoop_append (h : b ≠ 37) : scanLoop 0 (b :: rest) s = scanLoop 0 rest (s.append b) := by
  rw [scanLoop, if_pos h]

theorem scanLoop_percents :
    scanLoop 0 (37 :: 37 :: rest) s = scanLoop 0 (37 :: rest) (s.append 37) := by
  rw [scanLoop, if_neg (by simp), if_pos List.head?_cons]

theorem scanLoop_item (hhead : rest.head? ≠ some 37) :
    scanLoop 0 (37 :: rest) s =
      if (scanName [] rest).inFmt then scanLoop 0 rest (s.fail (scanName [] rest).fmt)
      else scanLoop (rest.length - (scanName [] rest).rest.length) rest
        (s.push (scanName [] rest).str (scanName [] rest).fmt) := by
  rw [scanLoop, if_neg (by simp), if_neg hhead]

theorem scanLoop_push {passed : Text} (hhead : (passed ++ rest).head? ≠ some 37)
    (hit : scanName [] (passed ++ rest) = ⟨str, fmt, false, rest⟩) :
    scanLoop 0 (37 :: (passed ++ rest)) s = scanLoop 0 rest (s.push str fmt) := by
  rw [scanLoop_item s hhead, hit, if_neg (by simp), List.length_append, Nat.add_sub_cancel,
    scanLoop_skip]

@[simp] theorem scanFmt_str (str passed rest : Text) : (scanFmt str passed rest).str = str := by
  induction rest generalizing passed with
  | nil => rfl
  | cons b rest ih =>
    unfold scanFmt
    split
    · rfl
    · exact ih _

theorem scanName_str (passed rest : Text) : passed <+: (scanName passed rest).str := by
  induction rest generalizing passed with
  | nil => exact List.prefix_rfl
  | cons b rest ih =>
    unfold scanName
    split
    · exact List.prefix_rfl
    split
    · simp
    · exact (List.prefix_append passed [b]).trans (ih _)

theorem scanName_cons_str (b : UInt8) (rest : Text) :
    (scanName [] (b :: rest)).str = [] ∨ [b] <+: (scanName [] (b :: rest)).str := by
  unfold scanName
  split
  · exact .inl rfl
  split
  · exact .inl (scanFmt_str [] [] rest)
  · exact .inr (scanName_str [b] rest)

theorem scanFmt_closed (h : 125 ∉ fmt) (passed : Text) :
    scanFmt str passed (fmt ++ 125 :: rest) = ⟨str, passed ++ fmt, false, rest⟩ := by
  induction fmt generalizing passed with
  | nil => simp [scanFmt]
  | cons b fmt ih =>
    have hb : b ≠ 125 := fun hb => h (by simp [hb])
    rw [List.cons_append, scanFmt, if_neg hb, ih fun hmem => h (List.mem_cons_of_mem b hmem)]
    simp

theorem scanFmt_unclosed (h : 125 ∉ fmt) (passed : Text) :
    scanFmt str passed fmt = ⟨str, [], true, []⟩ := by
  induction fmt generalizing passed with
  | nil => rfl
  | cons b fmt ih =>
    have hb : b ≠ 125 := fun hb => h (by simp [hb])
    rw [scanFmt, if_neg hb, ih fun hmem => h (List.mem_cons_of_mem b hmem)]

/-- A letter, or the closing brace that the scan takes for one. -/
def inName (b : UInt8) : Bool := isalpha b || b == 125

theorem inName_spec : ∀ b, inName b = true → endsName b = false ∧ b ≠ 123 ∧ b ≠ 37 :=
  forall_byte (by decide +kernel)

theorem scanName_passed (h : ∀ b ∈ name, inName b = true) (passed : Text) :
    scanName passed (name ++ rest) = scanName (passed ++ name) rest := by
  induction name generalizing passed with
  | nil => simp
  | cons b name ih =>
    obtain ⟨hname, hb, -⟩ := inName_spec b (h b List.mem_cons_self)
    rw [List.cons_append, scanName, if_neg (by simp [hname]), if_neg hb,
      ih fun c hc => h c (List.mem_cons_of_mem b hc)]
    simp

theorem scanName_stop (h : ∀ b ∈ rest.head?, endsName b = true) :
    scanName name rest = ⟨name, [], false, rest⟩ := by
  cases rest with
  | nil => rfl
  | cons b rest => rw [scanName, if_pos (h b rfl)]

theorem scanName_brace : scanName name (123 :: rest) = scanFmt name [] rest := by
  rw [scanName, if_neg (by decide), if_pos rfl]

end Loop

/-- What the loop does to its variables: an error stays, and without one the text grows. -/
structure Scan.Grows (s s' : Scan) : Prop where
  bad : s.bad = true → s'.bad = true
  print : s'.bad = false → ∀ libc level event w', s'.print libc level event = some w' →
    ∃ w, s.print libc level event = some w ∧ w <+: w'

namespace Scan.Grows

variable {s s' s'' : Scan}

theorem refl (s : Scan) : s.Grows s := ⟨id, fun _ _ _ _ w h => ⟨w, h, List.prefix_rfl⟩⟩

theorem trans (h : s.Grows s') (h' : s'.Grows s'') : s.Grows s'' := by
  refine ⟨fun hbad => h'.bad (h.bad hbad), ?_⟩
  intro hgood libc level event w'' hw''
  have hgood' : s'.bad = false := by
    cases hbad : s'.bad with
    | false => rfl
    | true => exact absurd (h'.bad hbad) (by simp [hgood])
  obtain ⟨w', hw', hle'⟩ := h'.print hgood libc level event w'' hw''
  obtain ⟨w, hw, hle⟩ := h.print hgood' libc level event w' hw'
  exact ⟨w, hw, hle.trans hle'⟩

theorem append (s : Scan) (b : UInt8) : s.Grows (s.append b) := by
  refine ⟨id, ?_⟩
  intro _ libc level event w' hw'
  rw [print_append] at hw'
  obtain ⟨w, hw, rfl⟩ := Option.map_eq_some_iff.mp hw'
  exact ⟨w, hw, List.prefix_append w [b]⟩

theorem push (s : Scan) (str fmt : Text) : s.Grows (s.push str fmt) := by
  refine ⟨fun hbad => by simp [hbad], ?_⟩
  intro hgood libc level event w' hw'
  rw [bad_push, Bool.or_eq_false_iff] at hgood
  cases hmake : FormatItem.formatItems.lookup str with
  | none => simp [hmake] at hgood
  | some make =>
    rw [print_push s libc level event fmt hmake, Option.map₂_eq_some_iff] at hw'
    obtain ⟨w, v, hw, -, rfl⟩ := hw'
    exact ⟨w, hw, List.prefix_append w v⟩

theorem fail (s : Scan) (fmt : Text) : s.Grows (s.fail fmt) :=
  ⟨fun _ => rfl, fun hgood => by simp at hgood⟩

end Scan.Grows

theorem scanLoop_cons (skip : Nat) (b : UInt8) (bs : Text) (s : Scan) :
    ∃ skip' s', scanLoop skip (b :: bs) s = scanLoop skip' bs s' ∧ s.Grows s' := by
  cases skip with
  | succ skip => exact ⟨skip, s, rfl, .refl s⟩
  | zero =>
    by_cases hb : b = 37
    case neg => exact ⟨0, _, scanLoop_append s hb, .append s b⟩
    subst hb
    by_cases hhead : bs.head? = some 37
    case pos => exact ⟨0, _, by rw [scanLoop, if_neg (by simp), if_pos hhead], .append s 37⟩
    rw [scanLoop_item s hhead]
    split
    · exact ⟨0, _, rfl, .fail s _⟩
    · exact ⟨_, _, rfl, .push s _ _⟩

theorem scanLoop_grows (skip : Nat) (text : Text) (s : Scan) :
    s.Grows (scanLoop skip text s) := by
  induction text generalizing skip s with
  | nil =>
    rw [scanLoop_nil]
    exact .refl s
  | cons b bs ih =>
    obtain ⟨skip', s', hstep, hgrows⟩ := scanLoop_cons skip b bs s
    rw [hstep]
    exact hgrows.trans (ih skip' s')

end LogFormatter

end Sylar
