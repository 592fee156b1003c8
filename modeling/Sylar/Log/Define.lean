import Sylar.Lib.OrderedSet
import Sylar.Lib.Run
import Sylar.Log.Basic

/-! The definitions of loggers in the configuration variable `logs`, and their two
conversions: a set to a YAML document and back. -/
namespace Sylar

open Lib

namespace LogLevel

def toString : LogLevel → Text
  | .DEBUG => .ofChars ['D', 'E', 'B', 'U', 'G']
  | .INFO => .ofChars ['I', 'N', 'F', 'O']
  | .WARN => .ofChars ['W', 'A', 'R', 'N']
  | .ERROR => .ofChars ['E', 'R', 'R', 'O', 'R']
  | .FATAL => .ofChars ['F', 'A', 'T', 'A', 'L']
  | .UNKNOW | .outside _ => .ofChars ['U', 'N', 'K', 'N', 'O', 'W']

def fromString (str : Text) : LogLevel :=
  if str = .ofChars ['d', 'e', 'b', 'u', 'g'] then .DEBUG
  else if str = .ofChars ['i', 'n', 'f', 'o'] then .INFO
  else if str = .ofChars ['w', 'a', 'r', 'n'] then .WARN
  else if str = .ofChars ['e', 'r', 'r', 'o', 'r'] then .ERROR
  else if str = .ofChars ['f', 'a', 't', 'a', 'l'] then .FATAL
  else if str = .ofChars ['D', 'E', 'B', 'U', 'G'] then .DEBUG
  else if str = .ofChars ['I', 'N', 'F', 'O'] then .INFO
  else if str = .ofChars ['W', 'A', 'R', 'N'] then .WARN
  else if str = .ofChars ['E', 'R', 'R', 'O', 'R'] then .ERROR
  else if str = .ofChars ['F', 'A', 'T', 'A', 'L'] then .FATAL
  else .UNKNOW

def Known (level : LogLevel) : Prop := ∀ n, level ≠ .outside n

theorem fromString_toString {level : LogLevel} (h : level.Known) :
    fromString level.toString = level := by
  cases level with
  | outside n => exact absurd rfl (h n)
  | _ => rfl

end LogLevel

structure LogAppenderDefine where
  type : Int
  level : LogLevel
  formatter : Text
  file : Text
  deriving DecidableEq

structure LogDefine where
  name : Text
  level : LogLevel
  formatter : Text
  appenders : List LogAppenderDefine
  deriving DecidableEq

namespace LogDefine

def less (a b : LogDefine) : Bool := a.name < b.name

/-- A `std::set<LogDefine>`: the elements in the order of their names. -/
def IsSet (v : List LogDefine) : Prop := v.Pairwise fun a b => less a b = true

section Keys

def name' : Text := .ofChars ['n', 'a', 'm', 'e']
def level' : Text := .ofChars ['l', 'e', 'v', 'e', 'l']
def formatter' : Text := .ofChars ['f', 'o', 'r', 'm', 'a', 't', 't', 'e', 'r']
def appenders' : Text := .ofChars ['a', 'p', 'p', 'e', 'n', 'd', 'e', 'r', 's']
def type' : Text := .ofChars ['t', 'y', 'p', 'e']
def file' : Text := .ofChars ['f', 'i', 'l', 'e']
def fileLogAppender : Text :=
  .ofChars ['F', 'i', 'l', 'e', 'L', 'o', 'g', 'A', 'p', 'p', 'e', 'n', 'd', 'e', 'r']
def stdoutLogAppender : Text :=
  .ofChars ['S', 't', 'd', 'o', 'u', 't', 'L', 'o', 'g', 'A', 'p', 'p', 'e', 'n', 'd', 'e', 'r']

end Keys

/-- The entries for a level that is known and a formatter that is not empty. -/
def optional (level : LogLevel) (formatter : Text) : List (Text × Yaml) :=
  (if level ≠ .UNKNOW then [(level', .scalar level.toString)] else []) ++
    if !formatter.isEmpty then [(formatter', .scalar formatter)] else []

def encodeAppender (a : LogAppenderDefine) : Yaml :=
  .build ((if a.type = 1 then [(type', .scalar fileLogAppender), (file', .scalar a.file)]
    else if a.type = 2 then [(type', .scalar stdoutLogAppender)] else []) ++
    optional a.level a.formatter)

def encodeDefine (i : LogDefine) : Yaml :=
  .build ([(name', .scalar i.name)] ++ optional i.level i.formatter ++
    if i.appenders.isEmpty then [] else [(appenders', .seq (i.appenders.map encodeAppender))])

/-- `LexicalCast<std::set<LogDefine>, std::string>`, up to the text. -/
def encode (v : List LogDefine) : Yaml :=
  if v.isEmpty then .null else .seq (v.map encodeDefine)

/-- One pass of the inner loop; `none` is an appender that is skipped. The level of an
appender is not read. -/
def decodeAppender (a : Yaml) : Except Yaml.Fault (Option LogAppenderDefine) := do
  match ← a.get type' with
  | none => .ok none
  | some node =>
    let type ← node.asString
    if type = fileLogAppender then
      match ← a.get file' with
      | none => .ok none
      | some node =>
        let file ← node.asString
        let formatter ← a.textOr formatter' []
        .ok (some { type := 1, level := .UNKNOW, formatter, file })
    else if type = stdoutLogAppender then
      .ok (some { type := 2, level := .UNKNOW, formatter := [], file := [] })
    else
      .ok none

def decodeDefine (n : Yaml) : Except Yaml.Fault (Option LogDefine) := do
  match ← n.get name' with
  | none => .ok none
  | some node =>
    let name ← node.asString
    let level ← n.textOr level' []
    let formatter ← n.textOr formatter' []
    let items ← n.elementsAt appenders'
    let appenders ← items.mapM decodeAppender
    .ok (some { name, level := .fromString level, formatter, appenders := appenders.reduceOption })

/-- `LexicalCast<std::string, std::set<LogDefine>>`, from the document. -/
def decode (node : Yaml) : Except Yaml.Fault (List LogDefine) := do
  let items ← node.elements
  let lds ← items.mapM decodeDefine
  .ok (lds.reduceOption.foldl (fun vec ld => (OrderedSet.insert less ld vec).1) [])

variable {level : LogLevel} {formatter : Text} {a : LogAppenderDefine} {i : LogDefine}

theorem lookup_formatter_optional :
    (optional level formatter).lookup formatter' =
      if formatter.isEmpty then none else some (.scalar formatter) := by
  unfold optional
  by_cases hlevel : level = .UNKNOW <;> cases formatter.isEmpty <;>
    simp [hlevel, List.lookup_cons, show (formatter' == level') = false by decide]

theorem lookup_level_optional :
    (optional level formatter).lookup level' =
      if level = .UNKNOW then none else some (.scalar level.toString) := by
  unfold optional
  by_cases hlevel : level = .UNKNOW <;> cases formatter.isEmpty <;>
    simp [hlevel, List.lookup_cons, show (level' == formatter') = false by decide]

theorem lookup_appenders_optional : (optional level formatter).lookup appenders' = none := by
  unfold optional
  by_cases hlevel : level = .UNKNOW <;> cases formatter.isEmpty <;>
    simp [hlevel, List.lookup_cons, show (appenders' == level') = false by decide,
      show (appenders' == formatter') = false by decide]

theorem textOr_formatter {entries : List (Text × Yaml)}
    (h : entries.lookup formatter' =
      if formatter.isEmpty then none else some (.scalar formatter)) :
    (Yaml.map entries).textOr formatter' [] = .ok formatter := by
  unfold Yaml.textOr
  simp only [Yaml.get, h]
  cases formatter with
  | nil => rfl
  | cons x formatter => rfl

def keptAppender (a : LogAppenderDefine) : LogAppenderDefine :=
  if a.type = 1 then { type := 1, level := .UNKNOW, formatter := a.formatter, file := a.file }
  else { type := 2, level := .UNKNOW, formatter := [], file := [] }

theorem decodeAppender_encodeAppender (h : a.type = 1 ∨ a.type = 2) :
    decodeAppender (encodeAppender a) = .ok (some (keptAppender a)) := by
  rcases h with htype | htype
  · have hencode : encodeAppender a = .map ([(type', .scalar fileLogAppender),
        (file', .scalar a.file)] ++ optional a.level a.formatter) := by
      rw [encodeAppender, if_pos htype]
      rfl
    have hgetType : (encodeAppender a).get type' = .ok (some (.scalar fileLogAppender)) := by
      rw [hencode]
      rfl
    have hgetFile : (encodeAppender a).get file' = .ok (some (.scalar a.file)) := by
      rw [hencode]
      rfl
    have hformatter : (encodeAppender a).textOr formatter' [] = .ok a.formatter := by
      rw [hencode]
      apply textOr_formatter
      rw [List.lookup_append, lookup_formatter_optional]
      rfl
    simp only [decodeAppender, hgetType, hgetFile, hformatter, Yaml.asString, ok_bind,
      if_true, keptAppender, htype]
  · have hother : ¬ a.type = 1 := by omega
    have hencode : encodeAppender a =
        .map ([(type', .scalar stdoutLogAppender)] ++ optional a.level a.formatter) := by
      rw [encodeAppender, if_neg hother, if_pos htype]
      rfl
    have hgetType : (encodeAppender a).get type' = .ok (some (.scalar stdoutLogAppender)) := by
      rw [hencode]
      rfl
    have hne : stdoutLogAppender ≠ fileLogAppender := by decide
    simp only [decodeAppender, hgetType, Yaml.asString, ok_bind, if_neg hne,
      if_true, keptAppender, if_neg hother]

def keptDefine (i : LogDefine) : LogDefine :=
  { i with appenders := i.appenders.map keptAppender }

theorem decodeDefine_encodeDefine (hlevel : i.level.Known)
    (htype : ∀ a ∈ i.appenders, a.type = 1 ∨ a.type = 2) :
    decodeDefine (encodeDefine i) = .ok (some (keptDefine i)) := by
  have hencode : encodeDefine i = .map ([(name', .scalar i.name)] ++
      optional i.level i.formatter ++ if i.appenders.isEmpty then []
        else [(appenders', .seq (i.appenders.map encodeAppender))]) := rfl
  have hgetName : (encodeDefine i).get name' = .ok (some (.scalar i.name)) := by
    rw [hencode]
    rfl
  have hskip (key : Text) (hname : (key == name') = false) (hlast : (key == appenders') = false) :
      (encodeDefine i).get key = .ok ((optional i.level i.formatter).lookup key) := by
    rw [hencode, Yaml.get, List.lookup_append, List.lookup_append]
    cases i.appenders.isEmpty <;> simp [List.lookup_cons, hname, hlast]
  have hgetLevel : (encodeDefine i).textOr level' [] =
      .ok (if i.level = .UNKNOW then [] else i.level.toString) := by
    rw [Yaml.textOr, hskip level' (by decide) (by decide), lookup_level_optional]
    by_cases hunknow : i.level = .UNKNOW <;> simp [hunknow, ok_bind, Yaml.asString]
  have hformatter : (encodeDefine i).textOr formatter' [] = .ok i.formatter := by
    rw [Yaml.textOr, hskip formatter' (by decide) (by decide), lookup_formatter_optional]
    cases i.formatter <;> simp [ok_bind, Yaml.asString]
  have hitems : (encodeDefine i).elementsAt appenders' =
      .ok (i.appenders.map encodeAppender) := by
    rw [Yaml.elementsAt, hencode, Yaml.get, List.lookup_append, List.lookup_append,
      lookup_appenders_optional]
    cases i.appenders <;> rfl
  have hdecoded : (i.appenders.map encodeAppender).mapM decodeAppender =
      .ok (i.appenders.map fun a => some (keptAppender a)) := by
    rw [List.mapM_map]
    exact mapM_eq_ok fun a ha => decodeAppender_encodeAppender (htype a ha)
  have hlevelBack : LogLevel.fromString (if i.level = .UNKNOW then [] else i.level.toString) =
      i.level := by
    by_cases hunknow : i.level = .UNKNOW
    · rw [if_pos hunknow, hunknow]
      rfl
    · rw [if_neg hunknow, LogLevel.fromString_toString hlevel]
  have hreduce : (i.appenders.map fun a => some (keptAppender a)).reduceOption =
      i.appenders.map keptAppender := by
    change List.filterMap id _ = _
    simp
  simp only [decodeDefine, hgetName, hgetLevel, hformatter, hitems, hdecoded, hlevelBack, hreduce,
    Yaml.asString, ok_bind]
  rfl

theorem decode_encode {v : List LogDefine} (hset : IsSet v) (hlevel : ∀ i ∈ v, i.level.Known)
    (htype : ∀ i ∈ v, ∀ a ∈ i.appenders, a.type = 1 ∨ a.type = 2) :
    decode (encode v) = .ok (v.map keptDefine) := by
  have hitems : (encode v).elements = .ok (v.map encodeDefine) := by
    cases v <;> rfl
  have hdecoded : (v.map encodeDefine).mapM decodeDefine =
      .ok (v.map fun i => some (keptDefine i)) := by
    rw [List.mapM_map]
    exact mapM_eq_ok fun i hi => decodeDefine_encodeDefine (hlevel i hi) (htype i hi)
  have hreduce : (v.map fun i => some (keptDefine i)).reduceOption = v.map keptDefine := by
    change List.filterMap id _ = _
    simp
  have hordered : (v.map keptDefine).Pairwise fun a b => less a b = true := by
    rw [List.pairwise_map]
    exact hset
  rw [decode, hitems, ok_bind, hdecoded, ok_bind, hreduce, OrderedSet.foldl_insert hordered]

theorem keptAppender_eq_iff (h : a.type = 1 ∨ a.type = 2) :
    keptAppender a = a ↔ a.level = .UNKNOW ∧ (a.type = 2 → a.formatter = [] ∧ a.file = []) := by
  obtain ⟨type, level, formatter, file⟩ := a
  rcases h with htype | htype
  · obtain rfl : type = 1 := htype
    simp [keptAppender, eq_comm]
  · obtain rfl : type = 2 := htype
    simp [keptAppender, eq_comm]

theorem map_eq_self_iff {α : Type} {f : α → α} {l : List α} :
    l.map f = l ↔ ∀ x ∈ l, f x = x := by
  have h := List.map_eq_map_iff (f := f) (g := id) (l := l)
  rwa [List.map_id] at h

theorem keptDefine_eq_iff : keptDefine i = i ↔ ∀ a ∈ i.appenders, keptAppender a = a := by
  obtain ⟨name, level, formatter, appenders⟩ := i
  simp only [keptDefine, mk.injEq, true_and]
  rw [map_eq_self_iff]

/-- A set of definitions comes back equal if and only if no appender has a level and no
appender to the console has a formatter or a file: neither is written and read. -/
theorem decode_encode_iff (v : List LogDefine) (hset : IsSet v)
    (hlevel : ∀ i ∈ v, i.level.Known ∧ ∀ a ∈ i.appenders, a.level.Known)
    (htype : ∀ i ∈ v, ∀ a ∈ i.appenders, a.type = 1 ∨ a.type = 2) :
    decode (encode v) = .ok v ↔ ∀ i ∈ v, ∀ a ∈ i.appenders,
      a.level = .UNKNOW ∧ (a.type = 2 → a.formatter = [] ∧ a.file = []) := by
  rw [decode_encode hset (fun i hi => (hlevel i hi).1) htype, Except.ok.injEq,
    map_eq_self_iff]
  refine forall_congr' fun i => forall_congr' fun hi => ?_
  rw [keptDefine_eq_iff]
  refine forall_congr' fun a => forall_congr' fun ha => ?_
  exact keptAppender_eq_iff (htype i hi a ha)

/-- One logger with a file appender, and one with nothing. -/
theorem decode_encode_iff_plain :
    decode (encode [⟨[65], .INFO, [37, 109], [⟨1, .UNKNOW, [37, 110], [102]⟩]⟩,
        ⟨[66], .UNKNOW, [], []⟩]) =
      .ok [⟨[65], .INFO, [37, 109], [⟨1, .UNKNOW, [37, 110], [102]⟩]⟩, ⟨[66], .UNKNOW, [], []⟩] :=
  (decode_encode_iff [⟨[65], .INFO, [37, 109], [⟨1, .UNKNOW, [37, 110], [102]⟩]⟩,
    ⟨[66], .UNKNOW, [], []⟩] (by unfold IsSet; decide) (by simp [LogLevel.Known])
    (by simp)).mpr (by simp)

/-- The level of an appender is lost. -/
theorem decode_encode_drops_level :
    decode (encode [⟨[65], .INFO, [], [⟨1, .ERROR, [], [102]⟩]⟩]) =
      .ok [⟨[65], .INFO, [], [⟨1, .UNKNOW, [], [102]⟩]⟩] := rfl

end LogDefine

end Sylar
