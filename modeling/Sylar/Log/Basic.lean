import Mathlib.Logic.Function.Basic
import Sylar.Config.Yaml

/-! Loggers and appenders of `sylar/log.cc`. Appenders are objects of their own that
several loggers can hold; an appender keeps the formatter that it was given and the one it
took over from a logger in the same field. Loggers are named by an arbitrary type, and a
formatter is an arbitrary value. -/
namespace Sylar

/-- `outside n` is a value that is no enumerator. -/
inductive LogLevel where
  | UNKNOW | DEBUG | INFO | WARN | ERROR | FATAL
  | outside (n : Nat)
  deriving DecidableEq, Repr

inductive LogAppender.Target where
  | file (name : Text)
  | stdout
  deriving DecidableEq, Repr

open LogAppender in
structure LogAppender (F : Type) where
  target : Target
  level : LogLevel
  hasFormatter : Bool
  formatter : Option F
  deriving DecidableEq

def LogAppender.new {F : Type} (target : Target) : LogAppender F := ⟨target, .DEBUG, false, none⟩

def LogAppender.setFormatter {F : Type} (a : LogAppender F) (formatter : Option F) :
    LogAppender F :=
  { a with formatter := formatter, hasFormatter := formatter.isSome }

/-- The appenders are pointers. -/
structure Logger (F : Type) where
  level : LogLevel
  formatter : Option F
  appenders : List Nat
  deriving DecidableEq

structure Logs (L F : Type) where
  loggers : L → Logger F
  appenders : Nat → LogAppender F

namespace Logs

variable {L F : Type}

section Appenders

variable (s : Logs L F) (a b : Nat)

def setAppender (v : LogAppender F) : Logs L F :=
  { s with appenders := Function.update s.appenders a v }

@[simp] theorem setAppender_loggers (v : LogAppender F) : (s.setAppender a v).loggers = s.loggers := rfl

@[simp] theorem setAppender_appenders (v : LogAppender F) :
    (s.setAppender a v).appenders b = if b = a then v else s.appenders b := by
  simp [setAppender, Function.update_apply]

end Appenders

/-- The loop of `Logger::setFormatter` over the appenders. -/
def passFormatter (s : Logs L F) (val : Option F) : List Nat → Logs L F
  | [] => s
  | a :: as =>
    let s := if (s.appenders a).hasFormatter then s
      else s.setAppender a { s.appenders a with formatter := val }
    passFormatter s val as

@[simp] theorem passFormatter_loggers (s : Logs L F) (val : Option F) (as : List Nat) :
    (s.passFormatter val as).loggers = s.loggers := by
  induction as generalizing s with
  | nil => rfl
  | cons a as ih =>
    rw [passFormatter, ih]
    split <;> rfl

@[simp] theorem passFormatter_appenders (s : Logs L F) (val : Option F) (as : List Nat) (b : Nat) :
    (s.passFormatter val as).appenders b =
      if b ∈ as ∧ (s.appenders b).hasFormatter = false then
        { s.appenders b with formatter := val }
      else s.appenders b := by
  induction as generalizing s with
  | nil => simp [passFormatter]
  | cons a as ih =>
    rw [passFormatter, ih]
    by_cases hb : b = a
    · subst hb
      cases hhas : (s.appenders b).hasFormatter <;> simp [hhas]
    · cases hhas : (s.appenders a).hasFormatter <;> simp [hb]

variable [DecidableEq L]

section Definitions

variable (s : Logs L F) (l : L)

def setLogger (v : Logger F) : Logs L F :=
  { s with loggers := Function.update s.loggers l v }

def addAppender (a : Nat) : Logs L F :=
  let s :=
    match (s.appenders a).formatter with
    | none => s.setAppender a { s.appenders a with formatter := (s.loggers l).formatter }
    | some _ => s
  s.setLogger l { s.loggers l with appenders := (s.loggers l).appenders ++ [a] }

def delAppender (a : Nat) : Logs L F :=
  s.setLogger l { s.loggers l with appenders := (s.loggers l).appenders.erase a }

def clearAppenders : Logs L F :=
  s.setLogger l { s.loggers l with appenders := [] }

def setFormatter (val : Option F) : Logs L F :=
  let s := s.setLogger l { s.loggers l with formatter := val }
  passFormatter s val (s.loggers l).appenders

/-- `Logger::setFormatter` with a pattern; `made` is the new formatter. -/
def setFormatterPattern (made : F) (isError : Bool) : Logs L F :=
  if isError then s else s.setFormatter l (some made)

def setLevel (level : LogLevel) : Logs L F :=
  s.setLogger l { s.loggers l with level := level }

end Definitions

section Fields

variable (s : Logs L F) (l m : L) (a b : Nat)

@[simp] theorem setLogger_loggers (v : Logger F) :
    (s.setLogger l v).loggers m = if m = l then v else s.loggers m := by
  simp [setLogger, Function.update_apply]

@[simp] theorem setLogger_appenders (v : Logger F) : (s.setLogger l v).appenders = s.appenders := rfl

@[simp] theorem addAppender_loggers :
    (s.addAppender l a).loggers m =
      if m = l then { s.loggers l with appenders := (s.loggers l).appenders ++ [a] }
      else s.loggers m := by
  unfold addAppender
  cases (s.appenders a).formatter <;> simp

@[simp] theorem addAppender_appenders :
    (s.addAppender l a).appenders b =
      if b = a then
        { s.appenders a with
          formatter := (s.appenders a).formatter.or (s.loggers l).formatter }
      else s.appenders b := by
  unfold addAppender
  split
  case h_1 hnone => simp [hnone]
  case h_2 f hsome =>
    by_cases hb : b = a
    · subst hb
      rw [setLogger_appenders, if_pos rfl]
      cases happ : s.appenders b with
      | mk target level has formatter =>
        rw [happ] at hsome
        obtain rfl : formatter = some f := hsome
        rfl
    · simp [hb]

@[simp] theorem delAppender_loggers :
    (s.delAppender l a).loggers m =
      if m = l then { s.loggers l with appenders := (s.loggers l).appenders.erase a }
      else s.loggers m :=
  setLogger_loggers ..

@[simp] theorem clearAppenders_loggers :
    (s.clearAppenders l).loggers m =
      if m = l then { s.loggers l with appenders := [] } else s.loggers m :=
  setLogger_loggers ..

@[simp] theorem setFormatter_loggers (val : Option F) :
    (s.setFormatter l val).loggers m =
      if m = l then { s.loggers l with formatter := val } else s.loggers m := by
  simp [setFormatter]

@[simp] theorem setFormatter_appenders (val : Option F) :
    (s.setFormatter l val).appenders b =
      if b ∈ (s.loggers l).appenders ∧ (s.appenders b).hasFormatter = false then
        { s.appenders b with formatter := val }
      else s.appenders b := by
  have hlist : ((s.setLogger l { s.loggers l with formatter := val }).loggers l).appenders =
      (s.loggers l).appenders := by simp
  simp only [setFormatter, passFormatter_appenders, hlist]
  rfl

@[simp] theorem setLevel_loggers (level : LogLevel) :
    (s.setLevel l level).loggers m =
      if m = l then { s.loggers l with level := level } else s.loggers m :=
  setLogger_loggers ..

end Fields

end Logs

end Sylar
