import Mathlib.Data.List.Induction
import Sylar.Log.Basic

/-! Which formatter an appender uses. An appender that was not given one takes over the
formatter of a logger, into the field that `addAppender` looks at when it is attached
again. -/
namespace Sylar.Logs

variable {L F : Type}

inductive Op (L F : Type) where
  | addAppender (l : L) (a : Nat)
  | delAppender (l : L) (a : Nat)
  | clearAppenders (l : L)
  | setFormatter (l : L) (val : Option F)
  | setFormatterPattern (l : L) (made : F) (isError : Bool)
  | setAppenderFormatter (a : Nat) (formatter : F)

def given (ops : List (Op L F)) (a : Nat) : Option F :=
  ops.reverse.findSome? fun
    | .setAppenderFormatter b formatter => if b = a then some formatter else none
    | _ => none

def Attached (s : Logs L F) (a : Nat) (l : L) : Prop :=
  ∀ m, a ∈ (s.loggers m).appenders ↔ m = l

/-- An appender of one logger uses the formatter it was given, or else the logger's. -/
def Consistent (s : Logs L F) (ops : List (Op L F)) : Prop :=
  ∀ a l, Attached s a l →
    (s.appenders a).formatter =
      if (s.appenders a).hasFormatter then given ops a else (s.loggers l).formatter

/-- The part of `Consistent` about appenders that were given no formatter. -/
def Inherits (s : Logs L F) : Prop :=
  ∀ a l, (s.appenders a).hasFormatter = false → Attached s a l →
    (s.appenders a).formatter = (s.loggers l).formatter

def Owns (s : Logs L F) (ops : List (Op L F)) : Prop :=
  ∀ a, (s.appenders a).hasFormatter = true →
    ∃ f, (s.appenders a).formatter = some f ∧ given ops a = some f

theorem Owns.consistent_iff {s : Logs L F} {ops : List (Op L F)} (h : Owns s ops) :
    Consistent s ops ↔ Inherits s := by
  refine forall_congr' fun a => forall_congr' fun l => ?_
  cases hhas : (s.appenders a).hasFormatter with
  | false => simp
  | true =>
    obtain ⟨f, hf, hgiven⟩ := h a hhas
    simp [hf, hgiven]

@[simp] theorem given_concat (ops : List (Op L F)) (op : Op L F) (a : Nat) :
    given (ops ++ [op]) a =
      match op with
      | .setAppenderFormatter b formatter => if b = a then some formatter else given ops a
      | _ => given ops a := by
  unfold given
  rw [List.reverse_concat, List.findSome?_cons]
  cases op with
  | setAppenderFormatter b formatter =>
    by_cases hb : b = a <;> simp [hb]
  | _ => rfl

/-- The call attaches a free appender only to a logger whose formatter it has or can take
over, and does not leave one to a logger whose formatter it does not have. -/
def Op.Safe (s : Logs L F) : Op L F → Prop
  | .addAppender l a => (s.appenders a).hasFormatter = false →
      (∀ m, a ∉ (s.loggers m).appenders) →
        (s.appenders a).formatter = none ∨ (s.appenders a).formatter = (s.loggers l).formatter
  | .delAppender l a => (s.appenders a).hasFormatter = false → ∀ m ≠ l,
      (∀ n, a ∈ (s.loggers n).appenders ↔ n = l ∨ n = m) →
        (s.loggers l).appenders.count a = 1 → (s.appenders a).formatter = (s.loggers m).formatter
  | .clearAppenders l => ∀ a, (s.appenders a).hasFormatter = false → ∀ m ≠ l,
      (∀ n, a ∈ (s.loggers n).appenders ↔ n = l ∨ n = m) →
        (s.appenders a).formatter = (s.loggers m).formatter
  | _ => True

variable [DecidableEq L]

def Op.run (s : Logs L F) : Op L F → Logs L F
  | .addAppender l a => s.addAppender l a
  | .delAppender l a => s.delAppender l a
  | .clearAppenders l => s.clearAppenders l
  | .setFormatter l val => s.setFormatter l val
  | .setFormatterPattern l made isError => s.setFormatterPattern l made isError
  | .setAppenderFormatter a formatter =>
    s.setAppender a ((s.appenders a).setFormatter (some formatter))

def init (formatter : L → F) (target : Nat → LogAppender.Target) : Logs L F where
  loggers l := ⟨.DEBUG, some (formatter l), []⟩
  appenders a := .new (target a)

def runOps (s : Logs L F) (ops : List (Op L F)) : Logs L F := ops.foldl Op.run s

variable {s : Logs L F} {l : L} {a : Nat}

theorem Owns.setFormatter {ops : List (Op L F)} (h : Owns s ops) (val : Option F) :
    Owns (s.setFormatter l val) ops := by
  intro b hhas
  rw [setFormatter_appenders] at hhas ⊢
  split
  case isTrue hpassed =>
    rw [if_pos hpassed] at hhas
    rw [hpassed.2] at hhas
    cases hhas
  case isFalse hkept =>
    rw [if_neg hkept] at hhas
    exact h b hhas

theorem Owns.step {ops : List (Op L F)} (h : Owns s ops) (op : Op L F) :
    Owns (op.run s) (ops ++ [op]) := by
  intro b
  rw [given_concat]
  cases op with
  | addAppender l a =>
    intro hhas
    simp only [Op.run, addAppender_appenders] at hhas ⊢
    split at hhas
    case isTrue hb =>
      subst hb
      obtain ⟨f, hf, hgiven⟩ := h b hhas
      exact ⟨f, by simp [hf], hgiven⟩
    case isFalse hb =>
      rw [if_neg hb]
      exact h b hhas
  | delAppender l a => exact h b
  | clearAppenders l => exact h b
  | setFormatter l val => exact h.setFormatter val b
  | setFormatterPattern l made isError =>
    cases isError with
    | true => exact h b
    | false => exact h.setFormatter (some made) b
  | setAppenderFormatter a formatter =>
    intro hhas
    simp only [Op.run, setAppender_appenders] at hhas ⊢
    split at hhas
    case isTrue hb =>
      subst hb
      exact ⟨formatter, by simp [LogAppender.setFormatter], by simp⟩
    case isFalse hb =>
      rw [if_neg hb, if_neg (Ne.symm hb)]
      exact h b hhas

theorem or_eq_right_iff {f g : Option F} : f.or g = g ↔ f = none ∨ f = g := by
  cases f <;> simp

theorem mem_addAppender {b : Nat} {m : L} :
    b ∈ ((s.addAppender l a).loggers m).appenders ↔
      b ∈ (s.loggers m).appenders ∨ m = l ∧ b = a := by
  rw [addAppender_loggers]
  by_cases hm : m = l <;> simp [hm]

theorem inherits_addAppender (h : Inherits s) :
    Inherits (s.addAppender l a) ↔ (Op.addAppender l a : Op L F).Safe s := by
  constructor
  · intro h' hhas hfree
    have hatt : Attached (s.addAppender l a) a l := by
      intro m
      rw [mem_addAppender]
      simp [hfree m]
    have hformatter := h' a l (by simpa using hhas) hatt
    simp only [addAppender_appenders, addAppender_loggers, if_true] at hformatter
    exact or_eq_right_iff.mp hformatter
  · intro hsafe b m hhas hatt
    simp only [Attached, mem_addAppender] at hatt
    by_cases hb : b = a
    · subst hb
      obtain rfl : l = m := (hatt l).mp (.inr ⟨rfl, rfl⟩)
      simp only [addAppender_appenders, addAppender_loggers, if_true] at hhas ⊢
      apply or_eq_right_iff.mpr
      by_cases hmem : b ∈ (s.loggers l).appenders
      · refine .inr (h b l hhas fun n => ⟨fun hn => (hatt n).mp (.inl hn), ?_⟩)
        rintro rfl
        exact hmem
      · apply hsafe hhas
        intro n hn
        obtain rfl := (hatt n).mp (.inl hn)
        exact hmem hn
    · simp only [hb, and_false, or_false] at hatt
      simp only [addAppender_appenders, if_neg hb] at hhas ⊢
      rw [h b m hhas hatt, addAppender_loggers]
      split
      case isTrue hm => rw [hm]
      case isFalse hm => rfl

theorem formatter_eq_of_update {m : L} {apps : List Nat} :
    (if m = l then { s.loggers l with appenders := apps } else s.loggers m).formatter =
      (s.loggers m).formatter := by
  by_cases hm : m = l <;> simp [hm]

theorem inherits_delAppender (h : Inherits s) :
    Inherits (s.delAppender l a) ↔ (Op.delAppender l a : Op L F).Safe s := by
  have hcount : a ∈ (s.loggers l).appenders.erase a ↔ 2 ≤ (s.loggers l).appenders.count a := by
    rw [← List.count_pos_iff, List.count_erase_self]
    omega
  have hother {b : Nat} (hb : b ≠ a) (m : L) :
      b ∈ ((s.delAppender l a).loggers m).appenders ↔ b ∈ (s.loggers m).appenders := by
    rw [delAppender_loggers]
    by_cases hm : m = l <;> simp [hm, List.mem_erase_of_ne hb]
  constructor
  · intro h' hhas m hm hboth hone
    have hatt : Attached (s.delAppender l a) a m := by
      intro n
      rw [delAppender_loggers]
      by_cases hn : n = l
      · subst hn
        rw [if_pos rfl, hcount, hone]
        simp [Ne.symm hm]
      · simp [hn, hboth n]
    have hformatter := h' a m hhas hatt
    rwa [delAppender_loggers, formatter_eq_of_update] at hformatter
  · intro hsafe b m hhas hatt
    rw [delAppender_loggers, formatter_eq_of_update]
    by_cases hb : b = a
    · subst hb
      simp only [Attached, delAppender_loggers] at hatt
      by_cases hone : (s.loggers l).appenders.count b = 1
      · have hgone : ¬ b ∈ (s.loggers l).appenders.erase b := by
          rw [hcount]
          omega
        have hm : m ≠ l := by
          rintro rfl
          have := (hatt m).mpr rfl
          rw [if_pos rfl] at this
          exact hgone this
        refine hsafe hhas m hm (fun n => ?_) hone
        by_cases hn : n = l
        · subst hn
          have hmem : b ∈ (s.loggers n).appenders := List.count_pos_iff.mp (by omega)
          simp [hmem]
        · have := hatt n
          rw [if_neg hn] at this
          simp [this, hn]
      · refine h b m hhas fun n => ?_
        rw [← hatt n]
        by_cases hn : n = l
        · subst hn
          rw [if_pos rfl, hcount, ← List.count_pos_iff]
          omega
        · rw [if_neg hn]
    · refine h b m hhas fun n => ?_
      rw [← hatt n, hother hb]

theorem inherits_clearAppenders (h : Inherits s) :
    Inherits (s.clearAppenders l) ↔ (Op.clearAppenders l : Op L F).Safe s := by
  constructor
  · intro h' b hhas m hm hboth
    have hatt : Attached (s.clearAppenders l) b m := by
      intro n
      rw [clearAppenders_loggers]
      by_cases hn : n = l
      · subst hn
        simp [Ne.symm hm]
      · simp [hn, hboth n]
    have hformatter := h' b m hhas hatt
    rwa [clearAppenders_loggers, formatter_eq_of_update] at hformatter
  · intro hsafe b m hhas hatt
    rw [clearAppenders_loggers, formatter_eq_of_update]
    simp only [Attached, clearAppenders_loggers] at hatt
    have hm : m ≠ l := by
      rintro rfl
      have := (hatt m).mpr rfl
      rw [if_pos rfl] at this
      cases this
    have hrest (n : L) (hn : n ≠ l) : b ∈ (s.loggers n).appenders ↔ n = m := by
      have := hatt n
      rwa [if_neg hn] at this
    by_cases hmem : b ∈ (s.loggers l).appenders
    · refine hsafe b hhas m hm fun n => ?_
      by_cases hn : n = l
      · subst hn
        simp [hmem]
      · simp [hrest n hn, hn]
    · refine h b m hhas fun n => ?_
      by_cases hn : n = l
      · subst hn
        simp [hmem, Ne.symm hm]
      · exact hrest n hn

theorem Inherits.setFormatter (h : Inherits s) (val : Option F) : Inherits (s.setFormatter l val) := by
  intro b m hhas hatt
  have hatt' : Attached s b m := by
    intro n
    rw [← hatt n, setFormatter_loggers]
    split
    case isTrue hn => rw [hn]
    case isFalse hn => rfl
  rw [setFormatter_appenders] at hhas ⊢
  rw [setFormatter_loggers]
  by_cases hm : m = l
  · subst hm
    have hmem : b ∈ (s.loggers m).appenders := (hatt' m).mpr rfl
    rw [if_pos rfl]
    split at hhas
    case isTrue hpassed => rw [if_pos hpassed]
    case isFalse hkept => exact absurd ⟨hmem, hhas⟩ hkept
  · have hmem : b ∉ (s.loggers l).appenders := fun hb => hm ((hatt' l).mp hb).symm
    rw [if_neg (fun hpassed => hmem hpassed.1)] at hhas ⊢
    rw [if_neg hm]
    exact h b m hhas hatt'

theorem Inherits.step (h : Inherits s) (op : Op L F) : Inherits (op.run s) ↔ op.Safe s := by
  cases op with
  | addAppender l a => exact inherits_addAppender h
  | delAppender l a => exact inherits_delAppender h
  | clearAppenders l => exact inherits_clearAppenders h
  | setFormatter l val => exact iff_of_true (h.setFormatter val) trivial
  | setFormatterPattern l made isError =>
    cases isError with
    | true => exact iff_of_true h trivial
    | false => exact iff_of_true (h.setFormatter _) trivial
  | setAppenderFormatter a formatter =>
    refine iff_of_true ?_ trivial
    intro b m hhas hatt
    simp only [Op.run, setAppender_appenders] at hhas ⊢
    split at hhas
    case isTrue hb => cases hhas
    case isFalse hb =>
      rw [if_neg hb]
      exact h b m hhas hatt

@[simp] theorem runOps_concat (s : Logs L F) (ops : List (Op L F)) (op : Op L F) :
    runOps s (ops ++ [op]) = op.run (runOps s ops) := by
  simp [runOps]

theorem owns_runOps (formatter : L → F) (target : Nat → LogAppender.Target)
    (ops : List (Op L F)) : Owns (runOps (init formatter target) ops) ops := by
  induction ops using List.reverseRecOn with
  | nil =>
    intro a hhas
    cases hhas
  | append_singleton ops op ih =>
    rw [runOps_concat]
    exact ih.step op

/-- Throughout a sequence of calls every appender of one logger uses the formatter it was
given or else the logger's, if and only if every call is safe: none attaches or leaves an
appender that still has the formatter of another logger, or an old one. -/
theorem runOps_consistent_iff (formatter : L → F) (target : Nat → LogAppender.Target)
    (ops : List (Op L F)) :
    (∀ pre, pre <+: ops → Consistent (runOps (init formatter target) pre) pre) ↔
      ∀ pre op, pre ++ [op] <+: ops → op.Safe (runOps (init formatter target) pre) := by
  have hiff (pre : List (Op L F)) := (owns_runOps formatter target pre).consistent_iff
  simp only [hiff]
  constructor
  · intro hall pre op hpre
    have hbefore := hall pre ((List.prefix_append _ _).trans hpre)
    have hafter := hall _ hpre
    rw [runOps_concat] at hafter
    exact (hbefore.step op).mp hafter
  · intro hsafe pre hpre
    induction pre using List.reverseRecOn with
    | nil =>
      intro a l _ hatt
      have hmem := (hatt l).mpr rfl
      cases hmem
    | append_singleton pre op ih =>
      rw [runOps_concat]
      exact ((ih ((List.prefix_append _ _).trans hpre)).step op).mpr (hsafe pre op hpre)

/-- An appender moved from one logger to another still has the first one's formatter. -/
theorem runOps_moved_appender :
    ¬ Consistent (runOps (init (fun l : Nat => l) (fun _ => .stdout))
        [.addAppender 1 0, .delAppender 1 0, .addAppender 2 0])
      [.addAppender 1 0, .delAppender 1 0, .addAppender 2 0] := by
  intro hcons
  have hatt : Attached (runOps (init (fun l : Nat => l) (fun _ => .stdout))
      [.addAppender 1 0, .delAppender 1 0, .addAppender 2 0]) 0 2 := by
    intro m
    by_cases h1 : m = 1
    · subst h1
      decide
    · by_cases h2 : m = 2
      · subst h2
        decide
      · simp [runOps, Op.run, h1, h2, init]
  have hformatter := hcons 0 2 hatt
  revert hformatter
  decide

end Sylar.Logs
