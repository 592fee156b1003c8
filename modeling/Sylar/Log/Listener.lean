import Sylar.Lib.Simulation
import Sylar.Log.Define

/-! The listener of the configuration variable `logs`. A logger that the manager is asked
for comes into being with the default formatter, so the state has a logger for every name.
`isError` tells which patterns `LogFormatter` refuses. The loggers' set-ups form a table, and
on managers whose loggers share no appender the listener works on that table alone. -/
namespace Sylar

open Lib

/-- Formatters are told apart by their patterns; `made` counts the appenders made so far. -/
structure LogManager where
  logs : Logs Text Text
  made : Nat

namespace LogManager

inductive Fault where
  | nullPointer
  deriving DecidableEq, Repr

def defaultPattern : Text :=
  .ofChars ['%', 'd', '\x7b', '%', 'Y', '-', '%', 'm', '-', '%', 'd', ' ', '%', 'H', ':', '%', 'M',
    ':', '%', 'S', '\x7d', '%', 'T', '%', 't', '%', 'T', '%', 'N', '%', 'T', '%', 'F', '%', 'T',
    '[', '%', 'p', ']', '%', 'T', '[', '%', 'c', ']', '%', 'T', '%', 'f', ':', '%', 'l', '%', 'T',
    '%', 'm', '%', 'n']

def root : Text := .ofChars ['r', 'o', 'o', 't']

/-- The root logger has an appender to the console. -/
def init : LogManager where
  logs :=
    let logs : Logs Text Text :=
      { loggers := fun _ => ⟨.DEBUG, some defaultPattern, []⟩, appenders := fun _ => .new .stdout }
    logs.addAppender root 0
  made := 1

end LogManager

/-- The appender that a definition asks for; a null for other types. -/
def LogAppenderDefine.target (a : LogAppenderDefine) : Option LogAppender.Target :=
  if a.type = 1 then some (.file a.file) else if a.type = 2 then some .stdout else none

namespace LogManager

variable (isError : Text → Bool)

def addDefined (l : Text) (m : LogManager) (a : LogAppenderDefine) : Except Fault LogManager :=
  match a.target with
  | none => .error .nullPointer
  | some target =>
    let apd : LogAppender Text := { LogAppender.new target with level := a.level }
    let apd := if !a.formatter.isEmpty && !isError a.formatter then
      apd.setFormatter (some a.formatter) else apd
    .ok { logs := (m.logs.setAppender m.made apd).addAppender l m.made, made := m.made + 1 }

/-- What the listener does for a definition that is new or changed. -/
def configure (m : LogManager) (i : LogDefine) : Except Fault LogManager :=
  let logs := m.logs.setLevel i.name i.level
  let logs := if !i.formatter.isEmpty then
    logs.setFormatterPattern i.name i.formatter (isError i.formatter) else logs
  let logs := logs.clearAppenders i.name
  i.appenders.foldlM (addDefined isError i.name) { m with logs := logs }

def applyNew (old : List LogDefine) (m : LogManager) (i : LogDefine) : Except Fault LogManager :=
  match old.find? (·.name = i.name) with
  | none => configure isError m i
  | some o => if i ≠ o then configure isError m i else .ok m

def dropOld (new : List LogDefine) (m : LogManager) (i : LogDefine) : LogManager :=
  match new.find? (·.name = i.name) with
  | none => { m with logs := (m.logs.setLevel i.name (.outside 100)).clearAppenders i.name }
  | some _ => m

def listener (old new : List LogDefine) (m : LogManager) : Except Fault LogManager := do
  let m ← new.foldlM (applyNew isError old) m
  .ok (old.foldl (dropOld new) m)

/-- What a logger does with an event: its level, its formatter and its appenders. -/
structure Setup where
  level : LogLevel
  formatter : Option Text
  appenders : List (LogAppender Text)
  deriving DecidableEq

def setup (m : LogManager) (n : Text) : Setup where
  level := (m.logs.loggers n).level
  formatter := (m.logs.loggers n).formatter
  appenders := (m.logs.loggers n).appenders.map m.logs.appenders

/-- The pattern of a formatter that is made, if there is one and it has no error. -/
def effective (pattern : Text) : Option Text :=
  if !pattern.isEmpty && !isError pattern then some pattern else none

/-- The appender that a definition makes for a logger with formatter `f`. -/
def madeAppender (f : Option Text) (target : LogAppender.Target) (a : LogAppenderDefine) :
    LogAppender Text :=
  ⟨target, a.level, (effective isError a.formatter).isSome, (effective isError a.formatter).or f⟩

def Setup.add (s : Setup) (a : LogAppenderDefine) : Except Fault Setup :=
  match a.target with
  | none => .error .nullPointer
  | some target =>
    .ok { s with appenders := s.appenders ++ [madeAppender isError s.formatter target a] }

/-- The formatter of a logger stays when the definition has none. -/
def Setup.configure (s : Setup) (i : LogDefine) : Except Fault Setup :=
  i.appenders.foldlM (Setup.add isError)
    ⟨i.level, (effective isError i.formatter).or s.formatter, []⟩

def Setup.reconcile (old : List LogDefine) (s : Setup) (i : LogDefine) : Except Fault Setup :=
  if i ∈ old then .ok s else s.configure isError i

/-- The first loop of the listener, on the table of the set-ups. -/
def reconcileAll (old new : List LogDefine) (table : Text → Setup) :
    Except Fault (Text → Setup) :=
  new.foldlM (fun t i => do
    .ok (Function.update t i.name (← (t i.name).reconcile isError old i))) table

structure Separate (m : LogManager) : Prop where
  lt_made : ∀ n, ∀ b ∈ (m.logs.loggers n).appenders, b < m.made
  disjoint : ∀ n n', n ≠ n' → ∀ b ∈ (m.logs.loggers n).appenders,
    b ∉ (m.logs.loggers n').appenders

/-- The manager keeps its loggers apart, and `table` is what they are set up to. -/
def Shows (m : LogManager) (table : Text → Setup) : Prop := Separate m ∧ m.setup = table

variable {isError} {m m' : LogManager} {l n : Text} {a : LogAppenderDefine} {i : LogDefine}
  {s : Setup} {table : Text → Setup} {old new v : List LogDefine}

theorem separate_init : Separate init where
  lt_made n b hb := by
    simp only [init, Logs.addAppender_loggers] at hb
    split at hb
    · simp only [List.nil_append, List.mem_singleton] at hb
      rw [hb]
      exact Nat.one_pos
    · cases hb
  disjoint n n' hne b hb hb' := by
    simp only [init, Logs.addAppender_loggers] at hb hb'
    split at hb
    case isTrue hn =>
      rw [if_neg fun hn' => hne (hn.trans hn'.symm)] at hb'
      cases hb'
    case isFalse hn => cases hb

theorem setup_init_formatter (n : Text) : (init.setup n).formatter = some defaultPattern := by
  simp only [setup, init, Logs.addAppender_loggers]
  split <;> rfl

theorem setup_congr (hlogger : m'.logs.loggers n = m.logs.loggers n)
    (happ : ∀ b ∈ (m.logs.loggers n).appenders, m'.logs.appenders b = m.logs.appenders b) :
    m'.setup n = m.setup n := by
  unfold setup
  rw [hlogger, List.map_congr_left happ]

section Steps

theorem Separate.push (h : Separate m) {logs : Logs Text Text}
    (hloggers : ∀ n, (logs.loggers n).appenders =
      (m.logs.loggers n).appenders ++ if n = l then [m.made] else []) :
    Separate ⟨logs, m.made + 1⟩ where
  lt_made n b hb := by
    rw [hloggers, List.mem_append] at hb
    rcases hb with hb | hb
    · exact Nat.lt_succ_of_lt (h.lt_made n b hb)
    · split at hb
      · rw [List.mem_singleton.mp hb]
        exact Nat.lt_succ_self _
      · cases hb
  disjoint n n' hne b hb hb' := by
    rw [hloggers, List.mem_append] at hb hb'
    have hold : ∀ k, b ∈ (m.logs.loggers k).appenders → b ≠ m.made := fun k hk =>
      Nat.ne_of_lt (h.lt_made k b hk)
    have hnew : ∀ k, b ∈ (if k = l then [m.made] else []) → k = l ∧ b = m.made := by
      intro k hk
      split at hk
      case isTrue hkl => exact ⟨hkl, List.mem_singleton.mp hk⟩
      case isFalse => cases hk
    rcases hb with hb | hb
    · rcases hb' with hb' | hb'
      · exact h.disjoint n n' hne b hb hb'
      · exact hold n hb (hnew n' hb').2
    · rcases hb' with hb' | hb'
      · exact hold n' hb' (hnew n hb).2
      · exact hne ((hnew n hb).1.trans (hnew n' hb').1.symm)

theorem made_eq (target : LogAppender.Target) (a : LogAppenderDefine) (f : Option Text) :
    let apd : LogAppender Text := { LogAppender.new target with level := a.level }
    let apd := if !a.formatter.isEmpty && !isError a.formatter then
      apd.setFormatter (some a.formatter) else apd
    { apd with formatter := apd.formatter.or f } = madeAppender isError f target a := by
  unfold madeAppender effective
  split <;> rfl

theorem push_appenders {b : Nat} (hb : b ≠ m.made) (apd : LogAppender Text) :
    ((m.logs.setAppender m.made apd).addAppender l m.made).appenders b = m.logs.appenders b := by
  simp [hb]

theorem addDefined_related (h : Shows m table) (l : Text) (a : LogAppenderDefine) :
    Related Shows (addDefined isError l m a)
      (do .ok (Function.update table l (← (table l).add isError a))) := by
  obtain ⟨hsep, rfl⟩ := h
  unfold addDefined Setup.add
  cases htarget : a.target with
  | none => exact .error _
  | some target =>
    refine .ok ⟨hsep.push (l := l) fun n => ?_, funext fun n => ?_⟩
    · rw [Logs.addAppender_loggers]
      split
      case isTrue hn =>
        rw [hn]
        rfl
      case isFalse =>
        rw [List.append_nil]
        rfl
    · -- the appenders that are in use are older than the new one
      have hfresh : ∀ k, ∀ b ∈ (m.logs.loggers k).appenders, b ≠ m.made := fun k b hb =>
        Nat.ne_of_lt (hsep.lt_made k b hb)
      by_cases hn : n = l
      · subst hn
        rw [Function.update_self]
        simp only [setup, Logs.addAppender_loggers, if_pos, Logs.setAppender_loggers,
          List.map_append, List.map_cons, List.map_nil]
        rw [List.map_congr_left fun b hb => push_appenders (hfresh n b hb) _,
          Logs.addAppender_appenders, if_pos rfl, Logs.setAppender_appenders, if_pos rfl,
          Logs.setAppender_loggers, made_eq]
      · rw [Function.update_of_ne hn]
        apply setup_congr
        · simp [hn]
        · intro b hb
          exact push_appenders (hfresh n b hb) _

theorem foldlM_update_self (as : List LogAppenderDefine) (table : Text → Setup) (l : Text) :
    as.foldlM (fun t a => do .ok (Function.update t l (← (t l).add isError a))) table =
      (do .ok (Function.update table l (← as.foldlM (Setup.add isError) (table l)))) := by
  induction as generalizing table with
  | nil =>
    change Except.ok table = Except.ok (Function.update table l (table l))
    rw [Function.update_eq_self]
  | cons a as ih =>
    rw [List.foldlM_cons, List.foldlM_cons]
    cases (table l).add isError a with
    | error e => rfl
    | ok s =>
      simp only [ok_bind]
      rw [ih, Function.update_self]
      simp only [Function.update_idem]

theorem Separate.cleared (h : Separate m) {logs : Logs Text Text}
    (hloggers : ∀ n, (logs.loggers n).appenders =
      if n = l then [] else (m.logs.loggers n).appenders) :
    Separate { m with logs := logs } := by
  have hsub : ∀ n, (logs.loggers n).appenders ⊆ (m.logs.loggers n).appenders := by
    intro n
    rw [hloggers]
    split
    · exact List.nil_subset _
    · exact List.Subset.refl _
  constructor
  · intro n b hb
    exact h.lt_made n b (hsub n hb)
  · intro n n' hne b hb hb'
    exact h.disjoint n n' hne b (hsub n hb) (hsub n' hb')

section Formatted

variable (logs : Logs Text Text) (l n pattern : Text)

theorem formatted_loggers :
    (if !pattern.isEmpty then logs.setFormatterPattern l pattern (isError pattern)
      else logs).loggers n =
      if n = l then
        { logs.loggers l with
          formatter := (effective isError pattern).or (logs.loggers l).formatter }
      else logs.loggers n := by
  unfold Logs.setFormatterPattern effective
  cases pattern.isEmpty <;> cases isError pattern <;> by_cases hn : n = l <;> simp [hn]

theorem formatted_appenders {b : Nat} (hb : b ∉ (logs.loggers l).appenders) :
    (if !pattern.isEmpty then logs.setFormatterPattern l pattern (isError pattern)
      else logs).appenders b = logs.appenders b := by
  unfold Logs.setFormatterPattern
  cases pattern.isEmpty <;> cases isError pattern <;> simp [hb]

end Formatted

variable (isError) in
theorem cleared_shows (h : Shows m table) (i : LogDefine) :
    let logs := m.logs.setLevel i.name i.level
    let logs := if !i.formatter.isEmpty then
      logs.setFormatterPattern i.name i.formatter (isError i.formatter) else logs
    Shows { m with logs := logs.clearAppenders i.name } (Function.update table i.name
      ⟨i.level, (effective isError i.formatter).or (table i.name).formatter, []⟩) := by
  obtain ⟨hsep, rfl⟩ := h
  intro leveled formatted
  have hloggers : ∀ n, formatted.loggers n =
      if n = i.name then
        ⟨i.level, (effective isError i.formatter).or (m.logs.loggers i.name).formatter,
          (m.logs.loggers i.name).appenders⟩
      else m.logs.loggers n := by
    intro n
    refine (formatted_loggers leveled i.name n i.formatter).trans ?_
    by_cases hn : n = i.name <;> simp [hn, leveled]
  refine ⟨hsep.cleared (l := i.name) fun n => ?_, funext fun n => ?_⟩
  · rw [Logs.clearAppenders_loggers]
    split
    · rfl
    case isFalse hn => rw [hloggers, if_neg hn]
  · by_cases hn : n = i.name
    · subst hn
      rw [Function.update_self]
      simp only [setup, Logs.clearAppenders_loggers, if_pos, hloggers, List.map_nil]
    · rw [Function.update_of_ne hn]
      apply setup_congr
      · rw [Logs.clearAppenders_loggers, if_neg hn, hloggers, if_neg hn]
      · intro b hb
        apply formatted_appenders
        simpa [leveled] using hsep.disjoint n i.name hn b hb

theorem configure_related (h : Shows m table) (i : LogDefine) :
    Related Shows (configure isError m i)
      (do .ok (Function.update table i.name (← (table i.name).configure isError i))) := by
  have hrun := Related.foldlM i.appenders (cleared_shows isError h i)
    (f := addDefined isError i.name)
    (g := fun (t : Text → Setup) a => do
      .ok (Function.update t i.name (← (t i.name).add isError a)))
    (fun a _ m t hshows => addDefined_related hshows i.name a)
  rw [foldlM_update_self, Function.update_self] at hrun
  simp only [Function.update_idem] at hrun
  exact hrun

theorem name_ne {x y : LogDefine} (hlt : LogDefine.less x y = true) : x.name ≠ y.name := by
  intro heq
  rw [LogDefine.less, heq, decide_eq_true_eq] at hlt
  exact List.lt_irrefl _ hlt

theorem find_name (hset : LogDefine.IsSet v) (hi : i ∈ v) : v.find? (·.name = i.name) = some i := by
  induction v with
  | nil => cases hi
  | cons x v ih =>
    obtain ⟨hx, hset⟩ := List.pairwise_cons.mp hset
    rcases List.mem_cons.mp hi with rfl | hi
    · simp
    · rw [List.find?_cons_of_neg (by simpa using name_ne (hx i hi))]
      exact ih hset hi

theorem find_eq_none (hn : n ∉ v.map LogDefine.name) : v.find? (·.name = n) = none := by
  rw [List.find?_eq_none]
  intro x hx
  simp only [decide_eq_true_eq]
  rintro rfl
  exact hn (List.mem_map_of_mem hx)

theorem nodup_names (hset : LogDefine.IsSet v) : (v.map LogDefine.name).Nodup := by
  rw [List.nodup_iff_pairwise_ne, List.pairwise_map]
  exact hset.imp name_ne

theorem applyNew_related (hold : LogDefine.IsSet old) (h : Shows m table) (i : LogDefine) :
    Related Shows (applyNew isError old m i)
      (do .ok (Function.update table i.name (← (table i.name).reconcile isError old i))) := by
  unfold applyNew Setup.reconcile
  by_cases hi : i ∈ old
  · rw [find_name hold hi, if_pos hi]
    simp only [ne_eq, not_true_eq_false, if_false, ok_bind, Function.update_eq_self]
    exact .ok h
  · rw [if_neg hi]
    split
    · exact configure_related h i
    case h_2 o hfind =>
      have hne : i ≠ o := by
        rintro rfl
        exact hi (List.mem_of_find?_eq_some hfind)
      rw [if_pos hne]
      exact configure_related h i

variable (isError) in
theorem foldlM_applyNew_related (hold : LogDefine.IsSet old) (h : Separate m)
    (new : List LogDefine) :
    Related Shows (new.foldlM (applyNew isError old) m) (reconcileAll isError old new m.setup) :=
  Related.foldlM (R := Shows) new ⟨h, rfl⟩
    fun i _ _ _ hshows => applyNew_related hold hshows i

variable (new) in
theorem foldl_dropOld (h : Separate m) (dropped : List LogDefine) :
    Separate (dropped.foldl (dropOld new) m) ∧
      ∀ n, (n ∈ new.map LogDefine.name ∨ n ∉ dropped.map LogDefine.name) →
        (dropped.foldl (dropOld new) m).setup n = m.setup n := by
  induction dropped generalizing m with
  | nil => exact ⟨h, fun _ _ => rfl⟩
  | cons o dropped ih =>
    have hstep : Separate (dropOld new m o) ∧ ∀ n, (n ∈ new.map LogDefine.name ∨ n ≠ o.name) →
        (dropOld new m o).setup n = m.setup n := by
      unfold dropOld
      split
      case h_1 hnone =>
        refine ⟨h.cleared (l := o.name) fun n => ?_, fun n hn => ?_⟩
        · by_cases hn : n = o.name <;> simp [hn]
        · have hne : n ≠ o.name := by
            rcases hn with hn | hn
            · rintro rfl
              obtain ⟨x, hx, hname⟩ := List.mem_map.mp hn
              have := List.find?_eq_none.mp hnone x hx
              simp [hname] at this
            · exact hn
          apply setup_congr
          · simp [hne]
          · intro b _
            rfl
      case h_2 => exact ⟨h, fun _ _ => rfl⟩
    obtain ⟨hsep, hkept⟩ := ih hstep.1
    refine ⟨hsep, fun n hn => ?_⟩
    rw [List.map_cons, List.mem_cons, not_or] at hn
    rw [List.foldl_cons, hkept n (hn.imp_right And.right), hstep.2 n (hn.imp_right And.left)]

end Steps

section Results

theorem target_isSome : a.target.isSome = true ↔ a.type = 1 ∨ a.type = 2 := by
  unfold LogAppenderDefine.target
  by_cases h1 : a.type = 1 <;> by_cases h2 : a.type = 2 <;> simp [h1, h2]

variable (isError) in
/-- The set-up that a definition gives to a logger with formatter `f`. -/
def configured (f : Option Text) (i : LogDefine) : Setup :=
  let f := (effective isError i.formatter).or f
  ⟨i.level, f, i.appenders.filterMap fun a => a.target.map (madeAppender isError f · a)⟩

theorem foldlM_add_eq_ok {as : List LogAppenderDefine} {t : Setup} :
    as.foldlM (Setup.add isError) s = .ok t ↔
      (∀ a ∈ as, a.target.isSome = true) ∧ t = { s with
        appenders := s.appenders ++
          as.filterMap fun a => a.target.map (madeAppender isError s.formatter · a) } := by
  induction as generalizing s with
  | nil =>
    simp only [List.foldlM_nil, List.not_mem_nil, false_implies, implies_true, true_and,
      List.filterMap_nil, List.append_nil]
    exact ⟨fun h => (Except.ok.inj h).symm, fun h => congrArg Except.ok h.symm⟩
  | cons a as ih =>
    rw [List.foldlM_cons, Setup.add, List.forall_mem_cons]
    cases htarget : a.target with
    | none =>
      simp only [Option.isSome_none, Bool.false_eq_true, false_and, iff_false]
      exact nofun
    | some target =>
      simp only [ok_bind]
      rw [ih]
      simp [htarget]

theorem configure_eq_ok {t : Setup} :
    s.configure isError i = .ok t ↔
      (∀ a ∈ i.appenders, a.type = 1 ∨ a.type = 2) ∧ t = configured isError s.formatter i := by
  rw [Setup.configure, foldlM_add_eq_ok]
  simp only [target_isSome, List.nil_append]
  rfl

theorem configured_eq_iff {f g : Option Text} :
    configured isError f i = configured isError g i ↔
      (effective isError i.formatter = none → f = g) := by
  unfold configured
  cases effective isError i.formatter with
  | none =>
    simp only [Option.none_or, forall_const]
    constructor
    · intro h
      exact congrArg Setup.formatter h
    · rintro rfl
      rfl
  | some p => simp

theorem of_listener (hold : LogDefine.IsSet old) (hnew : LogDefine.IsSet new) (h : Separate m)
    (hrun : listener isError old new m = .ok m') :
    Separate m' ∧
      (∀ i ∈ new, (m.setup i.name).reconcile isError old i = .ok (m'.setup i.name)) ∧
      ∀ n ∉ new.map LogDefine.name, n ∉ old.map LogDefine.name → m'.setup n = m.setup n := by
  obtain ⟨t, hloop, hdrop⟩ := bind_eq_ok.mp hrun
  obtain rfl := Except.ok.inj hdrop
  have hrel := foldlM_applyNew_related isError hold h new
  rw [hloop] at hrel
  generalize habs : reconcileAll isError old new m.setup = abs at hrel
  cases hrel with
  | @ok _ table hshows =>
    obtain ⟨hsep, rfl⟩ := hshows
    obtain ⟨hset, hkept⟩ := (foldlM_update_eq_ok (nodup_names hnew)).mp habs
    obtain ⟨hsep', hdropped⟩ := foldl_dropOld new hsep old
    refine ⟨hsep', fun i hi => ?_, fun n hn ho => ?_⟩
    · rw [hdropped _ (.inl (List.mem_map_of_mem hi))]
      exact hset i hi
    · rw [hdropped _ (.inr ho)]
      exact hkept n hn

variable (isError) in
theorem exists_listener (hold : LogDefine.IsSet old) (hnew : LogDefine.IsSet new) (h : Separate m)
    (htypes : ∀ i ∈ new, ∀ a ∈ i.appenders, a.type = 1 ∨ a.type = 2) :
    ∃ m', listener isError old new m = .ok m' := by
  -- the table after the loop
  let table : Text → Setup := fun n =>
    match new.find? (·.name = n) with
    | none => m.setup n
    | some i => if i ∈ old then m.setup n else configured isError (m.setup n).formatter i
  have habs : reconcileAll isError old new m.setup = .ok table := by
    refine (foldlM_update_eq_ok (nodup_names hnew)).mpr ⟨fun i hi => ?_, fun n hn => ?_⟩
    · simp only [table, find_name hnew hi, Setup.reconcile]
      split
      · rfl
      · exact configure_eq_ok.mpr ⟨htypes i hi, rfl⟩
    · simp only [table, find_eq_none hn]
  have hrel := foldlM_applyNew_related isError hold h new
  rw [habs] at hrel
  obtain ⟨t, ht, -⟩ := hrel.exists_ok
  exact ⟨_, bind_eq_ok.mpr ⟨t, ht, rfl⟩⟩

@[simp] theorem isSet_nil : LogDefine.IsSet [] := List.Pairwise.nil

theorem of_listener_init (hnew : LogDefine.IsSet new) (hrun : listener isError [] new init = .ok m) :
    Separate m ∧
      (∀ i ∈ new, (∀ a ∈ i.appenders, a.type = 1 ∨ a.type = 2) ∧
        m.setup i.name = configured isError (some defaultPattern) i) ∧
      ∀ n ∉ new.map LogDefine.name, m.setup n = init.setup n := by
  obtain ⟨hsep, hset, hkept⟩ := of_listener isSet_nil hnew separate_init hrun
  refine ⟨hsep, fun i hi => ?_, fun n hn => hkept n hn List.not_mem_nil⟩
  have h := hset i hi
  rw [Setup.reconcile, if_neg List.not_mem_nil, configure_eq_ok, setup_init_formatter] at h
  exact h

end Results

variable (isError : Text → Bool) (c₁ c₂ : List LogDefine)

/-- Coming from `c₁`, the listener sets the loggers of `c₂` up as it does coming from the
empty configuration. -/
def OnlyCurrent : Prop :=
  ∃ m₁ m₁₂ m₂, listener isError [] c₁ init = .ok m₁ ∧ listener isError c₁ c₂ m₁ = .ok m₁₂ ∧
    listener isError [] c₂ init = .ok m₂ ∧ ∀ i ∈ c₂, m₁₂.setup i.name = m₂.setup i.name

variable {isError c₁ c₂}

/-- A logger of `c₂` whose definition is not the one in `c₁`. -/
theorem reconciled_eq_iff (h₁ : LogDefine.IsSet c₁) {m₁ : LogManager} {t : Setup}
    (hrun : listener isError [] c₁ init = .ok m₁)
    (ht : (m₁.setup i.name).reconcile isError c₁ i = .ok t) :
    t = configured isError (some defaultPattern) i ↔
      ∀ o ∈ c₁, o.name = i.name → o ≠ i → effective isError i.formatter = none →
        (effective isError o.formatter).getD defaultPattern = defaultPattern := by
  obtain ⟨-, hset, hkept⟩ := of_listener_init h₁ hrun
  have hunique : ∀ o ∈ c₁, ∀ o' ∈ c₁, o.name = o'.name → o = o' := by
    intro o ho o' ho' hname
    exact List.inj_on_of_nodup_map (nodup_names h₁) ho ho' hname
  by_cases hi : i ∈ c₁
  · rw [Setup.reconcile, if_pos hi] at ht
    obtain rfl := Except.ok.inj ht
    refine iff_of_true (hset i hi).2 fun o ho hname hne => ?_
    exact absurd (hunique o ho i hi hname) hne
  · rw [Setup.reconcile, if_neg hi, configure_eq_ok] at ht
    rw [ht.2, configured_eq_iff]
    by_cases hnamed : i.name ∈ c₁.map LogDefine.name
    · obtain ⟨o, ho, hname⟩ := List.mem_map.mp hnamed
      have hf : (m₁.setup i.name).formatter =
          some ((effective isError o.formatter).getD defaultPattern) := by
        rw [← hname, (hset o ho).2, configured, Option.or_some]
      rw [hf, Option.some_inj]
      constructor
      · intro h o' ho' hname' _ hnone
        rw [hunique o' ho' o ho (hname'.trans hname.symm)]
        exact h hnone
      · intro h hnone
        have hne : o ≠ i := by
          rintro rfl
          exact hi ho
        exact h o ho hname hne hnone
    · rw [hkept _ hnamed, setup_init_formatter]
      refine iff_of_true (fun _ => rfl) fun o ho hname => ?_
      exact absurd (List.mem_map.mpr ⟨o, ho, hname⟩) hnamed

/-- A definition without a formatter leaves the logger with the one that an earlier
definition gave it; an appender of another type is a null pointer. -/
theorem onlyCurrent_iff (h₁ : LogDefine.IsSet c₁) (h₂ : LogDefine.IsSet c₂) :
    OnlyCurrent isError c₁ c₂ ↔
      (∀ i ∈ c₁ ++ c₂, ∀ a ∈ i.appenders, a.type = 1 ∨ a.type = 2) ∧
        ∀ i ∈ c₂, ∀ o ∈ c₁, o.name = i.name → o ≠ i → effective isError i.formatter = none →
          (effective isError o.formatter).getD defaultPattern = defaultPattern := by
  rw [List.forall_mem_append]
  constructor
  · rintro ⟨m₁, m₁₂, m₂, hrun₁, hrun₁₂, hrun₂, hagree⟩
    obtain ⟨hsep, hset₁, -⟩ := of_listener_init h₁ hrun₁
    obtain ⟨-, hset₂, -⟩ := of_listener_init h₂ hrun₂
    obtain ⟨-, hset₁₂, -⟩ := of_listener h₁ h₂ hsep hrun₁₂
    refine ⟨⟨fun i hi => (hset₁ i hi).1, fun i hi => (hset₂ i hi).1⟩, fun i hi => ?_⟩
    rw [← reconciled_eq_iff h₁ hrun₁ (hset₁₂ i hi), hagree i hi]
    exact (hset₂ i hi).2
  · rintro ⟨⟨htypes₁, htypes₂⟩, hformatters⟩
    obtain ⟨m₁, hrun₁⟩ := exists_listener isError isSet_nil h₁ separate_init htypes₁
    have hsep := (of_listener_init h₁ hrun₁).1
    obtain ⟨m₁₂, hrun₁₂⟩ := exists_listener isError h₁ h₂ hsep htypes₂
    obtain ⟨m₂, hrun₂⟩ := exists_listener isError isSet_nil h₂ separate_init htypes₂
    obtain ⟨-, hset₂, -⟩ := of_listener_init h₂ hrun₂
    obtain ⟨-, hset₁₂, -⟩ := of_listener h₁ h₂ hsep hrun₁₂
    refine ⟨m₁, m₁₂, m₂, hrun₁, hrun₁₂, hrun₂, fun i hi => ?_⟩
    rw [(hset₂ i hi).2, reconciled_eq_iff h₁ hrun₁ (hset₁₂ i hi)]
    exact hformatters i hi

section Example

def formatted : LogDefine := ⟨.ofChars ['A'], .INFO, .ofChars ['%', 'm'], []⟩

def plain : LogDefine := ⟨.ofChars ['A'], .ERROR, [], [⟨1, .WARN, [], .ofChars ['f']⟩]⟩

theorem onlyCurrent_iff_plain : OnlyCurrent (fun _ => false) [plain] [formatted] :=
  (onlyCurrent_iff (List.pairwise_singleton _ _) (List.pairwise_singleton _ _)).mpr
    ⟨by decide, by decide⟩

theorem not_onlyCurrent_formatted : ¬ OnlyCurrent (fun _ => false) [formatted] [plain] := by
  rintro ⟨m₁, m₁₂, m₂, hrun₁, hrun₁₂, hrun₂, hagree⟩
  obtain rfl := Except.ok.inj hrun₁
  obtain rfl := Except.ok.inj hrun₁₂
  obtain rfl := Except.ok.inj hrun₂
  exact absurd (hagree plain (List.mem_singleton_self _)) (by decide)

end Example

end LogManager

end Sylar
