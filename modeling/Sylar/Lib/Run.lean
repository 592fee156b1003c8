import Mathlib.Data.List.Basic
import Mathlib.Data.List.Nodup
import Mathlib.Logic.Function.Basic

/-! Runs of a labelled step relation, with the trace they leave. A property of
all reachable states is proved once per step; what must hold ever after some
event is proved from a state predicate that the event establishes and every
step keeps. -/
namespace Sylar.Lib

variable {σ ε : Type*}

inductive Run (step : σ → ε → σ → Prop) (s₀ : σ) : List ε → σ → Prop where
  | start : Run step s₀ [] s₀
  | snoc : Run step s₀ es s → step s e s' → Run step s₀ (es ++ [e]) s'

variable {step : σ → ε → σ → Prop} {s₀ s s' : σ} {es : List ε}

theorem Run.invariant {I : σ → Prop} (init : I s₀)
    (keep : ∀ s e s', I s → step s e s' → I s') (run : Run step s₀ es s) : I s := by
  induction run with
  | start => exact init
  | snoc _ hstep ih => exact keep _ _ _ ih hstep

theorem Run.history {I : List ε → σ → Prop} (init : I [] s₀)
    (keep : ∀ es s e s', I es s → step s e s' → I (es ++ [e]) s')
    (run : Run step s₀ es s) : I es s := by
  induction run with
  | start => exact init
  | snoc _ hstep ih => exact keep _ _ _ _ ih hstep

theorem Run.mono {weak : σ → ε → σ → Prop} (run : Run step s₀ es s)
    (h : ∀ s e s', step s e s' → weak s e s') : Run weak s₀ es s := by
  induction run with
  | start => exact .start
  | snoc _ hstep ih => exact ih.snoc (h _ _ _ hstep)

theorem Run.cons {e : ε} (hstep : step s₀ e s) (run : Run step s es s') :
    Run step s₀ (e :: es) s' := by
  induction run with
  | start => exact Run.snoc .start hstep
  | snoc _ hlast ih => exact ih.snoc hlast

theorem Run.split {before after : List ε} (run : Run step s₀ (before ++ after) s) :
    ∃ t, Run step s₀ before t ∧ Run step t after s := by
  generalize hes : before ++ after = es at run
  induction run generalizing after with
  | start =>
    obtain ⟨rfl, rfl⟩ := List.append_eq_nil_iff.mp hes
    exact ⟨s₀, .start, .start⟩
  | snoc run hstep ih =>
    rcases List.eq_nil_or_concat' after with rfl | ⟨after', last, rfl⟩
    · rw [List.append_nil] at hes
      exact ⟨_, hes ▸ run.snoc hstep, .start⟩
    · rw [← List.append_assoc] at hes
      obtain ⟨hinit, hlast⟩ := List.append_inj' hes rfl
      obtain ⟨t, hbefore, hafter⟩ := ih hinit
      exact ⟨t, hbefore, hlast ▸ hafter.snoc hstep⟩

theorem Run.uncons {e : ε} (run : Run step s₀ (e :: es) s) :
    ∃ t, step s₀ e t ∧ Run step t es s := by
  generalize hes : e :: es = es' at run
  induction run generalizing es with
  | start => cases hes
  | @snoc es' t last u run hstep ih =>
    cases es' with
    | nil =>
      obtain ⟨rfl, rfl⟩ := List.cons.inj hes
      generalize hnil : [] = none at run
      cases run with
      | start => exact ⟨_, hstep, .start⟩
      | snoc => simp at hnil
    | cons first rest =>
      obtain ⟨rfl, rfl⟩ := List.cons.inj hes
      obtain ⟨v, hfirst, hrest⟩ := ih rfl
      exact ⟨v, hfirst, hrest.snoc hstep⟩

theorem Run.unique (det : ∀ s e t t', step s e t → step s e t' → t = t')
    (run : Run step s₀ es s) (run' : Run step s₀ es s') : s = s' := by
  induction run generalizing s' with
  | start =>
    generalize hes : [] = es at run'
    cases run' with
    | start => rfl
    | snoc => simp at hes
  | @snoc es t e u _ hstep ih =>
    generalize hes : es ++ [e] = es' at run'
    cases run' with
    | start => simp at hes
    | snoc run' hstep' =>
      obtain ⟨rfl, hlast⟩ := List.append_inj' hes rfl
      obtain rfl := List.singleton_inj.mp hlast
      obtain rfl := ih run'
      exact det _ _ _ _ hstep hstep'

section Guarded

variable {guard : σ → ε → Prop} {t : σ} {before after : List ε}

theorem Run.guarded (run : Run step s₀ es s)
    (hguard : ∀ upto e t t', upto ++ [e] <+: es → Run step s₀ upto t → step t e t' → guard t e) :
    Run (fun s e s' => guard s e ∧ step s e s') s₀ es s := by
  induction run with
  | start => exact .start
  | snoc run hstep ih =>
    refine Run.snoc (ih fun upto e t t' hupto => ?_)
      ⟨hguard _ _ _ _ List.prefix_rfl run hstep, hstep⟩
    exact hguard upto e t t' (hupto.trans (List.prefix_append _ _))

theorem Run.unguarded (run : Run (fun s e s' => guard s e ∧ step s e s') s₀ es s) :
    Run step s₀ es s :=
  run.mono fun _ _ _ h => h.2

theorem Run.guarded_upto (det : ∀ s e t t', step s e t → step s e t' → t = t')
    (run : Run (fun s e s' => guard s e ∧ step s e s') s₀ (before ++ after) s)
    (first : Run step s₀ before t) :
    Run (fun s e s' => guard s e ∧ step s e s') s₀ before t ∧
      Run (fun s e s' => guard s e ∧ step s e s') t after s := by
  obtain ⟨t', hbefore, hafter⟩ := run.split
  obtain rfl := first.unique det hbefore.unguarded
  exact ⟨hbefore, hafter⟩

theorem Run.guard_of_upto {e : ε} (det : ∀ s e t t', step s e t → step s e t' → t = t')
    (run : Run (fun s e s' => guard s e ∧ step s e s') s₀ es s) (hupto : before ++ [e] <+: es)
    (first : Run step s₀ before t) : guard t e := by
  obtain ⟨after, rfl⟩ := hupto
  rw [List.append_assoc] at run
  obtain ⟨-, hrest⟩ := run.guarded_upto det first
  obtain ⟨-, ⟨hguard, -⟩, -⟩ := hrest.uncons
  exact hguard

end Guarded

/-- After an event that establishes a kept predicate, every later event meets
whatever that predicate forces on a step. -/
theorem Run.ever_after {I P : σ → Prop} {Q : ε → Prop} (init : I s₀)
    (keep : ∀ s e s', I s → step s e s' → I s')
    (opens : ε → Prop) (establish : ∀ s e s', I s → step s e s' → opens e → P s')
    (stable : ∀ s e s', I s → P s → step s e s' → P s' ∧ Q e)
    (run : Run step s₀ es s) :
    I s ∧ ((∃ e ∈ es, opens e) → P s) ∧
      ∀ before e after, es = before ++ e :: after → opens e → ∀ e' ∈ after, Q e' := by
  induction run with
  | start => exact ⟨init, by simp, by simp⟩
  | @snoc es s e s' _ hstep ih =>
    obtain ⟨hI, hP, hQ⟩ := ih
    refine ⟨keep _ _ _ hI hstep, ?_, ?_⟩
    · rintro ⟨x, hx, hopen⟩
      rcases List.mem_append.mp hx with hx | hx
      · exact (stable _ _ _ hI (hP ⟨x, hx, hopen⟩) hstep).1
      · obtain rfl := List.mem_singleton.mp hx
        exact establish _ _ _ hI hstep hopen
    · intro before x after heq hopen e' he'
      rcases List.eq_nil_or_concat' after with rfl | ⟨after', last, rfl⟩
      · simp at he'
      · have hsplit : es ++ [e] = (before ++ x :: after') ++ [last] := by
          rw [heq]
          simp
        obtain ⟨rfl, hlast⟩ := List.append_inj' hsplit rfl
        obtain rfl : e = last := by simpa using hlast
        rcases List.mem_append.mp he' with he' | he'
        · exact hQ before x after' rfl hopen e' he'
        · obtain rfl := List.mem_singleton.mp he'
          exact (stable _ _ _ hI (hP ⟨x, by simp, hopen⟩) hstep).2

section Computed

variable {next : σ → ε → Option σ}

/-- Where the steps lead, one after the other. -/
def runAll (next : σ → ε → Option σ) (s : σ) : List ε → Option σ
  | [] => some s
  | e :: es => (next s e).bind (runAll next · es)

theorem Run.of_runAll (h : runAll next s₀ es = some s) :
    Run (fun s e s' => next s e = some s') s₀ es s := by
  induction es generalizing s₀ with
  | nil =>
    obtain rfl := Option.some.inj h
    exact .start
  | cons e es ih =>
    obtain ⟨t, hstep, h⟩ := Option.bind_eq_some_iff.mp h
    exact .cons hstep (ih h)

theorem Run.of_runAll_guarded {guard : σ → ε → Prop} [∀ s e, Decidable (guard s e)]
    (h : runAll (fun s e => if guard s e then next s e else none) s₀ es = some s) :
    Run (fun s e s' => guard s e ∧ next s e = some s') s₀ es s :=
  (Run.of_runAll h).mono fun _ _ _ hstep => Option.ite_none_right_eq_some.mp hstep

end Computed

theorem ok_bind {φ α β : Type} (a : α) (f : α → Except φ β) : (Except.ok a >>= f) = f a := rfl

theorem bind_eq_ok {φ α β : Type} {x : Except φ α} {f : α → Except φ β} {b : β} :
    (x >>= f) = .ok b ↔ ∃ a, x = .ok a ∧ f a = .ok b := by
  constructor
  · intro h
    cases x with
    | error => cases h
    | ok a => exact ⟨a, rfl, h⟩
  · rintro ⟨a, rfl, h⟩
    exact h

theorem bind_eq_error {φ α β : Type} {x : Except φ α} {f : α → Except φ β} {e : φ} :
    (x >>= f) = .error e ↔ x = .error e ∨ ∃ a, x = .ok a ∧ f a = .error e := by
  constructor
  · intro h
    cases x with
    | error e' =>
      obtain rfl := Except.error.inj h
      exact .inl rfl
    | ok a => exact .inr ⟨a, rfl, h⟩
  · rintro (rfl | ⟨a, rfl, h⟩)
    · rfl
    · exact h

theorem mapM_eq_ok {φ α β : Type} {f : α → Except φ β} {g : α → β} {l : List α}
    (h : ∀ x ∈ l, f x = .ok (g x)) : l.mapM f = .ok (l.map g) := by
  induction l with
  | nil => rfl
  | cons x l ih =>
    rw [List.mapM_cons, h x List.mem_cons_self, ih fun y hy => h y (List.mem_cons_of_mem _ hy)]
    rfl

/-- A loop that replaces one entry of a table in each pass, a different one each time. -/
theorem foldlM_update_eq_ok {φ κ ι ω : Type} [DecidableEq κ] {key : ι → κ}
    {f : ω → ι → Except φ ω} {l : List ι} (hkeys : (l.map key).Nodup) {table table' : κ → ω} :
    l.foldlM (fun t i => do .ok (Function.update t (key i) (← f (t (key i)) i))) table =
        .ok table' ↔
      (∀ i ∈ l, f (table (key i)) i = .ok (table' (key i))) ∧
        ∀ k ∉ l.map key, table' k = table k := by
  induction l generalizing table with
  | nil =>
    simp only [List.foldlM_nil, List.not_mem_nil, false_implies, implies_true, true_and,
      List.map_nil, not_false_eq_true, forall_const]
    constructor
    · intro h k
      rw [Except.ok.inj h]
    · intro h
      rw [funext h]
      rfl
  | cons i l ih =>
    rw [List.map_cons, List.nodup_cons] at hkeys
    obtain ⟨hfresh, hkeys⟩ := hkeys
    -- the passes that follow find the other entries as they were
    have hother : ∀ v, ∀ j ∈ l, Function.update table (key i) v (key j) = table (key j) := by
      intro v j hj
      apply Function.update_of_ne
      intro heq
      rw [← heq] at hfresh
      exact hfresh (List.mem_map_of_mem hj)
    rw [List.foldlM_cons, List.forall_mem_cons, List.map_cons]
    constructor
    · intro h
      obtain ⟨t, hfirst, hrest⟩ := bind_eq_ok.mp h
      obtain ⟨v, hv, ht⟩ := bind_eq_ok.mp hfirst
      obtain rfl := Except.ok.inj ht
      obtain ⟨hset, hkept⟩ := (ih hkeys).mp hrest
      refine ⟨⟨?_, fun j hj => ?_⟩, fun k hk => ?_⟩
      · rw [hv, hkept _ hfresh, Function.update_self]
      · rw [← hother v j hj]
        exact hset j hj
      · rw [List.mem_cons, not_or] at hk
        rw [hkept k hk.2, Function.update_of_ne hk.1]
    · rintro ⟨⟨hfirst, hset⟩, hkept⟩
      refine bind_eq_ok.mpr ⟨_, bind_eq_ok.mpr ⟨_, hfirst, rfl⟩, (ih hkeys).mpr ⟨?_, ?_⟩⟩
      · intro j hj
        rw [hother _ j hj]
        exact hset j hj
      · intro k hk
        by_cases hki : k = key i
        · rw [hki, Function.update_self]
        · rw [Function.update_of_ne hki]
          exact hkept k fun h => (List.mem_cons.mp h).elim hki hk

end Sylar.Lib
