import Sylar.Http.Request
import Sylar.Lib.Registry

/-! `ServletDispatch` of `sylar/http/servlet.cc`. Servlet pointers are an arbitrary type;
the overloads for callbacks get the pointer that their `new FunctionServlet(cb)` made.
`fnmatch` is an arbitrary predicate of the pattern and the uri. -/
namespace Sylar.Http

open Lib.Registry

variable {σ : Type}

structure ServletDispatch (σ : Type) where
  datas : Bytes → Option σ
  globs : List (Bytes × σ)
  default : σ

namespace ServletDispatch

def init (default : σ) : ServletDispatch σ where
  datas _ := none
  globs := []
  default := default

section Definitions

variable (d : ServletDispatch σ)

def addServlet (uri : Bytes) (slt : σ) : ServletDispatch σ :=
  { d with datas := fun u => if u = uri then some slt else d.datas u }

def addServletCallback (uri : Bytes) (made : σ) : ServletDispatch σ :=
  { d with datas := fun u => if u = uri then some made else d.datas u }

/-- The loop that erases the first entry of a pattern and stops. -/
def eraseGlob (uri : Bytes) (globs : List (Bytes × σ)) : List (Bytes × σ) :=
  globs.eraseP (·.1 = uri)

def addGlobServlet (uri : Bytes) (slt : σ) : ServletDispatch σ :=
  { d with globs := eraseGlob uri d.globs ++ [(uri, slt)] }

def addGlobServletCallback (uri : Bytes) (made : σ) : ServletDispatch σ :=
  d.addGlobServlet uri made

def delServlet (uri : Bytes) : ServletDispatch σ :=
  { d with datas := fun u => if u = uri then none else d.datas u }

def delGlobServlet (uri : Bytes) : ServletDispatch σ :=
  { d with globs := eraseGlob uri d.globs }

def getMatchedServlet (fnmatch : Bytes → Bytes → Bool) (uri : Bytes) : σ :=
  match d.datas uri with
  | some slt => slt
  | none =>
    match d.globs.find? (fun it => fnmatch it.1 uri) with
    | some it => it.2
    | none => d.default

end Definitions

inductive Call (σ : Type) where
  | addServlet (uri : Bytes) (slt : σ)
  | addServletCallback (uri : Bytes) (made : σ)
  | addGlobServlet (uri : Bytes) (slt : σ)
  | addGlobServletCallback (uri : Bytes) (made : σ)
  | delServlet (uri : Bytes)
  | delGlobServlet (uri : Bytes)

def step (d : ServletDispatch σ) : Call σ → ServletDispatch σ
  | .addServlet uri slt => d.addServlet uri slt
  | .addServletCallback uri made => d.addServletCallback uri made
  | .addGlobServlet uri slt => d.addGlobServlet uri slt
  | .addGlobServletCallback uri made => d.addGlobServletCallback uri made
  | .delServlet uri => d.delServlet uri
  | .delGlobServlet uri => d.delGlobServlet uri

def run (default : σ) (h : List (Call σ)) : ServletDispatch σ := h.foldl step (init default)

def Call.exact : Call σ → Option (Change Bytes σ)
  | .addServlet uri slt => some (.put uri slt)
  | .addServletCallback uri made => some (.put uri made)
  | .delServlet uri => some (.drop uri)
  | _ => none

def Call.glob : Call σ → Option (Change Bytes σ)
  | .addGlobServlet uri slt => some (.put uri slt)
  | .addGlobServletCallback uri made => some (.put uri made)
  | .delGlobServlet uri => some (.drop uri)
  | _ => none

/-- The servlet that a history of calls selects for a uri: the one last added for exactly
that uri if it was not deleted since; otherwise, among the registered patterns that match,
the one whose latest `addGlobServlet` is the earliest; otherwise the default. -/
inductive Selected (fnmatch : Bytes → Bytes → Bool) (default : σ) (h : List (Call σ))
    (uri : Bytes) : σ → Prop where
  | exact {i : Nat} {slt : σ} (hexact : InForce Call.exact h i uri slt) :
      Selected fnmatch default h uri slt
  | glob {i : Nat} {pattern : Bytes} {slt : σ}
      (hnone : ∀ i slt, ¬ InForce Call.exact h i uri slt)
      (hglob : InForce Call.glob h i pattern slt) (hmatch : fnmatch pattern uri = true)
      (hfirst : ∀ j q s, InForce Call.glob h j q s → fnmatch q uri = true → i ≤ j) :
      Selected fnmatch default h uri slt
  | default (hnone : ∀ i slt, ¬ InForce Call.exact h i uri slt)
      (hglobs : ∀ j q s, InForce Call.glob h j q s → fnmatch q uri = false) :
      Selected fnmatch default h uri default

variable {fnmatch : Bytes → Bytes → Bool} {default : σ} {h : List (Call σ)} {uri : Bytes}

theorem Selected.unique {r r' : σ} (hr : Selected fnmatch default h uri r)
    (hr' : Selected fnmatch default h uri r') : r = r' := by
  cases hr with
  | exact hexact =>
    cases hr' with
    | exact hexact' => exact (hexact.unique hexact').2
    | glob hnone _ _ _ => exact absurd hexact (hnone _ _)
    | default hnone _ => exact absurd hexact (hnone _ _)
  | glob hnone hglob hmatch hfirst =>
    cases hr' with
    | exact hexact' => exact absurd hexact' (hnone _ _)
    | glob _ hglob' hmatch' hfirst' =>
      obtain rfl := Nat.le_antisymm (hfirst _ _ _ hglob' hmatch') (hfirst' _ _ _ hglob hmatch)
      exact (hglob.call_unique hglob').2
    | default _ hglobs =>
      rw [hglobs _ _ _ hglob] at hmatch
      cases hmatch
  | default hnone hglobs =>
    cases hr' with
    | exact hexact' => exact absurd hexact' (hnone _ _)
    | glob _ hglob' hmatch' _ =>
      rw [hglobs _ _ _ hglob'] at hmatch'
      cases hmatch'
    | default _ _ => rfl

/-- The entries are those in force, the patterns in the order of the calls that set them. -/
structure Tracks (d : ServletDispatch σ) (default : σ) (h : List (Call σ)) : Prop where
  datas : ∀ uri slt, d.datas uri = some slt ↔ (uri, slt) ∈ live Call.exact h
  globs : d.globs = live Call.glob h
  default : d.default = default

theorem datas_put {datas : Bytes → Option σ} {l : List (Bytes × σ)}
    (h : ∀ uri slt, datas uri = some slt ↔ (uri, slt) ∈ l) (uri : Bytes) (slt : σ) (u : Bytes)
    (s : σ) : (if u = uri then some slt else datas u) = some s ↔
      (u, s) ∈ update l (some (.put uri slt)) := by
  by_cases hu : u = uri
  · simp [update, hu, eq_comm]
  · simp [update, hu, h]

theorem datas_drop {datas : Bytes → Option σ} {l : List (Bytes × σ)}
    (h : ∀ uri slt, datas uri = some slt ↔ (uri, slt) ∈ l) (uri u : Bytes) (s : σ) :
    (if u = uri then none else datas u) = some s ↔ (u, s) ∈ update l (some (.drop uri)) := by
  by_cases hu : u = uri
  · simp [update, hu]
  · simp [update, hu, h]

theorem Tracks.step {d : ServletDispatch σ} (hd : Tracks d default h) (c : Call σ) :
    Tracks (d.step c) default (h ++ [c]) := by
  have herase (uri : Bytes) : eraseGlob uri d.globs = (live Call.glob h).filter (·.1 ≠ uri) := by
    rw [hd.globs]
    exact eraseP_eq_filter (nodup_live h) uri
  constructor
  · rw [live_concat]
    cases c with
    | addServlet uri slt | addServletCallback uri slt => exact datas_put hd.datas uri slt
    | delServlet uri => exact datas_drop hd.datas uri
    | addGlobServlet uri slt | addGlobServletCallback uri slt | delGlobServlet uri =>
      exact hd.datas
  · rw [live_concat]
    cases c with
    | addServlet uri slt | addServletCallback uri slt | delServlet uri => exact hd.globs
    | addGlobServlet uri slt | addGlobServletCallback uri slt =>
      exact congrArg (· ++ [(uri, slt)]) (herase uri)
    | delGlobServlet uri => exact herase uri
  · cases c <;> exact hd.default

theorem tracks_run (default : σ) (h : List (Call σ)) : Tracks (run default h) default h := by
  -- the calls are taken from the front, so the calls made before are kept in `pre`
  have hloop (pre : List (Call σ)) (d : ServletDispatch σ) (hd : Tracks d default pre) :
      Tracks (h.foldl step d) default (pre ++ h) := by
    induction h generalizing pre d with
    | nil => simpa using hd
    | cons c h ih =>
      have hrest := ih (pre ++ [c]) (d.step c) (hd.step c)
      rwa [List.append_assoc, List.singleton_append] at hrest
  refine hloop [] (init default) ⟨?_, rfl, rfl⟩
  intro uri slt
  simp [init, live]

theorem Tracks.selected {d : ServletDispatch σ} (hd : Tracks d default h)
    (fnmatch : Bytes → Bytes → Bool) (uri : Bytes) :
    Selected fnmatch default h uri (d.getMatchedServlet fnmatch uri) := by
  unfold getMatchedServlet
  cases hdata : d.datas uri with
  | some slt =>
    obtain ⟨i, hi⟩ := mem_live.mp ((hd.datas uri slt).mp hdata)
    exact .exact hi
  | none =>
    have hnone (i : Nat) (slt : σ) : ¬ InForce Call.exact h i uri slt := by
      intro hin
      have hsome := (hd.datas uri slt).mpr (mem_live.mpr ⟨i, hin⟩)
      rw [hdata] at hsome
      cases hsome
    have hfind := find?_live Call.glob (fun pattern => fnmatch pattern uri) h
    rw [← hd.globs] at hfind
    simp only
    cases hfound : d.globs.find? (fun it => fnmatch it.1 uri) with
    | some it =>
      rw [hfound] at hfind
      obtain ⟨i, hin, hmatch, hfirst⟩ := hfind
      exact .glob hnone hin hmatch hfirst
    | none =>
      rw [hfound] at hfind
      rw [hd.default]
      exact .default hnone hfind

/-- After every sequence of calls the patterns are distinct, and `getMatchedServlet`
returns the servlet that the history selects. -/
theorem run_getMatchedServlet (fnmatch : Bytes → Bytes → Bool) (default : σ)
    (h : List (Call σ)) :
    ((run default h).globs.map Prod.fst).Nodup ∧
      ∀ uri r, (run default h).getMatchedServlet fnmatch uri = r ↔
        Selected fnmatch default h uri r := by
  have htracks := tracks_run default h
  refine ⟨?_, ?_⟩
  · rw [htracks.globs]
    exact nodup_live h
  · intro uri r
    have hselected := htracks.selected fnmatch uri
    constructor
    · rintro rfl
      exact hselected
    · intro hr
      exact hselected.unique hr

end ServletDispatch

end Sylar.Http
