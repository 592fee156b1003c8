import Mathlib.Data.Set.Basic
import Sylar.FSUtil.Basic

/-! What `Rm` removes and when it says so. -/
namespace Sylar.FSUtil

/-- `Rm` tries to remove the entry once nothing is left under it. -/
def Entry.Reached (e : Entry) : Prop :=
  e.visible = true ∧ e.type ≠ .socket ∧ e.type ≠ .block ∧ (e.type = .directory → e.opens = true)

def Entry.Erasable (e : Entry) : Prop := e.Reached ∧ e.removable = true

def FS.Every (fs : FS) (path : Path) (P : Entry → Prop) : Prop :=
  ∀ q e, path <+: q → fs.entry q = some e → P e

/-- The entries of `fs` that `fs'` lacks lie at the given paths, and `Rm` could remove them. -/
def Removes (paths : Set Path) (fs fs' : FS) : Prop :=
  ∀ q, fs'.entry q = fs.entry q ∨
    q ∈ paths ∧ fs'.entry q = none ∧ ∃ e, fs.entry q = some e ∧ e.Erasable

namespace Removes

variable {paths paths' : Set Path} {fs fs' fs'' : FS} {q : Path} {e : Entry}

theorem refl (paths : Set Path) (fs : FS) : Removes paths fs fs := fun _ => .inl rfl

theorem mono (h : Removes paths fs fs') (hsub : paths ⊆ paths') : Removes paths' fs fs' :=
  fun q => (h q).imp_right fun hq => ⟨hsub hq.1, hq.2⟩

theorem outside (h : Removes paths fs fs') (hq : q ∉ paths) : fs'.entry q = fs.entry q :=
  (h q).resolve_right fun hin => hq hin.1

theorem entry_of_left (h : Removes paths fs fs') (hentry : fs'.entry q = some e) :
    fs.entry q = some e := by
  cases h q with
  | inl hsame => rwa [← hsame]
  | inr hgone =>
    rw [hgone.2.1] at hentry
    cases hentry

theorem none_of_none (h : Removes paths fs fs') (hnone : fs.entry q = none) :
    fs'.entry q = none := by
  cases hentry : fs'.entry q with
  | none => rfl
  | some e =>
    rw [h.entry_of_left hentry] at hnone
    cases hnone

theorem of_gone (h : Removes paths fs fs') (hentry : fs.entry q = some e)
    (hnone : fs'.entry q = none) : e.Erasable := by
  cases h q with
  | inl hsame =>
    rw [hsame, hentry] at hnone
    cases hnone
  | inr hgone =>
    obtain ⟨-, -, e', hentry', hcan⟩ := hgone
    rw [hentry] at hentry'
    cases hentry'
    exact hcan

theorem trans (h : Removes paths fs fs') (h' : Removes paths fs' fs'') :
    Removes paths fs fs'' := by
  intro q
  cases h' q with
  | inl hsame => rw [hsame]; exact h q
  | inr hgone =>
    obtain ⟨hin, hnone, e, hentry, hcan⟩ := hgone
    exact .inr ⟨hin, hnone, e, h.entry_of_left hentry, hcan⟩

theorem every {path : Path} {P : Entry → Prop} (h : Removes paths fs fs')
    (hevery : fs.Every path P) : fs'.Every path P :=
  fun q e hq hentry => hevery q e hq (h.entry_of_left hentry)

end Removes

def subtree (path : Path) : Set Path := { q | path <+: q }

def below (path : Path) : Set Path := { q | path <+: q ∧ q ≠ path }

theorem subtree_child_subset (path : Path) (name : Name) :
    subtree (path ++ [name]) ⊆ below path := by
  intro q hq
  constructor
  · exact (List.prefix_append path [name]).trans hq
  · intro heq
    have hlen := List.IsPrefix.length_le hq
    rw [heq, List.length_append, List.length_singleton] at hlen
    omega

def FS.Shallow (fs : FS) (path : Path) (n : Nat) : Prop :=
  ∀ q e, path <+: q → fs.entry q = some e → q.length < path.length + n

namespace FS

variable {fs fs' : FS} {path : Path} {e : Entry} {n : Nat}

theorem Shallow.child (h : fs.Shallow path (n + 1)) (name : Name) :
    fs.Shallow (path ++ [name]) n := by
  intro q e hq hentry
  have hlt := h q e ((List.prefix_append path [name]).trans hq) hentry
  rw [List.length_append, List.length_singleton]
  omega

theorem Shallow.removes {paths : Set Path} (h : fs.Shallow path n) (hrem : Removes paths fs fs') :
    fs'.Shallow path n :=
  fun q e hq hentry => h q e hq (hrem.entry_of_left hentry)

theorem exists_shallow (fs : FS) (path : Path) : ∃ n, fs.Shallow path n := by
  obtain ⟨d, hd⟩ := fs.depth
  use d + 1
  intro q e _ hentry
  have hle := hd q e hentry
  omega

theorem erase_entry_self (hleaf : ∀ name, fs.entry (path ++ [name]) = none) :
    (fs.erase path hleaf).entry path = none :=
  if_neg (not_not.mpr rfl)

theorem removes_erase (hleaf : ∀ name, fs.entry (path ++ [name]) = none)
    (hentry : fs.entry path = some e) (hcan : e.Erasable) :
    Removes (subtree path) fs (fs.erase path hleaf) := by
  intro q
  by_cases hq : q = path
  · rw [hq]
    exact .inr ⟨List.prefix_rfl, erase_entry_self hleaf, e, hentry, hcan⟩
  · exact .inl (if_pos hq)

theorem lstat_eq_none_iff : fs.lstat path = none ↔ ∀ e, fs.entry path = some e → ¬ e.visible := by
  unfold lstat
  split
  case h_1 e hentry =>
    rw [hentry]
    simp
  case h_2 hentry =>
    rw [hentry]
    simp

theorem lstat_eq_some {mode : BitVec 32} (h : fs.lstat path = some mode) :
    ∃ e, fs.entry path = some e ∧ e.visible = true ∧ mode = e.stMode := by
  unfold lstat at h
  split at h
  · rename_i e hentry
    split at h
    · rename_i hvisible
      cases h
      exact ⟨e, hentry, hvisible, rfl⟩
    · cases h
  · cases h

theorem opendir_eq (hentry : fs.entry path = some e) :
    fs.opendir path = if e.type = .directory ∧ e.opens then some e.listing else none := by
  unfold opendir
  rw [hentry]

theorem unlink_cases (hentry : fs.entry path = some e) (hfile : e.type ≠ .directory) :
    (e.removable = true ∧ ∃ hleaf, fs.unlink path = (true, fs.erase path hleaf)) ∨
      (e.removable = false ∧ fs.unlink path = (false, fs)) := by
  unfold unlink
  split
  · rename_i e' hentry'
    rw [hentry] at hentry'
    cases hentry'
    by_cases hcan : e.removable = true
    · exact .inl ⟨hcan, no_child_of_file hentry hfile, dif_pos ⟨hfile, hcan⟩⟩
    · exact .inr ⟨Bool.eq_false_iff.mpr hcan, dif_neg fun h => hcan h.2⟩
  · rename_i hnone
    rw [hentry] at hnone
    cases hnone

theorem rmdir_cases (hentry : fs.entry path = some e) (hdir : e.type = .directory) :
    (e.removable = true ∧ ∃ hleaf, fs.rmdir path = (true, fs.erase path hleaf)) ∨
      (fs.rmdir path = (false, fs) ∧
        ¬ (e.removable = true ∧ ∀ name ∈ e.listing, fs.entry (path ++ [name]) = none)) := by
  unfold rmdir
  split
  · rename_i e' hentry'
    rw [hentry] at hentry'
    cases hentry'
    by_cases hcan : e.removable = true ∧ ∀ name ∈ e.listing, fs.entry (path ++ [name]) = none
    · exact .inl ⟨hcan.1, no_child_of_listing hentry hcan.2, dif_pos ⟨hdir, hcan⟩⟩
    · exact .inr ⟨dif_neg fun h => hcan h.2, hcan⟩
  · rename_i hnone
    rw [hentry] at hnone
    cases hnone

end FS

/-- What a call `Rm(path)` guarantees of its answer and of the file system it leaves. -/
structure RmSpec (path : Path) (fs : FS) (r : Bool × FS) : Prop where
  removes : Removes (subtree path) fs r.2
  hidden : fs.lstat path = none → r.1 = true
  done : r.1 = true → fs.lstat path = none ∨ r.2.entry path = none
  gone : r.2.entry path = none → r.1 = true
  cleared : fs.Every path Entry.Erasable → r.2.entry path = none

/-- What the loop guarantees that removes the names of a directory. -/
structure LoopSpec (path : Path) (names : List Name) (ret : Bool) (fs : FS) (r : Bool × FS) :
    Prop where
  removes : Removes (below path) fs r.2
  gone : (∀ name ∈ names, r.2.entry (path ++ [name]) = none) →
    (ret = true ∨ ∃ name ∈ names, ¬ (name = dot ∨ name = dotdot)) → r.1 = true
  cleared : (∀ name ∈ names, fs.Every (path ++ [name]) Entry.Erasable) →
    ∀ name ∈ names, r.2.entry (path ++ [name]) = none

section Branches

variable {path : Path} {fs fs' : FS} {e : Entry}

theorem rmSpec_hidden (h : fs.lstat path = none) : RmSpec path fs (true, fs) where
  removes := .refl _ _
  hidden _ := rfl
  done _ := .inl h
  gone _ := rfl
  cleared hevery := by
    cases hentry : fs.entry path with
    | none => rfl
    | some e =>
      have hvisible := (hevery path e List.prefix_rfl hentry).1.1
      exact absurd hvisible (FS.lstat_eq_none_iff.mp h e hentry)

theorem rmSpec_erase (hrem : Removes (subtree path) fs fs') (hentry : fs'.entry path = some e)
    (hcan : e.Erasable) (hleaf : ∀ name, fs'.entry (path ++ [name]) = none) :
    RmSpec path fs (true, fs'.erase path hleaf) where
  removes := hrem.trans (FS.removes_erase hleaf hentry hcan)
  hidden _ := rfl
  done _ := .inr (FS.erase_entry_self hleaf)
  gone _ := rfl
  cleared _ := FS.erase_entry_self hleaf

theorem rmSpec_kept (hrem : Removes (subtree path) fs fs') (hentry : fs'.entry path = some e)
    (hvisible : e.visible = true) (hcannot : ¬ fs.Every path Entry.Erasable) :
    RmSpec path fs (false, fs') where
  removes := hrem
  hidden h := absurd hvisible (FS.lstat_eq_none_iff.mp h e (hrem.entry_of_left hentry))
  done h := nomatch h
  gone h := by
    rw [hentry] at h
    cases h
  cleared hevery := absurd hevery hcannot

theorem rmSpec_unlink (hvisible : e.visible = true) (hentry : fs.entry path = some e)
    (hmode : e.stMode &&& S_IFDIR = 0) : RmSpec path fs (unlink false path fs) := by
  obtain ⟨hfile, hsocket, hblock⟩ := e.stMode_and_S_IFDIR_eq_zero_iff.mp hmode
  have hreached : e.Reached := ⟨hvisible, hsocket, hblock, fun hdir => absurd hdir hfile⟩
  have hcall : unlink false path fs = fs.unlink path := by
    have hseen : fs.lstat path ≠ none := fun h => FS.lstat_eq_none_iff.mp h e hentry hvisible
    unfold unlink
    rw [Option.isNone_eq_false_iff.mpr (Option.isSome_iff_ne_none.mpr hseen)]
    rfl
  rw [hcall]
  cases FS.unlink_cases hentry hfile with
  | inl hdone =>
    obtain ⟨hcan, hleaf, heq⟩ := hdone
    rw [heq]
    exact rmSpec_erase (.refl _ _) hentry ⟨hreached, hcan⟩ hleaf
  | inr hkept =>
    rw [hkept.2]
    apply rmSpec_kept (.refl _ _) hentry hvisible
    intro hevery
    have hcan := (hevery path e List.prefix_rfl hentry).2
    rw [hkept.1] at hcan
    cases hcan

theorem rmSpec_rmdir (hreached : e.Reached) (hentry : fs.entry path = some e)
    (hdir : e.type = .directory) {ret : Bool}
    (hloop : LoopSpec path e.listing true fs (ret, fs')) :
    RmSpec path fs (if (fs'.rmdir path).1 then ret else false, (fs'.rmdir path).2) := by
  have hentry' : fs'.entry path = some e := by
    rw [hloop.removes.outside fun hin => hin.2 rfl]
    exact hentry
  have hrem : Removes (subtree path) fs fs' := hloop.removes.mono fun q hq => hq.1
  cases FS.rmdir_cases hentry' hdir with
  | inl hdone =>
    obtain ⟨hcan, hleaf, heq⟩ := hdone
    -- Nothing is left under the directory, so the answer kept from the last name is true.
    have hret : ret = true := hloop.gone (fun name _ => hleaf name) (.inl rfl)
    rw [heq, hret]
    exact rmSpec_erase hrem hentry' ⟨hreached, hcan⟩ hleaf
  | inr hkept =>
    obtain ⟨heq, hcannot⟩ := hkept
    rw [heq]
    apply rmSpec_kept hrem hentry' hreached.1
    intro hevery
    have hchildren := hloop.cleared fun name _ q e hq =>
      hevery q e ((List.prefix_append path [name]).trans hq)
    exact hcannot ⟨(hevery path e List.prefix_rfl hentry).2, hchildren⟩

end Branches

theorem rmEntries_dots {rm : Path → FS → Option (Bool × FS)} {path : Path} {names : List Name}
    (hdots : ∀ name ∈ names, name = dot ∨ name = dotdot) (ret : Bool) (fs : FS) :
    rmEntries rm path names ret fs = some (ret, fs) := by
  induction names with
  | nil => rfl
  | cons name names ih =>
    unfold rmEntries
    rw [if_pos (hdots name List.mem_cons_self)]
    exact ih fun other hother => hdots other (List.mem_cons_of_mem name hother)

theorem entry_dots (fs : FS) (path : Path) {name : Name} (h : name = dot ∨ name = dotdot) :
    fs.entry (path ++ [name]) = none := by
  cases hentry : fs.entry (path ++ [name]) with
  | none => rfl
  | some e =>
    obtain ⟨-, -, -, -, hdot, hdotdot⟩ := fs.parent hentry
    exact absurd h (not_or.mpr ⟨hdot, hdotdot⟩)

theorem LoopSpec.skip {path : Path} {name : Name} {names : List Name} {ret : Bool} {fs : FS}
    {r : Bool × FS} (hname : name = dot ∨ name = dotdot) (h : LoopSpec path names ret fs r) :
    LoopSpec path (name :: names) ret fs r where
  removes := h.removes
  gone hnames hany := by
    apply h.gone fun other hother => hnames other (List.mem_cons_of_mem name hother)
    apply hany.imp_right
    rintro ⟨other, hother, hnot⟩
    cases List.mem_cons.mp hother with
    | inl heq => exact absurd (heq ▸ hname) hnot
    | inr hmem => exact ⟨other, hmem, hnot⟩
  cleared hevery other hother := by
    cases List.mem_cons.mp hother with
    | inl heq =>
      rw [heq]
      exact entry_dots r.2 path hname
    | inr hmem =>
      exact h.cleared (fun o ho => hevery o (List.mem_cons_of_mem name ho)) other hmem

/-- One name removed, then the others. Only if the others are all skipped does the first answer
count. -/
theorem LoopSpec.step {path : Path} {name : Name} {names : List Name} {ret ret₁ : Bool}
    {fs fs₁ : FS} {r : Bool × FS} (hchild : RmSpec (path ++ [name]) fs (ret₁, fs₁))
    (h : LoopSpec path names ret₁ fs₁ r)
    (hdots : (∀ other ∈ names, other = dot ∨ other = dotdot) → r = (ret₁, fs₁)) :
    LoopSpec path (name :: names) ret fs r where
  removes := (hchild.removes.mono (subtree_child_subset path name)).trans h.removes
  gone hnames _ := by
    apply h.gone fun other hother => hnames other (List.mem_cons_of_mem name hother)
    by_cases hall : ∀ other ∈ names, other = dot ∨ other = dotdot
    · left
      apply hchild.gone
      have hfirst := hnames name List.mem_cons_self
      rwa [hdots hall] at hfirst
    · right
      push Not at hall
      simpa using hall
  cleared hevery other hother := by
    cases List.mem_cons.mp hother with
    | inl heq =>
      rw [heq]
      exact h.removes.none_of_none (hchild.cleared (hevery name List.mem_cons_self))
    | inr hmem =>
      apply h.cleared _ other hmem
      exact fun o ho => hchild.removes.every (hevery o (List.mem_cons_of_mem name ho))

/-- Trees of at most `n` levels: the recursion answers alike with every fuel above `n`. -/
def Settles (n : Nat) : Prop :=
  ∀ path fs, fs.Shallow path n →
    ∃ r, (∀ fuel, n ≤ fuel → rm (fuel + 1) path fs = some r) ∧ RmSpec path fs r

theorem rmEntries_spec {n : Nat} (hrm : Settles n) (path : Path) (names : List Name) (ret : Bool)
    (fs : FS) (hshallow : fs.Shallow path (n + 1)) :
    ∃ r, (∀ fuel, n ≤ fuel → rmEntries (rm (fuel + 1)) path names ret fs = some r) ∧
      LoopSpec path names ret fs r := by
  induction names generalizing ret fs with
  | nil =>
    refine ⟨(ret, fs), fun _ _ => rfl, .refl _ _, fun _ hany => ?_, fun _ _ hmem => nomatch hmem⟩
    exact hany.resolve_right fun ⟨_, hmem, _⟩ => nomatch hmem
  | cons name names ih =>
    by_cases hname : name = dot ∨ name = dotdot
    · obtain ⟨r, hrun, hspec⟩ := ih ret fs hshallow
      refine ⟨r, fun fuel hfuel => ?_, hspec.skip hname⟩
      unfold rmEntries
      rw [if_pos hname]
      exact hrun fuel hfuel
    · obtain ⟨⟨ret₁, fs₁⟩, hcall, hchild⟩ := hrm (path ++ [name]) fs (hshallow.child name)
      obtain ⟨r, hrun, hspec⟩ := ih ret₁ fs₁ (hshallow.removes hchild.removes)
      refine ⟨r, fun fuel hfuel => ?_, hspec.step hchild fun hdots => ?_⟩
      · unfold rmEntries
        rw [if_neg hname, hcall fuel hfuel]
        exact hrun fuel hfuel
      · have hlast := hrun n le_rfl
        rw [rmEntries_dots hdots] at hlast
        exact (Option.some.inj hlast).symm

theorem settles (n : Nat) : Settles n := by
  induction n with
  | zero =>
    intro path fs hshallow
    have hstat : fs.lstat path = none := by
      rw [FS.lstat_eq_none_iff]
      intro e hentry
      exact absurd (hshallow path e List.prefix_rfl hentry) (Nat.lt_irrefl _)
    exact ⟨_, fun _ _ => rm_of_hidden hstat, rmSpec_hidden hstat⟩
  | succ n ih =>
    intro path fs hshallow
    cases hstat : fs.lstat path with
    | none => exact ⟨_, fun _ _ => rm_of_hidden hstat, rmSpec_hidden hstat⟩
    | some mode =>
      obtain ⟨e, hentry, hvisible, rfl⟩ := FS.lstat_eq_some hstat
      have hopendir := FS.opendir_eq hentry
      by_cases hmode : e.stMode &&& S_IFDIR = 0
      · exact ⟨_, fun _ _ => rm_of_file hstat hmode, rmSpec_unlink hvisible hentry hmode⟩
      · by_cases hopen : e.type = .directory ∧ e.opens = true
        · rw [if_pos hopen] at hopendir
          obtain ⟨hdir, hopens⟩ := hopen
          have hreached : e.Reached := by
            refine ⟨hvisible, ?_, ?_, fun _ => hopens⟩ <;> rw [hdir] <;> decide
          obtain ⟨⟨ret, fs'⟩, hrun, hloop⟩ := rmEntries_spec ih path e.listing true fs hshallow
          refine ⟨_, fun fuel hfuel => ?_, rmSpec_rmdir hreached hentry hdir hloop⟩
          obtain ⟨k, rfl⟩ := Nat.exists_eq_add_of_le' (Nat.one_le_of_lt hfuel)
          exact rm_of_opened hstat hmode hopendir (hrun k (Nat.le_of_succ_le_succ hfuel))
        · -- A socket, a block device, or a directory that cannot be read.
          rw [if_neg hopen] at hopendir
          have hcannot : ¬ fs.Every path Entry.Erasable := by
            intro hevery
            obtain ⟨⟨-, hsocket, hblock, hopens⟩, -⟩ := hevery path e List.prefix_rfl hentry
            apply hmode
            rw [e.stMode_and_S_IFDIR_eq_zero_iff]
            exact ⟨fun hdir => hopen ⟨hdir, hopens hdir⟩, hsocket, hblock⟩
          exact ⟨_, fun _ _ => rm_of_unopened hstat hmode hopendir,
            rmSpec_kept (.refl _ _) hentry hvisible hcannot⟩

/-- Every call terminates, and its answer and file system meet the specification. -/
theorem rm_spec (path : Path) (fs : FS) :
    ∃ r, (∃ n, ∀ fuel, n < fuel → rm fuel path fs = some r) ∧ RmSpec path fs r := by
  obtain ⟨n, hshallow⟩ := fs.exists_shallow path
  obtain ⟨r, hrun, hspec⟩ := settles n path fs hshallow
  refine ⟨r, ⟨n, fun fuel hfuel => ?_⟩, hspec⟩
  obtain ⟨k, rfl⟩ := Nat.exists_eq_add_of_le' (Nat.one_le_of_lt hfuel)
  exact hrun k (Nat.le_of_lt_succ hfuel)

/-- The kernel lets every entry of the tree be removed, a directory once it is empty. -/
def FS.AllRemovable (fs : FS) (path : Path) : Prop := fs.Every path fun e => e.removable = true

/-- `Rm` ends; it answers true and leaves all but the tree if every single removal can succeed,
and false if one cannot. -/
def RmFaithful (path : Path) (fs : FS) : Prop :=
  ∃ ret fs', (∃ n, ∀ fuel, n < fuel → rm fuel path fs = some (ret, fs')) ∧
    (fs.AllRemovable path → ret = true ∧ fs' = fs.without path) ∧
    (¬ fs.AllRemovable path → ret = false)

namespace RmSpec

variable {path : Path} {fs fs' : FS} {ret : Bool}

theorem eq_without (h : RmSpec path fs (ret, fs')) (hgone : fs'.entry path = none) :
    fs' = fs.without path := by
  ext1
  funext q
  change _ = if ¬ path <+: q then fs.entry q else none
  by_cases hq : path <+: q
  · rw [if_neg (not_not.mpr hq)]
    exact FS.entry_eq_none_below hq hgone
  · rw [if_pos hq]
    exact h.removes.outside hq

theorem every_of_gone (h : RmSpec path fs (ret, fs')) (hgone : fs'.entry path = none) :
    fs.Every path Entry.Erasable :=
  fun _ _ hq hentry => h.removes.of_gone hentry (FS.entry_eq_none_below hq hgone)

end RmSpec

theorem rm_faithful_iff (path : Path) (fs : FS) :
    RmFaithful path fs ↔
      (fs.AllRemovable path → fs.Every path Entry.Reached) ∧
      (¬ fs.AllRemovable path → fs.lstat path ≠ none) := by
  obtain ⟨⟨ret, fs'⟩, ⟨n, hrun⟩, hspec⟩ := rm_spec path fs
  constructor
  · rintro ⟨ret', fs'', ⟨m, hrun'⟩, htrue, hfalse⟩
    have heq : (ret, fs') = (ret', fs'') := by
      have hlarge := hrun (n + m + 1) (by omega)
      rw [hrun' (n + m + 1) (by omega)] at hlarge
      exact (Option.some.inj hlarge).symm
    cases heq
    constructor
    · intro hall q e hq hentry
      have hgone : fs'.entry path = none := by
        rw [(htrue hall).2]
        exact if_neg (not_not.mpr List.prefix_rfl)
      exact (hspec.every_of_gone hgone q e hq hentry).1
    · intro hnot hhidden
      have hret := hspec.hidden hhidden
      rw [show ret = false from hfalse hnot] at hret
      cases hret
  · rintro ⟨hreached, hseen⟩
    refine ⟨ret, fs', ⟨n, hrun⟩, fun hall => ?_, fun hnot => ?_⟩
    · have hgone : fs'.entry path = none := hspec.cleared fun q e hq hentry =>
        ⟨hreached hall q e hq hentry, hall q e hq hentry⟩
      exact ⟨hspec.gone hgone, hspec.eq_without hgone⟩
    · -- An answer of true would mean that the tree is gone, hence that all of it was removable.
      cases hret : ret with
      | false => rfl
      | true =>
        have hgone := (hspec.done hret).resolve_left (hseen hnot)
        exact absurd (fun q e hq hentry => (hspec.every_of_gone hgone q e hq hentry).2) hnot

def socketFs : FS where
  entry q :=
    if q = [] then some ⟨.directory, 0o755, true, true, true, [dot, dotdot, [0x73]]⟩
    else if q = [[0x73]] then some ⟨.socket, 0o755, true, true, false, []⟩
    else none
  parent {path name e} h := by
    rw [if_neg (List.append_ne_nil_of_right_ne_nil path (List.cons_ne_nil name []))] at h
    split at h
    · rename_i heq
      have hsplit : path ++ [name] = [] ++ [[0x73]] := heq
      obtain ⟨hpath, hname⟩ := List.append_inj' hsplit rfl
      cases hname
      refine ⟨_, if_pos hpath, rfl, ?_⟩
      decide
    · cases h
  depth := by
    use 1
    intro q e h
    split at h
    · rename_i heq
      rw [heq]
      decide
    · split at h
      · rename_i heq
        rw [heq]
        decide
      · cases h

/-- The bit tested for a directory is set for a socket: `opendir` is called on it, and it stays. -/
theorem rm_keeps_socket :
    socketFs.AllRemovable [[0x73]] ∧
    (∀ fuel, rm (fuel + 1) [[0x73]] socketFs = some (false, socketFs)) ∧
    (socketFs.entry [[0x73]]).isSome := by
  refine ⟨?_, fun fuel => rfl, rfl⟩
  intro q e _ h
  unfold socketFs at h
  dsimp only at h
  split at h
  · cases h
    rfl
  · split at h
    · cases h
      rfl
    · cases h

end Sylar.FSUtil
