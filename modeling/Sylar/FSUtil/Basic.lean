import Mathlib.Data.List.Induction
import Mathlib.Tactic.Use

/-! Removal of a file tree. A file system maps paths to entries; what the system calls answer
beyond that (permissions, busy or immutable files) is part of the entries. -/
namespace Sylar.FSUtil

abbrev Name := List UInt8

abbrev Path := List Name

def dot : Name := [0x2e]
def dotdot : Name := [0x2e, 0x2e]

inductive FileType where
  | socket
  | symlink
  | regular
  | block
  | directory
  | character
  | fifo
deriving Repr, DecidableEq

def FileType.bits : FileType → BitVec 32
  | .socket => 0o140000
  | .symlink => 0o120000
  | .regular => 0o100000
  | .block => 0o060000
  | .directory => 0o040000
  | .character => 0o020000
  | .fifo => 0o010000

def S_IFDIR : BitVec 32 := 0o040000

/-- `visible`, `removable` and `opens` tell whether the kernel lets `lstat`, `unlink` or `rmdir`,
and `opendir` succeed. The names that `readdir` lists may be stale, and may be "." and "..". -/
structure Entry where
  type : FileType
  perm : BitVec 12
  visible : Bool
  removable : Bool
  opens : Bool
  listing : List Name
deriving Repr, DecidableEq

namespace Entry

def stMode (e : Entry) : BitVec 32 := e.type.bits ||| e.perm.setWidth 32

-- The bit of `S_IFDIR` is also set in the numbers of two other types.
theorem stMode_and_S_IFDIR_eq_zero_iff (e : Entry) :
    e.stMode &&& S_IFDIR = 0 ↔ e.type ≠ .directory ∧ e.type ≠ .socket ∧ e.type ≠ .block := by
  have hbit : S_IFDIR = BitVec.twoPow 32 14 := by decide
  have hperm : (e.perm.setWidth 32).getLsbD 14 = false := by
    rw [BitVec.getLsbD_setWidth, BitVec.getLsbD_of_ge e.perm 14 (by decide), Bool.and_false]
  have hmode : e.stMode.getLsbD 14 = e.type.bits.getLsbD 14 := by
    unfold stMode
    rw [BitVec.getLsbD_or, hperm, Bool.or_false]
  rw [hbit, BitVec.and_twoPow, hmode]
  cases e.type <;> decide

end Entry

/-- Every entry lies in a directory that lists it, and paths have bounded length: with the finite
listings, there are finitely many entries. -/
@[ext] structure FS where
  entry : Path → Option Entry
  parent : ∀ {path name e}, entry (path ++ [name]) = some e →
    ∃ dir, entry path = some dir ∧ dir.type = .directory ∧ name ∈ dir.listing ∧
      name ≠ dot ∧ name ≠ dotdot
  depth : ∃ d, ∀ path e, entry path = some e → path.length ≤ d

namespace FS

variable (path : Path) (fs : FS)

/-- The entries at the paths to keep, which must hold with a path the directory it is in. -/
def restrict (keep : Path → Prop) [DecidablePred keep]
    (hclosed : ∀ q name e, fs.entry (q ++ [name]) = some e → keep (q ++ [name]) → keep q) : FS where
  entry q := if keep q then fs.entry q else none
  parent {q name e} h := by
    split at h
    · rename_i hkeep
      rw [if_pos (hclosed q name e h hkeep)]
      exact fs.parent h
    · cases h
  depth := by
    obtain ⟨d, hd⟩ := fs.depth
    use d
    intro q e h
    split at h
    · exact hd q e h
    · cases h

/-- The file system without one entry, which has none under it. -/
def erase (hleaf : ∀ name, fs.entry (path ++ [name]) = none) : FS :=
  fs.restrict (· ≠ path) fun q name e hentry _ heq => by
    rw [heq, hleaf name] at hentry
    cases hentry

def without : FS :=
  fs.restrict (¬ path <+: ·) fun q name _ _ hout hin =>
    hout (hin.trans (List.prefix_append q [name]))

theorem entry_eq_none_below {fs : FS} {path q : Path} (hq : path <+: q)
    (habsent : fs.entry path = none) : fs.entry q = none := by
  obtain ⟨rest, rfl⟩ := hq
  induction rest using List.reverseRecOn with
  | nil => rwa [List.append_nil]
  | append_singleton rest name ih =>
    rw [← List.append_assoc]
    cases hentry : fs.entry (path ++ rest ++ [name]) with
    | none => rfl
    | some e =>
      obtain ⟨dir, hdir, -⟩ := fs.parent hentry
      rw [ih] at hdir
      cases hdir

def lstat : Option (BitVec 32) :=
  match fs.entry path with
  | some e => if e.visible then some e.stMode else none
  | none => none

def opendir : Option (List Name) :=
  match fs.entry path with
  | some e => if e.type = .directory ∧ e.opens then some e.listing else none
  | none => none

theorem no_child_of_file {fs : FS} {path : Path} {e : Entry} (hentry : fs.entry path = some e)
    (hfile : e.type ≠ .directory) (name : Name) : fs.entry (path ++ [name]) = none := by
  cases hchild : fs.entry (path ++ [name]) with
  | none => rfl
  | some c =>
    obtain ⟨dir, hdir, htype, -⟩ := fs.parent hchild
    rw [hentry] at hdir
    cases hdir
    exact absurd htype hfile

theorem no_child_of_listing {fs : FS} {path : Path} {e : Entry} (hentry : fs.entry path = some e)
    (hempty : ∀ name ∈ e.listing, fs.entry (path ++ [name]) = none) (name : Name) :
    fs.entry (path ++ [name]) = none := by
  cases hchild : fs.entry (path ++ [name]) with
  | none => rfl
  | some c =>
    obtain ⟨dir, hdir, -, hlisted, -⟩ := fs.parent hchild
    rw [hentry] at hdir
    cases hdir
    rw [← hchild, hempty name hlisted]

def unlink : Bool × FS :=
  match h : fs.entry path with
  | some e =>
    if hfile : e.type ≠ .directory ∧ e.removable then
      (true, fs.erase path (no_child_of_file h hfile.1))
    else (false, fs)
  | none => (false, fs)

def rmdir : Bool × FS :=
  match h : fs.entry path with
  | some e =>
    if hempty : e.type = .directory ∧ e.removable ∧
        ∀ name ∈ e.listing, fs.entry (path ++ [name]) = none then
      (true, fs.erase path (no_child_of_listing h hempty.2.2))
    else (false, fs)
  | none => (false, fs)

end FS

def unlink (exist : Bool) (filename : Path) (fs : FS) : Bool × FS :=
  if !exist && (fs.lstat filename).isNone then (true, fs) else fs.unlink filename

/-- The loop over a directory; `ret` is the answer for the last name. -/
def rmEntries (rm : Path → FS → Option (Bool × FS)) (path : Path) :
    List Name → Bool → FS → Option (Bool × FS)
  | [], ret, fs => some (ret, fs)
  | name :: names, ret, fs =>
    if name = dot ∨ name = dotdot then rmEntries rm path names ret fs
    else do
      let (ret, fs) ← rm (path ++ [name]) fs
      rmEntries rm path names ret fs

/-- `Rm(path)`; the fuel bounds the depth of the recursion. -/
def rm : Nat → Path → FS → Option (Bool × FS)
  | 0, _, _ => none
  | fuel + 1, path, fs =>
    match fs.lstat path with
    | none => some (true, fs)
    | some mode =>
      if mode &&& S_IFDIR = 0 then some (unlink false path fs)
      else
        match fs.opendir path with
        | none => some (false, fs)
        | some names => do
          let (ret, fs) ← rmEntries (rm fuel) path names true fs
          let (done, fs) := fs.rmdir path
          return (if done then ret else false, fs)

section Equations

variable {fuel : Nat} {path : Path} {fs : FS} {mode : BitVec 32}

theorem rm_of_hidden (hstat : fs.lstat path = none) : rm (fuel + 1) path fs = some (true, fs) := by
  unfold rm
  rw [hstat]

theorem rm_of_file (hstat : fs.lstat path = some mode) (hmode : mode &&& S_IFDIR = 0) :
    rm (fuel + 1) path fs = some (unlink false path fs) := by
  unfold rm
  rw [hstat]
  exact if_pos hmode

variable (hstat : fs.lstat path = some mode) (hmode : mode &&& S_IFDIR ≠ 0)

include hstat hmode

theorem rm_of_unopened (hopen : fs.opendir path = none) :
    rm (fuel + 1) path fs = some (false, fs) := by
  unfold rm
  rw [hstat]
  dsimp only
  rw [if_neg hmode, hopen]

theorem rm_of_opened {names : List Name} (hopen : fs.opendir path = some names) {ret : Bool}
    {fs' : FS} (hloop : rmEntries (rm fuel) path names true fs = some (ret, fs')) :
    rm (fuel + 1) path fs =
      some (if (fs'.rmdir path).1 then ret else false, (fs'.rmdir path).2) := by
  unfold rm
  rw [hstat]
  dsimp only
  rw [if_neg hmode, hopen]
  dsimp only
  rw [hloop]
  rfl

end Equations

end Sylar.FSUtil
