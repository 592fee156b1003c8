import Mathlib.Algebra.Order.Floor.Semifield
import Mathlib.Data.Rat.Floor
import Sylar.FdManager.Basic
import Sylar.IOManager.Invariant

/-! How the tables of `FdManager::get` and `IOManager::addEvent` grow. The size is compared as an
`int` and set to `fd * 1.5`, whose fraction is cut off. -/
namespace Sylar

def intOfSize (size : Nat) : Int := (BitVec.ofNat 32 size).toInt

/-- `fd * 1.5` as a `size_t`. A `double` holds the product exactly. -/
def grownSize (fd : Nat) : Nat := ⌊(fd : ℚ) * (3 / 2)⌋₊

theorem grownSize_eq (fd : Nat) : grownSize fd = fd * 3 / 2 := by
  have hquot : (fd : ℚ) * (3 / 2) = ((fd * 3 : Nat) : ℚ) / (2 : Nat) := by
    push_cast
    ring
  unfold grownSize
  rw [hquot]
  exact Nat.floor_div_eq_div (fd * 3) 2

theorem intOfSize_le (size : Nat) : intOfSize size ≤ size := by
  have hmod : size % 2 ^ 32 ≤ size := Nat.mod_le _ _
  unfold intOfSize
  rw [BitVec.toInt_eq_toNat_cond, BitVec.toNat_ofNat]
  split <;> omega

/-- The growth passes the descriptor, but not the first two of them. -/
theorem lt_grownSize_iff (fd : Nat) : fd < grownSize fd ↔ 2 ≤ fd := by
  rw [grownSize_eq]
  omega

namespace FdManager

variable (fd : Nat) (fstat : Option Bool) (m : FdManager)

def resize (size : Nat) (datas : List (Option Nat)) : List (Option Nat) :=
  datas.take size ++ List.replicate (size - datas.length) none

/-- The table under the write lock of `get(fd, true)`, at the index. -/
def grown : List (Option Nat) :=
  if (fd : Int) ≥ intOfSize m.datas.length then resize (grownSize fd) m.datas else m.datas

/-- The part of `get(fd, true)` under the write lock, with the comparison as the source has it. -/
def make : Except IOManager.Fault (Option Nat × FdManager) :=
  (m.store (m.grown fd) fd fstat).map fun r => (some r.1, r.2)

/-- `get(fd, auto_create)` in one thread, for a descriptor that is not negative. -/
def get (autoCreate : Bool) : Except IOManager.Fault (Option Nat × FdManager) :=
  if intOfSize m.datas.length ≤ fd then
    if autoCreate = false then .ok (none, m) else m.make fd fstat
  else
    match m.datas[fd]? with
    | none => .error .outOfRange
    | some p => if p.isSome || !autoCreate then .ok (p, m) else m.make fd fstat

@[simp] theorem length_resize (size : Nat) (datas : List (Option Nat)) :
    (resize size datas).length = size := by
  unfold resize
  rw [List.length_append, List.length_take, List.length_replicate]
  omega

theorem lt_length_grown_iff :
    fd < (m.grown fd).length ↔ (intOfSize m.datas.length ≤ fd → 2 ≤ fd) := by
  unfold grown
  split
  case isTrue hgrows => rw [length_resize, lt_grownSize_iff, forall_prop_of_true hgrows]
  case isFalse hfits =>
    have hle := intOfSize_le m.datas.length
    exact iff_of_true (by omega) fun hgrows => absurd hgrows hfits

theorem get_ok_iff :
    (∃ r, m.get fd fstat true = .ok r) ↔ (intOfSize m.datas.length ≤ fd → 2 ≤ fd) := by
  have hmake : (∃ r, m.make fd fstat = .ok r) ↔ (intOfSize m.datas.length ≤ fd → 2 ≤ fd) := by
    rw [← lt_length_grown_iff]
    unfold make store
    split
    case isTrue hlt => exact iff_of_true ⟨_, rfl⟩ hlt
    case isFalse hge => exact iff_of_false (by simp [Except.map]) hge
  unfold get
  split
  case isTrue hgrows => exact hmake
  case isFalse hfits =>
    have hle := intOfSize_le m.datas.length
    have hin : fd < m.datas.length := by omega
    rw [List.getElem?_eq_getElem hin]
    dsimp only
    split
    · exact iff_of_true ⟨_, rfl⟩ fun hgrows => absurd hgrows hfits
    · exact hmake

end FdManager

namespace IOManager

variable {Cb : Type} (fd : Nat) (s : IOManager Cb)

/-- The lookup at the start of `addEvent`, with the comparison as the source has it. -/
def grown : IOManager Cb :=
  if intOfSize s.contexts.length > fd then s else s.contextResize (grownSize fd)

@[simp] theorem length_contextResize (size : Nat) :
    (s.contextResize size).contexts.length = size := by
  unfold contextResize
  rw [List.length_append, List.length_take, List.length_map, List.length_range']
  omega

theorem lt_length_grown_iff :
    fd < (s.grown fd).contexts.length ↔ (intOfSize s.contexts.length ≤ fd → 2 ≤ fd) := by
  unfold grown
  split
  case isTrue hfits =>
    have hle := intOfSize_le s.contexts.length
    exact iff_of_true (by omega) fun hgrows => absurd hfits (not_lt.mpr hgrows)
  case isFalse hgrows =>
    rw [length_contextResize, lt_grownSize_iff, forall_prop_of_true (not_lt.mp hgrows)]

theorem deref_ok_iff : (∃ c, s.deref fd = .ok c) ↔ fd < s.contexts.length := by
  unfold deref
  split
  case h_1 c hc => exact iff_of_true ⟨c, rfl⟩ (List.getElem?_eq_some_iff.mp hc).1
  case h_2 hnone => exact iff_of_false (by simp) (not_lt.mpr (List.getElem?_eq_none_iff.mp hnone))

end IOManager

/-- The index that follows the growth is in range, and the call returns, exactly if the table did
not have to grow or the descriptor is neither 0 nor 1. -/
theorem grown_in_range_iff {Cb : Type} (fd : Nat) (fstat : Option Bool) (m : FdManager)
    (s : IOManager Cb) :
    (fd < (m.grown fd).length ↔ (intOfSize m.datas.length ≤ fd → 2 ≤ fd)) ∧
    ((∃ r, m.get fd fstat true = .ok r) ↔ fd < (m.grown fd).length) ∧
    (fd < (s.grown fd).contexts.length ↔ (intOfSize s.contexts.length ≤ fd → 2 ≤ fd)) ∧
    ((∃ c, (s.grown fd).deref fd = .ok c) ↔ fd < (s.grown fd).contexts.length) := by
  have hget := m.get_ok_iff fd fstat
  rw [← FdManager.lt_length_grown_iff] at hget
  exact ⟨m.lt_length_grown_iff fd, hget, s.lt_length_grown_iff fd, (s.grown fd).deref_ok_iff fd⟩

/-- A new manager asked for descriptor 0 keeps its empty table, and for descriptor 1 makes one
entry. -/
theorem get_small_out_of_range :
    (FdManager.init.grown 0).length = 0 ∧ (FdManager.init.grown 1).length = 1 ∧
    FdManager.init.get 0 (some false) true = .error .outOfRange ∧
    FdManager.init.get 1 (some false) true = .error .outOfRange := by
  have hempty (fd : Nat) : intOfSize FdManager.init.datas.length ≤ fd :=
    (intOfSize_le 0).trans fd.cast_nonneg
  have hlen (fd : Nat) : (FdManager.init.grown fd).length = fd * 3 / 2 := by
    unfold FdManager.grown
    rw [if_pos (hempty fd), FdManager.length_resize, grownSize_eq]
  have hget (fd : Nat) (hshort : fd * 3 / 2 ≤ fd) :
      FdManager.init.get fd (some false) true = .error .outOfRange := by
    unfold FdManager.get FdManager.make FdManager.store
    rw [if_pos (hempty fd), hlen, if_neg (by decide), if_neg (not_lt.mpr hshort)]
    rfl
  exact ⟨hlen 0, hlen 1, hget 0 (by decide), hget 1 (by decide)⟩

end Sylar
