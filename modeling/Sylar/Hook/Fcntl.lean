import Mathlib.Data.List.Induction
import Sylar.FdManager.Basic

/-! The hooked `fcntl(F_SETFL)`, `fcntl(F_GETFL)` and `ioctl(FIONBIO)` on one descriptor.
The file flags are the kernel's; whether it accepts a request that changes them is given
with the request. -/
namespace Sylar.Hook

abbrev Flags := BitVec 32

def O_NONBLOCK : Flags := 0x800

/-- The flags that `F_SETFL` can change: `O_APPEND`, `O_NONBLOCK`, `O_ASYNC`, `O_DIRECT` and
`O_NOATIME`. -/
def setflMask : Flags := 0x46c00

def kernelSetfl (flags arg : Flags) (ok : Bool) : Flags :=
  if ok then (arg &&& setflMask) ||| (flags &&& ~~~setflMask) else flags

def kernelFionbio (flags : Flags) (v : BitVec 32) (ok : Bool) : Flags :=
  if ok then (if v ≠ 0 then flags ||| O_NONBLOCK else flags &&& ~~~O_NONBLOCK) else flags

/-- The kernel's flags of a descriptor, and its context if it has one. -/
structure Descriptor where
  flags : Flags
  ctx : Option FdCtx

namespace Descriptor

def openSocket (fd : Nat) (flags : Flags) : Descriptor where
  flags := if flags &&& O_NONBLOCK = 0 then kernelSetfl flags (flags ||| O_NONBLOCK) true else flags
  ctx := some (.init fd (some true))

def setfl (d : Descriptor) (arg : Flags) (ok : Bool) : Descriptor :=
  match d.ctx with
  | none => { d with flags := kernelSetfl d.flags arg ok }
  | some ctx =>
    if ctx.isClosed || !ctx.isSocket then
      { d with flags := kernelSetfl d.flags arg ok }
    else
      let arg' := if ctx.sysNonblock then arg ||| O_NONBLOCK else arg &&& ~~~O_NONBLOCK
      { flags := kernelSetfl d.flags arg' ok
        ctx := some { ctx with userNonblock := arg &&& O_NONBLOCK ≠ 0 } }

def getfl (d : Descriptor) : Flags :=
  match d.ctx with
  | none => d.flags
  | some ctx =>
    if ctx.isClosed || !ctx.isSocket then
      d.flags
    else if ctx.userNonblock then
      d.flags ||| O_NONBLOCK
    else
      d.flags &&& ~~~O_NONBLOCK

/-- The request goes to the kernel as it is. -/
def fionbio (d : Descriptor) (v : BitVec 32) (ok : Bool) : Descriptor :=
  match d.ctx with
  | none => { d with flags := kernelFionbio d.flags v ok }
  | some ctx =>
    if ctx.isClosed || !ctx.isSocket then
      { d with flags := kernelFionbio d.flags v ok }
    else
      { flags := kernelFionbio d.flags v ok, ctx := some { ctx with userNonblock := v ≠ 0 } }

end Descriptor

inductive FlagCall where
  | setfl (arg : Flags) (ok : Bool)
  | getfl
  | fionbio (v : BitVec 32) (ok : Bool)
  deriving DecidableEq

def FlagCall.run (d : Descriptor) : FlagCall → Descriptor
  | .setfl arg ok => d.setfl arg ok
  | .getfl => d
  | .fionbio v ok => d.fionbio v ok

def runFlags (fd : Nat) (flags : Flags) (h : List FlagCall) : Descriptor :=
  h.foldl FlagCall.run (.openSocket fd flags)

def FlagCall.asks : FlagCall → Option Bool
  | .setfl arg _ => some (arg &&& O_NONBLOCK ≠ 0)
  | .getfl => none
  | .fionbio v _ => some (v ≠ 0)

def FlagCall.sets : FlagCall → Option Flags
  | .setfl arg true => some arg
  | _ => none

/-- The most recent request asked for a non-blocking descriptor. -/
def asked (h : List FlagCall) : Bool := (h.reverse.findSome? FlagCall.asks).getD false

def lastSet (flags : Flags) (h : List FlagCall) : Flags :=
  match h.reverse.findSome? FlagCall.sets with
  | none => flags
  | some arg => kernelSetfl flags arg true

def userView (flags : Flags) (h : List FlagCall) : Flags :=
  if asked h then lastSet flags h ||| O_NONBLOCK else lastSet flags h &&& ~~~O_NONBLOCK

@[simp] theorem getLsbD_nonblock (i : Nat) : O_NONBLOCK.getLsbD i = decide (11 = i) := by
  have hpow : O_NONBLOCK = BitVec.twoPow 32 11 := by decide
  rw [hpow, BitVec.getLsbD_twoPow]
  rfl

theorem nonblock_iff (flags : Flags) : flags &&& O_NONBLOCK ≠ 0 ↔ flags.getLsbD 11 = true := by
  have hand (i : Nat) : (flags &&& O_NONBLOCK).getLsbD i = (flags.getLsbD i && decide (11 = i)) := by
    rw [BitVec.getLsbD_and, getLsbD_nonblock]
  constructor
  · intro hne
    by_contra hbit
    apply hne
    apply BitVec.eq_of_getLsbD_eq
    intro i hi
    rw [hand]
    by_cases heq : 11 = i
    · subst heq
      rw [Bool.eq_false_iff.mpr hbit, Bool.false_and]
      exact BitVec.getLsbD_zero.symm
    · simp [heq]
  · intro hbit hzero
    have := hand 11
    rw [hzero, hbit] at this
    cases this

@[simp] theorem getLsbD_setNonblock (flags : Flags) (i : Nat) :
    (flags ||| O_NONBLOCK).getLsbD i = (flags.getLsbD i || decide (11 = i)) := by
  rw [BitVec.getLsbD_or, getLsbD_nonblock]

@[simp] theorem getLsbD_clearNonblock (flags : Flags) {i : Nat} (hi : i < 32) :
    (flags &&& ~~~O_NONBLOCK).getLsbD i = (flags.getLsbD i && !decide (11 = i)) := by
  rw [BitVec.getLsbD_and, BitVec.getLsbD_not, getLsbD_nonblock, decide_eq_true hi, Bool.true_and]

@[simp] theorem getLsbD_kernelSetfl (flags arg : Flags) {i : Nat} (hi : i < 32) :
    (kernelSetfl flags arg true).getLsbD i =
      if setflMask.getLsbD i then arg.getLsbD i else flags.getLsbD i := by
  rw [kernelSetfl, if_pos rfl, BitVec.getLsbD_or, BitVec.getLsbD_and, BitVec.getLsbD_and,
    BitVec.getLsbD_not, decide_eq_true hi, Bool.true_and]
  cases setflMask.getLsbD i <;> simp

/-- The kernel's flags agree with `flags` but for `O_NONBLOCK`. -/
def Agree (kernel flags : Flags) : Prop :=
  ∀ i < 32, i ≠ 11 → kernel.getLsbD i = flags.getLsbD i

/-- The context is the open socket's, it knows what was asked last, and the kernel's other
flags are those last set. -/
structure Mirrors (d : Descriptor) (flags : Flags) (h : List FlagCall) : Prop where
  ctx : ∃ ctx, d.ctx = some ctx ∧ ctx.isClosed = false ∧ ctx.isSocket = true ∧
    ctx.sysNonblock = true ∧ ctx.userNonblock = asked h
  agree : Agree d.flags (lastSet flags h)

@[simp] theorem asked_concat (h : List FlagCall) (c : FlagCall) :
    asked (h ++ [c]) = c.asks.getD (asked h) := by
  unfold asked
  rw [List.reverse_concat, List.findSome?_cons]
  cases c.asks <;> rfl

@[simp] theorem lastSet_concat (flags : Flags) (h : List FlagCall) (c : FlagCall) :
    lastSet flags (h ++ [c]) =
      match c.sets with
      | none => lastSet flags h
      | some arg => kernelSetfl flags arg true := by
  unfold lastSet
  rw [List.reverse_concat, List.findSome?_cons]
  cases c.sets <;> rfl

variable {d : Descriptor} {flags : Flags} {h : List FlagCall}

theorem Agree.setNonblock {kernel : Flags} (h : Agree kernel flags) :
    Agree (kernel ||| O_NONBLOCK) flags := by
  intro i hi hne
  rw [getLsbD_setNonblock, decide_eq_false (Ne.symm hne), Bool.or_false, h i hi hne]

theorem Agree.clearNonblock {kernel : Flags} (h : Agree kernel flags) :
    Agree (kernel &&& ~~~O_NONBLOCK) flags := by
  intro i hi hne
  rw [getLsbD_clearNonblock _ hi, decide_eq_false (Ne.symm hne), Bool.not_false, Bool.and_true,
    h i hi hne]

theorem Agree.kernelSetfl {kernel : Flags}
    (hfixed : ∀ i < 32, setflMask.getLsbD i = false → kernel.getLsbD i = flags.getLsbD i)
    {arg arg' : Flags} (harg : Agree arg' arg) :
    Agree (kernelSetfl kernel arg' true) (kernelSetfl flags arg true) := by
  intro i hi hne
  rw [getLsbD_kernelSetfl _ _ hi, getLsbD_kernelSetfl _ _ hi]
  cases hmask : setflMask.getLsbD i with
  | true => simpa using harg i hi hne
  | false => simpa using hfixed i hi hmask

@[simp] theorem getLsbD_setflMask_nonblock : setflMask.getLsbD 11 = true := by decide

/-- What `F_SETFL` cannot change is as it was at first. -/
theorem lastSet_fixed (flags : Flags) (h : List FlagCall) {i : Nat} (hi : i < 32)
    (hmask : setflMask.getLsbD i = false) : (lastSet flags h).getLsbD i = flags.getLsbD i := by
  unfold lastSet
  split
  · rfl
  · rw [getLsbD_kernelSetfl _ _ hi, hmask]
    rfl

theorem mirrors_openSocket (fd : Nat) (flags : Flags) : Mirrors (.openSocket fd flags) flags [] := by
  refine ⟨⟨_, rfl, rfl, rfl, rfl, rfl⟩, ?_⟩
  intro i hi hne
  unfold Descriptor.openSocket
  simp only
  split
  · rw [getLsbD_kernelSetfl _ _ hi, getLsbD_setNonblock, decide_eq_false (Ne.symm hne),
      Bool.or_false, ite_self]
    rfl
  · rfl

@[simp] theorem nonblock_openSocket (fd : Nat) (flags : Flags) :
    (Descriptor.openSocket fd flags).flags.getLsbD 11 = true := by
  unfold Descriptor.openSocket
  simp only
  split
  · rw [getLsbD_kernelSetfl _ _ (by decide), getLsbD_setflMask_nonblock, if_pos rfl,
      getLsbD_setNonblock, decide_eq_true rfl, Bool.or_true]
  · exact (nonblock_iff flags).mp ‹_›

theorem Mirrors.run_eq (hd : Mirrors d flags h) (c : FlagCall) :
    (c.run d).flags =
        (match c with
        | .setfl arg ok => kernelSetfl d.flags (arg ||| O_NONBLOCK) ok
        | .getfl => d.flags
        | .fionbio v ok => kernelFionbio d.flags v ok) ∧
      ∃ ctx, (c.run d).ctx = some ctx ∧ ctx.isClosed = false ∧ ctx.isSocket = true ∧
        ctx.sysNonblock = true ∧ ctx.userNonblock = asked (h ++ [c]) := by
  obtain ⟨⟨ctx, hctx, hclosed, hsocket, hsys, huser⟩, -⟩ := hd
  rw [asked_concat]
  cases c with
  | setfl arg ok =>
    simp only [FlagCall.run, Descriptor.setfl, hctx, hclosed, hsocket, hsys, Bool.not_true,
      Bool.or_self, Bool.false_eq_true, if_false, if_true]
    exact ⟨trivial, _, rfl, rfl, rfl, rfl, rfl⟩
  | getfl => exact ⟨rfl, ctx, hctx, hclosed, hsocket, hsys, huser⟩
  | fionbio v ok =>
    simp only [FlagCall.run, Descriptor.fionbio, hctx, hclosed, hsocket, Bool.not_true,
      Bool.or_self, Bool.false_eq_true, if_false]
    exact ⟨trivial, _, rfl, rfl, rfl, hsys, rfl⟩

theorem Mirrors.step (hd : Mirrors d flags h) (c : FlagCall) :
    Mirrors (c.run d) flags (h ++ [c]) := by
  obtain ⟨hflags, hctx⟩ := hd.run_eq c
  refine ⟨hctx, ?_⟩
  rw [hflags, lastSet_concat]
  have hagree := hd.agree
  cases c with
  | setfl arg ok =>
    cases ok with
    | false => exact hagree
    | true =>
      apply Agree.kernelSetfl
      · intro i hi hmask
        have hne : i ≠ 11 := by
          rintro rfl
          rw [getLsbD_setflMask_nonblock] at hmask
          cases hmask
        rw [hagree i hi hne, lastSet_fixed flags h hi hmask]
      · exact Agree.setNonblock fun i _ _ => rfl
  | getfl => exact hagree
  | fionbio v ok =>
    unfold kernelFionbio
    simp only [FlagCall.sets]
    split
    · split
      · exact hagree.setNonblock
      · exact hagree.clearNonblock
    · exact hagree

theorem Mirrors.getfl (hd : Mirrors d flags h) : d.getfl = userView flags h := by
  obtain ⟨⟨ctx, hctx, hclosed, hsocket, -, huser⟩, hagree⟩ := hd
  simp only [Descriptor.getfl, hctx, hclosed, hsocket, huser, userView, Bool.not_true,
    Bool.or_self, Bool.false_eq_true, if_false]
  apply BitVec.eq_of_getLsbD_eq
  intro i hi
  by_cases heq : 11 = i
  · split
    · simp only [getLsbD_setNonblock, decide_eq_true heq, Bool.or_true]
    · simp only [getLsbD_clearNonblock _ hi, decide_eq_true heq, Bool.not_true, Bool.and_false]
  · have hbit := hagree i hi (Ne.symm heq)
    split
    · simp only [getLsbD_setNonblock, hbit]
    · simp only [getLsbD_clearNonblock _ hi, hbit]

theorem Mirrors.nonblock_step (hd : Mirrors d flags h) (hset : d.flags.getLsbD 11 = true)
    {c : FlagCall} (hc : c ≠ .fionbio 0 true) : (c.run d).flags.getLsbD 11 = true := by
  rw [(hd.run_eq c).1]
  cases c with
  | setfl arg ok =>
    cases ok with
    | false => exact hset
    | true =>
      simp only
      rw [getLsbD_kernelSetfl _ _ (by decide), getLsbD_setflMask_nonblock, if_pos rfl,
        getLsbD_setNonblock, decide_eq_true rfl, Bool.or_true]
  | getfl => exact hset
  | fionbio v ok =>
    cases ok with
    | false => exact hset
    | true =>
      have hv : v ≠ 0 := by
        rintro rfl
        exact hc rfl
      simp only [kernelFionbio, if_true, if_pos hv]
      rw [getLsbD_setNonblock, decide_eq_true rfl, Bool.or_true]

@[simp] theorem runFlags_concat (fd : Nat) (flags : Flags) (h : List FlagCall) (c : FlagCall) :
    runFlags fd flags (h ++ [c]) = c.run (runFlags fd flags h) := by
  simp [runFlags]

theorem mirrors_runFlags (fd : Nat) (flags : Flags) (h : List FlagCall) :
    Mirrors (runFlags fd flags h) flags h := by
  induction h using List.reverseRecOn with
  | nil => exact mirrors_openSocket fd flags
  | append_singleton h c ih =>
    rw [runFlags_concat]
    exact ih.step c

theorem nonblock_runFlags (fd : Nat) (flags : Flags) (h : List FlagCall)
    (hclear : FlagCall.fionbio 0 true ∉ h) : (runFlags fd flags h).flags.getLsbD 11 = true := by
  induction h using List.reverseRecOn with
  | nil => exact nonblock_openSocket fd flags
  | append_singleton h c ih =>
    rw [runFlags_concat]
    rw [List.mem_append, not_or, List.mem_singleton] at hclear
    exact (mirrors_runFlags fd flags h).nonblock_step (ih hclear.1) (Ne.symm hclear.2)

/-- The kernel keeps `O_NONBLOCK` throughout, and `F_GETFL` always reports what was asked
for, if and only if no `FIONBIO` of zero is accepted: the hooked `ioctl` passes it on. -/
theorem runFlags_nonblock_iff (fd : Nat) (flags : Flags) (h : List FlagCall) :
    (∀ pre, pre <+: h → (runFlags fd flags pre).flags &&& O_NONBLOCK ≠ 0 ∧
        (runFlags fd flags pre).getfl = userView flags pre) ↔
      FlagCall.fionbio 0 true ∉ h := by
  constructor
  · intro hkeeps hmem
    obtain ⟨pre, post, rfl⟩ := List.append_of_mem hmem
    have hpre : pre ++ [FlagCall.fionbio 0 true] <+: pre ++ FlagCall.fionbio 0 true :: post :=
      ⟨post, by simp⟩
    have hset := (nonblock_iff _).mp (hkeeps _ hpre).1
    rw [runFlags_concat, ((mirrors_runFlags fd flags pre).run_eq _).1] at hset
    simp only [kernelFionbio, if_true, ne_eq, not_true, if_false] at hset
    rw [getLsbD_clearNonblock _ (by decide)] at hset
    simp at hset
  · intro hclear pre hpre
    refine ⟨(nonblock_iff _).mpr (nonblock_runFlags fd flags pre ?_),
      (mirrors_runFlags fd flags pre).getfl⟩
    exact fun hmem => hclear (hpre.subset hmem)

/-- The user asks for a blocking socket, and the kernel gets to see it. -/
theorem runFlags_blocking :
    (runFlags 3 0x2 [.fionbio 0 true]).flags &&& O_NONBLOCK = 0 := by decide

end Sylar.Hook
