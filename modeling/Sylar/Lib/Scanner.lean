import Sylar.Lib.Run

/-! Scanners: automata over bytes whose arcs carry actions on a state. A text is read quietly
when no arc on its way has an action; a stretch has actions at its first byte and at the byte
behind it. What a text makes of a part of the state is the same wherever it stands in memory,
and texts that follow each other compose. -/
namespace Sylar.Lib.Scanner

variable {σ δ φ ρ : Type}

inductive Quiet (silent : Nat → UInt8 → Nat → Prop) : Nat → List UInt8 → Nat → Prop
  | nil {cs : Nat} : Quiet silent cs [] cs
  | cons {cs n cs' : Nat} {b : UInt8} {bs : List UInt8} (arc : silent cs b n)
    (rest : Quiet silent n bs cs') : Quiet silent cs (b :: bs) cs'

section Scan

variable {silent : Nat → UInt8 → Nat → Prop} {scan : Nat → Nat → List UInt8 → σ → Except φ ρ}
  {p cs cs' n n' : Nat} {b d : UInt8} {w more : List UInt8} {s : σ}

theorem Quiet.of_forall (h : ∀ b ∈ w, silent cs b cs) : Quiet silent cs w cs := by
  induction w with
  | nil => exact .nil
  | cons b w ih =>
    exact .cons (h b List.mem_cons_self) (ih fun c hc => h c (List.mem_cons_of_mem b hc))

variable (hstep : ∀ {p cs b n} (more : List UInt8) (s : σ), silent cs b n →
  scan p cs (b :: more) s = scan (p + 1) n more s)

include hstep

theorem scan_quiet (h : Quiet silent cs w cs') :
    scan p cs (w ++ more) s = scan (p + w.length) cs' more s := by
  induction h generalizing p with
  | nil => rfl
  | @cons cs n cs' b bs arc rest ih =>
    have hlen : p + (b :: bs).length = p + 1 + bs.length := by
      rw [List.length_cons]
      omega
    rw [List.cons_append, hstep _ _ arc, hlen]
    exact ih

theorem scan_stretch {first last : σ → Except φ σ}
    (hfirst : ∀ more s, scan p cs (b :: more) s = first s >>= scan (p + 1) n more)
    (hquiet : Quiet silent n w cs')
    (hend : ∀ more s, scan (p + (b :: w).length) cs' (d :: more) s =
      last s >>= scan (p + (b :: w).length + 1) n' more) :
    scan p cs (b :: w ++ d :: more) s =
      first s >>= fun s => last s >>= scan (p + (b :: w).length + 1) n' more := by
  have hlen : p + (b :: w).length = p + 1 + w.length := by
    rw [List.length_cons]
    omega
  rw [List.cons_append, hfirst]
  congr 1
  funext s
  have hrest : scan (p + 1) n (w ++ d :: more) s = scan (p + 1 + w.length) cs' (d :: more) s :=
    scan_quiet hstep hquiet
  rw [hrest, ← hlen, hend]

end Scan

structure Lies (mem : List UInt8) (off : Nat) (w : List UInt8) : Prop where
  le : off ≤ mem.length
  front : w <+: mem.drop off

namespace Lies

variable {mem u v w : List UInt8} {off : Nat}

theorem fits (h : Lies mem off w) : off + w.length ≤ mem.length := by
  have hlen := h.front.length_le
  have hle := h.le
  rw [List.length_drop] at hlen
  omega

theorem left (h : Lies mem off (u ++ v)) : Lies mem off u :=
  ⟨h.le, (List.prefix_append u v).trans h.front⟩

theorem right (h : Lies mem off (u ++ v)) : Lies mem (off + u.length) v := by
  obtain ⟨rest, hrest⟩ := h.front
  have hfits := h.fits
  rw [List.length_append] at hfits
  refine ⟨by omega, rest, ?_⟩
  rw [← List.drop_drop, ← hrest, List.append_assoc, List.drop_left]

end Lies

section Fills

variable {limit : Nat} {scan : List UInt8 → Nat → Nat → List UInt8 → σ → Except φ ρ}
  {data : σ → δ} {Keeps : σ → σ → Prop} {cs cs₁ cs₂ : Nat} {w w' : List UInt8} {fill fill' : δ → δ}

/-- From the state `cs` a text of fewer than `limit` bytes is read to the state `cs'`, and the
actions make `fill` of the data. -/
def Fills (limit : Nat) (scan : List UInt8 → Nat → Nat → List UInt8 → σ → Except φ ρ)
    (data : σ → δ) (Keeps : σ → σ → Prop) (cs : Nat) (w : List UInt8) (cs' : Nat)
    (fill : δ → δ) : Prop :=
  ∀ mem p s more, Lies mem p w → w.length < limit →
    ∃ s', scan mem p cs (w ++ more) s = scan mem (p + w.length) cs' more s' ∧
      data s' = fill (data s) ∧ Keeps s s'

theorem Fills.trans (htrans : ∀ {s t u}, Keeps s t → Keeps t u → Keeps s u)
    (h : Fills limit scan data Keeps cs w cs₁ fill)
    (h' : Fills limit scan data Keeps cs₁ w' cs₂ fill') :
    Fills limit scan data Keeps cs (w ++ w') cs₂ (fill' ∘ fill) := by
  intro mem p s more hlies hlt
  rw [List.length_append] at hlt ⊢
  obtain ⟨s₁, hscan₁, hdata₁, hkeeps₁⟩ := h mem p s (w' ++ more) hlies.left (by omega)
  obtain ⟨s₂, hscan₂, hdata₂, hkeeps₂⟩ := h' mem (p + w.length) s₁ more hlies.right (by omega)
  refine ⟨s₂, ?_, ?_, htrans hkeeps₁ hkeeps₂⟩
  · rw [List.append_assoc, hscan₁, hscan₂, Nat.add_assoc]
  · rw [hdata₂, hdata₁]
    rfl

theorem Fills.congr (h : Fills limit scan data Keeps cs w cs₁ fill) (hw : w' = w)
    (hfill : ∀ x, fill' x = fill x) : Fills limit scan data Keeps cs w' cs₁ fill' := by
  rw [hw, funext hfill]
  exact h

end Fills

end Sylar.Lib.Scanner
