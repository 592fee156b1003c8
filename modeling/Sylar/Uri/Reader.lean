import Sylar.Lib.Simulation
import Sylar.Uri.Phases

/-! Reading a text by phases. A reader holds the text since the mark in place of the
mark; as long as the automaton goes on, the scan does what the reader does. -/
namespace Sylar.Uri

open Lib Lib.Numerals
open Http (Bytes)

/-- The text since the mark in place of the mark. -/
structure Reader where
  held : Option Bytes
  uri : Uri
deriving DecidableEq

namespace Reader

def fresh : Reader := { held := none, uri := .fresh }

def push (r : Reader) (b : UInt8) : Reader := { r with held := r.held.map (· ++ [b]) }

def save (r : Reader) (set : Bytes → Uri → Uri) : Except Fault Reader :=
  match r.held with
  | none => .error .nullMark
  | some s => .ok { held := none, uri := set s r.uri }

def act (r : Reader) (a : Action) : Except Fault Reader :=
  match a with
  | .marku => .ok { r with held := some [] }
  | .markh => .ok { r with held := some [] }
  | .save_scheme => r.save fun s uri => { uri with scheme := s }
  | .save_port => r.save fun s uri => if s = [] then uri else { uri with port := atoi s }
  | .save_userinfo =>
    if r.held.isSome then r.save fun s uri => { uri with userinfo := s } else .ok r
  | .save_host =>
    match r.held with
    | none => .ok r
    | some s => .ok { r with uri := { r.uri with host := s } }
  | .save_path => r.save fun s uri => { uri with path := s }
  | .save_query => r.save fun s uri => { uri with query := s }
  | .save_fragment => r.save fun s uri => { uri with fragment := s }

/-- With `marked`, every `save_` action asks for a mark. -/
def acts (marked : Bool) (r : Reader) (a : Action) : Except Fault Reader :=
  match r.held, a.isSave with
  | none, true => if marked then .error .nullMark else r.act a
  | _, _ => r.act a

def step (marked : Bool) (x : Phase × Reader) (b : UInt8) : Except Fault (Phase × Reader) := do
  let r ← (x.1.step (kind b)).1.foldlM (acts marked) x.2
  return ((x.1.step (kind b)).2, r.push b)

def read (marked : Bool) (x : Phase × Reader) (text : Bytes) : Except Fault (Phase × Reader) :=
  text.foldlM (step marked) x

def finish (marked : Bool) (x : Phase × Reader) : Except Fault Reader :=
  x.1.atEof.foldlM (acts marked) x.2

def finishAt (marked : Bool) (cs : Nat) (x : Phase × Reader) : Except Fault Reader :=
  if uriParserFirstFinal ≤ cs then finish marked x else .ok x.2

end Reader

/-- The actions of `Uri::Create`, with or without the question for a mark. -/
def acts (marked : Bool) (text : Bytes) : Nat → Machine → Action → Except Fault Machine :=
  match marked with
  | true => actMarked text
  | false => act text

structure Agrees (text : Bytes) (p : Nat) (m : Machine) (r : Reader) : Prop where
  uri : m.uri = r.uri
  held : r.held = m.mark.map fun i => (text.drop i).take (p - i)
  le : ∀ i, m.mark = some i → i ≤ p

section Agreement

variable {text : Bytes} {p : Nat} {m : Machine} {r : Reader} {b : UInt8} {marked : Bool}

theorem Agrees.mark_none (h : Agrees text p m r) : m.mark = none ↔ r.held = none := by
  rw [h.held, Option.map_eq_none_iff]

theorem Agrees.push (h : Agrees text p m r) (hb : text[p]? = some b) :
    Agrees text (p + 1) m (r.push b) := by
  refine ⟨h.uri, ?_, fun i hi => (h.le i hi).trans (Nat.le_succ p)⟩
  rw [Reader.push, h.held, Option.map_map]
  cases hmark : m.mark with
  | none => rfl
  | some i =>
    have hle := h.le i hmark
    have hlast : (text.drop i)[p - i]? = some b := by
      rw [List.getElem?_drop, Nat.add_sub_cancel' hle, hb]
    simp only [Option.map_some, Function.comp]
    rw [Nat.succ_sub hle, List.take_add_one, hlast]
    rfl

theorem Agrees.mark (h : Agrees text p m r) : Agrees text p { m with mark := some p }
    { r with held := some [] } := by
  refine ⟨h.uri, ?_, ?_⟩
  · simp
  · intro i hi
    exact Nat.le_of_eq (Option.some.inj hi).symm

theorem Agrees.save (h : Agrees text p m r) (set : Bytes → Uri → Uri) :
    Related (Agrees text p)
      (do let s ← stdString text m.mark p
          return { mark := none, uri := set s m.uri })
      (r.save set) := by
  cases hmark : m.mark with
  | none =>
    rw [Reader.save, h.mark_none.mp hmark]
    exact Related.error _
  | some i =>
    rw [Reader.save, h.held, hmark]
    exact .ok ⟨by rw [h.uri], rfl, by simp⟩

theorem atoi_take {l : Bytes} {n : Nat} (h : ∀ b, l[n]? = some b → isDigit b = false) :
    atoi l = atoi (l.take n) := by
  have hrest : (l.drop n).takeWhile isDigit = [] := by
    cases hd : l.drop n with
    | nil => rfl
    | cons b rest =>
      have hb : l[n]? = some b := by
        rw [← List.head?_drop, hd]
        rfl
      rw [List.takeWhile_cons_of_neg (by simp [h b hb])]
  have hwhole : l.takeWhile isDigit = (l.take n).takeWhile isDigit := by
    conv_lhs => rw [← List.take_append_drop n l]
    rw [List.takeWhile_append, hrest, List.append_nil]
    split
    · rename_i hlen
      exact ((List.takeWhile_prefix _).eq_of_length hlen).symm
    · rfl
  unfold atoi
  rw [hwhole]

theorem Agrees.save_port (h : Agrees text p m r) (hp : p ≤ text.length)
    (hdigit : ∀ b, text[p]? = some b → isDigit b = false) :
    Related (Agrees text p) (act text p m .save_port) (r.act .save_port) := by
  simp only [act, Reader.act, Reader.save, h.held]
  cases hmark : m.mark with
  | none =>
    simp only [reduceCtorEq, if_false]
    exact Related.error _
  | some i =>
    have hle := h.le i hmark
    by_cases hi : i = p
    · subst hi
      simp only [if_true, Option.map_some, Nat.sub_self, List.take_zero]
      exact .ok ⟨h.uri, rfl, by simp⟩
    · have hne : (text.drop i).take (p - i) ≠ [] := by
        rw [Ne, ← List.length_eq_zero_iff, List.length_take, List.length_drop]
        omega
      have hatoi : atoi (text.drop i) = atoi ((text.drop i).take (p - i)) := by
        apply atoi_take
        rw [List.getElem?_drop, Nat.add_sub_cancel' hle]
        exact hdigit
      simp only [Option.some.injEq, if_neg hi, Option.map_some, if_neg hne]
      exact .ok ⟨by rw [h.uri, hatoi], rfl, by simp⟩

theorem Agrees.act (h : Agrees text p m r) (hp : p ≤ text.length) {a : Action}
    (hdigit : a = .save_port → ∀ b, text[p]? = some b → isDigit b = false) :
    Related (Agrees text p) (act text p m a) (r.act a) := by
  cases a with
  | marku => exact .ok h.mark
  | markh => exact .ok h.mark
  | save_scheme => exact h.save fun s uri => { uri with scheme := s }
  | save_port => exact h.save_port hp (hdigit rfl)
  | save_userinfo =>
    have hsome : m.mark.isSome = r.held.isSome := by rw [h.held, Option.isSome_map]
    simp only [Uri.act, Reader.act, hsome]
    split
    · exact h.save fun s uri => { uri with userinfo := s }
    · rename_i hnone
      rw [← hsome, Option.not_isSome_iff_eq_none] at hnone
      exact .ok ⟨h.uri, by rw [h.held, hnone], by simp⟩
  | save_host =>
    cases hmark : m.mark with
    | none =>
      simp only [Uri.act, Reader.act, hmark, h.mark_none.mp hmark]
      exact .ok h
    | some i =>
      simp only [Uri.act, Reader.act, hmark, h.held]
      exact .ok ⟨by rw [h.uri], rfl, fun j hj => h.le j (hmark.trans hj)⟩
  | save_path => exact h.save fun s uri => { uri with path := s }
  | save_query => exact h.save fun s uri => { uri with query := s }
  | save_fragment => exact h.save fun s uri => { uri with fragment := s }

theorem Agrees.acts (h : Agrees text p m r) (hp : p ≤ text.length) {a : Action}
    (hdigit : a = .save_port → ∀ b, text[p]? = some b → isDigit b = false) :
    Related (Agrees text p) (acts marked text p m a) (r.acts marked a) := by
  have hact := h.act hp hdigit
  cases marked with
  | false =>
    have hplain : r.acts false a = r.act a := by
      unfold Reader.acts
      split <;> rfl
    rw [hplain]
    exact hact
  | true =>
    simp only [Uri.acts, actMarked, h.mark_none, Reader.acts]
    cases hheld : r.held with
    | none =>
      cases hsave : a.isSave with
      | true => exact Related.error _
      | false => simpa using hact
    | some s => simpa using hact

end Agreement

def reach : Nat → Bytes → Option Nat
  | cs, [] => some cs
  | cs, b :: bs => (next cs b).bind fun arc => reach arc.target bs

@[simp] theorem reach_append (cs : Nat) (u v : Bytes) :
    reach cs (u ++ v) = (reach cs u).bind (reach · v) := by
  induction u generalizing cs with
  | nil => rfl
  | cons b u ih =>
    simp only [List.cons_append, reach, Option.bind_assoc]
    cases next cs b with
    | none => rfl
    | some arc => exact ih arc.target

theorem reach_or_stuck (cs : Nat) (text : Bytes) :
    (∃ cs', reach cs text = some cs') ∨
      ∃ u b v cs', text = u ++ b :: v ∧ reach cs u = some cs' ∧ next cs' b = none := by
  induction text generalizing cs with
  | nil => exact .inl ⟨cs, rfl⟩
  | cons b text ih =>
    cases hn : next cs b with
    | none => exact .inr ⟨[], b, text, cs, rfl, rfl, hn⟩
    | some arc =>
      rcases ih arc.target with ⟨cs', h⟩ | ⟨u, c, v, cs', rfl, hu, hc⟩
      · refine .inl ⟨cs', ?_⟩
        rw [reach, hn]
        exact h
      · refine .inr ⟨b :: u, c, v, cs', rfl, ?_, hc⟩
        rw [reach, hn]
        exact hu

section Walk

variable (A : Nat → Machine → Action → Except Fault Machine)

def walk : Nat → Nat → Bytes → Machine → Except Fault Machine
  | _, _, [], m => .ok m
  | p, cs, b :: bs, m =>
    match next cs b with
    | none => .ok m
    | some arc => do
      let m ← arc.actions.foldlM (A p) m
      walk (p + 1) arc.target bs m

theorem scan_append {u v : Bytes} {p cs cs' : Nat} {m : Machine} (h : reach cs u = some cs') :
    scan A p cs (u ++ v) m = (walk A p cs u m >>= scan A (p + u.length) cs' v) := by
  induction u generalizing p cs m with
  | nil =>
    obtain rfl := Option.some.inj h
    rfl
  | cons b u ih =>
    obtain ⟨arc, hn, h⟩ := Option.bind_eq_some_iff.mp h
    simp only [List.cons_append, scan, walk, hn, bind_assoc, List.length_cons]
    congr 1
    funext m
    rw [ih h, Nat.add_assoc, Nat.add_comm 1]

end Walk

theorem not_isDigit_of_save_port {ph : Phase} {b : UInt8}
    (h : .save_port ∈ (ph.step (kind b)).1) : isDigit b = false := by
  have hkind : ∀ b, isDigit b = true → kind b = .digit := forall_byte (by decide +kernel)
  by_contra hb
  rw [hkind b (by simpa using hb)] at h
  cases ph <;> simp [Phase.step, Phase.textStep] at h

section Reading

variable {text u v : Bytes} {p cs cs' : Nat} {m : Machine} {r : Reader} {marked : Bool}

/-- Along bytes that the automaton takes, the reader keeps up with the scan. -/
theorem walk_read (htext : text.drop p = u ++ v) (h : reach cs u = some cs')
    (hm : Agrees text p m r) :
    Related (fun m x => x.1 = phaseOf cs' ∧ Agrees text (p + u.length) m x.2)
      (walk (acts marked text) p cs u m) (Reader.read marked (phaseOf cs, r) u) := by
  induction u generalizing p cs m r with
  | nil =>
    obtain rfl := Option.some.inj h
    exact .ok ⟨rfl, hm⟩
  | cons b u ih =>
    obtain ⟨arc, hn, h⟩ := Option.bind_eq_some_iff.mp h
    have hstep := step_phaseOf hn
    have hb : text[p]? = some b := by
      rw [← List.head?_drop, htext]
      rfl
    have hp : p ≤ text.length := (List.getElem?_eq_some_iff.mp hb).1.le
    have hdrop : text.drop (p + 1) = u ++ v := by
      rw [← List.tail_drop, htext]
      rfl
    simp only [walk, hn, Reader.read, List.foldlM_cons, Reader.step, bind_assoc, pure_bind]
    rw [hstep]
    refine Related.bind (R := Agrees text p) ?_ ?_
    · apply Related.foldlM _ hm
      intro a ha m r hm
      refine hm.acts hp ?_
      rintro rfl c hc
      obtain rfl := Option.some.inj (hb.symm.trans hc)
      have hsave : Action.save_port ∈ ((phaseOf cs).step (kind b)).1 := by rwa [hstep]
      exact not_isDigit_of_save_port hsave
    · intro m r hm
      have hrest := ih hdrop h (hm.push hb)
      rwa [Nat.add_assoc, Nat.add_comm 1] at hrest

theorem agrees_fresh (text : Bytes) : Agrees text 0 { mark := none, uri := .fresh } .fresh :=
  ⟨rfl, rfl, by simp⟩

@[simp] theorem phaseOf_start : phaseOf uriParserStart = .start := by decide

theorem phaseOf_reach (hcs : phaseOf cs ≠ .dead) (h : reach cs u = some cs') :
    phaseOf cs' ≠ .dead := by
  induction u generalizing cs with
  | nil =>
    obtain rfl := Option.some.inj h
    exact hcs
  | cons b u ih =>
    obtain ⟨arc, hn, h⟩ := Option.bind_eq_some_iff.mp h
    exact ih (phaseOf_target hn) h

theorem read_start (marked : Bool) (htext : text = u ++ v) (h : reach uriParserStart u = some cs) :
    Related (fun m x => x.1 = phaseOf cs ∧ Agrees text u.length m x.2)
      (walk (acts marked text) 0 uriParserStart u { mark := none, uri := .fresh })
      (Reader.read marked (.start, .fresh) u) := by
  rw [← Nat.zero_add u.length, ← phaseOf_start]
  exact walk_read htext h (agrees_fresh text)

theorem createWith_of_reach (h : reach uriParserStart text = some cs) :
    createWith (acts marked text) text = do
      let x ← Reader.read marked (.start, .fresh) text
      let r ← Reader.finishAt marked cs x
      return result cs r.uri := by
  have hdead : phaseOf cs ≠ .dead := by
    apply phaseOf_reach _ h
    rw [phaseOf_start]
    decide
  have hscan := scan_append (acts marked text) (v := []) (p := 0)
    (m := { mark := none, uri := .fresh }) h
  rw [List.append_nil, Nat.zero_add] at hscan
  apply Related.eq
  rw [createWith, hscan, bind_assoc]
  apply (read_start marked (List.append_nil text).symm h).bind
  rintro m ⟨ph, r⟩ ⟨rfl, hm⟩
  have hfinish : Related (Agrees text text.length)
      ((atEof cs).foldlM (acts marked text text.length) m)
      (Reader.finishAt marked cs (phaseOf cs, r)) := by
    rw [atEof_phaseOf hdead, Reader.finishAt]
    split
    · apply Related.foldlM _ hm
      intro a _ m r hm
      refine hm.acts le_rfl fun _ b hb => ?_
      simp at hb
    · exact .ok hm
  simp only [scan, bind_assoc, pure_bind]
  apply hfinish.bind
  intro m r hm
  rw [hm.uri]
  exact .ok rfl

theorem createWith_of_stuck {b : UInt8} (htext : text = u ++ b :: v)
    (h : reach uriParserStart u = some cs) (hb : next cs b = none) :
    createWith (acts marked text) text = do
      let _ ← Reader.read marked (.start, .fresh) u
      return none := by
  apply Related.eq
  rw [createWith]
  nth_rewrite 2 [htext]
  rw [scan_append (acts marked text) h, bind_assoc]
  apply (read_start marked htext h).bind
  intro m x _
  simp only [scan, hb]
  exact .ok rfl

end Reading

end Sylar.Uri
