import Mathlib.Data.List.Induction
import Mathlib.Data.List.Perm.Basic

/-!
# Steps that commute across classes

A list of events is run by a step that may fail. Events of one class must be run in the order
given; events of different classes, and events of no class, may change places. `Exchange` is what
has to be known of a single step and of two neighbours; from it, every rearrangement that keeps the
order inside each class has the same result.

`Exchange.run_eq` is that result.
-/

namespace Trace

variable {α κ X ε : Type*}

/-- Run the events in order. -/
def run (f : α → X → Except ε X) : List α → X → Except ε X
  | [], x => .ok x
  | a :: l, x => f a x >>= run f l

/-- Two events that may change places. -/
def Free (cls : α → Option κ) (a b : α) : Prop := ∀ k, cls a = some k → cls b ≠ some k

/-- A rearrangement that keeps the order inside each class. -/
def SameOrder [DecidableEq κ] (cls : α → Option κ) (l l' : List α) : Prop :=
  l.Perm l' ∧ ∀ k, (l.filter fun a => cls a = some k) = l'.filter fun a => cls a = some k

/-- What makes neighbours exchangeable in the states where a list of events is legal. -/
structure Exchange (f : α → X → Except ε X) (cls : α → Option κ) (Legal : X → List α → Prop) :
    Prop where
  /-- A legal list can be begun, and what is left is legal. -/
  step : ∀ {x a l}, Legal x (a :: l) → ∃ y, f a x = .ok y ∧ Legal y l
  /-- Two neighbours may change places. -/
  legal : ∀ {x a b} {u v : List α}, Legal x (u ++ a :: b :: v) → Free cls a b →
    Legal x (u ++ b :: a :: v)
  /-- They have the same effect in both orders. -/
  comm : ∀ {x a b l}, Legal x (a :: b :: l) → Free cls a b → f a x >>= f b = f b x >>= f a

variable {f : α → X → Except ε X} {cls : α → Option κ} {Legal : X → List α → Prop} {x : X}
  {a b : α} {l l' u v : List α}

/-- Running two events first. -/
theorem run_cons_cons : run f (a :: b :: l) x = (f a x >>= f b) >>= run f l := by
  show (f a x >>= fun y => f b y >>= run f l) = _
  cases f a x <;> rfl

namespace Exchange

/-- A legal list runs to its end. -/
theorem run_ok (h : Exchange f cls Legal) (hl : Legal x l) : ∃ y, run f l x = .ok y := by
  induction l generalizing x with
  | nil => exact ⟨x, rfl⟩
  | cons a l ih =>
    obtain ⟨y, hy, hl⟩ := h.step hl
    obtain ⟨z, hz⟩ := ih hl
    exact ⟨z, by rw [run, hy]; exact hz⟩

/-- Exchanging two neighbours leaves the result. -/
theorem run_swap (h : Exchange f cls Legal) (hl : Legal x (u ++ a :: b :: v))
    (hfree : Free cls a b) : run f (u ++ a :: b :: v) x = run f (u ++ b :: a :: v) x := by
  induction u generalizing x with
  | nil =>
    rw [List.nil_append, List.nil_append, run_cons_cons, run_cons_cons, h.comm hl hfree]
  | cons c u ih =>
    obtain ⟨y, hy, hl⟩ := h.step hl
    rw [List.cons_append, List.cons_append, run, run, hy]
    exact ih hl

/-- An event moves to the front past events it may change places with. -/
theorem move (h : Exchange f cls Legal) (hl : Legal x (u ++ a :: v))
    (hfree : ∀ b ∈ u, Free cls b a) :
    Legal x (a :: (u ++ v)) ∧ run f (u ++ a :: v) x = run f (a :: (u ++ v)) x := by
  induction u using List.reverseRecOn generalizing v with
  | nil => exact ⟨hl, rfl⟩
  | append_singleton u b ih =>
    have hba : Free cls b a := hfree b (List.mem_append_right u List.mem_cons_self)
    rw [List.append_assoc, List.singleton_append] at hl ⊢
    obtain ⟨hfront, hrun⟩ := ih (h.legal hl hba) fun c hc => hfree c (List.mem_append_left _ hc)
    rw [List.append_assoc, List.singleton_append]
    exact ⟨hfront, (h.run_swap hl hba).trans hrun⟩

end Exchange

variable [DecidableEq κ]

namespace SameOrder

/-- Two events that may change places. -/
theorem pair (h : Free cls a b) : SameOrder cls [a, b] [b, a] := by
  refine ⟨List.Perm.swap b a [], fun k => ?_⟩
  by_cases ha : cls a = some k
  · simp [ha, h k ha]
  · simp [List.filter_cons, ha]

/-- In a rearrangement that begins with `a`, everything the list has before its first `a` may
change places with it. -/
theorem free (hs : SameOrder cls (u ++ a :: v) (a :: l')) (ha : a ∉ u) :
    ∀ b ∈ u, Free cls b a := by
  intro b hb k hbk hak
  have hfilter := hs.2 k
  rw [List.filter_append, List.filter_cons_of_pos (l := l') (by simpa using hak)] at hfilter
  have hmem : b ∈ u.filter fun a => cls a = some k := List.mem_filter.mpr ⟨hb, by simpa using hbk⟩
  cases hu : u.filter fun a => cls a = some k with
  | nil =>
    rw [hu] at hmem
    cases hmem
  | cons c w =>
    -- The first of the class in `u` would be `a`.
    rw [hu, List.cons_append] at hfilter
    obtain rfl : c = a := (List.cons.inj hfilter).1
    have hc : c ∈ u.filter fun a => cls a = some k := by
      rw [hu]
      exact List.mem_cons_self
    exact ha (List.mem_filter.mp hc).1

/-- Without that event the rest is rearranged in the same way. -/
theorem tail (hs : SameOrder cls (u ++ a :: v) (a :: l')) (hfree : ∀ b ∈ u, Free cls b a) :
    SameOrder cls (u ++ v) l' := by
  refine ⟨(List.perm_middle.symm.trans hs.1).cons_inv, fun k => ?_⟩
  have hfilter := hs.2 k
  by_cases hk : cls a = some k
  · have hu : (u.filter fun a => cls a = some k) = [] := by
      rw [List.filter_eq_nil_iff]
      intro b hb hbk
      exact hfree b hb k (by simpa using hbk) hk
    rw [List.filter_append, hu, List.filter_cons_of_pos (by simpa using hk),
      List.filter_cons_of_pos (by simpa using hk)] at hfilter
    rw [List.filter_append, hu]
    exact (List.cons.inj hfilter).2
  · rw [List.filter_append, List.filter_cons_of_neg (by simpa using hk),
      List.filter_cons_of_neg (by simpa using hk)] at hfilter
    rw [List.filter_append]
    exact hfilter

end SameOrder

/-- Every rearrangement that keeps the order inside each class has the same result. -/
theorem Exchange.run_eq [DecidableEq α] (h : Exchange f cls Legal) (hl : Legal x l)
    (hs : SameOrder cls l l') : run f l x = run f l' x := by
  induction l' generalizing l x with
  | nil =>
    obtain rfl := hs.1.eq_nil
    rfl
  | cons a l' ih =>
    obtain ⟨u, v, rfl, ha⟩ := List.eq_append_cons_of_mem (hs.1.mem_iff.mpr List.mem_cons_self)
    have hfree := hs.free ha
    obtain ⟨hfront, hrun⟩ := h.move hl hfree
    obtain ⟨y, hy, hrest⟩ := h.step hfront
    rw [hrun, run, run, hy]
    exact ih hrest (hs.tail hfree)

end Trace
