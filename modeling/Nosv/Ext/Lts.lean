import Mathlib.Data.Nat.Notation
import Mathlib.Logic.Relation
import Mathlib.Order.WellFounded

/-!
# Runs of a stepping machine

A machine is a function that takes an action and a state to a next state, or says that the action
is not enabled, or aborts with a reason. `Reaches step ok s t` is reachability by actions each of
which is taken in a state satisfying `ok`; an unconditional run uses `Always`. The invariant rules
are the only inductions over runs that clients need.

* `Reaches.invariant` and `Reaches.invariant_of`: what every step keeps holds of every run;
* `Path.countP_add_le`: a variant bounds the steps of one kind;
* `exists_of_progress`: a variant that can always fall is brought to its end;
* `Emits.invariant` and `Emits.accepted`: the same for what a run emits, and for a reader of it.
-/

/-- Why an action of a machine has no successor state. -/
inductive Halt (ε : Type*) where
  /-- The action is not enabled. -/
  | disabled
  /-- The machine aborts with the given reason. -/
  | abort (reason : ε)
  deriving DecidableEq, Repr

namespace Lts

variable {S A ε : Type*}

/-- The condition that admits every action in every state. -/
def Always : S → A → Prop := fun _ _ => True

instance (s : S) (a : A) : Decidable (Always s a) := inferInstanceAs (Decidable True)

/-- `t` is reached from `s` by actions that each satisfy `ok` in the state they are taken in. -/
inductive Reaches (step : A → S → Except (Halt ε) S) (ok : S → A → Prop) (s : S) : S → Prop
  | refl : Reaches step ok s s
  | tail {t u : S} {a : A} :
      Reaches step ok s t → ok t a → step a t = .ok u → Reaches step ok s u

variable {step : A → S → Except (Halt ε) S} {ok ok' : S → A → Prop} {s t u : S}

namespace Reaches

/-- Runs compose. -/
theorem trans (hst : Reaches step ok s t) (htu : Reaches step ok t u) : Reaches step ok s u := by
  induction htu with
  | refl => exact hst
  | tail _ hok hstep ih => exact ih.tail hok hstep

/-- A run stays a run under a weaker condition. -/
theorem mono (hle : ∀ s a, ok s a → ok' s a) (h : Reaches step ok s t) :
    Reaches step ok' s t := by
  induction h with
  | refl => exact .refl
  | tail _ hok hstep ih => exact ih.tail (hle _ _ hok) hstep

/-- A run stays a run under a condition that follows from the old one in every state reached. -/
theorem strengthen {J : S → Prop} (h : Reaches step ok s t)
    (hJ : ∀ t, Reaches step ok s t → J t) (hle : ∀ s a, J s → ok s a → ok' s a) :
    Reaches step ok' s t := by
  induction h with
  | refl => exact .refl
  | tail hr hok hstep ih => exact ih.tail (hle _ _ (hJ _ hr) hok) hstep

/-- Every conditional run is a run. -/
theorem always (h : Reaches step ok s t) : Reaches step Always s t :=
  h.mono fun _ _ _ => trivial

/-- A predicate that holds at the start and that every admitted step preserves holds at the end
of every run. -/
theorem invariant {I : S → Prop} (h : Reaches step ok s t) (hs : I s)
    (hstep : ∀ t u a, I t → ok t a → step a t = .ok u → I u) : I t := by
  induction h with
  | refl => exact hs
  | tail _ hok hst ih => exact hstep _ _ _ ih hok hst

/-- The invariant rule with a second predicate `J`, already known of every state reached. -/
theorem invariant_of {I J : S → Prop} (h : Reaches step ok s t)
    (hJ : ∀ t, Reaches step ok s t → J t) (hs : I s)
    (hstep : ∀ t u a, J t → J u → I t → ok t a → step a t = .ok u → I u) : I t := by
  induction h with
  | refl => exact hs
  | tail hr hok hst ih =>
    exact hstep _ _ _ (hJ _ hr) (hJ _ (hr.tail hok hst)) ih hok hst

end Reaches

/-! ## Machines made of machines -/

/-- A step of a part, inside the whole: `put` puts the next state of the part in its place. -/
def inside {X ε' : Type*} (abort : ε → ε') (put : S → X) :
    Except (Halt ε) S → Except (Halt ε') X
  | .ok s => .ok (put s)
  | .error .disabled => .error .disabled
  | .error (.abort e) => .error (.abort (abort e))

section Inside

variable {X ε' : Type*} {abort : ε → ε'} {put : S → X} {x : Except (Halt ε) S}

/-- The whole takes a step when the part does. -/
@[simp]
theorem inside_eq_ok {y : X} : inside abort put x = .ok y ↔ ∃ s, x = .ok s ∧ put s = y := by
  rcases x with (_ | e) | s <;> simp [inside]

/-- The whole aborts when the part does. -/
@[simp]
theorem inside_eq_abort {e' : ε'} :
    inside abort put x = .error (.abort e') ↔ ∃ e, x = .error (.abort e) ∧ abort e = e' := by
  rcases x with (_ | e) | s <;> simp [inside]

end Inside

/-- Take the listed actions one after the other, checking the condition before each. -/
def exec (step : A → S → Except (Halt ε) S) (ok : S → A → Prop) [∀ s a, Decidable (ok s a)] :
    List A → S → Option S
  | [], s => some s
  | a :: as, s =>
    if ok s a then
      match step a s with
      | .ok t => exec step ok as t
      | .error _ => none
    else none

/-- What `exec` computes is a run. -/
theorem reaches_of_exec [∀ s a, Decidable (ok s a)] {as : List A}
    (h : exec step ok as s = some t) : Reaches step ok s t := by
  induction as generalizing s with
  | nil =>
    cases h
    exact .refl
  | cons a as ih =>
    rw [exec] at h
    split at h
    next hok =>
      split at h
      next u hu => exact (Reaches.refl.tail hok hu).trans (ih h)
      next => cases h
    next => cases h

/-- The state `exec` computes, with what was checked of it. -/
theorem exists_of_exec [∀ s a, Decidable (ok s a)] {as : List A} {P : S → Prop} [DecidablePred P]
    (h : (exec step ok as s).any (fun t => P t) = true) : ∃ t, Reaches step ok s t ∧ P t := by
  obtain ⟨t, ht, hP⟩ := (Option.any_eq_true _ _).mp h
  exact ⟨t, reaches_of_exec ht, of_decide_eq_true hP⟩

/-! ## Steps that are used up -/

/-- `t` is reached from `s` by the listed actions, each of which satisfies `ok` in the state it is
taken in. -/
inductive Path (step : A → S → Except (Halt ε) S) (ok : S → A → Prop) (s : S) : List A → S → Prop
  | refl : Path step ok s [] s
  | tail {as : List A} {t u : S} {a : A} :
      Path step ok s as t → ok t a → step a t = .ok u → Path step ok s (as ++ [a]) u

/-- A run by listed actions is a run. -/
theorem Path.reaches {as : List A} (h : Path step ok s as t) : Reaches step ok s t := by
  induction h with
  | refl => exact .refl
  | tail _ hok hstep ih => exact ih.tail hok hstep

/-- If each action of a kind uses up some of a measure and no other action adds to it, then a run
has no more actions of that kind than the measure says at its start. -/
theorem Path.countP_add_le {I : S → Prop} {own : A → Bool} {μ : S → ℕ} {as : List A}
    (h : Path step ok s as t) (hs : I s)
    (hstep : ∀ t u a, I t → ok t a → step a t = .ok u → I u ∧ μ u + (own a).toNat ≤ μ t) :
    I t ∧ as.countP own + μ t ≤ μ s := by
  induction h with
  | refl => exact ⟨hs, by simp⟩
  | @tail as t u a _ hok hst ih =>
    obtain ⟨hI, hle⟩ := ih
    obtain ⟨hI', hle'⟩ := hstep t u a hI hok hst
    refine ⟨hI', ?_⟩
    rw [List.countP_append, List.countP_singleton]
    -- What the last action has used up is what it counts for.
    cases hown : own a <;> simp only [hown, Bool.toNat_true, Bool.toNat_false] at hle' <;>
      simp <;> omega

/-- If some run always uses up some of a measure, unless `P` holds already, then `P` can be brought
about. -/
theorem exists_of_runs {α : Type*} [Preorder α] [WellFoundedLT α] {I P : S → Prop} {μ : S → α}
    (hs : I s) (h : ∀ t, I t → ¬P t → ∃ u, Reaches step ok t u ∧ I u ∧ μ u < μ t) :
    ∃ t, Reaches step ok s t ∧ I t ∧ P t := by
  induction hμ : μ s using WellFoundedLT.induction generalizing s with
  | ind n ih =>
    by_cases hP : P s
    · exact ⟨s, .refl, hs, hP⟩
    · obtain ⟨u, hr, hu, hlt⟩ := h s hs hP
      obtain ⟨t, ht, hIt, hPt⟩ := ih (μ u) (hμ ▸ hlt) hu rfl
      exact ⟨t, hr.trans ht, hIt, hPt⟩

/-- If something can always be done that uses up some of a measure, unless `P` holds already, then
`P` can be brought about. -/
theorem exists_of_progress {α : Type*} [Preorder α] [WellFoundedLT α] {I P : S → Prop} {μ : S → α}
    (hs : I s) (h : ∀ t, I t → ¬P t → ∃ a u, ok t a ∧ step a t = .ok u ∧ I u ∧ μ u < μ t) :
    ∃ t, Reaches step ok s t ∧ I t ∧ P t := by
  refine exists_of_runs (μ := μ) hs fun t hI hP => ?_
  obtain ⟨a, u, hok, hst, hu, hlt⟩ := h t hI hP
  exact ⟨u, Reaches.refl.tail hok hst, hu, hlt⟩

/-! ## Runs with their output -/

/-- `t` is reached from `s` by a run that puts out the given list: each action puts out what `out`
says of it in the state it is taken in. -/
inductive Emits {O : Type*} (step : A → S → Except (Halt ε) S) (out : A → S → List O) (s : S) :
    List O → S → Prop
  | refl : Emits step out s [] s
  | tail {os : List O} {t u : S} {a : A} :
      Emits step out s os t → step a t = .ok u → Emits step out s (os ++ out a t) u

namespace Emits

variable {O : Type*} {out : A → S → List O} {os : List O}

/-- A run with output is a run. -/
theorem reaches (h : Emits step out s os t) : Reaches step Always s t := by
  induction h with
  | refl => exact .refl
  | tail _ hstep ih => exact ih.tail trivial hstep

/-- A relation between the start, the output and the end of runs that holds of the empty run and
that every step extends holds of every run. -/
theorem invariant {R : List O → S → Prop} (h : Emits step out s os t) (hs : R [] s)
    (hstep : ∀ os t u a, R os t → step a t = .ok u → R (os ++ out a t) u) : R os t := by
  induction h with
  | refl => exact hs
  | tail _ hst ih => exact hstep _ _ _ _ ih hst

/-- The invariant rule with a second predicate `J`, already known of every state reached. -/
theorem invariant_of {J : S → Prop} {R : List O → S → Prop} (h : Emits step out s os t)
    (hJ : ∀ t, Reaches step Always s t → J t) (hs : R [] s)
    (hstep : ∀ os t u a, J t → R os t → step a t = .ok u → R (os ++ out a t) u) : R os t := by
  induction h with
  | refl => exact hs
  | tail hr hst ih => exact hstep _ _ _ _ (hJ _ hr.reaches) ih hst

/-- A run whose every step is accepted by a monitor, from monitor states related to the states of
the run, is accepted as a whole. -/
theorem accepted {M : Type*} {read : M → O → Option M} {J : S → Prop} {R : M → S → Prop} {m : M}
    (h : Emits step out s os t) (hJ : ∀ t, Reaches step Always s t → J t) (hs : R m s)
    (hstep : ∀ m t u a, J t → R m t → step a t = .ok u →
      ∃ m', (out a t).foldlM read m = some m' ∧ R m' u) :
    ∃ m', os.foldlM read m = some m' ∧ R m' t := by
  refine h.invariant_of (R := fun os t => ∃ m', os.foldlM read m = some m' ∧ R m' t) hJ
    ⟨m, rfl, hs⟩ ?_
  rintro os t u a hJt ⟨m₁, hm₁, hR⟩ hst
  obtain ⟨m₂, hm₂, hR'⟩ := hstep m₁ t u a hJt hR hst
  exact ⟨m₂, by rw [List.foldlM_append, hm₁]; exact hm₂, hR'⟩

end Emits

/-- Take the listed actions one after the other, collecting the output. -/
def collect {O : Type*} (step : A → S → Except (Halt ε) S) (out : A → S → List O) :
    List A → List O → S → Option (List O × S)
  | [], os, s => some (os, s)
  | a :: as, os, s =>
    match step a s with
    | .ok t => collect step out as (os ++ out a s) t
    | .error _ => none

/-- What `collect` computes is the output of a run. -/
theorem emits_of_collect {O : Type*} {out : A → S → List O} {r : S} {os os' : List O} {as : List A}
    (hr : Emits step out r os s) (h : collect step out as os s = some (os', t)) :
    Emits step out r os' t := by
  induction as generalizing os s with
  | nil =>
    cases h
    exact hr
  | cons a as ih =>
    rw [collect] at h
    split at h
    next u hu => exact ih (hr.tail hu) h
    next => cases h

end Lts
