import Mathlib.Algebra.GroupWithZero.Nat
import Mathlib.Algebra.Order.BigOperators.Group.Finset
import Mathlib.Data.Fintype.EquivFin
import Mathlib.Logic.Relation
import Mathlib.Order.WellFounded
import Nosv.Ext.Reentrancy

/-!
# Mutexes taken in order

Threads share their mutexes. One that is about to take a mutex waits for the thread that holds it.
Functions are in order when each takes a mutex of a higher rank than those it holds. If unknown
code enters no function where it is called with a shared mutex held, then no thread of functions
that are in order waits for itself, however many others stand between; whoever waits, waits in the
end for a thread that waits for nobody, and all threads can be brought to an end.

* `orderly_of_reaches`: the threads of such a system stay in order;
* `not_transGen_self` and `exists_not_waits`: no cycle, and an end of every chain of waits;
* `exists_ending`: all threads can be brought to an end.
-/

namespace Reentrancy

variable {M C R : Type*} [LinearOrder R]

/-! ## Functions in order -/

namespace Prog

/-- With `held` held before, every mutex is taken above those that are held. -/
def Ordered (rank : M → R) : List M → Prog M C → Prop
  | _, done | _, call _ => True
  | held, seq p q => p.Ordered rank held ∧ q.Ordered rank held
  | held, guarded m p => (∀ m' ∈ held, rank m' < rank m) ∧ p.Ordered rank (m :: held)

section Lemmas

variable {rank : M → R} {held : List M} {p q : Prog M C} {m : M} {c : C} {α : Type*} {l : List α}
  {f : α → Prog M C} {n : ℕ}

@[simp]
theorem ordered_done : (done : Prog M C).Ordered rank held := trivial

@[simp]
theorem ordered_call : (call c : Prog M C).Ordered rank held := trivial

@[simp]
theorem ordered_append :
    (p ++ q).Ordered rank held ↔ p.Ordered rank held ∧ q.Ordered rank held := .rfl

@[simp]
theorem ordered_guarded : (guarded m p).Ordered rank held ↔
    (∀ m' ∈ held, rank m' < rank m) ∧ p.Ordered rank (m :: held) := .rfl

/-- A choice is in order when the program chosen is. -/
@[simp]
theorem ordered_ite {b : Prop} [Decidable b] : (if b then p else q).Ordered rank held ↔
    if b then p.Ordered rank held else q.Ordered rank held := by
  split <;> rfl

/-- A program for each element is in order when each of them is. -/
@[simp]
theorem ordered_each : (each l f).Ordered rank held ↔ ∀ a ∈ l, (f a).Ordered rank held := by
  induction l with
  | nil => simp [each]
  | cons a l ih =>
    rw [List.forall_mem_cons, ← ih]
    rfl

/-- The program is, or is left out. -/
@[simp]
theorem ordered_times : (times n p).Ordered rank held ↔ n = 0 ∨ p.Ordered rank held := by
  cases n with
  | zero => simp [times]
  | succ n =>
    rw [times, ordered_each]
    exact ⟨fun h => .inr (h 0 (List.mem_range.mpr n.succ_pos)),
      fun h _ _ => h.resolve_left n.succ_ne_zero⟩

end Lemmas

end Prog

variable [DecidableEq M] {rank : M → R} {shared : M → Bool} {held : List M} {p : List (Ev M C)}
  {f : Prog M C} {m : M}

/-- Events take mutexes in order, and release all of them. -/
def Ascends (rank : M → R) : List M → List (Ev M C) → Prop
  | held, [] => held = []
  | held, .lock m :: p => (∀ m' ∈ held, rank m' < rank m) ∧ Ascends rank (m :: held) p
  | held, .unlock m :: p => Ascends rank (held.erase m) p
  | held, .call _ :: p => Ascends rank held p

/-- A function that is in order leaves what is held as it was. -/
theorem Prog.Ordered.ascends (hf : f.Ordered rank held) (hp : Ascends rank held p) :
    Ascends rank held (f.events ++ p) := by
  induction f generalizing held p with
  | done | call => exact hp
  | seq f g ihf ihg =>
    rw [events, List.append_assoc]
    exact ihf hf.1 (ihg hf.2 hp)
  | guarded m f ih =>
    rw [events, List.cons_append, List.append_assoc]
    refine ⟨hf.1, ih hf.2 ?_⟩
    show Ascends rank ((m :: held).erase m) p
    rwa [List.erase_cons_head]

/-! ## A thread -/

namespace Thread

/-- The mutex that the thread takes next. -/
def wants (t : Thread M C) : Option M :=
  match t.user, t.stack with
  | false, ⟨_, .lock m :: _⟩ :: _ => some m
  | _, _ => none

/-- Functions go on in order, those below the topmost one hold nothing shared, and all but the one
at the bottom take shared mutexes only. -/
structure Orderly (rank : M → R) (shared : M → Bool) (t : Thread M C) : Prop where
  ascends : ∀ f ∈ t.stack, Ascends rank f.held f.rest
  below : ∀ f ∈ t.stack.tail, ∀ m ∈ f.held, shared m = false
  pub : ∀ f ∈ t.stack.dropLast, ∀ m, .lock m ∈ f.rest → shared m = true

namespace Orderly

variable {t u : Thread M C} {a : Act M C}

/-- A thread that has not entered a function. -/
theorem start : Orderly rank shared (.start : Thread M C) :=
  ⟨fun f hf => by simp [Thread.start] at hf, fun f hf => by simp [Thread.start] at hf,
    fun f hf => by simp [Thread.start] at hf⟩

omit [DecidableEq M] in
/-- What a thread wants is the first event of its topmost function. -/
theorem stack_of_wants (hm : t.wants = some m) :
    t.user = false ∧ ∃ held p fs, t.stack = ⟨held, .lock m :: p⟩ :: fs := by
  unfold wants at hm
  split at hm
  next huser hstack =>
    cases hm
    exact ⟨huser, _, _, _, hstack⟩
  next => cases hm

/-- A thread wants a mutex above all it holds. -/
theorem lt_of_wants (h : Orderly rank shared t)
    (hrank : ∀ m m', shared m = false → shared m' = true → rank m < rank m')
    (hm : t.wants = some m) : ∀ m' ∈ t.held, rank m' < rank m := by
  obtain ⟨-, held, p, fs, hstack⟩ := stack_of_wants hm
  obtain ⟨hascends, hbelow, hpub⟩ := h
  rw [hstack] at hascends hbelow hpub
  intro m' hm'
  rw [Thread.held, hstack] at hm'
  obtain ⟨f, hf, hmf⟩ := List.mem_flatMap.mp hm'
  rcases List.mem_cons.mp hf with rfl | hf
  · exact (hascends _ List.mem_cons_self).1 m' hmf
  · -- It is held by a function below, and the topmost one is not at the bottom.
    refine hrank m' m (hbelow f hf m' hmf) (hpub ⟨held, .lock m :: p⟩ ?_ m List.mem_cons_self)
    rw [List.dropLast_cons_of_ne_nil (List.ne_nil_of_mem hf)]
    exact List.mem_cons_self

/-- A thread takes no mutex again. -/
theorem not_abort (h : Orderly rank shared t)
    (hrank : ∀ m m', shared m = false → shared m' = true → rank m < rank m') :
    step .run t ≠ .error (.abort m) := by
  intro hstep
  simp only [step] at hstep
  split at hstep
  next => cases hstep
  next held m' p fs huser hstack =>
    split at hstep
    next hheld =>
      have hwants : t.wants = some m' := by simp [wants, huser, hstack]
      exact absurd (h.lt_of_wants hrank hwants m' hheld) (lt_irrefl _)
    next => cases hstep
  all_goals cases hstep

/-- The topmost function goes on. -/
theorem goes {f g : Frame M C} {fs : List (Frame M C)} {user user' : Bool}
    (h : Orderly rank shared (⟨f :: fs, user⟩ : Thread M C)) (hg : Ascends rank g.held g.rest)
    (hsub : ∀ m, .lock m ∈ g.rest → .lock m ∈ f.rest) :
    Orderly rank shared (⟨g :: fs, user'⟩ : Thread M C) := by
  refine ⟨fun f' hf => ?_, h.below, fun f' hf m hm => ?_⟩
  · rcases List.mem_cons.mp hf with rfl | hf
    · exact hg
    · exact h.ascends f' (List.mem_cons_of_mem f hf)
  · have hpub := h.pub
    cases fs with
    | nil => cases hf
    | cons f₀ fs =>
      rw [List.dropLast_cons_of_ne_nil (List.cons_ne_nil _ _)] at hf
      simp only [List.dropLast_cons_of_ne_nil (List.cons_ne_nil f₀ fs)] at hpub
      rcases List.mem_cons.mp hf with rfl | hf
      · exact hpub f List.mem_cons_self m (hsub m hm)
      · exact hpub f' (List.mem_cons_of_mem f hf) m hm

/-- A function is entered where nothing shared is held. -/
theorem enter (h : Orderly rank shared t) {q : Prog M C} (hq : q.Ordered rank [])
    (hpub : q.Takes (shared · = true) ∨ t.stack = []) (hquiet : ∀ m ∈ t.held, shared m = false) :
    Orderly rank shared (⟨⟨[], q.events⟩ :: t.stack, false⟩ : Thread M C) := by
  refine ⟨fun f hf => ?_, fun f hf m hm => ?_, fun f hf m hm => ?_⟩
  · rcases List.mem_cons.mp hf with rfl | hf
    · simpa using hq.ascends (show Ascends rank [] [] from rfl)
    · exact h.ascends f hf
  · exact hquiet m (List.mem_flatMap.mpr ⟨f, hf, hm⟩)
  · by_cases hstack : t.stack = []
    · simp [hstack] at hf
    · rw [List.dropLast_cons_of_ne_nil hstack] at hf
      rcases List.mem_cons.mp hf with rfl | hf
      · exact (hpub.resolve_right hstack).lock hm
      · exact h.pub f hf m hm

/-- The topmost function goes on, or returns. -/
theorem run (h : Orderly rank shared t) (hstep : step .run t = .ok u) :
    Orderly rank shared u := by
  obtain ⟨stack, user⟩ := t
  simp only [step] at hstep
  split at hstep
  -- A program that has ended gives the turn to its caller's.
  next held fs =>
    cases hstep
    refine ⟨fun f hf => h.ascends f (List.mem_cons_of_mem _ hf),
      fun f hf => h.below f (List.mem_of_mem_tail hf), fun f hf => h.pub f ?_⟩
    have hne : fs ≠ [] := fun hnil => by simp [hnil] at hf
    rw [List.dropLast_cons_of_ne_nil hne]
    exact List.mem_cons_of_mem _ hf
  next held m p fs =>
    split at hstep
    next => cases hstep
    next =>
      cases hstep
      exact h.goes (h.ascends _ List.mem_cons_self).2 fun m' hm' => List.mem_cons_of_mem _ hm'
  next held m p fs =>
    cases hstep
    exact h.goes (h.ascends ⟨held, .unlock m :: p⟩ List.mem_cons_self)
      fun m' hm' => List.mem_cons_of_mem _ hm'
  next held c p fs =>
    cases hstep
    exact h.goes (h.ascends ⟨held, .call c :: p⟩ List.mem_cons_self)
      fun m' hm' => List.mem_cons_of_mem _ hm'
  next => cases hstep

/-- Unknown code returns. -/
theorem leave (h : Orderly rank shared t) (hstep : step .leave t = .ok u) :
    Orderly rank shared u := by
  obtain ⟨stack, user⟩ := t
  simp only [step] at hstep
  split at hstep
  next f fs =>
    cases hstep
    exact ⟨h.ascends, h.below, h.pub⟩
  next => cases hstep

end Orderly

/-- What the thread has left to do if it enters nothing more. -/
def weight (t : Thread M C) : ℕ :=
  (t.stack.map fun f => 2 * f.rest.length + 2).sum + if t.user then 1 else 0

variable {t u : Thread M C}

/-- A thread that goes on has less left to do. -/
theorem weight_run (hstep : step .run t = .ok u) : u.weight < t.weight := by
  obtain ⟨stack, user⟩ := t
  simp only [step] at hstep
  split at hstep
  next held fs =>
    cases hstep
    simp only [weight, List.map_cons, List.sum_cons, List.length_nil]
    simp
    omega
  next held m p fs =>
    split at hstep
    next => cases hstep
    next =>
      cases hstep
      simp [weight]
  next held m p fs =>
    cases hstep
    simp [weight]
  next held c p fs =>
    cases hstep
    simp only [weight, List.map_cons, List.sum_cons, List.length_cons]
    simp
    omega
  next => cases hstep

/-- A thread whose unknown code returns has less left to do. -/
theorem weight_leave (hstep : step .leave t = .ok u) : u.weight < t.weight := by
  obtain ⟨stack, user⟩ := t
  simp only [step] at hstep
  split at hstep
  next f fs =>
    cases hstep
    simp [weight]
  next => cases hstep

end Thread

/-! ## Threads that share mutexes -/

variable {ι : Type*} {s s' : ι → Thread M C} {i j : ι}

/-- A thread wants what another one holds. -/
def Waits (s : ι → Thread M C) (i j : ι) : Prop := (s i).wants.any (· ∈ (s j).held) = true

instance (s : ι → Thread M C) (i j : ι) : Decidable (Waits s i j) :=
  inferInstanceAs (Decidable (_ = true))

theorem waits_iff : Waits s i j ↔ ∃ m, (s i).wants = some m ∧ m ∈ (s j).held := by
  simp [Waits, Option.any_eq_true]

section Order

/-- The mutexes that a chain of waiting threads wants are of higher and higher rank. -/
theorem le_of_transGen (hs : ∀ i, (s i).Orderly rank shared)
    (hrank : ∀ m m', shared m = false → shared m' = true → rank m < rank m')
    (h : Relation.TransGen (Waits s) i j) :
    ∃ m m', (s i).wants = some m ∧ m' ∈ (s j).held ∧ rank m ≤ rank m' := by
  induction h with
  | single h =>
    obtain ⟨m, hm, hheld⟩ := waits_iff.mp h
    exact ⟨m, m, hm, hheld, le_rfl⟩
  | @tail j k _ h ih =>
    obtain ⟨m, m', hm, hheld', hle⟩ := ih
    obtain ⟨m'', hm'', hheld⟩ := waits_iff.mp h
    exact ⟨m, m'', hm, hheld, hle.trans ((hs j).lt_of_wants hrank hm'' m' hheld').le⟩

/-- Nobody waits in a circle. -/
theorem not_transGen_self (hs : ∀ i, (s i).Orderly rank shared)
    (hrank : ∀ m m', shared m = false → shared m' = true → rank m < rank m') :
    ¬Relation.TransGen (Waits s) i i := by
  intro h
  obtain ⟨m, m', hm, hheld, hle⟩ := le_of_transGen hs hrank h
  exact absurd hle (not_le.mpr ((hs i).lt_of_wants hrank hm m' hheld))

/-- Whoever waits, waits in the end for a thread that waits for nobody. -/
theorem exists_not_waits [Finite ι] (hs : ∀ i, (s i).Orderly rank shared)
    (hrank : ∀ m m', shared m = false → shared m' = true → rank m < rank m') (i : ι) :
    ∃ j, Relation.ReflTransGen (Waits s) i j ∧ ∀ k, ¬Waits s j k := by
  have hirrefl : Std.Irrefl fun j i => Relation.TransGen (Waits s) i j :=
    ⟨fun _ => not_transGen_self hs hrank⟩
  have htrans : IsTrans ι fun j i => Relation.TransGen (Waits s) i j :=
    ⟨fun _ _ _ h h' => h'.trans h⟩
  have hwf := Finite.wellFounded_of_trans_of_irrefl fun j i => Relation.TransGen (Waits s) i j
  induction i using hwf.induction with
  | _ i ih =>
    by_cases hi : ∃ k, Waits s i k
    · obtain ⟨k, hk⟩ := hi
      obtain ⟨j, hj, hfree⟩ := ih k (.single hk)
      exact ⟨j, .head hk hj, hfree⟩
    · exact ⟨i, .refl, not_exists.mp hi⟩

end Order

/-! ## Runs -/

variable [Fintype ι] [DecidableEq ι]

/-- The next state of all threads. One that waits for another does not go on. -/
def stepAll : ι × Act M C → (ι → Thread M C) → Except (Halt M) (ι → Thread M C)
  | (i, .run), s =>
    if ∃ j, j ≠ i ∧ Waits s i j then .error .disabled
    else Lts.inside id (Function.update s i) (step .run (s i))
  | (i, a), s => Lts.inside id (Function.update s i) (step a (s i))

/-- Functions are entered from unknown code that was called with nothing shared held. -/
def Quiet (shared : M → Bool) (pub root : Prog M C → Prop) (s : ι → Thread M C) :
    ι × Act M C → Prop
  | (i, .enter p) =>
    Entered pub root (s i) (.enter p) ∧ ∀ m ∈ (s i).held, shared m = false
  | (_, .leave) | (_, .run) => True

/-- Nothing more is entered. -/
def Ending (_ : ι → Thread M C) : ι × Act M C → Prop
  | (_, .enter _) => False
  | (_, .leave) | (_, .run) => True

variable {pub root : Prog M C → Prop} {a : ι × Act M C}

/-- A step of the threads is one of a thread that waits for nobody else. -/
theorem of_stepAll (h : stepAll a s = .ok s') :
    ∃ t, step a.2 (s a.1) = .ok t ∧ s' = Function.update s a.1 t := by
  obtain ⟨i, a⟩ := a
  cases a with
  | run =>
    simp only [stepAll] at h
    split at h
    next => cases h
    next =>
      obtain ⟨t, ht, rfl⟩ := Lts.inside_eq_ok.mp h
      exact ⟨t, ht, rfl⟩
  | enter | leave =>
    obtain ⟨t, ht, rfl⟩ := Lts.inside_eq_ok.mp h
    exact ⟨t, ht, rfl⟩

/-- Every step keeps all threads in order. -/
theorem orderly_stepAll (hs : ∀ i, (s i).Orderly rank shared)
    (hpub : ∀ p, pub p → p.Ordered rank [] ∧ p.Takes (shared · = true))
    (hroot : ∀ p, root p → p.Ordered rank []) (hquiet : Quiet shared pub root s a)
    (h : stepAll a s = .ok s') : ∀ i, (s' i).Orderly rank shared := by
  obtain ⟨t, ht, rfl⟩ := of_stepAll h
  obtain ⟨i, a⟩ := a
  intro k
  by_cases hk : k = i
  · subst hk
    rw [Function.update_self]
    cases a with
    | enter p =>
      obtain ⟨hentered, hheld⟩ := hquiet
      simp only [step] at ht
      split at ht
      next =>
        cases ht
        rcases hentered with hp | ⟨hp, hstack⟩
        · exact (hs k).enter (hpub p hp).1 (.inl (hpub p hp).2) hheld
        · exact (hs k).enter (hroot p hp) (.inr hstack) hheld
      next => cases ht
    | leave => exact (hs k).leave ht
    | run => exact (hs k).run ht
  · rw [Function.update_of_ne hk]
    exact hs k

/-- Somebody goes on while anybody is inside a function. -/
theorem exists_stepAll (hs : ∀ i, (s i).Orderly rank shared)
    (hrank : ∀ m m', shared m = false → shared m' = true → rank m < rank m')
    (hi : (s i).stack ≠ []) :
    ∃ j t, Ending s (j, t) ∧ ∃ s', stepAll (j, t) s = .ok s' ∧ (s' j).weight < (s j).weight ∧
      ∀ k, k ≠ j → s' k = s k := by
  -- Somebody in the chain of waiters waits for nobody.
  obtain ⟨j, hchain, hfree⟩ := exists_not_waits hs hrank i
  have hj : (s j).stack ≠ [] := by
    rcases Relation.ReflTransGen.cases_tail hchain with rfl | ⟨k, -, hk⟩
    · exact hi
    · obtain ⟨m, -, hm⟩ := waits_iff.mp hk
      rintro hnil
      simp [Thread.held, hnil] at hm
  have hnot : ¬∃ k, k ≠ j ∧ Waits s j k := fun ⟨k, _, hk⟩ => hfree k hk
  have hends : ∀ a t, step a (s j) = .ok t → stepAll (j, a) s = .ok (Function.update s j t) := by
    intro a t ht
    cases a with
    | run => simp [stepAll, hnot, ht]
    | enter | leave => simp [stepAll, ht]
  have hothers : ∀ t k, k ≠ j → Function.update s j t k = s k :=
    fun t k hk => Function.update_of_ne hk t s
  cases huser : (s j).user with
  | true =>
    -- User code returns, and otherwise the program goes on.
    obtain ⟨f, fs, hstack⟩ := List.exists_cons_of_ne_nil hj
    have hstep : step .leave (s j) = .ok ⟨(s j).stack, false⟩ := by simp [step, huser, hstack]
    refine ⟨j, .leave, trivial, _, hends _ _ hstep, ?_, hothers _⟩
    rw [Function.update_self]
    exact Thread.weight_leave hstep
  | false =>
    have hstep : ∃ t, step .run (s j) = .ok t := by
      cases hrun : step .run (s j) with
      | ok t => exact ⟨t, rfl⟩
      | error e =>
        cases e with
        | abort m => exact absurd hrun ((hs j).not_abort hrank)
        | disabled =>
          obtain ⟨⟨held, p⟩, fs, hstack⟩ := List.exists_cons_of_ne_nil hj
          rcases p with _ | ⟨e, p⟩
          · simp [step, huser, hstack] at hrun
          · cases e with
            | lock m =>
              simp only [step, huser, hstack] at hrun
              split at hrun <;> cases hrun
            | unlock | call => simp [step, huser, hstack] at hrun
    obtain ⟨t, ht⟩ := hstep
    refine ⟨j, .run, trivial, _, hends _ _ ht, ?_, hothers _⟩
    rw [Function.update_self]
    exact Thread.weight_run ht

/-- All threads can be brought to an end. -/
theorem exists_ending (hs : ∀ i, (s i).Orderly rank shared)
    (hrank : ∀ m m', shared m = false → shared m' = true → rank m < rank m') :
    ∃ s', Lts.Reaches stepAll Ending s s' ∧ ∀ i, (s' i).stack = [] := by
  have hprogress : ∀ s : ι → Thread M C, (∀ i, (s i).Orderly rank shared) →
      ¬(∀ i, (s i).stack = []) → ∃ a s', Ending s a ∧ stepAll a s = .ok s' ∧
        (∀ i, (s' i).Orderly rank shared) ∧ ∑ i, (s' i).weight < ∑ i, (s i).weight := by
    intro s hs hend
    obtain ⟨i, hi⟩ := not_forall.mp hend
    obtain ⟨j, a, hending, s', hstep, hlt, hothers⟩ := exists_stepAll hs hrank hi
    have hquiet : Quiet shared (fun _ => False) (fun _ => False) s (j, a) := by
      cases a with
      | enter => exact hending.elim
      | leave | run => trivial
    have hs' := orderly_stepAll hs (fun _ h => h.elim) (fun _ h => h.elim) hquiet hstep
    refine ⟨(j, a), s', hending, hstep, hs',
      Finset.sum_lt_sum (fun k _ => ?_) ⟨j, Finset.mem_univ j, hlt⟩⟩
    by_cases hk : k = j
    · exact hk ▸ hlt.le
    · rw [hothers k hk]
  obtain ⟨s', hreach, -, hend⟩ := Lts.exists_of_progress hs hprogress
  exact ⟨s', hreach, hend⟩

/-- Threads that enter functions in order stay in order. -/
theorem orderly_of_reaches
    (hpub : ∀ p, pub p → p.Ordered rank [] ∧ p.Takes (shared · = true))
    (hroot : ∀ p, root p → p.Ordered rank [])
    (h : Lts.Reaches stepAll (Quiet shared pub root) (fun _ : ι => (.start : Thread M C)) s) :
    ∀ i, (s i).Orderly rank shared :=
  h.invariant (I := fun s => ∀ i, (s i).Orderly rank shared) (fun _ => .start)
    fun _ _ _ hI hok hst => orderly_stepAll hI hpub hroot hok hst

end Reentrancy
