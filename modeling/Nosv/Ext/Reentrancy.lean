import Mathlib.Data.List.Basic
import Nosv.Ext.Lts

/-!
# Mutexes held while unknown code is called

A function of a library is seen as the list of its events: it takes and releases mutexes that are
not reentrant, and it calls code that it does not know. A thread is a stack of such functions. Code
that the topmost one has called may enter any public function before it returns, and so on to any
depth; a root function is entered at the bottom of the stack only.

Unknown code is called safely when no mutex is held that public functions take. Whether a function
does so is checked on its events alone, and a thread is safe exactly when every function that is
entered passes the check.

* `Sound.step` and `Sound.safe`: checked functions keep a thread safe;
* `exists_not_safe`: a function that fails the check makes some thread unsafe;
* `safe_iff`: so the check is exact.
-/

namespace Reentrancy

variable {M C : Type*}

/-! ## Functions -/

/-- A function. Guards are scoped, so that what is taken is released at the end of its scope. -/
inductive Prog (M C : Type*) where
  | done
  /-- Unknown code is called. -/
  | call (c : C)
  | seq (p q : Prog M C)
  /-- A guard in scope for a program. -/
  | guarded (m : M) (p : Prog M C)
  deriving DecidableEq, Repr

namespace Prog

/-- One program after the other. -/
instance : Append (Prog M C) := ⟨.seq⟩

/-- A value in scope for a program, of which the destructor is unknown code. -/
def owning (c : C) (p : Prog M C) : Prog M C := p ++ .call c

/-- One program for each element. -/
def each {α : Type*} (l : List α) (f : α → Prog M C) : Prog M C :=
  l.foldr (fun a p => f a ++ p) .done

/-- A program again and again. -/
def times (n : ℕ) (p : Prog M C) : Prog M C := each (List.range n) fun _ => p

/-- Every mutex that is taken has `P`. -/
def Takes (P : M → Prop) : Prog M C → Prop
  | done | call _ => True
  | seq p q => p.Takes P ∧ q.Takes P
  | guarded m p => P m ∧ p.Takes P

/-- With `held` held before, no mutex is taken again, and nothing shared is held where unknown code
is called. -/
def Clear (shared : M → Bool) : List M → Prog M C → Prop
  | _, done => True
  | held, call _ => ∀ m ∈ held, shared m = false
  | held, seq p q => p.Clear shared held ∧ q.Clear shared held
  | held, guarded m p => m ∉ held ∧ p.Clear shared (m :: held)

/-- With `held` held before, the program is clear, and takes shared mutexes only. -/
def Free (shared : M → Bool) (held : List M) (p : Prog M C) : Prop :=
  p.Takes (shared · = true) ∧ p.Clear shared held

section Lemmas

variable {P Q : M → Prop} {shared : M → Bool} {held : List M} {p q : Prog M C} {m : M} {c : C}
  {α : Type*} {l : List α} {f : α → Prog M C} {n : ℕ}

@[simp]
theorem takes_done : (done : Prog M C).Takes P := trivial

@[simp]
theorem takes_call : (call c : Prog M C).Takes P := trivial

@[simp]
theorem takes_append : (p ++ q).Takes P ↔ p.Takes P ∧ q.Takes P := .rfl

@[simp]
theorem takes_guarded : (guarded m p).Takes P ↔ P m ∧ p.Takes P := .rfl

/-- A choice takes what the program chosen takes. -/
@[simp]
theorem takes_ite {b : Prop} [Decidable b] :
    (if b then p else q).Takes P ↔ if b then p.Takes P else q.Takes P := by
  split <;> rfl

/-- A program for each element takes what one of them takes. -/
@[simp]
theorem takes_each : (each l f).Takes P ↔ ∀ a ∈ l, (f a).Takes P := by
  induction l with
  | nil => simp [each]
  | cons a l ih =>
    rw [List.forall_mem_cons, ← ih]
    rfl

/-- The program does, or is left out. -/
@[simp]
theorem takes_times : (times n p).Takes P ↔ n = 0 ∨ p.Takes P := by
  cases n with
  | zero => simp [times]
  | succ n =>
    rw [times, takes_each]
    exact ⟨fun h => .inr (h 0 (List.mem_range.mpr n.succ_pos)),
      fun h _ _ => h.resolve_left n.succ_ne_zero⟩

/-- Less is required of the mutexes. -/
theorem Takes.mono (hp : p.Takes P) (hle : ∀ m, P m → Q m) : p.Takes Q := by
  induction p with
  | done | call _ => trivial
  | seq p q ihp ihq => exact ⟨ihp hp.1, ihq hp.2⟩
  | guarded m p ih => exact ⟨hle m hp.1, ih hp.2⟩

@[simp]
theorem clear_done : (done : Prog M C).Clear shared held := trivial

@[simp]
theorem clear_call : (call c : Prog M C).Clear shared held ↔ ∀ m ∈ held, shared m = false := .rfl

@[simp]
theorem clear_append :
    (p ++ q).Clear shared held ↔ p.Clear shared held ∧ q.Clear shared held := .rfl

@[simp]
theorem clear_guarded :
    (guarded m p).Clear shared held ↔ m ∉ held ∧ p.Clear shared (m :: held) := .rfl

/-- A choice is clear when the program chosen is. -/
@[simp]
theorem clear_ite {b : Prop} [Decidable b] :
    (if b then p else q).Clear shared held ↔
      if b then p.Clear shared held else q.Clear shared held := by
  split <;> rfl

/-- A program for each element is clear when each of them is. -/
@[simp]
theorem clear_each : (each l f).Clear shared held ↔ ∀ a ∈ l, (f a).Clear shared held := by
  induction l with
  | nil => simp [each]
  | cons a l ih =>
    rw [List.forall_mem_cons, ← ih]
    rfl

/-- The program is, or is left out. -/
@[simp]
theorem clear_times : (times n p).Clear shared held ↔ n = 0 ∨ p.Clear shared held := by
  cases n with
  | zero => simp [times]
  | succ n =>
    rw [times, clear_each]
    exact ⟨fun h => .inr (h 0 (List.mem_range.mpr n.succ_pos)),
      fun h _ _ => h.resolve_left n.succ_ne_zero⟩

@[simp]
theorem free_done : (done : Prog M C).Free shared held := ⟨trivial, trivial⟩

@[simp]
theorem free_call : (call c : Prog M C).Free shared held ↔ ∀ m ∈ held, shared m = false :=
  ⟨fun h => h.2, fun h => ⟨trivial, h⟩⟩

@[simp]
theorem free_append : (p ++ q).Free shared held ↔ p.Free shared held ∧ q.Free shared held :=
  and_and_and_comm

@[simp]
theorem free_guarded :
    (guarded m p).Free shared held ↔ (shared m = true ∧ m ∉ held) ∧ p.Free shared (m :: held) :=
  and_and_and_comm

/-- A choice is free when the program chosen is. -/
@[simp]
theorem free_ite {b : Prop} [Decidable b] :
    (if b then p else q).Free shared held ↔
      if b then p.Free shared held else q.Free shared held := by
  split <;> rfl

/-- A program for each element is free when each of them is. -/
@[simp]
theorem free_each : (each l f).Free shared held ↔ ∀ a ∈ l, (f a).Free shared held := by
  rw [Free, takes_each, clear_each]
  exact forall₂_and.symm

/-- The program is, or is left out. -/
@[simp]
theorem free_times : (times n p).Free shared held ↔ n = 0 ∨ p.Free shared held := by
  rw [Free, takes_times, clear_times, ← or_and_left]
  rfl

end Lemmas

end Prog

/-! ## Events -/

/-- An event of a function that runs. -/
inductive Ev (M C : Type*) where
  | lock (m : M)
  | unlock (m : M)
  | call (c : C)
  deriving DecidableEq, Repr

/-- The events of a function, in order. -/
def Prog.events : Prog M C → List (Ev M C)
  | .done => []
  | .call c => [.call c]
  | .seq p q => p.events ++ q.events
  | .guarded m p => .lock m :: (p.events ++ [.unlock m])

/-- The mutexes held after events, or `none` if one is taken again or unknown code is called with a
shared one held. -/
def after [DecidableEq M] (shared : M → Bool) : List M → List (Ev M C) → Option (List M)
  | held, [] => some held
  | held, .lock m :: p => if m ∈ held then none else after shared (m :: held) p
  | held, .unlock m :: p => after shared (held.erase m) p
  | held, .call _ :: p => if held.any shared then none else after shared held p

section Events

variable {shared : M → Bool} {held : List M} {p q : List (Ev M C)} {f : Prog M C} {m : M}

/-- The mutexes that events take are those of the function. -/
theorem Prog.Takes.lock {P : M → Prop} (hf : f.Takes P) (hm : .lock m ∈ f.events) : P m := by
  induction f with
  | done => cases hm
  | call c => simp [Prog.events] at hm
  | seq f g ihf ihg =>
    rcases List.mem_append.mp hm with hm | hm
    · exact ihf hf.1 hm
    · exact ihg hf.2 hm
  | guarded m' f ih =>
    simp only [Prog.events, List.mem_cons, Ev.lock.injEq, List.mem_append, reduceCtorEq,
      List.not_mem_nil, or_false] at hm
    rcases hm with rfl | hm
    · exact hf.1
    · exact ih hf.2 hm

variable [DecidableEq M]

/-- Events are checked one after the other. -/
theorem after_append :
    after shared held (p ++ q) = (after shared held p).bind fun held => after shared held q := by
  induction p generalizing held with
  | nil => rfl
  | cons e p ih =>
    cases e with
    | lock m =>
      simp only [List.cons_append, after]
      split
      · rfl
      · exact ih
    | unlock m => exact ih
    | call c =>
      simp only [List.cons_append, after]
      split
      · rfl
      · exact ih

/-- A function that is clear releases what it takes. -/
theorem Prog.Clear.after (hf : f.Clear shared held) :
    after shared held f.events = some held := by
  induction f generalizing held with
  | done => rfl
  | call c =>
    rw [events, Reentrancy.after, if_neg]
    · rfl
    · simpa using hf
  | seq f g ihf ihg => rw [events, after_append, ihf hf.1, Option.bind_some, ihg hf.2]
  | guarded m f ih =>
    rw [events, Reentrancy.after, if_neg hf.1, after_append, ih hf.2, Option.bind_some,
      Reentrancy.after, Reentrancy.after, List.erase_cons_head]

/-- The events of one that is not show it. -/
theorem after_events_of_not_clear (hf : ¬f.Clear shared held) :
    after shared held f.events = none := by
  induction f generalizing held with
  | done => exact absurd trivial hf
  | call c =>
    rw [Prog.events, after, if_pos]
    simpa using hf
  | seq f g ihf ihg =>
    rw [Prog.events, after_append]
    by_cases hclear : f.Clear shared held
    · rw [hclear.after, Option.bind_some]
      exact ihg fun hg => hf ⟨hclear, hg⟩
    · rw [ihf hclear, Option.bind_none]
  | guarded m f ih =>
    rw [Prog.events, after]
    split
    · rfl
    · next hm => rw [after_append, ih fun hclear => hf ⟨hm, hclear⟩, Option.bind_none]

end Events

/-! ## Threads -/

/-- A function that was entered, with the guards that it holds. -/
structure Frame (M C : Type*) where
  held : List M
  rest : List (Ev M C)

/-- A thread. -/
structure Thread (M C : Type*) where
  stack : List (Frame M C)
  /-- Unknown code is running, called by the topmost function. -/
  user : Bool

namespace Thread

/-- Unknown code that has not entered a function. -/
def start : Thread M C := ⟨[], true⟩

/-- Everything that the thread holds. -/
def held (t : Thread M C) : List M := t.stack.flatMap Frame.held

/-- The functions that wait for unknown code. -/
def suspended (t : Thread M C) : List (Frame M C) := if t.user then t.stack else t.stack.tail

end Thread

/-- Steps of a thread. -/
inductive Act (M C : Type*) where
  /-- Unknown code enters a function. -/
  | enter (p : Prog M C)
  /-- Unknown code returns. -/
  | leave
  /-- The topmost function goes on, or returns. -/
  | run

/-- The next state. Taking a mutex again is the end of a thread. -/
def step [DecidableEq M] : Act M C → Thread M C → Except (Halt M) (Thread M C)
  | .enter p, t =>
    if t.user then .ok ⟨⟨[], p.events⟩ :: t.stack, false⟩ else .error .disabled
  | .leave, t =>
    match t.user, t.stack with
    | true, _ :: _ => .ok ⟨t.stack, false⟩
    | _, _ => .error .disabled
  | .run, t =>
    match t.user, t.stack with
    | false, ⟨_, []⟩ :: fs => .ok ⟨fs, true⟩
    | false, ⟨held, .lock m :: p⟩ :: fs =>
      if m ∈ t.held then .error (.abort m) else .ok ⟨⟨m :: held, p⟩ :: fs, false⟩
    | false, ⟨held, .unlock m :: p⟩ :: fs => .ok ⟨⟨held.erase m, p⟩ :: fs, false⟩
    | false, ⟨held, .call _ :: p⟩ :: fs => .ok ⟨⟨held, p⟩ :: fs, true⟩
    | _, _ => .error .disabled

/-- What may be entered. -/
def Entered (pub root : Prog M C → Prop) (t : Thread M C) : Act M C → Prop
  | .enter p => pub p ∨ (root p ∧ t.stack = [])
  | .leave | .run => True

/-- Unknown code runs with no shared mutex held, and no mutex is taken again. -/
structure Safe [DecidableEq M] (shared : M → Bool) (t : Thread M C) : Prop where
  call : t.user = true → ∀ m ∈ t.held, shared m = false
  lock : ∀ m, step .run t ≠ .error (.abort m)

/-! ## Threads that pass the check -/

section Sound

variable [DecidableEq M] {shared : M → Bool} {pub root : Prog M C → Prop} {t u : Thread M C}
  {a : Act M C}

/-- The function takes shared mutexes only. -/
def Frame.Public (shared : M → Bool) (f : Frame M C) : Prop :=
  (∀ m, .lock m ∈ f.rest → shared m = true) ∧ ∀ m ∈ f.held, shared m = true

/-- All functions pass the check, those that wait hold nothing shared, and all but the one at the
bottom take shared mutexes only. -/
structure Sound (shared : M → Bool) (t : Thread M C) : Prop where
  checked : ∀ f ∈ t.stack, after shared f.held f.rest = some []
  waiting : ∀ f ∈ t.suspended, ∀ m ∈ f.held, shared m = false
  pub : ∀ f ∈ t.stack.dropLast, f.Public shared

/-- A thread starts sound. -/
theorem Sound.start : Sound shared (.start : Thread M C) := ⟨nofun, nofun, nofun⟩

/-- A sound thread is safe. -/
theorem Sound.safe (h : Sound shared t) : Safe shared t := by
  obtain ⟨stack, user⟩ := t
  obtain ⟨hchecked, hwaiting, hpub⟩ := h
  constructor
  · rintro rfl m hm
    obtain ⟨f, hf, hm⟩ := List.mem_flatMap.mp hm
    exact hwaiting f hf m hm
  · intro m hstep
    simp only [step] at hstep
    split at hstep
    · cases hstep
    · next held m' p fs =>
      split at hstep
      · next hheld =>
        cases hstep
        -- the mutex is not held by this function, and those below hold nothing shared
        have hcheck := hchecked _ List.mem_cons_self
        rw [after] at hcheck
        split at hcheck
        · cases hcheck
        · next hown =>
          obtain ⟨f, hf, hmf⟩ := List.mem_flatMap.mp hheld
          rcases List.mem_cons.mp hf with rfl | hf
          · exact hown hmf
          · have hprivate := hwaiting f hf m hmf
            have hne : fs ≠ [] := List.ne_nil_of_mem hf
            have hshared : shared m = true := by
              refine (hpub ⟨held, .lock m :: p⟩ ?_).1 m List.mem_cons_self
              rw [List.dropLast_cons_of_ne_nil hne]
              exact List.mem_cons_self
            rw [hprivate] at hshared
            cases hshared
      · cases hstep
    · cases hstep
    · cases hstep
    · cases hstep

/-- The topmost function goes on. -/
theorem Sound.goes {f g : Frame M C} {fs : List (Frame M C)} {user : Bool}
    (h : Sound shared (⟨f :: fs, false⟩ : Thread M C))
    (hchecked : after shared g.held g.rest = some [])
    (hwaiting : user = true → ∀ m ∈ g.held, shared m = false)
    (hpub : f.Public shared → g.Public shared) :
    Sound shared (⟨g :: fs, user⟩ : Thread M C) := by
  -- Only the frame on top has changed.
  refine ⟨fun f' hf => ?_, fun f' hf => ?_, fun f' hf => ?_⟩
  · rcases List.mem_cons.mp hf with rfl | hf
    · exact hchecked
    · exact h.checked f' (List.mem_cons_of_mem f hf)
  · cases user with
    | true =>
      rcases List.mem_cons.mp hf with rfl | hf
      · exact hwaiting rfl
      · exact h.waiting f' hf
    | false => exact h.waiting f' hf
  · cases fs with
    | nil => cases hf
    | cons f₀ fs =>
      rw [List.dropLast_cons_of_ne_nil (List.cons_ne_nil _ _)] at hf
      have hbelow := h.pub
      simp only [List.dropLast_cons_of_ne_nil (List.cons_ne_nil f₀ fs)] at hbelow
      rcases List.mem_cons.mp hf with rfl | hf
      · exact hpub (hbelow f List.mem_cons_self)
      · exact hbelow f' (List.mem_cons_of_mem f hf)

/-- Every step keeps a thread sound when what is entered passes the check. -/
theorem Sound.step (h : Sound shared t) (hstep : step a t = .ok u) (hentered : Entered pub root t a)
    (hpub : ∀ p, pub p → p.Clear shared [] ∧ p.Takes (shared · = true))
    (hroot : ∀ p, root p → p.Clear shared []) : Sound shared u := by
  obtain ⟨stack, user⟩ := t
  cases a with
  | enter p =>
    simp only [Reentrancy.step] at hstep
    split at hstep
    · next huser =>
      cases hstep
      subst huser
      have hp : p.Clear shared [] :=
        hentered.elim (fun hp => (hpub p hp).1) fun hp => hroot p hp.1
      refine ⟨fun f hf => ?_, h.waiting, fun f hf => ?_⟩
      · rcases List.mem_cons.mp hf with rfl | hf
        · exact hp.after
        · exact h.checked f hf
      · cases stack with
        | nil => cases hf
        | cons f₀ fs =>
          -- only a public function is entered above another
          have hp : pub p := hentered.resolve_right fun hroot => by cases hroot.2
          rw [List.dropLast_cons_of_ne_nil (List.cons_ne_nil _ _)] at hf
          rcases List.mem_cons.mp hf with rfl | hf
          · exact ⟨fun m hm => (hpub p hp).2.lock hm, nofun⟩
          · exact h.pub f hf
    · cases hstep
  | leave =>
    simp only [Reentrancy.step] at hstep
    split at hstep
    · next f fs =>
      cases hstep
      exact ⟨h.checked, fun f' hf => h.waiting f' (List.mem_cons_of_mem f hf), h.pub⟩
    · cases hstep
  | run =>
    simp only [Reentrancy.step] at hstep
    split at hstep
    · next held fs =>
      cases hstep
      refine ⟨fun f hf => h.checked f (List.mem_cons_of_mem _ hf), h.waiting, fun f hf => ?_⟩
      cases fs with
      | nil => cases hf
      | cons f₀ fs =>
        refine h.pub f ?_
        rw [List.dropLast_cons_of_ne_nil (List.cons_ne_nil _ _)]
        exact List.mem_cons_of_mem _ hf
    · next held m p fs =>
      split at hstep
      · cases hstep
      · cases hstep
        have hcheck := h.checked _ List.mem_cons_self
        rw [after] at hcheck
        split at hcheck
        · cases hcheck
        · refine h.goes hcheck nofun fun hf => ?_
          refine ⟨fun m' hm' => hf.1 m' (List.mem_cons_of_mem _ hm'), fun m' hm' => ?_⟩
          rcases List.mem_cons.mp hm' with rfl | hm'
          · exact hf.1 _ List.mem_cons_self
          · exact hf.2 m' hm'
    · next held m p fs =>
      cases hstep
      have hcheck := h.checked _ List.mem_cons_self
      rw [after] at hcheck
      refine h.goes hcheck nofun fun hf => ?_
      exact ⟨fun m' hm' => hf.1 m' (List.mem_cons_of_mem _ hm'),
        fun m' hm' => hf.2 m' (List.mem_of_mem_erase hm')⟩
    · next held c p fs =>
      cases hstep
      have hcheck := h.checked _ List.mem_cons_self
      rw [after] at hcheck
      split at hcheck
      · cases hcheck
      · next hany =>
        refine h.goes hcheck (fun _ m hm => ?_) fun hf => ?_
        · simp only [List.any_eq_true, not_exists, not_and, Bool.not_eq_true] at hany
          exact hany m hm
        · exact ⟨fun m' hm' => hf.1 m' (List.mem_cons_of_mem _ hm'), hf.2⟩
    · cases hstep

end Sound

/-! ## Threads that do not -/

section Exact

variable [DecidableEq M] {shared : M → Bool} {pub root : Prog M C → Prop}

/-- The violation that the check finds is one that a thread reaches. -/
theorem exists_not_safe {held : List M} {p : List (Ev M C)} {fs : List (Frame M C)}
    (h : after shared held p = none) :
    ∃ t, Lts.Reaches step (Entered pub root) (⟨⟨held, p⟩ :: fs, false⟩ : Thread M C) t ∧
      ¬Safe shared t := by
  induction p generalizing held with
  | nil => cases h
  | cons e p ih =>
    cases e with
    | lock m =>
      by_cases hm : m ∈ Thread.held (⟨⟨held, .lock m :: p⟩ :: fs, false⟩ : Thread M C)
      · exact ⟨_, .refl, fun hsafe => hsafe.lock m (if_pos hm)⟩
      · have hown : m ∉ held := fun hown =>
          hm (List.mem_flatMap.mpr ⟨_, List.mem_cons_self, hown⟩)
        rw [after, if_neg hown] at h
        obtain ⟨t, ht, hunsafe⟩ := ih h
        exact ⟨t, (Lts.Reaches.refl.tail (a := .run) trivial (if_neg hm)).trans ht, hunsafe⟩
    | unlock m =>
      obtain ⟨t, ht, hunsafe⟩ := ih h
      exact ⟨t, (Lts.Reaches.refl.tail (a := .run) trivial rfl).trans ht, hunsafe⟩
    | call c =>
      rw [after] at h
      split at h
      · next hany =>
        obtain ⟨m, hm, hshared⟩ := List.any_eq_true.mp hany
        refine ⟨_, Lts.Reaches.refl.tail (a := .run) trivial rfl, fun hsafe => ?_⟩
        have hprivate := hsafe.call rfl m (List.mem_flatMap.mpr ⟨_, List.mem_cons_self, hm⟩)
        rw [hshared] at hprivate
        cases hprivate
      · obtain ⟨t, ht, hunsafe⟩ := ih h
        -- the code that is called returns at once
        have hcalled : Lts.Reaches step (Entered pub root)
            (⟨⟨held, .call c :: p⟩ :: fs, false⟩ : Thread M C) ⟨⟨held, p⟩ :: fs, true⟩ :=
          .tail (a := .run) .refl trivial rfl
        have hreturned : Lts.Reaches step (Entered pub root)
            (⟨⟨held, .call c :: p⟩ :: fs, false⟩ : Thread M C) ⟨⟨held, p⟩ :: fs, false⟩ :=
          .tail (a := .leave) hcalled trivial rfl
        exact ⟨t, hreturned.trans ht, hunsafe⟩

/-- Threads are safe exactly when everything that is entered passes the check. -/
theorem safe_iff (hpub : ∀ p, pub p → p.Takes (shared · = true)) :
    (∀ t : Thread M C, Lts.Reaches step (Entered pub root) .start t → Safe shared t) ↔
      ∀ p, pub p ∨ root p → p.Clear shared [] := by
  constructor
  · intro hall p hp
    by_contra hclear
    have hentered : Lts.Reaches step (Entered pub root) .start
        (⟨[⟨[], p.events⟩], false⟩ : Thread M C) :=
      .tail (a := .enter p) .refl (hp.imp id fun hroot => ⟨hroot, rfl⟩) rfl
    obtain ⟨t, ht, hunsafe⟩ := @exists_not_safe M C _ shared pub root [] p.events []
      (after_events_of_not_clear hclear)
    exact hunsafe (hall t (hentered.trans ht))
  · intro hchecked t ht
    have hsound : Sound shared t := by
      refine ht.invariant .start fun t u a hs hentered hstep => ?_
      exact hs.step hstep hentered (fun p hp => ⟨hchecked p (.inl hp), hpub p hp⟩)
        fun p hp => hchecked p (.inr hp)
    exact hsound.safe

end Exact

end Reentrancy
