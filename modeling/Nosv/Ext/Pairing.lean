import Mathlib.Data.List.Nodup
import Mathlib.Logic.Function.Basic

/-!
# Items and their withdrawals

A table of items, each of which may be asked to withdraw at most once. A withdrawal first waits in
a queue and then flies under a key of its own; it lands after or before its item finishes. An item
stays in the table until both it and the withdrawal asked of it are over, so a withdrawal never
names an item that is gone. `Pairing.Wf` is that discipline and every operation keeps it.

* `Wf.register`, `Wf.ask`, `Wf.launch`, `Wf.finish` and `Wf.land`: every operation keeps the
  discipline;
* `Wf.one_target`: no item is asked twice.
-/

namespace Pairing

/-- What the table records of one item. -/
structure Item where
  /-- The item itself is over. -/
  finished : Bool
  /-- A withdrawal was asked for. -/
  asked : Bool
  /-- The withdrawal has landed. -/
  landed : Bool
  deriving DecidableEq, Repr

/-- An item nobody asked to withdraw. -/
def Item.fresh : Item := ⟨false, false, false⟩

/-- The withdrawal of the item was asked for and is not over. -/
def Item.Open (i : Item) : Prop := i.asked = true ∧ i.landed = false

end Pairing

/-- A table of items together with the withdrawals that are queued or in flight. -/
@[ext]
structure Pairing (κ : Type*) where
  /-- The registered items. -/
  items : κ → Option Pairing.Item
  /-- The item each flying withdrawal targets. -/
  flights : κ → Option κ
  /-- Targets of the withdrawals not yet in flight. -/
  queue : List κ

namespace Pairing

variable {κ : Type*}

/-- Some withdrawal, queued or in flight, targets `t`. -/
def Targets (x : Pairing κ) (t : κ) : Prop := t ∈ x.queue ∨ ∃ f, x.flights f = some t

/-- Every withdrawal targets a registered item of its own, and a finished item is registered
exactly while its withdrawal is open. -/
structure Wf (x : Pairing κ) : Prop where
  /-- A withdrawal targets a registered item whose withdrawal is open. -/
  target : ∀ t, x.Targets t → ∃ i, x.items t = some i ∧ i.Open
  /-- An open withdrawal is queued or in flight. -/
  targeted : ∀ t i, x.items t = some i → i.Open → x.Targets t
  /-- No item is queued for withdrawal twice. -/
  queue_nodup : x.queue.Nodup
  /-- No two flights share a target. -/
  flights_inj : ∀ f g t, x.flights f = some t → x.flights g = some t → f = g
  /-- No target is both queued and in flight. -/
  apart : ∀ f t, x.flights f = some t → t ∉ x.queue
  /-- A finished item is kept only for its open withdrawal. -/
  finished : ∀ t i, x.items t = some i → i.finished = true → i.Open
  /-- Only a withdrawal that was asked for lands. -/
  landed : ∀ t i, x.items t = some i → i.landed = true → i.asked = true

/-- The table with nothing in it. -/
def empty : Pairing κ := ⟨fun _ => none, fun _ => none, []⟩

/-- The empty table is well formed. -/
theorem Wf.empty : Wf (empty : Pairing κ) where
  target := by rintro t (h | ⟨f, h⟩) <;> cases h
  targeted := by rintro t i h; cases h
  queue_nodup := List.nodup_nil
  flights_inj := by rintro f g t h; cases h
  apart := by rintro f t h; cases h
  finished := by rintro t i h; cases h
  landed := by rintro t i h; cases h

variable [DecidableEq κ]

/-- Register a new item under `k`. -/
def register (x : Pairing κ) (k : κ) : Pairing κ :=
  { x with items := Function.update x.items k (some Item.fresh) }

/-- Ask for the withdrawal of every item of `ts`. -/
def ask (x : Pairing κ) (ts : List κ) : Pairing κ where
  items := fun t => if t ∈ ts then (x.items t).map fun i => { i with asked := true } else x.items t
  flights := x.flights
  queue := x.queue ++ ts

/-- The first queued withdrawal takes off under the key `f`. -/
def launch (x : Pairing κ) (f t : κ) (rest : List κ) : Pairing κ :=
  { x with flights := Function.update x.flights f (some t), queue := rest }

/-- Item `k` finishes; it is kept only for an open withdrawal. -/
def finish (x : Pairing κ) (k : κ) (i : Item) : Pairing κ :=
  { x with
    items := Function.update x.items k
      (if i.asked && !i.landed then some { i with finished := true } else none) }

/-- The withdrawal flying under `f` lands on `t`; a finished target leaves the table. -/
def land (x : Pairing κ) (f t : κ) (i : Item) : Pairing κ where
  items := Function.update x.items t (if i.finished then none else some { i with landed := true })
  flights := Function.update x.flights f none
  queue := x.queue

namespace Wf

variable {x : Pairing κ}

/-- Registering under a free key keeps the table well formed. -/
theorem register (h : x.Wf) {k : κ} (hk : x.items k = none) : (x.register k).Wf := by
  -- Nothing is under way for a key that has no item.
  have hne : ∀ t, x.Targets t → t ≠ k := by
    rintro t ht rfl
    obtain ⟨i, hi, -⟩ := h.target t ht
    rw [hk] at hi
    cases hi
  have hitem : ∀ t i, (x.register k).items t = some i → i = Item.fresh ∨ x.items t = some i := by
    intro t i hi
    by_cases htk : t = k
    · subst htk
      simp only [Pairing.register, Function.update_self, Option.some.injEq] at hi
      exact .inl hi.symm
    · simp only [Pairing.register, Function.update_of_ne htk] at hi
      exact .inr hi
  refine ⟨?_, ?_, h.queue_nodup, h.flights_inj, h.apart, ?_, ?_⟩
  · intro t ht
    obtain ⟨i, hi, ho⟩ := h.target t ht
    exact ⟨i, by simpa only [Pairing.register, Function.update_of_ne (hne t ht)] using hi, ho⟩
  · intro t i hi ho
    rcases hitem t i hi with rfl | hi
    · cases ho.1
    · exact h.targeted t i hi ho
  · intro t i hi hf
    rcases hitem t i hi with rfl | hi
    · cases hf
    · exact h.finished t i hi hf
  · intro t i hi hl
    rcases hitem t i hi with rfl | hi
    · cases hl
    · exact h.landed t i hi hl

/-- Asking each of a list of distinct items not asked before keeps the table well formed. -/
theorem ask (h : x.Wf) {ts : List κ} (hnd : ts.Nodup)
    (hts : ∀ t ∈ ts, ∃ i, x.items t = some i ∧ i.asked = false) : (x.ask ts).Wf := by
  -- Nothing is under way for an item that was not asked for.
  have hnot : ∀ t ∈ ts, ¬ x.Targets t := by
    intro t ht hT
    obtain ⟨i, hi, ha⟩ := hts t ht
    obtain ⟨j, hj, ho⟩ := h.target t hT
    rw [hi] at hj
    cases hj
    rw [ho.1] at ha
    cases ha
  have hin : ∀ t ∈ ts, ∀ i, (x.ask ts).items t = some i →
      ∃ j, x.items t = some j ∧ j.asked = false ∧ i = { j with asked := true } := by
    intro t ht i hi
    obtain ⟨j, hj, ha⟩ := hts t ht
    simp only [Pairing.ask, ht, if_true, hj, Option.map_some, Option.some.injEq] at hi
    exact ⟨j, hj, ha, hi.symm⟩
  have hout : ∀ t, t ∉ ts → (x.ask ts).items t = x.items t := by
    intro t ht
    simp only [Pairing.ask, ht, if_false]
  -- In the order of the fields of `Wf`.
  refine ⟨?_, ?_, ?_, h.flights_inj, ?_, ?_, ?_⟩
  · rintro t hT
    by_cases ht : t ∈ ts
    · obtain ⟨j, hj, ha⟩ := hts t ht
      refine ⟨{ j with asked := true }, by simp [Pairing.ask, ht, hj], rfl, ?_⟩
      cases hl : j.landed with
      | false => rfl
      | true => rw [h.landed t j hj hl] at ha; cases ha
    · rw [hout t ht]
      apply h.target t
      rcases hT with hq | hf
      · exact .inl ((List.mem_append.mp hq).resolve_right ht)
      · exact .inr hf
  · intro t i hi ho
    by_cases ht : t ∈ ts
    · exact .inl (List.mem_append_right _ ht)
    · rw [hout t ht] at hi
      rcases h.targeted t i hi ho with hq | hf
      · exact .inl (List.mem_append_left _ hq)
      · exact .inr hf
  · refine List.Nodup.append h.queue_nodup hnd ?_
    intro t hq ht
    exact hnot t ht (.inl hq)
  · intro f t hf hq
    rcases List.mem_append.mp hq with hq | ht
    · exact h.apart f t hf hq
    · exact hnot t ht (.inr ⟨f, hf⟩)
  · intro t i hi hfin
    by_cases ht : t ∈ ts
    · obtain ⟨j, hj, ha, rfl⟩ := hin t ht i hi
      rw [(h.finished t j hj hfin).1] at ha
      cases ha
    · rw [hout t ht] at hi
      exact h.finished t i hi hfin
  · intro t i hi hl
    by_cases ht : t ∈ ts
    · obtain ⟨j, -, -, rfl⟩ := hin t ht i hi
      rfl
    · rw [hout t ht] at hi
      exact h.landed t i hi hl

/-- Launching the first queued withdrawal under a free key keeps the table well formed. -/
theorem launch (h : x.Wf) {f t : κ} {rest : List κ} (hq : x.queue = t :: rest)
    (hf : x.flights f = none) : (x.launch f t rest).Wf := by
  have hnd : t ∉ rest ∧ rest.Nodup := by
    have := h.queue_nodup
    rw [hq] at this
    exact List.nodup_cons.mp this
  -- A flight is the new one or an old one.
  have hflight : ∀ g u, (x.launch f t rest).flights g = some u →
      (g = f ∧ u = t) ∨ x.flights g = some u := by
    intro g u hg
    by_cases hgf : g = f
    · subst hgf
      simp only [Pairing.launch, Function.update_self, Option.some.injEq] at hg
      exact .inl ⟨rfl, hg.symm⟩
    · simp only [Pairing.launch, Function.update_of_ne hgf] at hg
      exact .inr hg
  have hself : (x.launch f t rest).flights f = some t := by simp [Pairing.launch]
  have hkeep : ∀ g u, x.flights g = some u → (x.launch f t rest).flights g = some u := by
    intro g u hg
    have hgf : g ≠ f := by
      rintro rfl
      rw [hf] at hg
      cases hg
    simpa only [Pairing.launch, Function.update_of_ne hgf] using hg
  -- In the order of the fields of `Wf`.
  refine ⟨?_, ?_, hnd.2, ?_, ?_, h.finished, h.landed⟩
  · rintro u (hu | ⟨g, hg⟩)
    · exact h.target u (.inl (by rw [hq]; exact List.mem_cons_of_mem _ hu))
    · rcases hflight g u hg with ⟨-, rfl⟩ | hg
      · exact h.target u (.inl (by rw [hq]; exact List.mem_cons_self))
      · exact h.target u (.inr ⟨g, hg⟩)
  · intro u i hi ho
    rcases h.targeted u i hi ho with hu | ⟨g, hg⟩
    · rw [hq] at hu
      rcases List.mem_cons.mp hu with rfl | hu
      · exact .inr ⟨f, hself⟩
      · exact .inl hu
    · exact .inr ⟨g, hkeep g u hg⟩
  · intro g g' u hg hg'
    have hqt : t ∈ x.queue := by rw [hq]; exact List.mem_cons_self
    rcases hflight g u hg with ⟨rfl, rfl⟩ | hold <;>
      rcases hflight g' u hg' with ⟨rfl, hu⟩ | hold'
    · rfl
    · exact absurd hqt (h.apart g' u hold')
    · exact absurd hqt (hu ▸ h.apart g u hold)
    · exact h.flights_inj g g' u hold hold'
  · intro g u hg hu
    rcases hflight g u hg with ⟨-, rfl⟩ | hg
    · exact hnd.1 hu
    · exact h.apart g u hg (by rw [hq]; exact List.mem_cons_of_mem _ hu)

/-- An item that finishes leaves the table unless its withdrawal is open. -/
theorem finish (h : x.Wf) {k : κ} {i : Item} (hk : x.items k = some i) : (x.finish k i).Wf := by
  -- The item is kept when its withdrawal is still open, and dropped otherwise.
  have hitem : ∀ t j, (x.finish k i).items t = some j →
      (t = k ∧ i.Open ∧ j = { i with finished := true }) ∨ (t ≠ k ∧ x.items t = some j) := by
    intro t j hj
    by_cases htk : t = k
    · subst htk
      simp only [Pairing.finish, Function.update_self] at hj
      split at hj
      next hopen =>
        refine .inl ⟨rfl, ?_, (Option.some.inj hj).symm⟩
        simpa [Item.Open] using hopen
      next => cases hj
    · simp only [Pairing.finish, Function.update_of_ne htk] at hj
      exact .inr ⟨htk, hj⟩
  have hself : i.Open → (x.finish k i).items k = some { i with finished := true } := by
    rintro ⟨ha, hl⟩
    simp [Pairing.finish, ha, hl]
  have hother : ∀ t, t ≠ k → (x.finish k i).items t = x.items t := by
    intro t ht
    simp only [Pairing.finish, Function.update_of_ne ht]
  refine ⟨?_, ?_, h.queue_nodup, h.flights_inj, h.apart, ?_, ?_⟩
  · intro t hT
    obtain ⟨j, hj, ho⟩ := h.target t hT
    by_cases htk : t = k
    · subst htk
      rw [hk] at hj
      cases hj
      exact ⟨_, hself ho, ho⟩
    · exact ⟨j, by rw [hother t htk]; exact hj, ho⟩
  · intro t j hj ho
    rcases hitem t j hj with ⟨rfl, hio, -⟩ | ⟨-, hj⟩
    · exact h.targeted t i hk hio
    · exact h.targeted t j hj ho
  · intro t j hj hf
    rcases hitem t j hj with ⟨rfl, hio, rfl⟩ | ⟨-, hj⟩
    · exact hio
    · exact h.finished t j hj hf
  · intro t j hj hl
    rcases hitem t j hj with ⟨rfl, hio, rfl⟩ | ⟨-, hj⟩
    · exact hio.1
    · exact h.landed t j hj hl

/-- A landing withdrawal leaves, together with its target if that has finished. -/
theorem land (h : x.Wf) {f t : κ} {i : Item} (hf : x.flights f = some t)
    (ht : x.items t = some i) : (x.land f t i).Wf := by
  -- What is under way is open.
  have hopen : i.Open := by
    obtain ⟨j, hj, ho⟩ := h.target t (.inr ⟨f, hf⟩)
    rw [ht] at hj
    cases hj
    exact ho
  have hitem : ∀ u j, (x.land f t i).items u = some j →
      (u = t ∧ i.finished = false ∧ j = { i with landed := true }) ∨
        (u ≠ t ∧ x.items u = some j) := by
    intro u j hj
    by_cases hut : u = t
    · subst hut
      simp only [Pairing.land, Function.update_self] at hj
      split at hj
      next => cases hj
      next hfin => exact .inl ⟨rfl, by simpa using hfin, (Option.some.inj hj).symm⟩
    · simp only [Pairing.land, Function.update_of_ne hut] at hj
      exact .inr ⟨hut, hj⟩
  have hflight : ∀ g u, (x.land f t i).flights g = some u → g ≠ f ∧ x.flights g = some u := by
    intro g u hg
    by_cases hgf : g = f
    · subst hgf
      simp [Pairing.land] at hg
    · exact ⟨hgf, by simpa only [Pairing.land, Function.update_of_ne hgf] using hg⟩
  -- This was the only one for its target.
  have hne : ∀ u, (x.land f t i).Targets u → u ≠ t := by
    rintro u (hu | ⟨g, hg⟩) rfl
    · exact h.apart f u hf hu
    · obtain ⟨hgf, hg⟩ := hflight g u hg
      exact hgf (h.flights_inj g f u hg hf)
  refine ⟨?_, ?_, h.queue_nodup, ?_, ?_, ?_, ?_⟩
  · intro u hU
    have hut := hne u hU
    have hold : x.Targets u := by
      rcases hU with hu | ⟨g, hg⟩
      · exact .inl hu
      · exact .inr ⟨g, (hflight g u hg).2⟩
    obtain ⟨j, hj, ho⟩ := h.target u hold
    exact ⟨j, by simpa only [Pairing.land, Function.update_of_ne hut] using hj, ho⟩
  · intro u j hj ho
    rcases hitem u j hj with ⟨-, -, rfl⟩ | ⟨hut, hj⟩
    · cases ho.2
    · rcases h.targeted u j hj ho with hu | ⟨g, hg⟩
      · exact .inl hu
      · refine .inr ⟨g, ?_⟩
        have hgf : g ≠ f := by
          rintro rfl
          rw [hf] at hg
          exact hut (Option.some.inj hg).symm
        simpa only [Pairing.land, Function.update_of_ne hgf] using hg
  · intro g g' u hg hg'
    exact h.flights_inj g g' u (hflight g u hg).2 (hflight g' u hg').2
  · intro g u hg
    exact h.apart g u (hflight g u hg).2
  · intro u j hj hfin
    rcases hitem u j hj with ⟨-, hi, rfl⟩ | ⟨-, hj⟩
    · rw [hi] at hfin
      cases hfin
    · exact h.finished u j hj hfin
  · intro u j hj hl
    rcases hitem u j hj with ⟨-, -, rfl⟩ | ⟨-, hj⟩
    · exact hopen.1
    · exact h.landed u j hj hl

omit [DecidableEq κ] in
/-- No withdrawal targets an item whose withdrawal is not open. -/
theorem not_targets (h : x.Wf) {t : κ} {i : Item} (hi : x.items t = some i) (ho : ¬ i.Open) :
    t ∉ x.queue ∧ ∀ f, x.flights f ≠ some t := by
  have hnot : ¬ x.Targets t := by
    intro hT
    obtain ⟨j, hj, hopen⟩ := h.target t hT
    rw [hi] at hj
    exact ho (Option.some.inj hj ▸ hopen)
  exact ⟨fun hq => hnot (.inl hq), fun f hf => hnot (.inr ⟨f, hf⟩)⟩

/-- An open withdrawal is queued once and not in flight, or in one flight and not queued. -/
theorem one_target (h : x.Wf) {t : κ} {i : Item} (hi : x.items t = some i) (ho : i.Open) :
    (x.queue.count t = 1 ∧ ∀ f, x.flights f ≠ some t) ∨
      x.queue.count t = 0 ∧ ∃ f, x.flights f = some t ∧ ∀ g, x.flights g = some t → g = f := by
  rcases h.targeted t i hi ho with hq | ⟨f, hf⟩
  · exact .inl ⟨List.count_eq_one_of_mem h.queue_nodup hq, fun f hf => h.apart f t hf hq⟩
  · exact .inr ⟨List.count_eq_zero.mpr (h.apart f t hf), f, hf,
      fun g hg => h.flights_inj g f t hg hf⟩

end Wf

end Pairing
