import Nosv.Timer.Punctual

/-!
# One pass of the timer driver

A pass holds the heap mutex from the top of the loop until it has taken the wakers to invoke and
chosen what to wait for. Two loops pop entries, the first those that are due, the second cancelled
ones in front of the first live one. What they leave together is stated without them.

* `exists_expired` and `exists_pruned`: what each loop leaves;
* `pass_specified`: what a pass does to any heap;
* `specified_of_reachable`: so does every pass of a run.
-/

namespace Nosv.Timer

variable {W : Type}

/-! ## The order of the heap -/

/-- `Ord::cmp` of a `TimerEntry`, which reverses chronological order. -/
def TimerEntry.cmp (self other : TimerEntry) : Ordering :=
  (compare other.deadline self.deadline).then (compare other.id self.id)

/-- An entry comes before another when it is the greater one. -/
theorem TimerEntry.before_iff_cmp {a b : TimerEntry} : a.before b ↔ (a.cmp b).isGE = true := by
  unfold TimerEntry.before TimerEntry.cmp
  rcases Nat.lt_trichotomy a.deadline b.deadline with h | h | h
  · simp [Nat.compare_eq_gt.mpr h, h]
  · rcases Nat.lt_trichotomy a.id b.id with hid | hid | hid
    · simp [h, Nat.compare_eq_gt.mpr hid, Nat.le_of_lt hid]
    · simp [h, hid]
    · simp [h, Nat.compare_eq_lt.mpr hid, hid]
  · have hne : a.deadline ≠ b.deadline := Nat.ne_of_gt h
    simp [Nat.compare_eq_lt.mpr h, Nat.not_lt_of_gt h, hne]

/-! ## Passes -/

/-- One step of the driver, whatever the native call in it returns. -/
def Alone (σ τ : State W) : Prop := ∀ native choice, driverStep native choice σ = .ok τ

/-- One step with the heap mutex held. -/
def Holding (σ τ : State W) : Prop := σ.pc.locked = true ∧ Alone σ τ

/-- From the top of the loop until the heap mutex is released. -/
structure Pass (σ τ : State W) : Prop where
  scan : σ.pc = .scan
  run : ∃ ρ, Alone σ ρ ∧ Relation.ReflTransGen Holding ρ τ
  released : τ.pc.locked = false

/-- The entries to fire: not cancelled, and due when the pass reads the clock. -/
def State.expiring (σ : State W) (now : ℕ) : List TimerEntry :=
  σ.heap.items.filter fun e => e.deadline ≤ now ∧ (σ.timers e.timer).cancelled = false

/-- The waiters of entries, for those that have one. -/
def State.waiters (σ : State W) (fired : List TimerEntry) : List W :=
  fired.filterMap fun e => (σ.timers e.timer).waiter

/-- What a pass is for. -/
structure Specified (σ τ : State W) : Prop where
  /-- Nothing but the program counter and what the fields below are about changes. -/
  frame : τ = { σ with
    pc := τ.pc, pass := σ.clock, heap := τ.heap, timers := τ.timers, fires := τ.fires }
  /-- Exactly the live entries that are due are fired, and lose their waiters. -/
  timers : ∀ t, τ.timers t =
    if t ∈ (σ.expiring σ.clock).map (·.timer) then
      { σ.timers t with fired := true, waiter := none }
    else σ.timers t
  fires : τ.fires = σ.fires ++
    (σ.expiring σ.clock).map fun e => ⟨e.timer, (σ.timers e.timer).waiter⟩
  order : (σ.expiring σ.clock).Pairwise fun a b =>
    a.deadline < b.deadline ∨ (a.deadline = b.deadline ∧ a.id < b.id)
  gone : ∀ e ∈ σ.expiring σ.clock, e ∉ τ.heap
  removed : ∀ e ∈ σ.heap, e ∉ τ.heap →
    e ∈ σ.expiring σ.clock ∨ (σ.timers e.timer).cancelled = true
  kept : τ.heap.items.Sublist σ.heap.items
  /-- The waiters are taken in the order of their entries, and the wait is chosen. -/
  taken : ∃ wait, τ.pc = .waking wait (σ.waiters (σ.expiring σ.clock)) ∧
    (wait = none → ∀ e ∈ τ.heap, (σ.timers e.timer).cancelled = true) ∧
    ∀ d, wait = some d → 0 < d ∧ ∃ e ∈ τ.heap, (σ.timers e.timer).cancelled = false ∧
      e.deadline = σ.clock + d ∧
      ∀ other ∈ τ.heap, (σ.timers other.timer).cancelled = false → e.deadline ≤ other.deadline

/-! ## Entries that are due -/

section Expire

variable {σ τ : State W} {wake : List W} {entry : TimerEntry}

/-- What the first loop leaves. -/
structure Expired (σ : State W) (wake : List W) (τ : State W) : Prop where
  pc : τ.pc = .pruning (wake ++ σ.waiters (σ.expiring σ.pass))
  heap : τ.heap.items = σ.heap.items.filter fun e => σ.pass < e.deadline
  timers : ∀ t, τ.timers t =
    if t ∈ (σ.expiring σ.pass).map (·.timer) then
      { σ.timers t with fired := true, waiter := none }
    else σ.timers t
  fires : τ.fires = σ.fires ++
    (σ.expiring σ.pass).map fun e => ⟨e.timer, (σ.timers e.timer).waiter⟩
  frame : τ = { σ with pc := τ.pc, heap := τ.heap, timers := τ.timers, fires := τ.fires }

/-- The first loop ends when nothing is due. -/
theorem Expired.stop (hlate : ∀ e ∈ σ.heap, σ.pass < e.deadline) :
    Expired σ wake { σ with pc := .pruning wake } := by
  have hnone : σ.expiring σ.pass = [] := by
    refine List.filter_eq_nil_iff.mpr fun e he hdue => ?_
    have := hlate e he
    simp only [decide_eq_true_eq] at hdue
    omega
  have hall : σ.heap.items.filter (fun e => σ.pass < e.deadline) = σ.heap.items :=
    List.filter_eq_self.mpr fun e he => decide_eq_true (hlate e he)
  constructor
  · simp [State.waiters, hnone]
  · exact hall.symm
  · simp [hnone]
  · simp [hnone]
  · rfl

/-- A cancelled entry that is due is dropped. -/
theorem Expired.skip (hpeek : σ.heap.peek = some entry) (hdue : entry.deadline ≤ σ.pass)
    (hcancelled : (σ.timers entry.timer).cancelled = true)
    (h : Expired { σ with heap := σ.heap.pop } wake τ) : Expired σ wake τ := by
  have hsame : σ.expiring σ.pass = State.expiring { σ with heap := σ.heap.pop } σ.pass := by
    rw [State.expiring, SortedHeap.items_of_peek hpeek,
      List.filter_cons_of_neg (by simp [hcancelled])]
    rfl
  obtain ⟨hpc, hheap, htimers, hfires, hframe⟩ := h
  constructor
  · rw [hpc, hsame]
    rfl
  · rw [hheap, SortedHeap.items_of_peek hpeek, List.filter_cons_of_neg (by simpa using hdue)]
  · rw [hsame]
    exact htimers
  · rw [hsame]
    exact hfires
  · exact hframe

/-- The state after a live entry that is due was popped. -/
def State.popped (σ : State W) (wake : List W) (entry : TimerEntry) : State W :=
  { σ.setTimer entry.timer { σ.timers entry.timer with fired := true, waiter := none } with
    heap := σ.heap.pop
    pc := .expiring (wake ++ (σ.timers entry.timer).waiter.toList)
    fires := σ.fires ++ [⟨entry.timer, (σ.timers entry.timer).waiter⟩] }

/-- Firing an entry cancels no other. -/
theorem State.popped_cancelled (t : TimerId) :
    ((σ.popped wake entry).timers t).cancelled = (σ.timers t).cancelled := by
  change (Function.update σ.timers entry.timer _ t).cancelled = _
  by_cases ht : t = entry.timer
  · subst ht
    rw [Function.update_self]
  · rw [Function.update_of_ne ht]

/-- Firing an entry leaves the timers of the others alone. -/
theorem State.popped_timers {t : TimerId} (ht : t ≠ entry.timer) :
    (σ.popped wake entry).timers t = σ.timers t :=
  Function.update_of_ne ht _ _

/-- A live entry that is due is fired. -/
theorem Expired.fire (hpeek : σ.heap.peek = some entry) (hdue : entry.deadline ≤ σ.pass)
    (hlive : (σ.timers entry.timer).cancelled = false)
    (hfresh : entry.timer ∉ σ.heap.pop.items.map (·.timer))
    (h : Expired (σ.popped wake entry) (wake ++ (σ.timers entry.timer).waiter.toList) τ) :
    Expired σ wake τ := by
  have hrest : (σ.popped wake entry).expiring σ.pass = σ.heap.pop.items.filter
      fun e => e.deadline ≤ σ.pass ∧ (σ.timers e.timer).cancelled = false := by
    unfold State.expiring
    simp only [State.popped_cancelled]
    rfl
  have hcons : σ.expiring σ.pass = entry :: (σ.popped wake entry).expiring σ.pass := by
    rw [hrest, State.expiring, SortedHeap.items_of_peek hpeek,
      List.filter_cons_of_pos (by simp [hdue, hlive])]
  -- the rest of the loop finds the other timers as they were
  have hother : ∀ e ∈ (σ.popped wake entry).expiring σ.pass,
      (σ.popped wake entry).timers e.timer = σ.timers e.timer := by
    intro e he
    rw [hrest] at he
    refine State.popped_timers fun heq => hfresh ?_
    rw [← heq]
    exact List.mem_map_of_mem (List.mem_of_mem_filter he)
  have hwaiters : (σ.popped wake entry).waiters ((σ.popped wake entry).expiring σ.pass) =
      σ.waiters ((σ.popped wake entry).expiring σ.pass) :=
    List.filterMap_congr fun e he => by rw [hother e he]
  obtain ⟨hpc, hheap, htimers, hfires, hframe⟩ := h
  change ∀ t, τ.timers t = if t ∈ ((σ.popped wake entry).expiring σ.pass).map (·.timer) then
    _ else _ at htimers
  change τ.fires = (σ.fires ++ [⟨entry.timer, (σ.timers entry.timer).waiter⟩]) ++
    ((σ.popped wake entry).expiring σ.pass).map _ at hfires
  constructor
  · rw [hpc]
    change Pc.pruning (_ ++ (σ.popped wake entry).waiters
      ((σ.popped wake entry).expiring σ.pass)) = _
    rw [hwaiters, hcons, List.append_assoc]
    cases hw : (σ.timers entry.timer).waiter with
    | none => simp [State.waiters, hw]
    | some waiter => simp [State.waiters, hw]
  · rw [hheap, SortedHeap.items_of_peek hpeek, List.filter_cons_of_neg (by simpa using hdue)]
    rfl
  · intro t
    rw [htimers, hcons, List.map_cons]
    by_cases ht : t = entry.timer
    · -- this entry is the only one of its timer
      have hnot : t ∉ ((σ.popped wake entry).expiring σ.pass).map (·.timer) := by
        rw [hrest, ht]
        exact fun hmem => hfresh ((List.filter_sublist.map _).subset hmem)
      rw [if_neg hnot, if_pos (ht ▸ List.mem_cons_self), ht]
      exact Function.update_self _ _ _
    · rw [State.popped_timers ht]
      simp only [List.mem_cons, ht, false_or]
  · rw [hfires, hcons, List.map_cons, List.append_assoc]
    refine congrArg (fun l => σ.fires ++ (_ :: l)) (List.map_congr_left fun e he => ?_)
    rw [hother e he]
  · exact hframe

/-- The first loop ends, whatever the heap. -/
theorem exists_expired (hpc : σ.pc = .expiring wake)
    (htimers : (σ.heap.items.map (·.timer)).Nodup) :
    ∃ τ, Relation.ReflTransGen Holding σ τ ∧ Expired σ wake τ := by
  -- by induction on the heap, one entry for each turn of the loop
  obtain ⟨items, hitems⟩ : ∃ items, σ.heap.items = items := ⟨_, rfl⟩
  have hlocked : σ.pc.locked = true := by
    rw [hpc]
    rfl
  induction items generalizing σ wake with
  | nil =>
    have hpeek : σ.heap.peek = none := SortedHeap.peek_eq_none.mpr hitems
    refine ⟨_, .single ⟨hlocked, fun _ _ => ?_⟩, .stop fun e he => ?_⟩
    · simp only [driverStep, hpc, hpeek]
    · rw [← SortedHeap.mem_items, hitems] at he
      cases he
  | cons entry items ih =>
    obtain ⟨hpeek, hpop⟩ := SortedHeap.peek_of_items hitems
    rw [hitems, List.map_cons, List.nodup_cons] at htimers
    by_cases hdue : entry.deadline ≤ σ.pass
    · cases hc : (σ.timers entry.timer).cancelled with
      | true =>
        obtain ⟨τ, hrun, hτ⟩ := @ih { σ with heap := σ.heap.pop } wake hpc
          (hpop ▸ htimers.2) hpop hlocked
        refine ⟨τ, .head ⟨hlocked, fun _ _ => ?_⟩ hrun, .skip hpeek hdue hc hτ⟩
        simp [driverStep, hpc, hpeek, hdue, TimerState.fire, hc, State.setTimer]
      | false =>
        obtain ⟨τ, hrun, hτ⟩ := @ih (σ.popped wake entry) _ rfl (hpop ▸ htimers.2) hpop rfl
        refine ⟨τ, .head ⟨hlocked, fun _ _ => ?_⟩ hrun,
          .fire hpeek hdue hc (hpop ▸ htimers.1) hτ⟩
        simp [driverStep, hpc, hpeek, hdue, TimerState.fire, hc, State.popped]
    · refine ⟨_, .single ⟨hlocked, fun _ _ => ?_⟩, .stop fun e he => ?_⟩
      · simp only [driverStep, hpc, hpeek, hdue, if_false]
      · exact (Nat.lt_of_not_le hdue).trans_le (deadline_le_of_peek hpeek he)

end Expire

/-! ## Cancelled entries on top -/

section Prune

variable {σ τ : State W} {wake : List W}

/-- What the second loop leaves, and the wait that is chosen. -/
structure Pruned (σ : State W) (wake : List W) (τ : State W) : Prop where
  pc : τ.pc = .waking (τ.heap.peek.map fun e => e.deadline - σ.pass) wake
  heap : τ.heap.items = σ.heap.items.dropWhile fun e => (σ.timers e.timer).cancelled
  frame : τ = { σ with pc := τ.pc, heap := τ.heap }

/-- The second loop ends, whatever the heap. -/
theorem exists_pruned (hpc : σ.pc = .pruning wake) :
    ∃ τ, Relation.ReflTransGen Holding σ τ ∧ Pruned σ wake τ := by
  -- by induction on the heap, from which the loop takes cancelled entries until a live one comes up
  obtain ⟨items, hitems⟩ : ∃ items, σ.heap.items = items := ⟨_, rfl⟩
  have hlocked : σ.pc.locked = true := by
    rw [hpc]
    rfl
  induction items generalizing σ with
  | nil =>
    have hpeek : σ.heap.peek = none := SortedHeap.peek_eq_none.mpr hitems
    refine ⟨{ σ with pc := .waking none wake }, .single ⟨hlocked, fun _ _ => ?_⟩, ?_⟩
    · simp only [driverStep, hpc, hpeek]
    · refine ⟨?_, ?_, rfl⟩
      · change Pc.waking none wake = .waking (σ.heap.peek.map _) wake
        rw [hpeek, Option.map_none]
      · change σ.heap.items = _
        rw [hitems, List.dropWhile_nil]
  | cons entry items ih =>
    obtain ⟨hpeek, hpop⟩ := SortedHeap.peek_of_items hitems
    cases hc : (σ.timers entry.timer).cancelled with
    | true =>
      obtain ⟨τ, hrun, hpc', hheap, hframe⟩ := @ih { σ with heap := σ.heap.pop } hpc hpop hlocked
      refine ⟨τ, .head ⟨hlocked, fun _ _ => ?_⟩ hrun, hpc', ?_, hframe⟩
      · simp only [driverStep, hpc, hpeek, hc, if_true]
      · rw [hheap, hitems, List.dropWhile_cons_of_pos (by exact hc), ← hpop]
    | false =>
      refine ⟨{ σ with pc := .waking (some (entry.deadline - σ.pass)) wake },
        .single ⟨hlocked, fun _ _ => ?_⟩, ?_, ?_, rfl⟩
      · simp only [driverStep, hpc, hpeek, hc, Bool.false_eq_true, if_false]
      · change Pc.waking _ wake = .waking (σ.heap.peek.map _) wake
        rw [hpeek, Option.map_some]
      · change σ.heap.items = _
        rw [hitems, List.dropWhile_cons_of_neg (by simp [hc])]

/-- The entry left on top is live. -/
theorem Pruned.live {entry : TimerEntry} (h : Pruned σ wake τ)
    (hpeek : τ.heap.peek = some entry) : (σ.timers entry.timer).cancelled = false := by
  have hhead := List.head?_dropWhile_not (fun e : TimerEntry => (σ.timers e.timer).cancelled)
    σ.heap.items
  rw [← h.heap, show τ.heap.items.head? = some entry from hpeek] at hhead
  exact hhead

/-- The second loop takes cancelled entries only. -/
theorem Pruned.cancelled {entry : TimerEntry} (h : Pruned σ wake τ) (he : entry ∈ σ.heap)
    (hgone : entry ∉ τ.heap) : (σ.timers entry.timer).cancelled = true := by
  rw [← SortedHeap.mem_items, h.heap] at hgone
  rw [← SortedHeap.mem_items, ← List.takeWhile_append_dropWhile
    (p := fun e : TimerEntry => (σ.timers e.timer).cancelled) (l := σ.heap.items)] at he
  have htaken := (List.mem_append.mp he).resolve_right hgone
  exact List.all_eq_true.mp List.all_takeWhile entry htaken

end Prune

/-! ## The two loops together -/

section Pass

variable {σ τ υ ρ : State W}

/-- The driver has one next step at most. -/
theorem Alone.unique (hτ : Alone σ τ) (hυ : Alone σ υ) : τ = υ :=
  Except.ok.inj ((hτ (.ok ()) 0).symm.trans (hυ (.ok ()) 0))

/-- Nothing is held after the heap mutex is released. -/
theorem eq_of_released (hτ : τ.pc.locked = false) (h : Relation.ReflTransGen Holding τ υ) :
    υ = τ := by
  rcases h.cases_head with rfl | ⟨ρ, hhold, -⟩
  · rfl
  · rw [hhold.1] at hτ
    cases hτ

/-- A pass ends in one state. -/
theorem Pass.unique (hτ : Pass σ τ) (hυ : Pass σ υ) : τ = υ := by
  -- both runs have the same first step, and one of them continues the other
  obtain ⟨-, ⟨ρ, hρ, hrun⟩, hreleased⟩ := hτ
  obtain ⟨-, ⟨ρ', hρ', hrun'⟩, hreleased'⟩ := hυ
  obtain rfl : ρ = ρ' := hρ.unique hρ'
  have hunique : Relator.RightUnique (@Holding W) := fun _ _ _ h h' => h.2.unique h'.2
  rcases Relation.ReflTransGen.total_of_right_unique hunique hrun hrun' with h | h
  · exact (eq_of_released hreleased h).symm
  · exact eq_of_released hreleased' h

/-- The entries fired come in strict order, since no two have the same identifier. -/
theorem State.expiring_order (hids : (σ.heap.items.map (·.id)).Nodup) (now : ℕ) :
    (σ.expiring now).Pairwise fun a b =>
      a.deadline < b.deadline ∨ (a.deadline = b.deadline ∧ a.id < b.id) := by
  have hne : σ.heap.items.Pairwise fun a b => a.id ≠ b.id := List.pairwise_map.mp hids
  refine ((σ.heap.sorted.and hne).sublist List.filter_sublist).imp fun {a b} hab => ?_
  obtain ⟨hlt | ⟨heq, hle⟩, hid⟩ := hab
  · exact .inl hlt
  · exact .inr ⟨heq, Nat.lt_of_le_of_ne hle hid⟩

/-- The first loop cancels nothing. -/
theorem Expired.cancelled {wake : List W} (h : Expired σ wake τ) (t : TimerId) :
    (τ.timers t).cancelled = (σ.timers t).cancelled := by
  rw [h.timers t]
  split_ifs
  · rfl
  · rfl

/-- The two loops do what a pass is for. -/
theorem Expired.specified (hids : (σ.heap.items.map (·.id)).Nodup)
    (hE : Expired { σ with pc := .expiring [], pass := σ.clock } [] υ)
    (hP : Pruned υ (σ.waiters (σ.expiring σ.clock)) τ) : Specified σ τ := by
  have hcancelled : ∀ t, (υ.timers t).cancelled = (σ.timers t).cancelled := hE.cancelled
  have hpass : υ.pass = σ.clock := by rw [hE.frame]
  have hheap : υ.heap.items = σ.heap.items.filter fun e => σ.clock < e.deadline := hE.heap
  have hsub : τ.heap.items.Sublist υ.heap.items := by
    rw [hP.heap]
    exact List.dropWhile_sublist _
  -- what is left was not due, so the chosen wait is positive
  have hlate : ∀ e ∈ τ.heap, σ.clock < e.deadline := by
    intro e he
    have hmem := hsub.subset he
    rw [hheap] at hmem
    exact of_decide_eq_true (List.mem_filter.mp hmem).2
  constructor
  · rw [hP.frame, hE.frame]
  · rw [hP.frame]
    exact hE.timers
  · rw [hP.frame]
    exact hE.fires
  · exact State.expiring_order hids _
  · intro e he hmem
    have hdue := of_decide_eq_true (List.mem_filter.mp he).2
    exact Nat.not_le_of_lt (hlate e hmem) hdue.1
  · intro e he hnot
    by_cases hdue : e.deadline ≤ σ.clock
    · cases hc : (σ.timers e.timer).cancelled with
      | true => exact .inr rfl
      | false => exact .inl (List.mem_filter.mpr ⟨he, decide_eq_true ⟨hdue, hc⟩⟩)
    · -- an entry that is not due goes in the second loop only
      have hmem : e ∈ υ.heap := by
        rw [← SortedHeap.mem_items, hheap]
        exact List.mem_filter.mpr ⟨he, decide_eq_true (Nat.lt_of_not_le hdue)⟩
      exact .inr (hcancelled e.timer ▸ hP.cancelled hmem hnot)
  · rw [hheap] at hsub
    exact hsub.trans List.filter_sublist
  · refine ⟨τ.heap.peek.map fun e => e.deadline - σ.clock, hpass ▸ hP.pc, fun hnone e he => ?_,
      fun d hd => ?_⟩
    · have hpeek : τ.heap.peek = none := Option.map_eq_none_iff.mp hnone
      rw [← SortedHeap.mem_items, SortedHeap.peek_eq_none.mp hpeek] at he
      cases he
    · obtain ⟨e, hpeek, rfl⟩ := Option.map_eq_some_iff.mp hd
      have hmem := SortedHeap.mem_of_peek hpeek
      have hlt := hlate e hmem
      refine ⟨by omega, e, hmem, hcancelled e.timer ▸ hP.live hpeek, by omega,
        fun other hother _ => ?_⟩
      exact deadline_le_of_peek hpeek hother

/-- A pass that finds no shutdown ends. -/
theorem exists_specified (hpc : σ.pc = .scan) (hshutdown : σ.shutdown = false)
    (hids : (σ.heap.items.map (·.id)).Nodup) (htimers : (σ.heap.items.map (·.timer)).Nodup) :
    ∃ τ, Pass σ τ ∧ Specified σ τ := by
  have hscan : Alone σ { σ with pc := .expiring [], pass := σ.clock } := fun _ _ => by
    simp [driverStep, hpc, hshutdown]
  obtain ⟨υ, hυ, hE⟩ :=
    @exists_expired W { σ with pc := .expiring [], pass := σ.clock } [] rfl htimers
  obtain ⟨τ, hτ, hP⟩ := exists_pruned hE.pc
  refine ⟨τ, ⟨hpc, ⟨_, hscan, hυ.trans hτ⟩, ?_⟩, hE.specified hids hP⟩
  rw [hP.pc]
  rfl

end Pass

/-! ## The heaps of runs -/

section Numbered

variable {σ τ : State W} {a : Action W} {t : TimerId} {s : Sleep W}

/-- Identifiers are given out once. -/
structure Numbered (σ : State W) : Prop where
  below : ∀ e ∈ σ.heap, e.id < σ.nextId
  allocated : ∀ t s id, σ.sleeps t = some s → s.pc = .allocated id →
    id < σ.nextId ∧ ∀ e ∈ σ.heap, e.id ≠ id
  apart : ∀ t t' s s' id, σ.sleeps t = some s → σ.sleeps t' = some s' →
    s.pc = .allocated id → s'.pc = .allocated id → t = t'
  nodup : (σ.heap.items.map (·.id)).Nodup

/-- Entries may go, and registrations may end. -/
theorem Numbered.frame (h : Numbered σ) (hsub : τ.heap.items.Sublist σ.heap.items)
    (hnext : τ.nextId = σ.nextId)
    (hsleeps : ∀ t s id, τ.sleeps t = some s → s.pc = .allocated id →
      ∃ s', σ.sleeps t = some s' ∧ s'.pc = .allocated id) : Numbered τ where
  below e he := hnext ▸ h.below e (hsub.subset he)
  allocated t s id hs hpc := by
    obtain ⟨s', hs', hpc'⟩ := hsleeps t s id hs hpc
    obtain ⟨hlt, hne⟩ := h.allocated t s' id hs' hpc'
    exact ⟨hnext ▸ hlt, fun e he => hne e (hsub.subset he)⟩
  apart t t' s s' id hs hs' hpc hpc' := by
    obtain ⟨r, hr, hrpc⟩ := hsleeps t s id hs hpc
    obtain ⟨r', hr', hrpc'⟩ := hsleeps t' s' id hs' hpc'
    exact h.apart t t' r r' id hr hr' hrpc hrpc'
  nodup := h.nodup.sublist (hsub.map _)

/-- A sleep goes where it has no identifier. -/
theorem Numbered.setSleep (h : Numbered σ) (hheap : τ.heap = σ.heap) (hnext : τ.nextId = σ.nextId)
    (hsleeps : τ.sleeps = Function.update σ.sleeps t (some s))
    (hpc : ∀ id, s.pc ≠ .allocated id) : Numbered τ := by
  refine h.frame (hheap ▸ .refl _) hnext fun t' s' id hs' hpc' => ?_
  rw [hsleeps] at hs'
  by_cases ht : t' = t
  · rw [ht, Function.update_self, Option.some.injEq] at hs'
    exact absurd (hs' ▸ hpc') (hpc id)
  · rw [Function.update_of_ne ht] at hs'
    exact ⟨s', hs', hpc'⟩

/-- A new identifier is given out. -/
theorem Numbered.bind (h : Numbered σ) :
    Numbered { σ.setSleep t { s with pc := .allocated σ.nextId } with nextId := σ.nextId + 1 } where
  below e he := Nat.lt_succ_of_lt (h.below e he)
  allocated t' s' id hs' hpc' := by
    change Function.update σ.sleeps t _ t' = _ at hs'
    by_cases ht : t' = t
    · rw [ht, Function.update_self, Option.some.injEq] at hs'
      rw [← hs', SleepPc.allocated.injEq] at hpc'
      exact ⟨hpc' ▸ Nat.lt_succ_self _, fun e he => Nat.ne_of_lt (hpc' ▸ h.below e he)⟩
    · rw [Function.update_of_ne ht] at hs'
      obtain ⟨hlt, hne⟩ := h.allocated t' s' id hs' hpc'
      exact ⟨Nat.lt_succ_of_lt hlt, hne⟩
  apart t₁ t₂ s₁ s₂ id h₁ h₂ hpc₁ hpc₂ := by
    change Function.update σ.sleeps t _ t₁ = _ at h₁
    change Function.update σ.sleeps t _ t₂ = _ at h₂
    -- the identifiers given out before are smaller
    have hother : ∀ t' s', t' ≠ t → Function.update σ.sleeps t
        (some { s with pc := .allocated σ.nextId }) t' = some s' → s'.pc = .allocated id →
        id < σ.nextId := fun t' s' ht hs' hpc' => by
      rw [Function.update_of_ne ht] at hs'
      exact (h.allocated t' s' id hs' hpc').1
    by_cases ht₁ : t₁ = t <;> by_cases ht₂ : t₂ = t
    · exact ht₁.trans ht₂.symm
    · have hlt := hother t₂ s₂ ht₂ h₂ hpc₂
      rw [ht₁, Function.update_self, Option.some.injEq] at h₁
      rw [← h₁, SleepPc.allocated.injEq] at hpc₁
      exact absurd hlt (hpc₁ ▸ Nat.lt_irrefl _)
    · have hlt := hother t₁ s₁ ht₁ h₁ hpc₁
      rw [ht₂, Function.update_self, Option.some.injEq] at h₂
      rw [← h₂, SleepPc.allocated.injEq] at hpc₂
      exact absurd hlt (hpc₂ ▸ Nat.lt_irrefl _)
    · rw [Function.update_of_ne ht₁] at h₁
      rw [Function.update_of_ne ht₂] at h₂
      exact h.apart t₁ t₂ s₁ s₂ id h₁ h₂ hpc₁ hpc₂
  nodup := h.nodup

/-- An identifier goes into the heap. -/
theorem Numbered.push (h : Numbered σ) (hs : σ.sleeps t = some s) {id : ℕ}
    (hpc : s.pc = .allocated id) :
    Numbered { σ.setSleep t { s with pc := .pushed } with
      heap := σ.heap.push ⟨s.deadline, id, t⟩ } := by
  obtain ⟨hlt, hne⟩ := h.allocated t s id hs hpc
  have hset : Numbered (σ.setSleep t { s with pc := .pushed }) :=
    h.setSleep rfl rfl rfl nofun
  constructor
  · intro e he
    rcases SortedHeap.mem_push.mp he with rfl | he
    · exact hlt
    · exact h.below e he
  · intro t' s' id' hs' hpc'
    obtain ⟨hlt', hne'⟩ := hset.allocated t' s' id' hs' hpc'
    refine ⟨hlt', fun e he => ?_⟩
    rcases SortedHeap.mem_push.mp he with rfl | he
    · -- no other sleep holds the identifier that was pushed
      rintro rfl
      change Function.update σ.sleeps t _ t' = _ at hs'
      by_cases ht : t' = t
      · rw [ht, Function.update_self, Option.some.injEq] at hs'
        rw [← hs'] at hpc'
        cases hpc'
      · rw [Function.update_of_ne ht] at hs'
        exact ht (h.apart t' t s' s id hs' hs hpc' hpc)
    · exact hne' e he
  · exact hset.apart
  · -- The identifier was taken for this sleep and is in no entry yet.
    refine (SortedHeap.push_perm.map _).nodup_iff.mpr ?_
    rw [List.map_cons, List.nodup_cons]
    refine ⟨fun hmem => ?_, h.nodup⟩
    obtain ⟨e, he, heq⟩ := List.mem_map.mp hmem
    exact hne e he heq

/-- Every step keeps the identifiers apart. -/
theorem Numbered.move (h : Numbered σ) (hm : Move σ a τ) : Numbered τ := by
  cases hm with
  | tick | pollReady | shutdown | shutdownNotify | shutdownReturn =>
    exact h.frame (.refl _) rfl fun _ s _ hs hpc => ⟨s, hs, hpc⟩
  | create => exact h.setSleep rfl rfl rfl nofun
  | pollPending =>
    refine h.setSleep rfl rfl rfl fun id => ?_
    dsimp only
    split <;> nofun
  | bind => exact h.bind
  | bindPanic => exact h.setSleep rfl rfl rfl nofun
  | push hs hpc => exact h.push hs hpc
  | pushClosed => exact h.setSleep rfl rfl rfl nofun
  | notifyPushed => exact h.setSleep rfl rfl rfl nofun
  | notifyDropped => exact h.setSleep rfl rfl rfl nofun
  | drop =>
    refine h.setSleep rfl rfl rfl fun id => ?_
    dsimp only
    split <;> nofun
  -- The driver takes entries off the heap and adds none.
  | driver hm =>
    refine h.frame ?_ ?_ fun _ s _ hs hpc => ⟨s, ?_, hpc⟩
    · cases hm with
      | drain => exact List.eraseIdx_sublist _ _
      | skip | fire | prune => exact List.tail_sublist _
      | _ => exact .refl _
    · cases hm <;> rfl
    · cases hm <;> exact hs

variable [DecidableEq W] {raw : RawTask} {ok : State W → Action W → Prop}

/-- In every run, a pass that finds no shutdown does what a pass is for. -/
theorem specified_of_reachable (h : Lts.Reaches step ok (State.init raw) σ) (hpc : σ.pc = .scan)
    (hshutdown : σ.shutdown = false) : ∃ τ, Pass σ τ ∧ Specified σ τ := by
  have hnumbered : Numbered σ := by
    have hinit : Numbered (State.init raw : State W) :=
      ⟨fun _ he => absurd he SortedHeap.not_mem_empty, nofun, nofun, List.nodup_nil⟩
    refine h.invariant hinit fun _ _ _ hn _ hstep => ?_
    exact hn.move (move_of_step hstep)
  exact exists_specified hpc hshutdown hnumbered.nodup (invariant h).1.nodup

end Numbered

/-! ## Any heap -/

/-- One pass that finds no shutdown does what a pass is for, on any heap of which no two entries
have the same identifier or the same timer. -/
theorem pass_specified (σ : State W) (hpc : σ.pc = .scan) (hshutdown : σ.shutdown = false)
    (hids : (σ.heap.items.map (·.id)).Nodup) (htimers : (σ.heap.items.map (·.timer)).Nodup) :
    (∃ τ, Pass σ τ) ∧ ∀ τ, Pass σ τ → Specified σ τ := by
  obtain ⟨τ, hpass, hspecified⟩ := exists_specified hpc hshutdown hids htimers
  refine ⟨⟨τ, hpass⟩, fun τ' hτ' => ?_⟩
  rw [hτ'.unique hpass]
  exact hspecified

/-- Two timers of the same deadline, a cancelled one behind them, and a later one; only the second
of the first two is due at 10 and live. -/
def crowded : State ℕ :=
  { State.init 5 with
    clock := 10
    heap := (((SortedHeap.empty.push ⟨20, 4, 3⟩).push ⟨15, 3, 2⟩).push ⟨10, 2, 1⟩).push ⟨10, 1, 0⟩
    timers := fun t => ⟨false, t = 0 ∨ t = 2, some t⟩ }

/-- The pass over that heap. -/
theorem pass_specified_crowded : (∃ τ, Pass crowded τ) ∧ ∀ τ, Pass crowded τ →
    Specified crowded τ :=
  pass_specified crowded rfl rfl (by decide) (by decide)

/-- The pass takes the waiter of the one entry that is due, and waits for the last. -/
example : ∀ τ, Specified crowded τ → ∃ wait, τ.pc = .waking wait [1] := by
  intro τ h
  obtain ⟨wait, hpc, -⟩ := h.taken
  exact ⟨wait, hpc⟩

end Nosv.Timer
