import Mathlib.Data.List.Sort

/-!
# Priority queues

A `SortedHeap r` is a collection from which the first element in the order `r` is taken. It is kept
as the list of its elements in that order, which is part of the type: what a heap does with ties,
and the layout it has in memory, are not visible through its operations when `r` is a strict order
of what is ever stored.

* `peek_first`: what is taken comes before all the others;
* `mem_push`, `mem_of_mem_pop` and `mem_iff_of_peek`: what is in a heap after an operation.
-/

/-- A collection popped in the order `r`. -/
structure SortedHeap {α : Type*} (r : α → α → Prop) where
  items : List α
  sorted : items.Pairwise r

namespace SortedHeap

variable {α : Type*} {r : α → α → Prop}

instance : Membership α (SortedHeap r) := ⟨fun h a => a ∈ h.items⟩

/-- Nothing is stored. -/
def empty : SortedHeap r := ⟨[], .nil⟩

/-- Store one more element. -/
def push [DecidableRel r] [Std.Total r] [IsTrans α r] (a : α) (h : SortedHeap r) : SortedHeap r :=
  ⟨h.items.orderedInsert r a, h.sorted.orderedInsert a _⟩

/-- The first element. -/
def peek (h : SortedHeap r) : Option α := h.items.head?

/-- Take the first element out. -/
def pop (h : SortedHeap r) : SortedHeap r := ⟨h.items.tail, h.sorted.sublist (List.tail_sublist _)⟩

/-- Take the element at a position out. -/
def take (i : ℕ) (h : SortedHeap r) : SortedHeap r :=
  ⟨h.items.eraseIdx i, h.sorted.sublist (List.eraseIdx_sublist _ _)⟩

variable {h : SortedHeap r} {a b : α} {i : ℕ}

theorem mem_items : b ∈ h.items ↔ b ∈ h := Iff.rfl

/-- An empty heap has no elements. -/
@[simp]
theorem not_mem_empty : b ∉ (empty : SortedHeap r) := List.not_mem_nil

/-- The elements after a push. -/
@[simp]
theorem mem_push [DecidableRel r] [Std.Total r] [IsTrans α r] : b ∈ h.push a ↔ b = a ∨ b ∈ h :=
  List.mem_orderedInsert r

/-- Pushing stores the element once more. -/
theorem push_perm [DecidableRel r] [Std.Total r] [IsTrans α r] :
    (h.push a).items.Perm (a :: h.items) :=
  List.perm_orderedInsert r a h.items

/-- Without a first element there is none. -/
theorem peek_eq_none : h.peek = none ↔ h.items = [] := List.head?_eq_none_iff

/-- The first element and what is left are all there is. -/
theorem items_of_peek (hpeek : h.peek = some a) : h.items = a :: h.pop.items := by
  obtain ⟨items, sorted⟩ := h
  cases items with
  | nil => cases hpeek
  | cons c items =>
    cases hpeek
    rfl

/-- The first element and what is left, read off the list. -/
theorem peek_of_items {items : List α} (hitems : h.items = a :: items) :
    h.peek = some a ∧ h.pop.items = items :=
  ⟨congrArg List.head? hitems, congrArg List.tail hitems⟩

/-- The first element is stored. -/
theorem mem_of_peek (hpeek : h.peek = some a) : a ∈ h := by
  rw [← mem_items, items_of_peek hpeek]
  exact List.mem_cons_self

/-- The first element is before all others. -/
theorem peek_first (hpeek : h.peek = some a) (hb : b ∈ h) : b = a ∨ r a b := by
  have hsorted := h.sorted
  rw [items_of_peek hpeek] at hsorted
  rw [← mem_items, items_of_peek hpeek, List.mem_cons] at hb
  exact hb.imp_right (List.rel_of_pairwise_cons hsorted)

/-- An element is the first one or is left behind it. -/
theorem mem_iff_of_peek (hpeek : h.peek = some a) : b ∈ h ↔ b = a ∨ b ∈ h.pop := by
  rw [← mem_items, items_of_peek hpeek, List.mem_cons]
  exact Iff.rfl

/-- What is left was there. -/
theorem mem_of_mem_pop (hb : b ∈ h.pop) : b ∈ h := List.mem_of_mem_tail hb

/-- What is left was there. -/
theorem mem_of_mem_take (hb : b ∈ h.take i) : b ∈ h := List.mem_of_mem_eraseIdx hb

/-- An element is the one taken out or is left. -/
theorem mem_take_or (ha : h.items[i]? = some a) (hb : b ∈ h) : b = a ∨ b ∈ h.take i := by
  obtain ⟨j, hj⟩ := List.mem_iff_getElem?.mp hb
  by_cases hij : j = i
  · subst hij
    exact .inl (Option.some.inj (hj.symm.trans ha))
  · exact .inr (List.mem_eraseIdx_iff_getElem?.mpr ⟨j, hij, hj⟩)

end SortedHeap
