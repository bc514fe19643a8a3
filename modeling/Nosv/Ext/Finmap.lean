import Mathlib.Data.Finmap
import Mathlib.Data.Multiset.Count
import Mathlib.Logic.Function.Basic

/-!
# Counting over finite maps

Mathlib's `Finmap` with what a registry of live records needs: `modify`, which rewrites the record
stored at a key; `view`, the records seen through a partial function; and `count`, the number of
entries satisfying a Boolean predicate. The lemmas say how view and count move under `insert`,
`erase` and `modify`.

`lookup_foldl_modify` and `alter_comm` are about records rewritten one after the other, and
`count_foldl_modify_of_forall_eq` says what that leaves of a count.
-/

namespace Finmap

variable {κ α : Type*} [DecidableEq κ]

/-- Rewrite the value stored at `k`, if any. -/
def modify (k : κ) (f : α → α) (s : Finmap fun _ : κ => α) : Finmap fun _ : κ => α :=
  match s.lookup k with
  | some v => s.insert k (f v)
  | none => s

/-- Replace what is stored at `k`, if anything, by what `f` makes of it. -/
def alter (k : κ) (f : Option α → Option α) (s : Finmap fun _ : κ => α) : Finmap fun _ : κ => α :=
  match f (s.lookup k) with
  | some v => s.insert k v
  | none => s.erase k

/-- The number of entries satisfying `P`. -/
def count (P : κ → α → Bool) (s : Finmap fun _ : κ => α) : ℕ :=
  s.entries.countP fun e => P e.1 e.2

variable {P : κ → α → Bool} {s : Finmap fun _ : κ => α} {k a : κ} {v w : α} {f : α → α}

/-- Lookup after an insertion, at any key. -/
theorem lookup_insert_eq_ite :
    (s.insert k v).lookup a = if a = k then some v else s.lookup a := by
  split
  next h => subst h; exact lookup_insert s
  next h => exact lookup_insert_of_ne s h

/-- Lookup after an erasure, at any key. -/
theorem lookup_erase_eq_ite :
    (s.erase k).lookup a = if a = k then none else s.lookup a := by
  split
  next h => subst h; exact lookup_erase a s
  next h => exact lookup_erase_ne h

/-- Lookup after a modification, at any key. -/
theorem lookup_modify :
    (s.modify k f).lookup a = if a = k then (s.lookup k).map f else s.lookup a := by
  unfold modify
  split
  next v hv => rw [lookup_insert_eq_ite, hv]; rfl
  next hv =>
    split
    next h => rw [h, hv]; rfl
    next => rfl

/-- Lookup after an alteration, at any key. -/
theorem lookup_alter {g : Option α → Option α} :
    (s.alter k g).lookup a = if a = k then g (s.lookup k) else s.lookup a := by
  unfold alter
  split
  next v hv => rw [lookup_insert_eq_ite, hv]
  next hv => rw [lookup_erase_eq_ite, hv]

/-- Alterations at different keys commute. -/
theorem alter_comm {g g' : Option α → Option α} (h : k ≠ a) :
    (s.alter k g).alter a g' = (s.alter a g').alter k g := by
  apply ext_lookup
  intro b
  simp only [lookup_alter, if_neg h, if_neg h.symm]
  split_ifs with h1 h2
  · exact absurd (h2.symm.trans h1) h
  all_goals rfl

/-- Two alterations at one key are one. -/
theorem alter_alter {g g' : Option α → Option α} :
    (s.alter k g).alter k g' = s.alter k (g' ∘ g) := by
  apply ext_lookup
  intro b
  simp only [lookup_alter, if_true, Function.comp_apply]
  split_ifs <;> rfl

/-- An alteration depends on what it makes of the stored value only. -/
theorem alter_congr {g g' : Option α → Option α} (h : g (s.lookup k) = g' (s.lookup k)) :
    s.alter k g = s.alter k g' := by
  unfold alter
  rw [h]

/-- Inserting at an erased key is inserting. -/
theorem insert_erase : (s.erase k).insert k v = s.insert k v := by
  apply ext_lookup
  intro a
  rw [lookup_insert_eq_ite, lookup_insert_eq_ite, lookup_erase_eq_ite]
  split <;> rfl

/-- Inserting what is there changes nothing. -/
theorem insert_of_lookup (h : s.lookup k = some v) : s.insert k v = s := by
  apply ext_lookup
  intro a
  rw [lookup_insert_eq_ite]
  split
  next ha => rw [ha, h]
  next => rfl

/-- Lookup after modifying each of a list of distinct keys. -/
theorem lookup_foldl_modify {ks : List κ} (hks : ks.Nodup) :
    (ks.foldl (fun m k => m.modify k f) s).lookup a =
      if a ∈ ks then (s.lookup a).map f else s.lookup a := by
  induction ks generalizing s with
  | nil => simp
  | cons k ks ih =>
    rw [List.nodup_cons] at hks
    rw [List.foldl_cons, ih hks.2, lookup_modify]
    by_cases hak : a = k
    · subst hak
      simp [hks.1]
    · simp [hak]

/-- The entries of a map seen through a partial function. -/
def view {β : Type*} (g : α → Option β) (s : Finmap fun _ : κ => α) : κ → Option β :=
  fun k => (s.lookup k).bind g

section View

variable {β : Type*} {g : α → Option β}

/-- What the view shows at a key that is there. -/
theorem view_of_lookup (h : s.lookup k = some v) : s.view g k = g v := by
  rw [view, h, Option.bind_some]

/-- What the view shows at a key that is not there. -/
theorem view_of_lookup_none (h : s.lookup k = none) : s.view g k = none := by
  rw [view, h, Option.bind_none]

/-- What the view shows, the map has. -/
theorem view_eq_some {b : β} : s.view g k = some b ↔ ∃ v, s.lookup k = some v ∧ g v = some b := by
  rw [view, Option.bind_eq_some_iff]

/-- The view after an insertion. -/
theorem view_insert : (s.insert k v).view g = Function.update (s.view g) k (g v) := by
  funext a
  rw [view, lookup_insert_eq_ite, Function.update_apply]
  split <;> rfl

/-- The view after an erasure. -/
theorem view_erase : (s.erase k).view g = Function.update (s.view g) k none := by
  funext a
  rw [view, lookup_erase_eq_ite, Function.update_apply]
  split <;> rfl

/-- An insertion the view does not see. -/
theorem view_insert_of_eq (h : s.view g k = g v) : (s.insert k v).view g = s.view g := by
  rw [view_insert, ← h, Function.update_eq_self]

/-- An erasure the view does not see. -/
theorem view_erase_of_none (h : s.view g k = none) : (s.erase k).view g = s.view g := by
  rw [view_erase, ← h, Function.update_eq_self]

end View

omit [DecidableEq κ] in
@[simp]
theorem count_empty : count P (∅ : Finmap fun _ : κ => α) = 0 := rfl

/-- A fresh entry adds one to the count exactly when it satisfies the predicate. -/
theorem count_insert_of_lookup_none (h : s.lookup k = none) :
    count P (s.insert k v) = count P s + if P k v then 1 else 0 := by
  rw [lookup_eq_none] at h
  rw [count, entries_insert_of_notMem h, Multiset.countP_cons]
  rfl

/-- Erasing an entry takes one off the count exactly when it satisfied the predicate. -/
theorem count_erase_of_lookup (h : s.lookup k = some v) :
    count P (s.erase k) + (if P k v then 1 else 0) = count P s := by
  conv_rhs => rw [← insert_of_lookup h, ← insert_erase]
  rw [count_insert_of_lookup_none (lookup_erase k s)]

/-- Overwriting an entry replaces its contribution to the count. -/
theorem count_insert_of_lookup (h : s.lookup k = some v) :
    count P (s.insert k w) + (if P k v then 1 else 0) =
      count P s + if P k w then 1 else 0 := by
  rw [← insert_erase, count_insert_of_lookup_none (lookup_erase k s), ← count_erase_of_lookup h]
  omega

/-- Modifying an entry replaces its contribution to the count. -/
theorem count_modify_of_lookup (h : s.lookup k = some v) :
    count P (s.modify k f) + (if P k v then 1 else 0) =
      count P s + if P k (f v) then 1 else 0 := by
  have hm : s.modify k f = s.insert k (f v) := by unfold modify; rw [h]
  rw [hm, count_insert_of_lookup h]

/-- A modification the predicate does not see leaves the count alone. -/
theorem count_modify_of_forall_eq (h : ∀ v, P k (f v) = P k v) :
    count P (s.modify k f) = count P s := by
  cases hk : s.lookup k with
  | none => unfold modify; rw [hk]
  | some v =>
    have := count_modify_of_lookup (P := P) (f := f) hk
    rw [h v] at this
    omega

/-- Modifications the predicate does not see leave the count alone. -/
theorem count_foldl_modify_of_forall_eq (h : ∀ k v, P k (f v) = P k v) (ks : List κ) :
    count P (ks.foldl (fun m k => m.modify k f) s) = count P s := by
  induction ks generalizing s with
  | nil => rfl
  | cons k ks ih => rw [List.foldl_cons, ih, count_modify_of_forall_eq (h k)]

/-- The count is zero exactly when no entry satisfies the predicate. -/
theorem count_eq_zero_iff :
    count P s = 0 ↔ ∀ k v, s.lookup k = some v → P k v = false := by
  rw [count, Multiset.countP_eq_zero]
  constructor
  · intro h k v hkv
    have := h ⟨k, v⟩ (lookup_eq_some_iff.mp hkv)
    simpa using this
  · rintro h ⟨k, v⟩ hmem
    have := h k v (lookup_eq_some_iff.mpr hmem)
    simp [this]

/-- An entry satisfying the predicate makes the count positive. -/
theorem count_pos_of_lookup (h : s.lookup k = some v) (hP : P k v = true) : 0 < count P s := by
  rcases Nat.eq_zero_or_pos (count P s) with h0 | h0
  · rw [count_eq_zero_iff] at h0
    rw [h0 k v h] at hP
    cases hP
  · exact h0

/-- At most one entry satisfies a predicate that counts at most one. -/
theorem eq_of_count_le_one (hle : count P s ≤ 1) (hk : s.lookup k = some v) (hv : P k v = true)
    (ha : s.lookup a = some w) (hw : P a w = true) : a = k := by
  by_contra hne
  have herase := count_erase_of_lookup (P := P) hk
  rw [if_pos hv] at herase
  have hpos := count_pos_of_lookup (P := P) ((lookup_erase_ne hne).trans ha) hw
  omega

/-- A predicate that holds of the entry at one key only counts one. -/
theorem count_eq_one (hk : s.lookup k = some v) (hv : P k v = true)
    (honly : ∀ a w, s.lookup a = some w → P a w = true → a = k) : count P s = 1 := by
  have hzero : count P (s.erase k) = 0 := by
    rw [count_eq_zero_iff]
    intro a w ha
    rw [lookup_erase_eq_ite] at ha
    split at ha
    next => cases ha
    next hne =>
      by_contra hw
      exact hne (honly a w ha (by simpa using hw))
  have herase := count_erase_of_lookup (P := P) hk
  rw [if_pos hv] at herase
  omega

/-- `any` finds an entry exactly when some lookup satisfies the predicate. -/
theorem any_eq_true_of_lookup (h : s.lookup k = some v) (hP : P k v = true) :
    s.any P = true := by
  revert h
  refine induction_on s fun t ht => ?_
  rw [lookup_toFinmap] at ht
  have hmem : (⟨k, v⟩ : Sigma fun _ : κ => α) ∈ t.entries := AList.mem_lookup_iff.mp ht
  have hgen : ∀ (l : List (Sigma fun _ : κ => α)) (b : Bool),
      l.foldl (fun d e => d || P e.1 e.2) b = (b || l.any fun e => P e.1 e.2) := by
    intro l
    induction l with
    | nil => simp
    | cons e l ih => intro b; simp [ih, Bool.or_assoc]
  show t.entries.foldl (fun d e => d || P e.1 e.2) false = true
  rw [hgen]
  simp only [Bool.false_or, List.any_eq_true]
  exact ⟨_, hmem, hP⟩

end Finmap
