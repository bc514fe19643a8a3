import Mathlib.Data.Finset.Basic
import Nosv.Runtime.Teardown
import Nosv.Runtime.BlockOn

/-!
# What nOS-V asks of a process

Every native call that the runtime, its tasks, its drivers and its owner thread make, and every use
of the kernel ring, is an event. `Native` reads events one after the other, and refuses the first
that uses a descriptor before its creation or after it was given up, creates one of a type that is
not there, gives up a type with live descriptors, finalizes nOS-V with anything left, calls it
afterwards, or uses a ring that was dropped.

A descriptor is given up by the call that destroys or detaches it, and never used after that. When
nOS-V refuses the call it still holds the descriptor, which is `kept` from then on; likewise a type.
`Native.mem_kept` and `Native.refused_of_mem_keptTypes` say that nothing else is kept.

`nosv_self` may be called at any time, also after `nosv_shutdown`, and is an event only where
`try_block_on` asks for the current task.
-/

namespace Nosv.Process

open Nosv.Runtime (TaskId TaskType)
open Nosv.BlockOn (ParkerId)

/-- A native task descriptor, by what it is for. -/
inductive Descriptor where
  | task (id : TaskId)
  /-- The task of the ring driver. -/
  | ring
  /-- The task of the timer driver. -/
  | timer
  /-- The implicit task of an attached owner thread. -/
  | root (k : ParkerId)
  deriving DecidableEq, Repr

/-- The type a descriptor is created with. An attached thread has none. -/
def Descriptor.type : Descriptor → Option TaskType
  | .task _ => some .async
  | .ring => some .ioUring
  | .timer => some .timer
  | .root _ => none

/-- A native call on a descriptor that leaves it as it is. -/
inductive Use where
  | metadata
  | submit
  | deadlineWake
  | suspend
  /-- A pause, a wait or a yield. -/
  | park
  deriving DecidableEq, Repr

/-- Something the process does to nOS-V or to the ring, or an answer it gives to its user. -/
inductive Event where
  /-- The ring is set up. -/
  | openRing (ok : Bool)
  | init (ok : Bool)
  | typeInit (type : TaskType) (ok : Bool)
  | create (d : Descriptor) (ok : Bool)
  | attach (k : ParkerId) (ok : Bool)
  | use (d : Descriptor) (call : Use)
  | destroy (d : Descriptor) (ok : Bool)
  | detach (k : ParkerId) (ok : Bool)
  /-- A call without a descriptor: the current task, the topology, the shared memory. -/
  | query
  | typeDestroy (type : TaskType) (ok : Bool)
  | shutdown (ok : Bool)
  /-- The ring is locked and used. -/
  | ring
  | closeRing
  /-- What the user asked for was granted, or ended in an error. -/
  | answer (ok : Bool)
  deriving DecidableEq, Repr

/-- The event is an answer. -/
def Event.isAnswer : Event → Bool
  | .answer _ => true
  | _ => false

/-- nOS-V refuses to destroy or to detach the descriptor. -/
def Event.refuses (d : Descriptor) : Event → Bool
  | .destroy e ok => e = d && !ok
  | .detach k ok => .root k = d && !ok
  | _ => false

/-- What nOS-V and the kernel hold for the process. -/
structure Native where
  /-- `nosv_init` has succeeded, and `nosv_shutdown` has not. -/
  up : Bool
  types : Finset TaskType
  /-- Descriptors there ever were. -/
  created : Finset Descriptor
  live : Finset Descriptor
  ring : Bool
  /-- Descriptors that the process has given up, and nOS-V has not. -/
  kept : Finset Descriptor
  keptTypes : Finset TaskType

namespace Native

/-- Before the runtime is built. -/
def fresh : Native := ⟨false, ∅, ∅, ∅, false, ∅, ∅⟩

/-- When the runtime is built: three types, and a task for each driver. -/
def built : Native :=
  ⟨true, {.ioUring, .timer, .async}, {.ring, .timer}, {.ring, .timer}, true, ∅, ∅⟩

variable (n : Native)

/-- A new descriptor. -/
def add (d : Descriptor) : Native :=
  { n with created := insert d n.created, live := insert d n.live }

/-- A descriptor that is given up, when nOS-V says so or refuses. -/
def remove (d : Descriptor) (ok : Bool) : Native :=
  { n with live := n.live.erase d, kept := if ok then n.kept else insert d n.kept }

/-- A type that is given up. One that was kept may be asked for again. -/
def removeType (t : TaskType) (ok : Bool) : Native :=
  { n with
    types := n.types.erase t
    keptTypes :=
      if ok then n.keptTypes.erase t
      else if t ∈ n.types then insert t n.keptTypes
      else n.keptTypes }

/-- The state after one more event, unless it breaks the rules. -/
def read : Event → Option Native
  | .openRing ok => if n.ring then .none else some { n with ring := ok }
  | .closeRing => if n.ring then some { n with ring := false } else .none
  | .ring => if n.ring then some n else .none
  | .init ok => if n.up then .none else some { n with up := ok }
  | .typeInit t ok =>
    if n.up ∧ t ∉ n.types then some { n with types := if ok then insert t n.types else n.types }
    else .none
  | .create d ok =>
    if n.up ∧ d ∉ n.created ∧ ∀ t ∈ d.type, t ∈ n.types then some (if ok then n.add d else n)
    else .none
  | .attach k ok =>
    if n.up ∧ .root k ∉ n.created then some (if ok then n.add (.root k) else n) else .none
  | .use d _ => if n.up ∧ d ∈ n.live then some n else .none
  | .destroy d ok => if n.up ∧ d ∈ n.live then some (n.remove d ok) else .none
  | .detach k ok => if n.up ∧ .root k ∈ n.live then some (n.remove (.root k) ok) else .none
  | .query => if n.up then some n else .none
  | .typeDestroy t ok =>
    -- A second call for one type is no breach of the rules.
    if n.up ∧ ∀ d ∈ n.live, d.type ≠ some t then some (n.removeType t ok) else .none
  | .shutdown ok =>
    if n.up ∧ n.live = ∅ ∧ n.types = ∅ then some { n with up := !ok } else .none
  | .answer _ => some n

variable {n}

/-- Events that the state permits and that leave it as it is. -/
theorem reads_self {os : List Event} (h : ∀ o ∈ os, n.read o = some n) :
    os.foldlM read n = some n := by
  induction os with
  | nil => rfl
  | cons o os ih =>
    obtain ⟨ho, hos⟩ := List.forall_mem_cons.mp h
    rw [List.foldlM_cons, ho]
    exact ih hos

/-- Calls on a descriptor that is there. -/
theorem reads_uses {d : Descriptor} (calls : List Use) (hup : n.up = true) (hd : d ∈ n.live) :
    (calls.map (Event.use d)).foldlM read n = some n := by
  refine reads_self fun o ho => ?_
  obtain ⟨call, -, rfl⟩ := List.mem_map.mp ho
  exact if_pos ⟨hup, hd⟩

/-- One event keeps what nOS-V refuses to destroy or to detach in it. -/
theorem mem_kept_read {n' : Native} {o : Event} {d : Descriptor} (h : n.read o = some n') :
    d ∈ n'.kept ↔ d ∈ n.kept ∨ o.refuses d = true := by
  have hremove : ∀ (e : Descriptor) (ok : Bool), d ∈ (n.remove e ok).kept ↔
      d ∈ n.kept ∨ (decide (e = d) && !ok) = true := by
    intro e ok
    cases ok with
    | true => simp [remove]
    | false => simp [remove, or_comm, eq_comm]
  cases o <;> simp only [read] at h
  case destroy e ok =>
    split_ifs at h
    cases h
    exact hremove e ok
  case detach k ok =>
    split_ifs at h
    cases h
    exact hremove (.root k) ok
  case answer =>
    cases h
    simp [Event.refuses]
  -- The others leave the kept descriptors alone.
  all_goals
    split_ifs at h <;> cases h <;> simp [Event.refuses, add, removeType]

/-- nOS-V keeps exactly the descriptors that it has refused to destroy or to detach. -/
theorem mem_kept {n' : Native} {os : List Event} {d : Descriptor}
    (h : os.foldlM read n = some n') :
    d ∈ n'.kept ↔ d ∈ n.kept ∨ ∃ o ∈ os, o.refuses d = true := by
  induction os generalizing n with
  | nil =>
    cases h
    simp
  | cons o os ih =>
    rw [List.foldlM_cons] at h
    obtain ⟨m, hm, hos⟩ := Option.bind_eq_some_iff.mp h
    rw [ih hos, mem_kept_read hm]
    simp [or_assoc]

/-- One event keeps a type that was kept, or that nOS-V refuses to give up in it. -/
theorem mem_keptTypes_read {n' : Native} {o : Event} {t : TaskType} (h : n.read o = some n')
    (ht : t ∈ n'.keptTypes) : t ∈ n.keptTypes ∨ o = .typeDestroy t false := by
  cases o <;> simp only [read] at h
  case typeDestroy u ok =>
    split_ifs at h
    cases h
    cases ok with
    | true => exact .inl (Finset.mem_of_mem_erase (by simpa [removeType] using ht))
    | false =>
      simp only [removeType, Bool.false_eq_true, if_false] at ht
      split_ifs at ht
      · rcases Finset.mem_insert.mp ht with rfl | ht
        · exact .inr rfl
        · exact .inl ht
      · exact .inl ht
  case answer =>
    cases h
    exact .inl ht
  all_goals split_ifs at h <;> cases h <;> exact .inl ht

/-- A type that nOS-V keeps is one that it has refused to give up. -/
theorem refused_of_mem_keptTypes {n' : Native} {os : List Event} {t : TaskType}
    (h : os.foldlM read n = some n') (ht : t ∈ n'.keptTypes) :
    t ∈ n.keptTypes ∨ .typeDestroy t false ∈ os := by
  induction os generalizing n with
  | nil =>
    cases h
    exact .inl ht
  | cons o os ih =>
    rw [List.foldlM_cons] at h
    obtain ⟨m, hm, hos⟩ := Option.bind_eq_some_iff.mp h
    rcases ih hos with hkept | hmem
    · rcases mem_keptTypes_read hm hkept with hkept | rfl
      · exact .inl hkept
      · exact .inr List.mem_cons_self
    · exact .inr (List.mem_cons_of_mem _ hmem)

/-- Before the runtime is built nOS-V keeps nothing. -/
theorem mem_kept_of_fresh {os : List Event} {d : Descriptor}
    (h : os.foldlM read fresh = some n) : d ∈ n.kept ↔ ∃ o ∈ os, o.refuses d = true := by
  simpa [fresh] using mem_kept (d := d) h

/-- A type that nOS-V keeps was refused since the runtime began to be built. -/
theorem refused_of_fresh {os : List Event} {t : TaskType} (h : os.foldlM read fresh = some n)
    (ht : t ∈ n.keptTypes) : .typeDestroy t false ∈ os :=
  (refused_of_mem_keptTypes h ht).resolve_left (by simp [fresh])

end Native

end Nosv.Process
