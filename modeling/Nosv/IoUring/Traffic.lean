import Mathlib.Data.List.Perm.Basic
import Nosv.IoUring.Registry

/-!
# Entries on their way to the kernel and back

The three families of contexts seen as one table of slots. `Traffic` says what a step of the
registry does to the slots and to the four queues between driver and kernel; `Linked` is the
discipline it keeps: the `staged` queue mirrors the SQ, each submitted slot has exactly one
terminal CQE or unfinished SQE outstanding, and no CQE follows the terminal one of its slot.

`Registry.Linked.of_reachable` is the result, and `Reachable.registry_inv` the rule that it and
every later invariant of the registry is proved by.
-/

namespace Nosv.IoUring

/-- What the SQE of a slot asks for. -/
inductive SlotKind where
  | original
  | cancel (target : Option Pointer)
  | owned
  deriving DecidableEq, Repr

/-- The body an SQE of the library has for its slot; a caller's entry may be anything. -/
def SlotKind.Describes : SlotKind → SqeBody → Prop
  | .original, _ => True
  | .cancel target, body => ∃ t, target = some t ∧ body = .asyncCancel t
  | .owned, body => ∃ opcode, body = .owned opcode

/-- An original's entry is the caller's, whatever it is. -/
theorem SlotKind.describes_original (body : SqeBody) : SlotKind.original.Describes body := trivial

/-- A cancellation's entry names its target. -/
theorem SlotKind.describes_cancel (t : Pointer) :
    (SlotKind.cancel (some t)).Describes (.asyncCancel t) := ⟨t, rfl, rfl⟩

/-- An owned operation's entry is the one its handler builds. -/
theorem SlotKind.describes_owned (opcode : ℕ) : SlotKind.owned.Describes (.owned opcode) :=
  ⟨opcode, rfl⟩

/-- A caller's entry is for an original. -/
theorem SlotKind.Describes.original {kind : SlotKind} {body : SqeBody} (h : kind.Describes body)
    (hraw : body.isRaw = true) : kind = .original := by
  cases kind with
  | original => rfl
  | cancel target =>
    obtain ⟨t, -, rfl⟩ := h
    cases hraw
  | owned =>
    obtain ⟨opcode, rfl⟩ := h
    cases hraw

/-- What the SQE of a raw context asks for. -/
def CqeContext.slotKind (c : CqeContext) : SlotKind :=
  match c.kind with
  | .original => .original
  | .cancel => .cancel c.target

namespace Registry

/-- Phase and kind of the context a staged entry stands for. -/
def slot (r : Registry) : StagedContext → Option (ContextPhase × SlotKind)
  | .raw p => (r.contexts.lookup p).map fun c => (c.phase, c.slotKind)
  | .owned p => (r.ownedContexts.lookup p).map fun c => (c.phase, .owned)
  | .ownedCancel p =>
    (r.ownedCancelContexts.lookup p).map fun c => (c.phase, .cancel (some c.target))

/-- The addresses the kernel still owes a terminal CQE to dispatch. -/
def outstanding (r : Registry) : List ℕ :=
  r.inflight.map (·.userData) ++ (r.posted.filter (!·.more)).map (·.userData)

/-- What a step does to the slots and the queues. -/
inductive Traffic (r r' : Registry) : Prop
  | same (hslot : r'.slot = r.slot) (hstaged : r'.staged = r.staged) (hsq : r'.sq = r.sq)
      (hinflight : r'.inflight = r.inflight) (hposted : r'.posted = r.posted)
  | post {cqe : Cqe} {e : Sqe} (hslot : r'.slot = r.slot) (hstaged : r'.staged = r.staged)
      (hsq : r'.sq = r.sq)
      (hfind : r.inflight.find? (fun e => e.userData == cqe.userData) = some e)
      (hmore : cqe.more = true → e.body.isRaw = true)
      (hinflight : r'.inflight = if cqe.more then r.inflight else r.inflight.erase e)
      (hposted : r'.posted = r.posted ++ [cqe])
  | stage {k : StagedContext} {kind : SlotKind} {body : SqeBody} (hzero : k.pointer ≠ 0)
      (hfresh : ∀ l : StagedContext, l.pointer = k.pointer → r.slot l = none)
      (hdesc : kind.Describes body)
      (hslot : r'.slot = Function.update r.slot k (some (.staged, kind)))
      (hstaged : r'.staged = r.staged ++ [k]) (hsq : r'.sq = r.sq ++ [⟨body, k.pointer⟩])
      (hinflight : r'.inflight = r.inflight) (hposted : r'.posted = r.posted)
  | accept {k : StagedContext} {rest : List StagedContext} {kind : SlotKind}
      (hhead : r.staged = k :: rest) (hk : r.slot k = some (.staged, kind))
      (hslot : r'.slot = Function.update r.slot k (some (.submitted, kind)))
      (hstaged : r'.staged = rest) (hsq : r'.sq = r.sq.tail)
      (hinflight : r'.inflight = r.inflight ++ r.sq.head?.toList) (hposted : r'.posted = r.posted)
  | more {cqe : Cqe} (hslot : r'.slot = r.slot) (hstaged : r'.staged = r.staged)
      (hsq : r'.sq = r.sq) (hinflight : r'.inflight = r.inflight) (hmore : cqe.more = true)
      (hposted : r.posted = cqe :: r'.posted)
  | finish {k : StagedContext} {kind : SlotKind} {cqe : Cqe} (hpointer : k.pointer = cqe.userData)
      (hk : r.slot k = some (.submitted, kind))
      (hself : ∀ x, r'.slot k = some x → x.1 = .terminal)
      (hother : ∀ l, l ≠ k →
        r'.slot l = r.slot l ∨ r'.slot l = none ∧ ∃ kind, r.slot l = some (.terminal, kind))
      (hstaged : r'.staged = r.staged) (hsq : r'.sq = r.sq)
      (hinflight : r'.inflight = r.inflight) (hmore : cqe.more = false)
      (hposted : r.posted = cqe :: r'.posted)
  | dropRing (hempty : ∀ k, r.slot k = none) (hslot : r'.slot = r.slot)
      (hstaged : r'.staged = r.staged) (hnone : r.staged = []) (hsq : r'.sq = [])
      (hinflight : r'.inflight = []) (hposted : r'.posted = [])

/-- Slots and queues are linked as the driver needs them to be. -/
structure Linked (r : Registry) : Prop where
  /-- No context lives at the null address. -/
  ne_zero : ∀ k, r.slot k ≠ none → k.pointer ≠ 0
  /-- No two contexts share an address. -/
  apart : ∀ k l, r.slot k ≠ none → r.slot l ≠ none → k.pointer = l.pointer → k = l
  staged_nodup : r.staged.Nodup
  /-- The staged queue lists the staged slots. -/
  staged_iff : ∀ k, k ∈ r.staged ↔ ∃ kind, r.slot k = some (.staged, kind)
  /-- The SQ holds the SQEs of the staged queue, in order. -/
  sq : r.sq.map (·.userData) = r.staged.map (·.pointer)
  outstanding_nodup : r.outstanding.Nodup
  /-- The kernel owes exactly the submitted slots a terminal CQE. -/
  outstanding_iff : ∀ p, p ∈ r.outstanding ↔
    ∃ k, k.pointer = p ∧ ∃ kind, r.slot k = some (.submitted, kind)
  /-- Nothing follows a terminal CQE. -/
  after : r.posted.Pairwise fun c d => c.more = false → c.userData ≠ d.userData
  /-- An SQE with the kernel, or about to be, describes its slot. -/
  body : ∀ e ∈ r.sq ++ r.inflight, ∀ k phase kind, k.pointer = e.userData →
    r.slot k = some (phase, kind) → kind.Describes e.body
  /-- More is to come only for a submitted original. -/
  more : ∀ c ∈ r.posted, c.more = true → r.slot (.raw c.userData) = some (.submitted, .original)

namespace Linked

variable {r r' : Registry}

/-- Only a raw context is an original's. -/
theorem slot_original {k : StagedContext} {phase : ContextPhase}
    (h : r.slot k = some (phase, .original)) : k = .raw k.pointer := by
  cases k <;> simp_all [slot, StagedContext.pointer]

/-- The SQE of a live slot in the SQ has the slot's address. -/
theorem mem_sq (h : r.Linked) {e : Sqe} (he : e ∈ r.sq) :
    ∃ k, k.pointer = e.userData ∧ ∃ kind, r.slot k = some (.staged, kind) := by
  have : e.userData ∈ r.staged.map (·.pointer) := h.sq ▸ List.mem_map_of_mem he
  obtain ⟨k, hk, hp⟩ := List.mem_map.mp this
  exact ⟨k, hp, (h.staged_iff k).mp hk⟩

/-- An unfinished SQE is that of a submitted slot. -/
theorem mem_inflight (h : r.Linked) {e : Sqe} (he : e ∈ r.inflight) :
    ∃ k, k.pointer = e.userData ∧ ∃ kind, r.slot k = some (.submitted, kind) :=
  (h.outstanding_iff e.userData).mp (List.mem_append_left _ (List.mem_map_of_mem he))

/-- A posted CQE is for a submitted slot. -/
theorem mem_posted (h : r.Linked) {c : Cqe} (hc : c ∈ r.posted) :
    ∃ k, k.pointer = c.userData ∧ ∃ kind, r.slot k = some (.submitted, kind) := by
  cases hm : c.more with
  | true => exact ⟨_, rfl, _, h.more c hc hm⟩
  | false =>
    refine (h.outstanding_iff c.userData).mp (List.mem_append_right _ ?_)
    exact List.mem_map_of_mem (List.mem_filter.mpr ⟨hc, by simp [hm]⟩)

/-- A step that leaves slots and queues alone. -/
theorem same (h : r.Linked) (hslot : r'.slot = r.slot) (hstaged : r'.staged = r.staged)
    (hsq : r'.sq = r.sq) (hinflight : r'.inflight = r.inflight) (hposted : r'.posted = r.posted) :
    r'.Linked := by
  obtain ⟨h1, h2, h3, h4, h5, h6, h7, h8, h9, h10⟩ := h
  constructor <;> simp only [outstanding, hslot, hstaged, hsq, hinflight, hposted]
  exacts [h1, h2, h3, h4, h5, h6, h7, h8, h9, h10]

/-- The kernel posts a CQE. -/
theorem post {cqe : Cqe} {e : Sqe} (h : r.Linked) (hslot : r'.slot = r.slot)
    (hstaged : r'.staged = r.staged) (hsq : r'.sq = r.sq)
    (hfind : r.inflight.find? (fun e => e.userData == cqe.userData) = some e)
    (hmore : cqe.more = true → e.body.isRaw = true)
    (hinflight : r'.inflight = if cqe.more then r.inflight else r.inflight.erase e)
    (hposted : r'.posted = r.posted ++ [cqe]) : r'.Linked := by
  have he : e ∈ r.inflight := List.mem_of_find?_eq_some hfind
  have htag : e.userData = cqe.userData := by
    simpa using List.find?_some hfind
  have hsub : ∀ x ∈ r'.inflight, x ∈ r.inflight := by
    intro x hx
    rw [hinflight] at hx
    split_ifs at hx
    · exact hx
    · exact List.mem_of_mem_erase hx
  -- The address moves from the unfinished SQEs to the terminal CQEs.
  have hperm : r'.outstanding.Perm r.outstanding := by
    unfold outstanding
    rw [hinflight, hposted, List.filter_append]
    cases hm : cqe.more with
    | true => simp [hm]
    | false =>
      have hcons := (List.perm_cons_erase he).map (·.userData)
      simp only [List.map_cons, htag] at hcons
      simp only [Bool.false_eq_true, if_false, List.filter_cons, hm, Bool.not_false, if_true,
        List.filter_nil, List.map_append, List.map_cons, List.map_nil]
      rw [← List.append_assoc]
      refine (List.perm_append_singleton _ _).trans ?_
      rw [← List.cons_append]
      exact hcons.symm.append_right _
  refine ⟨?_, ?_, ?_, ?_, ?_, ?_, ?_, ?_, ?_, ?_⟩
  · rw [hslot]; exact h.ne_zero
  · rw [hslot]; exact h.apart
  · rw [hstaged]; exact h.staged_nodup
  · rw [hstaged, hslot]; exact h.staged_iff
  · rw [hsq, hstaged]; exact h.sq
  · exact hperm.nodup_iff.mpr h.outstanding_nodup
  · intro p
    rw [hperm.mem_iff, hslot]
    exact h.outstanding_iff p
  · rw [hposted, List.pairwise_append]
    refine ⟨h.after, List.pairwise_singleton _ _, fun c hc d hd hcm heq => ?_⟩
    obtain rfl := List.mem_singleton.mp hd
    have hdisj := (List.nodup_append.mp h.outstanding_nodup).2.2
    refine hdisj e.userData (List.mem_map_of_mem he) c.userData ?_ (htag.trans heq.symm)
    exact List.mem_map_of_mem (List.mem_filter.mpr ⟨hc, by simp [hcm]⟩)
  · intro x hx k phase kind hk hslotk
    rw [hslot] at hslotk
    rw [hsq] at hx
    refine h.body x ?_ k phase kind hk hslotk
    rcases List.mem_append.mp hx with hx | hx
    · exact List.mem_append_left _ hx
    · exact List.mem_append_right _ (hsub x hx)
  · intro c hc hcm
    rw [hslot]
    rw [hposted] at hc
    rcases List.mem_append.mp hc with hc | hc
    · exact h.more c hc hcm
    · obtain rfl := List.mem_singleton.mp hc
      obtain ⟨k, hk, kind, hkind⟩ := h.mem_inflight he
      have horig := (h.body e (List.mem_append_right _ he) k _ kind hk hkind).original (hmore hcm)
      subst horig
      rw [← htag, ← hk, ← slot_original hkind]
      exact hkind

/-- An entry is staged at a fresh address. -/
theorem stage {k : StagedContext} {kind : SlotKind} {body : SqeBody} (h : r.Linked)
    (hzero : k.pointer ≠ 0) (hfresh : ∀ l : StagedContext, l.pointer = k.pointer → r.slot l = none)
    (hdesc : kind.Describes body)
    (hslot : r'.slot = Function.update r.slot k (some (.staged, kind)))
    (hstaged : r'.staged = r.staged ++ [k]) (hsq : r'.sq = r.sq ++ [⟨body, k.pointer⟩])
    (hinflight : r'.inflight = r.inflight) (hposted : r'.posted = r.posted) : r'.Linked := by
  -- The address is fresh, so nothing else is at it.
  have hk : r.slot k = none := hfresh k rfl
  have hself : r'.slot k = some (.staged, kind) := by rw [hslot, Function.update_self]
  have hold : ∀ l, l ≠ k → r'.slot l = r.slot l := fun l hl => by
    rw [hslot, Function.update_of_ne hl]
  have hnot : k ∉ r.staged := by
    intro hmem
    obtain ⟨kind', hk'⟩ := (h.staged_iff k).mp hmem
    rw [hk] at hk'
    cases hk'
  have hout : r'.outstanding = r.outstanding := by rw [outstanding, hinflight, hposted]; rfl
  -- In the order of the fields of `Linked`.
  refine ⟨?_, ?_, ?_, ?_, ?_, ?_, ?_, ?_, ?_, ?_⟩
  · intro l hl
    by_cases hlk : l = k
    · rw [hlk]; exact hzero
    · exact h.ne_zero l (hold l hlk ▸ hl)
  · intro l m hl hm hp
    by_cases hlk : l = k <;> by_cases hmk : m = k
    · rw [hlk, hmk]
    · rw [hlk] at hp
      exact absurd (hfresh m hp.symm) (hold m hmk ▸ hm)
    · rw [hmk] at hp
      exact absurd (hfresh l hp) (hold l hlk ▸ hl)
    · exact h.apart l m (hold l hlk ▸ hl) (hold m hmk ▸ hm) hp
  · rw [hstaged]
    exact List.nodup_append.mpr ⟨h.staged_nodup, List.nodup_singleton k, by
      rintro a ha b hb rfl
      exact hnot (List.mem_singleton.mp hb ▸ ha)⟩
  · intro l
    rw [hstaged, List.mem_append, List.mem_singleton, h.staged_iff]
    by_cases hlk : l = k
    · subst hlk
      simp [hself]
    · rw [hold l hlk]
      simp [hlk]
  · rw [hsq, hstaged, List.map_append, List.map_append, h.sq]
    rfl
  · rw [hout]; exact h.outstanding_nodup
  · intro p
    rw [hout, h.outstanding_iff]
    refine exists_congr fun l => and_congr_right fun _ => ?_
    by_cases hlk : l = k
    · subst hlk
      simp [hself, hk]
    · rw [hold l hlk]
  · rw [hposted]; exact h.after
  · -- An SQE describes the context at its address: the new one does so by `hdesc`.
    intro e he l phase kind' hl hslotl
    have hcases : e = ⟨body, k.pointer⟩ ∨ e ∈ r.sq ++ r.inflight := by
      rw [hsq, hinflight] at he
      simp only [List.mem_append, List.mem_singleton] at he ⊢
      tauto
    rcases hcases with rfl | he
    · have hlk : l = k := by
        by_contra hne
        rw [hold l hne, hfresh l hl] at hslotl
        cases hslotl
      rw [hlk, hself] at hslotl
      cases hslotl
      exact hdesc
    · have hlk : l ≠ k := by
        rintro rfl
        have hlive : ∃ m, StagedContext.pointer m = e.userData ∧ r.slot m ≠ none := by
          rcases List.mem_append.mp he with he | he
          · obtain ⟨m, hm, kind, hs⟩ := h.mem_sq he
            exact ⟨m, hm, by simp [hs]⟩
          · obtain ⟨m, hm, kind, hs⟩ := h.mem_inflight he
            exact ⟨m, hm, by simp [hs]⟩
        obtain ⟨m, hm, hs⟩ := hlive
        exact hs (hfresh m (hm.trans hl.symm))
      exact h.body e he l phase kind' hl (hold l hlk ▸ hslotl)
  · -- A CQE that says more will follow belongs to another context.
    intro c hc hcm
    have hslotc := h.more c (hposted ▸ hc) hcm
    have hne : StagedContext.raw c.userData ≠ k := by
      rintro rfl
      rw [hk] at hslotc
      cases hslotc
    rw [hold _ hne]
    exact hslotc

/-- The kernel accepts the head of the staged queue. -/
theorem accept {k : StagedContext} {rest : List StagedContext} {kind : SlotKind} (h : r.Linked)
    (hhead : r.staged = k :: rest) (hk : r.slot k = some (.staged, kind))
    (hslot : r'.slot = Function.update r.slot k (some (.submitted, kind)))
    (hstaged : r'.staged = rest) (hsq : r'.sq = r.sq.tail)
    (hinflight : r'.inflight = r.inflight ++ r.sq.head?.toList) (hposted : r'.posted = r.posted) :
    r'.Linked := by
  have hself : r'.slot k = some (.submitted, kind) := by rw [hslot, Function.update_self]
  have hold : ∀ l, l ≠ k → r'.slot l = r.slot l := fun l hl => by
    rw [hslot, Function.update_of_ne hl]
  have hlive : ∀ l, r'.slot l ≠ none → r.slot l ≠ none := by
    intro l hl
    by_cases hlk : l = k
    · rw [hlk, hk]; simp
    · rwa [hold l hlk] at hl
  -- The head of the staged contexts has its SQE at the head of the SQ.
  obtain ⟨e, sq, hsqe⟩ : ∃ e sq, r.sq = e :: sq := by
    cases hs : r.sq with
    | nil =>
      have := h.sq
      rw [hs, hhead] at this
      cases this
    | cons e sq => exact ⟨e, sq, rfl⟩
  have htags : e.userData = k.pointer ∧ sq.map (·.userData) = rest.map (·.pointer) := by
    have := h.sq
    rw [hsqe, hhead, List.map_cons, List.map_cons, List.cons.injEq] at this
    exact this
  rw [hsqe] at hsq hinflight
  simp only [List.tail_cons, List.head?_cons, Option.toList_some] at hsq hinflight
  have hnodup : k ∉ rest ∧ rest.Nodup := by
    have := h.staged_nodup
    rw [hhead] at this
    exact List.nodup_cons.mp this
  -- Its tag joins those that the kernel has, and was not among them.
  have hperm : r'.outstanding.Perm (k.pointer :: r.outstanding) := by
    rw [outstanding, hinflight, hposted, List.map_append]
    simp only [List.map_cons, List.map_nil, htags.1]
    rw [List.append_assoc]
    exact List.perm_middle
  have hnew : k.pointer ∉ r.outstanding := by
    intro hmem
    obtain ⟨l, hl, kind', hs⟩ := (h.outstanding_iff _).mp hmem
    obtain rfl := h.apart l k (by simp [hs]) (by simp [hk]) hl
    rw [hk] at hs
    cases hs
  -- In the order of the fields of `Linked`.
  refine ⟨?_, ?_, ?_, ?_, ?_, ?_, ?_, ?_, ?_, ?_⟩
  · exact fun l hl => h.ne_zero l (hlive l hl)
  · exact fun l m hl hm => h.apart l m (hlive l hl) (hlive m hm)
  · rw [hstaged]; exact hnodup.2
  · intro l
    rw [hstaged]
    by_cases hlk : l = k
    · subst hlk
      simp [hself, hnodup.1]
    · rw [hold l hlk, ← h.staged_iff, hhead, List.mem_cons]
      simp [hlk]
  · rw [hsq, hstaged]; exact htags.2
  · exact hperm.nodup_iff.mpr (List.nodup_cons.mpr ⟨hnew, h.outstanding_nodup⟩)
  · intro p
    rw [hperm.mem_iff, List.mem_cons, h.outstanding_iff]
    constructor
    · rintro (rfl | ⟨l, hl, kind', hs⟩)
      · exact ⟨k, rfl, kind, hself⟩
      · refine ⟨l, hl, kind', ?_⟩
        rwa [hold l (by rintro rfl; rw [hk] at hs; cases hs)]
    · rintro ⟨l, hl, kind', hs⟩
      by_cases hlk : l = k
      · exact .inl (hlk ▸ hl.symm)
      · exact .inr ⟨l, hl, kind', hold l hlk ▸ hs⟩
  · rw [hposted]; exact h.after
  · intro x hx l phase kind' hl hslotl
    have hx : x ∈ r.sq ++ r.inflight := by
      rw [hsq, hinflight] at hx
      rw [hsqe]
      simp only [List.mem_append, List.mem_cons] at hx ⊢
      tauto
    by_cases hlk : l = k
    · subst hlk
      rw [hself] at hslotl
      cases hslotl
      exact h.body x hx l _ _ hl hk
    · exact h.body x hx l phase kind' hl (hold l hlk ▸ hslotl)
  · intro c hc hcm
    have hslotc := h.more c (hposted ▸ hc) hcm
    have hne : StagedContext.raw c.userData ≠ k := by
      rintro rfl
      rw [hk] at hslotc
      cases hslotc
    rw [hold _ hne]
    exact hslotc

/-- A CQE with more to come is read. -/
theorem readMore {cqe : Cqe} (h : r.Linked) (hslot : r'.slot = r.slot)
    (hstaged : r'.staged = r.staged) (hsq : r'.sq = r.sq) (hinflight : r'.inflight = r.inflight)
    (hmore : cqe.more = true) (hposted : r.posted = cqe :: r'.posted) : r'.Linked := by
  have hout : r'.outstanding = r.outstanding := by
    simp [outstanding, hinflight, hposted, hmore]
  obtain ⟨h1, h2, h3, h4, h5, h6, h7, h8, h9, h10⟩ := h
  rw [hposted] at h8 h10
  refine ⟨?_, ?_, ?_, ?_, ?_, ?_, ?_, (List.pairwise_cons.mp h8).2, ?_, fun c hc => ?_⟩
  · rw [hslot]; exact h1
  · rw [hslot]; exact h2
  · rw [hstaged]; exact h3
  · rw [hstaged, hslot]; exact h4
  · rw [hsq, hstaged]; exact h5
  · rw [hout]; exact h6
  · rw [hout, hslot]; exact h7
  · rw [hsq, hinflight, hslot]; exact h9
  · rw [hslot]; exact h10 c (List.mem_cons_of_mem _ hc)

/-- The terminal CQE of a slot is read. -/
theorem finish {k : StagedContext} {kind : SlotKind} {cqe : Cqe} (h : r.Linked)
    (hpointer : k.pointer = cqe.userData) (hk : r.slot k = some (.submitted, kind))
    (hself : ∀ x, r'.slot k = some x → x.1 = .terminal)
    (hother : ∀ l, l ≠ k →
      r'.slot l = r.slot l ∨ r'.slot l = none ∧ ∃ kind, r.slot l = some (.terminal, kind))
    (hstaged : r'.staged = r.staged) (hsq : r'.sq = r.sq) (hinflight : r'.inflight = r.inflight)
    (hmore : cqe.more = false) (hposted : r.posted = cqe :: r'.posted) : r'.Linked := by
  have hlive : ∀ l, r'.slot l ≠ none → r.slot l ≠ none := by
    intro l hl
    by_cases hlk : l = k
    · rw [hlk, hk]; simp
    · rcases hother l hlk with hs | ⟨hs, -⟩
      · rwa [hs] at hl
      · exact absurd hs hl
  -- Slots that are not terminal are those of before, except the one that finishes.
  have hphase : ∀ l phase kind', phase ≠ .terminal →
      (r'.slot l = some (phase, kind') ↔ l ≠ k ∧ r.slot l = some (phase, kind')) := by
    intro l phase kind' hne
    by_cases hlk : l = k
    · subst hlk
      refine ⟨fun hs => absurd (hself _ hs) hne, fun hs => absurd rfl hs.1⟩
    · rcases hother l hlk with hs | ⟨hs, kind'', hs'⟩
      · rw [hs]; simp [hlk]
      · rw [hs, hs']
        refine ⟨fun hx => (by cases hx), fun hx => ?_⟩
        have := (Prod.mk.inj (Option.some.inj hx.2)).1
        exact absurd this.symm hne
  -- Of what was outstanding, exactly this address goes.
  have hperm : r.outstanding.Perm (cqe.userData :: r'.outstanding) := by
    simp only [outstanding, hinflight, hposted, List.filter_cons, hmore, Bool.not_false, if_true,
      List.map_cons]
    exact List.perm_middle
  have hnodup := List.nodup_cons.mp (hperm.nodup_iff.mp h.outstanding_nodup)
  have hout : cqe.userData ∈ r.outstanding := hperm.mem_iff.mpr List.mem_cons_self
  refine ⟨?_, ?_, ?_, ?_, ?_, hnodup.2, ?_, ?_, ?_, ?_⟩
  · exact fun l hl => h.ne_zero l (hlive l hl)
  · exact fun l m hl hm => h.apart l m (hlive l hl) (hlive m hm)
  · rw [hstaged]; exact h.staged_nodup
  · intro l
    rw [hstaged, h.staged_iff]
    refine exists_congr fun kind' => ?_
    rw [hphase l _ kind' (by simp)]
    refine ⟨fun hs => ⟨?_, hs⟩, fun hs => hs.2⟩
    rintro rfl
    rw [hk] at hs
    cases hs
  · rw [hsq, hstaged]; exact h.sq
  · intro p
    constructor
    · intro hp
      obtain ⟨l, hl, kind', hs⟩ :=
        (h.outstanding_iff p).mp (hperm.mem_iff.mpr (List.mem_cons_of_mem _ hp))
      refine ⟨l, hl, kind', (hphase l _ kind' (by simp)).mpr ⟨?_, hs⟩⟩
      rintro rfl
      exact hnodup.1 (by rw [← hpointer, hl]; exact hp)
    · rintro ⟨l, hl, kind', hs⟩
      obtain ⟨hlk, hs⟩ := (hphase l _ kind' (by simp)).mp hs
      have hp := hperm.mem_iff.mp ((h.outstanding_iff p).mpr ⟨l, hl, kind', hs⟩)
      refine (List.mem_cons.mp hp).resolve_left fun hpc => hlk ?_
      exact h.apart l k (by simp [hs]) (by simp [hk]) (by rw [hl, hpc, hpointer])
  · have := h.after
    rw [hposted] at this
    exact (List.pairwise_cons.mp this).2
  · intro e he l phase kind' hl hslotl
    rw [hsq, hinflight] at he
    by_cases hlk : l = k
    · subst hlk
      exfalso
      rcases List.mem_append.mp he with he | he
      · obtain ⟨m, hm, kind'', hs⟩ := h.mem_sq he
        obtain rfl := h.apart m l (by simp [hs]) (by simp [hk]) (hm.trans hl.symm)
        rw [hk] at hs
        cases hs
      · refine hnodup.1 (List.mem_append_left _ ?_)
        rw [hinflight, ← hpointer, hl]
        exact List.mem_map_of_mem he
    · rcases hother l hlk with hs | ⟨hs, -⟩
      · exact h.body e he l phase kind' hl (hs ▸ hslotl)
      · rw [hs] at hslotl
        cases hslotl
  · intro c hc hcm
    have hslotc := h.more c (by rw [hposted]; exact List.mem_cons_of_mem _ hc) hcm
    refine (hphase _ _ _ (by simp)).mpr ⟨?_, hslotc⟩
    rintro rfl
    have hafter := h.after
    rw [hposted] at hafter
    exact (List.pairwise_cons.mp hafter).1 c hc hmore hpointer.symm

/-- The ring is dropped when no slot is left. -/
theorem dropRing (hempty : ∀ k, r.slot k = none) (hslot : r'.slot = r.slot)
    (hstaged : r'.staged = r.staged) (hnone : r.staged = []) (hsq : r'.sq = [])
    (hinflight : r'.inflight = []) (hposted : r'.posted = []) : r'.Linked := by
  constructor <;>
    simp [outstanding, hslot, hempty, hstaged, hnone, hsq, hinflight, hposted]

/-- Traffic keeps slots and queues linked. -/
theorem traffic (h : r.Linked) (ht : Traffic r r') : r'.Linked := by
  cases ht with
  | same h1 h2 h3 h4 h5 => exact h.same h1 h2 h3 h4 h5
  | post h1 h2 h3 h4 h5 h6 h7 => exact h.post h1 h2 h3 h4 h5 h6 h7
  | stage h1 h2 h3 h4 h5 h6 h7 h8 => exact h.stage h1 h2 h3 h4 h5 h6 h7 h8
  | accept h1 h2 h3 h4 h5 h6 h7 => exact h.accept h1 h2 h3 h4 h5 h6 h7
  | more h1 h2 h3 h4 h5 h6 => exact h.readMore h1 h2 h3 h4 h5 h6
  | finish h1 h2 h3 h4 h5 h6 h7 h8 h9 => exact h.finish h1 h2 h3 h4 h5 h6 h7 h8 h9
  | dropRing h1 h2 h3 h4 h5 h6 h7 => exact dropRing h1 h2 h3 h4 h5 h6 h7

end Linked

/-! ## Steps of the registry as traffic -/

section Slots

variable {r r' : Registry} {p : Pointer}

/-- An address fresh in the registry has no slot. -/
theorem Fresh.slot (h : r.Fresh p) {l : StagedContext} (hl : l.pointer = p) : r.slot l = none := by
  cases l <;> simp only [StagedContext.pointer] at hl <;> subst hl <;>
    simp [Registry.slot, h.contexts, h.ownedContexts, h.ownedCancelContexts]

/-- The slot of a raw context. -/
theorem slot_of_lookup {c : CqeContext} {phase : ContextPhase} (hc : r.contexts.lookup p = some c)
    (hp : c.phase = phase) : r.slot (.raw p) = some (phase, c.slotKind) := by
  rw [slot, hc, Option.map_some, hp]

/-- The slot of an owned context. -/
theorem slot_of_owned {c : OwnedCqeContext} {phase : ContextPhase}
    (hc : r.ownedContexts.lookup p = some c) (hp : c.phase = phase) :
    r.slot (.owned p) = some (phase, .owned) := by
  rw [slot, hc, Option.map_some, hp]

/-- The slot of an owned cancellation context. -/
theorem slot_of_ownedCancel {c : OwnedCancelContext} {phase : ContextPhase}
    (hc : r.ownedCancelContexts.lookup p = some c) (hp : c.phase = phase) :
    r.slot (.ownedCancel p) = some (phase, .cancel (some c.target)) := by
  rw [slot, hc, Option.map_some, hp]

/-- Slots after writing a raw context. -/
theorem slot_raw {c : CqeContext} (hc : r'.contexts = r.contexts.insert p c)
    (ho : r'.ownedContexts = r.ownedContexts)
    (hx : r'.ownedCancelContexts = r.ownedCancelContexts) :
    r'.slot = Function.update r.slot (.raw p) (some (c.phase, c.slotKind)) := by
  funext l
  cases l <;> simp only [slot, hc, ho, hx, Function.update_apply, StagedContext.raw.injEq,
    reduceCtorEq, if_false, Finmap.lookup_insert_eq_ite]
  split_ifs <;> rfl

/-- Slots after writing an owned context. -/
theorem slot_owned {c : OwnedCqeContext} (hc : r'.contexts = r.contexts)
    (ho : r'.ownedContexts = r.ownedContexts.insert p c)
    (hx : r'.ownedCancelContexts = r.ownedCancelContexts) :
    r'.slot = Function.update r.slot (.owned p) (some (c.phase, .owned)) := by
  funext l
  cases l <;> simp only [slot, hc, ho, hx, Function.update_apply, StagedContext.owned.injEq,
    reduceCtorEq, if_false, Finmap.lookup_insert_eq_ite]
  split_ifs <;> rfl

/-- Slots after writing an owned cancellation context. -/
theorem slot_ownedCancel {c : OwnedCancelContext} (hc : r'.contexts = r.contexts)
    (ho : r'.ownedContexts = r.ownedContexts)
    (hx : r'.ownedCancelContexts = r.ownedCancelContexts.insert p c) :
    r'.slot =
      Function.update r.slot (.ownedCancel p) (some (c.phase, .cancel (some c.target))) := by
  funext l
  cases l <;> simp only [slot, hc, ho, hx, Function.update_apply, StagedContext.ownedCancel.injEq,
    reduceCtorEq, if_false, Finmap.lookup_insert_eq_ite]
  split_ifs <;> rfl

end Slots

/-- Every step of the registry is traffic. -/
theorem Step.traffic {r r' : Registry} (h : r.Step r') : Traffic r r' := by
  cases h with
  | stutter => exact .same rfl rfl rfl rfl rfl
  | post hfind hmore => exact .post rfl rfl rfl hfind hmore rfl rfl
  | @original s i e p hp =>
    exact .stage (k := .raw p) hp.ne_zero (fun l hl => hp.slot hl)
      (SlotKind.describes_original e.body)
      (slot_raw (c := e.boxed s i) rfl rfl rfl) rfl rfl rfl rfl
  | @cancel p command rest hp hq =>
    exact .stage (k := .raw p) hp.ne_zero (fun l hl => hp.slot hl)
      (SlotKind.describes_cancel command.target)
      (slot_raw (c := command.boxed) rfl rfl rfl) rfl rfl rfl rfl
  | @ownedCancel p command rest hp hq =>
    exact .stage (k := .ownedCancel p) hp.ne_zero (fun l hl => hp.slot hl)
      (SlotKind.describes_cancel command.target)
      (slot_ownedCancel (c := ⟨.staged, command.target⟩) rfl rfl rfl) rfl rfl rfl rfl
  | @owned p op hp =>
    exact .stage (k := .owned p) hp.ne_zero (fun l hl => hp.slot hl)
      (SlotKind.describes_owned op.handler.opcode)
      (slot_owned (c := op.boxed) rfl rfl rfl) rfl rfl rfl rfl
  | @acceptOriginal p rest c hs hc hp hk =>
    exact .accept hs (slot_of_lookup hc hp)
      (slot_raw (c := { c with phase := .submitted }) rfl rfl rfl) rfl rfl rfl rfl
  | @acceptCancel p rest c hs hc hp hk =>
    exact .accept hs (slot_of_lookup hc hp)
      (slot_raw (c := { c with phase := .submitted }) rfl rfl rfl) rfl rfl rfl rfl
  | @acceptOwned p rest c hs hc hp =>
    exact .accept hs (slot_of_owned hc hp)
      (slot_owned (c := { c with phase := .submitted }) rfl rfl rfl) rfl rfl rfl rfl
  | @acceptOwnedCancel p rest c hs hc hp =>
    exact .accept hs (slot_of_ownedCancel hc hp)
      (slot_ownedCancel (c := { c with phase := .submitted }) rfl rfl rfl) rfl rfl rfl rfl
  -- Marking a context as cancelled is no change of its slot.
  | @sweep s order commands hnodup horder htargets hcommands =>
    refine .same ?_ rfl rfl rfl rfl
    funext l
    cases l with
    | raw p =>
      simp only [slot, log, count, Finmap.lookup_foldl_modify hnodup]
      split_ifs
      · cases r.contexts.lookup p <;> rfl
      · rfl
    | owned p => rfl
    | ownedCancel p => rfl
  | @sweepOwned p c hc hphase hqueued =>
    refine .same ?_ rfl rfl rfl rfl
    funext l
    cases l with
    | raw q => rfl
    | owned q =>
      simp only [slot, Finmap.lookup_modify]
      split_ifs with hqp
      · subst hqp
        cases r.ownedContexts.lookup q <;> rfl
      · rfl
    | ownedCancel q => rfl
  | more hposted hc hkind hphase hmore => exact .more rfl rfl rfl rfl hmore hposted
  | @retire cqe rest c hposted hc hkind hphase hmore =>
    refine .finish (k := .raw cqe.userData) rfl (slot_of_lookup hc hphase) ?_ ?_ rfl rfl rfl
      hmore hposted
    · intro x hx
      simp only [slot, log, count] at hx
      split_ifs at hx
      · rw [Finmap.lookup_insert] at hx
        cases hx
        rfl
      · rw [Finmap.lookup_erase] at hx
        cases hx
    · intro l hl
      left
      cases l with
      | raw p =>
        have hne : p ≠ cqe.userData := fun h => hl (by rw [h])
        simp only [slot, log, count]
        split_ifs
        · rw [Finmap.lookup_insert_of_ne _ hne]
        · rw [Finmap.lookup_erase_ne hne]
      | owned p => rfl
      | ownedCancel p => rfl
  | @retireCancel cqe rest c o t hposted hc hkind hphase htarget ho hmore =>
    -- A cancellation is never its own target.
    have htc : t ≠ cqe.userData := by
      rintro rfl
      rw [Finmap.lookup_erase] at ho
      cases ho
    rw [Finmap.lookup_erase_ne htc] at ho
    refine .finish (k := .raw cqe.userData) rfl (slot_of_lookup hc hphase) ?_ ?_ rfl rfl rfl
      hmore hposted
    · intro x hx
      simp only [slot, log, count] at hx
      split_ifs at hx
      · rw [Finmap.lookup_erase_ne htc.symm, Finmap.lookup_erase] at hx
        cases hx
      · rw [Finmap.lookup_insert_of_ne _ htc.symm, Finmap.lookup_erase] at hx
        cases hx
    · intro l hl
      cases l with
      | raw p =>
        have hne : p ≠ cqe.userData := fun h => hl (by rw [h])
        simp only [slot, log, count]
        -- The target loses its slot when it is terminal already, and keeps it otherwise.
        by_cases hpt : p = t
        · subst hpt
          split_ifs with hterm
          · rw [Finmap.lookup_erase, ho]
            exact .inr ⟨rfl, _, by rw [Option.map_some, hterm]⟩
          · rw [Finmap.lookup_insert, ho]
            exact .inl rfl
        · left
          split_ifs
          · rw [Finmap.lookup_erase_ne hpt, Finmap.lookup_erase_ne hne]
          · rw [Finmap.lookup_insert_of_ne _ hpt, Finmap.lookup_erase_ne hne]
      | owned p => exact .inl rfl
      | ownedCancel p => exact .inl rfl
  | @retireOwned cqe rest c hposted hraw hc hphase hmore =>
    refine .finish (k := .owned cqe.userData) rfl (slot_of_owned hc hphase) ?_ ?_ rfl rfl rfl
      hmore hposted
    · intro x hx
      simp only [slot] at hx
      split_ifs at hx
      · rw [Finmap.lookup_insert] at hx
        cases hx
        rfl
      · rw [Finmap.lookup_erase] at hx
        cases hx
    · intro l hl
      left
      cases l with
      | raw p => rfl
      | owned p =>
        have hne : p ≠ cqe.userData := fun h => hl (by rw [h])
        simp only [slot]
        split_ifs
        · rw [Finmap.lookup_insert_of_ne _ hne]
        · rw [Finmap.lookup_erase_ne hne]
      | ownedCancel p => rfl
  | @retireOwnedCancel cqe rest c o hposted hraw howned hc hphase ho hmore =>
    refine .finish (k := .ownedCancel cqe.userData) rfl (slot_of_ownedCancel hc hphase) ?_ ?_
      rfl rfl
      rfl hmore hposted
    · intro x hx
      simp only [slot, Finmap.lookup_erase] at hx
      cases hx
    · intro l hl
      cases l with
      | raw p => exact .inl rfl
      | owned p =>
        simp only [slot]
        by_cases hpt : p = c.target
        · subst hpt
          split_ifs with hterm
          · rw [Finmap.lookup_erase, ho]
            exact .inr ⟨rfl, _, by rw [Option.map_some, hterm]⟩
          · rw [Finmap.lookup_insert, ho]
            exact .inl rfl
        · left
          split_ifs
          · rw [Finmap.lookup_erase_ne hpt]
          · rw [Finmap.lookup_insert_of_ne _ hpt]
      | ownedCancel p =>
        have hne : p ≠ cqe.userData := fun h => hl (by rw [h])
        left
        simp only [slot]
        rw [Finmap.lookup_erase_ne hne]
  | dropRing hcontexts howned hcancel hstaged =>
    refine .dropRing (fun k => ?_) rfl rfl hstaged rfl rfl rfl
    cases k <;> simp [slot, hcontexts, howned, hcancel]

end Registry

variable {cfg : PreparedRing} {ok : State → Action → Prop} {σ : State}

/-- What holds of the first registry and survives every step of it holds of every reachable one. -/
theorem Reachable.registry_inv {I : Registry → Prop} (h : Reachable cfg ok σ)
    (hinit : I (State.init cfg).registry) (hstep : ∀ {r r'}, I r → Registry.Step r r' → I r') :
    I σ.registry :=
  h.inv_of (I := fun σ => I σ.registry) (J := fun σ => Allocated cfg σ ∧ Stopping σ)
    (fun hr => ⟨.of_reachable hr, .of_reachable hr⟩) hinit
    fun hJ _ hI _ hm => hstep hI (registry_move hJ.1 hJ.2 hm)

/-- The registry of a driver that has just been started is empty. -/
theorem State.init_registry :
    (State.init cfg).registry =
      ⟨∅, ∅, ∅, [], [], [], [], [], [], fun _ => ⟨0, 0, 0, 0, 0⟩, fun _ => ⟨[], [], [], [], []⟩⟩ :=
  rfl

/-- Slots and queues are linked in every reachable state. -/
theorem Registry.Linked.of_reachable (h : Reachable cfg ok σ) : σ.registry.Linked := by
  refine h.registry_inv ?_ fun hI hs => hI.traffic hs.traffic
  have hnone : ∀ k, (State.init cfg).registry.slot k = none := by
    intro k
    cases k <;> rfl
  rw [State.init_registry] at hnone ⊢
  constructor <;> simp [hnone, Registry.outstanding]

end Nosv.IoUring
