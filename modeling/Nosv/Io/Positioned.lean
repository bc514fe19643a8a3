import Nosv.Io.File

/-!
# The file offset of positioned operations

Every SQE of a positioned operation carries the caller's offset plus the bytes transferred before
it. Nothing keeps that sum from being `u64::MAX`, for which the kernel uses and moves the cursor of
the descriptor: the only guard is against overflow.

* `positional_iff`: for each method, which offsets and lengths keep clear of `u64::MAX`;
* `positional_fails`: an offset that does not.
-/

namespace Nosv.Io

/-- Every SQE has the caller's offset plus the bytes transferred before it, and this is not the
value that stands for the cursor. -/
def Positional (offset : UInt64) (transferred : ℕ → ℕ) (sqes : List Sqe) : Prop :=
  ∀ i s, sqes[i]? = some s →
    ∃ o, s.offset = some o ∧ o.toNat = offset.toNat + transferred i ∧ o ≠ u64Max

section Offsets

variable {offset : UInt64} {n total : ℕ}

/-- An addition that does not overflow. -/
theorem checkedAdd_eq_some (h : offset.toNat + n < 2 ^ 64) :
    ∃ o, checkedAdd offset n = some o ∧ o.toNat = offset.toNat + n := by
  refine ⟨_, if_pos h, ?_⟩
  exact UInt64.toNat_ofNat_of_lt' h

/-- The sentinel is the largest offset. -/
theorem toNat_u64Max : u64Max.toNat = 2 ^ 64 - 1 := rfl

/-- An offset is the sentinel when its value is. -/
theorem eq_u64Max_iff : offset = u64Max ↔ offset.toNat = 2 ^ 64 - 1 := by
  rw [← UInt64.toNat_inj, toNat_u64Max]

/-- Adding nothing. -/
theorem checkedAdd_zero : checkedAdd offset 0 = some offset := by
  obtain ⟨o, ho, hval⟩ := @checkedAdd_eq_some offset 0 offset.toNat_lt
  rw [ho, UInt64.toNat_inj.mp hval]

/-- An empty list of SQEs. -/
theorem Positional.nil (transferred : ℕ → ℕ) : Positional offset transferred [] := nofun

/-- One SQE at the caller's offset. -/
theorem positional_singleton {transferred : ℕ → ℕ} {s : Sqe} (hs : s.offset = some offset)
    (hzero : transferred 0 = 0) : Positional offset transferred [s] ↔ offset ≠ u64Max := by
  constructor
  · intro h
    obtain ⟨o, ho, -, hne⟩ := h 0 s rfl
    rw [hs] at ho
    exact Option.some.inj ho ▸ hne
  · intro hne i s' hs'
    cases i with
    | zero =>
      cases hs'
      exact ⟨offset, hs, by rw [hzero, Nat.add_zero], hne⟩
    | succ i => cases hs'

variable {B K : Type} {work : B → ℕ → Except Error (Work B)} {finish : Work B → K → Finished B}
  {r : K → ℤ} {stalled oversized : Error} {I : B → ℕ → List (Answer K) → Prop}
  {P : B → ℕ → Prop} {answers : List (Answer K)} {p : Progress Unit B} {buf : B}
  {item item' : Work B} {cqe : K}

/-- A loop whose range ends below the sentinel stays below it. -/
theorem Transferred.positional
    (h : Transferred total (checkedAdd offset) r stalled oversized I P 0 answers p)
    (hrange : offset.toNat + total ≤ 2 ^ 64 - 1) :
    Positional offset (fun i => ((accepted r total answers).take i).sum) p.sqes := by
  intro i s hs
  obtain ⟨hlt, heq⟩ := h.sqes i s hs
  rw [Nat.zero_add, Nat.sub_zero] at heq
  have hstart : ((accepted r total answers).take i).sum < total := by
    rw [heq] at hlt
    exact hlt
  obtain ⟨o, ho, hval⟩ :=
    @checkedAdd_eq_some offset ((accepted r total answers).take i).sum (by omega)
  refine ⟨o, heq ▸ ho, hval, fun hmax => ?_⟩
  have := eq_u64Max_iff.mp hmax
  omega

/-- The SQEs of a loop that waits for its second answer. -/
theorem untilDone_two {k : ℕ} (hwork : work buf 0 = .ok item)
    (hresult : (finish item cqe).result = .ok k) (hk : k ≠ 0) (hlt : k < total)
    (hwork' : work (finish item cqe).buf k = .ok item') :
    (untilDone total work finish stalled [.completed cqe] buf 0).sqes =
      [item.entry, item'.entry] := by
  have hpos : 0 < total := Nat.zero_lt_of_lt hlt
  rw [untilDone_goes hpos hwork hresult hk, Nat.zero_add, untilDone_nil hlt hwork']

end Offsets

/-- A read that receives `k` zeros. -/
def Received.zeros (k : ℕ) : Received := ⟨k, List.replicate k 0, by simp⟩

namespace File

section Loops

variable {B : Type} {size : B → ℕ} {offset : UInt64} {buf : B} {done : ℕ}

/-- An iteration of a positioned loop within range. -/
theorem positioned_eq_ok (hrange : offset.toNat + done < 2 ^ 64) (hsize : size buf ≤ u32Max) :
    positioned size offset buf done =
      .ok ⟨buf, checkedAdd offset done, done, size buf - done⟩ := by
  obtain ⟨o, ho, -⟩ := checkedAdd_eq_some hrange
  rw [positioned, ho]
  exact if_neg (by omega)

/-- A buffer that is too large is given back at once. -/
theorem positioned_too_large (hsize : u32Max < size buf) :
    positioned size offset buf 0 =
      .error (.new .invalidInput "buffer is too large for io_uring") := by
  rw [positioned, checkedAdd_zero]
  exact if_pos hsize

/-- A loop over a buffer that is too large does nothing. -/
theorem untilDone_too_large {K : Type} {finish : Work B → K → Finished B} {stalled : Error}
    {answers : List (Answer K)} (hsize : u32Max < size buf) :
    (untilDone (size buf) (positioned size offset) finish stalled answers buf 0).sqes = [] := by
  rw [untilDone_rejected (Nat.zero_lt_of_lt hsize) (positioned_too_large hsize)]

/-- A loop reaches the sentinel unless it does nothing or its range ends below it. -/
theorem range_of_positional {K : Type} {finish : Work B → K → Finished B} {r : K → ℤ}
    {stalled : Error} (hcqe : ∀ k, ∃ cqe, r cqe = (k : ℕ))
    (hfinish : ∀ cqe k, r cqe = (k : ℕ) → k ≠ 0 → k < size buf → size buf ≤ u32Max →
      let x := finish ⟨buf, checkedAdd offset 0, 0, size buf - 0⟩ cqe
      x.result = .ok k ∧ size x.buf = size buf)
    (h : ∀ answers, Positional offset (fun i => ((accepted r (size buf) answers).take i).sum)
      (untilDone (size buf) (positioned size offset) finish stalled answers buf 0).sqes) :
    size buf = 0 ∨ u32Max < size buf ∨ offset.toNat + size buf ≤ 2 ^ 64 - 1 := by
  by_contra hcond
  simp only [not_or, Nat.not_le, Nat.not_lt] at hcond
  obtain ⟨hzero, hsize, hrange⟩ := hcond
  have hoffset := offset.toNat_lt
  have hwork := @positioned_eq_ok B size offset buf 0 (by omega) hsize
  rcases Nat.eq_zero_or_pos (2 ^ 64 - 1 - offset.toNat) with hk | hk
  · -- the first operation is at the sentinel
    have hfirst := h []
    rw [untilDone_nil (Nat.pos_of_ne_zero hzero) hwork,
      positional_singleton checkedAdd_zero rfl] at hfirst
    exact hfirst (eq_u64Max_iff.mpr (by omega))
  · -- the first operation transfers just so much that the second is at the sentinel
    obtain ⟨k, hkdef⟩ : ∃ k, k = 2 ^ 64 - 1 - offset.toNat := ⟨_, rfl⟩
    obtain ⟨cqe, hr⟩ := hcqe k
    -- What the loop makes of its first answer, which leaves the size of the buffer alone.
    obtain ⟨hresult, hsame⟩ := hfinish cqe k hr (by omega) (by omega) hsize
    have hwork' := @positioned_eq_ok B size offset _ k (by omega) (hsame.trans_le hsize)
    have hsecond := h [.completed cqe]
    have hk : k ≠ 0 := by omega
    have hlt : k < size buf := by omega
    rw [untilDone_two hwork hresult hk hlt hwork'] at hsecond
    obtain ⟨o, ho, -, hne⟩ := hsecond 1 _ rfl
    obtain ⟨o', ho', hval⟩ := @checkedAdd_eq_some offset k (by omega)
    obtain rfl : o = o' := Option.some.inj (ho.symm.trans ho')
    exact hne (eq_u64Max_iff.mpr (by omega))

end Loops

/-! ## The five methods -/

section Methods

variable {B : Type} {offset : UInt64}

/-- An operation at the caller's offset. -/
theorem once_positional {K : Type} {size : B → ℕ} {finish : Work B → K → Finished B} (buf : B) :
    (∀ answer, Positional offset (fun _ => 0)
      (once (workAt size (some offset) buf 0) finish buf answer).sqes) ↔
      offset ≠ u64Max ∨ u32Max < size buf := by
  by_cases hsize : u32Max < size buf
  · have hwork : workAt size (some offset) buf 0 =
        .error (.new .invalidInput "buffer is too large for io_uring") := if_pos hsize
    rw [hwork]
    exact iff_of_true (fun _ => .nil _) (.inr hsize)
  · have hwork : workAt size (some offset) buf 0 = .ok ⟨buf, some offset, 0, size buf - 0⟩ :=
      if_neg hsize
    rw [hwork]
    refine ⟨fun h => .inl ?_, fun h answer => ?_⟩
    · exact (positional_singleton rfl rfl).mp (h none)
    · have hne : offset ≠ u64Max := h.resolve_right hsize
      cases answer with
      | none => exact (positional_singleton rfl rfl).mpr hne
      | some answer =>
        cases answer with
        | failed => exact .nil _
        | completed => exact (positional_singleton rfl rfl).mpr hne

/-- The loop of `read_exact_at`. -/
theorem readExactAt_positional [IoBufMut B] [LawfulIoBufMut B] (file : File) (buf : B)
    (hlawful : IoBufMut.Lawful buf) :
    (∀ answers, Positional offset
      (fun i => ((accepted Received.result (bytesTotal buf) answers).take i).sum)
      (file.readExactAt buf offset answers).sqes) ↔
      bytesTotal buf = 0 ∨ u32Max < bytesTotal buf ∨
        offset.toNat + bytesTotal buf ≤ 2 ^ 64 - 1 := by
  constructor
  · refine range_of_positional (fun k => ⟨.zeros k, rfl⟩) ?_
    intro cqe k hr hk hlt hsize
    have hcount : cqe.result.toNat = k := by rw [hr, Int.toNat_natCast]
    -- One iteration that receives `k` zeros.
    have hiter : Iteration (bytesTotal buf) (checkedAdd offset)
        (fun buf' done => .ok ⟨buf', checkedAdd offset done, done, bytesTotal buf - done⟩)
        completeRead Received.result _ (Filled buf (received (bytesTotal buf) [.completed cqe]))
        SetInitOk := Filled.iteration rfl hsize fun _ _ _ _ => rfl
    have hfilled : Filled buf (received (bytesTotal buf) [.completed cqe]) buf 0
        [.completed cqe] :=
      ⟨hlawful, rfl, Nat.zero_le _, Nat.le_refl _, Nat.zero_le _, rfl⟩
    constructor
    · have hle : k ≤ bytesTotal buf - 0 := Nat.le_of_lt hlt
      rw [hiter.result, if_neg (by omega), hcount]
      exact if_pos hle
    · exact (hiter.goes buf 0 cqe [] hfilled (by omega) (by omega) (by omega)).total
  · intro hcond answers
    rcases hcond with hzero | hsize | hrange
    · rw [readExactAt, untilDone_of_le (Nat.le_of_eq hzero)]
      exact .nil _
    · rw [readExactAt, untilDone_too_large hsize]
      exact .nil _
    · by_cases hsize : u32Max < bytesTotal buf
      · rw [readExactAt, untilDone_too_large hsize]
        exact .nil _
      · refine Transferred.positional (untilDone_filled hlawful rfl (Nat.le_of_not_lt hsize) ?_)
          hrange
        intro buf' done hlt htotal
        rw [positioned_eq_ok (by omega) (by omega), htotal]

/-- The loop of `write_all_at`. -/
theorem writeAllAt_positional [IoBuf B] (file : File) (buf : B) :
    (∀ answers, Positional offset
      (fun i => ((accepted (fun cqe : ℤ => cqe) (bytesInit buf) answers).take i).sum)
      (file.writeAllAt buf offset answers).sqes) ↔
      file.appendMode = true ∨ bytesInit buf = 0 ∨ u32Max < bytesInit buf ∨
        offset.toNat + bytesInit buf ≤ 2 ^ 64 - 1 := by
  -- In append mode there is no SQE at all.
  cases hmode : file.appendMode with
  | true =>
    refine iff_of_true (fun answers => ?_) (.inl rfl)
    rw [writeAllAt, if_pos hmode]
    exact .nil _
  | false =>
    have hloop : ∀ answers, file.writeAllAt buf offset answers =
        untilDone (bytesInit buf) (positioned bytesInit offset) completeWrite
          (.new .writeZero "failed to write buffer") answers buf 0 := by
      intro answers
      rw [writeAllAt, hmode]
      rfl
    simp only [hloop, Bool.false_eq_true, false_or]
    constructor
    · -- A transfer of `k` bytes puts the next SQE at `offset + k`, which may be `u64::MAX`.
      refine range_of_positional (fun k => ⟨k, rfl⟩) ?_
      rintro cqe k rfl hk hlt hsize
      constructor
      · have hle : k ≤ bytesInit buf - 0 := Nat.le_of_lt hlt
        rw [completeWrite, Work.send_eq, if_neg (by omega), Int.toNat_natCast]
        exact congrArg Finished.result (if_pos hle)
      · rw [completeWrite, (Work.send_buf _ _).1]
    · intro hcond answers
      -- A loop that sends nothing, one that is refused, and one that stays in range.
      rcases hcond with hzero | hsize | hrange
      · rw [untilDone_of_le (Nat.le_of_eq hzero)]
        exact .nil _
      · rw [untilDone_too_large hsize]
        exact .nil _
      · by_cases hsize : u32Max < bytesInit buf
        · rw [untilDone_too_large hsize]
          exact .nil _
        · refine Transferred.positional (untilDone_sent ?_) hrange
          intro done hlt
          exact positioned_eq_ok (by omega) (Nat.le_of_not_lt hsize)

/-- Positioned operations have the caller's offset plus what was transferred in all their SQEs, and
keep off the cursor exactly when their range cannot reach `u64::MAX` or nothing is submitted;
`append` asks for the cursor, in append mode only. -/
theorem positional_iff (file : File) (R W : Type) [IoBufMut R] [LawfulIoBufMut R] [IoBuf W]
    (rbuf : R) (wbuf : W) (hlawful : IoBufMut.Lawful rbuf) (offset : UInt64) :
    ((∀ answer, Positional offset (fun _ => 0) (file.readAt rbuf offset answer).sqes) ↔
      offset ≠ u64Max ∨ u32Max < bytesTotal rbuf) ∧
    ((∀ answers, Positional offset
        (fun i => ((accepted Received.result (bytesTotal rbuf) answers).take i).sum)
        (file.readExactAt rbuf offset answers).sqes) ↔
      bytesTotal rbuf = 0 ∨ u32Max < bytesTotal rbuf ∨
        offset.toNat + bytesTotal rbuf ≤ 2 ^ 64 - 1) ∧
    ((∀ answer, Positional offset (fun _ => 0) (file.writeAt wbuf offset answer).sqes) ↔
      file.appendMode = true ∨ offset ≠ u64Max ∨ u32Max < bytesInit wbuf) ∧
    ((∀ answers, Positional offset
        (fun i => ((accepted (fun cqe : ℤ => cqe) (bytesInit wbuf) answers).take i).sum)
        (file.writeAllAt wbuf offset answers).sqes) ↔
      file.appendMode = true ∨ bytesInit wbuf = 0 ∨ u32Max < bytesInit wbuf ∨
        offset.toNat + bytesInit wbuf ≤ 2 ^ 64 - 1) ∧
    ∀ answer, ∀ s ∈ (file.append wbuf answer).sqes,
      s.offset = some u64Max ∧ file.appendMode = true := by
  refine ⟨once_positional rbuf, readExactAt_positional file rbuf hlawful, ?_,
    writeAllAt_positional file wbuf, fun answer s hs => ?_⟩
  · cases hmode : file.appendMode with
    | true =>
      refine iff_of_true (fun answer => ?_) (.inl rfl)
      rw [writeAt, if_pos hmode]
      exact .nil _
    | false =>
      have honce : ∀ answer, file.writeAt wbuf offset answer =
          once (workAt bytesInit (some offset) wbuf 0) completeWrite wbuf answer := by
        intro answer
        rw [writeAt, hmode]
        rfl
      simp only [honce, Bool.false_eq_true, false_or]
      exact once_positional wbuf
  · unfold append at hs
    split_ifs at hs with hmode
    · cases hs
    · obtain ⟨item, hitem, rfl⟩ := mem_sqes_once hs
      obtain rfl := workAt_eq_ok hitem
      exact ⟨rfl, by simpa using hmode⟩

/-- A read of one byte at the largest offset asks for the cursor. -/
theorem positional_fails :
    ¬∀ (file : File) (buf : Vec) (offset : UInt64) (answer : Option (Answer Received)),
      IoBufMut.Lawful buf →
      Positional offset (fun _ => 0) (file.readAt buf offset answer).sqes := by
  intro hall
  have hlawful : IoBufMut.Lawful (⟨[none], 0⟩ : Vec) :=
    ⟨⟨Nat.zero_le _, nofun⟩, Nat.le_refl _, Nat.zero_le _⟩
  obtain ⟨o, ho, -, hne⟩ := hall ⟨3, false⟩ ⟨[none], 0⟩ u64Max none hlawful 0 _ rfl
  exact hne (Option.some.inj ho).symm

/-- A read of one byte at offset zero does not. -/
theorem positional_iff_zero :
    Positional 0 (fun _ => 0) ((⟨3, false⟩ : File).readAt (⟨[none], 0⟩ : Vec) 0 none).sqes :=
  have hlawful : IoBufMut.Lawful (⟨[none], 0⟩ : Vec) :=
    ⟨⟨Nat.zero_le _, nofun⟩, Nat.le_refl _, Nat.zero_le _⟩
  (positional_iff ⟨3, false⟩ Vec Vec ⟨[none], 0⟩ ⟨[none], 0⟩ hlawful 0).1.mpr
    (.inl (by decide)) none

end Methods

end File

end Nosv.Io
