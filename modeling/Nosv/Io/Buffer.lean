import Mathlib.Data.List.Basic
import Mathlib.Data.Nat.Basic
import Nosv.Io.Core

/-!
# Owned buffers

An owned buffer is an allocation of which a prefix is initialized. The traits are unsafe: what an
implementation promises is `IoBuf.Lawful` for the value at hand and `LawfulIoBufMut` for the
operations that change it. Memory that nothing was written to yet is `none`.

`Initialized.write` and `Initialized.extend` say what a write initializes.
-/

namespace Nosv.Io

/-! ## Memory -/

/-- The bytes of an allocation. -/
abbrev Memory := List (Option UInt8)

namespace Memory

/-- The first `n` bytes were written. -/
def Initialized (m : Memory) (n : ℕ) : Prop := ∀ x ∈ m.take n, x.isSome = true

/-- `chunk` is written from `start` on. -/
def write (m : Memory) (start : ℕ) (chunk : List UInt8) : Memory :=
  m.take start ++ chunk.map some ++ m.drop (start + chunk.length)

section Lemmas

variable {m : Memory} {start n k : ℕ} {chunk : List UInt8}

/-- Fewer bytes are initialized as well. -/
theorem Initialized.mono (h : m.Initialized n) (hk : k ≤ n) : m.Initialized k := by
  intro x hx
  refine h x ?_
  rw [← Nat.min_eq_left hk, ← List.take_take] at hx
  exact List.mem_of_mem_take hx

/-- A write stays in the allocation. -/
theorem length_write (h : start + chunk.length ≤ m.length) :
    (m.write start chunk).length = m.length := by
  simp only [write, List.length_append, List.length_take, List.length_map, List.length_drop]
  omega

/-- What comes before the write is left alone. -/
theorem take_write (h : start ≤ m.length) (hk : k ≤ start) :
    (m.write start chunk).take k = m.take k := by
  have hlen : (m.take start).length = start := List.length_take_of_le h
  rw [write, List.append_assoc, List.take_append_of_le_length (by omega), List.take_take,
    Nat.min_eq_left hk]

/-- The write extends the prefix before it. -/
theorem take_write_add (h : start ≤ m.length) (hk : k ≤ chunk.length) :
    (m.write start chunk).take (start + k) = m.take start ++ (chunk.take k).map some := by
  have hlen : (m.take start).length = start := List.length_take_of_le h
  rw [write, List.append_assoc, List.take_append, hlen, Nat.add_sub_cancel_left,
    List.take_of_length_le (by omega),
    List.take_append_of_le_length (by simpa using hk), List.map_take]

/-- A byte after a write is the one written, or the one before. -/
theorem getElem?_write (hstart : start + chunk.length ≤ m.length) (i : ℕ) :
    (m.write start chunk)[i]? =
      if start ≤ i ∧ i < start + chunk.length then (chunk.map some)[i - start]? else m[i]? := by
  have hlen : (m.take start).length = start := List.length_take_of_le (by omega)
  rw [write, List.append_assoc]
  rcases Nat.lt_or_ge i start with hi | hi
  · rw [List.getElem?_append_left (by omega), List.getElem?_take_of_lt hi, if_neg (by omega)]
  · rw [List.getElem?_append_right (by omega), hlen]
    rcases Nat.lt_or_ge i (start + chunk.length) with hi' | hi'
    · rw [List.getElem?_append_left (by rw [List.length_map]; omega), if_pos ⟨hi, hi'⟩]
    · rw [List.getElem?_append_right (by rw [List.length_map]; omega), List.getElem?_drop,
        List.length_map, if_neg (by omega)]
      congr 1
      omega

/-- A write initializes; it does not undo that. -/
theorem Initialized.write (h : m.Initialized n) (hstart : start + chunk.length ≤ m.length) :
    (m.write start chunk).Initialized n := by
  intro x hx
  obtain ⟨i, hi, rfl⟩ := List.mem_take_iff_getElem.mp hx
  have hlt : i < (m.write start chunk).length := by omega
  have hx := List.getElem?_eq_getElem hlt
  rw [getElem?_write hstart] at hx
  split_ifs at hx
  · obtain ⟨y, -, hy⟩ := List.mem_map.mp (List.mem_of_getElem? hx)
    rw [← hy]
    rfl
  · refine h _ (List.mem_of_getElem? (i := i) ?_)
    rw [List.getElem?_take_of_lt (by omega)]
    exact hx

/-- A write at the end of an initialized prefix extends it. -/
theorem Initialized.extend (h : m.Initialized start) (hstart : start ≤ m.length)
    (hk : k ≤ chunk.length) : (m.write start chunk).Initialized (start + k) := by
  intro x hx
  rw [take_write_add hstart hk] at hx
  rcases List.mem_append.mp hx with hx | hx
  · exact h x hx
  · obtain ⟨y, -, rfl⟩ := List.mem_map.mp hx
    rfl

end Lemmas

end Memory

/-! ## The traits -/

/-- An owned buffer with a stable initialized byte prefix. -/
class IoBuf (B : Type) where
  /-- The allocation at `stable_ptr`. -/
  memory : B → Memory
  /-- The initialized prefix length readable by an I/O operation. -/
  bytesInit : B → ℕ

/-- An owned buffer whose allocation may be initialized by an I/O operation. -/
class IoBufMut (B : Type) extends IoBuf B where
  /-- The total number of bytes writable from `stable_mut_ptr`. -/
  bytesTotal : B → ℕ
  /-- Marks at least the first `n` allocation bytes initialized. -/
  setInit : B → ℕ → B
  /-- What the kernel does through `stable_mut_ptr`. -/
  store : B → ℕ → List UInt8 → B

export IoBuf (memory bytesInit)
export IoBufMut (bytesTotal setInit store)

/-- The initialized prefix is in the allocation, and was written. -/
structure IoBuf.Lawful {B : Type} [IoBuf B] (buf : B) : Prop where
  init_le : bytesInit buf ≤ (memory buf).length
  initialized : (memory buf).Initialized (bytesInit buf)

/-- The writable bytes are in the allocation, and the initialized prefix is part of them. -/
structure IoBufMut.Lawful {B : Type} [IoBufMut B] (buf : B) : Prop extends IoBuf.Lawful buf where
  total_le : bytesTotal buf ≤ (memory buf).length
  init_le_total : bytesInit buf ≤ bytesTotal buf

/-- What the operations of a mutable buffer promise. -/
class LawfulIoBufMut (B : Type) [IoBufMut B] : Prop where
  /-- Writes through the pointer reach the allocation and nothing else. -/
  store_spec : ∀ (buf : B) (start : ℕ) (chunk : List UInt8), IoBufMut.Lawful buf →
    start + chunk.length ≤ bytesTotal buf →
    memory (store buf start chunk) = (memory buf).write start chunk ∧
      bytesInit (store buf start chunk) = bytesInit buf ∧
      bytesTotal (store buf start chunk) = bytesTotal buf
  /-- A prefix that was written may be marked as initialized. -/
  setInit_spec : ∀ (buf : B) (n : ℕ), IoBufMut.Lawful buf → n ≤ bytesTotal buf →
    (memory buf).Initialized n →
    IoBufMut.Lawful (setInit buf n) ∧ memory (setInit buf n) = memory buf ∧
      bytesTotal (setInit buf n) = bytesTotal buf ∧ n ≤ bytesInit (setInit buf n)

/-! ## Vectors and boxed slices -/

/-- `Vec<u8>`: the initialized prefix is its length, and its whole capacity is writable. -/
structure Vec where
  allocation : Memory
  len : ℕ
  deriving DecidableEq, Repr

instance : IoBufMut Vec where
  memory := Vec.allocation
  bytesInit := Vec.len
  bytesTotal buf := buf.allocation.length
  setInit buf n := { buf with len := n }
  store buf start chunk := { buf with allocation := buf.allocation.write start chunk }

instance : LawfulIoBufMut Vec where
  store_spec _ _ _ _ h := ⟨rfl, rfl, Memory.length_write h⟩
  setInit_spec _ _ _ htotal h := ⟨⟨⟨htotal, h⟩, Nat.le_refl _, htotal⟩, rfl, rfl, Nat.le_refl _⟩

/-- `Box<[u8]>` and `&'static mut [u8]`: every byte is writable and initialized, and there is
nothing to mark. -/
structure Slice where
  bytes : List UInt8
  deriving DecidableEq, Repr

instance : IoBufMut Slice where
  memory buf := buf.bytes.map some
  bytesInit buf := buf.bytes.length
  bytesTotal buf := buf.bytes.length
  setInit buf _ := buf
  store buf start chunk := ⟨buf.bytes.take start ++ chunk ++ buf.bytes.drop (start + chunk.length)⟩

/-- A slice is lawful whatever it holds. -/
theorem Slice.lawful (buf : Slice) : IoBufMut.Lawful buf := by
  have hlen : (buf.bytes.map some).length = buf.bytes.length := List.length_map _
  refine ⟨⟨Nat.le_of_eq hlen.symm, fun x hx => ?_⟩, Nat.le_of_eq hlen.symm, Nat.le_refl _⟩
  obtain ⟨y, -, rfl⟩ := List.mem_map.mp (List.mem_of_mem_take hx)
  rfl

instance : LawfulIoBufMut Slice where
  store_spec buf start chunk _ h := by
    have hlen : (buf.bytes.take start ++ chunk ++ buf.bytes.drop (start + chunk.length)).length =
        buf.bytes.length := by
      change start + chunk.length ≤ buf.bytes.length at h
      simp only [List.length_append, List.length_take, List.length_drop]
      omega
    exact ⟨by simp [memory, store, Memory.write, List.map_take, List.map_drop], hlen, hlen⟩
  setInit_spec buf n _ htotal _ := ⟨buf.lawful, rfl, rfl, htotal⟩

end Nosv.Io
