import Mathlib.Logic.Function.Basic
import Mathlib.Tactic.Common

/-!
# A byte memory with one-byte addresses

A memory of 256 bytes (`Memory`), written one byte at a time (`writeByte`) and read in blocks
(`readBytes`). Addresses are bytes and wrap around; what is asked of a block is only that it is no
longer than the memory, so a block that does wrap is covered by the same lemmas.

A block that is written byte by byte is described by `Holds m base data n`: the first `n`
bytes of `data` are in place from `base` on. Writing the next byte extends it by one
(`Holds.writeByte`), and a block that is in place as a whole is what a read returns
(`readBytes_of_holds`).

A write outside a block (`Outside`) does not change what is read (`readBytes_of_outside`). An
address below a block or past its end lies outside it (`outside_of_lt`, `outside_of_le`).

`writeFrom` writes a list of bytes. When only the first bytes of a block are written, a read of
the block finds them, and after them what was there before (`readBytes_writeFrom`); this is what a
write that fails in the middle leaves. Bytes written outside a block leave it alone
(`readBytes_writeFrom_of_outside`).
-/

namespace Foundation

/-- The contents of the memory. -/
abbrev Memory := UInt8 → UInt8

/-- Write one byte. -/
def writeByte (m : Memory) (addr value : UInt8) : Memory := Function.update m addr value

/-- Read a block of `n` bytes. -/
def readBytes (m : Memory) (base : UInt8) (n : ℕ) : List UInt8 :=
  (List.range n).map fun i => m (base + UInt8.ofNat i)

/-- The first `n` bytes of `data` are in place. -/
def Holds (m : Memory) (base : UInt8) (data : List UInt8) (n : ℕ) : Prop :=
  ∀ i < n, m (base + UInt8.ofNat i) = data.getD i 0

/-- The address lies outside the block. -/
def Outside (addr base : UInt8) (n : ℕ) : Prop := ∀ i < n, addr ≠ base + UInt8.ofNat i

variable {m : Memory} {base addr value : UInt8} {data : List UInt8} {n : ℕ}

@[simp]
theorem length_readBytes (m : Memory) (base : UInt8) (n : ℕ) :
    (readBytes m base n).length = n := by
  simp [readBytes]

theorem getD_readBytes {i : ℕ} (hi : i < n) :
    (readBytes m base n).getD i 0 = m (base + UInt8.ofNat i) := by
  rw [List.getD, readBytes, List.getElem?_map, List.getElem?_range hi, Option.map_some,
    Option.getD_some]

theorem holds_zero (m : Memory) (base : UInt8) (data : List UInt8) : Holds m base data 0 :=
  fun _ hi => absurd hi (Nat.not_lt_zero _)

/-- Different offsets below 256 are different addresses. -/
theorem add_ofNat_ne {i j : ℕ} (hij : i < j) (hj : j < 256) :
    base + UInt8.ofNat i ≠ base + UInt8.ofNat j := by
  intro h
  have hnat := congrArg UInt8.toNat ((UInt8.add_right_inj base).mp h)
  rw [UInt8.toNat_ofNat', UInt8.toNat_ofNat', Nat.mod_eq_of_lt (by omega),
    Nat.mod_eq_of_lt (by omega)] at hnat
  omega

/-- **Writing the next byte** of a block extends the part in place. -/
theorem Holds.writeByte (h : Holds m base data n) (hn : n < 256) :
    Holds (writeByte m (base + UInt8.ofNat n) (data.getD n 0)) base data (n + 1) := by
  intro i hi
  unfold Foundation.writeByte
  by_cases hlast : i = n
  · subst hlast
    rw [Function.update_self]
  · have hlt : i < n := by omega
    rw [Function.update_of_ne (add_ofNat_ne hlt hn)]
    exact h i hlt

/-- **A block in place is read back.** -/
theorem readBytes_of_holds (h : Holds m base data data.length) :
    readBytes m base data.length = data := by
  refine List.ext_getElem (length_readBytes ..) fun i _ hi => ?_
  simp only [readBytes, List.getElem_map, List.getElem_range]
  rw [h i hi, List.getD, List.getElem?_eq_getElem hi, Option.getD_some]

/-- **A write outside a block** does not change what is read. -/
theorem readBytes_of_outside (hout : Outside addr base n) :
    readBytes (writeByte m addr value) base n = readBytes m base n := by
  refine List.map_congr_left fun i hi => ?_
  rw [writeByte, Function.update_of_ne (hout i (List.mem_range.mp hi)).symm]

/-- An address below a block that does not wrap lies outside it. -/
theorem outside_of_lt (hlt : addr.toNat < base.toNat) (hwrap : base.toNat + n ≤ 256) :
    Outside addr base n := by
  intro i hi h
  have hnat := congrArg UInt8.toNat h
  rw [UInt8.toNat_add, UInt8.toNat_ofNat', Nat.mod_eq_of_lt (show i < 2 ^ 8 by omega),
    Nat.mod_eq_of_lt (by omega)] at hnat
  omega

/-- An address past the end of a block lies outside it. -/
theorem outside_of_le (hle : base.toNat + n ≤ addr.toNat) : Outside addr base n := by
  intro i hi h
  have haddr := addr.toNat_lt
  have hnat := congrArg UInt8.toNat h
  rw [UInt8.toNat_add, UInt8.toNat_ofNat', Nat.mod_eq_of_lt (show i < 2 ^ 8 by omega),
    Nat.mod_eq_of_lt (by omega)] at hnat
  omega

/-! ### Writing a list of bytes -/

/-- Write bytes to consecutive addresses, the first at offset `i`. -/
def writeFrom (m : Memory) (base : UInt8) (i : ℕ) : List UInt8 → Memory
  | [] => m
  | b :: rest => writeFrom (writeByte m (base + UInt8.ofNat i) b) base (i + 1) rest

/-- An address that is not written keeps its byte. -/
theorem writeFrom_of_ne {i : ℕ} (h : ∀ k < data.length, addr ≠ base + UInt8.ofNat (i + k)) :
    writeFrom m base i data addr = m addr := by
  induction data generalizing m i with
  | nil => rfl
  | cons b rest ih =>
    have hfirst : addr ≠ base + UInt8.ofNat i := h 0 (Nat.zero_lt_succ _)
    have hrest : ∀ k < rest.length, addr ≠ base + UInt8.ofNat (i + 1 + k) := by
      intro k hk
      rw [Nat.add_assoc, Nat.add_comm 1]
      exact h (k + 1) (Nat.succ_lt_succ hk)
    rw [writeFrom, ih hrest, writeByte, Function.update_of_ne hfirst]

/-- A written address holds its byte: later ones do not wrap around to it. -/
theorem writeFrom_apply {i k : ℕ} (hk : k < data.length) (hwrap : i + data.length ≤ 256) :
    writeFrom m base i data (base + UInt8.ofNat (i + k)) = data.getD k 0 := by
  induction data generalizing m i k with
  | nil => cases hk
  | cons b rest ih =>
    rw [List.length_cons] at hk hwrap
    rw [writeFrom]
    cases k with
    | zero =>
      rw [writeFrom_of_ne fun k hk => add_ofNat_ne (by omega) (by omega), writeByte,
        Nat.add_zero, Function.update_self, List.getD_cons_zero]
    | succ k =>
      have hih := ih (m := writeByte m (base + UInt8.ofNat i) b) (i := i + 1) (k := k)
        (by omega) (by omega)
      rw [List.getD_cons_succ, ← hih, Nat.add_assoc, Nat.add_comm 1]

/-- **A block of which the first bytes are written** reads as these bytes, followed by what was
there before. -/
theorem readBytes_writeFrom (hn : data.length ≤ n) (hwrap : n ≤ 256) :
    readBytes (writeFrom m base 0 data) base n = data ++ (readBytes m base n).drop data.length := by
  refine List.ext_getElem ?_ fun i hi _ => ?_
  · simp only [length_readBytes, List.length_append, List.length_drop]
    omega
  · rw [length_readBytes] at hi
    simp only [readBytes, List.getElem_map, List.getElem_range]
    by_cases hdata : i < data.length
    · have happly : writeFrom m base 0 data (base + UInt8.ofNat (0 + i)) = data.getD i 0 :=
        writeFrom_apply hdata (by omega)
      rw [Nat.zero_add] at happly
      rw [happly, List.getElem_append_left hdata, List.getD, List.getElem?_eq_getElem hdata,
        Option.getD_some]
    · rw [List.getElem_append_right (by omega), List.getElem_drop, List.getElem_map,
        List.getElem_range, writeFrom_of_ne fun k hk => ?_]
      · congr 3
        omega
      · rw [Nat.zero_add]
        exact (add_ofNat_ne (by omega) (by omega)).symm

/-- **Bytes written outside a block** do not change what is read. -/
theorem readBytes_writeFrom_of_outside {base' : UInt8} {i : ℕ}
    (h : ∀ k < data.length, Outside (base + UInt8.ofNat (i + k)) base' n) :
    readBytes (writeFrom m base i data) base' n = readBytes m base' n := by
  refine List.map_congr_left fun j hj => writeFrom_of_ne fun k hk => ?_
  exact (h k hk j (List.mem_range.mp hj)).symm

end Foundation
