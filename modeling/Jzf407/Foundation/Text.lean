import Mathlib.Algebra.Order.Ring.Nat
import Mathlib.Data.List.Basic
import Mathlib.Tactic.Common

/-!
# Text as scalar values, measured in bytes

A text slice is a list of Unicode scalar values (`Str`), and its bytes are the UTF-8
encodings of these values in order (`asBytes`). Core supplies the decoder (`fromUtf8`); the bridge
proved here is `fromUtf8_eq_some_iff`: a byte list decodes to `s` exactly when it *is* the
encoding of `s`, so the two views may be exchanged freely. `ValidUtf8` asks only that there is such
a text.

Encodings are self-synchronizing: an encoded character stands in an encoded text only where that
character begins (`exists_split_of_asBytes`). So a search for an encoded text among bytes finds it
at a place where the text itself occurs (`exists_append_of_asBytes_append`).

Offsets into a slice are byte offsets, and `byteLen` is the length that they count to.
`splitAtByte s n` cuts `s` at byte `n` and is `none` when `n` is past the end or lies inside the
encoding of a character; `sliceTo` and `sliceFrom` are the slicing operators, which panic in exactly
these two cases (`Panic`). The characterization `splitAtByte_eq_some_iff` says that the cut is the
decomposition of `s` whose left part measures `n` bytes. Nothing else about a slice is needed
later: a cut is always found by naming its two parts.
-/

namespace Foundation

/-- A text slice: its Unicode scalar values in order. -/
abbrev Str := List Char

/-! ### Bytes of a text -/

/-- A property of the 256 bytes, checked one by one. -/
theorem forall_byte {P : UInt8 → Prop} [DecidablePred P]
    (h : ((List.range 256).all fun n => decide (P (UInt8.ofNat n))) = true) (b : UInt8) : P b := by
  have hb := List.all_eq_true.mp h b.toNat (List.mem_range.mpr b.toNat_lt)
  rw [UInt8.ofNat_toNat] at hb
  exact of_decide_eq_true hb

/-- The UTF-8 bytes of a text. -/
def asBytes (s : Str) : List UInt8 := s.flatMap String.utf8EncodeChar

/-- The length of a text in bytes. -/
def byteLen (s : Str) : ℕ := (s.map Char.utf8Size).sum

@[simp]
theorem asBytes_nil : asBytes [] = [] := rfl

@[simp]
theorem asBytes_cons (c : Char) (s : Str) :
    asBytes (c :: s) = String.utf8EncodeChar c ++ asBytes s := by
  simp [asBytes]

@[simp]
theorem asBytes_append (s t : Str) : asBytes (s ++ t) = asBytes s ++ asBytes t := by
  simp [asBytes]

@[simp]
theorem byteLen_nil : byteLen [] = 0 := rfl

@[simp]
theorem byteLen_cons (c : Char) (s : Str) : byteLen (c :: s) = c.utf8Size + byteLen s := by
  simp [byteLen]

@[simp]
theorem byteLen_append (s t : Str) : byteLen (s ++ t) = byteLen s + byteLen t := by
  simp [byteLen]

@[simp]
theorem length_asBytes (s : Str) : (asBytes s).length = byteLen s := by
  induction s with
  | nil => rfl
  | cons c s ih => simp [ih]

theorem byteLen_eq_zero {s : Str} : byteLen s = 0 ↔ s = [] := by
  cases s with
  | nil => simp
  | cons c s =>
    have := c.utf8Size_pos
    simp only [byteLen_cons, reduceCtorEq, iff_false]
    omega

/-- One-byte characters are counted by the length of the text. -/
theorem byteLen_of_ascii {s : Str} (h : ∀ c ∈ s, c.utf8Size = 1) : byteLen s = s.length := by
  induction s with
  | nil => rfl
  | cons c s ih =>
    rw [byteLen_cons, h c List.mem_cons_self, ih fun d hd => h d (List.mem_cons_of_mem c hd),
      List.length_cons, Nat.add_comm]

/-- A text of ASCII characters. -/
def Ascii (s : Str) : Prop := ∀ c ∈ s, c.toNat < 128

instance (s : Str) : Decidable (Ascii s) :=
  decidable_of_iff (s.all (fun c => decide (c.toNat < 128)) = true) <| by simp [Ascii]

theorem Ascii.utf8Size {s : Str} (h : Ascii s) {c : Char} (hc : c ∈ s) : c.utf8Size = 1 := by
  rw [Char.utf8Size_eq_one_iff]
  exact UInt32.le_iff_toNat_le.mpr (Nat.le_of_lt_succ (h c hc))

/-- Decode a byte list; `none` when it is not valid UTF-8. -/
def fromUtf8 (b : List UInt8) : Option Str :=
  b.toByteArray.utf8Decode?.map Array.toList

private theorem toByteArray_asBytes (s : Str) : (asBytes s).toByteArray = s.utf8Encode := by
  simp [asBytes, List.utf8Encode]

private theorem toByteArray_injective {a b : List UInt8}
    (h : a.toByteArray = b.toByteArray) : a = b := by
  have hdata := congrArg (fun x : ByteArray => x.data.toList) h
  simpa using hdata

@[simp]
theorem fromUtf8_asBytes (s : Str) : fromUtf8 (asBytes s) = some s := by
  rw [fromUtf8, toByteArray_asBytes, List.utf8Decode?_utf8Encode]
  rfl

/-- **Decoding inverts encoding, exactly**: a byte list decodes to `s` iff it is the
encoding of `s`. -/
theorem fromUtf8_eq_some_iff {b : List UInt8} {s : Str} :
    fromUtf8 b = some s ↔ asBytes s = b := by
  constructor
  · intro h
    obtain ⟨a, ha, hs⟩ := Option.map_eq_some_iff.mp h
    have hsome : b.toByteArray.utf8Decode?.isSome := by simp [ha]
    have hget : b.toByteArray.utf8Decode?.get hsome = a := by simp [ha]
    have henc := ByteArray.utf8Encode_get_utf8Decode? (b := b.toByteArray) (h := hsome)
    rw [hget, hs, ← toByteArray_asBytes] at henc
    exact toByteArray_injective henc
  · rintro rfl
    exact fromUtf8_asBytes s

/-- The bytes are valid UTF-8. -/
def ValidUtf8 (b : List UInt8) : Prop := ∃ s, asBytes s = b

theorem validUtf8_iff {b : List UInt8} : ValidUtf8 b ↔ (fromUtf8 b).isSome := by
  rw [Option.isSome_iff_exists]
  exact exists_congr fun _ => fromUtf8_eq_some_iff.symm

instance (b : List UInt8) : Decidable (ValidUtf8 b) := decidable_of_iff _ validUtf8_iff.symm

theorem asBytes_injective {s t : Str} (h : asBytes s = asBytes t) : s = t := by
  have := fromUtf8_asBytes s
  rw [h, fromUtf8_asBytes] at this
  exact (Option.some.inj this).symm

/-- A text whose bytes begin the bytes of another text begins that text. -/
theorem prefix_of_asBytes_append {s t : Str} {r : List UInt8}
    (h : asBytes s ++ r = asBytes t) : s <+: t := by
  refine List.isPrefix_of_utf8Encode_append_eq_utf8Encode r.toByteArray ?_
  rw [← toByteArray_asBytes, ← toByteArray_asBytes, ← h, List.toByteArray_append]

/-- **Encodings are self-synchronizing**: bytes that begin with the encoding of a character
begin at a character of the text they stand in. -/
theorem exists_split_of_asBytes {s : Str} {c : Char} {x y : List UInt8}
    (h : asBytes s = x ++ (String.utf8EncodeChar c ++ y)) :
    ∃ s₁ s₂, s = s₁ ++ s₂ ∧ asBytes s₁ = x ∧ asBytes s₂ = String.utf8EncodeChar c ++ y := by
  induction s generalizing x with
  | nil =>
    have hlen := congrArg List.length h
    have := c.utf8Size_pos
    simp at hlen
    omega
  | cons d s ih =>
    rw [asBytes_cons] at h
    by_cases hx : x = []
    · subst hx
      exact ⟨[], d :: s, rfl, rfl, by rw [asBytes_cons, h, List.nil_append]⟩
    by_cases hlen : (String.utf8EncodeChar d).length ≤ x.length
    · -- the first character lies before `c`: take its bytes off both sides
      obtain ⟨x', rfl⟩ : ∃ x', x = String.utf8EncodeChar d ++ x' := by
        refine ⟨x.drop (String.utf8EncodeChar d).length, ?_⟩
        have htake := congrArg (List.take (String.utf8EncodeChar d).length) h
        rw [List.take_left, List.take_append_of_le_length hlen] at htake
        rw [htake, List.length_take, Nat.min_eq_left hlen, List.take_append_drop]
      rw [List.append_assoc, List.append_cancel_left_eq] at h
      obtain ⟨s₁, s₂, rfl, hs₁, hs₂⟩ := ih h
      exact ⟨d :: s₁, s₂, rfl, by rw [asBytes_cons, hs₁], hs₂⟩
    · -- the first byte of `c` would be a later byte of `d`
      exfalso
      have hpos : 0 < x.length := List.length_pos_iff.mpr hx
      have hcpos : 0 < (String.utf8EncodeChar c).length := by
        rw [String.length_utf8EncodeChar]
        exact c.utf8Size_pos
      have hget : (String.utf8EncodeChar d)[x.length] = (String.utf8EncodeChar c)[0] := by
        have hl : (String.utf8EncodeChar d ++ asBytes s)[x.length]? =
            (String.utf8EncodeChar c)[0]? := by
          rw [h, List.getElem?_append_right (Nat.le_refl _), Nat.sub_self,
            List.getElem?_append_left hcpos]
        rw [List.getElem?_append_left (by omega), List.getElem?_eq_getElem (by omega),
          List.getElem?_eq_getElem hcpos] at hl
        exact Option.some.inj hl
      have hfirst : ((String.utf8EncodeChar d)[x.length]).IsUTF8FirstByte := by
        rw [hget]
        exact UInt8.isUTF8FirstByte_getElem_utf8EncodeChar.mpr rfl
      have := UInt8.isUTF8FirstByte_getElem_utf8EncodeChar.mp hfirst
      omega

/-- A text whose bytes occur among the bytes of another text occurs in that text. -/
theorem exists_append_of_asBytes_append {s pat : Str} {x y : List UInt8} (hpat : pat ≠ [])
    (h : asBytes s = x ++ (asBytes pat ++ y)) :
    ∃ s₁ s₂, s = s₁ ++ (pat ++ s₂) ∧ asBytes s₁ = x ∧ asBytes s₂ = y := by
  obtain ⟨c, pat', rfl⟩ := List.exists_cons_of_ne_nil hpat
  rw [asBytes_cons, List.append_assoc] at h
  obtain ⟨s₁, s₂, rfl, hs₁, hs₂⟩ := exists_split_of_asBytes h
  rw [← List.append_assoc, ← asBytes_cons] at hs₂
  obtain ⟨s₃, rfl⟩ := prefix_of_asBytes_append hs₂.symm
  rw [asBytes_append, List.append_cancel_left_eq] at hs₂
  exact ⟨s₁, s₃, rfl, hs₁, hs₂⟩

/-! ### Cutting at a byte offset -/

/-- Cut a text at byte offset `n`; `none` when `n` is not on a character boundary of it. -/
def splitAtByte : Str → ℕ → Option (Str × Str)
  | s, 0 => some ([], s)
  | [], _ + 1 => none
  | c :: s, n + 1 =>
      if c.utf8Size ≤ n + 1 then
        (splitAtByte s (n + 1 - c.utf8Size)).map fun p => (c :: p.1, p.2)
      else none

/-- **The cut at byte `n`** is the decomposition whose left part measures `n` bytes. -/
theorem splitAtByte_eq_some_iff {s a b : Str} {n : ℕ} :
    splitAtByte s n = some (a, b) ↔ s = a ++ b ∧ byteLen a = n := by
  induction s generalizing a b n with
  | nil =>
    cases n with
    | zero =>
      simp only [splitAtByte, Option.some.injEq, Prod.mk.injEq, byteLen_eq_zero]
      constructor
      · rintro ⟨rfl, rfl⟩
        simp
      · rintro ⟨h, rfl⟩
        exact ⟨rfl, by simpa using h⟩
    -- nothing is left to cut from
    | succ n =>
      simp only [splitAtByte, reduceCtorEq, false_iff, not_and]
      intro h
      obtain ⟨rfl, rfl⟩ : a = [] ∧ b = [] := by simpa using h.symm
      simp
  | cons c s ih =>
    cases n with
    | zero =>
      simp only [splitAtByte, Option.some.injEq, Prod.mk.injEq, byteLen_eq_zero]
      constructor
      · rintro ⟨rfl, rfl⟩
        simp
      · rintro ⟨h, rfl⟩
        exact ⟨rfl, by simpa using h⟩
    | succ n =>
      -- the cut is behind the first character, and so in the rest at an offset that is smaller
      have hpos := c.utf8Size_pos
      constructor
      · intro h
        rw [splitAtByte] at h
        split at h
        · obtain ⟨⟨a', b'⟩, hcut, hab⟩ := Option.map_eq_some_iff.mp h
          obtain ⟨rfl, rfl⟩ := Prod.mk.injEq .. ▸ hab
          obtain ⟨rfl, hlen⟩ := ih.mp hcut
          refine ⟨rfl, ?_⟩
          simp only [byteLen_cons] at hlen ⊢
          omega
        · cases h
      · rintro ⟨h, hlen⟩
        cases a with
        | nil => simp at hlen
        | cons d a =>
          obtain ⟨rfl, rfl⟩ : c = d ∧ s = a ++ b := by simpa using h
          rw [byteLen_cons] at hlen
          rw [splitAtByte, if_pos (by omega), ih.mpr ⟨rfl, by omega⟩]
          rfl

/-- Whether byte offset `n` is a character boundary of `s` (its end included). -/
def isCharBoundary (s : Str) (n : ℕ) : Bool := (splitAtByte s n).isSome

/-- What stops a slice: the offset is out of range or inside a character. -/
inductive Panic
  | slice (index : ℕ)
  deriving DecidableEq, Repr

/-- The slice up to byte `n`. -/
def sliceTo (s : Str) (n : ℕ) : Except Panic Str :=
  match splitAtByte s n with
  | some (a, _) => .ok a
  | none => .error (.slice n)

/-- The slice from byte `n` on. -/
def sliceFrom (s : Str) (n : ℕ) : Except Panic Str :=
  match splitAtByte s n with
  | some (_, b) => .ok b
  | none => .error (.slice n)

@[simp]
theorem sliceTo_append (a b : Str) : sliceTo (a ++ b) (byteLen a) = .ok a := by
  rw [sliceTo, splitAtByte_eq_some_iff.mpr ⟨rfl, rfl⟩]

@[simp]
theorem sliceFrom_append (a b : Str) : sliceFrom (a ++ b) (byteLen a) = .ok b := by
  rw [sliceFrom, splitAtByte_eq_some_iff.mpr ⟨rfl, rfl⟩]

theorem exists_split_of_isCharBoundary {s : Str} {n : ℕ} (h : isCharBoundary s n = true) :
    ∃ a b, s = a ++ b ∧ byteLen a = n := by
  obtain ⟨⟨a, b⟩, hab⟩ := Option.isSome_iff_exists.mp h
  exact ⟨a, b, splitAtByte_eq_some_iff.mp hab⟩

theorem sliceTo_of_not_isCharBoundary {s : Str} {n : ℕ} (h : isCharBoundary s n = false) :
    sliceTo s n = .error (.slice n) := by
  rw [sliceTo, Option.not_isSome_iff_eq_none.mp (Bool.eq_false_iff.mp h)]

end Foundation
