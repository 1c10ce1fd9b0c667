import Jzf407.Foundation.Text
import Mathlib.Data.List.TakeWhile

/-!
# Fixed-layout byte records

A record is a byte list written field by field into a zeroed buffer (`copyAt`) and read back
by offset (`slice`). When the fields are written in order, each write extends the finished
part of the record by the gap before the field and the field itself
(`copyAt_append_zeros`), so the record is the concatenation of its padded fields, and a
field of a concatenation is found at the offset of its length (`slice_append`).

A text slot of fixed length (`slot`) is NUL-terminated unless it is full. `beforeNul` is its
content, and `beforeNul_append_zeros` the round trip through a padded slot, which asks only that
the text has no NUL itself.

A record may also be looked at byte by byte, which is how a record is compared with another that
was written over it in part: `slice_eq_map_getD` for a slice, `getD_torn` for the record that
consists of the first bytes of one and the last bytes of another, and `beforeNul_eq_iff` for the
texts of two slots. These are equal exactly when the slots agree up to the first NUL of one of
them; what stands after it is never read.
-/

namespace Foundation

/-- Overwrite the bytes of `b` from offset `off` with `data`. -/
def copyAt (b : List UInt8) (off : ℕ) (data : List UInt8) : List UInt8 :=
  b.take off ++ data ++ b.drop (off + data.length)

/-- The bytes of `b` from offset `i` up to offset `j`. -/
def slice (b : List UInt8) (i j : ℕ) : List UInt8 := (b.take j).drop i

/-- `n` zero bytes. -/
def zeros (n : ℕ) : List UInt8 := List.replicate n 0

@[simp]
theorem length_zeros (n : ℕ) : (zeros n).length = n := List.length_replicate

/-- A text slot of `n` bytes holding `data`. -/
def slot (n : ℕ) (data : List UInt8) : List UInt8 := data ++ zeros (n - data.length)

theorem length_slot {n : ℕ} {data : List UInt8} (h : data.length ≤ n) :
    (slot n data).length = n := by
  simp only [slot, List.length_append, length_zeros]
  omega

/-- **Writing the next field**: a write past the finished part of a zeroed record leaves the
gap zero and appends the field. -/
theorem copyAt_append_zeros (done data : List UInt8) (gap room' : ℕ) {off room : ℕ}
    (hoff : off = done.length + gap) (hroom : room = gap + data.length + room') :
    copyAt (done ++ zeros room) off data = (done ++ zeros gap ++ data) ++ zeros room' := by
  subst hoff hroom
  have htake : (done ++ zeros (gap + data.length + room')).take (done.length + gap) =
      done ++ zeros gap := by
    rw [List.take_length_add_append, zeros, List.take_replicate, Nat.min_eq_left (by omega),
      zeros]
  have hdrop : (done ++ zeros (gap + data.length + room')).drop
      (done.length + gap + data.length) = zeros room' := by
    rw [Nat.add_assoc, List.drop_length_add_append, zeros, List.drop_replicate, zeros,
      Nat.add_sub_cancel_left]
  rw [copyAt, htake, hdrop]

/-- A field of a concatenation stands at the offset of what precedes it. -/
theorem slice_append (a b c : List UInt8) :
    slice (a ++ (b ++ c)) a.length (a.length + b.length) = b := by
  rw [slice, List.take_length_add_append, List.drop_left, List.take_left]

@[simp]
theorem length_slice (b : List UInt8) (i j : ℕ) : (slice b i j).length = min j b.length - i := by
  simp [slice]

/-- A slice byte by byte. -/
theorem slice_eq_map_getD {b : List UInt8} {i n : ℕ} (h : i + n ≤ b.length) :
    slice b i (i + n) = (List.range n).map fun k => b.getD (i + k) 0 := by
  refine List.ext_getElem ?_ fun k hk _ => ?_
  · simp only [length_slice, List.length_map, List.length_range]
    omega
  · have hlen : i + k < b.length := by
      rw [length_slice] at hk
      omega
    simp only [slice, List.getElem_drop, List.getElem_take, List.getElem_map,
      List.getElem_range]
    rw [List.getD, List.getElem?_eq_getElem hlen, Option.getD_some]

/-- A torn record byte by byte. -/
theorem getD_torn {new old : List UInt8} {n : ℕ} (hnew : n ≤ new.length) (i : ℕ) :
    (new.take n ++ old.drop n).getD i 0 = if i < n then new.getD i 0 else old.getD i 0 := by
  have hlen : (new.take n).length = n := by
    rw [List.length_take, Nat.min_eq_left hnew]
  by_cases hi : i < n
  · rw [if_pos hi, List.getD, List.getElem?_append_left (by omega),
      List.getElem?_take_of_lt hi, List.getD]
  · rw [if_neg hi, List.getD, List.getElem?_append_right (by omega), hlen, List.getElem?_drop,
      Nat.add_sub_cancel' (Nat.not_lt.mp hi), List.getD]

/-! ### NUL-terminated slots -/

/-- The content of a slot: its bytes before the first NUL, all of them if there is none. -/
def beforeNul (b : List UInt8) : List UInt8 :=
  b.take ((b.findIdx? (· == 0)).getD b.length)

theorem beforeNul_eq_takeWhile (b : List UInt8) : beforeNul b = b.takeWhile (· != 0) := by
  induction b with
  | nil => rfl
  | cons x b ih =>
    unfold beforeNul at ih ⊢
    rw [List.findIdx?_cons]
    by_cases hx : x = 0
    · subst hx
      simp
    · have hx' : (x == 0) = false := by simpa using hx
      simp only [hx', Bool.false_eq_true, if_false, List.takeWhile_cons, bne, Bool.not_false,
        if_true]
      rw [← show (fun y : UInt8 => y != 0) = fun y => !(y == 0) from rfl, ← ih]
      cases List.findIdx? (fun y => y == 0) b <;> simp

theorem nul_notMem_beforeNul (b : List UInt8) : (0 : UInt8) ∉ beforeNul b := by
  rw [beforeNul_eq_takeWhile]
  intro h
  simpa using List.mem_takeWhile_imp h

/-- **A NUL-free text in a slot** is read back whole, also when it fills the slot. -/
theorem beforeNul_append_zeros {data : List UInt8} (h : (0 : UInt8) ∉ data) (n : ℕ) :
    beforeNul (data ++ zeros n) = data := by
  rw [beforeNul_eq_takeWhile]
  induction data with
  | nil => cases n <;> simp [zeros, List.replicate_succ]
  | cons x data ih =>
    obtain ⟨hx, hdata⟩ := not_or.mp fun hor => h (List.mem_cons.mpr hor)
    have hx' : (x != 0) = true := by simpa using fun he => hx he.symm
    rw [List.cons_append, List.takeWhile_cons, if_pos hx', ih hdata]

theorem beforeNul_slot {n : ℕ} {data : List UInt8} (h : (0 : UInt8) ∉ data) :
    beforeNul (slot n data) = data :=
  beforeNul_append_zeros h _

/-- **Texts of slots, byte by byte**: two slots of one length hold the same text exactly when they
agree up to the first NUL of one of them. -/
theorem beforeNul_eq_iff {a b : List UInt8} (h : a.length = b.length) :
    beforeNul a = beforeNul b ↔
      ∀ k < b.length, (∀ m < k, b.getD m 0 ≠ 0) → a.getD k 0 = b.getD k 0 := by
  induction b generalizing a with
  | nil =>
    obtain rfl := List.eq_nil_of_length_eq_zero h
    simp
  | cons y b ih =>
    obtain ⟨x, a, rfl⟩ := List.exists_cons_of_length_eq_add_one h
    have hrest := ih (Nat.succ.inj h)
    rw [beforeNul_eq_takeWhile, beforeNul_eq_takeWhile] at hrest ⊢
    rw [List.length_cons, Nat.forall_lt_succ_left]
    simp only [List.getD_cons_zero, List.getD_cons_succ, Nat.forall_lt_succ_left,
      Nat.not_lt_zero, false_implies, implies_true, forall_const]
    by_cases hy : y = 0
    · -- the text of the second slot is over
      simp [hy]
    · by_cases hx : x = 0
      · simp [hx, hy, Ne.symm hy]
      · simp [hx, hy, hrest]

theorem getD_slice {b : List UInt8} {i j k : ℕ} (hk : k < j - i) :
    (slice b i j).getD k 0 = b.getD (i + k) 0 := by
  rw [slice, List.getD, List.getElem?_drop, List.getElem?_take_of_lt (by omega), List.getD]

/-- The same for the slots of two records. -/
theorem beforeNul_slice_eq_iff {a b : List UInt8} {i j : ℕ} (ha : j ≤ a.length)
    (hb : j ≤ b.length) :
    beforeNul (slice a i j) = beforeNul (slice b i j) ↔
      ∀ k, i ≤ k → k < j → (∀ m, i ≤ m → m < k → b.getD m 0 ≠ 0) → a.getD k 0 = b.getD k 0 := by
  have hlen : (slice b i j).length = j - i := by rw [length_slice, Nat.min_eq_left hb]
  have hsame : (slice a i j).length = (slice b i j).length := by
    rw [hlen, length_slice, Nat.min_eq_left ha]
  rw [beforeNul_eq_iff hsame, hlen]
  constructor
  · intro h k hik hkj hbefore
    obtain ⟨k, rfl⟩ := Nat.exists_eq_add_of_le hik
    have hk : k < j - i := by omega
    rw [← getD_slice hk, ← getD_slice hk]
    refine h k hk fun m hm => ?_
    rw [getD_slice (by omega)]
    exact hbefore (i + m) (by omega) (by omega)
  · intro h k hk hbefore
    rw [getD_slice hk, getD_slice hk]
    refine h (i + k) (by omega) (by omega) fun m him hmk => ?_
    obtain ⟨m, rfl⟩ := Nat.exists_eq_add_of_le him
    have hm : m < j - i := by omega
    rw [← getD_slice hm]
    exact hbefore m (by omega)

end Foundation
