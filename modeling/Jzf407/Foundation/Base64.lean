import Jzf407.Foundation.Text

/-!
# Padded base64

The encoding of byte strings by an `alphabet` of 64 letters, three bytes to four
letters with `=` padding (`encode`), and its decoder (`decode`). The groups are given
arithmetically: a byte splits at `/ 4`, `/ 16` or `/ 64` into the six-bit numbers it
contributes to, and `letter` and `value` go between a number and its letter.

`decode` is as strict as it can be: it takes four letters at a time, and padding in the last
group only, so `decode_encode`, the round trip, needs no side condition. It goes by the recursion
of `encode`, with one case for each length of the last group; all that it asks of the numbers is
that they are put together again from their parts, which is linear arithmetic.

`encode_injective` and `length_encode` follow from the round trip and from the recursion. They are
what a comparison of two encoded strings needs: equal codes come from equal byte strings, and the
length of a code, `4 * ((n + 2) / 3)`, says which byte strings still fit a buffer once they are
encoded.
-/

namespace Foundation

namespace Base64

/-- The 64 letters, in the order of their values. -/
def alphabet : Str := "ABCDEFGHIJKLMNOPQRSTUVWXYZabcdefghijklmnopqrstuvwxyz0123456789+/".toList

/-- The letter of a six-bit number. -/
def letter (n : ℕ) : Char := alphabet.getD n '='

/-- The number of a letter. -/
def value (c : Char) : Option ℕ := alphabet.idxOf? c

/-- The padded encoding, three bytes at a time. -/
def encode : List UInt8 → Str
  | [] => []
  | [a] => [letter (a.toNat / 4), letter (a.toNat % 4 * 16), '=', '=']
  | [a, b] =>
      [letter (a.toNat / 4), letter (a.toNat % 4 * 16 + b.toNat / 16),
        letter (b.toNat % 16 * 4), '=']
  | a :: b :: c :: rest =>
      letter (a.toNat / 4) :: letter (a.toNat % 4 * 16 + b.toNat / 16) ::
        letter (b.toNat % 16 * 4 + c.toNat / 64) :: letter (c.toNat % 64) :: encode rest

/-- The decoder: four letters at a time, padding only in the last group. -/
def decode : Str → Option (List UInt8)
  | [] => some []
  | p :: q :: r :: t :: rest => do
      let x ← value p
      let y ← value q
      if r = '=' ∧ t = '=' ∧ rest = [] then
        return [UInt8.ofNat (x * 4 + y / 16)]
      let z ← value r
      if t = '=' ∧ rest = [] then
        return [UInt8.ofNat (x * 4 + y / 16), UInt8.ofNat (y % 16 * 16 + z / 4)]
      let w ← value t
      let tail ← decode rest
      return UInt8.ofNat (x * 4 + y / 16) :: UInt8.ofNat (y % 16 * 16 + z / 4) ::
        UInt8.ofNat (z % 4 * 64 + w) :: tail
  | _ => none

/-! ### Letters -/

private theorem value_letter_check : ∀ n < 64, value (letter n) = some n := by decide +kernel

theorem value_letter {n : ℕ} (h : n < 64) : value (letter n) = some n :=
  value_letter_check n h

private theorem letter_ne_pad_check : ∀ n < 64, letter n ≠ '=' := by decide +kernel

theorem letter_ne_pad {n : ℕ} (h : n < 64) : letter n ≠ '=' := letter_ne_pad_check n h

/-! ### Round trip -/

private theorem ofNat_eq_of_toNat {a : UInt8} {n : ℕ} (h : n = a.toNat) : UInt8.ofNat n = a := by
  rw [h, UInt8.ofNat_toNat]

/-- **Round trip**: decoding an encoded byte string gives it back. -/
theorem decode_encode (l : List UInt8) : decode (encode l) = some l := by
  induction l using encode.induct with
  | case1 => rfl
  | case2 a =>
    have ha := a.toNat_lt
    simp only [encode, decode]
    rw [value_letter (by omega), value_letter (by omega)]
    simp only [Option.bind_eq_bind, Option.bind_some, and_self, if_true, Option.pure_def]
    rw [ofNat_eq_of_toNat (a := a) (by omega)]
  | case3 a b =>
    have ha := a.toNat_lt
    have hb := b.toNat_lt
    have hr : letter (b.toNat % 16 * 4) ≠ '=' := letter_ne_pad (by omega)
    simp only [encode, decode]
    rw [value_letter (by omega), value_letter (by omega), value_letter (by omega)]
    simp only [Option.bind_eq_bind, Option.bind_some, hr, false_and, if_false, and_self,
      if_true, Option.pure_def]
    rw [ofNat_eq_of_toNat (a := a) (by omega), ofNat_eq_of_toNat (a := b) (by omega)]
  | case4 a b c rest ih =>
    have ha := a.toNat_lt
    have hb := b.toNat_lt
    have hc := c.toNat_lt
    have hr : letter (b.toNat % 16 * 4 + c.toNat / 64) ≠ '=' := letter_ne_pad (by omega)
    have ht : letter (c.toNat % 64) ≠ '=' := letter_ne_pad (by omega)
    simp only [encode, decode]
    rw [value_letter (by omega), value_letter (by omega), value_letter (by omega),
      value_letter (by omega), ih]
    simp only [Option.bind_eq_bind, Option.bind_some, hr, ht, false_and, if_false,
      Option.pure_def]
    rw [ofNat_eq_of_toNat (a := a) (by omega), ofNat_eq_of_toNat (a := b) (by omega),
      ofNat_eq_of_toNat (a := c) (by omega)]

theorem encode_injective {l m : List UInt8} (h : encode l = encode m) : l = m := by
  have hdec := congrArg decode h
  rw [decode_encode, decode_encode] at hdec
  exact Option.some.inj hdec

theorem length_encode (l : List UInt8) : (encode l).length = 4 * ((l.length + 2) / 3) := by
  induction l using encode.induct with
  | case1 => rfl
  | case2 a => simp [encode]
  | case3 a b => simp [encode]
  | case4 a b c rest ih =>
    simp only [encode, List.length_cons, ih]
    omega

/-! ### Encoded text is ASCII -/

private theorem utf8Size_letter_check : ∀ n < 64, (letter n).utf8Size = 1 := by
  decide +kernel

theorem utf8Size_of_mem_encode {l : List UInt8} {c : Char} (h : c ∈ encode l) :
    c.utf8Size = 1 := by
  induction l using encode.induct with
  | case1 => simp [encode] at h
  | case2 a =>
    have ha := a.toNat_lt
    simp only [encode, List.mem_cons, List.not_mem_nil, or_false] at h
    rcases h with rfl | rfl | rfl | rfl
    · exact utf8Size_letter_check _ (by omega)
    · exact utf8Size_letter_check _ (by omega)
    all_goals decide
  | case3 a b =>
    have ha := a.toNat_lt
    have hb := b.toNat_lt
    simp only [encode, List.mem_cons, List.not_mem_nil, or_false] at h
    rcases h with rfl | rfl | rfl | rfl
    · exact utf8Size_letter_check _ (by omega)
    · exact utf8Size_letter_check _ (by omega)
    · exact utf8Size_letter_check _ (by omega)
    · decide
  | case4 a b c' rest ih =>
    have ha := a.toNat_lt
    have hb := b.toNat_lt
    have hc := c'.toNat_lt
    simp only [encode, List.mem_cons] at h
    rcases h with rfl | rfl | rfl | rfl | h
    · exact utf8Size_letter_check _ (by omega)
    · exact utf8Size_letter_check _ (by omega)
    · exact utf8Size_letter_check _ (by omega)
    · exact utf8Size_letter_check _ (by omega)
    · exact ih h

end Base64

end Foundation
