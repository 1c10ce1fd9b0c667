import Jzf407.Logic.WebForm

/-!
# What a form value stands for

`Decodes` reads an encoded value from the left: a plus sign is a space, a percent sign takes
the two hexadecimal digits after it (`HexDigit`), any other byte is itself. The decoder of
`web_form.rs` returns exactly the texts whose bytes are read in this way, fit its buffer and contain
no NUL (`formUrlDecode_spec`).

`Decodes` is an inductive relation with one rule for each kind of item, in terms of the value and
not of the loop. That it agrees with the loop is `decodes_iff`, by the recursion of `decodeBytes`;
a percent sign without two digits has no rule and so nothing it decodes to. A value is read in one
way at most (`Decodes.unique`).

A byte can be encoded in several ways (`ByteEncoding`): as itself, unless it is a percent or plus
sign, as an escape with digits of either case, and a space as a plus sign. A text can be encoded
by any mixture of them, byte by byte, and all of them are read as the text (`decodes_flatten`).
What a browser sends for a text is one of these mixtures.
-/

namespace Jzf407

open Foundation

/-- The hexadecimal digits in order, in lower case. -/
def lowerHex : List UInt8 := "0123456789abcdef".toList.map Char.toUInt8

/-- The hexadecimal digits in order, in upper case. -/
def upperHex : List UInt8 := "0123456789ABCDEF".toList.map Char.toUInt8

/-- The byte is the hexadecimal digit of value `v`, in either case. -/
def HexDigit (c : UInt8) (v : ℕ) : Prop := lowerHex[v]? = some c ∨ upperHex[v]? = some c

instance (c : UInt8) (v : ℕ) : Decidable (HexDigit c v) := inferInstanceAs (Decidable (_ ∨ _))

/-- **Reading an encoded value** from the left. -/
inductive Decodes : List UInt8 → List UInt8 → Prop
  | nil : Decodes [] []
  | literal {b : UInt8} {s d : List UInt8} (hplus : b ≠ '+'.toUInt8) (hpercent : b ≠ '%'.toUInt8)
      (hrest : Decodes s d) : Decodes (b :: s) (b :: d)
  | plus {s d : List UInt8} (hrest : Decodes s d) : Decodes ('+'.toUInt8 :: s) (' '.toUInt8 :: d)
  | percent {hi lo : UInt8} {x y : ℕ} {s d : List UInt8} (hhi : HexDigit hi x)
      (hlo : HexDigit lo y) (hrest : Decodes s d) :
      Decodes ('%'.toUInt8 :: hi :: lo :: s) (UInt8.ofNat (16 * x + y) :: d)

/-- The encodings of one byte. -/
inductive ByteEncoding : UInt8 → List UInt8 → Prop
  | literal {b : UInt8} (hplus : b ≠ '+'.toUInt8) (hpercent : b ≠ '%'.toUInt8) : ByteEncoding b [b]
  | plus : ByteEncoding ' '.toUInt8 ['+'.toUInt8]
  | percent {hi lo : UInt8} {x y : ℕ} (hhi : HexDigit hi x) (hlo : HexDigit lo y) :
      ByteEncoding (UInt8.ofNat (16 * x + y)) ['%'.toUInt8, hi, lo]

/-! ### Hexadecimal digits -/

private theorem hexDigit_check : ∀ c : UInt8,
    ((hexDigit c).all fun v => decide (HexDigit c v.toNat)) = true :=
  forall_byte (by decide +kernel)

private theorem hexDigit_hexDigits_check : ∀ v < 16,
    (lowerHex[v]?).bind hexDigit = some (UInt8.ofNat v) ∧
      (upperHex[v]?).bind hexDigit = some (UInt8.ofNat v) := by
  decide +kernel

theorem HexDigit.lt {c : UInt8} {v : ℕ} (h : HexDigit c v) : v < 16 := by
  rcases h with h | h
  · obtain ⟨hlt, -⟩ := List.getElem?_eq_some_iff.mp h
    exact hlt
  · obtain ⟨hlt, -⟩ := List.getElem?_eq_some_iff.mp h
    exact hlt

/-- A digit is recognised with its value. -/
theorem hexDigit_of_hexDigit {c : UInt8} {v : ℕ} (h : HexDigit c v) :
    hexDigit c = some (UInt8.ofNat v) := by
  obtain ⟨hlower, hupper⟩ := hexDigit_hexDigits_check v h.lt
  rcases h with h | h
  · rwa [h] at hlower
  · rwa [h] at hupper

/-- Nothing else is recognised. -/
theorem HexDigit.of_hexDigit {c v : UInt8} (h : hexDigit c = some v) : HexDigit c v.toNat := by
  have hcheck := hexDigit_check c
  rw [h] at hcheck
  exact of_decide_eq_true hcheck

private theorem join_check : ∀ x < 16, ∀ y < 16,
    (UInt8.ofNat x <<< 4 ||| UInt8.ofNat y) = UInt8.ofNat (16 * x + y) := by
  decide +kernel

/-! ### The decoding loop reads from the left -/

theorem decodeBytes_of_decodes {s d : List UInt8} (h : Decodes s d) : decodeBytes s = some d := by
  induction h with
  | nil => rfl
  | literal hplus hpercent _ ih =>
    rw [decodeBytes.eq_def]
    dsimp only
    rw [if_neg hplus, if_neg hpercent, ih, Option.map_some]
  | plus _ ih =>
    rw [decodeBytes.eq_def]
    dsimp only
    rw [if_pos rfl, ih, Option.map_some]
  | percent hhi hlo _ ih =>
    rw [decodeBytes.eq_def]
    dsimp only
    rw [if_neg (by decide), if_pos rfl]
    simp only [hexDigit_of_hexDigit hhi, hexDigit_of_hexDigit hlo]
    rw [ih, Option.map_some, join_check _ hhi.lt _ hlo.lt]

theorem Decodes.of_decodeBytes {s d : List UInt8} (h : decodeBytes s = some d) : Decodes s d := by
  induction s using decodeBytes.induct generalizing d with
  | case1 =>
    obtain rfl : [] = d := Option.some.inj h
    exact .nil
  -- a plus sign
  | case2 rest ih =>
    rw [decodeBytes.eq_def] at h
    dsimp only at h
    rw [if_pos rfl] at h
    obtain ⟨d, hrest, rfl⟩ := Option.map_eq_some_iff.mp h
    exact .plus (ih hrest)
  -- a percent sign with two digits
  | case3 hi lo rest x y hlo hhi hplus ih =>
    rw [decodeBytes.eq_def] at h
    dsimp only at h
    rw [if_neg hplus, if_pos rfl] at h
    simp only [hhi, hlo] at h
    obtain ⟨d, hrest, rfl⟩ := Option.map_eq_some_iff.mp h
    have hx := HexDigit.of_hexDigit hhi
    have hy := HexDigit.of_hexDigit hlo
    have hjoin := join_check _ hx.lt _ hy.lt
    rw [UInt8.ofNat_toNat, UInt8.ofNat_toNat] at hjoin
    rw [hjoin]
    exact .percent hx hy (ih hrest)
  -- a percent sign with something else: nothing is decoded
  | case4 hi lo rest hbad hplus =>
    rw [decodeBytes.eq_def] at h
    dsimp only at h
    rw [if_neg hplus, if_pos rfl] at h
    rcases hhi : hexDigit hi with - | x <;> rcases hlo : hexDigit lo with - | y
    · simp [hhi] at h
    · simp [hhi] at h
    · simp [hlo] at h
    · exact (hbad x y hhi hlo).elim
  -- a percent sign with less than two bytes after it
  | case5 rest hshort hplus =>
    rw [decodeBytes.eq_def] at h
    dsimp only at h
    rw [if_neg hplus, if_pos rfl] at h
    rcases rest with - | ⟨hi, - | ⟨lo, rest⟩⟩
    · simp at h
    · simp at h
    · exact (hshort hi lo rest rfl).elim
  | case6 byte rest hplus hpercent ih =>
    rw [decodeBytes.eq_def] at h
    dsimp only at h
    rw [if_neg hplus, if_neg hpercent] at h
    obtain ⟨d, hrest, rfl⟩ := Option.map_eq_some_iff.mp h
    exact .literal hplus hpercent (ih hrest)

/-- **The decoder reads from the left.** -/
theorem decodes_iff {s d : List UInt8} : Decodes s d ↔ decodeBytes s = some d :=
  ⟨decodeBytes_of_decodes, .of_decodeBytes⟩

/-- A value is read in one way at most. -/
theorem Decodes.unique {s d d' : List UInt8} (h : Decodes s d) (h' : Decodes s d') : d = d' := by
  rw [decodes_iff] at h h'
  exact Option.some.inj (h.symm.trans h')

/-- An encoding of a byte is read as the byte. -/
theorem ByteEncoding.decodes {b : UInt8} {piece s d : List UInt8} (h : ByteEncoding b piece)
    (hrest : Decodes s d) : Decodes (piece ++ s) (b :: d) := by
  cases h with
  | literal hplus hpercent => exact .literal hplus hpercent hrest
  | plus => exact .plus hrest
  | percent hhi hlo => exact .percent hhi hlo hrest

/-- Any mixture of encodings is read as the bytes encoded. -/
theorem decodes_flatten {d : List UInt8} {pieces : List (List UInt8)}
    (h : List.Forall₂ ByteEncoding d pieces) : Decodes pieces.flatten d := by
  induction h with
  | nil => exact .nil
  | cons hpiece _ ih =>
    rw [List.flatten_cons]
    exact hpiece.decodes ih

/-! ### The decoder -/

/-- **Form decoding**: a value decodes to the text of the bytes it is read as, if these fit the
buffer, contain no NUL and are UTF-8, and is an error otherwise. Every mixture of encodings of
a text without NUL that fits decodes to the text. -/
theorem formUrlDecode_spec (N : ℕ) :
    (∀ s : Str,
      (∀ t : HString N, formUrlDecode N s = .ok t ↔
        ∃ d, Decodes (asBytes s) d ∧ d.length ≤ N ∧ 0 ∉ d ∧ asBytes t.chars = d) ∧
      ((∃ e, formUrlDecode N s = .error e) ↔
        ¬ ∃ d, Decodes (asBytes s) d ∧ d.length ≤ N ∧ 0 ∉ d ∧ ValidUtf8 d)) ∧
    ∀ (t : HString N) (pieces : List (List UInt8)) (s : Str), 0 ∉ asBytes t.chars →
      List.Forall₂ ByteEncoding (asBytes t.chars) pieces → asBytes s = pieces.flatten →
        formUrlDecode N s = .ok t := by
  have hok : ∀ (s : Str) (t : HString N), formUrlDecode N s = .ok t ↔
      ∃ d, Decodes (asBytes s) d ∧ d.length ≤ N ∧ 0 ∉ d ∧ asBytes t.chars = d := by
    intro s t
    rw [formUrlDecode_eq_ok_iff_decodeBytes, ← decodes_iff]
    constructor
    · rintro ⟨hdec, hnul⟩
      exact ⟨_, hdec, (length_asBytes t.chars).trans_le t.fits, hnul, rfl⟩
    · rintro ⟨d, hdec, -, hnul, rfl⟩
      exact ⟨hdec, hnul⟩
  constructor
  · refine fun s => ⟨hok s, ?_⟩
    -- a value is refused exactly when it has no text, since a text would be its decoding
    cases hresult : formUrlDecode N s with
    | ok t =>
      obtain ⟨d, hdec, hlen, hnul, hbytes⟩ := (hok s t).mp hresult
      exact iff_of_false (by simp) fun hno => hno ⟨d, hdec, hlen, hnul, t.chars, hbytes⟩
    | error e =>
      refine iff_of_true ⟨e, rfl⟩ ?_
      rintro ⟨d, hdec, hlen, hnul, t, rfl⟩
      rw [length_asBytes] at hlen
      rw [(hok s ⟨t, hlen⟩).mpr ⟨_, hdec, (length_asBytes t).trans_le hlen, hnul, rfl⟩] at hresult
      cases hresult
  · intro t pieces s hnul hpieces hs
    refine (hok s t).mpr ⟨_, ?_, (length_asBytes t.chars).trans_le t.fits, hnul, rfl⟩
    rw [hs]
    exact decodes_flatten hpieces

/-- The text `a+ü ` with a literal, escapes of both cases and a plus sign. -/
theorem formUrlDecode_spec_mixture :
    formUrlDecode 8 "a%2b%C3%bc+".toList = .ok ⟨"a+ü ".toList, by decide⟩ :=
  (formUrlDecode_spec 8).2 ⟨"a+ü ".toList, by decide⟩
    [[0x61], [0x25, 0x32, 0x62], [0x25, 0x43, 0x33], [0x25, 0x62, 0x63], [0x2b]]
    "a%2b%C3%bc+".toList (by decide)
    (.cons (.literal (by decide) (by decide)) <|
      .cons (.percent (x := 2) (y := 11) (by decide) (by decide)) <|
      .cons (.percent (x := 12) (y := 3) (by decide) (by decide)) <|
      .cons (.percent (x := 11) (y := 12) (by decide) (by decide)) <| .cons .plus .nil)
    (by decide)

end Jzf407
