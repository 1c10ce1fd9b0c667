import Jzf407.Foundation.Buffer

/-!
# Form decoding

`formUrlDecode` of `web_form.rs` fails closed: a bad percent escape, a decoded NUL, invalid
UTF-8 and a value beyond the capacity are errors (`FormError`), and nothing is truncated. What a
successful decode returns is characterized by `formUrlDecode_eq_ok_iff`: the decoding loop
(`decodeLoop`) ran to its end, its bytes contain no NUL, and they are the bytes of the returned
text.

The loop appends to a buffer that may be full. `decodeBytes` is the same recursion without a
buffer, and `decodeLoop_eq_ok_iff` says that the loop appends what this returns, if it fits. So the
capacity is asked about once, at the end (`formUrlDecode_eq_ok_iff_decodeBytes`).

`secretFromForm` keeps the stored secret on an empty submission, and is a decode otherwise
(`secretFromForm_eq_ok_iff`). An encoded value that is not empty decodes to something
(`decodeBytes_eq_some_nil_iff`), so no other submission clears or keeps a secret.

`htmlEscapeAttr` escapes the characters that would end a quoted attribute. Its result is the text
with each character escaped (`htmlEscapeAttr_eq_ok_iff`), and a buffer of six times the length
holds it.
-/

namespace Jzf407

open Foundation

/-- Why a submitted value is refused. -/
inductive FormError
  | capacity
  | invalidEncoding
  deriving DecidableEq, Repr

/-- The value of a hexadecimal digit, of either case. -/
def hexDigit (b : UInt8) : Option UInt8 :=
  if 0x30 ≤ b ∧ b ≤ 0x39 then some (b - 0x30)
  else if 0x61 ≤ b ∧ b ≤ 0x66 then some (b - 0x61 + 10)
  else if 0x41 ≤ b ∧ b ≤ 0x46 then some (b - 0x41 + 10)
  else none

/-- Append a decoded byte, or report that the capacity is exceeded. -/
def pushByte {N : ℕ} (b : UInt8) (out : HVec UInt8 N) : Except FormError (HVec UInt8 N) :=
  okOr .capacity (HVec.push b out)

/-- The decoding loop: `+` is a space, `%XX` a byte, any other byte itself. -/
def decodeLoop {N : ℕ} : List UInt8 → HVec UInt8 N → Except FormError (HVec UInt8 N)
  | [], out => .ok out
  | byte :: rest, out =>
      if byte = '+'.toUInt8 then do
        let out ← pushByte ' '.toUInt8 out
        decodeLoop rest out
      else if byte = '%'.toUInt8 then
        match rest with
        -- an escape that the end of the value cuts short is an error
        | hi :: lo :: rest =>
          match hexDigit hi, hexDigit lo with
          | some h, some l => do
            let out ← pushByte ((h <<< 4) ||| l) out
            decodeLoop rest out
          | _, _ => .error .invalidEncoding
        | _ => .error .invalidEncoding
      else do
        let out ← pushByte byte out
        decodeLoop rest out

/-- Decode one form value into a buffer of `N` bytes. -/
def formUrlDecode (N : ℕ) (s : Str) : Except FormError (HString N) := do
  let bytesOut : HVec UInt8 N ← decodeLoop (asBytes s) HVec.empty
  if bytesOut.items.contains 0 then .error .invalidEncoding
  else do
    let decoded ← okOr .invalidEncoding (fromUtf8 bytesOut.items)
    okOr .capacity (HString.tryFrom decoded)

/-- The stored secret after a submission: an empty one keeps it. -/
def secretFromForm {N : ℕ} (current : HString N) (submitted : Str) :
    Except FormError (HString N) :=
  if submitted.isEmpty then .ok current else okOr .capacity (HString.tryFrom submitted)

/-! ### What decoding returns -/

/-- The bytes that an encoded value stands for, whatever the capacity. -/
def decodeBytes : List UInt8 → Option (List UInt8)
  | [] => some []
  | byte :: rest =>
      if byte = '+'.toUInt8 then (decodeBytes rest).map (' '.toUInt8 :: ·)
      else if byte = '%'.toUInt8 then
        match rest with
        | hi :: lo :: rest =>
          match hexDigit hi, hexDigit lo with
          | some h, some l => (decodeBytes rest).map (((h <<< 4) ||| l) :: ·)
          | _, _ => none
        | _ => none
      else (decodeBytes rest).map (byte :: ·)

theorem pushByte_eq_ok_iff {N : ℕ} {b : UInt8} {out out' : HVec UInt8 N} :
    pushByte b out = .ok out' ↔ out'.items = out.items ++ [b] := by
  rw [pushByte, okOr_eq_ok_iff, HVec.push_eq_some_iff]

/-- Pushing a byte and going on, when going on appends the decoded rest. -/
private theorem push_bind_eq_ok_iff {N : ℕ} {b : UInt8} {rest : List UInt8}
    {out out' : HVec UInt8 N}
    (ih : ∀ out₁ : HVec UInt8 N, decodeLoop rest out₁ = .ok out' ↔
      ∃ d, decodeBytes rest = some d ∧ out'.items = out₁.items ++ d) :
    (pushByte b out >>= decodeLoop rest) = .ok out' ↔
      ∃ d, (decodeBytes rest).map (b :: ·) = some d ∧ out'.items = out.items ++ d := by
  rw [bind_eq_ok_iff]
  constructor
  · rintro ⟨out₁, hpush, hrest⟩
    obtain ⟨d, hd, hout⟩ := (ih out₁).mp hrest
    refine ⟨b :: d, by rw [hd]; rfl, ?_⟩
    rw [hout, pushByte_eq_ok_iff.mp hpush, List.append_assoc, List.singleton_append]
  · rintro ⟨_, hd, hout⟩
    obtain ⟨d, hrest, rfl⟩ := Option.map_eq_some_iff.mp hd
    -- what is pushed now stays in the buffer, so it fits
    have hfits : (out.items ++ [b]).length ≤ N := by
      have hlen := congrArg List.length hout
      have hle := out'.fits
      simp only [List.length_append, List.length_cons] at hlen ⊢
      simp only [List.length_nil]
      omega
    refine ⟨⟨out.items ++ [b], hfits⟩, pushByte_eq_ok_iff.mpr rfl, (ih _).mpr ⟨d, hrest, ?_⟩⟩
    rw [hout, List.append_assoc, List.singleton_append]

/-- **The decoding loop** appends the decoded bytes to its buffer, if they fit. -/
theorem decodeLoop_eq_ok_iff {N : ℕ} {bytes : List UInt8} {out out' : HVec UInt8 N} :
    decodeLoop bytes out = .ok out' ↔
      ∃ d, decodeBytes bytes = some d ∧ out'.items = out.items ++ d := by
  induction bytes using decodeBytes.induct generalizing out with
  | case1 =>
    simp only [decodeLoop, decodeBytes, Except.ok.injEq, Option.some.injEq, exists_eq_left',
      List.append_nil]
    exact ⟨fun h => by rw [h], fun h => (HVec.ext h).symm⟩
  | case2 rest ih =>
    rw [decodeLoop.eq_def, decodeBytes.eq_def]
    dsimp only
    rw [if_pos rfl, if_pos rfl]
    exact push_bind_eq_ok_iff fun _ => ih
  | case3 hi lo rest h l hlo hhi hplus ih =>
    rw [decodeLoop.eq_def, decodeBytes.eq_def]
    dsimp only
    rw [if_neg hplus, if_pos rfl, if_neg hplus, if_pos rfl]
    simp only [hhi, hlo]
    exact push_bind_eq_ok_iff fun _ => ih
  | case4 hi lo rest hbad hplus =>
    -- a pair that is not hexadecimal is an error in both
    rw [decodeLoop.eq_def, decodeBytes.eq_def]
    dsimp only
    rw [if_neg hplus, if_pos rfl, if_neg hplus, if_pos rfl]
    rcases hhi : hexDigit hi with - | h <;> rcases hlo : hexDigit lo with - | l
    · simp
    · simp
    · simp
    · exact (hbad h l hhi hlo).elim
  | case5 rest hshort hplus =>
    rw [decodeLoop.eq_def, decodeBytes.eq_def]
    dsimp only
    rw [if_neg hplus, if_pos rfl, if_neg hplus, if_pos rfl]
    match rest with
    | [] => simp
    | [_] => simp
    | hi :: lo :: rest => exact (hshort hi lo rest rfl).elim
  | case6 byte rest hplus hpercent ih =>
    rw [decodeLoop.eq_def, decodeBytes.eq_def]
    dsimp only
    rw [if_neg hplus, if_neg hpercent, if_neg hplus, if_neg hpercent]
    exact push_bind_eq_ok_iff fun _ => ih

/-- A value that decodes to nothing is empty. -/
theorem decodeBytes_eq_some_nil_iff {bytes : List UInt8} :
    decodeBytes bytes = some [] ↔ bytes = [] := by
  constructor
  · intro h
    cases bytes with
    | nil => rfl
    | cons byte rest =>
      -- whatever is decoded first stands for one byte
      rw [decodeBytes.eq_def] at h
      dsimp only at h
      repeat' split at h
      all_goals simp at h
  · rintro rfl
    rfl

/-- **A successful decode** returns the text of the decoded bytes, which contain no NUL. -/
theorem formUrlDecode_eq_ok_iff {N : ℕ} {s : Str} {t : HString N} :
    formUrlDecode N s = .ok t ↔
      ∃ out : HVec UInt8 N, decodeLoop (asBytes s) HVec.empty = .ok out ∧
        (0 : UInt8) ∉ out.items ∧ asBytes t.chars = out.items := by
  unfold formUrlDecode
  rw [bind_eq_ok_iff]
  refine exists_congr fun out => and_congr_right fun _ => ?_
  by_cases hnul : (0 : UInt8) ∈ out.items
  · simp [hnul]
  · have hcontains : out.items.contains 0 = false := by simpa using hnul
    simp only [hcontains, Bool.false_eq_true, if_false, bind_eq_ok_iff, okOr_eq_ok_iff,
      fromUtf8_eq_some_iff, HString.tryFrom_eq_some_iff, hnul, not_false_eq_true, true_and]
    constructor
    · rintro ⟨decoded, hdec, rfl⟩
      exact hdec
    · intro hdec
      exact ⟨_, hdec, rfl⟩

/-- **What a value decodes to**: the text of its bytes, if they are valid UTF-8 without NUL and
fit. -/
theorem formUrlDecode_eq_ok_iff_decodeBytes {N : ℕ} {s : Str} {t : HString N} :
    formUrlDecode N s = .ok t ↔
      decodeBytes (asBytes s) = some (asBytes t.chars) ∧ (0 : UInt8) ∉ asBytes t.chars := by
  rw [formUrlDecode_eq_ok_iff]
  simp only [decodeLoop_eq_ok_iff, HVec.items_empty, List.nil_append]
  constructor
  · rintro ⟨out, ⟨d, hd, rfl⟩, hnul, hbytes⟩
    rw [hbytes]
    exact ⟨hd, hnul⟩
  · rintro ⟨hd, hnul⟩
    have hfits : (asBytes t.chars).length ≤ N := (length_asBytes t.chars).trans_le t.fits
    exact ⟨⟨asBytes t.chars, hfits⟩, ⟨_, hd, rfl⟩, hnul, rfl⟩

/-- A decoded value contains no NUL. -/
theorem nul_notMem_formUrlDecode {N : ℕ} {s : Str} {t : HString N}
    (h : formUrlDecode N s = .ok t) : (0 : UInt8) ∉ asBytes t.chars := by
  obtain ⟨out, -, hnul, hbytes⟩ := formUrlDecode_eq_ok_iff.mp h
  rwa [hbytes]

/-- The kept or new secret: `secretFromForm` succeeds with the stored secret on an empty
submission, and otherwise with the submitted text if it fits. -/
theorem secretFromForm_eq_ok_iff {N : ℕ} {current t : HString N} {submitted : Str} :
    secretFromForm current submitted = .ok t ↔
      (submitted = [] ∧ t = current) ∨ (submitted ≠ [] ∧ t.chars = submitted) := by
  unfold secretFromForm
  cases submitted with
  | nil =>
    simp only [List.isEmpty_nil, if_true, Except.ok.injEq, true_and, ne_eq, not_true_eq_false,
      false_and, or_false]
    exact eq_comm
  | cons c s =>
    simp only [List.isEmpty_cons, Bool.false_eq_true, if_false, reduceCtorEq, false_and,
      ne_eq, not_false_eq_true, true_and, false_or]
    rw [okOr_eq_ok_iff, HString.tryFrom_eq_some_iff]

/-! ### Escaping -/

/-- Append a text, or report that the capacity is exceeded. -/
def pushStr {N : ℕ} (s : Str) (out : HString N) : Except FormError (HString N) :=
  okOr .capacity (HString.pushStr s out)

/-- Append the escape of a character. -/
def escapeInto {N : ℕ} (out : HString N) (ch : Char) : Except FormError (HString N) :=
  if ch = '&' then pushStr "&amp;".toList out
  else if ch = '<' then pushStr "&lt;".toList out
  else if ch = '>' then pushStr "&gt;".toList out
  else if ch = '"' then pushStr "&quot;".toList out
  else if ch = '\'' then pushStr "&#39;".toList out
  else okOr .capacity (HString.push ch out)

/-- Escape a text for a quoted HTML attribute. -/
def htmlEscapeAttr (N : ℕ) (s : Str) : Except FormError (HString N) :=
  s.foldlM escapeInto HString.empty

/-- The escape of a character. -/
def escapeChar (ch : Char) : Str :=
  if ch = '&' then "&amp;".toList
  else if ch = '<' then "&lt;".toList
  else if ch = '>' then "&gt;".toList
  else if ch = '"' then "&quot;".toList
  else if ch = '\'' then "&#39;".toList
  else [ch]

theorem escapeInto_eq_pushStr {N : ℕ} (out : HString N) (ch : Char) :
    escapeInto out ch = pushStr (escapeChar ch) out := by
  unfold escapeInto escapeChar
  repeat' split
  all_goals rfl

/-- An escape is at most six times as long as the character. -/
theorem byteLen_escapeChar_le (ch : Char) : byteLen (escapeChar ch) ≤ 6 * ch.utf8Size := by
  have hpos := ch.utf8Size_pos
  have hcases : byteLen (escapeChar ch) ≤ 6 ∨ escapeChar ch = [ch] := by
    unfold escapeChar
    repeat' split
    · exact .inl (by decide)
    · exact .inl (by decide)
    · exact .inl (by decide)
    · exact .inl (by decide)
    · exact .inl (by decide)
    · exact .inr rfl
  rcases hcases with h | h
  · omega
  · rw [h, byteLen_cons, byteLen_nil]
    omega

theorem byteLen_flatMap_escapeChar_le (s : Str) :
    byteLen (s.flatMap escapeChar) ≤ 6 * byteLen s := by
  induction s with
  | nil => simp
  | cons ch s ih =>
    have hch := byteLen_escapeChar_le ch
    rw [List.flatMap_cons, byteLen_append, byteLen_cons]
    omega

theorem escapeInto_eq_ok_iff {N : ℕ} {out out' : HString N} {ch : Char} :
    escapeInto out ch = .ok out' ↔ out'.chars = out.chars ++ escapeChar ch := by
  rw [escapeInto_eq_pushStr, pushStr, okOr_eq_ok_iff, HString.pushStr,
    HString.tryFrom_eq_some_iff]

private theorem foldlM_escapeInto_eq_ok_iff {N : ℕ} {s : Str} {out t : HString N} :
    s.foldlM escapeInto out = .ok t ↔ t.chars = out.chars ++ s.flatMap escapeChar := by
  induction s generalizing out with
  | nil =>
    rw [List.foldlM_nil, List.flatMap_nil, List.append_nil]
    constructor
    · intro h
      rw [Except.ok.inj h]
    · intro h
      rw [HString.ext h]
      rfl
  | cons ch s ih =>
    rw [List.foldlM_cons, bind_eq_ok_iff, List.flatMap_cons]
    constructor
    · rintro ⟨out', hch, hrest⟩
      rw [ih.mp hrest, escapeInto_eq_ok_iff.mp hch, List.append_assoc]
    · intro h
      -- what is appended now stays in the buffer, so it fits
      have hfits : byteLen (out.chars ++ escapeChar ch) ≤ N := by
        have hle := t.fits
        rw [h, ← List.append_assoc, byteLen_append] at hle
        omega
      refine ⟨⟨_, hfits⟩, escapeInto_eq_ok_iff.mpr rfl, ih.mpr ?_⟩
      rw [h, List.append_assoc]

/-- **An escaped text** is the text with each character escaped. -/
theorem htmlEscapeAttr_eq_ok_iff {N : ℕ} {s : Str} {t : HString N} :
    htmlEscapeAttr N s = .ok t ↔ t.chars = s.flatMap escapeChar := by
  rw [htmlEscapeAttr, foldlM_escapeInto_eq_ok_iff, HString.chars_empty, List.nil_append]

/-- A text of which the buffer holds six times the length can be escaped. -/
theorem htmlEscapeAttr_eq_ok {N : ℕ} {s : Str} (h : 6 * byteLen s ≤ N) :
    ∃ t : HString N, htmlEscapeAttr N s = .ok t ∧ t.chars = s.flatMap escapeChar :=
  ⟨⟨_, (byteLen_flatMap_escapeChar_le s).trans h⟩, htmlEscapeAttr_eq_ok_iff.mpr rfl, rfl⟩

end Jzf407
