import Jzf407.Foundation.Text

/-!
# Scanning text: trimming, lines, splitting, searching, numbers

The text operations of a standard library, over `Str`:

* Unicode white space and trimming: `isWhitespace`, `trim`, `splitWhitespace`.
* The lines of a text, which end in a line feed or a carriage return and a line feed: `lines`.
* Cutting at a character or a prefix: `splitOnce`, `stripPrefix`, and the lemmas about
  `List.splitOn` that go with them.
* The first occurrence of a pattern: `find`, `contains`. What is found is a byte offset.
* Unsigned decimal numbers with an optional plus sign: `parseNat`, with the three widths that go
  with it, and `decimal` for the way back.

Two laws carry most of the weight later. `exists_find_le`: a pattern that occurs in a text is
found there, or earlier. `lines_append_newline`: a line feed separates the lines before it
from the lines after it. Both let a text be taken apart at a place that is known, whatever
stands around it.

What a number parser accepts is said by `Numeral`, which has digits and values and no program in it;
`parseNat_eq_some_iff` ties the two together, and `parseNat_decimal` is the round trip.
-/

namespace Foundation

/-! ### White space and trimming -/

/-- The characters with the Unicode `White_Space` property. -/
def isWhitespace (c : Char) : Bool :=
  let n := c.toNat
  (0x09 ≤ n && n ≤ 0x0d) || n == 0x20 || n == 0x85 || n == 0xa0 || n == 0x1680 ||
    (0x2000 ≤ n && n ≤ 0x200a) || n == 0x2028 || n == 0x2029 || n == 0x202f ||
    n == 0x205f || n == 0x3000

/-- Drop the leading white space. -/
def trimStart (s : Str) : Str := s.dropWhile isWhitespace

/-- Drop the trailing white space. -/
def trimEnd (s : Str) : Str := (s.reverse.dropWhile isWhitespace).reverse

/-- Drop the white space at both ends. -/
def trim (s : Str) : Str := trimEnd (trimStart s)

/-- Text without white space is trimmed to itself. -/
theorem trim_of_forall {s : Str} (h : ∀ c ∈ s, isWhitespace c = false) : trim s = s := by
  have hdrop : ∀ t : Str, (∀ c ∈ t, isWhitespace c = false) → t.dropWhile isWhitespace = t := by
    intro t ht
    cases t with
    | nil => rfl
    | cons c t => rw [List.dropWhile_cons, if_neg (by simp [ht c List.mem_cons_self])]
  have hreverse : ∀ c ∈ s.reverse, isWhitespace c = false := fun c hc =>
    h c (List.mem_reverse.mp hc)
  rw [trim, trimStart, hdrop s h, trimEnd, hdrop _ hreverse, List.reverse_reverse]

/-- The rest of `s` after the prefix `pat`; `none` when `s` does not begin with it. -/
def stripPrefix (pat s : Str) : Option Str :=
  if pat.isPrefixOf s then some (s.drop pat.length) else none

theorem stripPrefix_append (pat s : Str) : stripPrefix pat (pat ++ s) = some s := by
  rw [stripPrefix, if_pos (List.isPrefixOf_iff_prefix.mpr (List.prefix_append pat s)),
    List.drop_left]

/-- Equality up to the case of ASCII letters. -/
def eqIgnoreAsciiCase (s t : Str) : Bool := s.map Char.toLower == t.map Char.toLower

/-! ### Splitting -/

/-- The pieces before and after the first `c`; `none` when `c` does not occur. -/
def splitOnce (c : Char) (s : Str) : Option (Str × Str) :=
  if c ∈ s then some (s.takeWhile (· ≠ c), (s.dropWhile (· ≠ c)).tail) else none

/-- No piece of a text contains the character it was split at. -/
theorem notMem_of_mem_splitOn {c : Char} {s piece : Str} (h : piece ∈ s.splitOn c) :
    c ∉ piece := by
  induction s generalizing piece with
  | nil =>
    rw [List.splitOn_nil, List.mem_singleton] at h
    rw [h]
    exact List.not_mem_nil
  | cons d s ih =>
    rw [List.splitOn_cons_eq_if_modifyHead] at h
    split at h
    · rcases List.mem_cons.mp h with rfl | h
      · exact List.not_mem_nil
      · exact ih h
    · next hd =>
      obtain ⟨first, rest, hsplit⟩ := List.exists_cons_of_ne_nil (List.splitOn_ne_nil c s)
      rw [hsplit] at h ih
      rcases List.mem_cons.mp h with rfl | h
      · intro hc
        rcases List.mem_cons.mp hc with rfl | hc
        · simp at hd
        · exact ih List.mem_cons_self hc
      · exact ih (List.mem_cons_of_mem _ h)

/-- The joined text consists of the pieces and the separator. -/
theorem mem_or_exists_of_mem_intercalate {sep : Str} {pieces : List Str} {d : Char}
    (h : d ∈ sep.intercalate pieces) : d ∈ sep ∨ ∃ piece ∈ pieces, d ∈ piece := by
  induction pieces with
  | nil => cases h
  | cons piece pieces ih =>
    cases pieces with
    | nil =>
      rw [List.intercalate_singleton] at h
      exact .inr ⟨piece, List.mem_cons_self, h⟩
    | cons next pieces =>
      rw [List.intercalate_cons_cons, List.mem_append, List.mem_append] at h
      rcases h with (h | h) | h
      · exact .inr ⟨piece, List.mem_cons_self, h⟩
      · exact .inl h
      · refine (ih h).imp_right ?_
        rintro ⟨piece', hmem, hd⟩
        exact ⟨piece', List.mem_cons_of_mem piece hmem, hd⟩

/-- A piece of a text at the places of a character has no other characters than the text. -/
theorem mem_of_mem_splitOn {c d : Char} {s piece : Str} (h : piece ∈ s.splitOn c)
    (hd : d ∈ piece) : d ∈ s := by
  induction s generalizing piece with
  | nil =>
    rw [List.splitOn_nil, List.mem_singleton] at h
    rwa [← h]
  | cons e s ih =>
    rw [List.splitOn_cons_eq_if_modifyHead] at h
    split at h
    · rcases List.mem_cons.mp h with rfl | h
      · cases hd
      · exact List.mem_cons_of_mem e (ih h hd)
    · obtain ⟨first, rest, hsplit⟩ := List.exists_cons_of_ne_nil (List.splitOn_ne_nil c s)
      rw [hsplit] at h ih
      rcases List.mem_cons.mp h with rfl | h
      · rcases List.mem_cons.mp hd with rfl | hd
        · exact List.mem_cons_self
        · exact List.mem_cons_of_mem e (ih List.mem_cons_self hd)
      · exact List.mem_cons_of_mem e (ih (List.mem_cons_of_mem _ h) hd)

/-- The pieces around the first occurrence of a character. -/
theorem splitOnce_append {c : Char} {a : Str} (h : c ∉ a) (b : Str) :
    splitOnce c (a ++ c :: b) = some (a, b) := by
  have hne : ∀ d ∈ a, decide (d ≠ c) = true := by
    intro d hd
    simpa using fun he : d = c => h (he ▸ hd)
  rw [splitOnce, if_pos (by simp), List.takeWhile_append_of_pos hne,
    List.dropWhile_append_of_pos hne]
  simp

/-- The nonempty pieces of a text between white space. -/
def splitWhitespace (s : Str) : List Str :=
  (s.splitOnP isWhitespace).filter (!·.isEmpty)

/-- A line without the carriage return of its line ending. -/
def stripCr (line : Str) : Str :=
  if line.getLast? = some '\r' then line.dropLast else line

theorem stripCr_of_notMem {line : Str} (h : '\r' ∉ line) : stripCr line = line :=
  if_neg fun hlast => h (List.mem_of_getLast? hlast)

/-- The pieces between line feeds as lines: every piece but the last was ended by a line
feed, and an empty last piece is no line. -/
def lineEnds : List Str → List Str
  | [] => []
  | [last] => if last.isEmpty then [] else [last]
  | line :: rest => stripCr line :: lineEnds rest

/-- The lines of a text, ended by `\n` or `\r\n`. -/
def lines (s : Str) : List Str := lineEnds (s.splitOn '\n')

/-- A line has no other characters than the text. -/
theorem mem_of_mem_lines {c : Char} {s line : Str} (h : line ∈ lines s) (hc : c ∈ line) :
    c ∈ s := by
  have hpieces : ∀ pieces : List Str, line ∈ lineEnds pieces → ∃ piece ∈ pieces, c ∈ piece := by
    intro pieces hline
    fun_induction lineEnds pieces with
    | case1 => cases hline
    | case2 last hempty => cases hline
    | case3 last hlast =>
      obtain rfl := List.mem_singleton.mp hline
      exact ⟨line, List.mem_singleton_self line, hc⟩
    | case4 piece rest hrest ih =>
      rcases List.mem_cons.mp hline with rfl | hline
      · refine ⟨piece, List.mem_cons_self, ?_⟩
        unfold stripCr at hc
        split at hc
        · exact List.dropLast_subset piece hc
        · exact hc
      · obtain ⟨piece', hmem, hc'⟩ := ih hline
        exact ⟨piece', List.mem_cons_of_mem piece hmem, hc'⟩
  obtain ⟨piece, hpiece, hc⟩ := hpieces _ h
  exact mem_of_mem_splitOn hpiece hc

theorem lineEnds_append (xs : List Str) {ys : List Str} (hys : ys ≠ []) :
    lineEnds (xs ++ ys) = xs.map stripCr ++ lineEnds ys := by
  induction xs with
  | nil => rfl
  | cons x xs ih =>
    obtain ⟨z, zs, hz⟩ := List.exists_cons_of_ne_nil (List.append_ne_nil_of_right_ne_nil xs hys)
    rw [List.cons_append, List.map_cons, List.cons_append, ← ih, hz]
    rfl

/-- **A line feed separates lines**: what precedes it and what follows it are cut into lines
independently. -/
theorem lines_append_newline (a b : Str) :
    lines (a ++ '\n' :: b) = (a.splitOn '\n').map stripCr ++ lines b := by
  rw [lines, List.splitOn_append_cons_self, lineEnds_append _ (List.splitOn_ne_nil _ _), lines]

/-- A line that ends in `\r\n`. -/
theorem lines_append_crlf {line : Str} (h : '\n' ∉ line) (rest : Str) :
    lines (line ++ '\r' :: '\n' :: rest) = line :: lines rest := by
  have hsplit : line ++ '\r' :: '\n' :: rest = (line ++ ['\r']) ++ '\n' :: rest := by
    rw [List.append_assoc]
    rfl
  have hnewline : '\n' ∉ line ++ ['\r'] := by simp [h]
  have hstrip : stripCr (line ++ ['\r']) = line := by
    rw [stripCr, List.getLast?_concat, if_pos rfl, List.dropLast_concat]
  rw [hsplit, lines_append_newline, List.splitOn_eq_singleton hnewline, List.map_singleton, hstrip]
  rfl

theorem head?_lines_append_newline (a b c : Str) :
    (lines (a ++ '\n' :: b)).head? = (lines (a ++ '\n' :: c)).head? := by
  rw [lines_append_newline, lines_append_newline]
  obtain ⟨z, zs, hz⟩ := List.exists_cons_of_ne_nil (List.splitOn_ne_nil '\n' a)
  simp [hz]

/-! ### Searching -/

/-- The byte offset of the first occurrence of `pat`. -/
def find (pat : Str) : Str → Option ℕ
  | [] => if pat.isEmpty then some 0 else none
  | c :: s =>
      if pat.isPrefixOf (c :: s) then some 0
      else (find pat s).map (c.utf8Size + ·)

/-- Whether `pat` occurs in `s`. -/
def contains (pat s : Str) : Bool := (find pat s).isSome

/-- A found pattern stands at the offset found. -/
theorem exists_of_find_eq_some {pat s : Str} {n : ℕ} (h : find pat s = some n) :
    ∃ pre post, s = pre ++ (pat ++ post) ∧ byteLen pre = n := by
  induction s generalizing n with
  | nil =>
    rw [find] at h
    split at h
    · next hp =>
      obtain rfl : pat = [] := by simpa using hp
      exact ⟨[], [], rfl, Option.some.inj h⟩
    · cases h
  | cons c s ih =>
    rw [find] at h
    split at h
    · next hp =>
      obtain ⟨post, hpost⟩ := List.isPrefixOf_iff_prefix.mp hp
      exact ⟨[], post, hpost.symm, Option.some.inj h⟩
    · obtain ⟨m, hm, rfl⟩ := Option.map_eq_some_iff.mp h
      obtain ⟨pre, post, rfl, rfl⟩ := ih hm
      exact ⟨c :: pre, post, rfl, by simp⟩

/-- A pattern that occurs is found, at its first occurrence. -/
theorem exists_find_le (pre pat post : Str) :
    ∃ n ≤ byteLen pre, find pat (pre ++ (pat ++ post)) = some n := by
  induction pre with
  | nil =>
    refine ⟨0, Nat.le_refl _, ?_⟩
    cases hs : pat ++ post with
    | nil =>
      obtain ⟨rfl, rfl⟩ := List.append_eq_nil_iff.mp hs
      rfl
    | cons c s =>
      have hpre : pat.isPrefixOf (c :: s) = true := by
        rw [List.isPrefixOf_iff_prefix, ← hs]
        exact List.prefix_append pat post
      rw [List.nil_append, find, if_pos hpre]
  | cons c pre ih =>
    rw [List.cons_append, find]
    split
    · exact ⟨0, Nat.zero_le _, rfl⟩
    · obtain ⟨n, hn, hfind⟩ := ih
      exact ⟨c.utf8Size + n, by rw [byteLen_cons]; omega, by rw [hfind]; rfl⟩

/-! ### Unsigned decimal numbers -/

/-- The value of an ASCII digit. -/
def digitVal (c : Char) : Option ℕ :=
  if '0'.toNat ≤ c.toNat ∧ c.toNat ≤ '9'.toNat then some (c.toNat - '0'.toNat) else none

/-- The value of a string of ASCII digits; `none` when another character occurs. -/
def digitsVal (s : Str) : Option ℕ :=
  s.foldlM (fun acc c => (digitVal c).map (10 * acc + ·)) 0

/-- An unsigned decimal number: an optional plus sign and at least one digit. -/
def parseNat (s : Str) : Option ℕ :=
  let digits := match s with
    | '+' :: rest => rest
    | _ => s
  if digits.isEmpty then none else digitsVal digits

/-- Parse an unsigned 8-bit number. -/
def parseU8 (s : Str) : Option UInt8 :=
  (parseNat s).bind fun n => if n < 2 ^ 8 then some (UInt8.ofNat n) else none

/-- Parse an unsigned 16-bit number. -/
def parseU16 (s : Str) : Option UInt16 :=
  (parseNat s).bind fun n => if n < 2 ^ 16 then some (UInt16.ofNat n) else none

/-- Parse an unsigned 64-bit number. -/
def parseU64 (s : Str) : Option UInt64 :=
  (parseNat s).bind fun n => if n < 2 ^ 64 then some (UInt64.ofNat n) else none

/-- **An unsigned numeral** of value `n`: an optional plus sign, and at least one digit after it.
Leading zeros are allowed. -/
def Numeral (s : Str) (n : ℕ) : Prop :=
  ∃ sign digits, s = sign ++ digits ∧ (sign = [] ∨ sign = ['+']) ∧ digits ≠ [] ∧
    (∀ c ∈ digits, c.isDigit = true) ∧ Nat.ofDigitChars 10 digits 0 = n

theorem digitVal_eq_some_iff {c : Char} {d : ℕ} :
    digitVal c = some d ↔ c.isDigit = true ∧ c.toNat - '0'.toNat = d := by
  rw [digitVal, Char.isDigit_iff_toNat]
  split
  · next h => rw [Option.some.injEq, and_iff_right h]
  · next h => exact iff_of_false nofun fun hdigit => h hdigit.1

/-- Digits have a value exactly when all of them are digits. -/
theorem digitsVal_eq_some_iff {s : Str} {n : ℕ} :
    digitsVal s = some n ↔ (∀ c ∈ s, c.isDigit = true) ∧ Nat.ofDigitChars 10 s 0 = n := by
  have hfold : ∀ acc, s.foldlM (fun acc c => (digitVal c).map (10 * acc + ·)) acc = some n ↔
      (∀ c ∈ s, c.isDigit = true) ∧ Nat.ofDigitChars 10 s acc = n := by
    induction s with
    | nil => simp
    | cons c s ih =>
      intro acc
      rw [List.foldlM_cons, List.forall_mem_cons, Nat.ofDigitChars_cons, and_assoc, ← ih]
      constructor
      · intro h
        obtain ⟨v, hv, hrest⟩ := Option.bind_eq_some_iff.mp h
        obtain ⟨d, hd, rfl⟩ := Option.map_eq_some_iff.mp hv
        obtain ⟨hdigit, rfl⟩ := digitVal_eq_some_iff.mp hd
        exact ⟨hdigit, hrest⟩
      · rintro ⟨hdigit, hrest⟩
        refine Option.bind_eq_some_iff.mpr ⟨_, Option.map_eq_some_iff.mpr ⟨_, ?_, rfl⟩, hrest⟩
        exact digitVal_eq_some_iff.mpr ⟨hdigit, rfl⟩
  exact hfold 0

/-- **What the number parser accepts.** -/
theorem parseNat_eq_some_iff {s : Str} {n : ℕ} : parseNat s = some n ↔ Numeral s n := by
  have hdigits : ∀ digits : Str, (if digits.isEmpty then none else digitsVal digits) = some n ↔
      digits ≠ [] ∧ (∀ c ∈ digits, c.isDigit = true) ∧ Nat.ofDigitChars 10 digits 0 = n := by
    intro digits
    rw [← digitsVal_eq_some_iff]
    cases digits <;> simp
  unfold parseNat
  split
  · next rest =>
    rw [hdigits]
    constructor
    · exact fun h => ⟨['+'], rest, rfl, .inr rfl, h⟩
    · rintro ⟨sign, digits, hs, rfl | rfl, hne, hall, hval⟩
      · -- a plus sign is no digit
        obtain rfl : '+' :: rest = digits := hs
        exact absurd (hall '+' List.mem_cons_self) (by decide)
      · obtain rfl : rest = digits := (List.cons.inj hs).2
        exact ⟨hne, hall, hval⟩
  · next hplus =>
    rw [hdigits]
    constructor
    · exact fun h => ⟨[], s, rfl, .inl rfl, h⟩
    · rintro ⟨sign, digits, hs, rfl | rfl, h⟩
      · obtain rfl : s = digits := hs
        exact h
      · exact absurd hs (hplus digits)

theorem Numeral.notMem {s : Str} {n : ℕ} (h : Numeral s n) {c : Char} (hplus : c ≠ '+')
    (hdigit : c.isDigit = false) : c ∉ s := by
  obtain ⟨sign, digits, rfl, hsign, -, hall, -⟩ := h
  intro hmem
  rcases List.mem_append.mp hmem with hmem | hmem
  · rcases hsign with rfl | rfl
    · cases hmem
    · exact hplus (List.mem_singleton.mp hmem)
  · rw [hall c hmem] at hdigit
    cases hdigit

theorem parseU8_eq_some_iff {s : Str} {v : UInt8} : parseU8 s = some v ↔ Numeral s v.toNat := by
  rw [parseU8, ← parseNat_eq_some_iff]
  constructor
  · intro h
    obtain ⟨n, hn, hv⟩ := Option.bind_eq_some_iff.mp h
    split at hv
    · next hlt =>
      obtain rfl := Option.some.inj hv
      rwa [UInt8.toNat_ofNat_of_lt' hlt]
    · cases hv
  · intro h
    rw [h, Option.bind_some, if_pos v.toNat_lt, UInt8.ofNat_toNat]

/-- The decimal digits of a number. -/
def decimal (n : ℕ) : Str := Nat.toDigits 10 n

theorem decimal_ne_nil (n : ℕ) : decimal n ≠ [] := Nat.toDigits_ne_nil

/-- Decimal digits are ASCII digits. -/
theorem digit_of_mem_decimal {n : ℕ} {c : Char} (h : c ∈ decimal n) :
    '0'.toNat ≤ c.toNat ∧ c.toNat ≤ '9'.toNat := by
  have hdigit := Nat.isDigit_of_mem_toDigits (by omega) (by omega) h
  rw [Char.isDigit_iff_toNat] at hdigit
  exact hdigit

theorem notMem_decimal {c : Char} (n : ℕ) (h : c.toNat < '0'.toNat) : c ∉ decimal n :=
  fun hmem => absurd (digit_of_mem_decimal hmem).1 (by omega)

private theorem digitVal_digitChar : ∀ d < 10, digitVal (Nat.digitChar d) = some d := by decide

theorem digitsVal_concat (s : Str) (c : Char) :
    digitsVal (s ++ [c]) = (digitsVal s).bind fun v => (digitVal c).map (10 * v + ·) := by
  rw [digitsVal, List.foldlM_append]
  simp only [List.foldlM_cons, List.foldlM_nil, bind_pure]
  rfl

/-- The digits of a number have its value. -/
theorem digitsVal_decimal (n : ℕ) : digitsVal (decimal n) = some n := by
  induction n using Nat.strongRecOn with
  | ind n ih =>
    by_cases hlt : n < 10
    · rw [decimal, Nat.toDigits_of_lt_base hlt, ← List.nil_append [_], digitsVal_concat,
        digitVal_digitChar n hlt]
      simp [digitsVal]
    · have hmod : n % 10 < 10 := Nat.mod_lt n (by omega)
      rw [decimal, Nat.toDigits_of_base_le (by omega) (by omega), digitsVal_concat,
        digitVal_digitChar _ hmod, ← decimal, ih (n / 10) (by omega), Option.bind_some,
        Option.map_some, Nat.div_add_mod]

/-- **A number is parsed back** from its decimal digits. -/
theorem parseNat_decimal (n : ℕ) : parseNat (decimal n) = some n := by
  have hplus : '+' ∉ decimal n := notMem_decimal n (by decide)
  have hdigits := digitsVal_decimal n
  unfold parseNat
  split
  · next rest heq =>
    rw [heq] at hplus
    exact absurd List.mem_cons_self hplus
  · rw [if_neg (by simpa using decimal_ne_nil n), hdigits]

theorem parseU8_decimal (n : UInt8) : parseU8 (decimal n.toNat) = some n := by
  rw [parseU8, parseNat_decimal, Option.bind_some, if_pos n.toNat_lt, UInt8.ofNat_toNat]

theorem parseU16_decimal (n : UInt16) : parseU16 (decimal n.toNat) = some n := by
  rw [parseU16, parseNat_decimal, Option.bind_some, if_pos n.toNat_lt, UInt16.ofNat_toNat]

theorem parseU64_decimal (n : UInt64) : parseU64 (decimal n.toNat) = some n := by
  rw [parseU64, parseNat_decimal, Option.bind_some, if_pos n.toNat_lt, UInt64.ofNat_toNat]

/-- A number below `10 ^ k` takes at most `k` bytes. -/
theorem byteLen_decimal_le {n k : ℕ} (hk : 0 < k) (h : n < 10 ^ k) : byteLen (decimal n) ≤ k := by
  have hascii : Ascii (decimal n) := fun c hc =>
    (digit_of_mem_decimal hc).2.trans_lt (by decide)
  rw [byteLen_of_ascii fun c hc => hascii.utf8Size hc]
  exact (Nat.length_toDigits_le_iff (by omega) hk).mpr h

end Foundation
