import Jzf407.Foundation.Scan

/-!
# Flat JSON objects

A flat object is a list of members, each with a key and a natural number or a text (`JsonValue`,
`JsonObject`). `objectText` writes one without white space. `readObject` reads one, with white space
between its tokens as the grammar allows it; it has no escapes, and refuses a text that needs one.

The reader goes token by token: `readString`, `readNumber`, which refuses a leading zero,
`readValue`, `readMember`, and `readMembers` up to the closing brace. It recurses on a bound for the
number of members, and the length of the text is one, since each member takes room
(`length_le_intercalate`).

What is written is read back, if no key and no text needs an escape (`readObject_objectText`). Each
reader has one lemma for the token that it reads, which says what it leaves of the text after it:
a number ends where no digit follows (`readNumber_append`), a member at its comma
(`readMembers_comma`) or at the brace (`readMembers_brace`). No control character is written
(`printable_of_mem_objectText`), so an object can be put on one line of another format.
-/

namespace Foundation

/-- The value of a member. -/
inductive JsonValue
  | number (n : ℕ)
  | string (s : Str)
  deriving DecidableEq, Repr

/-- The members of an object, in order. -/
abbrev JsonObject := List (Str × JsonValue)

/-! ### Writing -/

/-- A text between quotes. -/
def quoted (s : Str) : Str := '"' :: (s ++ ['"'])

/-- The text of a value. -/
def JsonValue.text : JsonValue → Str
  | .number n => decimal n
  | .string s => quoted s

/-- The text of a member. -/
def memberText (m : Str × JsonValue) : Str := quoted m.1 ++ ':' :: m.2.text

/-- **The text of an object.** -/
def objectText (o : JsonObject) : Str := '{' :: ([','].intercalate (o.map memberText) ++ ['}'])

/-! ### Reading -/

/-- The white space between tokens. -/
def isJsonSpace (c : Char) : Bool := c == ' ' || c == '\t' || c == '\n' || c == '\r'

/-- Drop the white space before a token. -/
def skipSpace (s : Str) : Str := s.dropWhile isJsonSpace

/-- A character that stands for itself between quotes. -/
def isPlain (c : Char) : Bool := c != '"' && c != '\\' && decide (0x20 ≤ c.toNat)

/-- Read a text after its opening quote, and the rest after the closing one. -/
def readString : Str → Option (Str × Str)
  | [] => none
  | c :: s =>
      if c = '"' then some ([], s)
      else if isPlain c then (readString s).map fun p => (c :: p.1, p.2)
      else none

/-- Read a number: digits, without a leading zero before another digit. -/
def readNumber (s : Str) : Option (ℕ × Str) :=
  let digits := s.takeWhile Char.isDigit
  if digits.isEmpty || (digits.head? == some '0' && digits != ['0']) then none
  else (digitsVal digits).map fun n => (n, s.dropWhile Char.isDigit)

/-- Read a value. -/
def readValue (s : Str) : Option (JsonValue × Str) :=
  if s.head? = some '"' then (readString s.tail).map fun p => (.string p.1, p.2)
  else (readNumber s).map fun p => (.number p.1, p.2)

/-- Read one character after white space. -/
def expect (c : Char) (s : Str) : Option Str := stripPrefix [c] (skipSpace s)

/-- Read a member. -/
def readMember (s : Str) : Option ((Str × JsonValue) × Str) := do
  let (key, s) ← (expect '"' s).bind readString
  let s ← expect ':' s
  let (value, s) ← readValue (skipSpace s)
  some ((key, value), s)

/-- Read members, the first of which is there, up to the closing brace. -/
def readMembers : ℕ → Str → Option (JsonObject × Str)
  | 0, _ => none
  | fuel + 1, s => do
      let (m, s) ← readMember s
      match expect ',' s with
      | some s => (readMembers fuel s).map fun p => (m :: p.1, p.2)
      | none => (expect '}' s).map fun s => ([m], s)

/-- **Read an object** that is the whole text. -/
def readObject (s : Str) : Option JsonObject := do
  let s ← expect '{' s
  let (o, s) ←
    match expect '}' s with
    | some s => some ([], s)
    | none => readMembers s.length s
  if (skipSpace s).isEmpty then some o else none

/-! ### What is written is read back -/

/-- A text that needs no escape. -/
def Plain (s : Str) : Prop := ∀ c ∈ s, isPlain c = true

instance (s : Str) : Decidable (Plain s) :=
  decidable_of_iff (s.all isPlain = true) List.all_eq_true

/-- A value without a text that needs an escape. -/
def JsonValue.Plain : JsonValue → Prop
  | .number _ => True
  | .string s => Foundation.Plain s

theorem skipSpace_cons {c : Char} (hc : isJsonSpace c = false) (s : Str) :
    skipSpace (c :: s) = c :: s := by
  rw [skipSpace, List.dropWhile_cons, if_neg (by simp [hc])]

/-- A token that is there. -/
theorem expect_cons {c : Char} (hc : isJsonSpace c = false) (s : Str) :
    expect c (c :: s) = some s := by
  rw [expect, skipSpace_cons hc]
  exact stripPrefix_append [c] s

/-- Another token. -/
theorem expect_cons_of_ne {c d : Char} (hd : isJsonSpace d = false) (hne : c ≠ d) (s : Str) :
    expect c (d :: s) = none := by
  rw [expect, skipSpace_cons hd, stripPrefix]
  simp [hne]

theorem readString_append {s : Str} (h : Plain s) (rest : Str) :
    readString (s ++ '"' :: rest) = some (s, rest) := by
  induction s with
  | nil => rw [List.nil_append, readString, if_pos rfl]
  | cons c s ih =>
    have hc : isPlain c = true := h c List.mem_cons_self
    have hquote : c ≠ '"' := by
      rintro rfl
      exact absurd hc (by decide)
    rw [List.cons_append, readString, if_neg hquote, if_pos hc,
      ih fun d hd => h d (List.mem_cons_of_mem c hd), Option.map_some]

/-- Decimal digits have no leading zero. -/
theorem decimal_of_head?_eq_zero {n : ℕ} (h : (decimal n).head? = some '0') :
    decimal n = ['0'] := by
  induction n using Nat.strongRecOn with
  | ind n ih =>
    by_cases hlt : n < 10
    · rw [decimal, Nat.toDigits_of_lt_base hlt] at h ⊢
      rw [Option.some.inj h]
    · have hsplit : decimal n = decimal (n / 10) ++ [Nat.digitChar (n % 10)] :=
        Nat.toDigits_of_base_le (by omega) (by omega)
      rw [hsplit, List.head?_append_of_ne_nil _ (decimal_ne_nil _)] at h
      -- the digits before the last one would be those of zero
      have hzero := digitsVal_decimal (n / 10)
      rw [ih (n / 10) (by omega) h] at hzero
      have : 0 = n / 10 := Option.some.inj hzero
      omega

/-- The digits of a number end where no digit follows. -/
theorem readNumber_append (n : ℕ) {rest : Str} (h : rest.head?.all (!·.isDigit) = true) :
    readNumber (decimal n ++ rest) = some (n, rest) := by
  have hdigits : ∀ c ∈ decimal n, c.isDigit = true := fun c hc =>
    Char.isDigit_iff_toNat.mpr (digit_of_mem_decimal hc)
  have hstop : rest.takeWhile Char.isDigit = [] ∧ rest.dropWhile Char.isDigit = rest := by
    cases rest with
    | nil => exact ⟨rfl, rfl⟩
    | cons c rest => simp_all
  have hne : (decimal n).isEmpty = false := by simpa using decimal_ne_nil n
  have hzero : ((decimal n).head? == some '0' && decimal n != ['0']) = false := by
    by_cases hhead : (decimal n).head? = some '0'
    · simp [decimal_of_head?_eq_zero hhead]
    · simp [hhead]
  rw [readNumber, List.takeWhile_append_of_pos hdigits, List.dropWhile_append_of_pos hdigits,
    hstop.1, hstop.2, List.append_nil, hne, hzero, digitsVal_decimal]
  rfl

/-- What begins a value is no white space. -/
theorem skipSpace_text (v : JsonValue) (rest : Str) :
    skipSpace (v.text ++ rest) = v.text ++ rest := by
  cases v with
  | number n =>
    obtain ⟨c, s, hcons⟩ := List.exists_cons_of_ne_nil (decimal_ne_nil n)
    have hspace : isJsonSpace c = false := by
      have hdigit : '0'.toNat ≤ c.toNat :=
        (digit_of_mem_decimal (by rw [hcons]; exact List.mem_cons_self)).1
      rw [isJsonSpace]
      by_contra hc
      simp only [Bool.or_eq_true, beq_iff_eq, Bool.not_eq_false] at hc
      rcases hc with ((rfl | rfl) | rfl) | rfl <;> exact absurd hdigit (by decide)
    rw [JsonValue.text, hcons, List.cons_append, skipSpace_cons hspace]
  | string s => exact skipSpace_cons rfl _

theorem readValue_text {v : JsonValue} (hv : v.Plain) {rest : Str}
    (h : rest.head?.all (!·.isDigit) = true) : readValue (v.text ++ rest) = some (v, rest) := by
  cases v with
  | number n =>
    have hquote : (decimal n ++ rest).head? ≠ some '"' := by
      rw [List.head?_append_of_ne_nil _ (decimal_ne_nil n)]
      exact fun he => notMem_decimal n (by decide) (List.mem_of_head? he)
    rw [JsonValue.text, readValue, if_neg hquote, readNumber_append n h, Option.map_some]
  | string s =>
    have htext : (JsonValue.string s).text ++ rest = '"' :: (s ++ '"' :: rest) := by
      simp [JsonValue.text, quoted]
    rw [htext, readValue, List.head?_cons, if_pos rfl, List.tail_cons, readString_append hv,
      Option.map_some]

theorem readMember_text {m : Str × JsonValue} (hkey : Plain m.1) (hvalue : m.2.Plain)
    {rest : Str} (h : rest.head?.all (!·.isDigit) = true) :
    readMember (memberText m ++ rest) = some (m, rest) := by
  have htext : memberText m ++ rest = '"' :: (m.1 ++ '"' :: (':' :: (m.2.text ++ rest))) := by
    simp [memberText, quoted]
  have hquote : ∀ s, expect '"' ('"' :: s) = some s := expect_cons rfl
  have hcolon : ∀ s, expect ':' (':' :: s) = some s := expect_cons rfl
  simp only [htext, readMember, hquote, hcolon, readString_append hkey, skipSpace_text,
    readValue_text hvalue h, Option.bind_eq_bind, Option.bind_some]

/-- A member before a comma. -/
theorem readMembers_comma {m : Str × JsonValue} {s rest : Str} (fuel : ℕ)
    (h : readMember s = some (m, ',' :: rest)) :
    readMembers (fuel + 1) s = (readMembers fuel rest).map fun p => (m :: p.1, p.2) := by
  have hcomma : expect ',' (',' :: rest) = some rest := expect_cons rfl rest
  simp only [readMembers, h, hcomma, Option.bind_eq_bind, Option.bind_some]

/-- The last member. -/
theorem readMembers_brace {m : Str × JsonValue} {s rest : Str} (fuel : ℕ)
    (h : readMember s = some (m, '}' :: rest)) :
    readMembers (fuel + 1) s = some ([m], rest) := by
  have hcomma : expect ',' ('}' :: rest) = none := expect_cons_of_ne rfl (by decide) rest
  have hbrace : expect '}' ('}' :: rest) = some rest := expect_cons rfl rest
  simp only [readMembers, h, hcomma, hbrace, Option.bind_eq_bind, Option.bind_some,
    Option.map_some]

/-- The members up to the closing brace. -/
theorem readMembers_text {m : Str × JsonValue} {o : JsonObject}
    (h : ∀ m' ∈ m :: o, Plain m'.1 ∧ m'.2.Plain) {fuel : ℕ} (hfuel : o.length < fuel)
    (rest : Str) :
    readMembers fuel ([','].intercalate ((m :: o).map memberText) ++ '}' :: rest) =
      some (m :: o, rest) := by
  obtain ⟨hkey, hvalue⟩ := h m List.mem_cons_self
  induction o generalizing m fuel with
  | nil =>
    obtain ⟨fuel, rfl⟩ := Nat.exists_eq_succ_of_ne_zero (Nat.ne_zero_of_lt hfuel)
    rw [List.map_singleton, List.intercalate_singleton]
    exact readMembers_brace fuel (readMember_text hkey hvalue rfl)
  | cons m' o ih =>
    obtain ⟨fuel, rfl⟩ := Nat.exists_eq_succ_of_ne_zero (Nat.ne_zero_of_lt hfuel)
    have htail := fun m'' hm => h m'' (List.mem_cons_of_mem m hm)
    obtain ⟨hkey', hvalue'⟩ := htail m' List.mem_cons_self
    have hrest := ih htail (Nat.lt_of_succ_lt_succ hfuel) hkey' hvalue'
    rw [List.map_cons, List.map_cons, List.intercalate_cons_cons, ← List.map_cons,
      List.append_assoc, List.append_assoc, List.singleton_append]
    rw [readMembers_comma fuel (readMember_text hkey hvalue rfl), hrest, Option.map_some]

/-- Each member takes room. -/
theorem length_le_intercalate (o : JsonObject) :
    o.length ≤ ([','].intercalate (o.map memberText)).length := by
  induction o with
  | nil => exact Nat.zero_le _
  | cons m o ih =>
    cases o with
    | nil => simp [memberText, quoted]
    | cons m' o =>
      rw [List.map_cons, List.map_cons, List.intercalate_cons_cons, ← List.map_cons]
      simp only [List.length_append, List.length_cons, List.length_nil] at ih ⊢
      omega

/-- **What is written is read back**, if it needs no escape. -/
theorem readObject_objectText {o : JsonObject} (h : ∀ m ∈ o, Plain m.1 ∧ m.2.Plain) :
    readObject (objectText o) = some o := by
  have hopen : ∀ s, expect '{' ('{' :: s) = some s := expect_cons rfl
  cases o with
  | nil => decide
  | cons m o =>
    have hfirst : ∃ s, [','].intercalate ((m :: o).map memberText) = memberText m ++ s := by
      cases o with
      | nil => exact ⟨[], by simp⟩
      | cons m' o => exact ⟨_, List.intercalate_cons_cons.trans (List.append_assoc ..)⟩
    obtain ⟨s, hs⟩ := hfirst
    have hquote : ∀ rest, expect '}' (memberText m ++ s ++ rest) = none :=
      fun rest => expect_cons_of_ne rfl (by decide) _
    have hfuel : o.length < (memberText m ++ s ++ ['}']).length := by
      have hroom := length_le_intercalate (m :: o)
      rw [hs, List.length_cons] at hroom
      rw [List.length_append, List.length_singleton]
      omega
    have hmembers := readMembers_text h hfuel []
    rw [hs] at hmembers
    simp only [objectText, hs, readObject, hopen, hquote, hmembers, Option.bind_eq_bind,
      Option.bind_some]
    exact if_pos rfl

/-! ### What is written has no line break -/

theorem plain_decimal (n : ℕ) : Plain (decimal n) := by
  intro c hc
  obtain ⟨hlow, hhigh⟩ := digit_of_mem_decimal hc
  have hquote : c ≠ '"' := by
    rintro rfl
    exact absurd hlow (by decide)
  have hescape : c ≠ '\\' := by
    rintro rfl
    exact absurd hhigh (by decide)
  have hcontrol : 0x20 ≤ c.toNat := hlow.trans' (by decide)
  simp [isPlain, hquote, hescape, hcontrol]

/-- No control character is written. -/
theorem printable_of_mem_objectText {o : JsonObject} (h : ∀ m ∈ o, Plain m.1 ∧ m.2.Plain)
    {c : Char} (hc : c ∈ objectText o) : 0x20 ≤ c.toNat := by
  have hplain : ∀ {s : Str}, Plain s → c ∈ s → 0x20 ≤ c.toNat := by
    intro s hs hmem
    have hchar := hs c hmem
    rw [isPlain, Bool.and_eq_true] at hchar
    exact of_decide_eq_true hchar.2
  have hquoted : ∀ {s : Str}, Plain s → c ∈ quoted s → 0x20 ≤ c.toNat := by
    intro s hs hmem
    rcases List.mem_cons.mp hmem with rfl | hmem
    · decide
    rcases List.mem_append.mp hmem with hmem | hmem
    · exact hplain hs hmem
    · rw [List.mem_singleton.mp hmem]
      decide
  -- a member is a key between quotes, a colon, and digits or a text between quotes
  have hmember : ∀ m ∈ o, c ∈ memberText m → 0x20 ≤ c.toNat := by
    rintro ⟨key, value⟩ hm hmem
    obtain ⟨hkey, hvalue⟩ := h _ hm
    rcases List.mem_append.mp hmem with hmem | hmem
    · exact hquoted hkey hmem
    rcases List.mem_cons.mp hmem with rfl | hmem
    · decide
    cases value with
    | number n => exact hplain (plain_decimal n) hmem
    | string s => exact hquoted hvalue hmem
  rcases List.mem_cons.mp hc with rfl | hc
  · decide
  rcases List.mem_append.mp hc with hc | hc
  · rcases mem_or_exists_of_mem_intercalate hc with hc | ⟨piece, hpiece, hc⟩
    · rw [List.mem_singleton.mp hc]
      decide
    · obtain ⟨m, hm, rfl⟩ := List.mem_map.mp hpiece
      exact hmember m hm hc
  · rw [List.mem_singleton.mp hc]
    decide

end Foundation
