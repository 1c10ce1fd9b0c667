import Jzf407.Foundation.Text

/-!
# Fixed-capacity buffers

`HVec α N` is a list of at most `N` items and `HString N` a text of at most `N` bytes, each
with its bound as a field, so that no lemma about a buffer has to ask for it. Every operation that
may not fit returns an `Option` and leaves nothing half done: an append that does not fit as a
whole appends nothing.

* Bytes: `HVec.extendFromSlice` and `HVec.push`.
* Texts: `HString.tryFrom`, which never truncates, `HString.pushStr`, and `HString.push` for one
  character, which takes up to four bytes.
* A caller that discards the verdict continues with the buffer as it was (`keep`); one that turns
  it into an error of its own uses `okOr`, and `bind_eq_ok_iff` takes a sequence of such steps
  apart.

A formatted text is written piece by piece (`formatPieces`) up to the first piece that does not
fit, so a text that fits is written whole: `HString.chars_writeFmt`. Appending ASCII text to a
string character by character, each verdict discarded (`HString.pushAll`), keeps the longest prefix
that fits: `HString.chars_pushAll`. The two differ where a text does not fit: the one stops, the
other goes on with whatever still fits.
-/

namespace Foundation

universe u v

/-- The buffer after an operation whose verdict is discarded. -/
def keep {α : Type*} (op : α → Option α) (v : α) : α := (op v).getD v

/-! ### Verdicts -/

section Verdicts

variable {ε : Type u} {α β : Type v}

/-- A missing result as an error. -/
def okOr (e : ε) : Option α → Except ε α
  | some a => .ok a
  | none => .error e

@[simp]
theorem okOr_eq_ok_iff {e : ε} {x : Option α} {a : α} : okOr e x = .ok a ↔ x = some a := by
  cases x <;> simp [okOr]

@[simp]
theorem toOption_eq_some_iff {x : Except ε α} {a : α} : x.toOption = some a ↔ x = .ok a := by
  cases x <;> simp [Except.toOption]

/-- A sequence succeeds when each of its steps does. -/
theorem bind_eq_ok_iff {x : Except ε α} {f : α → Except ε β} {b : β} :
    (x >>= f) = .ok b ↔ ∃ a, x = .ok a ∧ f a = .ok b := by
  cases x with
  | error e => simp [bind, Except.bind]
  | ok a => simp [bind, Except.bind]

end Verdicts

/-! ### Vectors -/

/-- A list held in a buffer of `N` items. -/
structure HVec (α : Type*) (N : ℕ) where
  items : List α
  fits : items.length ≤ N

namespace HVec

variable {α : Type*} {N : ℕ}

/-- The empty buffer. -/
def empty : HVec α N := ⟨[], Nat.zero_le N⟩

@[ext]
theorem ext {v w : HVec α N} (h : v.items = w.items) : v = w := by
  cases v
  cases w
  simpa using h

@[simp]
theorem items_empty : (empty : HVec α N).items = [] := rfl

/-- Append a slice as a whole; `none` when it does not fit. -/
def extendFromSlice (data : List α) (v : HVec α N) : Option (HVec α N) :=
  if h : (v.items ++ data).length ≤ N then some ⟨v.items ++ data, h⟩ else none

/-- Append one item; `none` when the buffer is full. -/
def push (a : α) (v : HVec α N) : Option (HVec α N) := v.extendFromSlice [a]

theorem push_eq_some_iff {a : α} {v w : HVec α N} :
    push a v = some w ↔ w.items = v.items ++ [a] := by
  unfold push extendFromSlice
  split
  · next h =>
    rw [Option.some.injEq]
    exact ⟨fun he => he ▸ rfl, fun he => ext he.symm⟩
  · next h =>
    refine iff_of_false (by simp) fun he => h ?_
    rw [← he]
    exact w.fits

theorem items_keep_extendFromSlice (data : List α) (v : HVec α N) :
    (keep (extendFromSlice data) v).items =
      if v.items.length + data.length ≤ N then v.items ++ data else v.items := by
  unfold keep extendFromSlice
  simp only [List.length_append]
  split <;> rfl

end HVec

/-! ### Formatted texts -/

/-- The pieces of a format string with the texts of its arguments between them. -/
def formatPieces : List Str → List Str → List Str
  | literal :: literals, arg :: args => literal :: arg :: formatPieces literals args
  | literals, [] => literals
  | [], _ :: _ => []

theorem byteLen_formatPieces_le (literals args : List Str) :
    byteLen (formatPieces literals args).flatten ≤
      byteLen literals.flatten + byteLen args.flatten := by
  induction literals generalizing args with
  | nil => cases args <;> simp [formatPieces]
  | cons literal literals ih =>
    cases args with
    | nil => simp [formatPieces]
    | cons arg args =>
      have htail := ih args
      simp only [formatPieces, List.flatten_cons, byteLen_append]
      omega

/-! ### Strings -/

/-- A text held in a buffer of `N` bytes. -/
structure HString (N : ℕ) where
  chars : Str
  fits : byteLen chars ≤ N
  deriving DecidableEq

namespace HString

variable {N : ℕ}

@[ext]
theorem ext {s t : HString N} (h : s.chars = t.chars) : s = t := by
  cases s
  cases t
  simpa using h

/-- The empty buffer. -/
def empty : HString N := ⟨[], Nat.zero_le N⟩

instance : Inhabited (HString N) := ⟨empty⟩

@[simp]
theorem chars_empty : (empty : HString N).chars = [] := rfl

/-- Copy a text into a buffer; `none` when it does not fit. Nothing is ever truncated. -/
def tryFrom (s : Str) : Option (HString N) :=
  if h : byteLen s ≤ N then some ⟨s, h⟩ else none

theorem tryFrom_eq_some_iff {s : Str} {t : HString N} : tryFrom s = some t ↔ t.chars = s := by
  unfold tryFrom
  split
  · next h =>
    simp only [Option.some.injEq]
    exact ⟨fun he => he ▸ rfl, fun he => HString.ext he.symm⟩
  · next h =>
    simp only [reduceCtorEq, false_iff]
    rintro rfl
    exact h t.fits

@[simp]
theorem tryFrom_chars (t : HString N) : tryFrom t.chars = some t :=
  tryFrom_eq_some_iff.mpr rfl

/-- Whether the text is empty. -/
def isEmpty (s : HString N) : Bool := s.chars.isEmpty

/-- The bytes of the text. -/
def asBytes (s : HString N) : List UInt8 := Foundation.asBytes s.chars

theorem asBytes_injective {s t : HString N} (h : s.asBytes = t.asBytes) : s = t :=
  ext (Foundation.asBytes_injective h)

/-- Append a text; `none` when it does not fit as a whole. -/
def pushStr (t : Str) (s : HString N) : Option (HString N) := tryFrom (s.chars ++ t)

theorem chars_keep_pushStr {t : Str} {s : HString N} (h : byteLen (s.chars ++ t) ≤ N) :
    (keep (pushStr t) s).chars = s.chars ++ t := by
  rw [keep, pushStr, tryFrom, dif_pos h, Option.getD_some]

/-- Append one character; `none` when it does not fit. -/
def push (c : Char) (s : HString N) : Option (HString N) := tryFrom (s.chars ++ [c])

theorem chars_keep_push (c : Char) (s : HString N) :
    (keep (push c) s).chars =
      if byteLen (s.chars ++ [c]) ≤ N then s.chars ++ [c] else s.chars := by
  unfold keep push tryFrom
  split <;> rfl

/-- Write the pieces of a formatted text, discarding the verdict: the first piece that does not fit
ends it, and what was appended before stays. -/
def writeFmt : List Str → HString N → HString N
  | [], s => s
  | piece :: pieces, s =>
      match pushStr piece s with
      | some s => writeFmt pieces s
      | none => s

/-- **A formatted text that fits** is written whole. -/
theorem chars_writeFmt {pieces : List Str} {s : HString N}
    (h : byteLen (s.chars ++ pieces.flatten) ≤ N) :
    (writeFmt pieces s).chars = s.chars ++ pieces.flatten := by
  induction pieces generalizing s with
  | nil => rw [writeFmt, List.flatten_nil, List.append_nil]
  | cons piece pieces ih =>
    rw [List.flatten_cons, ← List.append_assoc] at h ⊢
    have hpiece : byteLen (s.chars ++ piece) ≤ N := by
      rw [byteLen_append] at h
      omega
    rw [writeFmt, pushStr, tryFrom, dif_pos hpiece]
    exact ih h

/-- Append characters one by one, discarding every verdict. -/
def pushAll (l : Str) (s : HString N) : HString N := l.foldl (fun s c => keep (push c) s) s

@[simp]
theorem pushAll_nil (s : HString N) : pushAll [] s = s := rfl

@[simp]
theorem pushAll_cons (c : Char) (l : Str) (s : HString N) :
    pushAll (c :: l) s = pushAll l (keep (push c) s) := rfl

theorem pushAll_append (l m : Str) (s : HString N) :
    pushAll (l ++ m) s = pushAll m (pushAll l s) := by
  simp [pushAll]

/-- **Appending ASCII text** with every verdict discarded keeps its longest prefix that
fits. -/
theorem chars_pushAll {l : Str} {s : HString N} (hs : ∀ c ∈ s.chars, c.utf8Size = 1)
    (hl : ∀ c ∈ l, c.utf8Size = 1) : (pushAll l s).chars = (s.chars ++ l).take N := by
  induction l generalizing s with
  | nil =>
    have hfit := s.fits
    rw [byteLen_of_ascii hs] at hfit
    simp [List.take_of_length_le hfit]
  | cons c l ih =>
    have hc : c.utf8Size = 1 := hl c List.mem_cons_self
    have hl' : ∀ d ∈ l, d.utf8Size = 1 := fun d hd => hl d (List.mem_cons_of_mem c hd)
    have hsc : ∀ d ∈ s.chars ++ [c], d.utf8Size = 1 := by
      intro d hd
      rcases List.mem_append.mp hd with hd | hd
      · exact hs d hd
      · rwa [List.mem_singleton.mp hd]
    rw [pushAll_cons]
    by_cases hroom : s.chars.length < N
    · have hkeep : (keep (push c) s).chars = s.chars ++ [c] := by
        rw [chars_keep_push, if_pos]
        rw [byteLen_of_ascii hsc, List.length_append, List.length_singleton]
        exact hroom
      rw [ih (by rwa [hkeep]) hl', hkeep, List.append_assoc, List.singleton_append]
    · -- the buffer is full: this character and all later ones are dropped
      have hlen : s.chars.length = N := by
        have hfit := s.fits
        rw [byteLen_of_ascii hs] at hfit
        omega
      have hkeep : keep (push c) s = s := by
        refine HString.ext ?_
        rw [chars_keep_push, if_neg]
        rw [byteLen_of_ascii hsc, List.length_append, List.length_singleton]
        omega
      rw [hkeep, ih hs hl', List.take_append_of_le_length (by omega),
        List.take_append_of_le_length (by omega)]

end HString

end Foundation
