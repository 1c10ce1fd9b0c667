import Jzf407.Web.Session

/-!
# Cookies below the header section

The cookie scan reads the lines of the raw request, and it does not stop at the blank line. So a
line of the body that looks like a cookie header supplies the session cookie, unless a line of
the header section has supplied one before (`cookie_from_body`).

Two requests with the same header section get the same cookie and the same verdict, both from
the header section, exactly when a line of it decides the scan or no line of a body does
(`cookie_from_header_iff`).

Which lines decide is said of the line alone (`Decides`): it is a cookie header with a cookie of the
name, or it cannot be cut after its first seven bytes. The scan passes over every other line, which
is `decides_iff`, and stops at the first that decides. So the lines of a header section either
decide, and then nothing after them is read (`scanLines_append_of_decides`), or they do not, and
then the body is scanned as if it were all there is (`scanLines_append_of_not_decides`). A scan that
finds nothing has met no line that decides (`scanLines_eq_none_iff`), and this is what makes the
condition on the body necessary.
-/

namespace Jzf407

open Foundation

/-- A line decides the scan when it is a cookie header with a cookie of that name, or when its
first seven bytes end inside a character, where the slice panics. -/
def Decides (name line : Str) : Prop :=
  ¬ Sliceable line ∨
    ∃ head rest, line = head ++ rest ∧ byteLen head = byteLen cookiePrefix ∧
      eqIgnoreAsciiCase head cookiePrefix = true ∧
      ∃ cookie ∈ (trim rest).splitOn ';', (cookieValue name cookie).isSome

/-- The cookie of a line that is cut after its first seven bytes. -/
theorem lineCookie_append {name head rest : Str} (hlen : byteLen head = byteLen cookiePrefix) :
    lineCookie name (head ++ rest) =
      if !eqIgnoreAsciiCase head cookiePrefix then .ok none
      else .ok (((trim rest).splitOn ';').findSome? (cookieValue name)) := by
  have hlong : ¬ byteLen (head ++ rest) < byteLen cookiePrefix := by
    rw [byteLen_append]
    omega
  rw [lineCookie, if_neg hlong, ← hlen, sliceTo_append, sliceFrom_append]
  rfl

/-- Such a line decides as a cookie header only: it is cut at a byte in one way. -/
theorem decides_append_iff {name head rest : Str} (hlen : byteLen head = byteLen cookiePrefix) :
    Decides name (head ++ rest) ↔ eqIgnoreAsciiCase head cookiePrefix = true ∧
      ∃ cookie ∈ (trim rest).splitOn ';', (cookieValue name cookie).isSome := by
  have hcut := splitAtByte_eq_some_iff.mpr ⟨(rfl : head ++ rest = head ++ rest), hlen⟩
  have hslice : Sliceable (head ++ rest) := by
    refine .inr ?_
    rw [isCharBoundary, hcut, Option.isSome_some]
  rw [Decides, or_iff_right (not_not_intro hslice)]
  constructor
  · rintro ⟨head', rest', hsplit, hlen', hheader⟩
    have hcut' := splitAtByte_eq_some_iff.mpr ⟨hsplit, hlen'⟩
    rw [hcut] at hcut'
    obtain ⟨rfl, rfl⟩ := Prod.mk.inj (Option.some.inj hcut')
    exact hheader
  · exact fun hheader => ⟨head, rest, rfl, hlen, hheader⟩

/-- The lines that decide are those that the scan does not pass over. -/
theorem decides_iff {name line : Str} : Decides name line ↔ lineCookie name line ≠ .ok none := by
  by_cases hslice : Sliceable line
  · by_cases hshort : byteLen line < byteLen cookiePrefix
    · have hnone : lineCookie name line = .ok none := by rw [lineCookie, if_pos hshort]
      refine iff_of_false ?_ (not_not_intro hnone)
      rintro (hno | ⟨head, rest, rfl, hlen, -⟩)
      · exact hno hslice
      · rw [byteLen_append] at hshort
        omega
    · obtain ⟨head, rest, rfl, hlen⟩ :=
        exists_split_of_isCharBoundary (hslice.resolve_left hshort)
      rw [decides_append_iff hlen, lineCookie_append hlen]
      by_cases hcookie : eqIgnoreAsciiCase head cookiePrefix = true
      · simp [hcookie, Option.isSome_iff_ne_none]
      · simp [hcookie]
  · -- the panic of the slice
    refine iff_of_true (.inl hslice) fun h => hslice ?_
    exact (lineCookie_isOk_iff name line).mp ⟨none, h⟩

/-- Whether a line is passed over can be read off its cookie. -/
private def passedOver : Except Panic (Option (List UInt8)) → Bool
  | .ok none => true
  | _ => false

instance (name : Str) : DecidablePred (Decides name) := fun line =>
  decidable_of_iff (passedOver (lineCookie name line) = false) <| by
    rw [decides_iff]
    rcases lineCookie name line with e | _ | value <;> simp [passedOver]

/-! ### The scan over a section and what follows it -/

/-- A line that does not decide is passed over. -/
theorem scanLines_cons_of_not_decides {name line : Str} (h : ¬ Decides name line)
    (ls : List Str) : scanLines name (line :: ls) = scanLines name ls := by
  rw [scanLines, not_not.mp (mt decides_iff.mpr h)]
  rfl

/-- A line that decides ends the scan. -/
theorem scanLines_cons_of_decides {name line : Str} (h : Decides name line) (ls : List Str) :
    scanLines name (line :: ls) = lineCookie name line := by
  rw [scanLines]
  rcases hline : lineCookie name line with e | _ | value
  · rfl
  · exact absurd hline (decides_iff.mp h)
  · rfl

/-- Lines that do not decide are passed over. -/
theorem scanLines_append_of_not_decides {name : Str} {ls : List Str}
    (h : ∀ line ∈ ls, ¬ Decides name line) (ls' : List Str) :
    scanLines name (ls ++ ls') = scanLines name ls' := by
  induction ls with
  | nil => rfl
  | cons line rest ih =>
    obtain ⟨hline, hrest⟩ := List.forall_mem_cons.mp h
    exact (scanLines_cons_of_not_decides hline (rest ++ ls')).trans (ih hrest)

/-- Once a line decides, nothing that follows is read. -/
theorem scanLines_append_of_decides {name : Str} {ls : List Str}
    (h : ∃ line ∈ ls, Decides name line) (ls' : List Str) :
    scanLines name (ls ++ ls') = scanLines name ls := by
  induction ls with
  | nil => simp at h
  | cons line rest ih =>
    by_cases hline : Decides name line
    · rw [List.cons_append, scanLines_cons_of_decides hline, scanLines_cons_of_decides hline]
    · have hrest : ∃ line ∈ rest, Decides name line := by
        obtain ⟨l, hl, hdecides⟩ := h
        rcases List.mem_cons.mp hl with rfl | hl
        · exact absurd hdecides hline
        · exact ⟨l, hl, hdecides⟩
      rw [List.cons_append, scanLines_cons_of_not_decides hline, ih hrest,
        scanLines_cons_of_not_decides hline]

/-- **When a scan finds nothing**: exactly when no line decides. -/
theorem scanLines_eq_none_iff {name : Str} {ls : List Str} :
    scanLines name ls = .ok none ↔ ∀ line ∈ ls, ¬ Decides name line := by
  induction ls with
  | nil => simp [scanLines]
  | cons line rest ih =>
    rw [List.forall_mem_cons]
    by_cases hline : Decides name line
    · rw [scanLines_cons_of_decides hline]
      exact iff_of_false (decides_iff.mp hline) fun h => h.1 hline
    · rw [scanLines_cons_of_not_decides hline, ih, and_iff_right hline]

/-- The cookie of a request with a header section, an empty line and a body: that of the header
section if a line of it decides, and that of the body otherwise. -/
theorem extractCookie_of_lines {r : Str} {header body : List Str} (name : Str)
    (h : lines r = header ++ [] :: body) :
    extractCookie r name = if ∃ line ∈ header, Decides name line then scanLines name header
      else scanLines name body := by
  have hempty : ¬ Decides name [] := fun hdecides => decides_iff.mp hdecides rfl
  rw [extractCookie, h]
  split
  · next hdecides => exact scanLines_append_of_decides hdecides _
  · next hno =>
    rw [scanLines_append_of_not_decides fun line hline hdecides => hno ⟨line, hline, hdecides⟩,
      scanLines_cons_of_not_decides hempty]

/-- **When the header section alone supplies the cookie**: two requests that agree up to an
empty line get the same verdict, in the same session state at the same time, and the same
cookie, and that cookie is the one of the header section, exactly when a line of the header
section decides the scan or no line of a body does.

Without its last part the property would hold of more requests: two bodies that supply the same
cookie give the same result, too, although it comes from the body. -/
theorem cookie_from_header_iff {r₁ r₂ : Str} {header body₁ body₂ : List Str} (st : WebState)
    (refresh : Bool) (now : ℕ) (h₁ : lines r₁ = header ++ [] :: body₁)
    (h₂ : lines r₂ = header ++ [] :: body₂) :
    (validateSession st r₁ refresh now = validateSession st r₂ refresh now ∧
        extractCookie r₁ sessionCookieName = extractCookie r₂ sessionCookieName ∧
          extractCookie r₁ sessionCookieName = scanLines sessionCookieName header) ↔
      (∃ line ∈ header, Decides sessionCookieName line) ∨
        ∀ line ∈ body₁ ++ body₂, ¬ Decides sessionCookieName line := by
  have hcookie₁ := extractCookie_of_lines sessionCookieName h₁
  have hcookie₂ := extractCookie_of_lines sessionCookieName h₂
  -- the verdict depends on the request through its cookie only
  have hverdict (h : extractCookie r₁ sessionCookieName = extractCookie r₂ sessionCookieName) :
      validateSession st r₁ refresh now = validateSession st r₂ refresh now := by
    rw [validateSession, validateSession, h]
  by_cases hheader : ∃ line ∈ header, Decides sessionCookieName line
  · rw [if_pos hheader] at hcookie₁ hcookie₂
    have hsame := hcookie₁.trans hcookie₂.symm
    exact iff_of_true ⟨hverdict hsame, hsame, hcookie₁⟩ (.inl hheader)
  · rw [if_neg hheader] at hcookie₁ hcookie₂
    -- the header section supplies nothing, so neither body may
    have hnone : scanLines sessionCookieName header = .ok none :=
      scanLines_eq_none_iff.mpr fun line hline hdecides => hheader ⟨line, hline, hdecides⟩
    rw [or_iff_right hheader, List.forall_mem_append, ← scanLines_eq_none_iff,
      ← scanLines_eq_none_iff, ← hcookie₁, ← hcookie₂, hnone]
    constructor
    · rintro ⟨-, hsame, hfirst⟩
      exact ⟨hfirst, hsame.symm.trans hfirst⟩
    · rintro ⟨hfirst, hsecond⟩
      have hsame := hfirst.trans hsecond.symm
      exact ⟨hverdict hsame, hsame, hfirst⟩

/-- A cookie of the header section is the one that is found, whatever the body says. -/
theorem cookie_from_header_of_cookie :
    let r₁ := "GET / HTTP/1.1\r\nCookie: jzf_session=7\r\n\r\n".toList
    let r₂ := "GET / HTTP/1.1\r\nCookie: jzf_session=7\r\n\r\nCookie: jzf_session=8".toList
    validateSession ⟨0, 7, 0, 0, 0⟩ r₁ false 5 = validateSession ⟨0, 7, 0, 0, 0⟩ r₂ false 5 ∧
      extractCookie r₁ sessionCookieName = extractCookie r₂ sessionCookieName ∧
        extractCookie r₁ sessionCookieName = scanLines sessionCookieName
          ["GET / HTTP/1.1".toList, "Cookie: jzf_session=7".toList] := by
  have h₁ : lines "GET / HTTP/1.1\r\nCookie: jzf_session=7\r\n\r\n".toList =
      ["GET / HTTP/1.1".toList, "Cookie: jzf_session=7".toList] ++ [] :: [] := by
    decide +kernel
  have h₂ : lines
      "GET / HTTP/1.1\r\nCookie: jzf_session=7\r\n\r\nCookie: jzf_session=8".toList =
      ["GET / HTTP/1.1".toList, "Cookie: jzf_session=7".toList] ++
        [] :: ["Cookie: jzf_session=8".toList] := by
    decide +kernel
  exact (cookie_from_header_iff ⟨0, 7, 0, 0, 0⟩ false 5 h₁ h₂).mpr (.inl (by decide +kernel))

/-- **A body can supply the cookie**: in a session with token 7, a body line that reads like a
cookie header authenticates a request whose header section has no cookie. -/
theorem cookie_from_body :
    ¬ ∀ (r₁ r₂ : Str) (header body₁ body₂ : List Str) (st : WebState) (refresh : Bool) (now : ℕ),
      [] ∉ header → lines r₁ = header ++ [] :: body₁ → lines r₂ = header ++ [] :: body₂ →
        validateSession st r₁ refresh now = validateSession st r₂ refresh now ∧
          extractCookie r₁ sessionCookieName = extractCookie r₂ sessionCookieName := by
  intro hheaderOnly
  have hsame := hheaderOnly "POST / HTTP/1.1\r\n\r\n".toList
    "POST / HTTP/1.1\r\n\r\nCookie: jzf_session=7".toList ["POST / HTTP/1.1".toList] []
    ["Cookie: jzf_session=7".toList] ⟨0, 7, 0, 0, 0⟩ false 5 (by decide) (by decide +kernel)
    (by decide +kernel)
  have hbefore : validateSession ⟨0, 7, 0, 0, 0⟩ "POST / HTTP/1.1\r\n\r\n".toList false 5 =
      .ok (false, ⟨0, 7, 0, 0, 0⟩) := by decide +kernel
  have hafter : validateSession ⟨0, 7, 0, 0, 0⟩
      "POST / HTTP/1.1\r\n\r\nCookie: jzf_session=7".toList false 5 =
      .ok (true, ⟨0, 7, 0, 0, 0⟩) := by decide +kernel
  rw [hbefore, hafter] at hsame
  exact absurd hsame.1 (by decide)

end Jzf407
