import Jzf407.Foundation.Scan

/-!
# Requests and their cookies

`ParsedRequest` is the view of a raw request that routing uses: method, path and query of
the first line (`ParsedRequest.new`), and the body after the first blank line
(`ParsedRequest.body`). `extractCookie` scans the lines of the raw request for a cookie header:
`scanLines` goes from line to line, `lineCookie` looks at one of them, and `cookieValue` at one
cookie of its list.

The scan takes the first seven bytes of every line it reads, and taking them panics when
byte seven is inside a character (`Sliceable`). `extractCookie_isOk_iff` is the exact account: the
scan returns iff every line it reads is shorter than seven bytes or has a character boundary at
byte seven. A line is read when no line before it yields a value (`ScanSafe`). The body, by
contrast, starts four bytes after a found ASCII pattern, and taking it never panics (`body_isOk`).

`ParsedRequest.refreshesSession` says which requests count as activity of the user: all but the
two that the page makes by itself, and those, too, when they say so in the query.
-/

namespace Jzf407

open Foundation

/-! ### The parsed request -/

/-- The end of a header section. -/
def blankLine : Str := "\r\n\r\n".toList

/-- A raw request with the parts of its first line. -/
structure ParsedRequest where
  raw : Str
  method : Str
  path : Str
  query : Str
  deriving DecidableEq

namespace ParsedRequest

/-- Parse the first line of a raw request. -/
def new (raw : Str) : ParsedRequest :=
  let firstLine := (lines raw).head?.getD []
  let parts := splitWhitespace firstLine
  let method := parts.head?.getD []
  let target := parts.tail.head?.getD "/".toList
  let (path, query) := (splitOnce '?' target).getD (target, [])
  { raw := raw, method := method, path := path, query := query }

@[simp]
theorem raw_new (raw : Str) : (new raw).raw = raw := rfl

/-- The body: what follows the first blank line. -/
def body (request : ParsedRequest) : Except Panic (Option Str) :=
  match find blankLine request.raw with
  | none => .ok none
  | some start => (sliceFrom request.raw (start + 4)).map some

/-- Whether an accepted request slides the idle limit: background polls do so only when they
report activity. -/
def refreshesSession (request : ParsedRequest) : Bool :=
  !(request.path == "/state".toList || request.path == "/events".toList) ||
    contains "active=1".toList request.query

/-- The body of a request with a blank line. -/
theorem body_eq_ok_some {request : ParsedRequest} {pre post : Str}
    (hraw : request.raw = pre ++ (blankLine ++ post))
    (hfind : find blankLine request.raw = some (byteLen pre)) :
    request.body = .ok (some post) := by
  have hsplit : request.raw = (pre ++ blankLine) ++ post := by rw [hraw, List.append_assoc]
  have hlen : byteLen pre + 4 = byteLen (pre ++ blankLine) := by
    rw [byteLen_append]
    rfl
  rw [body, hfind]
  change (sliceFrom request.raw (byteLen pre + 4)).map some = _
  rw [hlen, hsplit, sliceFrom_append]
  rfl

/-- **Taking the body never panics.** -/
theorem body_isOk (request : ParsedRequest) : ∃ b, request.body = .ok b := by
  cases hfind : find blankLine request.raw with
  | none => exact ⟨none, by rw [body, hfind]⟩
  | some n =>
    obtain ⟨pre, post, hraw, rfl⟩ := exists_of_find_eq_some hfind
    exact ⟨some post, body_eq_ok_some hraw hfind⟩

end ParsedRequest

/-! ### The cookie scan -/

/-- The name of the cookie header, compared without regard to case. -/
def cookiePrefix : Str := "cookie:".toList

/-- The value of one `name=value` cookie. -/
def cookieValue (name cookie : Str) : Option (List UInt8) := do
  let rest ← stripPrefix name (trim cookie)
  let value ← stripPrefix ['='] (trimStart rest)
  some (asBytes (trim value))

/-- The value a line yields: the first cookie of that name, if the line is a cookie header. -/
def lineCookie (name line : Str) : Except Panic (Option (List UInt8)) :=
  if byteLen line < byteLen cookiePrefix then .ok none
  else do
    -- the length of the line is checked before this slice, its character boundary is not
    let head ← sliceTo line (byteLen cookiePrefix)
    if !eqIgnoreAsciiCase head cookiePrefix then .ok none
    else do
      let rest ← sliceFrom line (byteLen cookiePrefix)
      .ok (((trim rest).splitOn ';').findSome? (cookieValue name))

/-- Scan lines until one yields a value. -/
def scanLines (name : Str) : List Str → Except Panic (Option (List UInt8))
  | [] => .ok none
  | line :: rest => do
      match ← lineCookie name line with
      | some value => .ok (some value)
      | none => scanLines name rest

/-- **The cookie of a request.** -/
def extractCookie (req name : Str) : Except Panic (Option (List UInt8)) :=
  scanLines name (lines req)

/-- A line whose first seven bytes can be taken, or that is too short to take them. -/
def Sliceable (line : Str) : Prop :=
  byteLen line < byteLen cookiePrefix ∨ isCharBoundary line (byteLen cookiePrefix) = true

instance (line : Str) : Decidable (Sliceable line) := inferInstanceAs (Decidable (_ ∨ _))

/-- Every line that the scan reads is sliceable: a line is read when no line before it
yields a value. -/
def ScanSafe (name : Str) (ls : List Str) : Prop :=
  ∀ pre line post, ls = pre ++ line :: post → (∀ l ∈ pre, lineCookie name l = .ok none) →
    Sliceable line

theorem lineCookie_isOk_iff (name line : Str) :
    (∃ v, lineCookie name line = .ok v) ↔ Sliceable line := by
  unfold lineCookie Sliceable
  by_cases hshort : byteLen line < byteLen cookiePrefix
  · simp [hshort]
  · simp only [hshort, if_false, false_or]
    cases hb : isCharBoundary line (byteLen cookiePrefix) with
    | false => simp [sliceTo_of_not_isCharBoundary hb, bind, Except.bind]
    | true =>
      obtain ⟨a, b, rfl, ha⟩ := exists_split_of_isCharBoundary hb
      simp only [← ha, sliceTo_append, sliceFrom_append, bind, Except.bind, iff_true]
      split
      · exact ⟨_, rfl⟩
      · exact ⟨_, rfl⟩

theorem scanLines_isOk_iff (name : Str) (ls : List Str) :
    (∃ v, scanLines name ls = .ok v) ↔ ScanSafe name ls := by
  induction ls with
  | nil => simp [scanLines, ScanSafe]
  | cons line rest ih =>
    constructor
    · -- the line in question is the first one, or is read after that has yielded nothing
      rintro ⟨v, hv⟩ pre line' post hsplit hpre
      cases hline : lineCookie name line with
      | error e =>
        rw [scanLines, hline] at hv
        cases hv
      | ok w =>
        have hslice : Sliceable line := (lineCookie_isOk_iff name line).mp ⟨w, hline⟩
        cases pre with
        | nil =>
          obtain ⟨rfl, rfl⟩ : line = line' ∧ rest = post := by simpa using hsplit
          exact hslice
        | cons p pre =>
          obtain ⟨rfl, rfl⟩ : line = p ∧ rest = pre ++ line' :: post := by simpa using hsplit
          have hnone : lineCookie name line = .ok none := hpre line List.mem_cons_self
          rw [scanLines, hnone] at hv
          exact ih.mp ⟨v, hv⟩ pre line' post rfl fun l hl =>
            hpre l (List.mem_cons_of_mem _ hl)
    · intro hsafe
      obtain ⟨w, hw⟩ := (lineCookie_isOk_iff name line).mpr
        (hsafe [] line rest rfl (by simp))
      -- a line that yields a value ends the scan, and nothing after it is read
      cases w with
      | some value => exact ⟨some value, by rw [scanLines, hw]; rfl⟩
      | none =>
        obtain ⟨v, hv⟩ := ih.mpr fun pre line' post hsplit hpre =>
          hsafe (line :: pre) line' post (by rw [hsplit]; rfl) fun l hl => by
            rcases List.mem_cons.mp hl with rfl | hl
            · exact hw
            · exact hpre l hl
        exact ⟨v, by rw [scanLines, hw]; exact hv⟩

/-- **When the cookie scan returns**: exactly when every line it reads is sliceable. -/
theorem extractCookie_isOk_iff (req name : Str) :
    (∃ v, extractCookie req name = .ok v) ↔ ScanSafe name (lines req) :=
  scanLines_isOk_iff name (lines req)

end Jzf407
