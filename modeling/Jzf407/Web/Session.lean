import Jzf407.Web.Request

/-!
# The session atomics

The one session of the device lives in three atomics: a 64-bit token split over two words,
zero meaning that there is none, and the uptime second it was last refreshed. Two more
atomics count failed logins. `WebState` holds the five; every access of the firmware
happens between two await points, so a request acts on them as one step. The accesses have their own
small functions (`WebState.storeToken`, `WebState.clearToken`, `WebState.storeCreated`) with a lemma
for what each of them leaves alone.

`validateSession` is given by one law, `validateSession_of_extract`: once the cookie is
found, it is a test of the token and of the idle time (`checkToken`), on the number that the cookie
denotes (`cookieToken`). `presentedToken` is the token of a whole request; it is none also when the
scan does not return, and whether it does is asked about separately (`validateSession_isOk_iff`).

Minting is injective (`mintSessionToken_injective`): it multiplies by an odd number, which has an
inverse modulo `2 ^ 64`, and adds a constant. So two tokens are the same exactly when they were
minted from the same seed.
-/

namespace Jzf407

open Foundation

/-- The atomics of the web server. -/
structure WebState where
  tokenHi : UInt32
  tokenLo : UInt32
  created : UInt32
  failCount : UInt32
  failLast : UInt32
  deriving DecidableEq, Repr

/-- The idle limit of a session in seconds. -/
def sessionTtlSecs : ℕ := 900

/-- The name of the session cookie. -/
def sessionCookieName : Str := "jzf_session".toList

namespace WebState

/-- The atomics at boot. -/
def boot : WebState := ⟨0, 0, 0, 0, 0⟩

/-- The stored token. -/
def token (st : WebState) : UInt64 := (st.tokenHi.toUInt64 <<< 32) ||| st.tokenLo.toUInt64

/-- Store a token. -/
def storeToken (st : WebState) (token : UInt64) : WebState :=
  { st with tokenHi := (token >>> 32).toUInt32, tokenLo := token.toUInt32 }

/-- Drop the stored token. -/
def clearToken (st : WebState) : WebState := { st with tokenHi := 0, tokenLo := 0 }

/-- Store the second of the last activity. -/
def storeCreated (st : WebState) (now : ℕ) : WebState := { st with created := UInt32.ofNat now }

/-- A stored token is read back from its two words. -/
@[simp]
theorem token_storeToken (st : WebState) (t : UInt64) : (st.storeToken t).token = t := by
  have ht := t.toNat_lt
  have hdisj := Nat.shiftLeft_add_eq_or_of_lt (b := t.toNat % 2 ^ 32) (i := 32)
    (Nat.mod_lt _ (by decide)) (t.toNat / 2 ^ 32)
  apply UInt64.toNat_inj.mp
  simp only [token, storeToken, UInt64.toNat_or, UInt64.toNat_shiftLeft, UInt32.toNat_toUInt64,
    UInt64.toNat_toUInt32, UInt64.toNat_shiftRight, UInt64.reduceToNat, Nat.reduceMod,
    Nat.shiftRight_eq_div_pow]
  rw [Nat.mod_eq_of_lt (show t.toNat / 2 ^ 32 < 2 ^ 32 by omega),
    Nat.mod_eq_of_lt (by rw [Nat.shiftLeft_eq]; omega), ← hdisj, Nat.shiftLeft_eq]
  omega

@[simp]
theorem token_clearToken (st : WebState) : st.clearToken.token = 0 := by
  simp [token, clearToken]

@[simp]
theorem token_storeCreated (st : WebState) (now : ℕ) : (st.storeCreated now).token = st.token :=
  rfl

theorem toNat_created_storeCreated (st : WebState) {now : ℕ} (h : now < 2 ^ 32) :
    (st.storeCreated now).created.toNat = now := by
  simp only [storeCreated, UInt32.toNat_ofNat']
  exact Nat.mod_eq_of_lt h

end WebState

/-! ### Minting tokens -/

/-- The token minted from a seed. -/
def mintSessionToken (seed : UInt64) : UInt64 :=
  seed * 6364136223846793005 + 1442695040888963407

/-- The inverse of the odd multiplier. -/
private theorem mint_multiplier_inverse :
    (6364136223846793005 : UInt64) * 13877824140714322085 = 1 := by decide

/-- **Different seeds mint different tokens.** -/
theorem mintSessionToken_injective {x y : UInt64}
    (h : mintSessionToken x = mintSessionToken y) : x = y := by
  have hmul : x * 6364136223846793005 = y * 6364136223846793005 := by
    unfold mintSessionToken at h
    exact (UInt64.add_left_inj _).mp h
  calc x = x * (6364136223846793005 * 13877824140714322085) := by
        rw [mint_multiplier_inverse, UInt64.mul_one]
    _ = y * (6364136223846793005 * 13877824140714322085) := by
        rw [← UInt64.mul_assoc, hmul, UInt64.mul_assoc]
    _ = y := by rw [mint_multiplier_inverse, UInt64.mul_one]

/-! ### Validating a request -/

/-- Whether the request presents the live session, and the atomics after the check. -/
def validateSession (st : WebState) (req : Str) (refresh : Bool) (now : ℕ) :
    Except Panic (Bool × WebState) :=
  if st.token = 0 then .ok (false, st)
  else do
    match ← extractCookie req sessionCookieName with
    | none => .ok (false, st)
    | some cookieToken =>
      match (fromUtf8 cookieToken).bind parseU64 with
      | none => .ok (false, st)
      | some parsed =>
        if parsed ≠ st.token then .ok (false, st)
        -- the difference is saturating: a stored second ahead of the clock is no idle time
        else if now - st.created.toNat > sessionTtlSecs then .ok (false, st.clearToken)
        else .ok (true, if refresh then st.storeCreated now else st)

/-- The token that a found cookie value denotes. -/
def cookieToken (v : Option (List UInt8)) : Option UInt64 :=
  v.bind fun b => (fromUtf8 b).bind parseU64

/-- The token that a request presents; `none` when it presents none. -/
def presentedToken (req : Str) : Option UInt64 :=
  match extractCookie req sessionCookieName with
  | .ok v => cookieToken v
  | .error _ => none

/-- What validation does with a presented token. -/
def checkToken (st : WebState) (presented : Option UInt64) (refresh : Bool) (now : ℕ) :
    Bool × WebState :=
  if st.token ≠ 0 ∧ presented = some st.token then
    if now - st.created.toNat > sessionTtlSecs then (false, st.clearToken)
    else (true, if refresh then st.storeCreated now else st)
  else (false, st)

theorem checkToken_fst_eq_true_iff {st : WebState} {presented : Option UInt64} {refresh : Bool}
    {now : ℕ} :
    (checkToken st presented refresh now).1 = true ↔
      st.token ≠ 0 ∧ presented = some st.token ∧ now - st.created.toNat ≤ sessionTtlSecs := by
  unfold checkToken
  by_cases htoken : st.token ≠ 0 ∧ presented = some st.token
  · rw [if_pos htoken]
    split
    · next hidle => simp [Nat.not_le.mpr hidle]
    · next hidle => simp [htoken.1, htoken.2, Nat.not_lt.mp hidle]
  · rw [if_neg htoken]
    simp only [Bool.false_eq_true, false_iff]
    exact fun h => htoken ⟨h.1, h.2.1⟩

/-- A request presents a token only when its cookie scan returns. -/
theorem exists_extract_of_presentedToken {req : Str} {v : UInt64}
    (h : presentedToken req = some v) : ∃ c, extractCookie req sessionCookieName = .ok c := by
  unfold presentedToken at h
  cases hc : extractCookie req sessionCookieName with
  | ok c => exact ⟨c, rfl⟩
  | error e =>
    rw [hc] at h
    cases h

/-- **The law of validation**, once the cookie scan returns. -/
theorem validateSession_of_extract {st : WebState} {req : Str} {refresh : Bool} {now : ℕ}
    {v : Option (List UInt8)} (hv : extractCookie req sessionCookieName = .ok v) :
    validateSession st req refresh now = .ok (checkToken st (presentedToken req) refresh now) := by
  unfold validateSession checkToken presentedToken cookieToken
  rw [hv]
  by_cases htok : st.token = 0
  · simp [htok]
  · cases v with
    | none => simp [htok, bind, Except.bind]
    | some b =>
      simp only [htok, if_false, bind, Except.bind, Option.bind_some, ne_eq, not_false_eq_true,
        true_and]
      cases (fromUtf8 b).bind parseU64 with
      | none => simp
      | some parsed =>
        by_cases hp : parsed = st.token
        · subst hp
          simp only [not_true_eq_false, if_false, if_true, gt_iff_lt]
          split <;> rfl
        · simp [hp]

/-- The law of validation holds of every validation that returns: without a stored token
nothing is scanned, and nothing is accepted. -/
theorem eq_checkToken_of_validateSession {st : WebState} {req : Str} {refresh : Bool} {now : ℕ}
    {r : Bool × WebState} (h : validateSession st req refresh now = .ok r) :
    r = checkToken st (presentedToken req) refresh now := by
  cases hv : extractCookie req sessionCookieName with
  | ok v =>
    rw [validateSession_of_extract hv] at h
    exact (Except.ok.inj h).symm
  | error e =>
    unfold validateSession at h
    rw [hv] at h
    by_cases htok : st.token = 0
    · rw [if_pos htok] at h
      rw [checkToken, if_neg (by simp [htok])]
      exact (Except.ok.inj h).symm
    · rw [if_neg htok] at h
      cases h

/-- Validation returns iff it reads no cookie or the cookie scan returns. -/
theorem validateSession_isOk_iff (st : WebState) (req : Str) (refresh : Bool) (now : ℕ) :
    (∃ r, validateSession st req refresh now = .ok r) ↔
      (st.token ≠ 0 → ScanSafe sessionCookieName (lines req)) := by
  rw [← extractCookie_isOk_iff]
  by_cases htok : st.token = 0
  · simp [validateSession, htok]
  · simp only [ne_eq, htok, not_false_eq_true, forall_const]
    constructor
    · rintro ⟨r, hr⟩
      cases hv : extractCookie req sessionCookieName with
      | ok v => exact ⟨v, rfl⟩
      | error e =>
        rw [validateSession, if_neg htok, hv] at hr
        cases hr
    · rintro ⟨v, hv⟩
      exact ⟨_, validateSession_of_extract hv⟩

end Jzf407
