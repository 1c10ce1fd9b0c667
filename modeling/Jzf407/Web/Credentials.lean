import Jzf407.Web.Connection

/-!
# The login comparison

The login compares two tokens in place of the credentials. The token of the configured
credentials, of at most 65 bytes, is whole (`chars_basicToken_config`); the token of the submitted
ones may have lost the password or its tail. A lost tail does no harm, since the rest is longer than
any configured token, so equal tokens come from equal gathered bytes (`basicToken_eq_iff`). A lost
password does: what remains is the user name and the colon, and these can be the configured
credentials (`DropsPassword`).

`loginCredentialsMatch_iff` says what the login accepts, in terms of the bytes
`user ':' pass` (`credentialBytes`): the configured credentials, or a submission whose password is
dropped. Which colon separates the two cannot be told from these bytes, and the comparison does not
tell it either. `login_exact_iff` says exactly when the whole credentials are compared.
-/

namespace Jzf407

open Foundation

/-- The bytes that the comparison is about: user name, colon and password. -/
def credentialBytes (user pass : Str) : List UInt8 :=
  asBytes user ++ ':'.toUInt8 :: asBytes pass

theorem length_credentialBytes (user pass : Str) :
    (credentialBytes user pass).length = byteLen user + 1 + byteLen pass := by
  simp only [credentialBytes, List.length_append, List.length_cons, length_asBytes]
  omega

/-- The token of configured credentials is the encoding of all their bytes. -/
theorem chars_basicToken_config (webUser webPass : HString credMax) :
    (basicToken webUser.chars webPass.chars).chars =
      Base64.encode (credentialBytes webUser.chars webPass.chars) := by
  have hu : byteLen webUser.chars ≤ 32 := webUser.fits
  have hp : byteLen webPass.chars ≤ 32 := webPass.fits
  have hitems : (rawCredentials webUser.chars webPass.chars).items =
      credentialBytes webUser.chars webPass.chars := by
    rw [items_rawCredentials _ (by omega), if_pos (by omega)]
    rfl
  rw [chars_basicToken_of_le, hitems]
  rw [hitems, length_credentialBytes]
  omega

/-- **Tokens compare the gathered bytes**: against configured credentials the tokens are equal
iff the gathered bytes are, also when the submitted token has lost its tail. -/
theorem basicToken_eq_iff (user pass : Str) (webUser webPass : HString credMax) :
    (basicToken user pass).chars = (basicToken webUser.chars webPass.chars).chars ↔
      (rawCredentials user pass).items = credentialBytes webUser.chars webPass.chars := by
  have hu : byteLen webUser.chars ≤ 32 := webUser.fits
  have hp : byteLen webPass.chars ≤ 32 := webPass.fits
  have hlen := length_credentialBytes webUser.chars webPass.chars
  rw [chars_basicToken_config]
  by_cases hshort : (rawCredentials user pass).items.length ≤ 72
  · rw [chars_basicToken_of_le hshort]
    exact ⟨Base64.encode_injective, congrArg Base64.encode⟩
  · -- the submitted token fills its buffer, and no configured one does
    constructor
    · intro h
      have hlengths := congrArg List.length h
      rw [chars_basicToken, List.length_take, Base64.length_encode, Base64.length_encode]
        at hlengths
      omega
    · intro h
      rw [h] at hshort
      omega

/-- The submitted password is left out, and what remains is the configured credentials. -/
def DropsPassword (cfg : NetworkConfig) (user pass : Str) : Prop :=
  96 ≤ byteLen user + byteLen pass ∧
    asBytes user ++ [':'.toUInt8] = credentialBytes cfg.webUser.chars cfg.webPass.chars

/-- The gathered bytes are the configured credentials iff the submitted ones are, or the
password was dropped from them. -/
theorem rawCredentials_eq_iff {cfg : NetworkConfig} {user pass : Str} (huser : byteLen user ≤ 64) :
    (rawCredentials user pass).items = credentialBytes cfg.webUser.chars cfg.webPass.chars ↔
      credentialBytes user pass = credentialBytes cfg.webUser.chars cfg.webPass.chars ∨
        DropsPassword cfg user pass := by
  have hu : byteLen cfg.webUser.chars ≤ 32 := cfg.webUser.fits
  have hp : byteLen cfg.webPass.chars ≤ 32 := cfg.webPass.fits
  have hlen := length_credentialBytes cfg.webUser.chars cfg.webPass.chars
  rw [items_rawCredentials pass (by omega), DropsPassword]
  by_cases hfits : byteLen user + 1 + byteLen pass ≤ 96
  · rw [if_pos hfits]
    exact ⟨.inl, fun h => h.elim id fun hdrop => by omega⟩
  · rw [if_neg hfits]
    constructor
    · exact fun h => .inr ⟨by omega, h⟩
    · rintro (h | ⟨-, h⟩)
      · have hlengths := congrArg List.length h
        rw [length_credentialBytes, hlen] at hlengths
        omega
      · exact h

section Login

variable {cfg : NetworkConfig} {request : ParsedRequest} {body : Str} {user pass : HString 64}

/-- **What the login accepts**: the configured credentials, and submissions whose password is
dropped. -/
theorem loginCredentialsMatch_iff (start : ℕ) (hbody : request.bodyText = some body)
    (hform : parseLoginForm body = (some user, some pass)) :
    loginCredentialsMatch request (Pool.start cfg start).expectedToken = .ok true ↔
      credentialBytes user.chars pass.chars = credentialBytes cfg.webUser.chars cfg.webPass.chars ∨
        DropsPassword cfg user.chars pass.chars := by
  rw [← rawCredentials_eq_iff user.fits, ← basicToken_eq_iff, loginCredentialsMatch_eq,
    credentialsMatch, hbody]
  simp only [hform, Except.ok.injEq, beq_iff_eq]
  rfl

/-- **When the login compares the whole credentials**: exactly when the password is not both
dropped and missing from the configured credentials. -/
theorem login_exact_iff (start : ℕ) (hbody : request.bodyText = some body)
    (hform : parseLoginForm body = (some user, some pass)) :
    (loginCredentialsMatch request (Pool.start cfg start).expectedToken = .ok true ↔
        credentialBytes user.chars pass.chars =
          credentialBytes cfg.webUser.chars cfg.webPass.chars) ↔
      ¬ (96 ≤ byteLen user.chars + byteLen pass.chars ∧
        asBytes user.chars ++ [':'.toUInt8] =
          credentialBytes cfg.webUser.chars cfg.webPass.chars) := by
  rw [loginCredentialsMatch_iff start hbody hform]
  change (_ ∨ DropsPassword cfg user.chars pass.chars ↔ _) ↔ ¬ DropsPassword cfg _ _
  constructor
  · intro h hdrop
    have hlengths := congrArg List.length ((h.mp (.inr hdrop)).trans hdrop.2.symm)
    rw [length_credentialBytes, List.length_append, length_asBytes, List.length_singleton]
      at hlengths
    have huser := user.fits
    have := hdrop.1
    omega
  · exact fun hno => ⟨fun h => h.resolve_right hno, .inl⟩

end Login

/-- The text of a login with these form values. -/
def loginText (user pass : Str) : Str :=
  "POST /login HTTP/1.1\r\n\r\nuser=".toList ++ user ++ "&pass=".toList ++ pass

/-- The comparison of a login with the configured credentials. -/
theorem login_exact_iff_admin :
    (loginCredentialsMatch (ParsedRequest.new (loginText "admin".toList "secret".toList))
        (Pool.start adminConfig 0).expectedToken = .ok true ↔
      credentialBytes "admin".toList "secret".toList =
        credentialBytes adminConfig.webUser.chars adminConfig.webPass.chars) ↔
      ¬ (96 ≤ byteLen "admin".toList + byteLen "secret".toList ∧
        asBytes "admin".toList ++ [':'.toUInt8] =
          credentialBytes adminConfig.webUser.chars adminConfig.webPass.chars) :=
  @login_exact_iff adminConfig (ParsedRequest.new (loginText "admin".toList "secret".toList))
    "user=admin&pass=secret".toList ⟨"admin".toList, by decide⟩ ⟨"secret".toList, by decide⟩ 0
    (by decide +kernel) (by decide +kernel)

/-- A user name of 32 bytes with an empty password is logged in with any password of 64. -/
theorem login_of_dropped_password :
    ¬ ∀ (cfg : NetworkConfig) (start : ℕ) (request : ParsedRequest) (body : Str)
      (user pass : HString 64), request.bodyText = some body →
        parseLoginForm body = (some user, some pass) →
          (loginCredentialsMatch request (Pool.start cfg start).expectedToken = .ok true ↔
            credentialBytes user.chars pass.chars =
              credentialBytes cfg.webUser.chars cfg.webPass.chars) := by
  intro h
  let name : Str := List.replicate 32 'u'
  let guess : Str := List.replicate 64 'x'
  let cfg : NetworkConfig := { NetworkConfig.default with webUser := ⟨name, by decide⟩ }
  have hmatch := h cfg 0 (ParsedRequest.new (loginText name guess))
    ("user=".toList ++ name ++ "&pass=".toList ++ guess) ⟨name, by decide⟩ ⟨guess, by decide⟩
    (by decide +kernel) (by decide +kernel)
  exact absurd (hmatch.mp (by decide +kernel)) (by decide +kernel)

end Jzf407
