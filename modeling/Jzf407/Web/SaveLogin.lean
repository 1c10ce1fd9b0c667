import Jzf407.Web.Connection

/-!
# Logging in with what was saved

The credentials pass through two parsers. A save trims the value of a pair, decodes it into 64
bytes and stores it in a slot of 32; a login decodes the value as it stands. Between the two lie
the record in the EEPROM and the comparison token of the boot.

A value without white space is the same to both. So encoded credentials that a save accepts are
accepted by the login after the reboot (`saved_login_accepted`).

The proof follows a value on its way. `lastValue` is what a body gives a key last, as it stands, and
`submitted_of_lastValue` says that this is what the save has stored, decoded. It is put into a login
as it is (`loginBody`): no `&` is in it, since it was cut at these, so the login form reads the same
text (`parseLoginForm_loginBody`). A stored text is short enough for the token to be whole, and the
record gives it back, because whatever a form leaves is well formed.
-/

namespace Jzf407

open Foundation

/-- The value that a body gives a key last, as it stands. -/
def lastValue (key body : Str) : Option Str :=
  ((body.splitOn '&').filter fun pair => trim (keyValue pair).1 = key).getLast?.map
    fun pair => (keyValue pair).2

section Save

variable {current c : NetworkConfig} {body : Str}

/-- Every value of an accepted form decodes. -/
theorem decodes_of_parseForm (h : parseForm body current = some c) {pair : Str}
    (hpair : pair ∈ body.splitOn '&') :
    ∃ v, formUrlDecode 64 (trim (keyValue pair).2) = .ok v := by
  obtain ⟨t, t', hstep⟩ := foldlM_step_of_mem h hpair
  obtain ⟨v, hv, -⟩ := applyPair_eq_some_iff.mp hstep
  exact ⟨v, toOption_eq_some_iff.mp hv⟩

/-- The value of a piece is part of the piece. -/
theorem mem_of_mem_value {pair : Str} {ch : Char} (h : ch ∈ (keyValue pair).2) : ch ∈ pair := by
  unfold keyValue splitOnce at h
  split at h
  · exact List.dropWhile_subset _ (List.mem_of_mem_tail h)
  · cases h

/-- The value given last is the one submitted, and no `&` is in it. -/
theorem submitted_of_lastValue (h : parseForm body current = some c) (field : FormKey)
    {val : Str} (hval : lastValue field.name body = some val) :
    '&' ∉ val ∧ ∃ v, formUrlDecode 64 (trim val) = .ok v ∧ submitted field body = some v.chars := by
  obtain ⟨pair, hlast, rfl⟩ := Option.map_eq_some_iff.mp hval
  obtain ⟨before, hfilter⟩ := List.getLast?_eq_some_iff.mp hlast
  have hmem : pair ∈ (body.splitOn '&').filter fun pair => trim (keyValue pair).1 = field.name := by
    rw [hfilter]
    exact List.mem_append_right _ List.mem_cons_self
  have hpair : pair ∈ body.splitOn '&' := (List.mem_filter.mp hmem).1
  obtain ⟨v, hv⟩ := decodes_of_parseForm h hpair
  -- only the pairs with the key of the field submit a value
  have hselect : (body.splitOn '&').filterMap (submittedValue field) =
      ((body.splitOn '&').filter fun pair => trim (keyValue pair).1 = field.name).filterMap
        fun pair => (formUrlDecode 64 (trim (keyValue pair).2)).toOption := by
    rw [List.filterMap_filter]
    refine congrArg (List.filterMap · _) (funext fun p => ?_)
    simp only [submittedValue, FormKey.ofStr_eq_some_iff, decide_eq_true_eq]
  refine ⟨fun hamp => notMem_of_mem_splitOn hpair (mem_of_mem_value hamp), v, hv, ?_⟩
  have hone : [pair].filterMap (fun pair => (formUrlDecode 64 (trim (keyValue pair).2)).toOption) =
      [v] := by
    simp only [List.filterMap_cons, toOption_eq_some_iff.mpr hv, List.filterMap_nil]
  rw [submitted, hselect, hfilter, List.filterMap_append, hone, List.getLast?_concat,
    Option.map_some]

end Save

/-! ### The login body -/

/-- The body of a login with these form values. -/
def loginBody (user pass : Str) : Str := "user=".toList ++ user ++ "&pass=".toList ++ pass

/-- **The login form** of values without `&` is what they decode to. -/
theorem parseLoginForm_loginBody {user pass : Str} (huser : '&' ∉ user) (hpass : '&' ∉ pass) :
    parseLoginForm (loginBody user pass) =
      ((formUrlDecode 64 user).toOption, (formUrlDecode 64 pass).toOption) := by
  have hsplit : (loginBody user pass).splitOn '&' =
      ["user".toList ++ '=' :: user, "pass".toList ++ '=' :: pass] := by
    have hfirst : '&' ∉ "user".toList ++ '=' :: user := by simpa using huser
    have hsecond : '&' ∉ "pass".toList ++ '=' :: pass := by simpa using hpass
    have hbody : loginBody user pass =
        ("user".toList ++ '=' :: user) ++ '&' :: ("pass".toList ++ '=' :: pass) := by
      have huserPair : "user=".toList ++ user = "user".toList ++ '=' :: user := rfl
      have hpassPair : "&pass=".toList ++ pass = '&' :: ("pass".toList ++ '=' :: pass) := rfl
      calc loginBody user pass = ("user=".toList ++ user) ++ ("&pass=".toList ++ pass) :=
            List.append_assoc _ _ _
        _ = _ := congrArg₂ (· ++ ·) huserPair hpassPair
    rw [hbody, List.splitOn_append_cons_self_of_not_mem hfirst,
      List.splitOn_eq_singleton hsecond]
  have huserKey : keyValue ("user".toList ++ '=' :: user) = ("user".toList, user) := by
    rw [keyValue, splitOnce_append (by decide), Option.getD_some]
  have hpassKey : keyValue ("pass".toList ++ '=' :: pass) = ("pass".toList, pass) := by
    rw [keyValue, splitOnce_append (by decide), Option.getD_some]
  have hne : "pass".toList ≠ "user".toList := by decide
  rw [parseLoginForm, hsplit, List.foldl_cons, List.foldl_cons, List.foldl_nil]
  simp only [huserKey, hpassKey, if_true, if_neg hne]

/-! ### From the save to the login -/

/-- **Saved credentials log in.** If a form is accepted whose last user and password values are
without white space, the password not empty, then the login with these values is accepted
against the token of the credentials that are loaded from the saved record. -/
theorem saved_login_accepted {current c : NetworkConfig} {body eu ep : Str}
    {request : ParsedRequest} (hcurrent : current.WellFormed)
    (hsave : parseForm body current = some c)
    (huser : lastValue "wuser".toList body = some eu)
    (hpass : lastValue "wpass".toList body = some ep)
    (heu : ∀ ch ∈ eu, isWhitespace ch = false) (hep : ∀ ch ∈ ep, isWhitespace ch = false)
    (hne : ep ≠ []) (hlogin : request.bodyText = some (loginBody eu ep)) :
    ∃ loaded, NetworkConfig.fromBytes c.toBytes = some loaded ∧
      loginCredentialsMatch request
        (basicToken loaded.webUser.chars loaded.webPass.chars).chars = .ok true := by
  obtain ⟨huserAmp, u, hu, husub⟩ := submitted_of_lastValue hsave .webUser huser
  obtain ⟨hpassAmp, p, hp, hpsub⟩ := submitted_of_lastValue hsave .webPass hpass
  rw [trim_of_forall heu] at hu
  rw [trim_of_forall hep] at hp
  -- an empty password would keep the stored one, and this one encodes something
  have hpne : p.chars ≠ [] := by
    intro hempty
    have hbytes := (formUrlDecode_eq_ok_iff_decodeBytes.mp hp).1
    rw [hempty, asBytes_nil, decodeBytes_eq_some_nil_iff] at hbytes
    exact hne (asBytes_injective hbytes)
  have huserSaved : c.webUser.chars = u.chars := by
    rw [webUser_parseForm hsave, husub, Option.getD_some]
  have hpassSaved : c.webPass.chars = p.chars := by
    rw [webPass_parseForm hsave, hpsub, Option.map_some, Option.getD_some, if_neg hpne]
  -- what a form leaves is read back from the record as it is
  refine ⟨c, NetworkConfig.fromBytes_toBytes (wellFormed_parseForm hsave hcurrent), ?_⟩
  rw [loginCredentialsMatch_eq, credentialsMatch, hlogin]
  dsimp only
  rw [parseLoginForm_loginBody huserAmp hpassAmp, toOption_eq_some_iff.mpr hu,
    toOption_eq_some_iff.mpr hp, huserSaved, hpassSaved]
  simp

/-- The credentials `admin` and `se cret`, saved and used. -/
theorem saved_login_accepted_admin :
    ∃ c, parseForm "wuser=admin&wpass=se+cret".toList NetworkConfig.default = some c ∧
      ∃ loaded, NetworkConfig.fromBytes c.toBytes = some loaded ∧
        loginCredentialsMatch
          (ParsedRequest.new
            "POST /login HTTP/1.1\r\n\r\nuser=admin&pass=se+cret".toList)
          (basicToken loaded.webUser.chars loaded.webPass.chars).chars = .ok true := by
  obtain ⟨c, hc⟩ : ∃ c, parseForm "wuser=admin&wpass=se+cret".toList NetworkConfig.default =
      some c := Option.isSome_iff_exists.mp (by decide +kernel)
  have huser : lastValue "wuser".toList "wuser=admin&wpass=se+cret".toList =
      some "admin".toList := by
    decide +kernel
  have hpass : lastValue "wpass".toList "wuser=admin&wpass=se+cret".toList =
      some "se+cret".toList := by
    decide +kernel
  have heu : ∀ ch ∈ "admin".toList, isWhitespace ch = false := by simp [isWhitespace]
  have hep : ∀ ch ∈ "se+cret".toList, isWhitespace ch = false := by simp [isWhitespace]
  refine ⟨c, hc, ?_⟩
  exact saved_login_accepted NetworkConfig.wellFormed_default hc huser hpass heu hep (by decide)
    (by decide +kernel)

end Jzf407
