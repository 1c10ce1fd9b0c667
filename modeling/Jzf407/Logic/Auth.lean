import Jzf407.Foundation.Base64
import Jzf407.Foundation.Buffer
import Mathlib.Algebra.Order.Floor.Div

/-!
# The credential token

`basicToken user pass` is the comparison token of `auth.rs`: the bytes `user ':' pass`
gathered in a 96-byte vector (`rawCredentials`), base64-encoded chunk by chunk into a 96-byte
string (`encodeChunk`). Every buffer verdict is discarded, so both buffers can lose data, in two
different ways: a password that does not fit the vector is left out *as a whole*, and a token that
does not fit the string loses its *tail*.

`chars_basicToken` says what is left: the first 96 letters of the base64 encoding of the
gathered bytes. It has two parts. The source takes three bytes at a time and shifts them together,
and `encodeChunk_eq_pushAll` says that this appends a group of the encoding; the letters of all
groups are then appended as one text, of which the longest prefix that fits is kept.
`items_rawCredentials` says what is gathered: a user name of at most 95 bytes and the colon always
fit, and the password fits or is missing.

Credentials of at most 71 bytes lose nothing (`basicToken_eq_encode`): with the
colon they are 72 bytes, and these encode to the 96 letters that the string holds. The credentials
that a configuration can store are at most 64 bytes long (`basicToken_eq_encode_stored`).
-/

namespace Jzf407

open Foundation

/-- The base64 letters. -/
def b64 : Str := "ABCDEFGHIJKLMNOPQRSTUVWXYZabcdefghijklmnopqrstuvwxyz0123456789+/".toList

/-- The bytes gathered for the token: `user ':' pass`, each part appended if it fits. -/
def rawCredentials (user pass : Str) : HVec UInt8 96 :=
  -- none of the three verdicts is looked at
  let raw : HVec UInt8 96 := HVec.empty
  let raw := keep (HVec.extendFromSlice (asBytes user)) raw
  let raw := keep (HVec.push ':'.toUInt8) raw
  keep (HVec.extendFromSlice (asBytes pass)) raw

/-- The chunks of at most three bytes that a slice is cut into. -/
def chunks3 : List UInt8 → List (List UInt8)
  | [] => []
  | [a] => [[a]]
  | [a, b] => [[a, b]]
  | a :: b :: c :: rest => [a, b, c] :: chunks3 rest

/-- Append the four letters of one chunk. -/
def encodeChunk (out : HString 96) (chunk : List UInt8) : HString 96 :=
  let b0 := chunk.getD 0 0
  let b1 := if chunk.length > 1 then chunk.getD 1 0 else 0
  let b2 := if chunk.length > 2 then chunk.getD 2 0 else 0
  let out := keep (HString.push (b64.getD (b0 >>> 2).toNat '=')) out
  let out := keep (HString.push (b64.getD (((b0 &&& 0x03) <<< 4) ||| (b1 >>> 4)).toNat '=')) out
  let out :=
    if chunk.length > 1 then
      keep (HString.push (b64.getD (((b1 &&& 0x0f) <<< 2) ||| (b2 >>> 6)).toNat '=')) out
    else keep (HString.push '=') out
  if chunk.length > 2 then keep (HString.push (b64.getD (b2 &&& 0x3f).toNat '=')) out
  else keep (HString.push '=') out

/-- The comparison token of a user name and password. -/
def basicToken (user pass : Str) : HString 96 :=
  (chunks3 (rawCredentials user pass).items).foldl encodeChunk HString.empty

/-! ### The bit operations are base64 -/

private theorem toNat_hi6 (b : UInt8) : (b >>> 2).toNat = b.toNat / 4 := by
  simp [UInt8.toNat_shiftRight, Nat.shiftRight_eq_div_pow]

private theorem toNat_join_2_4 (a b : UInt8) :
    (((a &&& 0x03) <<< 4) ||| (b >>> 4)).toNat = a.toNat % 4 * 16 + b.toNat / 16 := by
  have hb := b.toNat_lt
  have hand : a.toNat &&& 3 = a.toNat % 4 := Nat.and_two_pow_sub_one_eq_mod a.toNat 2
  have hdisj := Nat.shiftLeft_add_eq_or_of_lt (b := b.toNat / 16) (i := 4) (by omega)
    (a.toNat % 4)
  simp only [UInt8.toNat_or, UInt8.toNat_shiftLeft, UInt8.toNat_and, UInt8.toNat_shiftRight,
    UInt8.reduceToNat, Nat.reduceMod, hand, Nat.shiftRight_eq_div_pow, Nat.reducePow]
  rw [Nat.mod_eq_of_lt (by rw [Nat.shiftLeft_eq]; omega), ← hdisj, Nat.shiftLeft_eq]

private theorem toNat_join_4_2 (b c : UInt8) :
    (((b &&& 0x0f) <<< 2) ||| (c >>> 6)).toNat = b.toNat % 16 * 4 + c.toNat / 64 := by
  have hc := c.toNat_lt
  have hand : b.toNat &&& 15 = b.toNat % 16 := Nat.and_two_pow_sub_one_eq_mod b.toNat 4
  have hdisj := Nat.shiftLeft_add_eq_or_of_lt (b := c.toNat / 64) (i := 2) (by omega)
    (b.toNat % 16)
  simp only [UInt8.toNat_or, UInt8.toNat_shiftLeft, UInt8.toNat_and, UInt8.toNat_shiftRight,
    UInt8.reduceToNat, Nat.reduceMod, hand, Nat.shiftRight_eq_div_pow, Nat.reducePow]
  rw [Nat.mod_eq_of_lt (by rw [Nat.shiftLeft_eq]; omega), ← hdisj, Nat.shiftLeft_eq]

private theorem toNat_lo6 (c : UInt8) : (c &&& 0x3f).toNat = c.toNat % 64 := by
  rw [UInt8.toNat_and]
  exact Nat.and_two_pow_sub_one_eq_mod c.toNat 6

/-- Encoding a chunk appends its base64 group. -/
theorem encodeChunk_eq_pushAll {chunk : List UInt8} (hne : chunk ≠ [])
    (hlen : chunk.length ≤ 3) (out : HString 96) :
    encodeChunk out chunk = HString.pushAll (Base64.encode chunk) out := by
  have hpad : ∀ a : UInt8, a.toNat % 4 * 16 + (0 : UInt8).toNat / 16 = a.toNat % 4 * 16 := by
    simp
  match chunk, hne, hlen with
  | [a], _, _ =>
    simp only [encodeChunk, Base64.encode, HString.pushAll_cons, HString.pushAll_nil]
    simp only [List.length_singleton, List.getD_cons_zero, Nat.lt_irrefl, gt_iff_lt, if_false,
      show ¬ 2 < 1 by omega, toNat_hi6, toNat_join_2_4, hpad]
    rfl
  | [a, b], _, _ =>
    simp only [encodeChunk, Base64.encode, HString.pushAll_cons, HString.pushAll_nil]
    simp only [List.length_cons, List.length_nil, List.getD_cons_zero, List.getD_cons_succ,
      gt_iff_lt, Nat.reduceAdd, Nat.reduceLT, if_true, if_false, Nat.lt_irrefl, toNat_hi6,
      toNat_join_2_4, toNat_join_4_2]
    rfl
  | [a, b, c], _, _ =>
    simp only [encodeChunk, Base64.encode, HString.pushAll_cons, HString.pushAll_nil]
    simp only [List.length_cons, List.length_nil, List.getD_cons_zero, List.getD_cons_succ,
      gt_iff_lt, Nat.reduceAdd, Nat.reduceLT, if_true, toNat_hi6, toNat_join_2_4,
      toNat_join_4_2, toNat_lo6]
    rfl

private theorem foldl_encodeChunk (raw : List UInt8) (out : HString 96) :
    (chunks3 raw).foldl encodeChunk out = HString.pushAll (Base64.encode raw) out := by
  induction raw using chunks3.induct generalizing out with
  | case1 => rfl
  | case2 a =>
    rw [chunks3, List.foldl_cons, List.foldl_nil, encodeChunk_eq_pushAll (by simp) (by simp)]
  | case3 a b =>
    rw [chunks3, List.foldl_cons, List.foldl_nil, encodeChunk_eq_pushAll (by simp) (by simp)]
  | case4 a b c rest ih =>
    rw [chunks3, List.foldl_cons, ih, encodeChunk_eq_pushAll (by simp) (by simp),
      ← HString.pushAll_append]
    rfl

/-- **The token** is what fits of the base64 encoding of the gathered bytes. -/
theorem chars_basicToken (user pass : Str) :
    (basicToken user pass).chars = (Base64.encode (rawCredentials user pass).items).take 96 := by
  rw [basicToken, foldl_encodeChunk,
    HString.chars_pushAll (by simp) fun c hc => Base64.utf8Size_of_mem_encode hc]
  simp

/-! ### What is gathered -/

/-- **The gathered bytes**: a user name of at most 95 bytes and the colon always fit; the
password is left out as a whole when it does not. -/
theorem items_rawCredentials {user : Str} (pass : Str) (huser : byteLen user ≤ 95) :
    (rawCredentials user pass).items =
      if byteLen user + 1 + byteLen pass ≤ 96 then
        asBytes user ++ ':'.toUInt8 :: asBytes pass
      else asBytes user ++ [':'.toUInt8] := by
  have hcolon : (keep (HVec.push ':'.toUInt8)
      (keep (HVec.extendFromSlice (asBytes user)) (HVec.empty : HVec UInt8 96))).items
        = asBytes user ++ [':'.toUInt8] := by
    have huserItems : (keep (HVec.extendFromSlice (asBytes user))
        (HVec.empty : HVec UInt8 96)).items = asBytes user := by
      rw [HVec.items_keep_extendFromSlice, if_pos]
      · rfl
      · simp only [HVec.items_empty, List.length_nil, length_asBytes]
        omega
    unfold HVec.push
    rw [HVec.items_keep_extendFromSlice, huserItems, if_pos]
    simp only [length_asBytes, List.length_singleton]
    omega
  rw [rawCredentials, HVec.items_keep_extendFromSlice, hcolon]
  simp only [List.length_append, length_asBytes, List.length_singleton, List.append_assoc,
    List.singleton_append]

/-! ### Credentials that fit -/

/-- The token of gathered bytes that encode to at most 96 letters is their whole encoding. -/
theorem chars_basicToken_of_le {user pass : Str}
    (h : (rawCredentials user pass).items.length ≤ 72) :
    (basicToken user pass).chars = Base64.encode (rawCredentials user pass).items := by
  rw [chars_basicToken, List.take_of_length_le]
  rw [Base64.length_encode]
  omega

/-- **The token of credentials of at most 71 bytes** is the base64 encoding of `user ':' pass`:
it has four letters for every three bytes begun, and decoding it gives the bytes back. -/
theorem basicToken_eq_encode {user pass : Str} (h : byteLen user + byteLen pass ≤ 71) :
    (basicToken user pass).chars = Base64.encode (asBytes user ++ ':'.toUInt8 :: asBytes pass) ∧
      byteLen (basicToken user pass).chars = 4 * ((byteLen user + byteLen pass + 1) ⌈/⌉ 3) ∧
      Base64.decode (basicToken user pass).chars =
        some (asBytes user ++ ':'.toUInt8 :: asBytes pass) := by
  have hitems : (rawCredentials user pass).items =
      asBytes user ++ ':'.toUInt8 :: asBytes pass := by
    rw [items_rawCredentials _ (by omega), if_pos (by omega)]
  have hlen : (rawCredentials user pass).items.length = byteLen user + byteLen pass + 1 := by
    rw [hitems, List.length_append, List.length_cons, length_asBytes, length_asBytes]
    omega
  have htoken : (basicToken user pass).chars = Base64.encode (rawCredentials user pass).items :=
    chars_basicToken_of_le (by omega)
  refine ⟨by rw [htoken, hitems], ?_, by rw [htoken, Base64.decode_encode, hitems]⟩
  rw [htoken, byteLen_of_ascii fun c hc => Base64.utf8Size_of_mem_encode hc,
    Base64.length_encode, hlen, Nat.ceilDiv_eq_add_pred_div]
  rfl

/-- The longest credentials that a configuration holds. -/
theorem basicToken_eq_encode_stored :
    let user : Str := List.replicate 16 'ü'
    let pass : Str := List.replicate 32 'p'
    byteLen user = 32 ∧ byteLen pass = 32 ∧
      Base64.decode (basicToken user pass).chars =
        some (asBytes user ++ ':'.toUInt8 :: asBytes pass) :=
  ⟨by decide, by decide, (basicToken_eq_encode (by decide)).2.2⟩

end Jzf407
