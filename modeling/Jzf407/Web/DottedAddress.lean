import Jzf407.Web.Dashboard

/-!
# Dotted addresses

`parse_ipv4` cuts its text at the dots, parses four parts and refuses a fifth (`parseIpv4`). It
accepts exactly four numerals of value at most 255 with dots between them, where a numeral may have
a plus sign and leading zeros (`Numeral`). `parseIpv4_eq_some_iff` says so of the parts, and
`splitOn_dots_iff` says which texts have these parts: a numeral has no dot in it, so the dots
between them are the only ones.

The formatter of the dashboard is a right inverse: it writes an address whole into its sixteen
bytes (`dottedText`), and what it writes is parsed back. Both are in `parseIpv4_spec`.
-/

namespace Jzf407

open Foundation

/-- The text of an address: four decimal numbers with dots between them. -/
def dottedText (ip : Ipv4) : Str :=
  decimal ip.a.toNat ++ '.' :: (decimal ip.b.toNat ++ '.' ::
    (decimal ip.c.toNat ++ '.' :: decimal ip.d.toNat))

/-- A part is taken when it is a numeral of an octet. -/
theorem nextOctet_eq_some_iff {parts rest : List Str} {v : UInt8} :
    nextOctet parts = some (v, rest) ↔ ∃ part, parts = part :: rest ∧ Numeral part v.toNat := by
  cases parts with
  | nil => simp [nextOctet]
  | cons part parts =>
    rw [nextOctet, Option.map_eq_some_iff]
    constructor
    · rintro ⟨w, hw, hpair⟩
      obtain ⟨rfl, rfl⟩ := Prod.mk.inj hpair
      exact ⟨part, rfl, parseU8_eq_some_iff.mp hw⟩
    · rintro ⟨part', hparts, hnumeral⟩
      obtain ⟨rfl, rfl⟩ := List.cons.inj hparts
      exact ⟨v, parseU8_eq_some_iff.mpr hnumeral, rfl⟩

/-- The parts of an address that is accepted. -/
theorem parseIpv4_eq_some_iff {s : Str} {ip : Ipv4} :
    parseIpv4 s = some ip ↔ ∃ a b c d, s.splitOn '.' = [a, b, c, d] ∧ Numeral a ip.a.toNat ∧
      Numeral b ip.b.toNat ∧ Numeral c ip.c.toNat ∧ Numeral d ip.d.toNat := by
  constructor
  · intro h
    obtain ⟨⟨oa, parts₁⟩, h₁, hrest₁⟩ := Option.bind_eq_some_iff.mp h
    obtain ⟨⟨ob, parts₂⟩, h₂, hrest₂⟩ := Option.bind_eq_some_iff.mp hrest₁
    obtain ⟨⟨oc, parts₃⟩, h₃, hrest₃⟩ := Option.bind_eq_some_iff.mp hrest₂
    obtain ⟨⟨od, parts₄⟩, h₄, hrest₄⟩ := Option.bind_eq_some_iff.mp hrest₃
    obtain ⟨a, hsplit, ha⟩ := nextOctet_eq_some_iff.mp h₁
    obtain ⟨b, rfl, hb⟩ := nextOctet_eq_some_iff.mp h₂
    obtain ⟨c, rfl, hc⟩ := nextOctet_eq_some_iff.mp h₃
    obtain ⟨d, rfl, hd⟩ := nextOctet_eq_some_iff.mp h₄
    dsimp only at hrest₄
    split at hrest₄
    · next hend =>
      obtain rfl : parts₄ = [] := List.isEmpty_iff.mp hend
      obtain rfl := Option.some.inj hrest₄
      exact ⟨a, b, c, d, hsplit, ha, hb, hc, hd⟩
    · cases hrest₄
  · rintro ⟨a, b, c, d, hsplit, ha, hb, hc, hd⟩
    have ha := parseU8_eq_some_iff.mpr ha
    have hb := parseU8_eq_some_iff.mpr hb
    have hc := parseU8_eq_some_iff.mpr hc
    have hd := parseU8_eq_some_iff.mpr hd
    rw [parseIpv4, hsplit]
    simp [nextOctet, ha, hb, hc, hd]

/-- Four parts are cut at the dots, if there are no others. -/
theorem splitOn_dots_iff {s a b c d : Str} (ha : '.' ∉ a) (hb : '.' ∉ b) (hc : '.' ∉ c)
    (hd : '.' ∉ d) :
    s.splitOn '.' = [a, b, c, d] ↔ s = a ++ '.' :: (b ++ '.' :: (c ++ '.' :: d)) := by
  constructor
  · intro h
    have hjoin : ['.'].intercalate (s.splitOn '.') = s := List.intercalate_splitOn '.'
    rw [← hjoin, h]
    simp [List.intercalate_cons_cons]
  · rintro rfl
    rw [List.splitOn_append_cons_self_of_not_mem ha, List.splitOn_append_cons_self_of_not_mem hb,
      List.splitOn_append_cons_self_of_not_mem hc, List.splitOn_eq_singleton hd]

/-- **Parsing and formatting addresses.** A text is parsed exactly when it consists of four
numerals of octets with dots between them, and then to these octets in order. The formatter writes
the dotted text of an address whole, and it is parsed back. -/
theorem parseIpv4_spec :
    (∀ (s : Str) (ip : Ipv4), parseIpv4 s = some ip ↔
      ∃ a b c d, s = a ++ '.' :: (b ++ '.' :: (c ++ '.' :: d)) ∧ Numeral a ip.a.toNat ∧
        Numeral b ip.b.toNat ∧ Numeral c ip.c.toNat ∧ Numeral d ip.d.toNat) ∧
    ∀ ip : Ipv4, byteLen (dottedText ip) ≤ 16 ∧ (fmtIpv4 ip).chars = dottedText ip ∧
      parseIpv4 (fmtIpv4 ip).chars = some ip := by
  constructor
  · intro s ip
    rw [parseIpv4_eq_some_iff]
    refine exists₄_congr fun a b c d => and_congr_left fun ⟨ha, hb, hc, hd⟩ => ?_
    exact splitOn_dots_iff (ha.notMem (by decide) rfl) (hb.notMem (by decide) rfl)
      (hc.notMem (by decide) rfl) (hd.notMem (by decide) rfl)
  · intro ip
    have htext : (fmtIpv4 ip).chars = dottedText ip := chars_fmtIpv4 ip
    refine ⟨?_, htext, parseIpv4_fmtIpv4 ip⟩
    rw [← htext]
    exact (fmtIpv4 ip).fits

end Jzf407
