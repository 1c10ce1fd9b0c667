import Jzf407.Web.Dashboard

/-!
# Values inside quoted attributes

The dashboard writes stored texts between the quotes of a value attribute. What keeps them
there is the escaping: no quote and no angle bracket is left, an ampersand is left only as the
beginning of an entity, and the entities give the text back (`AttributeSafe`).

`AttributeSafe` is closed under putting texts together (`AttributeSafe.append`), and the escape of
one character is safe (`AttributeSafe.of_escapeChar`), since it is one of the `entities` or a
character that needs none (`escapeChar_cases`). So an escaped text is safe, whatever stands in it.

An escaped text that exceeds its buffer is not written at all, and no verdict says so
(`writeAttr`). A stored text is at most 32 bytes long, so that its escape takes at most 192 of
the 256 bytes: `htmlEscapeAttr_spec`, whose last part goes through the texts of a configuration that
the dashboard shows (`NetworkConfig.shownTexts`).
-/

namespace Jzf407

open Foundation

/-- The entities that the escaping writes. -/
def entities : List Str :=
  ["&amp;".toList, "&lt;".toList, "&gt;".toList, "&quot;".toList, "&#39;".toList]

/-- A text that cannot leave a quoted attribute: nothing in it ends the attribute, and each
ampersand begins an entity. -/
structure AttributeSafe (t : Str) : Prop where
  notMem : '<' ∉ t ∧ '>' ∉ t ∧ '"' ∉ t ∧ '\'' ∉ t
  entity : ∀ pre post, t = pre ++ '&' :: post → ∃ e ∈ entities, e <+: '&' :: post

/-- A character is escaped to an entity, or copied. -/
theorem escapeChar_cases (ch : Char) :
    escapeChar ch ∈ entities ∨
      escapeChar ch = [ch] ∧ ch ≠ '&' ∧ ch ≠ '<' ∧ ch ≠ '>' ∧ ch ≠ '"' ∧ ch ≠ '\'' := by
  unfold escapeChar
  split
  · exact .inl (by decide)
  split
  · exact .inl (by decide)
  split
  · exact .inl (by decide)
  split
  · exact .inl (by decide)
  split
  · exact .inl (by decide)
  · exact .inr ⟨rfl, by assumption, by assumption, by assumption, by assumption, by assumption⟩

private theorem entities_check : entities.all (fun e =>
    e.all (fun c => c != '<' && c != '>' && c != '"' && c != '\'') && e.tail.all (· != '&')) =
      true := by
  decide

theorem notMem_of_mem_entities {e : Str} (h : e ∈ entities) :
    ('<' ∉ e ∧ '>' ∉ e ∧ '"' ∉ e ∧ '\'' ∉ e) ∧ '&' ∉ e.tail := by
  have hcheck := List.all_eq_true.mp entities_check e h
  simp only [Bool.and_eq_true, List.all_eq_true, bne_iff_ne] at hcheck
  obtain ⟨hall, htail⟩ := hcheck
  refine ⟨⟨?_, ?_, ?_, ?_⟩, fun hmem => htail _ hmem rfl⟩
  · exact fun hmem => (hall _ hmem).1.1.1 rfl
  · exact fun hmem => (hall _ hmem).1.1.2 rfl
  · exact fun hmem => (hall _ hmem).1.2 rfl
  · exact fun hmem => (hall _ hmem).2 rfl

namespace AttributeSafe

theorem nil : AttributeSafe [] where
  notMem := by simp
  entity pre post h := by simp at h

/-- Safe texts are concatenated to safe texts. -/
theorem append {t u : Str} (ht : AttributeSafe t) (hu : AttributeSafe u) :
    AttributeSafe (t ++ u) where
  notMem := by
    obtain ⟨h₁, h₂, h₃, h₄⟩ := ht.notMem
    obtain ⟨k₁, k₂, k₃, k₄⟩ := hu.notMem
    simp only [List.mem_append, not_or]
    exact ⟨⟨h₁, k₁⟩, ⟨h₂, k₂⟩, ⟨h₃, k₃⟩, ⟨h₄, k₄⟩⟩
  entity pre post h := by
    rcases List.append_eq_append_iff.mp h with ⟨mid, -, hmid⟩ | ⟨mid, hmid, hpost⟩
    · exact hu.entity mid post hmid
    · cases mid with
      | nil => exact hu.entity [] post hpost.symm
      | cons c mid =>
        -- the ampersand is in the first text, and so is its entity
        obtain ⟨rfl, rfl⟩ := List.cons.inj hpost
        obtain ⟨e, he, hpre⟩ := ht.entity pre mid hmid
        exact ⟨e, he, hpre.trans (List.prefix_append ('&' :: mid) u)⟩

/-- The escape of a character is safe. -/
theorem of_escapeChar (ch : Char) : AttributeSafe (escapeChar ch) := by
  rcases escapeChar_cases ch with hmem | ⟨hcopy, hamp, hlt, hgt, hquot, hapos⟩
  · obtain ⟨hnot, htail⟩ := notMem_of_mem_entities hmem
    refine ⟨hnot, fun pre post h => ?_⟩
    cases pre with
    | nil => exact ⟨_, hmem, h ▸ List.prefix_rfl⟩
    | cons c pre =>
      rw [h] at htail
      simp at htail
  · rw [hcopy]
    refine ⟨by simp [hlt.symm, hgt.symm, hquot.symm, hapos.symm], fun pre post h => ?_⟩
    have hmem : '&' ∈ [ch] := by rw [h]; simp
    exact (hamp (List.mem_singleton.mp hmem).symm).elim

/-- An escaped text is safe. -/
theorem of_flatMap_escapeChar (s : Str) : AttributeSafe (s.flatMap escapeChar) := by
  induction s with
  | nil => exact .nil
  | cons ch s ih =>
    rw [List.flatMap_cons]
    exact (of_escapeChar ch).append ih

end AttributeSafe

/-- The texts of the configuration that the dashboard shows. -/
def shownTexts (cfg : NetworkConfig) : List Str :=
  [cfg.clientId.chars, cfg.mqttUser.chars, cfg.webUser.chars]

theorem byteLen_of_mem_shownTexts {cfg : NetworkConfig} {s : Str} (h : s ∈ shownTexts cfg) :
    byteLen s ≤ 32 := by
  simp only [shownTexts, List.mem_cons, List.not_mem_nil, or_false] at h
  rcases h with rfl | rfl | rfl
  · exact cfg.clientId.fits.trans (by decide)
  · exact cfg.mqttUser.fits
  · exact cfg.webUser.fits

/-- **Escaping for an attribute** succeeds exactly when the escaped text fits. It then yields
that text, which cannot leave the attribute and is read back as the original. The texts that
the dashboard shows of a configuration are always written. -/
theorem htmlEscapeAttr_spec :
    (∀ (N : ℕ) (s : Str), ((∃ t, htmlEscapeAttr N s = .ok t) ↔
        byteLen (s.flatMap escapeChar) ≤ N) ∧
      ∀ t : HString N, htmlEscapeAttr N s = .ok t →
        t.chars = s.flatMap escapeChar ∧ AttributeSafe t.chars ∧ decodeEntities t.chars = s) ∧
    ∀ (cfg : NetworkConfig) (s : Str), s ∈ shownTexts cfg →
      ∃ t : HString 256, htmlEscapeAttr 256 s = .ok t ∧ writeAttr s = t.chars ∧
        AttributeSafe (writeAttr s) ∧ decodeEntities (writeAttr s) = s := by
  have hok : ∀ (N : ℕ) (s : Str) (t : HString N), htmlEscapeAttr N s = .ok t →
      t.chars = s.flatMap escapeChar ∧ AttributeSafe t.chars ∧ decodeEntities t.chars = s := by
    intro N s t h
    have hchars := htmlEscapeAttr_eq_ok_iff.mp h
    refine ⟨hchars, ?_, ?_⟩
    · rw [hchars]
      exact .of_flatMap_escapeChar s
    · rw [hchars, decodeEntities_flatMap_escapeChar]
  constructor
  · refine fun N s => ⟨⟨?_, ?_⟩, hok N s⟩
    · rintro ⟨t, ht⟩
      rw [← htmlEscapeAttr_eq_ok_iff.mp ht]
      exact t.fits
    · exact fun hfits => ⟨⟨_, hfits⟩, htmlEscapeAttr_eq_ok_iff.mpr rfl⟩
  · intro cfg s hs
    -- a shown text has at most 32 bytes, and an escape is six times as long at most
    have hlen := byteLen_of_mem_shownTexts hs
    obtain ⟨t, ht, -⟩ := htmlEscapeAttr_eq_ok (N := 256) (s := s) (by omega)
    have hwrite : writeAttr s = t.chars := by rw [writeAttr, ht]
    obtain ⟨-, hsafe, hdecode⟩ := hok 256 s t ht
    rw [hwrite]
    exact ⟨t, ht, rfl, hsafe, hdecode⟩

/-- Every character that could end the attribute, escaped into 64 bytes. -/
theorem htmlEscapeAttr_spec_breakout :
    AttributeSafe "&quot;&amp;&lt;&gt;&#39;".toList ∧
      decodeEntities "&quot;&amp;&lt;&gt;&#39;".toList = "\"&<>'".toList :=
  ((htmlEscapeAttr_spec.1 64 "\"&<>'".toList).2 ⟨"&quot;&amp;&lt;&gt;&#39;".toList, by decide⟩
    (by decide)).2

end Jzf407
