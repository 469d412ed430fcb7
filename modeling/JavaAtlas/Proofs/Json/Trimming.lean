import JavaAtlas.Proofs.Json.Grammar
import JavaAtlas.Text.Blank

set_option autoImplicit false

/-! # Blanks at the ends of JSON text

The blanks of JSON text are blanks, and no value begins or ends with any blank. So trimming a text
that is JSON leaves its value and takes off nothing else (`SpellsText.trim`). -/

namespace JavaAtlas.Json

theorem IsBlank.isBlank {c : Char} (h : IsBlank c) : Text.isBlank c = true := by
  rcases h with rfl | rfl | rfl | rfl <;> decide

/-- Whether a text is not empty and has no blanks at its ends. -/
structure IsTrimmed (text : List Char) : Prop where
  ne_nil : text ≠ []
  first : Literal.Begins (Text.isBlank · = false) text
  last : Literal.Begins (Text.isBlank · = false) text.reverse

theorem dropWhile_isBlank_append {before text : List Char} (hbefore : AllBlank before)
    (htext : Literal.Begins (Text.isBlank · = false) text) :
    (before ++ text).dropWhile Text.isBlank = text := by
  rw [List.dropWhile_append_of_pos fun c hc => (hbefore c hc).isBlank]
  cases text with
  | nil => rfl
  | cons c text => exact List.dropWhile_cons_of_neg (by simp [htext c rfl])

theorem IsTrimmed.trimChars_append {before text after : List Char} (h : IsTrimmed text)
    (hbefore : AllBlank before) (hafter : AllBlank after) :
    Text.trimChars (before ++ (text ++ after)) = text := by
  have hfirst : Literal.Begins (Text.isBlank · = false) (text ++ after) := by
    cases text with
    | nil => exact absurd rfl h.ne_nil
    | cons c text => exact h.first
  rw [Text.trimChars, dropWhile_isBlank_append hbefore hfirst, List.reverse_append,
    dropWhile_isBlank_append (fun c hc => hafter c (List.mem_reverse.1 hc)) h.last,
    List.reverse_reverse]

theorem isTrimmed_of_ends {first last : Char} (hfirst : Text.isBlank first = false)
    (hlast : Text.isBlank last = false) (cs : List Char) :
    IsTrimmed (first :: (cs ++ [last])) := by
  refine ⟨List.cons_ne_nil _ _, ?_, ?_⟩
  · rintro _ ⟨⟩
    exact hfirst
  · rw [← List.cons_append, List.reverse_append]
    rintro _ ⟨⟩
    exact hlast

theorem isBlank_of_isDigit {c : Char} (h : c.isDigit = true) : Text.isBlank c = false := by
  have hrange : 48 ≤ c.toNat ∧ c.toNat ≤ 57 := by
    simpa [Char.isDigit, UInt32.le_iff_toNat_le] using h
  simp [Text.isBlank, Text.blankRanges, CharRanges.contains]
  omega

theorem SpellsNumeral.isBlank {text : List Char} {numeral : Numeral}
    (h : SpellsNumeral text numeral) : ∀ c ∈ text, Text.isBlank c = false := by
  have hdigits : ∀ {digits : List Char}, Literal.IsDigits digits →
      ∀ c ∈ digits, Text.isBlank c = false := fun h c hc => isBlank_of_isDigit (h c hc)
  obtain ⟨hminus, hwhole, hpoint, hpower⟩ := h
  simp only [List.forall_mem_append]
  refine ⟨?_, hdigits hwhole.1, ?_, ?_⟩
  · cases hminus with
    | none => exact List.forall_mem_nil _
    | minus => exact List.forall_mem_singleton.2 (by decide)
  · cases hpoint with
    | none => exact List.forall_mem_nil _
    | point hpoint => exact List.forall_mem_cons.2 ⟨by decide, hdigits hpoint⟩
  · cases hpower with
    | none => exact List.forall_mem_nil _
    | power hletter hsign hpower =>
      rw [List.forall_mem_cons, List.forall_mem_append]
      refine ⟨?_, ?_, hdigits hpower⟩
      · rcases hletter with rfl | rfl <;> decide
      · cases hsign with
        | none => exact List.forall_mem_nil _
        | plus => exact List.forall_mem_singleton.2 (by decide)
        | minus => exact List.forall_mem_singleton.2 (by decide)

theorem Spells.isTrimmed {text : List Char} {outline : Outline} (h : Spells text outline) :
    IsTrimmed text := by
  cases h with
  | null => exact isTrimmed_of_ends (by decide) (by decide) ['u', 'l']
  | true => exact isTrimmed_of_ends (by decide) (by decide) ['r', 'u']
  | false => exact isTrimmed_of_ends (by decide) (by decide) ['a', 'l', 's']
  | number htext =>
    refine ⟨?_, fun c hc => ?_, fun c hc => ?_⟩
    · obtain ⟨c, cs, rfl, -⟩ := htext.begins
      exact List.cons_ne_nil _ _
    · exact htext.isBlank c (List.mem_of_mem_head? hc)
    · exact htext.isBlank c (List.mem_reverse.1 (List.mem_of_mem_head? hc))
  | string htext =>
    cases htext
    exact isTrimmed_of_ends (by decide) (by decide) _
  | _ => exact isTrimmed_of_ends (by decide) (by decide) _

/-- Trimming leaves of a text that is JSON the value alone. -/
theorem SpellsText.trim {text : String} {outline : Outline} (h : SpellsText text.toList outline) :
    SpellsText (Text.trim text).toList outline := by
  rw [Text.trim, String.toList_ofList]
  generalize text.toList = cs at h
  obtain ⟨hbefore, htext, hafter⟩ := h
  rename_i before core after
  rw [htext.isTrimmed.trimChars_append hbefore hafter]
  have hvalue : SpellsText ([] ++ (core ++ [])) outline :=
    .intro (List.forall_mem_nil _) htext (List.forall_mem_nil _)
  rwa [List.append_nil, List.nil_append] at hvalue

end JavaAtlas.Json
