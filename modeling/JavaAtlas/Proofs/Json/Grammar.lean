import JavaAtlas.Json.Reading
import JavaAtlas.Proofs.Json.Lexemes
import JavaAtlas.Proofs.Json.Outline

set_option autoImplicit false

/-! # The grammar of JSON text

`SpellsText` says which texts are JSON and what their outlines are: one rule for each kind of value,
with blanks around values and names. What the scanner leaves of a text does not depend on the blanks
in front, and its fuel covers every text, so it finds an outline exactly in the texts that spell it
(`ofText_eq_iff`). -/

namespace JavaAtlas.Json

/-! ## Values -/

/-- What stands for the name of a member, with blanks around it. -/
inductive SpellsName : List Char → Option String → Prop where
  | intro {before text after : List Char} {name : Option String} (hbefore : AllBlank before)
      (htext : SpellsString text name) (hafter : AllBlank after) :
      SpellsName (before ++ (text ++ after)) name

mutual

/-- What stands for a value. -/
inductive Spells : List Char → Outline → Prop where
  | null : Spells ['n', 'u', 'l', 'l'] .null
  | true : Spells ['t', 'r', 'u', 'e'] (.bool .true)
  | false : Spells ['f', 'a', 'l', 's', 'e'] (.bool .false)
  | number {text : List Char} {numeral : Numeral} (htext : SpellsNumeral text numeral) :
      Spells text (.number numeral)
  | string {text : List Char} {value : Option String} (htext : SpellsString text value) :
      Spells text (.string value)
  | noItems {blanks : List Char} (hblanks : AllBlank blanks) :
      Spells ('[' :: (blanks ++ [']'])) (.array [])
  | items {text : List Char} {items : List Outline} (htext : SpellsItems text items) :
      Spells ('[' :: (text ++ [']'])) (.array items)
  | noMembers {blanks : List Char} (hblanks : AllBlank blanks) :
      Spells ('\x7b' :: (blanks ++ ['\x7d'])) (.object [])
  | members {text : List Char} {members : List (Option String × Outline)}
      (htext : SpellsMembers text members) :
      Spells ('\x7b' :: (text ++ ['\x7d'])) (.object members)

/-- What stands for a value, with blanks around it. -/
inductive SpellsText : List Char → Outline → Prop where
  | intro {before text after : List Char} {outline : Outline} (hbefore : AllBlank before)
      (htext : Spells text outline) (hafter : AllBlank after) :
      SpellsText (before ++ (text ++ after)) outline

/-- What stands for the items of an array. -/
inductive SpellsItems : List Char → List Outline → Prop where
  | last {text : List Char} {item : Outline} (hitem : SpellsText text item) :
      SpellsItems text [item]
  | more {text rest : List Char} {item : Outline} {items : List Outline}
      (hitem : SpellsText text item) (hrest : SpellsItems rest items) :
      SpellsItems (text ++ ',' :: rest) (item :: items)

/-- What stands for the members of an object. -/
inductive SpellsMembers : List Char → List (Option String × Outline) → Prop where
  | last {text rest : List Char} {name : Option String} {value : Outline}
      (hname : SpellsName text name) (hvalue : SpellsText rest value) :
      SpellsMembers (text ++ ':' :: rest) [(name, value)]
  | more {text middle rest : List Char} {name : Option String} {value : Outline}
      {members : List (Option String × Outline)} (hname : SpellsName text name)
      (hvalue : SpellsText middle value) (hrest : SpellsMembers rest members) :
      SpellsMembers (text ++ ':' :: (middle ++ ',' :: rest)) ((name, value) :: members)

end

/-! ## Beginnings -/

section

variable {text : List Char}

theorem Spells.begins {outline : Outline} (h : Spells text outline) :
    ∃ c cs, text = c :: cs ∧ Begins c := by
  cases h with
  | number htext =>
    obtain ⟨c, cs, rfl, hc⟩ := htext.begins
    exact ⟨c, cs, rfl, begins_of_numeral hc⟩
  | string htext =>
    cases htext
    exact ⟨_, _, rfl, by decide⟩
  | _ => exact ⟨_, _, rfl, by decide⟩

theorem SpellsText.begins {outline : Outline} (h : SpellsText text outline) (rest : List Char) :
    ∃ c cs, skipBlank (text ++ rest) = c :: cs ∧ c ≠ ']' := by
  obtain ⟨hbefore, htext, -⟩ := h
  obtain ⟨c, cs, rfl, hc⟩ := htext.begins
  rw [List.append_assoc, skipBlank_append hbefore]
  exact ⟨c, _, skipBlank_cons hc _, hc.2⟩

theorem SpellsText.ne_nil {outline : Outline} (h : SpellsText text outline) : text ≠ [] := by
  rintro rfl
  obtain ⟨c, cs, hskip, -⟩ := h.begins []
  cases hskip

theorem SpellsItems.begins {items : List Outline} (h : SpellsItems text items) (rest : List Char) :
    ∃ c cs, skipBlank (text ++ rest) = c :: cs ∧ c ≠ ']' := by
  cases h with
  | last hitem => exact hitem.begins rest
  | more hitem =>
    rw [List.append_assoc]
    exact hitem.begins _

theorem SpellsName.begins {name : Option String} (h : SpellsName text name) (rest : List Char) :
    ∃ cs, skipBlank (text ++ rest) = '"' :: cs := by
  obtain ⟨hbefore, htext, -⟩ := h
  cases htext
  rw [List.append_assoc, skipBlank_append hbefore]
  exact ⟨_, skipBlank_cons (by decide) _⟩

theorem SpellsMembers.begins {members : List (Option String × Outline)}
    (h : SpellsMembers text members) (rest : List Char) :
    ∃ cs, skipBlank (text ++ rest) = '"' :: cs := by
  cases h with
  | last hname =>
    rw [List.append_assoc]
    exact hname.begins _
  | more hname =>
    rw [List.append_assoc]
    exact hname.begins _

end

/-! ## Blanks in front -/

/-- The scanner finds the same value behind any blanks. -/
theorem scanValue_congr (fuel : Nat) {cs other : List Char} (h : skipBlank cs = skipBlank other) :
    scanValue fuel cs = scanValue fuel other := by
  cases fuel with
  | zero => rw [scanValue, scanValue]
  | succ fuel => rw [scanValue, scanValue, h]

theorem scanItems_congr (fuel : Nat) {cs other : List Char} (h : skipBlank cs = skipBlank other) :
    scanItems fuel cs = scanItems fuel other := by
  cases fuel with
  | zero => rw [scanItems, scanItems]
  | succ fuel => rw [scanItems, scanItems, scanValue_congr fuel h]

theorem scanMembers_congr (fuel : Nat) {cs other : List Char} (h : skipBlank cs = skipBlank other) :
    scanMembers fuel cs = scanMembers fuel other := by
  cases fuel with
  | zero => rw [scanMembers, scanMembers]
  | succ fuel => rw [scanMembers, scanMembers, h]

/-! ## What the scanner finds is spelled -/

mutual

theorem exists_spells (fuel : Nat) {cs rest : List Char} {outline : Outline}
    (h : scanValue fuel cs = (outline, some rest)) :
    ∃ text, Spells text outline ∧ skipBlank cs = text ++ rest := by
  match fuel with
  | 0 =>
    rw [scanValue] at h
    cases h
  | fuel + 1 =>
    rw [scanValue] at h
    split at h
    · next hcs =>
      cases h
      exact ⟨_, .null, hcs⟩
    · next hcs =>
      cases h
      exact ⟨_, .true, hcs⟩
    · next hcs =>
      cases h
      exact ⟨_, .false, hcs⟩
    · next hcs =>
      split at h
      · next hscan =>
        cases h
        obtain ⟨text, htext, rfl⟩ := exists_pieces hscan
        exact ⟨_, .string (.intro htext), by simpa using hcs⟩
      · cases h
    · next inside hcs =>
      split at h
      · next hclosed =>
        cases h
        obtain ⟨blanks, hblanks, hinside⟩ := exists_blanks inside
        rw [hclosed] at hinside
        exact ⟨_, .noItems hblanks, by rw [hcs, hinside]; simp⟩
      · cases hitems : scanItems fuel (skipBlank inside) with
        | mk items tail =>
          rw [hitems] at h
          cases h
          -- the blanks that have been skipped belong to the text of the first item
          rw [scanItems_congr fuel (skipBlank_skipBlank inside)] at hitems
          obtain ⟨text, htext, rfl⟩ := exists_spellsItems fuel hitems
          exact ⟨_, .items htext, by rw [hcs]; simp⟩
    · next inside hcs =>
      split at h
      · next hclosed =>
        cases h
        obtain ⟨blanks, hblanks, hinside⟩ := exists_blanks inside
        rw [hclosed] at hinside
        exact ⟨_, .noMembers hblanks, by rw [hcs, hinside]; simp⟩
      · cases hmembers : scanMembers fuel (skipBlank inside) with
        | mk members tail =>
          rw [hmembers] at h
          cases h
          rw [scanMembers_congr fuel (skipBlank_skipBlank inside)] at hmembers
          obtain ⟨text, htext, rfl⟩ := exists_spellsMembers fuel hmembers
          exact ⟨_, .members htext, by rw [hcs]; simp⟩
    · next hcs =>
      split at h
      · next hscan =>
        cases h
        obtain ⟨text, htext, hcs⟩ := exists_numeral hscan
        exact ⟨_, .number htext, hcs⟩
      · cases h

/-- The value, the blanks that the scanner has skipped before it, and those that it skips next. -/
theorem exists_spellsText (fuel : Nat) {cs tail rest : List Char} {outline : Outline}
    (h : scanValue fuel cs = (outline, some tail)) (hrest : skipBlank tail = rest) :
    ∃ text, SpellsText text outline ∧ cs = text ++ rest := by
  obtain ⟨before, hbefore, hcs⟩ := exists_blanks cs
  obtain ⟨text, htext, hskip⟩ := exists_spells fuel h
  obtain ⟨after, hafter, htail⟩ := exists_blanks tail
  rw [hrest] at htail
  exact ⟨_, .intro hbefore htext hafter, by rw [hcs, hskip, htail]; simp⟩

theorem exists_spellsItems (fuel : Nat) {cs rest : List Char} {items : List Outline}
    (h : scanItems fuel cs = (items, some rest)) :
    ∃ text, SpellsItems text items ∧ cs = text ++ ']' :: rest := by
  match fuel with
  | 0 =>
    rw [scanItems] at h
    cases h
  | fuel + 1 =>
    rw [scanItems] at h
    split at h
    · cases h
    next item tail hitem =>
    split at h
    · next more hcomma =>
      obtain ⟨text, htext, rfl⟩ := exists_spellsText fuel hitem hcomma
      cases hmore : scanItems fuel more with
      | mk items tail =>
        rw [hmore] at h
        cases h
        obtain ⟨others, hothers, rfl⟩ := exists_spellsItems fuel hmore
        exact ⟨_, .more htext hothers, by simp⟩
    · next hbracket =>
      cases h
      obtain ⟨text, htext, rfl⟩ := exists_spellsText fuel hitem hbracket
      exact ⟨_, .last htext, rfl⟩
    · cases h

theorem exists_spellsMembers (fuel : Nat) {cs rest : List Char}
    {members : List (Option String × Outline)}
    (h : scanMembers fuel cs = (members, some rest)) :
    ∃ text, SpellsMembers text members ∧ cs = text ++ '\x7d' :: rest := by
  match fuel with
  | 0 =>
    rw [scanMembers] at h
    cases h
  | fuel + 1 =>
    rw [scanMembers] at h
    split at h
    case h_2 => cases h
    next quoted hcs =>
    split at h
    · cases h
    next pieces afterName hscan =>
    obtain ⟨before, hbefore, hbeforeName⟩ := exists_blanks cs
    obtain ⟨text, htext, rfl⟩ := exists_pieces hscan
    obtain ⟨after, hafter, hafterName⟩ := exists_blanks afterName
    rw [hcs] at hbeforeName
    have hname := SpellsName.intro hbefore (.intro htext) hafter
    dsimp only at h
    split at h
    case h_2 => cases h
    next valueText hcolon =>
    rw [hcolon] at hafterName
    split at h
    · cases h
    next value tail hvalue =>
    split at h
    · next more hcomma =>
      obtain ⟨middle, hmiddle, rfl⟩ := exists_spellsText fuel hvalue hcomma
      cases hmore : scanMembers fuel more with
      | mk members tail =>
        rw [hmore] at h
        cases h
        obtain ⟨others, hothers, rfl⟩ := exists_spellsMembers fuel hmore
        exact ⟨_, .more hname hmiddle hothers, by rw [hbeforeName, hafterName]; simp⟩
    · next hbrace =>
      cases h
      obtain ⟨middle, hmiddle, rfl⟩ := exists_spellsText fuel hvalue hbrace
      exact ⟨_, .last hname hmiddle, by rw [hbeforeName, hafterName]; simp⟩
    · cases h

end

/-! ## What is spelled is found -/

instance : DecidablePred EndsNumeral := fun _ => inferInstanceAs (Decidable (_ ∧ _))

theorem ends_cons (c : Char) (h : EndsNumeral c) (cs : List Char) :
    Literal.Begins EndsNumeral (c :: cs) := by
  rintro _ ⟨⟩
  exact h

theorem AllBlank.endsNumeral {blanks rest : List Char} (h : AllBlank blanks)
    (hrest : Literal.Begins EndsNumeral rest) : Literal.Begins EndsNumeral (blanks ++ rest) := by
  refine begins_append (fun c hc => ?_) hrest
  rcases h c (List.mem_of_mem_head? hc) with rfl | rfl | rfl | rfl <;> decide

section

variable {fuel : Nat} {cs tail more rest : List Char}

theorem scanValue_numeral {numeral : Numeral} (h : SpellsNumeral cs numeral)
    (hrest : Literal.Begins EndsNumeral rest) :
    scanValue (fuel + 1) (cs ++ rest) = (.number numeral, some rest) := by
  have hscan := scanNumeral_append h hrest
  obtain ⟨c, cs, rfl, hc⟩ := h.begins
  rw [List.cons_append] at hscan ⊢
  rw [scanValue, skipBlank_cons (begins_of_numeral hc)]
  -- the first character is that of no other value
  have hne : ∀ d ∈ ['n', 't', 'f', '"', '[', '\x7b'], c ≠ d := ne_of_numeral hc rfl
  simp [hne, hscan]

theorem scanValue_text {value : Option String} (h : SpellsString cs value) :
    scanValue (fuel + 1) (cs ++ rest) = (.string value, some rest) := by
  obtain ⟨hpieces⟩ := h
  rw [List.cons_append, scanValue, skipBlank_cons (by decide)]
  simp [scanString_append hpieces]

theorem scanValue_array {items : List Outline} {c : Char} (hskip : skipBlank cs = c :: more)
    (hc : c ≠ ']') (hitems : scanItems fuel cs = (items, some rest)) :
    scanValue (fuel + 1) ('[' :: cs) = (.array items, some rest) := by
  rw [← scanItems_congr fuel (skipBlank_skipBlank cs), hskip] at hitems
  rw [scanValue, skipBlank_cons (by decide)]
  simp [hskip, hc, hitems]

theorem scanValue_object {members : List (Option String × Outline)}
    (hskip : skipBlank cs = '"' :: more) (hmembers : scanMembers fuel cs = (members, some rest)) :
    scanValue (fuel + 1) ('\x7b' :: cs) = (.object members, some rest) := by
  rw [← scanMembers_congr fuel (skipBlank_skipBlank cs), hskip] at hmembers
  rw [scanValue, skipBlank_cons (by decide)]
  simp [hskip, hmembers]

theorem scanItems_end {item : Outline} (hitem : scanValue fuel cs = (item, some tail))
    (hbracket : skipBlank tail = ']' :: rest) : scanItems (fuel + 1) cs = ([item], some rest) := by
  simp only [scanItems, hitem, hbracket]

theorem scanItems_next {item : Outline} {items : List Outline}
    (hitem : scanValue fuel cs = (item, some tail)) (hcomma : skipBlank tail = ',' :: more)
    (hmore : scanItems fuel more = (items, some rest)) :
    scanItems (fuel + 1) cs = (item :: items, some rest) := by
  simp only [scanItems, hitem, hcomma, hmore]

theorem scanMembers_name {text : List Char} {name : Option String} (h : SpellsName text name)
    (cs : List Char) :
    ∃ quoted pieces afterName, skipBlank (text ++ ':' :: cs) = '"' :: quoted ∧
      scanString quoted = some (pieces, afterName) ∧ assembleString pieces = name ∧
        skipBlank afterName = ':' :: cs := by
  obtain ⟨hbefore, ⟨hpieces⟩, hafter⟩ := h
  rename_i before after quoted pieces
  refine ⟨quoted ++ '"' :: (after ++ ':' :: cs), pieces, after ++ ':' :: cs, ?_,
    scanString_append hpieces _, rfl, ?_⟩
  · rw [List.append_assoc, skipBlank_append hbefore]
    simp only [List.cons_append, List.append_assoc, List.nil_append]
    exact skipBlank_cons (by decide) _
  · rw [skipBlank_append hafter, skipBlank_cons (by decide)]

theorem scanMembers_end {text : List Char} {name : Option String} {value : Outline}
    (hname : SpellsName text name) (hvalue : scanValue fuel cs = (value, some tail))
    (hbrace : skipBlank tail = '\x7d' :: rest) :
    scanMembers (fuel + 1) (text ++ ':' :: cs) = ([(name, value)], some rest) := by
  obtain ⟨quoted, pieces, afterName, hquote, hstring, rfl, hcolon⟩ := scanMembers_name hname cs
  simp only [scanMembers, hquote, hstring, hcolon, hvalue, hbrace]

theorem scanMembers_next {text : List Char} {name : Option String} {value : Outline}
    {members : List (Option String × Outline)} (hname : SpellsName text name)
    (hvalue : scanValue fuel cs = (value, some tail)) (hcomma : skipBlank tail = ',' :: more)
    (hmore : scanMembers fuel more = (members, some rest)) :
    scanMembers (fuel + 1) (text ++ ':' :: cs) = ((name, value) :: members, some rest) := by
  obtain ⟨quoted, pieces, afterName, hquote, hstring, rfl, hcolon⟩ := scanMembers_name hname cs
  simp only [scanMembers, hquote, hstring, hcolon, hvalue, hcomma, hmore]

end

/-- Behind a value and the blanks around it the scanner stops, if no numeral goes on there. -/
theorem exists_scanValue {text : List Char} {outline : Outline} (h : SpellsText text outline)
    (fuel : Nat)
    (hscan : ∀ core, Spells core outline → core.length ≤ text.length → ∀ rest,
      Literal.Begins EndsNumeral rest → scanValue fuel (core ++ rest) = (outline, some rest))
    {rest : List Char} (hrest : Literal.Begins EndsNumeral rest) :
    ∃ tail, scanValue fuel (text ++ rest) = (outline, some tail) ∧
      skipBlank tail = skipBlank rest := by
  obtain ⟨hbefore, hcore, hafter⟩ := h
  rename_i before core after
  have hlength : core.length ≤ (before ++ (core ++ after)).length := by
    simp only [List.length_append]
    omega
  refine ⟨after ++ rest, ?_, skipBlank_append hafter rest⟩
  rw [List.append_assoc, List.append_assoc, scanValue_congr fuel (skipBlank_append hbefore _)]
  exact hscan core hcore hlength _ (hafter.endsNumeral hrest)

mutual

/-- Twice the length of a text is fuel enough to find the value that it spells. -/
theorem scanValue_of_spells (outline : Outline) {text : List Char} (h : Spells text outline)
    {fuel : Nat} (hfuel : 2 * text.length ≤ fuel) {rest : List Char}
    (hrest : Literal.Begins EndsNumeral rest) :
    scanValue fuel (text ++ rest) = (outline, some rest) := by
  -- no value has an empty text, so there is fuel for one step
  obtain ⟨fuel, rfl⟩ : ∃ n, fuel = n + 1 := by
    obtain ⟨c, cs, rfl, -⟩ := h.begins
    rw [List.length_cons] at hfuel
    exact ⟨fuel - 1, by omega⟩
  match outline with
  | .broken => cases h
  | .null =>
    cases h
    rfl
  | .bool b =>
    cases h <;> rfl
  | .number numeral =>
    cases h with
    | number htext => exact scanValue_numeral htext hrest
  | .string value =>
    cases h with
    | string htext => exact scanValue_text htext
  | .array items =>
    cases h with
    | noItems hblanks =>
      rw [List.cons_append, List.append_assoc, scanValue, skipBlank_cons (by decide)]
      simp only [skipBlank_append hblanks]
      rfl
    | @items text _ htext =>
      simp only [List.length_cons, List.length_append, List.length_nil] at hfuel
      rw [List.cons_append, List.append_assoc, List.singleton_append]
      obtain ⟨c, more, hskip, hc⟩ := htext.begins (']' :: rest)
      exact scanValue_array hskip hc (scanItems_of_spells items htext (by omega) rest)
  | .object members =>
    cases h with
    | noMembers hblanks =>
      rw [List.cons_append, List.append_assoc, scanValue, skipBlank_cons (by decide)]
      simp only [skipBlank_append hblanks]
      rfl
    | @members text _ htext =>
      simp only [List.length_cons, List.length_append, List.length_nil] at hfuel
      rw [List.cons_append, List.append_assoc, List.singleton_append]
      obtain ⟨more, hskip⟩ := htext.begins ('\x7d' :: rest)
      exact scanValue_object hskip (scanMembers_of_spells members htext (by omega) rest)

theorem scanItems_of_spells (items : List Outline) {text : List Char} (h : SpellsItems text items)
    {fuel : Nat} (hfuel : 2 * text.length < fuel) (rest : List Char) :
    scanItems fuel (text ++ ']' :: rest) = (items, some rest) := by
  obtain ⟨fuel, rfl⟩ : ∃ n, fuel = n + 1 := ⟨fuel - 1, by omega⟩
  match items with
  | [] => cases h
  | item :: items =>
    cases h with
    | last hitem =>
      obtain ⟨tail, hvalue, htail⟩ := exists_scanValue hitem fuel
        (fun core hcore hlength _ => scanValue_of_spells item hcore (by omega))
        (ends_cons ']' (by decide) _)
      exact scanItems_end hvalue htail
    | @more text others _ _ hitem hothers =>
      simp only [List.length_append, List.length_cons] at hfuel
      rw [List.append_assoc, List.cons_append]
      obtain ⟨tail, hvalue, htail⟩ := exists_scanValue hitem fuel
        (fun core hcore hlength _ => scanValue_of_spells item hcore (by omega))
        (ends_cons ',' (by decide) _)
      exact scanItems_next hvalue htail
        (scanItems_of_spells items hothers (by omega) rest)

theorem scanMembers_of_spells (members : List (Option String × Outline)) {text : List Char}
    (h : SpellsMembers text members) {fuel : Nat} (hfuel : 2 * text.length < fuel)
    (rest : List Char) :
    scanMembers fuel (text ++ '\x7d' :: rest) = (members, some rest) := by
  obtain ⟨fuel, rfl⟩ : ∃ n, fuel = n + 1 := ⟨fuel - 1, by omega⟩
  match members with
  | [] => cases h
  | (name, value) :: members =>
    cases h with
    | last hname hvalue =>
      simp only [List.length_append, List.length_cons] at hfuel
      rw [List.append_assoc, List.cons_append]
      obtain ⟨tail, hvalue, htail⟩ := exists_scanValue hvalue fuel
        (fun core hcore hlength _ => scanValue_of_spells value hcore (by omega))
        (ends_cons '\x7d' (by decide) _)
      exact scanMembers_end hname hvalue htail
    | more hname hvalue hothers =>
      simp only [List.length_append, List.length_cons] at hfuel
      rw [List.append_assoc, List.cons_append, List.append_assoc, List.cons_append]
      obtain ⟨tail, hvalue, htail⟩ := exists_scanValue hvalue fuel
        (fun core hcore hlength _ => scanValue_of_spells value hcore (by omega))
        (ends_cons ',' (by decide) _)
      exact scanMembers_next hname hvalue htail
        (scanMembers_of_spells members hothers (by omega) rest)

end

/-! ## Whole texts -/

/-- **The texts that are JSON.** The scanner goes through a text up to its end exactly if the text
is spelled by the grammar, and then it finds the outline that the text spells. -/
theorem ofText_eq_iff {text : String} {outline : Outline} :
    Document.ofText text = ⟨outline, true⟩ ↔ SpellsText text.toList outline := by
  unfold Document.ofText
  constructor
  · intro h
    dsimp only at h
    split at h
    · next rest hscan =>
      obtain ⟨rfl, hblank⟩ := Document.mk.inj h
      obtain ⟨spelled, hspelled, htext⟩ :=
        exists_spellsText _ hscan (List.isEmpty_iff.1 hblank)
      rw [htext, List.append_nil]
      exact hspelled
    · cases h
  · generalize text.toList = cs
    intro h
    have hend : Literal.Begins EndsNumeral [] := fun _ hc => nomatch hc
    obtain ⟨tail, hscan, htail⟩ := exists_scanValue h (2 * cs.length + 2)
      (fun core hcore hlength _ => scanValue_of_spells outline hcore (by omega)) hend
    rw [List.append_nil] at hscan
    simp only [hscan, htail]
    rfl

/-- A text spells at most one outline. -/
theorem SpellsText.unique {text : String} {outline other : Outline}
    (h : SpellsText text.toList outline) (hother : SpellsText text.toList other) :
    outline = other :=
  (Document.mk.inj ((ofText_eq_iff.2 h).symm.trans (ofText_eq_iff.2 hother))).1

/-- A value is read from a text just as it is read from the outline that the text spells. -/
theorem readText_of_spells {α : Type} [ReadJson α] {text : String} {outline : Outline}
    (h : SpellsText text.toList outline) :
    readText (α := α) text = ReadJson.read nestingLimit outline := by
  unfold readText
  rw [ofText_eq_iff.2 h]
  exact bind_pure _

mutual

/-- All that is spelled follows the grammar. -/
theorem wellFormed_of_spells (outline : Outline) {text : List Char} (h : Spells text outline) :
    outline.wellFormed = true := by
  match outline with
  | .broken => cases h
  | .null | .bool _ | .number _ | .string _ => rfl
  | .array items =>
    cases h with
    | noItems => rfl
    | items htext => exact itemsWellFormed_of_spells items htext
  | .object members =>
    cases h with
    | noMembers => rfl
    | members htext => exact membersWellFormed_of_spells members htext

theorem itemsWellFormed_of_spells (items : List Outline) {text : List Char}
    (h : SpellsItems text items) : itemsWellFormed items = true := by
  match items with
  | [] => rfl
  | item :: items =>
    rw [itemsWellFormed, Bool.and_eq_true]
    cases h with
    | last hitem =>
      obtain ⟨-, hitem, -⟩ := hitem
      exact ⟨wellFormed_of_spells item hitem, rfl⟩
    | more hitem hrest =>
      obtain ⟨-, hitem, -⟩ := hitem
      exact ⟨wellFormed_of_spells item hitem, itemsWellFormed_of_spells items hrest⟩

theorem membersWellFormed_of_spells (members : List (Option String × Outline)) {text : List Char}
    (h : SpellsMembers text members) : membersWellFormed members = true := by
  match members with
  | [] => rfl
  | (name, value) :: members =>
    rw [membersWellFormed, Bool.and_eq_true]
    cases h with
    | last _ hvalue =>
      obtain ⟨-, hvalue, -⟩ := hvalue
      exact ⟨wellFormed_of_spells value hvalue, rfl⟩
    | more _ hvalue hrest =>
      obtain ⟨-, hvalue, -⟩ := hvalue
      exact ⟨wellFormed_of_spells value hvalue, membersWellFormed_of_spells members hrest⟩

end

theorem SpellsText.wellFormed {text : List Char} {outline : Outline} (h : SpellsText text outline) :
    outline.wellFormed = true := by
  obtain ⟨-, htext, -⟩ := h
  exact wellFormed_of_spells outline htext

theorem membersWellFormed_iff {members : List (Option String × Outline)} :
    membersWellFormed members = true ↔ ∀ member ∈ members, member.2.wellFormed = true := by
  induction members with
  | nil => simp [membersWellFormed]
  | cons member rest ih => rw [membersWellFormed, Bool.and_eq_true, ih, List.forall_mem_cons]

end JavaAtlas.Json
