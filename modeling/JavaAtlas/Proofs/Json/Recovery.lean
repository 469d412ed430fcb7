import JavaAtlas.Proofs.Data.Dict
import JavaAtlas.Proofs.Data.Except
import JavaAtlas.Proofs.Json.Doubles
import JavaAtlas.Proofs.Json.Grammar

set_option autoImplicit false

/-! # Values that are found again in their texts

The compact text of a value spells an outline with a numeral for each number
(`spells_compactChars`), so what is read from the text is what the outline denotes. A value is found
again there unless its containers are nested too deep or one of its doubles is lost, which each
double decides by itself (`value?_spelled`). -/

namespace JavaAtlas.Json

/-! ## Parts of values -/

mutual

/-- Whether a value can be held by a program that reads JSON: its integers have 64 bits, with or
without sign, and no object has two members of one name. -/
def isProper : Json → Bool
  | int n => Int64.minValue.toInt ≤ n && n < UInt64.size
  | array items => itemsProper items
  | object members => decide (Assoc.keys members).Nodup && membersProper members
  | null | bool _ | float _ | string _ => true

/-- Whether all items are proper. -/
def itemsProper : List Json → Bool
  | [] => true
  | item :: rest => item.isProper && itemsProper rest

/-- Whether the values of all members are proper. -/
def membersProper : List (String × Json) → Bool
  | [] => true
  | (_, value) :: rest => value.isProper && membersProper rest

end

mutual

/-- The number of containers that are nested in one another. -/
def nesting : Json → Nat
  | array items => itemsNesting items + 1
  | object members => membersNesting members + 1
  | null | bool _ | int _ | float _ | string _ => 0

/-- The greatest nesting of an item. -/
def itemsNesting : List Json → Nat
  | [] => 0
  | item :: rest => max item.nesting (itemsNesting rest)

/-- The greatest nesting of the value of a member. -/
def membersNesting : List (String × Json) → Nat
  | [] => 0
  | (_, value) :: rest => max value.nesting (membersNesting rest)

end

mutual

/-- The doubles in a value, in the order of the text. -/
def doubles : Json → List Double
  | float x => [x]
  | array items => itemDoubles items
  | object members => memberDoubles members
  | null | bool _ | int _ | string _ => []

/-- The doubles in the items of an array. -/
def itemDoubles : List Json → List Double
  | [] => []
  | item :: rest => item.doubles ++ itemDoubles rest

/-- The doubles in the members of an object. -/
def memberDoubles : List (String × Json) → List Double
  | [] => []
  | (_, value) :: rest => value.doubles ++ memberDoubles rest

end

/-- Whether a value is found again where `depth` containers may be opened. -/
@[mk_iff]
structure IsRecovered (depth : Nat) (value : Json) : Prop where
  nesting_le : value.nesting ≤ depth
  doubles : ∀ x ∈ value.doubles, x.IsRecovered

/-! ## Outlines -/

mutual

/-- The outline of the text of a value. The text of a double that is not finite is that of
`null`. -/
def spelled : Json → Outline
  | null => .null
  | bool b => .bool b
  | int n => .number ⟨decide (n < 0), Decimal.digits n.natAbs, none, none⟩
  | float x => ((scanNumeral (Layout.json.double x)).map fun found => .number found.1).getD .null
  | string s => .string (some s)
  | array items => .array (spelledItems items)
  | object members => .object (spelledMembers members)

/-- The outlines of the items of an array. -/
def spelledItems : List Json → List Outline
  | [] => []
  | item :: rest => item.spelled :: spelledItems rest

/-- The outlines of the members of an object. -/
def spelledMembers : List (String × Json) → List (Option String × Outline)
  | [] => []
  | (name, value) :: rest => (some name, value.spelled) :: spelledMembers rest

end

theorem spelled_float {negative : Bool} {x : Magnitude} {numeral : Numeral}
    (h : SpellsNumeral (Layout.json.double (.finite negative x)) numeral) :
    (float (.finite negative x)).spelled = .number numeral := by
  have hscan : scanNumeral (Layout.json.double (.finite negative x) ++ []) = some (numeral, []) :=
    scanNumeral_append h fun _ hc => nomatch hc
  rw [List.append_nil] at hscan
  rw [spelled, hscan]
  rfl

theorem spellsString_stringChars (s : String) : SpellsString (stringChars s) (some s) := by
  obtain ⟨text, pieces, htext, hscan, hstring⟩ := scanString_stringChars s []
  obtain ⟨inside, hinside, rfl⟩ := scanString_eq_some_iff.1 hscan
  rw [List.append_nil] at htext
  rw [htext, ← hstring]
  exact .intro hinside

theorem spellsNumeral_intChars (n : Int) :
    SpellsNumeral (intChars n) ⟨decide (n < 0), Decimal.digits n.natAbs, none, none⟩ := by
  obtain ⟨text, htext, heq⟩ := exists_numeral (scanNumeral_intChars n .nil)
  rw [List.append_nil, List.append_nil] at heq
  exact heq ▸ htext

theorem spells_float (x : Double) : Spells (Layout.json.double x) (float x).spelled := by
  cases x with
  | nan negative => cases negative <;> exact .null
  | infinity negative => cases negative <;> exact .null
  | finite negative x =>
    obtain ⟨numeral, hnumeral, -⟩ := exists_numeral_double negative x
    rw [spelled_float hnumeral]
    exact .number hnumeral

theorem allBlank_nil : AllBlank [] := List.forall_mem_nil _

theorem spellsText_of_spells {text : List Char} {outline : Outline} (h : Spells text outline) :
    SpellsText text outline := by
  simpa using SpellsText.intro allBlank_nil h allBlank_nil

theorem spellsName_stringChars (name : String) : SpellsName (stringChars name) (some name) := by
  simpa using SpellsName.intro allBlank_nil (spellsString_stringChars name) allBlank_nil

mutual

/-- **The text of a value spells its outline.** -/
theorem spells_compactChars (value : Json) : Spells value.compactChars value.spelled := by
  match value with
  | .null => exact .null
  | .bool true => exact .true
  | .bool false => exact .false
  | .int n => exact .number (spellsNumeral_intChars n)
  | .float x => exact spells_float x
  | .string s => exact .string (spellsString_stringChars s)
  | .array [] => exact .noItems allBlank_nil
  | .array (item :: items) =>
    obtain ⟨text, htext, hitems⟩ :=
      exists_compactItems_eq (item :: items) (List.cons_ne_nil _ _)
    show Spells ('[' :: compactItems (item :: items)) _
    rw [htext]
    exact .items hitems
  | .object [] => exact .noMembers allBlank_nil
  | .object (member :: members) =>
    obtain ⟨text, htext, hmembers⟩ :=
      exists_compactMembers_eq (member :: members) (List.cons_ne_nil _ _)
    show Spells ('\x7b' :: compactMembers (member :: members)) _
    rw [htext]
    exact .members hmembers

theorem exists_compactItems_eq (items : List Json) (hne : items ≠ []) :
    ∃ text, compactItems items = text ++ [']'] ∧ SpellsItems text (spelledItems items) := by
  match items with
  | [] => exact absurd rfl hne
  | [item] =>
    exact ⟨_, by rw [compactItems], .last (spellsText_of_spells (spells_compactChars item))⟩
  | item :: next :: items =>
    obtain ⟨text, htext, hitems⟩ := exists_compactItems_eq (next :: items) (List.cons_ne_nil _ _)
    refine ⟨item.compactChars ++ ',' :: text, ?_,
      .more (spellsText_of_spells (spells_compactChars item)) hitems⟩
    rw [compactItems_cons, htext, List.append_assoc, List.cons_append]

theorem exists_compactMembers_eq (members : List (String × Json)) (hne : members ≠ []) :
    ∃ text, compactMembers members = text ++ ['\x7d'] ∧
      SpellsMembers text (spelledMembers members) := by
  match members with
  | [] => exact absurd rfl hne
  | [(name, value)] =>
    exact ⟨_, by rw [compactMembers], .last (spellsName_stringChars name)
      (spellsText_of_spells (spells_compactChars value))⟩
  | (name, value) :: next :: members =>
    obtain ⟨text, htext, hmembers⟩ :=
      exists_compactMembers_eq (next :: members) (List.cons_ne_nil _ _)
    refine ⟨stringChars name ++ ':' :: (value.compactChars ++ ',' :: text), ?_,
      .more (spellsName_stringChars name) (spellsText_of_spells (spells_compactChars value))
        hmembers⟩
    rw [compactMembers_cons, htext]
    simp

end

/-- What is read from the text of a value is read from its outline. -/
theorem readText_eq_read_spelled {α : Type} [ReadJson α] (value : Json) :
    readText (α := α) value.compact = ReadJson.read nestingLimit value.spelled := by
  refine readText_of_spells ?_
  rw [compact, String.toList_ofList]
  exact spellsText_of_spells (spells_compactChars value)

mutual

/-- Without doubles nothing is left open in the outline of a value. -/
theorem spelled_eq_outline (value : Json) (h : value.isExact = true) :
    value.spelled = value.outline := by
  match value with
  | .null | .bool _ | .int _ | .string _ => rfl
  | .float x => cases h
  | .array items => rw [spelled, outline, spelledItems_eq items h]
  | .object members => rw [spelled, outline, spelledMembers_eq members h]

theorem spelledItems_eq (items : List Json) (h : itemsExact items = true) :
    spelledItems items = itemOutlines items := by
  match items with
  | [] => rfl
  | item :: rest =>
    rw [itemsExact, Bool.and_eq_true] at h
    rw [spelledItems, itemOutlines, spelled_eq_outline item h.1, spelledItems_eq rest h.2]

theorem spelledMembers_eq (members : List (String × Json)) (h : membersExact members = true) :
    spelledMembers members = memberOutlines members := by
  match members with
  | [] => rfl
  | (_, value) :: rest =>
    rw [membersExact, Bool.and_eq_true] at h
    rw [spelledMembers, memberOutlines, spelled_eq_outline value h.1, spelledMembers_eq rest h.2]

end

/-- A value without doubles is read from its text just as it is read from its outline. -/
theorem readText_compact {α : Type} [ReadJson α] {value : Json} (h : value.isExact = true) :
    readText (α := α) value.compact = ReadJson.read nestingLimit value.outline := by
  rw [readText_eq_read_spelled, spelled_eq_outline value h]

/-! ## Values of outlines -/

theorem value?_spelled_float {depth : Nat} {x : Double} :
    (float x).spelled.value? depth = some (float x) ↔ x.IsRecovered := by
  cases x with
  | nan negative => cases negative <;> exact ⟨nofun, nofun⟩
  | infinity negative => cases negative <;> exact ⟨nofun, nofun⟩
  | finite negative x =>
    obtain ⟨numeral, hnumeral, hread⟩ := exists_numeral_double negative x
    rw [spelled_float hnumeral, Outline.value?, hread, Option.map_map]
    show _ ↔ Numeral.scale x.written.coefficient x.written.exponent = some x
    generalize Numeral.scale x.written.coefficient x.written.exponent = found
    cases found <;> simp

/-- The next member of an object is appended if its name is new. -/
theorem memberValues?_cons (depth : Nat) {name : String} {value : Json}
    {before rest : List (String × Json)}
    (hnodup : (Assoc.keys (before ++ (name, value) :: rest)).Nodup) :
    (∀ found, (Assoc.keys ((before ++ [(name, found)]) ++ rest)).Nodup) ∧
      memberValues? depth (spelledMembers ((name, value) :: rest)) before =
        (value.spelled.value? depth).bind fun found =>
          memberValues? depth (spelledMembers rest) (before ++ [(name, found)]) := by
  have hfresh := Assoc.not_mem_keys_of_nodup hnodup
  refine ⟨fun found => ?_, ?_⟩
  · simpa [Assoc.keys] using hnodup
  · rw [spelledMembers, memberValues?]
    simp only [Option.bind_eq_bind, Option.bind_some]
    exact Option.bind_congr fun found _ => by rw [Assoc.insert_of_not_mem hfresh]

/-- The members that have been read before stay in front. -/
theorem exists_append_of_memberValues? {depth : Nat} {members before after : List (String × Json)}
    (hnodup : (Assoc.keys (before ++ members)).Nodup)
    (h : memberValues? depth (spelledMembers members) before = some after) :
    ∃ values, after = before ++ values := by
  induction members generalizing before with
  | nil =>
    obtain rfl := Option.some.inj h
    exact ⟨[], (List.append_nil _).symm⟩
  | cons member rest ih =>
    obtain ⟨hnext, hcons⟩ := memberValues?_cons depth hnodup
    rw [hcons] at h
    obtain ⟨found, -, hfound⟩ := Option.bind_eq_some_iff.1 h
    obtain ⟨values, rfl⟩ := ih (hnext found) hfound
    exact ⟨(member.1, found) :: values, by rw [List.append_assoc]; rfl⟩

mutual

/-- **A value is found again in its outline** if it is not nested too deep and each of its doubles
is found again. -/
theorem value?_spelled (value : Json) (h : value.isProper = true) (depth : Nat) :
    value.spelled.value? depth = some value ↔ value.IsRecovered depth := by
  rw [isRecovered_iff]
  match value, depth with
  | .null, _ | .bool _, _ | .string _, _ => simp [spelled, Outline.value?, nesting, doubles]
  | .int n, _ =>
    rw [isProper, Bool.and_eq_true, decide_eq_true_eq, decide_eq_true_eq] at h
    simp [spelled, Outline.value?, read?_intChars_of_lt h.1 h.2, nesting, doubles]
  | .float x, _ =>
    rw [value?_spelled_float]
    simp [nesting, doubles]
  | .array items, 0 | .object members, 0 => simp [spelled, Outline.value?, nesting]
  | .array items, depth + 1 =>
    have hitems := itemValues?_spelled items h depth
    rw [spelled, Outline.value?, nesting, doubles, Nat.add_le_add_iff_right, ← hitems]
    simp
  | .object members, depth + 1 =>
    rw [isProper, Bool.and_eq_true, decide_eq_true_eq] at h
    have hmembers : memberValues? depth (spelledMembers members) [] = some members ↔ _ :=
      memberValues?_spelled members h.2 depth h.1
    rw [spelled, Outline.value?, nesting, doubles, Nat.add_le_add_iff_right, ← hmembers]
    simp

theorem itemValues?_spelled (items : List Json) (h : itemsProper items = true) (depth : Nat) :
    itemValues? depth (spelledItems items) = some items ↔
      itemsNesting items ≤ depth ∧ ∀ x ∈ itemDoubles items, x.IsRecovered := by
  match items with
  | [] => simp [spelledItems, itemValues?, itemsNesting, itemDoubles]
  | item :: rest =>
    rw [itemsProper, Bool.and_eq_true] at h
    have hitem := value?_spelled item h.1 depth
    have hrest := itemValues?_spelled rest h.2 depth
    rw [spelledItems, itemValues?, itemsNesting, itemDoubles, List.forall_mem_append, max_le_iff]
    simp only [Option.bind_eq_bind, Option.bind_eq_some_iff, Option.some.injEq, List.cons.injEq]
    constructor
    · rintro ⟨_, hvalue, _, hvalues, rfl, rfl⟩
      obtain ⟨hnesting, hdoubles⟩ := hitem.1 hvalue
      obtain ⟨hnesting', hdoubles'⟩ := hrest.1 hvalues
      exact ⟨⟨hnesting, hnesting'⟩, hdoubles, hdoubles'⟩
    · rintro ⟨⟨hnesting, hnesting'⟩, hdoubles, hdoubles'⟩
      exact ⟨item, hitem.2 ⟨hnesting, hdoubles⟩, rest, hrest.2 ⟨hnesting', hdoubles'⟩, rfl, rfl⟩

theorem memberValues?_spelled (members : List (String × Json)) (h : membersProper members = true)
    (depth : Nat) {before : List (String × Json)}
    (hnodup : (Assoc.keys (before ++ members)).Nodup) :
    memberValues? depth (spelledMembers members) before = some (before ++ members) ↔
      membersNesting members ≤ depth ∧ ∀ x ∈ memberDoubles members, x.IsRecovered := by
  match members with
  | [] => simp [spelledMembers, memberValues?, membersNesting, memberDoubles]
  | (name, value) :: rest =>
    rw [membersProper, Bool.and_eq_true] at h
    have hvalue := value?_spelled value h.1 depth
    obtain ⟨hnext, hcons⟩ := memberValues?_cons depth hnodup
    have hrest := memberValues?_spelled rest h.2 depth (hnext value)
    rw [List.append_assoc, List.singleton_append] at hrest
    rw [hcons, membersNesting, memberDoubles, List.forall_mem_append, max_le_iff,
      Option.bind_eq_some_iff]
    constructor
    · rintro ⟨found, hfound, hmembers⟩
      -- the value that has been read stays where it is
      obtain ⟨values, heq⟩ := exists_append_of_memberValues? (hnext found) hmembers
      rw [List.append_assoc, List.append_cancel_left_eq, List.singleton_append,
        List.cons.injEq, Prod.mk.injEq] at heq
      obtain ⟨⟨-, rfl⟩, -⟩ := heq
      obtain ⟨hnesting, hdoubles⟩ := hvalue.1 hfound
      obtain ⟨hnesting', hdoubles'⟩ := hrest.1 hmembers
      exact ⟨⟨hnesting, hnesting'⟩, hdoubles, hdoubles'⟩
    · rintro ⟨⟨hnesting, hnesting'⟩, hdoubles, hdoubles'⟩
      exact ⟨value, hvalue.2 ⟨hnesting, hdoubles⟩, hrest.2 ⟨hnesting', hdoubles'⟩⟩

end

/-! ## Reading values -/

theorem read_eq_ok_iff {depth : Nat} {outline : Outline} {value : Json} :
    ReadJson.read depth outline = .ok value ↔ outline.value? depth = some value := by
  simp only [ReadJson.read]
  cases outline.value? depth <;> simp

/-- **The values that are read back from their texts.** -/
theorem readText_compact_eq_ok_iff {value : Json} (h : value.isProper = true) :
    readText value.compact = .ok value ↔ value.IsRecovered nestingLimit := by
  rw [readText_eq_read_spelled, read_eq_ok_iff, value?_spelled value h]

/-- A value that may be absent is read back unless it is `null`, which stands for its absence. -/
theorem read_spelled_eq_some_iff {depth : Nat} {value : Json} (h : value.isProper = true) :
    ReadJson.read depth value.spelled = .ok (some value) ↔
      value ≠ .null ∧ value.IsRecovered depth := by
  rw [← value?_spelled value h]
  by_cases hnull : value.spelled = .null
  · rw [hnull]
    constructor
    · nofun
    · rintro ⟨hne, hvalue⟩
      exact absurd (Option.some.inj hvalue).symm hne
  · have hne : value ≠ .null := by
      rintro rfl
      exact hnull rfl
    rw [read_option_of_ne_null hnull, Fallible.map_eq_ok_iff]
    simp [read_eq_ok_iff, hne]

end JavaAtlas.Json
