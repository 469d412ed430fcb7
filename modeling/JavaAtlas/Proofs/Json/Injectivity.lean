import JavaAtlas.Proofs.Json.Outline
import JavaAtlas.Proofs.Number.Layout

set_option autoImplicit false

/-! # Values are told apart by their texts

The first character of a text tells the form of the value (`formOf_compactChars`), and behind it no
value can be taken for a longer one: a number goes on to the first character that does not occur in
numbers, a string to its closing quote, and a container is taken up part by part. So two texts that
agree are texts of one value, whatever follows them (`compactChars_append_inj`). -/

namespace JavaAtlas.Json

/-! ## Finite numbers -/

mutual

/-- Whether all numbers in the value are finite. JSON has no others: the text of a number that is
not finite is that of `null`. -/
def isFinite : Json → Bool
  | float x => x.isFinite
  | array items => itemsFinite items
  | object members => membersFinite members
  | null | bool _ | int _ | string _ => true

/-- Whether all numbers in the items are finite. -/
def itemsFinite : List Json → Bool
  | [] => true
  | item :: rest => item.isFinite && itemsFinite rest

/-- Whether all numbers in the members are finite. -/
def membersFinite : List (String × Json) → Bool
  | [] => true
  | (_, value) :: rest => value.isFinite && membersFinite rest

end

theorem itemsFinite_iff {items : List Json} :
    itemsFinite items = true ↔ ∀ item ∈ items, item.isFinite = true := by
  induction items with
  | nil => simp [itemsFinite]
  | cons item rest ih => rw [itemsFinite, Bool.and_eq_true, ih, List.forall_mem_cons]

theorem membersFinite_iff {members : List (String × Json)} :
    membersFinite members = true ↔ ∀ member ∈ members, member.2.isFinite = true := by
  induction members with
  | nil => simp [membersFinite]
  | cons member rest ih => rw [membersFinite, Bool.and_eq_true, ih, List.forall_mem_cons]

/-! ## Numbers -/

theorem exists_denotes {x : Double} (h : x.isFinite = true) :
    ∃ sign digits q, Layout.json.double x = sign ++ digits ∧ (sign = [] ∨ sign = ['-']) ∧
      Layout.Denotes digits q := by
  obtain ⟨negative, m, rfl⟩ := Layout.exists_finite h
  have hm := Layout.denotes_magnitude Layout.json m
  cases negative with
  | false => exact ⟨[], _, _, rfl, .inl rfl, hm⟩
  | true => exact ⟨['-'], _, _, rfl, .inr rfl, hm⟩

theorem isNumeralChar_of_mem_double {x : Double} (h : x.isFinite = true) :
    ∀ c ∈ Layout.json.double x, Layout.IsNumeralChar c := by
  obtain ⟨sign, digits, q, heq, hsign, hdigits⟩ := exists_denotes h
  rw [heq, List.forall_mem_append]
  refine ⟨?_, hdigits.isNumeralChar⟩
  rcases hsign with rfl | rfl
  · exact List.forall_mem_nil _
  · exact List.forall_mem_singleton.2 (by decide)

theorem isNumeralChar_of_mem_intChars {n : Int} :
    ∀ c ∈ intChars n, Layout.IsNumeralChar c := by
  intro c hc
  rcases mem_intChars hc with rfl | hdigit
  · decide
  · exact .inl hdigit

/-- The point or the exponent of a double does not occur in an integer. -/
theorem intChars_ne_double {n : Int} {x : Double} (h : x.isFinite = true) :
    intChars n ≠ Layout.json.double x := by
  intro heq
  obtain ⟨sign, digits, q, hdouble, -, hdigits⟩ := exists_denotes h
  obtain ⟨c, hc, hmark⟩ := hdigits.exists_mark
  have hmem : c ∈ intChars n := by
    rw [heq, hdouble]
    exact List.mem_append_right sign hc
  rcases mem_intChars hmem with rfl | hdigit
  · exact absurd hmark (by decide)
  · rcases hmark with rfl | rfl | rfl <;> exact absurd hdigit (by decide)

/-- A number goes on for as long as the characters are those of numbers. -/
theorem numeral_append_inj {cs ds rest rest' : List Char}
    (hcs : ∀ c ∈ cs, Layout.IsNumeralChar c) (hds : ∀ c ∈ ds, Layout.IsNumeralChar c)
    (hrest : Stops rest) (hrest' : Stops rest') (h : cs ++ rest = ds ++ rest') :
    cs = ds ∧ rest = rest' := by
  have htake : ∀ {cs rest : List Char}, (∀ c ∈ cs, Layout.IsNumeralChar c) → Stops rest →
      (cs ++ rest).takeWhile (fun c => decide (Layout.IsNumeralChar c)) = cs := by
    intro cs rest hcs hrest
    rw [List.takeWhile_append_of_pos fun c hc => decide_eq_true (hcs c hc)]
    cases hrest <;> exact List.append_nil cs
  have heq : cs = ds := by
    rw [← htake hcs hrest, h, htake hds hrest']
  rw [heq] at h
  exact ⟨heq, List.append_cancel_left h⟩

/-! ## Strings -/

theorem stringChars_append_inj {s t : String} {rest rest' : List Char}
    (h : stringChars s ++ rest = stringChars t ++ rest') : s = t ∧ rest = rest' := by
  obtain ⟨text, pieces, htext, hscan, hs⟩ := scanString_stringChars s rest
  obtain ⟨text', pieces', htext', hscan', ht⟩ := scanString_stringChars t rest'
  rw [htext, htext', List.cons.injEq] at h
  rw [h.2, hscan', Option.some.injEq, Prod.mk.injEq] at hscan
  obtain ⟨rfl, rfl⟩ := hscan
  rw [hs, Option.some.injEq] at ht
  exact ⟨ht, rfl⟩

/-! ## Forms -/

/-- What the first character of a text tells about the value. -/
inductive Form where
  | null
  | bool (value : Bool)
  | number
  | string
  | array
  | object

/-- The form of a value. -/
def form : Json → Form
  | null => .null
  | bool b => .bool b
  | int _ | float _ => .number
  | string _ => .string
  | array _ => .array
  | object _ => .object

/-- The form of the values whose texts begin with a character. -/
def formOf (c : Char) : Option Form :=
  if c.isDigit then some .number
  else match c with
  | '-' => some .number
  | 'n' => some .null
  | 't' => some (.bool true)
  | 'f' => some (.bool false)
  | '"' => some .string
  | '[' => some .array
  | '\x7b' => some .object
  | _ => none

theorem formOf_of_numeral {c : Char} (h : c = '-' ∨ c.isDigit = true) :
    formOf c = some .number := by
  rcases h with rfl | hdigit
  · rfl
  · exact if_pos hdigit

theorem formOf_compactChars {value : Json} (h : value.isFinite = true) :
    ∃ c cs, value.compactChars = c :: cs ∧ formOf c = some value.form := by
  cases value with
  | null => exact ⟨'n', _, rfl, rfl⟩
  | bool b => cases b with
    | true => exact ⟨'t', _, rfl, rfl⟩
    | false => exact ⟨'f', _, rfl, rfl⟩
  | int n =>
    obtain ⟨c, cs, hchars, hc⟩ := exists_intChars n
    exact ⟨c, cs, hchars, formOf_of_numeral hc⟩
  | float x =>
    obtain ⟨sign, digits, q, hchars, hsign, hdigits⟩ := exists_denotes h
    obtain ⟨c, cs, rfl, hc⟩ := hdigits.head
    rcases hsign with rfl | rfl
    · exact ⟨c, cs, hchars, formOf_of_numeral (.inr hc)⟩
    · exact ⟨'-', c :: cs, hchars, rfl⟩
  | string s => exact ⟨'"', _, rfl, rfl⟩
  | array items => exact ⟨'[', _, rfl, rfl⟩
  | object members => exact ⟨'\x7b', _, rfl, rfl⟩

theorem form_eq_of_append {v w : Json} (hv : v.isFinite = true) (hw : w.isFinite = true)
    {rest rest' : List Char} (h : v.compactChars ++ rest = w.compactChars ++ rest') :
    v.form = w.form := by
  obtain ⟨c, cs, hchars, hc⟩ := formOf_compactChars hv
  obtain ⟨d, ds, hchars', hd⟩ := formOf_compactChars hw
  rw [hchars, hchars', List.cons_append, List.cons_append, List.cons.injEq] at h
  rw [h.1, hd] at hc
  exact (Option.some.inj hc).symm

/-! ## Containers -/

/-- The text of an array behind its first item. -/
def itemsTail : List Json → List Char
  | [] => [']']
  | item :: rest => ',' :: compactItems (item :: rest)

/-- The text of an object behind its first member. -/
def membersTail : List (String × Json) → List Char
  | [] => ['\x7d']
  | member :: rest => ',' :: compactMembers (member :: rest)

theorem compactItems_eq (item : Json) (rest : List Json) :
    compactItems (item :: rest) = item.compactChars ++ itemsTail rest := by
  cases rest with
  | nil => rfl
  | cons next rest => exact compactItems_cons item next rest

theorem compactMembers_eq (name : String) (value : Json) (rest : List (String × Json)) :
    compactMembers ((name, value) :: rest) =
      stringChars name ++ ':' :: (value.compactChars ++ membersTail rest) := by
  cases rest with
  | nil => simp [compactMembers, membersTail]
  | cons next rest => simp [compactMembers_cons, membersTail]

theorem stops_itemsTail (items : List Json) (rest : List Char) : Stops (itemsTail items ++ rest) := by
  cases items with
  | nil => exact .bracket rest
  | cons => exact .comma _

theorem stops_membersTail (members : List (String × Json)) (rest : List Char) :
    Stops (membersTail members ++ rest) := by
  cases members with
  | nil => exact .brace rest
  | cons => exact .comma _

theorem itemsTail_append_inv {items others : List Json} {rest rest' : List Char}
    (h : itemsTail items ++ rest = itemsTail others ++ rest') :
    items = others ∧ rest = rest' ∨ compactItems items ++ rest = compactItems others ++ rest' := by
  cases items with
  | nil =>
    cases others with
    | nil => exact .inl ⟨rfl, (List.cons.inj h).2⟩
    | cons => exact absurd (List.cons.inj h).1 (by decide)
  | cons =>
    cases others with
    | nil => exact absurd (List.cons.inj h).1 (by decide)
    | cons => exact .inr (List.cons.inj h).2

theorem membersTail_append_inv {members others : List (String × Json)} {rest rest' : List Char}
    (h : membersTail members ++ rest = membersTail others ++ rest') :
    members = others ∧ rest = rest' ∨
      compactMembers members ++ rest = compactMembers others ++ rest' := by
  cases members with
  | nil =>
    cases others with
    | nil => exact .inl ⟨rfl, (List.cons.inj h).2⟩
    | cons => exact absurd (List.cons.inj h).1 (by decide)
  | cons =>
    cases others with
    | nil => exact absurd (List.cons.inj h).1 (by decide)
    | cons => exact .inr (List.cons.inj h).2

/-- A value does not begin like the end of its array. -/
theorem compactItems_ne_bracket {item : Json} {items : List Json} {rest rest' : List Char}
    (h : item.isFinite = true) : compactItems (item :: items) ++ rest ≠ ']' :: rest' := by
  obtain ⟨c, cs, hchars, hc⟩ := formOf_compactChars h
  rw [compactItems_eq, hchars]
  intro heq
  rw [(List.cons.inj heq).1] at hc
  cases hc

theorem compactMembers_ne_brace {member : String × Json} {members : List (String × Json)}
    {rest rest' : List Char} : compactMembers (member :: members) ++ rest ≠ '\x7d' :: rest' := by
  rw [compactMembers_eq]
  intro heq
  exact absurd (List.cons.inj heq).1 (by decide)

mutual

/-- Two texts that agree, whatever follows the values, are texts of one value. -/
theorem compactChars_append_inj (v w : Json) (hv : v.isFinite = true) (hw : w.isFinite = true)
    {rest rest' : List Char} (hrest : Stops rest) (hrest' : Stops rest')
    (h : v.compactChars ++ rest = w.compactChars ++ rest') : v = w ∧ rest = rest' := by
  have hform := form_eq_of_append hv hw h
  match v with
  | .null =>
    cases w <;> cases hform
    exact ⟨rfl, List.append_cancel_left h⟩
  | .bool b =>
    cases w <;> cases hform
    exact ⟨rfl, List.append_cancel_left h⟩
  | .int n =>
    cases w with
    | int m =>
      obtain ⟨heq, hrests⟩ := numeral_append_inj isNumeralChar_of_mem_intChars
        isNumeralChar_of_mem_intChars hrest hrest' h
      exact ⟨by rw [intChars_inj heq], hrests⟩
    | float x =>
      obtain ⟨heq, -⟩ := numeral_append_inj isNumeralChar_of_mem_intChars
        (isNumeralChar_of_mem_double hw) hrest hrest' h
      exact absurd heq (intChars_ne_double hw)
    | _ => cases hform
  | .float x =>
    cases w with
    | int m =>
      obtain ⟨heq, -⟩ := numeral_append_inj (isNumeralChar_of_mem_double hv)
        isNumeralChar_of_mem_intChars hrest hrest' h
      exact absurd heq.symm (intChars_ne_double hv)
    | float y =>
      obtain ⟨heq, hrests⟩ := numeral_append_inj (isNumeralChar_of_mem_double hv)
        (isNumeralChar_of_mem_double hw) hrest hrest' h
      exact ⟨by rw [Layout.double_inj hv hw heq], hrests⟩
    | _ => cases hform
  | .string s =>
    cases w <;> cases hform
    obtain ⟨rfl, hrests⟩ := stringChars_append_inj h
    exact ⟨rfl, hrests⟩
  | .array items =>
    cases w <;> cases hform
    obtain ⟨rfl, hrests⟩ := compactItems_append_inj items _ hv hw (List.cons.inj h).2
    exact ⟨rfl, hrests⟩
  | .object members =>
    cases w <;> cases hform
    obtain ⟨rfl, hrests⟩ := compactMembers_append_inj members _ hv hw (List.cons.inj h).2
    exact ⟨rfl, hrests⟩

theorem compactItems_append_inj (items others : List Json) (hitems : itemsFinite items = true)
    (hothers : itemsFinite others = true) {rest rest' : List Char}
    (h : compactItems items ++ rest = compactItems others ++ rest') :
    items = others ∧ rest = rest' := by
  match items, others with
  | [], [] => exact ⟨rfl, (List.cons.inj h).2⟩
  | [], other :: others =>
    rw [itemsFinite, Bool.and_eq_true] at hothers
    exact absurd h.symm (compactItems_ne_bracket hothers.1)
  | item :: items, [] =>
    rw [itemsFinite, Bool.and_eq_true] at hitems
    exact absurd h (compactItems_ne_bracket hitems.1)
  | item :: items, other :: others =>
    rw [itemsFinite, Bool.and_eq_true] at hitems hothers
    rw [compactItems_eq, compactItems_eq, List.append_assoc, List.append_assoc] at h
    -- behind an item stands a comma or the closing bracket, which ends every value
    obtain ⟨rfl, htail⟩ := compactChars_append_inj item other hitems.1 hothers.1
      (stops_itemsTail items rest) (stops_itemsTail others rest') h
    rcases itemsTail_append_inv htail with ⟨rfl, hrests⟩ | hmore
    · exact ⟨rfl, hrests⟩
    · obtain ⟨rfl, hrests⟩ := compactItems_append_inj items others hitems.2 hothers.2 hmore
      exact ⟨rfl, hrests⟩

theorem compactMembers_append_inj (members others : List (String × Json))
    (hmembers : membersFinite members = true) (hothers : membersFinite others = true)
    {rest rest' : List Char} (h : compactMembers members ++ rest = compactMembers others ++ rest') :
    members = others ∧ rest = rest' := by
  match members, others with
  | [], [] => exact ⟨rfl, (List.cons.inj h).2⟩
  | [], other :: others => exact absurd h.symm compactMembers_ne_brace
  | member :: members, [] => exact absurd h compactMembers_ne_brace
  | (name, value) :: members, (name', value') :: others =>
    rw [membersFinite, Bool.and_eq_true] at hmembers hothers
    simp only [compactMembers_eq, List.append_assoc, List.cons_append] at h
    obtain ⟨rfl, hvalues⟩ := stringChars_append_inj h
    obtain ⟨rfl, htail⟩ := compactChars_append_inj value value' hmembers.1 hothers.1
      (stops_membersTail members rest) (stops_membersTail others rest') (List.cons.inj hvalues).2
    rcases membersTail_append_inv htail with ⟨rfl, hrests⟩ | hmore
    · exact ⟨rfl, hrests⟩
    · obtain ⟨rfl, hrests⟩ := compactMembers_append_inj members others hmembers.2 hothers.2 hmore
      exact ⟨rfl, hrests⟩

end

/-- **Values are told apart by their texts.** -/
theorem compact_inj {v w : Json} (hv : v.isFinite = true) (hw : w.isFinite = true)
    (h : v.compact = w.compact) : v = w := by
  have hchars : v.compactChars = w.compactChars := String.ofList_injective h
  refine (compactChars_append_inj v w hv hw .nil .nil ?_).1
  rw [hchars]

end JavaAtlas.Json
