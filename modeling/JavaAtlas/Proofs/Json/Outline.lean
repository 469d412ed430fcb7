import JavaAtlas.Json.Reading
import JavaAtlas.Proofs.Json.Scalars

set_option autoImplicit false

/-! # The outline of printed values

The outline of a value that holds no doubles is the value itself, spelled out. Here are also the
facts about printed text on which the scanner goes by: a value does not begin with a blank, and a
string ends at its closing quote. -/

namespace JavaAtlas.Json

/-! ## Outlines of values -/

mutual

/-- Whether no doubles occur in the value. -/
def isExact : Json → Bool
  | float _ => false
  | array items => itemsExact items
  | object members => membersExact members
  | null | bool _ | int _ | string _ => true

/-- Whether no doubles occur in the items. -/
def itemsExact : List Json → Bool
  | [] => true
  | item :: rest => item.isExact && itemsExact rest

/-- Whether no doubles occur in the members. -/
def membersExact : List (String × Json) → Bool
  | [] => true
  | (_, value) :: rest => value.isExact && membersExact rest

end

mutual

/-- The outline of the text of a value; that of a double is left open. -/
def outline : Json → Outline
  | null => .null
  | bool b => .bool b
  | int n => .number ⟨decide (n < 0), Decimal.digits n.natAbs, none, none⟩
  | float _ => .broken
  | string s => .string (some s)
  | array items => .array (itemOutlines items)
  | object members => .object (memberOutlines members)

/-- The outlines of the items of an array. -/
def itemOutlines : List Json → List Outline
  | [] => []
  | item :: rest => item.outline :: itemOutlines rest

/-- The outlines of the members of an object. -/
def memberOutlines : List (String × Json) → List (Option String × Outline)
  | [] => []
  | (name, value) :: rest => (some name, value.outline) :: memberOutlines rest

end

theorem itemOutlines_eq (items : List Json) : itemOutlines items = items.map outline := by
  induction items with
  | nil => rfl
  | cons item rest ih => rw [itemOutlines, List.map_cons, ih]

theorem memberOutlines_eq (members : List (String × Json)) :
    memberOutlines members = members.map fun member => (some member.1, member.2.outline) := by
  induction members with
  | nil => rfl
  | cons member rest ih => rw [memberOutlines, List.map_cons, ih]

theorem itemsExact_iff {items : List Json} :
    itemsExact items = true ↔ ∀ item ∈ items, item.isExact = true := by
  induction items with
  | nil => simp [itemsExact]
  | cons item rest ih => rw [itemsExact, Bool.and_eq_true, ih, List.forall_mem_cons]

theorem membersExact_iff {members : List (String × Json)} :
    membersExact members = true ↔ ∀ member ∈ members, member.2.isExact = true := by
  induction members with
  | nil => simp [membersExact]
  | cons member rest ih => rw [membersExact, Bool.and_eq_true, ih, List.forall_mem_cons]

/-! ## The beginning of a value -/

/-- Whether a value may begin with the character. -/
def Begins (c : Char) : Prop := skipBlank [c] = [c] ∧ c ≠ ']'

instance (c : Char) : Decidable (Begins c) := inferInstanceAs (Decidable (_ ∧ _))

theorem skipBlank_cons {c : Char} (h : Begins c) (cs : List Char) :
    skipBlank (c :: cs) = c :: cs := by
  have hc := h.1
  unfold skipBlank at hc ⊢
  rw [List.dropWhile_cons] at hc ⊢
  split at hc
  · exact absurd hc (by simp)
  · next hkeep => rw [if_neg hkeep]

theorem ne_of_numeral {c : Char} (h : c = '-' ∨ c.isDigit = true) {others : List Char}
    (hothers : others.all (fun d => d != '-' && !d.isDigit) = true) : ∀ d ∈ others, c ≠ d := by
  rintro d hd rfl
  have hc := List.all_eq_true.1 hothers c hd
  rw [Bool.and_eq_true, bne_iff_ne, Bool.not_eq_true'] at hc
  rcases h with h | h
  · exact hc.1 h
  · rw [hc.2] at h
    cases h

theorem begins_of_numeral {c : Char} (h : c = '-' ∨ c.isDigit = true) : Begins c := by
  have hne : ∀ d ∈ [' ', '\n', '\t', '\r', ']'], c ≠ d := ne_of_numeral h rfl
  simp only [List.forall_mem_cons] at hne
  simp [Begins, skipBlank, hne]

/-! ## Values without parts -/

theorem scanString_stringChars (s : String) (rest : List Char) :
    ∃ text pieces, stringChars s ++ rest = '"' :: text ∧
      scanString text = some (pieces, rest) ∧ assembleString pieces = some s := by
  obtain ⟨pieces, hscan, hassemble⟩ := scanString_escaped s.toList rest
  refine ⟨s.toList.flatMap escapeChar ++ '"' :: rest, pieces, ?_, hscan, ?_⟩
  · simp [stringChars]
  · simp [assembleString, hassemble]

/-- An integer is read as one of any range in which it lies. -/
theorem readInteger_int {α : Type} {expected : String} {low high n : Int} {ofInt : Int → α}
    (hlow : low ≤ n) (hhigh : n ≤ high) (hmin : Int64.minValue.toInt ≤ n)
    (hmax : n ≤ Int64.maxValue.toInt) :
    readInteger expected low high ofInt (int n).outline = .ok (ofInt n) := by
  show readInteger expected low high ofInt (.number _) = _
  unfold readInteger
  simp only [read?_intChars hmin hmax, hlow, hhigh, and_self, if_true]

theorem read_option_of_ne_null {α : Type} [ReadJson α] {depth : Nat} {outline : Outline}
    (h : outline ≠ .null) :
    (ReadJson.read depth outline : Except ReadError (Option α)) =
      (ReadJson.read depth outline).map some := by
  cases outline with
  | null => exact absurd rfl h
  | _ => rfl

/-! ## Containers -/

theorem compactItems_cons (item next : Json) (rest : List Json) :
    compactItems (item :: next :: rest) =
      item.compactChars ++ ',' :: compactItems (next :: rest) := by
  rw [compactItems]
  exact List.cons_ne_nil _ _

theorem compactMembers_cons (name : String) (value : Json) (next : String × Json)
    (rest : List (String × Json)) :
    compactMembers ((name, value) :: next :: rest) =
      stringChars name ++ ':' :: value.compactChars ++ ',' :: compactMembers (next :: rest) := by
  rw [compactMembers]
  exact List.cons_ne_nil _ _

end JavaAtlas.Json
