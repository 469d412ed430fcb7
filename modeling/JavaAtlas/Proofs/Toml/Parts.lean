import JavaAtlas.Proofs.Data.Dict
import JavaAtlas.Toml.Value

set_option autoImplicit false

/-! # Parts of values

Steps into arrays and tables lead to the parts of a value. The parts of a value whose strings have
been changed are the parts of the value itself with their strings changed (`at?_mapStrings`). So
nothing else differs between the two values, at any depth (`rel_at?_mapStrings`). -/

namespace JavaAtlas.Toml

/-- A step into a value. -/
inductive Step where
  | item (index : Nat)
  | entry (key : String)
deriving DecidableEq, Repr

namespace Value

/-- The part of a value to which one step leads. -/
def part? : Step → Value → Option Value
  | .item index, array items => items[index]?
  | .entry key, table entries => Assoc.find? key entries
  | _, _ => none

/-- The part of a value at the end of some steps. -/
def at? : List Step → Value → Option Value
  | [], value => some value
  | step :: steps, value => (value.part? step).bind (at? steps)

/-- How a value may look after its strings have been changed: a string is changed, an array keeps
its length, a table keeps its keys, and every other value stays as it is. -/
inductive Restrings (f : String → String) : Value → Value → Prop where
  | string (text : String) : Restrings f (string text) (string (f text))
  | integer (n : Int64) : Restrings f (integer n) (integer n)
  | float (x : Double) : Restrings f (float x) (float x)
  | boolean (b : Bool) : Restrings f (boolean b) (boolean b)
  | datetime (d : Datetime) : Restrings f (datetime d) (datetime d)
  | array {items others : List Value} (hlength : others.length = items.length) :
    Restrings f (array items) (array others)
  | table {entries others : List (String × Value)}
    (hkeys : Assoc.keys others = Assoc.keys entries) : Restrings f (table entries) (table others)

variable {f : String → String}

theorem mapItems_eq (f : String → String) (items : List Value) :
    mapItems f items = items.map (mapStrings f) := by
  induction items with
  | nil => rfl
  | cons item rest ih => rw [mapItems, List.map_cons, ih]

theorem mapEntries_eq (f : String → String) (entries : List (String × Value)) :
    mapEntries f entries = entries.map fun entry => (entry.1, entry.2.mapStrings f) := by
  induction entries with
  | nil => rfl
  | cons entry rest ih => rw [mapEntries, List.map_cons, ih]

theorem find?_mapEntries (f : String → String) (key : String) (entries : List (String × Value)) :
    Assoc.find? key (mapEntries f entries) = (Assoc.find? key entries).map (mapStrings f) := by
  induction entries with
  | nil => rfl
  | cons entry rest ih =>
    obtain ⟨k, value⟩ := entry
    rw [mapEntries, Assoc.find?_cons, Assoc.find?_cons, ih]
    split <;> rfl

/-! ## Values with changed strings -/

theorem part?_mapStrings (f : String → String) (step : Step) (value : Value) :
    (value.mapStrings f).part? step = (value.part? step).map (mapStrings f) := by
  cases value with
  | array items =>
    cases step with
    | item index => rw [mapStrings, part?, part?, mapItems_eq, List.getElem?_map]
    | entry key => rfl
  | table entries =>
    cases step with
    | item index => rfl
    | entry key => rw [mapStrings, part?, part?, find?_mapEntries]
  | _ => cases step <;> rfl

theorem at?_mapStrings (f : String → String) (steps : List Step) (value : Value) :
    (value.mapStrings f).at? steps = (value.at? steps).map (mapStrings f) := by
  induction steps generalizing value with
  | nil => rfl
  | cons step steps ih =>
    rw [at?, at?, part?_mapStrings]
    cases value.part? step with
    | none => rfl
    | some part => exact ih part

theorem restrings_mapStrings (f : String → String) (value : Value) :
    value.Restrings f (value.mapStrings f) := by
  cases value with
  | string text => exact .string text
  | integer n => exact .integer n
  | float x => exact .float x
  | boolean b => exact .boolean b
  | datetime d => exact .datetime d
  | array items =>
    rw [mapStrings, mapItems_eq]
    exact .array (List.length_map _)
  | table entries =>
    rw [mapStrings, mapEntries_eq]
    refine .table ?_
    rw [Assoc.keys, Assoc.keys, List.map_map]
    rfl

/-- **Only the strings inside a value are changed**: wherever steps lead in the value, they lead in
the changed value to a part that differs at most by its strings, and nowhere else. -/
theorem rel_at?_mapStrings (f : String → String) (value : Value) (steps : List Step) :
    Option.Rel (Restrings f) (value.at? steps) ((value.mapStrings f).at? steps) := by
  rw [at?_mapStrings]
  cases value.at? steps with
  | none => exact .none
  | some part => exact .some (restrings_mapStrings f part)

mutual

/-- A value whose strings do not change stays as it is. -/
theorem mapStrings_eq_self (h : ∀ text, f text = text) (value : Value) :
    value.mapStrings f = value := by
  match value with
  | .string text => rw [mapStrings, h]
  | .integer _ | .float _ | .boolean _ | .datetime _ => rfl
  | .array items => rw [mapStrings, mapItems_eq_self h items]
  | .table entries => rw [mapStrings, mapEntries_eq_self h entries]

theorem mapItems_eq_self (h : ∀ text, f text = text) (items : List Value) :
    mapItems f items = items := by
  match items with
  | [] => rfl
  | item :: rest => rw [mapItems, mapStrings_eq_self h item, mapItems_eq_self h rest]

theorem mapEntries_eq_self (h : ∀ text, f text = text) (entries : List (String × Value)) :
    mapEntries f entries = entries := by
  match entries with
  | [] => rfl
  | (key, value) :: rest => rw [mapEntries, mapStrings_eq_self h value, mapEntries_eq_self h rest]

end

end Value

end JavaAtlas.Toml
