import JavaAtlas.Proofs.Data.SortedMaps
import JavaAtlas.Proofs.Json.Outline
import JavaAtlas.Proofs.Toml.Scalars
import JavaAtlas.Proofs.Toml.Strings

set_option autoImplicit false

/-! # Values are read back

A value without floats, dates and times is read back from its line, unless arrays and tables lie
within each other more deeply than the reader goes (`readValue_chars`). -/

namespace JavaAtlas.Toml

/-! ## What values are made of -/

mutual

/-- Whether a value is made of strings, integers and booleans. -/
def Value.isPlain : Value → Bool
  | .string _ | .integer _ | .boolean _ => true
  | .float _ | .datetime _ => false
  | .array items => itemsPlain items
  | .table entries => entriesPlain entries

/-- Whether items are made of strings, integers and booleans. -/
def itemsPlain : List Value → Bool
  | [] => true
  | item :: rest => item.isPlain && itemsPlain rest

/-- Whether entries are made of strings, integers and booleans. -/
def entriesPlain : List (String × Value) → Bool
  | [] => true
  | (_, value) :: rest => value.isPlain && entriesPlain rest

end

mutual

/-- Whether every table in a value has its entries in the order of their keys. -/
def Value.IsOrdered : Value → Prop
  | .array items => ItemsOrdered items
  | .table entries => TableOrdered entries
  | _ => True

/-- Whether every table in the items has its entries in the order of their keys. -/
def ItemsOrdered : List Value → Prop
  | [] => True
  | item :: rest => item.IsOrdered ∧ ItemsOrdered rest

/-- Whether a table, and every table in it, has its entries in the order of their keys. -/
def TableOrdered : List (String × Value) → Prop
  | [] => True
  | (key, value) :: rest =>
    (∀ entry ∈ rest, key < entry.1) ∧ value.IsOrdered ∧ TableOrdered rest

end

mutual

/-- How many arrays and tables lie within each other in a value. -/
def Value.depth : Value → Nat
  | .array items => itemsDepth items + 1
  | .table entries => entriesDepth entries + 1
  | _ => 0

/-- How many arrays and tables lie within each other in the items. -/
def itemsDepth : List Value → Nat
  | [] => 0
  | item :: rest => max item.depth (itemsDepth rest)

/-- How many arrays and tables lie within each other in the entries. -/
def entriesDepth : List (String × Value) → Nat
  | [] => 0
  | (_, value) :: rest => max value.depth (entriesDepth rest)

end

theorem entriesPlain_iff {entries : List (String × Value)} :
    entriesPlain entries = true ↔ ∀ entry ∈ entries, entry.2.isPlain = true := by
  induction entries with
  | nil => simp [entriesPlain]
  | cons entry rest ih => rw [entriesPlain, Bool.and_eq_true, ih, List.forall_mem_cons]

theorem tableOrdered_iff {entries : List (String × Value)} :
    TableOrdered entries ↔ Sorted.IsSorted entries ∧ ∀ entry ∈ entries, entry.2.IsOrdered := by
  induction entries with
  | nil => simp [TableOrdered, Sorted.isSorted_nil]
  | cons entry rest ih =>
    have hsorted : Sorted.IsSorted (entry :: rest) ↔
        (∀ other ∈ rest, entry.1 < other.1) ∧ Sorted.IsSorted rest := List.pairwise_cons
    rw [TableOrdered, ih, hsorted, List.forall_mem_cons]
    tauto

/-! ## The beginning of a value -/

/-- Whether a value, a key or a heading may begin with the character. -/
def Begins (c : Char) : Prop :=
  c ∉ [' ', '\t', '\n', '\r', '#', '=', ']', '\x7d', byteOrderMark]

instance (c : Char) : Decidable (Begins c) := inferInstanceAs (Decidable (¬_))

theorem Begins.ne {c d : Char} (h : Begins c)
    (hd : d ∈ [' ', '\t', '\n', '\r', '#', '=', ']', '\x7d', byteOrderMark]) : c ≠ d := by
  rintro rfl
  exact h hd

theorem skipBlanks_cons {c : Char} (h : Begins c) (cs : List Char) :
    skipBlanks (c :: cs) = c :: cs := by
  have hblank : (c == ' ' || c == '\t') = false := by
    simp only [Begins, List.mem_cons, not_or] at h
    simp [h]
  exact List.dropWhile_cons_of_neg (by simp [hblank])

theorem skipLines_cons {c : Char} (h : Begins c) (cs : List Char) :
    skipLines false (c :: cs) = some (c :: cs) := by
  simp only [Begins, List.mem_cons, not_or] at h
  rw [skipLines]
  · simp [h]
  all_goals grind

theorem begins_of_isBare {c : Char} (h : isBare c = true ∨ c = '"' ∨ c = '\'') : Begins c := by
  intro hmem
  have hnone : [' ', '\t', '\n', '\r', '#', '=', ']', '\x7d', byteOrderMark].all
      (fun d => !isBare d && d != '"' && d != '\'') = true := by decide
  have hc := List.all_eq_true.1 hnone c hmem
  rw [Bool.and_eq_true, Bool.and_eq_true, Bool.not_eq_true', bne_iff_ne, bne_iff_ne] at hc
  rcases h with h | h | h
  · rw [hc.1.1] at h
    exact absurd h Bool.false_ne_true
  · exact hc.1.2 h
  · exact hc.2 h

theorem exists_chars {value : Value} (h : value.isPlain = true) :
    ∃ c cs, value.chars = c :: cs ∧ Begins c := by
  cases value with
  | string text =>
    obtain ⟨c, cs, hchars, hc⟩ := exists_stringChars text
    exact ⟨c, cs, by rw [Value.chars, hchars], begins_of_isBare (.inr hc)⟩
  | integer n =>
    obtain ⟨c, cs, hchars, hc⟩ := Json.exists_intChars n.toInt
    exact ⟨c, cs, by rw [Value.chars, hchars], fun hmem => Json.ne_of_numeral hc rfl _ hmem rfl⟩
  | float x => cases h
  | boolean b => cases b with
    | true => exact ⟨'t', _, rfl, by decide⟩
    | false => exact ⟨'f', _, rfl, by decide⟩
  | datetime d => cases h
  | array items => exact ⟨'[', _, rfl, by decide⟩
  | table entries => cases entries with
    | nil => exact ⟨'\x7b', _, rfl, by decide⟩
    | cons => exact ⟨'\x7b', _, rfl, by decide⟩

/-! ## Values without parts -/

theorem Stops.noMark {rest : List Char} (h : Stops rest) : NoMark rest := by
  cases h <;> exact ⟨by simp, by simp⟩

theorem readValue_string (depth : Nat) (text : String) {rest : List Char} (hrest : Stops rest) :
    readValue depth ((Value.string text).chars ++ rest) = some (.string text, rest) := by
  have hread := readString_stringChars text hrest.noMark
  obtain ⟨c, cs, hchars, hc⟩ := exists_stringChars text
  rw [Value.chars]
  rw [hchars, List.cons_append] at hread ⊢
  rcases hc with rfl | rfl
  · simp [readValue, hread]
  · simp [readValue, hread]

theorem readValue_scalar {c : Char} (h : c ∉ ['[', '\x7b', '"', '\'']) (depth : Nat)
    (cs : List Char) : readValue depth (c :: cs) = readScalar (c :: cs) := by
  simp only [List.mem_cons, not_or] at h
  rw [readValue]
  all_goals grind

theorem readValue_integer (depth : Nat) (n : Int64) {rest : List Char} (hrest : Stops rest) :
    readValue depth ((Value.integer n).chars ++ rest) = some (.integer n, rest) := by
  have hread := readScalar_integer n hrest
  obtain ⟨c, cs, hchars, hc⟩ := Json.exists_intChars n.toInt
  rw [Value.chars] at hread ⊢
  rw [hchars, List.cons_append] at hread ⊢
  rw [readValue_scalar (fun hmem => Json.ne_of_numeral hc rfl _ hmem rfl), hread]

theorem readValue_boolean (depth : Nat) (b : Bool) {rest : List Char} (hrest : Stops rest) :
    readValue depth ((Value.boolean b).chars ++ rest) = some (.boolean b, rest) := by
  have hread := readScalar_boolean b hrest
  cases b with
  | true =>
    show readValue depth ('t' :: _) = _
    rw [readValue_scalar (by decide)]
    exact hread
  | false =>
    show readValue depth ('f' :: _) = _
    rw [readValue_scalar (by decide)]
    exact hread

/-! ## Arrays -/

theorem itemChars_cons (item next : Value) (rest : List Value) :
    itemChars (item :: next :: rest) = item.chars ++ ',' :: ' ' :: itemChars (next :: rest) := by
  rw [itemChars]
  exact List.cons_ne_nil _ _

theorem readItems_blank (reader : ValueReader) (count : Nat) (cs : List Char) :
    readItems reader count (' ' :: cs) = readItems reader count cs := by
  cases count with
  | zero => rfl
  | succ count =>
    have hskip : skipLines false (' ' :: cs) = skipLines false cs := by simp [skipLines]
    rw [readItems, hskip]
    rfl

section

variable {reader : ValueReader} {c : Char} {cs rest : List Char} {item : Value}

theorem readItems_none (hc : Begins c) (hitem : reader (c :: cs) = none) (count : Nat) :
    readItems reader (count + 1) (c :: cs) = none := by
  have hclose : c ≠ ']' := hc.ne (by decide)
  rw [readItems, skipLines_cons hc]
  simp [hclose, hitem]

theorem readItems_last (hc : Begins c) (hitem : reader (c :: cs) = some (item, ']' :: rest))
    (count : Nat) : readItems reader (count + 1) (c :: cs) = some ([item], rest) := by
  have hclose : c ≠ ']' := hc.ne (by decide)
  have hskip : skipLines false (']' :: rest) = some (']' :: rest) := by simp [skipLines]
  rw [readItems, skipLines_cons hc]
  simp [hclose, hitem, hskip]

theorem readItems_more (hc : Begins c) (hitem : reader (c :: cs) = some (item, ',' :: rest))
    (count : Nat) : readItems reader (count + 1) (c :: cs) =
      (readItems reader count rest).map fun (items, rest) => (item :: items, rest) := by
  have hclose : c ≠ ']' := hc.ne (by decide)
  have hskip : skipLines false (',' :: rest) = some (',' :: rest) := skipLines_cons (by decide) rest
  rw [readItems, skipLines_cons hc]
  cases hmore : readItems reader count rest <;> simp [hclose, hitem, hskip, hmore]

end

/-! ## Keys -/

theorem pathChars_cons (key : String) (path : KeyPath) :
    pathChars (key :: path.keys) = keyChars key ++ '.' :: pathChars path.keys := by
  obtain ⟨k, ks, hkeys⟩ : ∃ k ks, path.keys = k :: ks :=
    List.exists_cons_of_ne_nil (by simp [KeyPath.keys])
  rw [hkeys, pathChars]
  exact List.cons_ne_nil _ _

/-- A path of keys is read back, unless it has more keys than the reader takes. -/
theorem readKeys_pathChars (path : KeyPath) (count : Nat) {rest : List Char}
    (hrest : ∀ c ∈ rest.head?, isBare c = false) (hdot : (skipBlanks rest).head? ≠ some '.') :
    readKeys count (pathChars path.keys ++ rest) =
      if path.front.length < count then some (path, skipBlanks rest) else none := by
  obtain ⟨front, last⟩ := path
  induction front generalizing count with
  | nil =>
    cases count with
    | zero => rfl
    | succ count =>
      obtain ⟨c, cs, hchars, hc⟩ := exists_keyChars last
      have hread := readKey_keyChars last hrest
      show readKeys (count + 1) (keyChars last ++ rest) = _
      rw [hchars, List.cons_append] at hread ⊢
      rw [readKeys, skipBlanks_cons (begins_of_isBare hc), hread]
      cases hskip : skipBlanks rest with
      | nil => simp [hskip]
      | cons d ds =>
        have hd : d ≠ '.' := by
          rintro rfl
          exact hdot (by rw [hskip]; rfl)
        simp [hskip, hd]
  | cons key front ih =>
    cases count with
    | zero => rfl
    | succ count =>
      obtain ⟨c, cs, hchars, hc⟩ := exists_keyChars key
      have hread : ∀ more, readKey (keyChars key ++ '.' :: more) = some (key.toList, '.' :: more) :=
        fun more => readKey_keyChars key (by simp; decide)
      have hskip : ∀ more, skipBlanks ('.' :: more) = '.' :: more := skipBlanks_cons (by decide)
      show readKeys (count + 1) (pathChars (key :: (KeyPath.mk front last).keys) ++ rest) = _
      rw [pathChars_cons, List.append_assoc, List.cons_append]
      have hread := hread (pathChars (KeyPath.mk front last).keys ++ rest)
      rw [hchars, List.cons_append] at hread ⊢
      rw [readKeys, skipBlanks_cons (begins_of_isBare hc), hread]
      simp only [hskip, ih, String.ofList_toList, Option.bind_eq_bind, Option.bind_some,
        List.length_cons, Nat.add_lt_add_iff_right]
      split <;> rfl

/-! ## Tables -/

theorem entryChars_cons (key : String) (value : Value) (next : String × Value)
    (rest : List (String × Value)) :
    entryChars ((key, value) :: next :: rest) =
      keyChars key ++ " = ".toList ++ value.chars ++ ',' :: ' ' :: entryChars (next :: rest) := by
  rw [entryChars]
  exact List.cons_ne_nil _ _

theorem readPair_entry (reader : ValueReader) (key : String) {value : Value}
    (hplain : value.isPlain = true) (rest : List Char) :
    readPair reader (keyChars key ++ " = ".toList ++ (value.chars ++ rest)) =
      (reader (value.chars ++ rest)).map fun (value, rest) => ((⟨[], key⟩, value), rest) := by
  obtain ⟨c, cs, hchars, hc⟩ := exists_chars hplain
  have hequals : ∀ more, skipBlanks (' ' :: '=' :: more) = '=' :: more := fun more => by
    simp [skipBlanks]
  have hblank : ∀ more, skipBlanks (' ' :: c :: more) = c :: more := fun more => by
    have hskip : skipBlanks (' ' :: c :: more) = skipBlanks (c :: more) := by simp [skipBlanks]
    rw [hskip, skipBlanks_cons hc]
  have hpath : readPath (keyChars key ++ ' ' :: '=' :: ' ' :: (value.chars ++ rest)) =
      some (⟨[], key⟩, '=' :: ' ' :: (value.chars ++ rest)) := by
    have hkeys := @readKeys_pathChars ⟨[], key⟩ pathLimit
      (' ' :: '=' :: ' ' :: (value.chars ++ rest)) (by simp; decide) (by rw [hequals]; simp)
    have hlimit : (KeyPath.mk [] key).front.length < pathLimit := Nat.zero_lt_succ _
    rw [if_pos hlimit, hequals] at hkeys
    exact hkeys
  rw [List.append_assoc]
  show readPair reader (keyChars key ++ ' ' :: '=' :: ' ' :: (value.chars ++ rest)) = _
  rw [readPair, hpath, hchars, List.cons_append]
  simp only [hblank, Option.bind_eq_bind, Option.bind_some]
  cases reader (c :: (cs ++ rest)) <;> rfl

theorem readPairs_blank (reader : ValueReader) (count : Nat) (cs : List Char) :
    readPairs reader count (' ' :: cs) = readPairs reader count cs := by
  cases count with
  | zero => rfl
  | succ count =>
    have hskip : skipLines false (' ' :: cs) = skipLines false cs := by simp [skipLines]
    rw [readPairs, hskip]
    rfl

section

variable {reader : ValueReader} {c : Char} {cs rest : List Char} {pair : KeyPath × Value}

theorem readPairs_none (hc : Begins c) (hpair : readPair reader (c :: cs) = none) (count : Nat) :
    readPairs reader (count + 1) (c :: cs) = none := by
  have hclose : c ≠ '\x7d' := hc.ne (by decide)
  rw [readPairs, skipLines_cons hc]
  simp [hclose, hpair]

theorem readPairs_last (hc : Begins c)
    (hpair : readPair reader (c :: cs) = some (pair, ' ' :: '\x7d' :: rest)) (count : Nat) :
    readPairs reader (count + 1) (c :: cs) = some ([pair], rest) := by
  have hclose : c ≠ '\x7d' := hc.ne (by decide)
  have hskip : skipLines false (' ' :: '\x7d' :: rest) = some ('\x7d' :: rest) := by
    simp [skipLines]
  rw [readPairs, skipLines_cons hc]
  simp [hclose, hpair, hskip]

theorem readPairs_more (hc : Begins c)
    (hpair : readPair reader (c :: cs) = some (pair, ',' :: rest)) (count : Nat) :
    readPairs reader (count + 1) (c :: cs) =
      (readPairs reader count rest).map fun (pairs, rest) => (pair :: pairs, rest) := by
  have hclose : c ≠ '\x7d' := hc.ne (by decide)
  have hskip : skipLines false (',' :: rest) = some (',' :: rest) := skipLines_cons (by decide) rest
  rw [readPairs, skipLines_cons hc]
  cases hmore : readPairs reader count rest <;> simp [hclose, hpair, hskip, hmore]

end

/-- The pairs that the entries of a table are written as. -/
def pairsOf (entries : List (String × Value)) : List (KeyPath × Value) :=
  entries.map fun (key, value) => (⟨[], key⟩, value)

/-- Values that have been written out, as entries of a table under construction. -/
def writtenOut (entries : Table) : Drafts := entries.map fun (key, value) => (key, .value value)

theorem writtenOut_append (entries more : Table) :
    writtenOut (entries ++ more) = writtenOut entries ++ writtenOut more := List.map_append

/-- Values under greater and greater keys are added one after the other. -/
theorem foldlM_addNew {earlier entries : Table} (h : Sorted.IsSorted (earlier ++ entries)) :
    entries.foldlM (fun drafts entry => addNew entry.1 entry.2 drafts) (writtenOut earlier) =
      some (writtenOut (earlier ++ entries)) := by
  induction entries generalizing earlier with
  | nil => simp
  | cons entry rest ih =>
    obtain ⟨key, value⟩ := entry
    have hlast : ∀ other ∈ writtenOut earlier, other.1 < key := by
      simp only [writtenOut, List.forall_mem_map]
      exact fun other hother => (List.pairwise_append.1 h).2.2 other hother _ List.mem_cons_self
    have hfresh : Assoc.find? key (writtenOut earlier) = none := by
      rw [Assoc.find?_eq_none_iff]
      intro hmem
      obtain ⟨draft, hdraft⟩ := Assoc.mem_keys_iff.1 hmem
      exact absurd (hlast _ hdraft) (String.lt_irrefl _)
    have hadd : addNew key value (writtenOut earlier) =
        some (writtenOut (earlier ++ [(key, value)])) := by
      rw [addNew, hfresh, Sorted.insert_eq_append hlast, writtenOut_append]
      rfl
    rw [List.foldlM_cons, hadd, Option.bind_eq_bind, Option.bind_some, ih (by simpa using h),
      List.append_assoc, List.singleton_append]

theorem toTable_writtenOut (entries : Table) : toTable (writtenOut entries) = entries := by
  induction entries with
  | nil => rfl
  | cons entry rest ih => rw [writtenOut, List.map_cons, toTable, Draft.toValue, ← writtenOut, ih]

/-- The pairs of a table between braces make up the table. -/
theorem tableOfPairs?_pairsOf {entries : Table} (h : Sorted.IsSorted entries) :
    tableOfPairs? (pairsOf entries) = some entries := by
  have hfold : (pairsOf entries).foldlM
      (fun drafts pair => addPair pair.1.front pair.1.last pair.2 drafts) [] =
      some (writtenOut entries) := by
    rw [pairsOf, List.foldlM_map]
    exact @foldlM_addNew [] entries h
  unfold tableOfPairs?
  dsimp only
  rw [hfold, Option.map_some, toTable_writtenOut]

/-! ## All values -/

theorem length_le_itemChars (items : List Value) : items.length ≤ (itemChars items).length := by
  induction items with
  | nil => exact Nat.zero_le _
  | cons item rest ih =>
    cases rest with
    | nil => simp [itemChars]
    | cons next rest =>
      rw [itemChars_cons]
      simp only [List.length_append, List.length_cons] at ih ⊢
      omega

theorem length_le_entryChars (entries : List (String × Value)) :
    entries.length ≤ (entryChars entries).length := by
  induction entries with
  | nil => exact Nat.zero_le _
  | cons entry rest ih =>
    cases rest with
    | nil =>
      simp only [entryChars, List.length_append, List.length_cons, List.length_nil]
      omega
    | cons next rest =>
      rw [entryChars_cons]
      simp only [List.length_append, List.length_cons] at ih ⊢
      omega

theorem readValue_array {items : List Value} {depth : Nat} {rest : List Char}
    (hitems : ∀ count, items.length < count →
      readItems (readValue depth) count (itemChars items ++ rest) =
        if itemsDepth items ≤ depth then some (items, rest) else none) :
    readValue (depth + 1) ((Value.array items).chars ++ rest) =
      if itemsDepth items ≤ depth then some (.array items, rest) else none := by
  have hcount : items.length < (itemChars items ++ rest).length + 1 := by
    have hle := length_le_itemChars items
    rw [List.length_append]
    omega
  show readValue (depth + 1) ('[' :: (itemChars items ++ rest)) = _
  rw [readValue, hitems _ hcount]
  split <;> rfl

theorem readValue_table {entries : Table} (hsorted : Sorted.IsSorted entries) {depth : Nat}
    {rest : List Char}
    (hpairs : ∀ count, entries.length < count →
      readPairs (readValue depth) count (entryChars entries ++ rest) =
        if entriesDepth entries ≤ depth then some (pairsOf entries, rest) else none) :
    readValue (depth + 1) ((Value.table entries).chars ++ rest) =
      if entriesDepth entries ≤ depth then some (.table entries, rest) else none := by
  have hcount : entries.length < (entryChars entries ++ rest).length + 1 := by
    have hle := length_le_entryChars entries
    rw [List.length_append]
    omega
  have hbraces : ∃ text, (Value.table entries).chars ++ rest = '\x7b' :: text ∧
      readPairs (readValue depth) (text.length + 1) text =
        if entriesDepth entries ≤ depth then some (pairsOf entries, rest) else none := by
    cases entries with
    | nil => exact ⟨_, rfl, hpairs _ hcount⟩
    | cons entry more =>
      refine ⟨' ' :: (entryChars (entry :: more) ++ rest), rfl, ?_⟩
      rw [readPairs_blank]
      exact hpairs _ (Nat.lt_succ_of_lt hcount)
  obtain ⟨text, htext, hread⟩ := hbraces
  rw [htext, readValue, hread]
  split
  · simp [tableOfPairs?_pairsOf hsorted]
  · rfl

mutual

/-- **A value is read back** from its line, unless it is nested too deeply. -/
theorem readValue_chars (value : Value) (hplain : value.isPlain = true)
    (hordered : value.IsOrdered) (depth : Nat) {rest : List Char} (hrest : Stops rest) :
    readValue depth (value.chars ++ rest) =
      if value.depth ≤ depth then some (value, rest) else none := by
  match value, depth with
  | .string text, depth =>
    exact (readValue_string depth text hrest).trans (if_pos (Nat.zero_le depth)).symm
  | .integer n, depth =>
    exact (readValue_integer depth n hrest).trans (if_pos (Nat.zero_le depth)).symm
  | .float x, _ => cases hplain
  | .boolean b, depth =>
    exact (readValue_boolean depth b hrest).trans (if_pos (Nat.zero_le depth)).symm
  | .datetime d, _ => cases hplain
  | .array items, 0 => rfl
  | .array items, depth + 1 =>
    rw [readValue_array fun count hcount =>
      readItems_itemChars items hplain hordered depth hcount rest]
    simp only [Value.depth, Nat.add_le_add_iff_right]
  | .table [], 0 => rfl
  | .table (_ :: _), 0 => rfl
  | .table entries, depth + 1 =>
    rw [readValue_table (tableOrdered_iff.1 hordered).1 fun count hcount =>
      readPairs_entryChars entries hplain hordered depth hcount rest]
    simp only [Value.depth, Nat.add_le_add_iff_right]

theorem readItems_itemChars (items : List Value) (hplain : itemsPlain items = true)
    (hordered : ItemsOrdered items) (depth : Nat) {count : Nat} (hcount : items.length < count)
    (rest : List Char) :
    readItems (readValue depth) count (itemChars items ++ rest) =
      if itemsDepth items ≤ depth then some (items, rest) else none := by
  obtain ⟨count, rfl⟩ : ∃ n, count = n + 1 := ⟨count - 1, by omega⟩
  match items with
  | [] => exact (if_pos (Nat.zero_le depth)).symm
  | [item] =>
    rw [itemsPlain, Bool.and_eq_true] at hplain
    obtain ⟨c, cs, hchars, hc⟩ := exists_chars hplain.1
    have hread := readValue_chars item hplain.1 hordered.1 depth (.bracket rest)
    have hdepth : itemsDepth [item] = item.depth := Nat.max_zero _
    rw [itemChars, List.append_assoc, List.singleton_append, hdepth]
    rw [hchars, List.cons_append] at hread ⊢
    split at hread
    · next h =>
      rw [if_pos h]
      exact readItems_last hc hread count
    · next h =>
      rw [if_neg h]
      exact readItems_none hc hread count
  | item :: next :: items =>
    rw [itemsPlain, Bool.and_eq_true] at hplain
    obtain ⟨c, cs, hchars, hc⟩ := exists_chars hplain.1
    have hread := readValue_chars item hplain.1 hordered.1 depth
      (.comma (' ' :: (itemChars (next :: items) ++ rest)))
    have hmore := readItems_itemChars (next :: items) hplain.2 hordered.2 depth
      (Nat.lt_of_succ_lt_succ hcount) rest
    have hdepth : itemsDepth (item :: next :: items) =
      max item.depth (itemsDepth (next :: items)) := rfl
    rw [itemChars_cons, List.append_assoc, List.cons_append, List.cons_append, hdepth]
    rw [hchars, List.cons_append] at hread ⊢
    split at hread
    · rw [readItems_more hc hread, readItems_blank, hmore]
      split
      · rw [if_pos (by omega)]
        rfl
      · rw [if_neg (by omega)]
        rfl
    · rw [readItems_none hc hread, if_neg (by omega)]

theorem readPairs_entryChars (entries : List (String × Value))
    (hplain : entriesPlain entries = true) (hordered : TableOrdered entries) (depth : Nat)
    {count : Nat} (hcount : entries.length < count) (rest : List Char) :
    readPairs (readValue depth) count (entryChars entries ++ rest) =
      if entriesDepth entries ≤ depth then some (pairsOf entries, rest) else none := by
  obtain ⟨count, rfl⟩ : ∃ n, count = n + 1 := ⟨count - 1, by omega⟩
  match entries with
  | [] => exact (if_pos (Nat.zero_le depth)).symm
  | [(key, value)] =>
    rw [entriesPlain, Bool.and_eq_true] at hplain
    obtain ⟨c, cs, hchars, hc⟩ := exists_keyChars key
    have hread := readPair_entry (readValue depth) key hplain.1 (' ' :: '\x7d' :: rest)
    have hdepth : entriesDepth [(key, value)] = value.depth := Nat.max_zero _
    rw [readValue_chars value hplain.1 hordered.2.1 depth (.brace rest)] at hread
    rw [entryChars, List.append_assoc, List.append_assoc, hdepth]
    rw [List.append_assoc, hchars, List.cons_append] at hread ⊢
    split at hread
    · next h =>
      rw [if_pos h]
      exact readPairs_last (begins_of_isBare hc) hread count
    · next h =>
      rw [if_neg h]
      exact readPairs_none (begins_of_isBare hc) hread count
  | (key, value) :: next :: entries =>
    rw [entriesPlain, Bool.and_eq_true] at hplain
    obtain ⟨c, cs, hchars, hc⟩ := exists_keyChars key
    have hread := readPair_entry (readValue depth) key hplain.1
      (',' :: ' ' :: (entryChars (next :: entries) ++ rest))
    have hmore := readPairs_entryChars (next :: entries) hplain.2 hordered.2.2 depth
      (Nat.lt_of_succ_lt_succ hcount) rest
    have hdepth : entriesDepth ((key, value) :: next :: entries) =
      max value.depth (entriesDepth (next :: entries)) := rfl
    rw [readValue_chars value hplain.1 hordered.2.1 depth (.comma _)] at hread
    rw [entryChars_cons, List.append_assoc, List.append_assoc, List.cons_append, List.cons_append,
      hdepth]
    rw [List.append_assoc, hchars, List.cons_append] at hread ⊢
    split at hread
    · rw [readPairs_more (begins_of_isBare hc) hread, readPairs_blank, hmore]
      split
      · rw [if_pos (by omega)]
        rfl
      · rw [if_neg (by omega)]
        rfl
    · rw [readPairs_none (begins_of_isBare hc) hread, if_neg (by omega)]

end

end JavaAtlas.Toml
