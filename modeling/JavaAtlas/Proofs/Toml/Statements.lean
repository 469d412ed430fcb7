import JavaAtlas.Proofs.Toml.Values

set_option autoImplicit false

/-! # The lines of a document

Every line that the writer puts down is a statement, and is read back as one
(`readStatement_chars`). Blocks are runs of such lines with an empty line between two blocks, so a
document is read as the statements of its blocks (`statementsOf?_documentText`). -/

namespace JavaAtlas.Toml

/-! ## Statements -/

theorem exists_pathChars (path : KeyPath) :
    ∃ c cs, pathChars path.keys = c :: cs ∧ (isBare c = true ∨ c = '"' ∨ c = '\'') := by
  obtain ⟨front, last⟩ := path
  cases front with
  | nil => exact exists_keyChars last
  | cons key front =>
    obtain ⟨c, cs, hchars, hc⟩ := exists_keyChars key
    have hpath : pathChars (KeyPath.mk (key :: front) last).keys =
        keyChars key ++ '.' :: pathChars (KeyPath.mk front last).keys :=
      pathChars_cons key ⟨front, last⟩
    exact ⟨c, _, by rw [hpath, hchars]; rfl, hc⟩

namespace Statement

/-- The line of a statement. -/
def chars : Statement → List Char
  | pair path value => pathChars path.keys ++ " = ".toList ++ value.chars
  | table path => '[' :: pathChars path.keys ++ [']']
  | element path => '[' :: '[' :: pathChars path.keys ++ [']', ']']

/-- Whether the writer puts down such a statement: its keys have no dots, and its value is made of
strings, integers and booleans. -/
def IsWritten : Statement → Prop
  | pair path value => path.front = [] ∧ value.isPlain = true ∧ value.IsOrdered
  | table _ | element _ => True

/-- Whether a heading has no more keys, and a value no more depth, than the reader takes. -/
def IsWithinLimits : Statement → Prop
  | pair _ value => value.depth ≤ depthLimit
  | table path | element path => path.front.length < pathLimit

instance (s : Statement) : Decidable s.IsWithinLimits := by
  cases s <;> unfold IsWithinLimits <;> infer_instance

theorem exists_chars (s : Statement) : ∃ c cs, s.chars = c :: cs ∧ Begins c := by
  cases s with
  | pair path value =>
    obtain ⟨c, cs, hchars, hc⟩ := exists_pathChars path
    exact ⟨c, _, by rw [chars, hchars]; rfl, begins_of_isBare hc⟩
  | table path => exact ⟨'[', _, rfl, by decide⟩
  | element path => exact ⟨'[', _, rfl, by decide⟩

end Statement

theorem readPath_heading (path : KeyPath) (rest : List Char) :
    readPath (pathChars path.keys ++ ']' :: rest) =
      if path.front.length < pathLimit then some (path, ']' :: rest) else none := by
  have hskip : skipBlanks (']' :: rest) = ']' :: rest := by simp [skipBlanks]
  have hread := @readKeys_pathChars path pathLimit (']' :: rest) (by simp; decide)
    (by simp [hskip])
  rwa [hskip] at hread

theorem readStatement_pair {path : KeyPath} {value : Value}
    (hwritten : (Statement.pair path value).IsWritten) (rest : List Char) :
    readStatement ((Statement.pair path value).chars ++ '\n' :: rest) =
      if value.depth ≤ depthLimit then some (.pair path value, '\n' :: rest) else none := by
  obtain ⟨front, last⟩ := path
  obtain ⟨rfl, hplain, hordered⟩ := hwritten
  obtain ⟨c, cs, hchars, hc⟩ := exists_keyChars last
  have hbracket : c ≠ '[' := by
    rintro rfl
    revert hc
    decide
  have hread := readPair_entry (readValue depthLimit) last hplain ('\n' :: rest)
  rw [readValue_chars value hplain hordered depthLimit (.line rest)] at hread
  show readStatement (keyChars last ++ " = ".toList ++ value.chars ++ '\n' :: rest) = _
  rw [List.append_assoc]
  rw [List.append_assoc, hchars, List.cons_append] at hread ⊢
  rw [readStatement, hread]
  · split <;> rfl
  all_goals grind

theorem readStatement_table (path : KeyPath) (rest : List Char) :
    readStatement ((Statement.table path).chars ++ '\n' :: rest) =
      if path.front.length < pathLimit then some (.table path, '\n' :: rest) else none := by
  obtain ⟨c, cs, hchars, hc⟩ := exists_pathChars path
  have hbracket : c ≠ '[' := by
    rintro rfl
    revert hc
    decide
  have hread := readPath_heading path ('\n' :: rest)
  show readStatement ('[' :: (pathChars path.keys ++ [']'] ++ '\n' :: rest)) = _
  rw [List.append_assoc, List.singleton_append]
  rw [hchars, List.cons_append] at hread ⊢
  rw [readStatement, hread]
  · split <;> rfl
  · grind

theorem readStatement_element (path : KeyPath) (rest : List Char) :
    readStatement ((Statement.element path).chars ++ '\n' :: rest) =
      if path.front.length < pathLimit then some (.element path, '\n' :: rest) else none := by
  have hread := readPath_heading path (']' :: '\n' :: rest)
  show readStatement ('[' :: '[' :: (pathChars path.keys ++ [']', ']'] ++ '\n' :: rest)) = _
  rw [List.append_assoc]
  show readStatement ('[' :: '[' :: (pathChars path.keys ++ ']' :: ']' :: '\n' :: rest)) = _
  rw [readStatement, hread]
  split <;> rfl

/-- A line is read back as the statement that it was written for. -/
theorem readStatement_chars {s : Statement} (hwritten : s.IsWritten) (rest : List Char) :
    readStatement (s.chars ++ '\n' :: rest) =
      if s.IsWithinLimits then some (s, '\n' :: rest) else none := by
  cases s with
  | pair path value => simpa only [Statement.IsWithinLimits] using readStatement_pair hwritten rest
  | table path => simpa only [Statement.IsWithinLimits] using readStatement_table path rest
  | element path => simpa only [Statement.IsWithinLimits] using readStatement_element path rest

/-! ## Lines -/

/-- Whether a text has statements on its lines, with at most one empty line after each. -/
inductive Spells : List Statement → List Char → Prop where
  | nil : Spells [] []
  | line {s : Statement} {statements : List Statement} {text : List Char} :
    Spells statements text → Spells (s :: statements) (s.chars ++ '\n' :: text)
  | gap {s : Statement} {statements : List Statement} {text : List Char} :
    Spells statements text → Spells (s :: statements) (s.chars ++ '\n' :: '\n' :: text)

namespace Spells

variable {statements : List Statement} {text : List Char}

theorem begins (h : Spells statements text) :
    text = [] ∨ ∃ c cs, text = c :: cs ∧ Begins c := by
  cases h with
  | nil => exact .inl rfl
  | @line s =>
    obtain ⟨c, cs, hchars, hc⟩ := s.exists_chars
    exact .inr ⟨c, _, by rw [hchars]; rfl, hc⟩
  | @gap s =>
    obtain ⟨c, cs, hchars, hc⟩ := s.exists_chars
    exact .inr ⟨c, _, by rw [hchars]; rfl, hc⟩

theorem skipLines_eq (h : Spells statements text) : skipLines false text = some text := by
  rcases h.begins with rfl | ⟨c, cs, rfl, hc⟩
  · rfl
  · exact skipLines_cons hc cs

theorem length_le (h : Spells statements text) : statements.length ≤ text.length := by
  induction h with
  | nil => exact Nat.le_refl 0
  | line _ ih =>
    simp only [List.length_append, List.length_cons]
    omega
  | gap _ ih =>
    simp only [List.length_append, List.length_cons]
    omega

end Spells

/-- After a line the reader goes on with what lies behind the end of the line. -/
theorem readStatements_line {s : Statement} (hs : s.IsWritten) {statements : List Statement}
    {rest text : List Char} {count : Nat} (hrest : endLine ('\n' :: rest) = some text)
    (hmore : readStatements count text =
      if ∀ s ∈ statements, s.IsWithinLimits then some statements else none) :
    readStatements (count + 1) (s.chars ++ '\n' :: rest) =
      if ∀ t ∈ s :: statements, t.IsWithinLimits then some (s :: statements) else none := by
  obtain ⟨c, cs, hchars, -⟩ := s.exists_chars
  have hread := readStatement_chars hs rest
  rw [hchars, List.cons_append] at hread ⊢
  rw [readStatements, hread]
  · by_cases hlimit : s.IsWithinLimits
    · simp only [hlimit, hrest, hmore, if_true, List.forall_mem_cons, true_and,
        Option.bind_eq_bind, Option.bind_some]
      split <;> rfl
    · simp [hlimit]
  · exact List.cons_ne_nil _ _

/-- Lines are read back as their statements, unless one of them exceeds the limits. -/
theorem readStatements_eq {statements : List Statement} {text : List Char}
    (h : Spells statements text) (hwritten : ∀ s ∈ statements, s.IsWritten) {count : Nat}
    (hcount : statements.length ≤ count) :
    readStatements count text =
      if ∀ s ∈ statements, s.IsWithinLimits then some statements else none := by
  induction h generalizing count with
  | nil => simp [readStatements]
  | line h ih =>
    rw [List.forall_mem_cons] at hwritten
    obtain ⟨count, rfl⟩ : ∃ n, count = n + 1 := Nat.exists_eq_add_one.2 (Nat.zero_lt_of_lt hcount)
    exact readStatements_line hwritten.1 h.skipLines_eq
      (ih hwritten.2 (Nat.le_of_succ_le_succ hcount))
  | gap h ih =>
    rw [List.forall_mem_cons] at hwritten
    obtain ⟨count, rfl⟩ : ∃ n, count = n + 1 := Nat.exists_eq_add_one.2 (Nat.zero_lt_of_lt hcount)
    exact readStatements_line hwritten.1 h.skipLines_eq
      (ih hwritten.2 (Nat.le_of_succ_le_succ hcount))

/-! ## Blocks -/

/-- The path with these keys, of which there is at least one. -/
def KeyPath.ofKeys (keys : List String) : KeyPath := ⟨keys.dropLast, keys.getLastD ""⟩

theorem KeyPath.keys_ofKeys {keys : List String} (h : keys ≠ []) : (ofKeys keys).keys = keys := by
  obtain ⟨front, last, rfl⟩ := (List.eq_nil_or_concat' keys).resolve_left h
  simp [ofKeys, KeyPath.keys]

/-- The keys of a heading. -/
def Heading.path : Heading → List String
  | start => []
  | table path | element path => path

/-- The statement that a heading is. -/
def Heading.statements : Heading → List Statement
  | start => []
  | table path => [.table (.ofKeys path)]
  | element path => [.element (.ofKeys path)]

/-- The statements of a block. -/
def Block.statements (block : Block) : List Statement :=
  block.heading.statements ++ block.pairs.map fun (key, value) => .pair ⟨[], key⟩ value

/-- Whether a heading has no more keys, and the values below it no more depth, than the reader
takes. -/
def Block.IsWithinLimits (block : Block) : Prop :=
  block.heading.path.length ≤ pathLimit ∧ ∀ pair ∈ block.pairs, pair.2.depth ≤ depthLimit

/-- Whether a block is one that the writer puts down. -/
structure Block.IsWritten (block : Block) : Prop where
  path : block.heading = .start ∨ block.heading.path ≠ []
  pairs : block.heading = .start → block.pairs ≠ []
  plain : ∀ pair ∈ block.pairs, pair.2.isPlain = true
  ordered : ∀ pair ∈ block.pairs, pair.2.IsOrdered

namespace Block.IsWritten

variable {block : Block}

theorem chars_eq (h : block.IsWritten) :
    block.chars = block.statements.flatMap fun s => s.chars ++ ['\n'] := by
  obtain ⟨heading, pairs⟩ := block
  have hheading : heading.chars = heading.statements.flatMap fun s => s.chars ++ ['\n'] := by
    cases heading with
    | start => rfl
    | table path =>
      have hkeys := KeyPath.keys_ofKeys (h.path.resolve_left (by simp))
      simp [Heading.chars, Heading.statements, Statement.chars, Heading.path] at hkeys ⊢
      rw [hkeys]
    | element path =>
      have hkeys := KeyPath.keys_ofKeys (h.path.resolve_left (by simp))
      simp [Heading.chars, Heading.statements, Statement.chars, Heading.path] at hkeys ⊢
      rw [hkeys]
  rw [Block.chars, Block.statements, List.flatMap_append, hheading, List.flatMap_map]
  rfl

theorem statements_ne_nil (h : block.IsWritten) : block.statements ≠ [] := by
  obtain ⟨heading, pairs⟩ := block
  cases heading with
  | start => simpa [statements, Heading.statements] using h.pairs rfl
  | table path => simp [statements, Heading.statements]
  | element path => simp [statements, Heading.statements]

theorem statements_isWritten (h : block.IsWritten) : ∀ s ∈ block.statements, s.IsWritten := by
  obtain ⟨heading, pairs⟩ := block
  intro s hs
  rcases List.mem_append.1 hs with hs | hs
  · cases heading with
    | start => exact absurd hs List.not_mem_nil
    | table path =>
      obtain rfl := List.mem_singleton.1 hs
      trivial
    | element path =>
      obtain rfl := List.mem_singleton.1 hs
      trivial
  · obtain ⟨pair, hpair, rfl⟩ := List.mem_map.1 hs
    exact ⟨rfl, h.plain pair hpair, h.ordered pair hpair⟩

theorem forall_isWithinLimits_iff (h : block.IsWritten) :
    (∀ s ∈ block.statements, s.IsWithinLimits) ↔ block.IsWithinLimits := by
  obtain ⟨heading, pairs⟩ := block
  have hheading : (∀ s ∈ heading.statements, s.IsWithinLimits) ↔
      heading.path.length ≤ pathLimit := by
    have hlength : ∀ path : List String, path ≠ [] →
        ((KeyPath.ofKeys path).front.length < pathLimit ↔ path.length ≤ pathLimit) := by
      intro path hpath
      have hpos := List.length_pos_iff.2 hpath
      simp only [KeyPath.ofKeys, List.length_dropLast]
      omega
    cases heading with
    | start => simp [Heading.statements, Heading.path]
    | table path =>
      have hpath := hlength path (h.path.resolve_left (by simp))
      simpa [Heading.statements, Heading.path, Statement.IsWithinLimits] using hpath
    | element path =>
      have hpath := hlength path (h.path.resolve_left (by simp))
      simpa [Heading.statements, Heading.path, Statement.IsWithinLimits] using hpath
  have hpairs : (∀ s ∈ pairs.map fun (key, value) => Statement.pair ⟨[], key⟩ value,
      s.IsWithinLimits) ↔ ∀ pair ∈ pairs, pair.2.depth ≤ depthLimit := List.forall_mem_map
  rw [statements, List.forall_mem_append, hheading, hpairs, IsWithinLimits]

end Block.IsWritten

/-! ## Documents -/

theorem spells_lines (statements : List Statement) :
    Spells statements (statements.flatMap fun s => s.chars ++ ['\n']) := by
  induction statements with
  | nil => exact .nil
  | cons s rest ih =>
    rw [List.flatMap_cons, List.append_assoc]
    exact ih.line

theorem spells_lines_gap {statements others : List Statement} (hne : statements ≠ [])
    {text : List Char} (h : Spells others text) :
    Spells (statements ++ others)
      ((statements.flatMap fun s => s.chars ++ ['\n']) ++ '\n' :: text) := by
  induction statements with
  | nil => exact absurd rfl hne
  | cons s rest ih =>
    rw [List.flatMap_cons, List.append_assoc, List.append_assoc]
    cases rest with
    | nil => exact h.gap
    | cons next rest => exact (ih (List.cons_ne_nil _ _)).line

theorem spells_blockChars {blocks : List Block} (h : ∀ block ∈ blocks, block.IsWritten) :
    Spells (blocks.flatMap Block.statements) (blockChars blocks) := by
  induction blocks with
  | nil => exact .nil
  | cons block rest ih =>
    rw [List.forall_mem_cons] at h
    cases rest with
    | nil =>
      rw [blockChars, h.1.chars_eq, List.flatMap_singleton]
      exact spells_lines block.statements
    | cons next rest =>
      rw [List.flatMap_cons, blockChars, h.1.chars_eq]
      · exact spells_lines_gap h.1.statements_ne_nil (ih h.2)
      · exact List.cons_ne_nil _ _

/-- A heading is left out only where no values stand below it: at the start of the document, or in
front of the blocks of other tables. -/
theorem withHeading_cases (heading : Heading) (entries : List (String × Value))
    (children : List Block) :
    (withHeading heading entries children =
        ⟨heading, entries.filter fun entry => !entry.2.isBlock⟩ :: children ∧
      (heading = .start → (entries.filter fun entry => !entry.2.isBlock) ≠ [])) ∨
    (withHeading heading entries children = children ∧
      (entries.filter fun entry => !entry.2.isBlock) = [] ∧
      (heading = .start ∨ ∃ path, heading = .table path ∧
        ∃ entry ∈ entries, entry.2.isBlock = true)) := by
  unfold withHeading
  by_cases hpairs : (entries.filter fun entry => !entry.2.isBlock) = []
  · cases heading with
    | start => exact .inr ⟨by simp [hpairs], hpairs, .inl rfl⟩
    | table path =>
      by_cases hall : (entries.all fun entry => !entry.2.isBlock) = true
      · exact .inl ⟨by simp [hall], by simp⟩
      · refine .inr ⟨by simp [hpairs, hall], hpairs, .inr ⟨path, rfl, ?_⟩⟩
        simpa using hall
    | element path => exact .inl ⟨rfl, by simp⟩
  · refine .inl ⟨?_, fun _ => hpairs⟩
    cases heading <;> simp [hpairs]

theorem isWritten_of_mem_withHeading {heading : Heading} {entries : List (String × Value)}
    {children : List Block} (hpath : heading = .start ∨ heading.path ≠ [])
    (hplain : entriesPlain entries = true) (hordered : TableOrdered entries)
    (hchildren : ∀ block ∈ children, block.IsWritten) :
    ∀ block ∈ withHeading heading entries children, block.IsWritten := by
  rcases withHeading_cases heading entries children with ⟨heq, hpairs⟩ | ⟨heq, -, -⟩
  · rw [heq, List.forall_mem_cons]
    have hplain := entriesPlain_iff.1 hplain
    have hordered := (tableOrdered_iff.1 hordered).2
    refine ⟨?_, hchildren⟩
    exact {
      path := hpath
      pairs := hpairs
      plain := fun pair hpair => hplain pair (List.mem_filter.1 hpair).1
      ordered := fun pair hpair => hordered pair (List.mem_filter.1 hpair).1 }
  · rw [heq]
    exact hchildren

mutual

theorem isWritten_blocksAt {path : List String} (hpath : path ≠ []) (value : Value)
    (hplain : value.isPlain = true) (hordered : value.IsOrdered) :
    ∀ block ∈ blocksAt path value, block.IsWritten := by
  match value with
  | .table entries =>
    exact @isWritten_of_mem_withHeading (.table path) _ _ (.inr hpath) hplain hordered
      (isWritten_entryBlocks path entries hplain hordered)
  | .array items => exact isWritten_elementBlocks hpath items hplain hordered
  | .string _ | .integer _ | .float _ | .boolean _ | .datetime _ =>
    exact fun _ hmem => absurd hmem List.not_mem_nil

theorem isWritten_elementBlocks {path : List String} (hpath : path ≠ []) (items : List Value)
    (hplain : itemsPlain items = true) (hordered : ItemsOrdered items) :
    ∀ block ∈ elementBlocks path items, block.IsWritten := by
  match items with
  | [] => exact fun _ hmem => absurd hmem List.not_mem_nil
  | .table entries :: rest =>
    rw [itemsPlain, Bool.and_eq_true] at hplain
    rw [elementBlocks, List.forall_mem_append]
    exact ⟨isWritten_of_mem_withHeading (.inr hpath) hplain.1 hordered.1
      (isWritten_entryBlocks path entries hplain.1 hordered.1),
      isWritten_elementBlocks hpath rest hplain.2 hordered.2⟩
  | .string _ :: rest | .integer _ :: rest | .float _ :: rest | .boolean _ :: rest
  | .datetime _ :: rest | .array _ :: rest =>
    rw [itemsPlain, Bool.and_eq_true] at hplain
    exact isWritten_elementBlocks hpath rest hplain.2 hordered.2

theorem isWritten_entryBlocks (path : List String) (entries : List (String × Value))
    (hplain : entriesPlain entries = true) (hordered : TableOrdered entries) :
    ∀ block ∈ entryBlocks path entries, block.IsWritten := by
  match entries with
  | [] => exact fun _ hmem => absurd hmem List.not_mem_nil
  | (key, value) :: rest =>
    rw [entriesPlain, Bool.and_eq_true] at hplain
    rw [entryBlocks, List.forall_mem_append]
    refine ⟨?_, isWritten_entryBlocks path rest hplain.2 hordered.2.2⟩
    split
    · exact isWritten_blocksAt (by simp) value hplain.1 hordered.2.1
    · exact fun _ hmem => absurd hmem List.not_mem_nil

end

theorem isWritten_blocks {table : Table} (hplain : entriesPlain table = true)
    (hordered : TableOrdered table) : ∀ block ∈ blocks table, block.IsWritten :=
  isWritten_of_mem_withHeading (.inl rfl) hplain hordered
    (isWritten_entryBlocks [] table hplain hordered)

/-- Whether the text of a table has no longer headings and no deeper values than the reader
takes. -/
def IsWithinLimits (table : Table) : Prop := ∀ block ∈ blocks table, block.IsWithinLimits

instance (block : Block) : Decidable block.IsWithinLimits := inferInstanceAs (Decidable (_ ∧ _))

instance (table : Table) : Decidable (IsWithinLimits table) :=
  inferInstanceAs (Decidable (∀ block ∈ blocks table, block.IsWithinLimits))

/-- There is no byte order mark to drop from a text that begins with a statement. -/
theorem statementsOf?_ofList {cs : List Char} (h : cs = [] ∨ ∃ c rest, cs = c :: rest ∧ Begins c) :
    statementsOf? (String.ofList cs) =
      (skipLines false cs).bind fun cs => readStatements cs.length cs := by
  unfold statementsOf?
  rw [String.toList_ofList]
  rcases h with rfl | ⟨c, rest, rfl, hc⟩
  · rfl
  · have hmark : c ≠ byteOrderMark := hc.ne (by decide)
    simp only [hmark, if_false, Option.bind_eq_bind]

/-- **A document is read back** as the statements of its blocks, unless it exceeds the limits. -/
theorem statementsOf?_documentText {table : Table} (hplain : entriesPlain table = true)
    (hordered : TableOrdered table) :
    statementsOf? (documentText table) =
      if IsWithinLimits table then some ((blocks table).flatMap Block.statements) else none := by
  have hwritten := isWritten_blocks hplain hordered
  have hspells := spells_blockChars hwritten
  have hread := readStatements_eq hspells
    (List.forall_mem_flatMap.2 fun block hblock => (hwritten block hblock).statements_isWritten)
    hspells.length_le
  have hlimits : (∀ s ∈ (blocks table).flatMap Block.statements, s.IsWithinLimits) ↔
      IsWithinLimits table := by
    rw [List.forall_mem_flatMap]
    exact forall₂_congr fun block hblock => (hwritten block hblock).forall_isWithinLimits_iff
  unfold documentText
  rw [statementsOf?_ofList hspells.begins, hspells.skipLines_eq, Option.bind_some, hread]
  simp only [hlimits]

end JavaAtlas.Toml
