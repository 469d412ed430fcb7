import JavaAtlas.Proofs.Toml.Statements

set_option autoImplicit false

/-! # The blocks of a table make up the table

What a heading says is done at the end of its path (`within`), so the blocks below a table are
carried out as if that table were the whole document (`Block.build_under`). The blocks of a value
under a new key then put the value there, by induction on the value (`build_blocksAt`), and the
blocks of a document make up its table (`tableOfStatements?_blocks`). -/

namespace JavaAtlas.Toml

variable {f g : Drafts → Option Drafts} {β : Type} {key : String}

/-! ## Changing a table at the end of a path -/

/-- The table that a heading finds under a key, or makes there, and what becomes of the entry when
that table has changed. -/
def growing? : Option Draft → Option (Drafts × (Drafts → Draft))
  | none => some ([], .table .passage)
  | some (.value _) => none
  | some (.table origin child) => some (child, .table origin)
  | some (.tables earlier latest) => some (latest, .tables earlier)

/-- Whether an entry of this form may grow. -/
def Grows (put : Drafts → Draft) : Prop := ∀ child, growing? (some (put child)) = some (child, put)

theorem grows_table (origin : Origin) : Grows (.table origin) := fun _ => rfl

theorem grows_tables (earlier : List Table) : Grows (.tables earlier) := fun _ => rfl

theorem grows_of_growing? {draft : Option Draft} {child : Drafts} {put : Drafts → Draft}
    (h : growing? draft = some (child, put)) : Grows put := by
  unfold growing? at h
  split at h
  · cases h
    exact grows_table .passage
  · cases h
  · cases h
    exact grows_table _
  · cases h
    exact grows_tables _

/-- Changes the table at the end of a path of headings. -/
def within (path : List String) (f : Drafts → Option Drafts) (entries : Drafts) : Option Drafts :=
  descend false (fun _ => f) false path entries

theorem descend_eq_within (byDots : Bool) (path : List String) (entries : Drafts) :
    descend false (fun _ => f) byDots path entries = within path f entries := by
  cases path with
  | nil => rfl
  | cons key path => rw [within, descend, descend]

theorem within_nil (entries : Drafts) : within [] f entries = f entries := rfl

theorem within_cons (path : List String) (entries : Drafts) :
    within (key :: path) f entries =
      (growing? (Assoc.find? key entries)).bind fun (child, put) =>
        (within path f child).map fun child => Sorted.insert key (put child) entries := by
  rw [within, descend]
  cases Assoc.find? key entries with
  | none =>
    simp only [growing?, descend_eq_within, Option.bind_some]
    cases within path f [] <;> rfl
  | some draft =>
    cases draft with
    | value v => rfl
    | table origin child =>
      simp only [growing?, descend_eq_within, Option.bind_some]
      cases within path f child with
      | none => exact if_neg (by simp)
      | some child => exact if_neg (by simp)
    | tables earlier latest =>
      simp only [growing?, descend_eq_within, Option.bind_some]
      cases within path f latest <;> rfl

theorem within_append (path more : List String) (entries : Drafts) :
    within (path ++ more) f entries = within path (within more f) entries := by
  induction path generalizing entries with
  | nil => rfl
  | cons key path ih => simp only [List.cons_append, within_cons, ih]

theorem within_put {put : Drafts → Draft} (hput : Grows put) (path : List String)
    (child entries : Drafts) :
    within (key :: path) f (Sorted.insert key (put child) entries) =
      (within path f child).map fun child => Sorted.insert key (put child) entries := by
  rw [within_cons, Sorted.find?_insert, if_pos rfl, hput child, Option.bind_some]
  simp only [Sorted.insert_insert]

/-- Two changes at the end of one path are one change there. -/
theorem within_bind (path : List String) (entries : Drafts) :
    (within path f entries).bind (within path g) =
      within path (fun entries => (f entries).bind g) entries := by
  induction path generalizing entries with
  | nil => rfl
  | cons key path ih =>
    rw [within_cons, within_cons]
    cases h : growing? (Assoc.find? key entries) with
    | none => rfl
    | some found =>
      obtain ⟨child, put⟩ := found
      simp only [Option.bind_some, ← ih]
      cases within path f child with
      | none => rfl
      | some child => exact within_put (grows_of_growing? h) path child entries

/-- Changes that follow one at the end of the same path are one change with it. -/
theorem within_foldlM (path : List String) (step : β → Drafts → Option Drafts) (xs : List β)
    (entries : Drafts) :
    (within path f entries).bind
        (xs.foldlM (fun entries x => within path (step x) entries)) =
      within path (fun entries => (f entries).bind
        (xs.foldlM fun entries x => step x entries)) entries := by
  induction xs generalizing f with
  | nil => simp
  | cons x xs ih =>
    simp only [List.foldlM_cons, Option.bind_eq_bind, ← Option.bind_assoc, within_bind]
    exact ih

/-- Changes to the table under a key that may grow. -/
theorem foldlM_within_put {put : Drafts → Draft} (hput : Grows put)
    (step : β → Drafts → Option Drafts) (xs : List β) (child entries : Drafts) :
    xs.foldlM (fun entries x => within [key] (step x) entries)
        (Sorted.insert key (put child) entries) =
      (xs.foldlM (fun child x => step x child) child).map fun child =>
        Sorted.insert key (put child) entries := by
  induction xs generalizing child with
  | nil => rfl
  | cons x xs ih =>
    rw [List.foldlM_cons, List.foldlM_cons, within_put hput, within_nil]
    cases step x child with
    | none => rfl
    | some child => exact ih child

/-- Changes to the table under a new key, which the first of them makes. -/
theorem foldlM_within_fresh {entries : Drafts} (h : Assoc.find? key entries = none)
    (step : β → Drafts → Option Drafts) {xs : List β} (hne : xs ≠ []) :
    xs.foldlM (fun entries x => within [key] (step x) entries) entries =
      (xs.foldlM (fun child x => step x child) []).map fun child =>
        Sorted.insert key (.table .passage child) entries := by
  obtain ⟨x, xs, rfl⟩ := List.exists_cons_of_ne_nil hne
  have hfirst : within [key] (step x) entries =
      (step x []).map fun child => Sorted.insert key (.table .passage child) entries := by
    rw [within_cons, h]
    rfl
  rw [List.foldlM_cons, List.foldlM_cons, hfirst]
  cases step x [] with
  | none => rfl
  | some child => exact foldlM_within_put (grows_table .passage) step xs child entries

/-! ## Carrying blocks out -/

/-- Adds values under new keys. -/
def addAll (pairs : Table) (drafts : Drafts) : Option Drafts :=
  pairs.foldlM (fun drafts pair => addNew pair.1 pair.2 drafts) drafts

/-- Opens a table under a key, by `opening`, and adds values to it. -/
def openWith (opening : String → Drafts → Option Drafts) (key : String) (pairs : Table)
    (drafts : Drafts) : Option Drafts :=
  (opening key drafts).bind
    (pairs.foldlM fun drafts pair => within [key] (addNew pair.1 pair.2) drafts)

/-- The table under construction after a block. -/
def Block.build (block : Block) (drafts : Drafts) : Option Drafts :=
  match block.heading with
  | .start => addAll block.pairs drafts
  | .table path =>
    within (KeyPath.ofKeys path).front (openWith openTable (KeyPath.ofKeys path).last block.pairs)
      drafts
  | .element path =>
    within (KeyPath.ofKeys path).front (openWith openElement (KeyPath.ofKeys path).last block.pairs)
      drafts

/-- The table under construction after some blocks. -/
def build (blocks : List Block) (drafts : Drafts) : Option Drafts :=
  blocks.foldlM (fun drafts block => block.build drafts) drafts

theorem foldlM_carryOut_pairs (pairs : Table) (c : Construction) :
    (pairs.map fun (key, value) => Statement.pair ⟨[], key⟩ value).foldlM Construction.carryOut c =
      (pairs.foldlM (fun drafts pair => within c.current (addNew pair.1 pair.2) drafts)
        c.drafts).map fun drafts => ⟨drafts, c.current⟩ := by
  induction pairs generalizing c with
  | nil => rfl
  | cons pair pairs ih =>
    obtain ⟨key, value⟩ := pair
    have hpair : c.carryOut (.pair ⟨[], key⟩ value) =
        (within c.current (addNew key value) c.drafts).map fun drafts => ⟨drafts, c.current⟩ := by
      show (within c.current (addNew key value) c.drafts).bind _ = _
      cases within c.current (addNew key value) c.drafts <;> rfl
    rw [List.map_cons, List.foldlM_cons, List.foldlM_cons, hpair]
    cases within c.current (addNew key value) c.drafts with
    | none => rfl
    | some drafts => exact ih ⟨drafts, c.current⟩

/-- A heading whose table is opened by `opening` changes the table under construction, together with
the pairs below it. -/
theorem foldlM_carryOut_heading {opening : String → Drafts → Option Drafts} {s : Statement}
    {path : KeyPath} (pairs : Table) (c : Construction)
    (hs : c.carryOut s = (within path.front (opening path.last) c.drafts).map
      fun drafts => ⟨drafts, path.keys⟩) :
    ((s :: pairs.map fun (key, value) => .pair ⟨[], key⟩ value).foldlM
        Construction.carryOut c).map Construction.drafts =
      within path.front (openWith opening path.last pairs) c.drafts := by
  have hpairs := @within_foldlM (opening path.last) _ path.front
    (fun pair : String × Value => within [path.last] (addNew pair.1 pair.2)) pairs c.drafts
  simp only [← within_append] at hpairs
  rw [List.foldlM_cons, hs]
  show _ = within path.front (fun drafts => (opening path.last drafts).bind _) c.drafts
  rw [← hpairs]
  cases within path.front (opening path.last) c.drafts with
  | none => rfl
  | some drafts =>
    rw [Option.map_some, Option.bind_eq_bind, Option.bind_some, Option.bind_some,
      foldlM_carryOut_pairs, Option.map_map]
    exact Option.map_id'

/-- The statements of a block change the table under construction as the block does. -/
theorem foldlM_carryOut_block {block : Block} {c : Construction}
    (h : block.heading = .start → c.current = []) :
    (block.statements.foldlM Construction.carryOut c).map Construction.drafts =
      block.build c.drafts := by
  obtain ⟨heading, pairs⟩ := block
  cases heading with
  | start =>
    show ((pairs.map _).foldlM Construction.carryOut c).map Construction.drafts = _
    rw [foldlM_carryOut_pairs, Option.map_map, h rfl]
    exact Option.map_id'
  | table path =>
    refine @foldlM_carryOut_heading openTable (.table (.ofKeys path)) (.ofKeys path) pairs c ?_
    show (within (KeyPath.ofKeys path).front (openTable (KeyPath.ofKeys path).last) c.drafts).bind _
      = _
    cases within (KeyPath.ofKeys path).front (openTable (KeyPath.ofKeys path).last) c.drafts <;> rfl
  | element path =>
    refine @foldlM_carryOut_heading openElement (.element (.ofKeys path)) (.ofKeys path) pairs c ?_
    show (within (KeyPath.ofKeys path).front (openElement (KeyPath.ofKeys path).last)
      c.drafts).bind _ = _
    cases within (KeyPath.ofKeys path).front (openElement (KeyPath.ofKeys path).last) c.drafts <;>
      rfl

/-- The first block may be the start of the document. -/
theorem foldlM_carryOut_cons {block : Block} {blocks : List Block} {c : Construction}
    (h : block.heading = .start → c.current = [])
    (hblocks : ∀ c : Construction,
      ((blocks.flatMap Block.statements).foldlM Construction.carryOut c).map Construction.drafts =
        build blocks c.drafts) :
    (((block :: blocks).flatMap Block.statements).foldlM Construction.carryOut c).map
        Construction.drafts =
      build (block :: blocks) c.drafts := by
  have hfirst := foldlM_carryOut_block h
  rw [build, List.flatMap_cons, List.foldlM_append, List.foldlM_cons, ← hfirst]
  cases block.statements.foldlM Construction.carryOut c with
  | none => rfl
  | some c => exact hblocks c

theorem foldlM_carryOut_blocks {blocks : List Block}
    (h : ∀ block ∈ blocks, block.heading.path ≠ []) (c : Construction) :
    ((blocks.flatMap Block.statements).foldlM Construction.carryOut c).map Construction.drafts =
      build blocks c.drafts := by
  induction blocks generalizing c with
  | nil => rfl
  | cons block blocks ih =>
    rw [List.forall_mem_cons] at h
    refine foldlM_carryOut_cons (fun hstart => absurd ?_ h.1) (ih h.2)
    rw [hstart, Heading.path]

/-! ## Blocks below a table -/

/-- The heading as it is seen from above a path. -/
def Heading.under (path : List String) : Heading → Heading
  | start => table path
  | table more => table (path ++ more)
  | element more => element (path ++ more)

/-- The block as it is seen from above a path. -/
def Block.under (path : List String) (block : Block) : Block :=
  ⟨block.heading.under path, block.pairs⟩

theorem KeyPath.ofKeys_append (path : List String) {more : List String} (h : more ≠ []) :
    ofKeys (path ++ more) = ⟨path ++ (ofKeys more).front, (ofKeys more).last⟩ := by
  obtain ⟨front, last, rfl⟩ := (List.eq_nil_or_concat' more).resolve_left h
  simp [ofKeys, ← List.append_assoc]

/-- A block below a path changes the table at its end. -/
theorem Block.build_under (path : List String) {block : Block} (h : block.heading.path ≠ [])
    (drafts : Drafts) : (block.under path).build drafts = within path block.build drafts := by
  obtain ⟨heading, pairs⟩ := block
  cases heading with
  | start => exact absurd rfl h
  | table more =>
    show within (KeyPath.ofKeys (path ++ more)).front _ drafts = _
    rw [@KeyPath.ofKeys_append path more h, within_append]
    rfl
  | element more =>
    show within (KeyPath.ofKeys (path ++ more)).front _ drafts = _
    rw [@KeyPath.ofKeys_append path more h, within_append]
    rfl

theorem build_under (path : List String) {blocks : List Block}
    (h : ∀ block ∈ blocks, block.heading.path ≠ []) (drafts : Drafts) :
    build (blocks.map (Block.under path)) drafts =
      blocks.foldlM (fun drafts block => within path block.build drafts) drafts := by
  induction blocks generalizing drafts with
  | nil => rfl
  | cons block blocks ih =>
    rw [List.forall_mem_cons] at h
    rw [build, List.map_cons, List.foldlM_cons, List.foldlM_cons, block.build_under path h.1]
    cases within path block.build drafts with
    | none => rfl
    | some drafts => exact ih h.2 drafts

theorem withHeading_under {path : List String} {heading : Heading} (hstart : heading ≠ .start)
    (entries : Table) (children : List Block) :
    withHeading (heading.under path) entries (children.map (Block.under path)) =
      (withHeading heading entries children).map (Block.under path) := by
  unfold withHeading
  cases heading with
  | start => exact absurd rfl hstart
  | table more =>
    rw [apply_ite (List.map (Block.under path))]
    rfl
  | element more => rfl

mutual

theorem blocksAt_append (path more : List String) (value : Value) :
    blocksAt (path ++ more) value = (blocksAt more value).map (Block.under path) := by
  match value with
  | .table entries =>
    rw [blocksAt, blocksAt, entryBlocks_append path more entries, ← withHeading_under (by simp)]
    rfl
  | .array items => exact elementBlocks_append path more items
  | .string _ | .integer _ | .float _ | .boolean _ | .datetime _ => rfl

theorem elementBlocks_append (path more : List String) (items : List Value) :
    elementBlocks (path ++ more) items = (elementBlocks more items).map (Block.under path) := by
  match items with
  | [] => rfl
  | .table entries :: rest =>
    rw [elementBlocks, elementBlocks, List.map_append, entryBlocks_append path more entries,
      elementBlocks_append path more rest, ← withHeading_under (by simp)]
    rfl
  | .string _ :: rest | .integer _ :: rest | .float _ :: rest | .boolean _ :: rest
  | .datetime _ :: rest | .array _ :: rest => exact elementBlocks_append path more rest

theorem entryBlocks_append (path more : List String) (entries : Table) :
    entryBlocks (path ++ more) entries = (entryBlocks more entries).map (Block.under path) := by
  match entries with
  | [] => rfl
  | (key, value) :: rest =>
    rw [entryBlocks, entryBlocks, List.map_append, List.append_assoc,
      blocksAt_append path (more ++ [key]) value, entryBlocks_append path more rest]
    split <;> rfl

end

theorem path_ne_nil_of_mem_entryBlocks {entries : Table} :
    ∀ block ∈ entryBlocks [] entries, block.heading.path ≠ [] := by
  induction entries with
  | nil => exact fun _ hmem => absurd hmem List.not_mem_nil
  | cons entry rest ih =>
    obtain ⟨key, value⟩ := entry
    rw [entryBlocks, List.forall_mem_append]
    refine ⟨?_, ih⟩
    split
    · intro block hblock
      have hunder : blocksAt ([] ++ [key]) value = (blocksAt [] value).map (Block.under [key]) :=
        blocksAt_append [key] [] value
      rw [hunder] at hblock
      obtain ⟨inner, -, rfl⟩ := List.mem_map.1 hblock
      obtain ⟨heading, pairs⟩ := inner
      cases heading <;> simp [Block.under, Heading.under, Heading.path]
    · exact fun _ hmem => absurd hmem List.not_mem_nil

/-! ## What blocks make up -/

theorem toTable_eq_map (drafts : Drafts) :
    toTable drafts = drafts.map fun (key, draft) => (key, draft.toValue) := by
  induction drafts with
  | nil => rfl
  | cons entry rest ih => rw [toTable, ih, List.map_cons]

theorem find?_toTable (key : String) (drafts : Drafts) :
    Assoc.find? key (toTable drafts) = (Assoc.find? key drafts).map Draft.toValue := by
  induction drafts with
  | nil => rfl
  | cons entry rest ih =>
    rw [toTable, Assoc.find?_cons, Assoc.find?_cons, ih]
    split <;> rfl

theorem find?_writtenOut (key : String) (entries : Table) :
    Assoc.find? key (writtenOut entries) = (Assoc.find? key entries).map .value := by
  induction entries with
  | nil => rfl
  | cons entry rest ih =>
    rw [writtenOut, List.map_cons, Assoc.find?_cons, Assoc.find?_cons, ← writtenOut, ih]
    split <;> rfl

theorem isSorted_toTable {drafts : Drafts} (h : Sorted.IsSorted drafts) :
    Sorted.IsSorted (toTable drafts) := by
  rw [toTable_eq_map]
  exact List.pairwise_map.2 h

theorem addAll_nil {pairs : Table} (h : Sorted.IsSorted pairs) :
    addAll pairs [] = some (writtenOut pairs) := @foldlM_addNew [] pairs h

/-- The entries of a table that are not written in blocks of their own. -/
def plainEntries (entries : Table) : Table := entries.filter fun entry => !entry.2.isBlock

/-- Whether the blocks of a table's own tables, carried out after its other values, make up the
table. -/
def MakesUp (entries : Table) : Prop :=
  ∃ drafts, build (entryBlocks [] entries) (writtenOut (plainEntries entries)) = some drafts ∧
    toTable drafts = entries

theorem isSorted_plainEntries {entries : Table} (h : Sorted.IsSorted entries) :
    Sorted.IsSorted (plainEntries entries) := List.Pairwise.filter _ h

/-- Whether some blocks put the entries that are written in blocks under new keys. -/
def PutsBlocks (entries : Table) : Prop :=
  ∀ drafts, Sorted.IsSorted drafts →
    (∀ entry ∈ entries, entry.2.isBlock = true → Assoc.find? entry.1 drafts = none) →
    ∃ result, build (entryBlocks [] entries) drafts = some result ∧ Sorted.IsSorted result ∧
      ∀ key, (Assoc.find? key result).map Draft.toValue =
        ((Assoc.find? key drafts).map Draft.toValue).or
          (Assoc.find? key (entries.filter fun entry => entry.2.isBlock))

theorem PutsBlocks.makesUp {entries : Table} (h : PutsBlocks entries)
    (hsorted : Sorted.IsSorted entries) : MakesUp entries := by
  have hplain : ∀ key, (Assoc.find? key (writtenOut (plainEntries entries))).map Draft.toValue =
      (Assoc.find? key entries).filter fun value => !value.isBlock := by
    intro key
    rw [find?_writtenOut, plainEntries, Sorted.find?_filter hsorted, Option.map_map]
    exact Option.map_id'
  have hfresh : ∀ entry ∈ entries, entry.2.isBlock = true →
      Assoc.find? entry.1 (writtenOut (plainEntries entries)) = none := by
    intro entry hentry hblock
    have hfind := hplain entry.1
    rw [(Sorted.find?_eq_some_iff hsorted).2 hentry, Option.filter, if_neg (by simp [hblock])]
      at hfind
    exact Option.map_eq_none_iff.1 hfind
  have hdrafts : Sorted.IsSorted (writtenOut (plainEntries entries)) :=
    List.pairwise_map.2 (isSorted_plainEntries hsorted)
  obtain ⟨result, hbuild, hresult, hfind⟩ := h _ hdrafts hfresh
  refine ⟨result, hbuild, (isSorted_toTable hresult).ext hsorted fun key => ?_⟩
  rw [find?_toTable, hfind, hplain, Sorted.find?_filter hsorted]
  cases Assoc.find? key entries with
  | none => rfl
  | some value => cases hblock : value.isBlock <;> simp [hblock]

theorem build_append (blocks more : List Block) (drafts : Drafts) :
    build (blocks ++ more) drafts = (build blocks drafts).bind (build more) := List.foldlM_append

theorem build_entryBlocks_under (key : String) (entries : Table) (drafts : Drafts) :
    build (entryBlocks [key] entries) drafts =
      (entryBlocks [] entries).foldlM (fun drafts block => within [key] block.build drafts)
        drafts := by
  have happend : entryBlocks ([key] ++ []) entries =
      (entryBlocks [] entries).map (Block.under [key]) := entryBlocks_append [key] [] entries
  rw [← build_under [key] path_ne_nil_of_mem_entryBlocks, ← happend, List.append_nil]

/-- A table that has been opened is filled by its block and by the blocks below it. -/
theorem build_opened {entries : Table} (h : MakesUp entries) (hsorted : Sorted.IsSorted entries)
    {heading : Heading} {opening : String → Drafts → Option Drafts} {put : Drafts → Draft}
    (hput : Grows put) {drafts others : Drafts}
    (hopen : opening key drafts = some (Sorted.insert key (put []) others))
    (hheading : Block.build ⟨heading, plainEntries entries⟩ drafts =
      openWith opening key (plainEntries entries) drafts) :
    ∃ result, build (⟨heading, plainEntries entries⟩ :: entryBlocks [key] entries) drafts =
        some (Sorted.insert key (put result) others) ∧
      toTable result = entries := by
  obtain ⟨result, hbuild, hresult⟩ := h
  have hpairs : Block.build ⟨heading, plainEntries entries⟩ drafts =
      some (Sorted.insert key (put (writtenOut (plainEntries entries))) others) := by
    have hadd := addAll_nil (isSorted_plainEntries hsorted)
    rw [addAll] at hadd
    rw [hheading, openWith, hopen, Option.bind_some, foldlM_within_put hput, hadd, Option.map_some]
  refine ⟨result, ?_, hresult⟩
  rw [build, List.foldlM_cons, hpairs, Option.bind_eq_bind, Option.bind_some]
  show build (entryBlocks [key] entries) _ = _
  rw [build_entryBlocks_under, foldlM_within_put hput]
  show (build (entryBlocks [] entries) _).map _ = _
  rw [hbuild, Option.map_some]

/-- A table under a new key is made up, with or without a heading of its own. -/
theorem build_table {entries : Table} (h : MakesUp entries) (hsorted : Sorted.IsSorted entries)
    {drafts : Drafts} (hfresh : Assoc.find? key drafts = none) :
    ∃ draft, build (blocksAt [key] (.table entries)) drafts =
        some (Sorted.insert key draft drafts) ∧
      draft.toValue = .table entries := by
  rcases withHeading_cases (.table [key]) entries (entryBlocks [key] entries) with
    ⟨heq, -⟩ | ⟨heq, hnone, hchildren⟩
  · have hopen : openTable key drafts = some (Sorted.insert key (.table .heading []) drafts) := by
      rw [openTable, hfresh]
    obtain ⟨result, hbuild, hresult⟩ :=
      @build_opened key entries h hsorted (.table [key]) _ _ (grows_table .heading) _ _ hopen rfl
    refine ⟨.table .heading result, ?_, by rw [Draft.toValue, hresult]⟩
    rw [blocksAt, heq]
    exact hbuild
  · obtain ⟨result, hbuild, hresult⟩ := h
    have hne : entryBlocks [] entries ≠ [] := by
      intro hnil
      rw [hnil, plainEntries, hnone] at hbuild
      obtain rfl : [] = result := Option.some.inj hbuild
      obtain ⟨-, -, entry, hentry, -⟩ := hchildren.resolve_left (by simp)
      rw [← hresult] at hentry
      exact absurd hentry List.not_mem_nil
    refine ⟨.table .passage result, ?_, by rw [Draft.toValue, hresult]⟩
    rw [blocksAt, heq, build_entryBlocks_under, foldlM_within_fresh hfresh _ hne]
    have hbuild : build (entryBlocks [] entries) [] = some result := by
      rw [← hbuild, plainEntries, hnone]
      rfl
    show (build (entryBlocks [] entries) _).map _ = _
    rw [hbuild, Option.map_some]

/-- A table is made up as the next one of a list of tables. -/
theorem build_element {entries : Table} (h : MakesUp entries) (hsorted : Sorted.IsSorted entries)
    {earlier : List Table} {drafts others : Drafts}
    (hopen : openElement key drafts = some (Sorted.insert key (.tables earlier []) others)) :
    ∃ latest, build (withHeading (.element [key]) entries (entryBlocks [key] entries)) drafts =
        some (Sorted.insert key (.tables earlier latest) others) ∧
      toTable latest = entries :=
  @build_opened key entries h hsorted (.element [key]) _ _ (grows_tables earlier) _ _ hopen rfl

mutual

/-- **The blocks of a value put the value under a new key.** -/
theorem build_blocksAt (key : String) (value : Value) (hblock : value.isBlock = true)
    (hordered : value.IsOrdered) {drafts : Drafts} (hfresh : Assoc.find? key drafts = none) :
    ∃ draft, build (blocksAt [key] value) drafts = some (Sorted.insert key draft drafts) ∧
      draft.toValue = value := by
  match value with
  | .string _ | .integer _ | .float _ | .boolean _ | .datetime _ | .array [] => cases hblock
  | .table entries =>
    have hsorted := (tableOrdered_iff.1 hordered).1
    exact build_table ((build_entryBlocks entries hordered).makesUp hsorted) hsorted hfresh
  | .array (item :: rest) =>
    have htables : (item :: rest).all Value.isTable = true := by simpa [Value.isBlock] using hblock
    rw [List.all_cons, Bool.and_eq_true] at htables
    match item with
    | .table entries =>
      have hsorted := (tableOrdered_iff.1 hordered.1).1
      have hopen : openElement key drafts = some (Sorted.insert key (.tables [] []) drafts) := by
        rw [openElement, hfresh]
      obtain ⟨first, hfirst, htable⟩ :=
        build_element ((build_entryBlocks entries hordered.1).makesUp hsorted) hsorted hopen
      obtain ⟨earlier, latest, hrest, heq⟩ :=
        build_elementBlocks key rest htables.2 hordered.2 [] first drafts
      refine ⟨.tables earlier latest, ?_, ?_⟩
      · rw [blocksAt, elementBlocks, build_append, hfirst, Option.bind_some, hrest]
      · rw [Draft.toValue, heq, htable]
        rfl
    | .string _ | .integer _ | .float _ | .boolean _ | .datetime _ | .array _ => cases htables.1

theorem build_elementBlocks (key : String) (items : List Value)
    (htables : items.all Value.isTable = true) (hordered : ItemsOrdered items)
    (earlier : List Table) (latest drafts : Drafts) :
    ∃ before last, build (elementBlocks [key] items)
        (Sorted.insert key (.tables earlier latest) drafts) =
          some (Sorted.insert key (.tables before last) drafts) ∧
      before.map Value.table ++ [.table (toTable last)] =
        earlier.map Value.table ++ .table (toTable latest) :: items := by
  match items with
  | [] => exact ⟨earlier, latest, rfl, rfl⟩
  | .table entries :: rest =>
    rw [List.all_cons, Bool.and_eq_true] at htables
    have hsorted := (tableOrdered_iff.1 hordered.1).1
    have hopen : openElement key (Sorted.insert key (.tables earlier latest) drafts) =
        some (Sorted.insert key (.tables (earlier ++ [toTable latest]) []) drafts) := by
      rw [openElement, Sorted.find?_insert, if_pos rfl]
      simp only [Sorted.insert_insert]
    obtain ⟨next, hnext, htable⟩ :=
      build_element ((build_entryBlocks entries hordered.1).makesUp hsorted) hsorted hopen
    obtain ⟨before, last, hrest, heq⟩ :=
      build_elementBlocks key rest htables.2 hordered.2 (earlier ++ [toTable latest]) next drafts
    refine ⟨before, last, ?_, ?_⟩
    · rw [elementBlocks, build_append, hnext, Option.bind_some, hrest]
    · rw [heq, htable, List.map_append, List.append_assoc]
      rfl
  | .string _ :: _ | .integer _ :: _ | .float _ :: _ | .boolean _ :: _ | .datetime _ :: _
  | .array _ :: _ =>
    rw [List.all_cons, Bool.and_eq_true] at htables
    cases htables.1

theorem build_entryBlocks (entries : Table) (hordered : TableOrdered entries) :
    PutsBlocks entries := by
  intro drafts hsorted hfresh
  match entries with
  | [] => exact ⟨drafts, rfl, hsorted, fun key => by simp⟩
  | (key, value) :: rest =>
    rw [List.forall_mem_cons] at hfresh
    by_cases hblock : value.isBlock = true
    · obtain ⟨draft, hfirst, hdraft⟩ :=
        build_blocksAt key value hblock hordered.2.1 (hfresh.1 hblock)
      have hrest : ∀ entry ∈ rest, entry.2.isBlock = true →
          Assoc.find? entry.1 (Sorted.insert key draft drafts) = none := by
        intro entry hentry hentryBlock
        rw [Sorted.find?_insert, if_neg (ne_of_lt (hordered.1 entry hentry))]
        exact hfresh.2 entry hentry hentryBlock
      obtain ⟨result, hbuild, hresult, hfind⟩ :=
        build_entryBlocks rest hordered.2.2 _ (hsorted.insert key draft) hrest
      refine ⟨result, ?_, hresult, fun other => ?_⟩
      · rw [entryBlocks, if_pos hblock, build_append, List.nil_append, hfirst, Option.bind_some,
          hbuild]
      · rw [hfind, Sorted.find?_insert, List.filter_cons, if_pos hblock, Assoc.find?_cons]
        by_cases hkey : key = other
        · subst hkey
          simp [hfresh.1 hblock, hdraft]
        · rw [if_neg hkey, if_neg hkey]
    · obtain ⟨result, hbuild, hresult, hfind⟩ :=
        build_entryBlocks rest hordered.2.2 drafts hsorted hfresh.2
      refine ⟨result, ?_, hresult, fun other => ?_⟩
      · rw [entryBlocks, if_neg hblock, List.nil_append, hbuild]
      · rw [hfind, List.filter_cons, if_neg hblock]

end

/-- **The statements of a document make up its table.** -/
theorem tableOfStatements?_blocks {table : Table} (h : TableOrdered table) :
    tableOfStatements? ((blocks table).flatMap Block.statements) = some table := by
  have hsorted := (tableOrdered_iff.1 h).1
  obtain ⟨drafts, hbuild, htable⟩ := (build_entryBlocks table h).makesUp hsorted
  have hblocks : ∀ c : Construction, (((entryBlocks [] table).flatMap Block.statements).foldlM
      Construction.carryOut c).map Construction.drafts = build (entryBlocks [] table) c.drafts :=
    foldlM_carryOut_blocks path_ne_nil_of_mem_entryBlocks
  have hall : (((blocks table).flatMap Block.statements).foldlM
      Construction.carryOut {}).map Construction.drafts = some drafts := by
    rcases withHeading_cases .start table (entryBlocks [] table) with ⟨heq, -⟩ | ⟨heq, hnone, -⟩
    · rw [blocks, heq, foldlM_carryOut_cons (fun _ => rfl) hblocks, build, List.foldlM_cons]
      show (addAll (plainEntries table) []).bind _ = _
      rw [addAll_nil (isSorted_plainEntries hsorted), Option.bind_some]
      exact hbuild
    · rw [blocks, heq, hblocks, ← hbuild, plainEntries, hnone]
      rfl
  have hmap := congrArg (Option.map toTable) hall
  rw [Option.map_map, Option.map_some, htable] at hmap
  exact hmap

/-- **A document gives back its table**, unless it exceeds the limits of the reader. -/
theorem documentTable?_documentText {table : Table} (hplain : entriesPlain table = true)
    (hordered : TableOrdered table) :
    documentTable? (documentText table) = if IsWithinLimits table then some table else none := by
  rw [documentTable?, statementsOf?_documentText hplain hordered]
  split
  · exact tableOfStatements?_blocks hordered
  · rfl

end JavaAtlas.Toml
