import JavaAtlas.Proofs.Toml.Construction

set_option autoImplicit false

/-! # Tables that are read have their entries in order

Whatever a document says, the tables under construction keep their entries in the order of their
keys (`isOrdered_carryOut`), and so do the tables between braces in its values
(`findsOrdered_readValue`). So the table of a document is in order at every depth
(`tableOrdered_documentTable?`). -/

namespace JavaAtlas.Toml

/-! ## Tables under construction -/

/-- Whether a table under construction is to become a table in order. -/
def Drafts.IsOrdered (drafts : Drafts) : Prop := TableOrdered (toTable drafts)

theorem TableOrdered.insert {entries : Table} (h : TableOrdered entries) (key : String)
    {value : Value} (hvalue : value.IsOrdered) :
    TableOrdered (Sorted.insert key value entries) := by
  rw [tableOrdered_iff] at h ⊢
  refine ⟨h.1.insert key value, fun entry hentry => ?_⟩
  rcases Sorted.mem_insert hentry with rfl | hentry
  · exact hvalue
  · exact h.2 entry hentry

theorem toTable_insert (key : String) (draft : Draft) (drafts : Drafts) :
    toTable (Sorted.insert key draft drafts) =
      Sorted.insert key draft.toValue (toTable drafts) := by
  induction drafts with
  | nil => rfl
  | cons entry rest ih =>
    obtain ⟨k, d⟩ := entry
    rw [toTable, Sorted.insert, Sorted.insert]
    cases compare key k with
    | lt => rfl
    | eq => rfl
    | gt => rw [toTable, ih]

namespace Drafts.IsOrdered

variable {drafts : Drafts}

theorem nil : IsOrdered [] := trivial

theorem insert (h : drafts.IsOrdered) (key : String) {draft : Draft}
    (hdraft : draft.toValue.IsOrdered) : IsOrdered (Sorted.insert key draft drafts) := by
  rw [IsOrdered, toTable_insert]
  exact TableOrdered.insert h key hdraft

theorem find? (h : drafts.IsOrdered) {key : String} {draft : Draft}
    (hfind : Assoc.find? key drafts = some draft) : draft.toValue.IsOrdered := by
  have htable : Assoc.find? key (toTable drafts) = some draft.toValue := by
    rw [find?_toTable, hfind, Option.map_some]
  exact (tableOrdered_iff.1 h).2 _ (Assoc.mem_of_find?_eq_some htable)

end Drafts.IsOrdered

theorem itemsOrdered_append {items more : List Value} :
    ItemsOrdered (items ++ more) ↔ ItemsOrdered items ∧ ItemsOrdered more := by
  induction items with
  | nil => simp [ItemsOrdered]
  | cons item rest ih => rw [List.cons_append, ItemsOrdered, ItemsOrdered, ih, and_assoc]

theorem isOrdered_tables {earlier : List Table} {latest : Drafts} :
    (Draft.tables earlier latest).toValue.IsOrdered ↔
      ItemsOrdered (earlier.map Value.table) ∧ latest.IsOrdered := by
  rw [Draft.toValue, Value.IsOrdered, itemsOrdered_append]
  simp [ItemsOrdered, Value.IsOrdered, Drafts.IsOrdered]

/-- Whether a change leaves tables in order. -/
def KeepsOrder (change : Drafts → Option Drafts) : Prop :=
  ∀ {drafts result : Drafts}, drafts.IsOrdered → change drafts = some result → result.IsOrdered

theorem keepsOrder_descend {dotted : Bool} {change : Bool → Drafts → Option Drafts}
    (hchange : ∀ byDots, KeepsOrder (change byDots)) (byDots : Bool) (path : List String) :
    KeepsOrder (descend dotted change byDots path) := by
  induction path generalizing byDots with
  | nil => exact hchange byDots
  | cons key path ih =>
    intro drafts result hdrafts hresult
    rw [descend] at hresult
    split at hresult
    · obtain ⟨child, hchild, hinsert⟩ := Option.bind_eq_some_iff.1 hresult
      obtain rfl := Option.some.inj hinsert
      exact hdrafts.insert key (ih dotted .nil hchild)
    · cases hresult
    · next origin child hfind =>
      split at hresult
      · cases hresult
      · obtain ⟨grown, hgrown, hinsert⟩ := Option.bind_eq_some_iff.1 hresult
        obtain rfl := Option.some.inj hinsert
        have hchild : Drafts.IsOrdered child := hdrafts.find? hfind
        exact hdrafts.insert key (ih _ hchild hgrown)
    · next earlier latest hfind =>
      obtain ⟨grown, hgrown, hinsert⟩ := Option.bind_eq_some_iff.1 hresult
      obtain rfl := Option.some.inj hinsert
      obtain ⟨hearlier, hlatest⟩ := isOrdered_tables.1 (hdrafts.find? hfind)
      exact hdrafts.insert key (isOrdered_tables.2 ⟨hearlier, ih false hlatest hgrown⟩)

theorem keepsOrder_addNew (key : String) {value : Value} (hvalue : value.IsOrdered) :
    KeepsOrder (addNew key value) := by
  intro drafts result hdrafts hresult
  rw [addNew] at hresult
  split at hresult
  · obtain rfl := Option.some.inj hresult
    exact hdrafts.insert key hvalue
  · cases hresult

theorem keepsOrder_addPair (path : List String) (key : String) {value : Value}
    (hvalue : value.IsOrdered) : KeepsOrder (addPair path key value) := by
  refine keepsOrder_descend (fun byDots => ?_) false path
  intro drafts result hdrafts hresult
  split at hresult
  · cases hresult
  · exact keepsOrder_addNew key hvalue hdrafts hresult

theorem keepsOrder_openTable (key : String) : KeepsOrder (openTable key) := by
  intro drafts result hdrafts hresult
  rw [openTable] at hresult
  split at hresult
  · obtain rfl := Option.some.inj hresult
    exact hdrafts.insert key Drafts.IsOrdered.nil
  · next child hfind =>
    obtain rfl := Option.some.inj hresult
    have hchild : Drafts.IsOrdered child := hdrafts.find? hfind
    exact hdrafts.insert key hchild
  · cases hresult

theorem keepsOrder_openElement (key : String) : KeepsOrder (openElement key) := by
  intro drafts result hdrafts hresult
  rw [openElement] at hresult
  split at hresult
  · obtain rfl := Option.some.inj hresult
    exact hdrafts.insert key (isOrdered_tables.2 ⟨trivial, .nil⟩)
  · next earlier latest hfind =>
    obtain rfl := Option.some.inj hresult
    obtain ⟨hearlier, hlatest⟩ := isOrdered_tables.1 (hdrafts.find? hfind)
    refine hdrafts.insert key (isOrdered_tables.2 ⟨?_, .nil⟩)
    rw [List.map_append]
    exact itemsOrdered_append.2 ⟨hearlier, hlatest, trivial⟩
  · cases hresult

/-- What every step leaves true is true after the last one. -/
theorem foldlM_preserves {σ β : Type} {P : σ → Prop} {step : σ → β → Option σ} {xs : List β}
    (hstep : ∀ x ∈ xs, ∀ {s s' : σ}, P s → step s x = some s' → P s') {s s' : σ} (h : P s)
    (hrun : xs.foldlM step s = some s') : P s' := by
  induction xs generalizing s with
  | nil =>
    obtain rfl := Option.some.inj hrun
    exact h
  | cons x xs ih =>
    rw [List.forall_mem_cons] at hstep
    obtain ⟨next, hnext, hmore⟩ := Option.bind_eq_some_iff.1 hrun
    exact ih hstep.2 (hstep.1 h hnext) hmore

/-! ## Values -/

/-- Whether a reader finds only values whose tables are in order. -/
def FindsOrdered (reader : ValueReader) : Prop :=
  ∀ {cs rest : List Char} {value : Value}, reader cs = some (value, rest) → value.IsOrdered

theorem isOrdered_integerOf? {n : Int} {value : Value} (h : integerOf? n = some value) :
    value.IsOrdered := by
  unfold integerOf? at h
  split at h
  · obtain rfl := Option.some.inj h
    trivial
  · cases h

theorem isOrdered_radixInteger? {base : Nat} {cs : List Char} {value : Value}
    (h : radixInteger? base cs = some value) : value.IsOrdered := by
  obtain ⟨digits, -, hvalue⟩ := Option.bind_eq_some_iff.1 h
  exact isOrdered_integerOf? hvalue

theorem isOrdered_decimalInteger? {negative : Bool} {cs : List Char} {value : Value}
    (h : decimalInteger? negative cs = some value) : value.IsOrdered := by
  obtain ⟨digits, -, hvalue⟩ := Option.bind_eq_some_iff.1 h
  dsimp only at hvalue
  split at hvalue
  · exact isOrdered_integerOf? hvalue
  · cases hvalue

theorem isOrdered_decimalFloat? {negative : Bool} {cs : List Char} {value : Value}
    (h : decimalFloat? negative cs = some value) : value.IsOrdered := by
  obtain ⟨digits, -, hmore⟩ := Option.bind_eq_some_iff.1 h
  dsimp only at hmore
  -- with or without a fraction, the same is done with what follows it
  split at hmore
  all_goals
    obtain ⟨rest, -, hvalue⟩ := Option.bind_eq_some_iff.1 hmore
    split at hvalue
    · split at hvalue
      · split at hvalue
        · obtain rfl := Option.some.inj hvalue
          trivial
        · cases hvalue
      · cases hvalue
    · cases hvalue

theorem isOrdered_number? {negative : Bool} {cs : List Char} {value : Value}
    (h : number? negative cs = some value) : value.IsOrdered := by
  unfold number? at h
  split at h
  · obtain rfl := Option.some.inj h
    trivial
  split at h
  · obtain rfl := Option.some.inj h
    trivial
  split at h
  · next hinteger =>
    obtain rfl := Option.some.inj h
    exact isOrdered_decimalInteger? hinteger
  split at h
  · exact isOrdered_decimalFloat? h
  · cases h

theorem isOrdered_scalarValue? {cs : List Char} {value : Value} (h : scalarValue? cs = some value) :
    value.IsOrdered := by
  unfold scalarValue? at h
  split at h
  · exact isOrdered_number? h
  · exact isOrdered_number? h
  · exact isOrdered_radixInteger? h
  · exact isOrdered_radixInteger? h
  · exact isOrdered_radixInteger? h
  split at h
  · obtain rfl := Option.some.inj h
    trivial
  split at h
  · obtain rfl := Option.some.inj h
    trivial
  split at h
  · next hnumber =>
    obtain rfl := Option.some.inj h
    exact isOrdered_number? hnumber
  · obtain ⟨d, -, rfl⟩ := Option.map_eq_some_iff.1 h
    trivial

theorem findsOrdered_readScalar : FindsOrdered readScalar := by
  intro cs rest value h
  have hscalar : ∀ {token more : List Char},
      (scalarValue? token).map (fun value => (value, more)) = some (value, rest) →
      value.IsOrdered := by
    intro token more hmap
    obtain ⟨found, hfound, heq⟩ := Option.map_eq_some_iff.1 hmap
    obtain ⟨rfl, -⟩ := Prod.mk.inj heq
    exact isOrdered_scalarValue? hfound
  unfold readScalar at h
  dsimp only at h
  split at h
  · split at h
    · exact hscalar h
    · exact hscalar h
  · exact hscalar h

theorem itemsOrdered_of_readItems {reader : ValueReader} (hreader : FindsOrdered reader)
    {count : Nat} {cs rest : List Char} {items : List Value}
    (h : readItems reader count cs = some (items, rest)) : ItemsOrdered items := by
  induction count generalizing cs rest items with
  | zero => cases h
  | succ count ih =>
    obtain ⟨start, -, hstart⟩ := Option.bind_eq_some_iff.1 h
    split at hstart
    · obtain ⟨rfl, -⟩ := Prod.mk.inj (Option.some.inj hstart)
      trivial
    · obtain ⟨⟨item, more⟩, hitem, hmore⟩ := Option.bind_eq_some_iff.1 hstart
      obtain ⟨next, -, hnext⟩ := Option.bind_eq_some_iff.1 hmore
      dsimp only at hnext
      split at hnext
      · obtain ⟨⟨others, last⟩, hothers, heq⟩ := Option.bind_eq_some_iff.1 hnext
        obtain ⟨rfl, -⟩ := Prod.mk.inj (Option.some.inj heq)
        exact ⟨hreader hitem, ih hothers⟩
      · obtain ⟨rfl, -⟩ := Prod.mk.inj (Option.some.inj hnext)
        exact ⟨hreader hitem, trivial⟩
      · cases hnext

theorem isOrdered_of_readPair {reader : ValueReader} (hreader : FindsOrdered reader)
    {cs rest : List Char} {path : KeyPath} {value : Value}
    (h : readPair reader cs = some ((path, value), rest)) : value.IsOrdered := by
  obtain ⟨⟨keys, more⟩, -, hmore⟩ := Option.bind_eq_some_iff.1 h
  dsimp only at hmore
  split at hmore
  · obtain ⟨⟨found, last⟩, hfound, heq⟩ := Option.bind_eq_some_iff.1 hmore
    obtain ⟨hpair, -⟩ := Prod.mk.inj (Option.some.inj heq)
    obtain ⟨-, rfl⟩ := Prod.mk.inj hpair
    exact hreader hfound
  · cases hmore

theorem isOrdered_of_readPairs {reader : ValueReader} (hreader : FindsOrdered reader)
    {count : Nat} {cs rest : List Char} {pairs : List (KeyPath × Value)}
    (h : readPairs reader count cs = some (pairs, rest)) : ∀ pair ∈ pairs, pair.2.IsOrdered := by
  induction count generalizing cs rest pairs with
  | zero => cases h
  | succ count ih =>
    obtain ⟨start, -, hstart⟩ := Option.bind_eq_some_iff.1 h
    split at hstart
    · obtain ⟨rfl, -⟩ := Prod.mk.inj (Option.some.inj hstart)
      exact fun _ hmem => absurd hmem List.not_mem_nil
    · obtain ⟨⟨pair, more⟩, hpair, hmore⟩ := Option.bind_eq_some_iff.1 hstart
      obtain ⟨next, -, hnext⟩ := Option.bind_eq_some_iff.1 hmore
      dsimp only at hnext
      split at hnext
      · obtain ⟨⟨others, last⟩, hothers, heq⟩ := Option.bind_eq_some_iff.1 hnext
        obtain ⟨rfl, -⟩ := Prod.mk.inj (Option.some.inj heq)
        exact List.forall_mem_cons.2 ⟨isOrdered_of_readPair hreader hpair, ih hothers⟩
      · obtain ⟨rfl, -⟩ := Prod.mk.inj (Option.some.inj hnext)
        exact List.forall_mem_singleton.2 (isOrdered_of_readPair hreader hpair)
      · cases hnext

theorem tableOrdered_tableOfPairs? {pairs : List (KeyPath × Value)}
    (h : ∀ pair ∈ pairs, pair.2.IsOrdered) {entries : Table}
    (hentries : tableOfPairs? pairs = some entries) : TableOrdered entries := by
  obtain ⟨drafts, hdrafts, rfl⟩ := Option.map_eq_some_iff.1 hentries
  exact foldlM_preserves (fun pair hpair => keepsOrder_addPair _ _ (h pair hpair)) .nil hdrafts

/-- A value that is read has the entries of its tables in order. -/
theorem findsOrdered_readValue (depth : Nat) : FindsOrdered (readValue depth) := by
  have hstring : ∀ {cs rest : List Char} {value : Value},
      (readString cs).map (fun read => (Value.string (String.ofList read.1), read.2)) =
        some (value, rest) → value.IsOrdered := by
    intro cs rest value h
    obtain ⟨found, -, heq⟩ := Option.map_eq_some_iff.1 h
    obtain ⟨rfl, -⟩ := Prod.mk.inj heq
    trivial
  induction depth with
  | zero =>
    intro cs rest value h
    unfold readValue at h
    split at h
    · cases h
    · cases h
    · next heq => cases heq
    · next heq => cases heq
    · exact hstring h
    · exact hstring h
    · exact findsOrdered_readScalar h
  | succ depth ih =>
    intro cs rest value h
    unfold readValue at h
    split at h
    · next heq => cases heq
    · next heq => cases heq
    · next hdepth =>
      obtain rfl := Nat.succ.inj hdepth
      obtain ⟨⟨items, more⟩, hitems, heq⟩ := Option.bind_eq_some_iff.1 h
      obtain ⟨rfl, -⟩ := Prod.mk.inj (Option.some.inj heq)
      exact itemsOrdered_of_readItems ih hitems
    · next hdepth =>
      obtain rfl := Nat.succ.inj hdepth
      obtain ⟨⟨pairs, more⟩, hpairs, hmore⟩ := Option.bind_eq_some_iff.1 h
      obtain ⟨entries, hentries, heq⟩ := Option.bind_eq_some_iff.1 hmore
      obtain ⟨rfl, -⟩ := Prod.mk.inj (Option.some.inj heq)
      exact tableOrdered_tableOfPairs? (isOrdered_of_readPairs ih hpairs) hentries
    · exact hstring h
    · exact hstring h
    · exact findsOrdered_readScalar h

/-! ## Documents -/

/-- Whether the value of a statement, if it has one, has the entries of its tables in order. -/
def Statement.IsOrdered : Statement → Prop
  | pair _ value => value.IsOrdered
  | table _ | element _ => True

theorem isOrdered_of_readStatement {cs rest : List Char} {s : Statement}
    (h : readStatement cs = some (s, rest)) : s.IsOrdered := by
  unfold readStatement at h
  split at h
  · obtain ⟨⟨path, more⟩, -, hmore⟩ := Option.bind_eq_some_iff.1 h
    dsimp only at hmore
    split at hmore
    · obtain ⟨rfl, -⟩ := Prod.mk.inj (Option.some.inj hmore)
      trivial
    · cases hmore
  · obtain ⟨⟨path, more⟩, -, hmore⟩ := Option.bind_eq_some_iff.1 h
    dsimp only at hmore
    split at hmore
    · obtain ⟨rfl, -⟩ := Prod.mk.inj (Option.some.inj hmore)
      trivial
    · cases hmore
  · obtain ⟨⟨⟨path, value⟩, more⟩, hpair, heq⟩ := Option.bind_eq_some_iff.1 h
    obtain ⟨rfl, -⟩ := Prod.mk.inj (Option.some.inj heq)
    exact isOrdered_of_readPair (findsOrdered_readValue depthLimit) hpair

theorem isOrdered_of_readStatements {count : Nat} {cs : List Char} {statements : List Statement}
    (h : readStatements count cs = some statements) : ∀ s ∈ statements, s.IsOrdered := by
  induction count generalizing cs statements with
  | zero =>
    cases cs with
    | nil =>
      obtain rfl := Option.some.inj h
      exact fun _ hmem => absurd hmem List.not_mem_nil
    | cons c cs => cases h
  | succ count ih =>
    cases cs with
    | nil =>
      obtain rfl := Option.some.inj h
      exact fun _ hmem => absurd hmem List.not_mem_nil
    | cons c cs =>
      obtain ⟨⟨s, rest⟩, hs, hrest⟩ := Option.bind_eq_some_iff.1 h
      obtain ⟨more, -, hmore⟩ := Option.bind_eq_some_iff.1 hrest
      obtain ⟨others, hothers, heq⟩ := Option.bind_eq_some_iff.1 hmore
      obtain rfl := Option.some.inj heq
      exact List.forall_mem_cons.2 ⟨isOrdered_of_readStatement hs, ih hothers⟩

/-- A statement leaves the table under construction in order. -/
theorem isOrdered_carryOut {s : Statement} (hs : s.IsOrdered) {c result : Construction}
    (hc : c.drafts.IsOrdered) (h : c.carryOut s = some result) : result.drafts.IsOrdered := by
  cases s with
  | pair path value =>
    obtain ⟨drafts, hdrafts, heq⟩ := Option.bind_eq_some_iff.1 h
    obtain rfl := Option.some.inj heq
    exact keepsOrder_descend (fun _ => keepsOrder_addPair path.front path.last hs) false c.current
      hc hdrafts
  | table path =>
    obtain ⟨drafts, hdrafts, heq⟩ := Option.bind_eq_some_iff.1 h
    obtain rfl := Option.some.inj heq
    exact keepsOrder_descend (fun _ => keepsOrder_openTable path.last) false path.front hc hdrafts
  | element path =>
    obtain ⟨drafts, hdrafts, heq⟩ := Option.bind_eq_some_iff.1 h
    obtain rfl := Option.some.inj heq
    exact keepsOrder_descend (fun _ => keepsOrder_openElement path.last) false path.front hc hdrafts

/-- **The table of a document is in order at every depth.** -/
theorem tableOrdered_documentTable? {text : String} {table : Table}
    (h : documentTable? text = some table) : TableOrdered table := by
  obtain ⟨statements, hstatements, htable⟩ := Option.bind_eq_some_iff.1 h
  obtain ⟨cs, -, hread⟩ := Option.bind_eq_some_iff.1 hstatements
  obtain ⟨c, hc, rfl⟩ := Option.map_eq_some_iff.1 htable
  exact @foldlM_preserves _ _ (fun c : Construction => c.drafts.IsOrdered) _ _
    (fun s hs => isOrdered_carryOut (isOrdered_of_readStatements hread s hs)) _ _ .nil hc

end JavaAtlas.Toml
