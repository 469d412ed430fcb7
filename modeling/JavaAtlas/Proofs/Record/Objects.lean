import JavaAtlas.Record.Schema
import JavaAtlas.Proofs.Data.Except
import JavaAtlas.Proofs.Data.Lists

set_option autoImplicit false

/-! # The objects and arrays from which records are read

Reading a record goes through the members of an object one after the other. Whether it succeeds is a
matter of each member by itself and of the names as a whole: no member of the schema comes twice,
and none that must be there is missing (`exists_readMembers_iff`). The items of an array are those
of the members in their order, and only optional members may be missing at its end
(`exists_readItems_iff`). -/

namespace JavaAtlas

open Json (ReadJson Outline)

variable {ρ : Type}

/-! ## Members -/

namespace Member

/-- Whether a member reads an outline, whatever has been read before. -/
def Takes (m : Member ρ) (depth : Nat) (outline : Outline) : Prop :=
  ∀ r, ∃ s, m.read depth outline r = .ok s

/-- Whether what has been read before has no say in what a member reads. -/
def IsPlain (m : Member ρ) : Prop :=
  ∀ depth outline r, (∃ s, m.read depth outline r = .ok s) → m.Takes depth outline

variable {α : Type} [WriteJson α] [ReadJson α] {name : String} {get : ρ → α} {set : α → ρ → ρ}
  {presence : Presence}

theorem isPlain_of : (Member.of name get set presence).IsPlain := by
  intro depth outline r h s
  exact Fallible.exists_map_iff.2 (Fallible.exists_map_iff.1 h)

theorem takes_of_iff [Nonempty ρ] {depth : Nat} {outline : Outline} :
    (Member.of name get set presence).Takes depth outline ↔
      ∃ a : α, ReadJson.read depth outline = .ok a := by
  constructor
  · intro h
    obtain ⟨r⟩ := ‹Nonempty ρ›
    exact Fallible.exists_map_iff.1 (h r)
  · intro h r
    exact Fallible.exists_map_iff.2 h

end Member

/-! ## Objects -/

namespace Schema

variable (schema : Schema ρ)

/-- The names in an object that are known to the schema, in the order of the object. -/
def knownNames (members : List (Option String × Outline)) : List String :=
  (members.filterMap Prod.fst).filter fun name => name ∈ schema.members.map Member.name

/-- Whether a record can be read from the members of an object, when `seen` are the names of those
that have been read before. -/
structure Takes (depth : Nat) (seen : List String) (members : List (Option String × Outline)) :
    Prop where
  named : ∀ value, (none, value) ∉ members
  known : ∀ m ∈ schema.members, ∀ value, (some m.name, value) ∈ members → m.Takes depth value
  unknown : ∀ name value, (some name, value) ∈ members → name ∉ schema.members.map Member.name →
    value.wellFormed = true
  once : (seen ++ schema.knownNames members).Nodup
  present : ∀ m ∈ schema.members, m.presence = .required →
    m.name ∈ seen ++ schema.knownNames members

variable {schema} {depth : Nat} {seen : List String} {members : List (Option String × Outline)}
  {value : Outline}

theorem mem_knownNames_iff {name : String} :
    name ∈ schema.knownNames members ↔
      (∃ value, (some name, value) ∈ members) ∧ name ∈ schema.members.map Member.name := by
  simp [knownNames]

theorem missing?_eq_none_iff :
    schema.missing? seen = none ↔ ∀ m ∈ schema.members, m.presence = .required → m.name ∈ seen := by
  simp [missing?]

theorem takes_nil_iff (hseen : seen.Nodup) :
    schema.Takes depth seen [] ↔ schema.missing? seen = none := by
  have hnames : seen ++ schema.knownNames [] = seen := List.append_nil seen
  rw [missing?_eq_none_iff]
  constructor
  · intro h
    simpa only [hnames] using h.present
  · intro h
    refine ⟨by simp, by simp, by simp, ?_, ?_⟩
    · rwa [hnames]
    · rwa [hnames]

theorem takes_cons_unknown {name : String} (h : name ∉ schema.members.map Member.name) :
    schema.Takes depth seen ((some name, value) :: members) ↔
      value.wellFormed = true ∧ schema.Takes depth seen members := by
  have hnames : schema.knownNames ((some name, value) :: members) = schema.knownNames members := by
    simp only [knownNames, List.filterMap_cons]
    exact List.filter_cons_of_neg (by simpa using h)
  have hother : ∀ m ∈ schema.members, m.name ≠ name := fun m hm heq =>
    h (List.mem_map.2 ⟨m, hm, heq⟩)
  constructor
  · rintro ⟨named, known, unknown, once, present⟩
    rw [hnames] at once present
    refine ⟨unknown name value List.mem_cons_self h, ?_, ?_, ?_, once, present⟩
    · exact fun v hv => named v (List.mem_cons_of_mem _ hv)
    · exact fun m hm v hv => known m hm v (List.mem_cons_of_mem _ hv)
    · exact fun n v hv => unknown n v (List.mem_cons_of_mem _ hv)
  · rintro ⟨hvalue, named, known, unknown, once, present⟩
    refine ⟨?_, ?_, ?_, by rwa [hnames], by rwa [hnames]⟩
    · simpa using named
    · intro m hm v hv
      rcases List.mem_cons.1 hv with heq | hv
      · exact absurd (Option.some.inj (Prod.mk.inj heq).1) (hother m hm)
      · exact known m hm v hv
    · intro n v hv hn
      rcases List.mem_cons.1 hv with heq | hv
      · obtain ⟨-, rfl⟩ := Prod.mk.inj heq
        exact hvalue
      · exact unknown n v hv hn

theorem takes_cons_known (hnodup : (schema.members.map Member.name).Nodup) {m : Member ρ}
    (hm : m ∈ schema.members) :
    schema.Takes depth seen ((some m.name, value) :: members) ↔
      m.name ∉ seen ∧ m.Takes depth value ∧ schema.Takes depth (m.name :: seen) members := by
  have hmem : m.name ∈ schema.members.map Member.name := List.mem_map_of_mem hm
  have hnames : schema.knownNames ((some m.name, value) :: members) =
      m.name :: schema.knownNames members := by
    simp only [knownNames, List.filterMap_cons]
    exact List.filter_cons_of_pos (by simpa using hmem)
  have hperm : (seen ++ schema.knownNames ((some m.name, value) :: members)).Perm
      (m.name :: seen ++ schema.knownNames members) := by
    rw [hnames]
    exact List.perm_middle
  constructor
  · rintro ⟨named, known, unknown, once, present⟩
    have honce := hperm.nodup_iff.1 once
    refine ⟨fun hseen => ?_, known m hm value List.mem_cons_self, ?_, ?_, ?_, honce, ?_⟩
    · exact (List.nodup_cons.1 honce).1 (List.mem_append_left _ hseen)
    · exact fun v hv => named v (List.mem_cons_of_mem _ hv)
    · exact fun m' hm' v hv => known m' hm' v (List.mem_cons_of_mem _ hv)
    · exact fun n v hv => unknown n v (List.mem_cons_of_mem _ hv)
    -- the name has moved from the object to the names that have been seen
    · exact fun m' hm' hrequired => hperm.mem_iff.1 (present m' hm' hrequired)
  · rintro ⟨-, hvalue, named, known, unknown, once, present⟩
    refine ⟨by simpa using named, ?_, ?_, hperm.nodup_iff.2 once, ?_⟩
    · intro m' hm' v hv
      rcases List.mem_cons.1 hv with heq | hv
      · obtain ⟨hname, rfl⟩ := Prod.mk.inj heq
        obtain rfl := List.inj_on_of_nodup_map hnodup hm' hm (Option.some.inj hname)
        exact hvalue
      · exact known m' hm' v hv
    · intro n v hv hn
      rcases List.mem_cons.1 hv with heq | hv
      · obtain ⟨hname, -⟩ := Prod.mk.inj heq
        exact absurd (Option.some.inj hname ▸ hmem) hn
      · exact unknown n v hv hn
    · exact fun m' hm' hrequired => hperm.mem_iff.2 (present m' hm' hrequired)

/-- A member that is known and new is read, and then the rest. -/
theorem readMembers_known {name : String} {m : Member ρ}
    (hfind : schema.members.find? (·.name = name) = some m) (hfresh : name ∉ seen) (r : ρ) :
    schema.readMembers depth seen ((some name, value) :: members) r =
      (m.read depth value r >>= schema.readMembers depth (name :: seen) members) := by
  rw [readMembers, hfind]
  dsimp only
  rw [if_neg hfresh]

/-- **The objects from which a record is read.** -/
theorem exists_readMembers_iff (hnodup : (schema.members.map Member.name).Nodup)
    (hplain : ∀ m ∈ schema.members, m.IsPlain) (hseen : seen.Nodup) {r : ρ} :
    (∃ s, schema.readMembers depth seen members r = .ok s) ↔ schema.Takes depth seen members := by
  induction members generalizing seen r with
  | nil =>
    rw [takes_nil_iff hseen, readMembers]
    cases schema.missing? seen <;> simp
  | cons member members ih =>
    obtain ⟨name, value⟩ := member
    cases name with
    | none =>
      rw [readMembers]
      refine iff_of_false (by simp) fun h => h.named value List.mem_cons_self
    | some name =>
      rw [readMembers]
      cases hfind : schema.members.find? (·.name = name) with
      | none =>
        have hname : name ∉ schema.members.map Member.name := by
          rw [List.find?_eq_none] at hfind
          simpa using hfind
        rw [takes_cons_unknown hname, ← ih hseen (r := r)]
        cases value.wellFormed <;> simp
      | some m =>
        obtain ⟨hm, rfl⟩ := (Lists.find?_eq_some_iff hnodup).1 hfind
        rw [takes_cons_known hnodup hm]
        by_cases hmem : m.name ∈ seen
        · simp [hmem]
        · have hnext : (m.name :: seen).Nodup := List.nodup_cons.2 ⟨hmem, hseen⟩
          simp only [if_neg hmem, Fallible.exists_bind_iff]
          constructor
          · rintro ⟨s, hread, hrest⟩
            exact ⟨hmem, hplain m hm depth value r ⟨s, hread⟩, (ih hnext).1 hrest⟩
          · rintro ⟨-, hvalue, hrest⟩
            obtain ⟨s, hread⟩ := hvalue r
            exact ⟨s, hread, (ih hnext).2 hrest⟩

/-! ## Arrays -/

/-- Whether the members of a record can be read from the items of an array. -/
def TakesItems (depth : Nat) : List (Member ρ) → List Outline → Prop
  | [], [] => True
  | [], _ :: _ => False
  | m :: members, [] => m.presence = .optional ∧ TakesItems depth members []
  | m :: members, item :: items => m.Takes depth item ∧ TakesItems depth members items

/-- **The arrays from which a record is read.** -/
theorem exists_readItems_iff {rest : List (Member ρ)} (hplain : ∀ m ∈ rest, m.IsPlain)
    {index : Nat} {items : List Outline} {r : ρ} :
    (∃ s, schema.readItems depth index rest items r = .ok s) ↔ TakesItems depth rest items := by
  induction rest generalizing index items r with
  | nil => cases items <;> simp [readItems, TakesItems]
  | cons m rest ih =>
    have hrest := fun m' hm' => hplain m' (List.mem_cons_of_mem _ hm')
    cases items with
    | nil =>
      rw [readItems, TakesItems]
      by_cases hoptional : m.presence = .optional
      · simp [hoptional, ih hrest]
      · simp [hoptional]
    | cons item items =>
      rw [readItems, TakesItems, Fallible.exists_bind_iff]
      constructor
      · rintro ⟨s, hread, hmore⟩
        exact ⟨hplain m List.mem_cons_self depth item r ⟨s, hread⟩, (ih hrest).1 hmore⟩
      · rintro ⟨hitem, hmore⟩
        obtain ⟨s, hread⟩ := hitem r
        exact ⟨s, hread, (ih hrest).2 hmore⟩

end Schema

end JavaAtlas
