import JavaAtlas.Operation.Arguments
import JavaAtlas.Proofs.Data.Dict
import JavaAtlas.Proofs.Data.Except

set_option autoImplicit false

/-! # Checked arguments

Checking leaves one value for every declared parameter: an argument of the parameter's kind or the
parameter's default (`conforms_of_validate`). Reading such a value as its kind succeeds whenever the
default can be read as well. -/

namespace JavaAtlas

/-! ## The values that a parameter can have -/

namespace Parameter

/-- Whether a checked parameter can have the value. -/
def Admits (p : Parameter) (value : Json) : Prop :=
  p.kind.accepts value = true ∨ p.required = false ∧ value = p.fallback

/-- Whether the parameter takes what arguments have for it: an argument of its kind, or nothing if
it can be left out. -/
def Takes (p : Parameter) : Option Json → Prop
  | none | some .null => p.required = false
  | some value => p.kind.accepts value = true

/-- Whether the default, if the parameter can be left out, reads as a value of the kind. No list
reads as the empty one. -/
def isReadable (p : Parameter) : Bool :=
  p.required || match p.kind, p.default with
    | .flag, some (.flag _) => true
    | .textList, none | .textList, some .null => true
    | _, _ => false

end Parameter

theorem Parameter.takes_some_iff {p : Parameter} {value : Json} (h : value ≠ .null) :
    p.Takes (some value) ↔ p.kind.accepts value = true := by
  cases value <;> simp [Parameter.Takes] at h ⊢

theorem ParameterKind.ne_null_of_accepts {kind : ParameterKind} {value : Json}
    (h : kind.accepts value = true) : value ≠ .null := by
  rintro rfl
  cases kind <;> simp [accepts] at h

theorem ParameterKind.accepts_text_iff {value : Json} :
    ParameterKind.text.accepts value = true ↔ ∃ s, value = .string s := by
  cases value <;> simp [ParameterKind.accepts]

theorem ParameterKind.accepts_flag_iff {value : Json} :
    ParameterKind.flag.accepts value = true ↔ ∃ b, value = .bool b := by
  cases value <;> simp [ParameterKind.accepts]

theorem ParameterKind.accepts_textList_iff {value : Json} :
    ParameterKind.textList.accepts value = true ↔ ∃ texts : List String,
      value = .array (texts.map .string) := by
  cases value with
  | array items =>
    simp only [ParameterKind.accepts, List.all_eq_true, Json.array.injEq]
    constructor
    · intro hitems
      induction items with
      | nil => exact ⟨[], rfl⟩
      | cons item rest ih =>
        obtain ⟨texts, rfl⟩ := ih fun i hi => hitems i (List.mem_cons_of_mem _ hi)
        have hitem := hitems item List.mem_cons_self
        cases item with
        | string s => exact ⟨s :: texts, rfl⟩
        | _ => exact absurd hitem (by simp [Json.isString])
    · rintro ⟨texts, rfl⟩ item hitem
      obtain ⟨s, _, rfl⟩ := List.mem_map.1 hitem
      rfl
  | _ => simp [ParameterKind.accepts]

namespace Arguments

/-! ## Checking -/

theorem admits_of_valueOf {p : Parameter} {raw : List (String × Json)} {value : Json}
    (h : valueOf p raw = .ok value) : p.Admits value := by
  unfold valueOf at h
  split at h
  · split at h
    · exact absurd h (by simp)
    · next hoptional => exact .inr ⟨eq_false_of_ne_true hoptional, (Except.ok.inj h).symm⟩
  · split at h
    · exact absurd h (by simp)
    · next hoptional => exact .inr ⟨eq_false_of_ne_true hoptional, (Except.ok.inj h).symm⟩
  · split at h
    · next haccepts => exact .inl (Except.ok.inj h ▸ haccepts)
    · exact absurd h (by simp)

theorem valueOf_erase {p q : Parameter} (hne : q.name ≠ p.name) (raw : List (String × Json)) :
    valueOf p (Assoc.erase q.name raw) = valueOf p raw := by
  unfold valueOf
  rw [Assoc.find?_erase, if_neg hne]

/-- Every parameter gets the value that the raw arguments give it, and no other name is touched. -/
theorem get?_of_valuesOf {parameters : List Parameter} {raw : List (String × Json)}
    {values result : Dict String Json} (hnodup : (parameters.map Parameter.name).Nodup)
    (h : valuesOf parameters raw values = .ok result) :
    (∀ p ∈ parameters, ∃ value, valueOf p raw = .ok value ∧ result.get? p.name = some value) ∧
      ∀ name ∉ parameters.map Parameter.name, result.get? name = values.get? name := by
  induction parameters generalizing raw values with
  | nil =>
    obtain rfl := Except.ok.inj h
    exact ⟨fun p hp => absurd hp List.not_mem_nil, fun _ _ => rfl⟩
  | cons q rest ih =>
    rw [List.map_cons, List.nodup_cons] at hnodup
    obtain ⟨hfresh, hrest⟩ := hnodup
    rw [valuesOf] at h
    obtain ⟨value, hvalue, h⟩ := Fallible.bind_eq_ok_iff.1 h
    obtain ⟨hvalues, hothers⟩ := ih hrest h
    constructor
    · intro p hp
      rcases List.mem_cons.1 hp with rfl | hp
      · refine ⟨value, hvalue, ?_⟩
        rw [hothers p.name hfresh, Dict.get?_insert, if_pos rfl]
      · have hne : q.name ≠ p.name := fun heq => hfresh (heq ▸ List.mem_map_of_mem hp)
        have hp' := hvalues p hp
        rwa [valueOf_erase hne] at hp'
    · intro name hname
      rw [List.map_cons, List.mem_cons, not_or] at hname
      rw [hothers name hname.2, Dict.get?_insert, if_neg (Ne.symm hname.1)]

/-- Checking reads nothing of the raw arguments but the value of each parameter. -/
theorem valuesOf_congr {parameters : List Parameter} {raw raw' : List (String × Json)}
    (h : ∀ p ∈ parameters, valueOf p raw = valueOf p raw') (values : Dict String Json) :
    valuesOf parameters raw values = valuesOf parameters raw' values := by
  induction parameters generalizing raw raw' values with
  | nil => rfl
  | cons q rest ih =>
    have hrest : ∀ p ∈ rest,
        valueOf p (Assoc.erase q.name raw) = valueOf p (Assoc.erase q.name raw') := by
      intro p hp
      by_cases hname : q.name = p.name
      · -- the name has been taken out of both
        unfold valueOf
        rw [Assoc.find?_erase, Assoc.find?_erase, if_pos hname, if_pos hname]
      · rw [valueOf_erase hname, valueOf_erase hname]
        exact h p (List.mem_cons_of_mem _ hp)
    rw [valuesOf, valuesOf, h q List.mem_cons_self]
    congr 1
    funext value
    exact ih hrest _

theorem exists_valuesOf_iff {parameters : List Parameter} {raw : List (String × Json)}
    (hnodup : (parameters.map Parameter.name).Nodup) (values : Dict String Json) :
    (∃ result, valuesOf parameters raw values = .ok result) ↔
      ∀ p ∈ parameters, ∃ value, valueOf p raw = .ok value := by
  constructor
  · rintro ⟨result, h⟩ p hp
    obtain ⟨value, hvalue, _⟩ := (get?_of_valuesOf hnodup h).1 p hp
    exact ⟨value, hvalue⟩
  · intro h
    induction parameters generalizing raw values with
    | nil => exact ⟨values, rfl⟩
    | cons q rest ih =>
      rw [List.map_cons, List.nodup_cons] at hnodup
      obtain ⟨value, hvalue⟩ := h q List.mem_cons_self
      have hrest : ∀ p ∈ rest, ∃ value, valueOf p (Assoc.erase q.name raw) = .ok value := by
        intro p hp
        have hne : q.name ≠ p.name := fun heq => hnodup.1 (heq ▸ List.mem_map_of_mem hp)
        rw [valueOf_erase hne]
        exact h p (List.mem_cons_of_mem _ hp)
      rw [valuesOf, hvalue]
      exact ih hnodup.2 _ hrest

theorem exists_valueOf_iff {p : Parameter} {raw : List (String × Json)} :
    (∃ value, valueOf p raw = .ok value) ↔ p.Takes (Assoc.find? p.name raw) := by
  unfold valueOf
  generalize Assoc.find? p.name raw = given
  split
  · cases hrequired : p.required <;> simp [Parameter.Takes, hrequired]
  · cases hrequired : p.required <;> simp [Parameter.Takes, hrequired]
  · next value hnull =>
    rw [Parameter.takes_some_iff hnull]
    cases p.kind.accepts value <;> simp

theorem validate_eq_ok_iff {d : Descriptor} {raw : List (String × Json)} {arguments : Arguments} :
    validate d raw = .ok arguments ↔
      (∀ name ∈ Assoc.keys raw, name ∈ d.parameters.map Parameter.name) ∧
        ∃ values, valuesOf d.parameters raw .empty = .ok values ∧ arguments = ⟨d.name, values⟩ := by
  have hnames : ((Assoc.keys raw).find? fun name => (d.parameter? name).isNone) = Option.none ↔
      ∀ name ∈ Assoc.keys raw, name ∈ d.parameters.map Parameter.name := by
    simp [Descriptor.parameter?, List.find?_eq_none]
  unfold validate check
  rw [← hnames]
  cases (Assoc.keys raw).find? fun name => (d.parameter? name).isNone with
  | some name => simp
  | none =>
    cases valuesOf d.parameters raw .empty with
    | error fault => simp
    | ok values => simp [eq_comm]

/-- When arguments are accepted: their names are declared, and every parameter takes what they have
for it. -/
theorem exists_validate_iff {d : Descriptor} {raw : List (String × Json)}
    (hnodup : (d.parameters.map Parameter.name).Nodup) :
    (∃ arguments, validate d raw = .ok arguments) ↔
      (∀ name ∈ Assoc.keys raw, name ∈ d.parameters.map Parameter.name) ∧
        ∀ p ∈ d.parameters, p.Takes (Assoc.find? p.name raw) := by
  simp only [validate_eq_ok_iff, ← exists_valueOf_iff, ← exists_valuesOf_iff hnodup .empty]
  constructor
  · rintro ⟨arguments, hnames, values, hvalues, _⟩
    exact ⟨hnames, values, hvalues⟩
  · rintro ⟨hnames, values, hvalues⟩
    exact ⟨⟨d.name, values⟩, hnames, values, hvalues, rfl⟩

/-- Whether every parameter has a value that it can have. -/
def Conforms (arguments : Arguments) (parameters : List Parameter) : Prop :=
  ∀ p ∈ parameters, ∃ value, arguments.values.get? p.name = some value ∧ p.Admits value

theorem conforms_of_validate {d : Descriptor} {raw : List (String × Json)} {arguments : Arguments}
    (hnodup : (d.parameters.map Parameter.name).Nodup) (h : validate d raw = .ok arguments) :
    arguments.Conforms d.parameters := by
  unfold validate at h
  split at h
  · next values hcheck =>
    obtain rfl := Except.ok.inj h
    unfold check at hcheck
    split at hcheck
    · exact absurd hcheck (by simp)
    · intro p hp
      obtain ⟨value, hvalue, hget⟩ := (get?_of_valuesOf hnodup hcheck).1 p hp
      exact ⟨value, hget, admits_of_valueOf hvalue⟩
  · exact absurd h (by simp)

/-- Checking fails in one way only. -/
theorem kind_of_validate_error {d : Descriptor} {raw : List (String × Json)} {failure : Failure}
    (h : validate d raw = .error failure) : failure.kind = .invalidArguments := by
  unfold validate at h
  split at h
  · exact absurd h (by simp)
  · obtain rfl := Except.error.inj h
    rfl

/-! ## Reading -/

/-- Whether the parameters offer a readable value of a kind under a name. -/
def Offers (parameters : List Parameter) (name : String) (kind : ParameterKind) : Prop :=
  ∃ p ∈ parameters, p.name = name ∧ p.kind = kind ∧ p.isReadable = true

instance (parameters : List Parameter) (name : String) (kind : ParameterKind) :
    Decidable (Offers parameters name kind) :=
  inferInstanceAs (Decidable (∃ p ∈ parameters, _))

variable {arguments : Arguments} {parameters : List Parameter} {name : String}

theorem exists_text (hconforms : arguments.Conforms parameters)
    (hoffers : Offers parameters name .text) : ∃ s, arguments.text name = .ok s := by
  obtain ⟨p, hp, rfl, hkind, hreadable⟩ := hoffers
  obtain ⟨value, hget, hadmits⟩ := hconforms p hp
  have hrequired : p.required = true := by simpa [Parameter.isReadable, hkind] using hreadable
  rcases hadmits with haccepts | ⟨hoptional, _⟩
  · rw [hkind, ParameterKind.accepts_text_iff] at haccepts
    obtain ⟨s, rfl⟩ := haccepts
    refine ⟨s, ?_⟩
    unfold text text?
    rw [hget]
    rfl
  · exact absurd hrequired (by simp [hoptional])

theorem exists_flag (hconforms : arguments.Conforms parameters)
    (hoffers : Offers parameters name .flag) : ∃ b, arguments.flag name = .ok b := by
  obtain ⟨p, hp, rfl, hkind, hreadable⟩ := hoffers
  obtain ⟨value, hget, hadmits⟩ := hconforms p hp
  have hbool : ∃ b, value = .bool b := by
    rcases hadmits with haccepts | ⟨hoptional, rfl⟩
    · rwa [hkind, ParameterKind.accepts_flag_iff] at haccepts
    · -- the parameter was left out, so its default is a truth value
      unfold Parameter.isReadable at hreadable
      unfold Parameter.fallback
      rw [hoptional, hkind] at hreadable
      cases hdefault : p.default with
      | none => simp [hdefault] at hreadable
      | some default =>
        cases default with
        | null => simp [hdefault] at hreadable
        | flag b => exact ⟨b, rfl⟩
  obtain ⟨b, rfl⟩ := hbool
  refine ⟨b, ?_⟩
  unfold flag
  rw [hget]
  rfl

theorem exists_textList (hconforms : arguments.Conforms parameters)
    (hoffers : Offers parameters name .textList) :
    ∃ texts, arguments.textList name = .ok texts := by
  obtain ⟨p, hp, rfl, hkind, hreadable⟩ := hoffers
  obtain ⟨value, hget, hadmits⟩ := hconforms p hp
  unfold textList
  rw [hget]
  rcases hadmits with haccepts | ⟨hoptional, rfl⟩
  · rw [hkind, ParameterKind.accepts_textList_iff] at haccepts
    obtain ⟨texts, rfl⟩ := haccepts
    refine ⟨texts, ?_⟩
    show (texts.map Json.string).mapM _ = _
    refine Fallible.mapM_map_ok ?_ texts
    exact fun _ => rfl
  · have hnull : p.fallback = .null := by
      unfold Parameter.isReadable at hreadable
      unfold Parameter.fallback
      rw [hoptional, hkind] at hreadable
      cases hdefault : p.default with
      | none => rfl
      | some default =>
        cases default with
        | null => rfl
        | flag b => simp [hdefault] at hreadable
    rw [hnull]
    exact ⟨[], rfl⟩

end Arguments

end JavaAtlas
