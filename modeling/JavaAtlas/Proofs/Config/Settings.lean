import Mathlib.Tactic.SplitIfs
import JavaAtlas.Config.Settings
import JavaAtlas.Proofs.Data.Except
import JavaAtlas.Proofs.Toml.Parts

set_option autoImplicit false

/-! # Reading the settings

Three of the settings are checked: what stands under their keys has to be of a certain kind, and the
first value that is not makes the settings unreadable, with a report that names its key (`Checks`).
The four texts are not checked: a value of another kind under their keys is passed over as if
the key were missing (`heard`). So a configuration is read as it should be exactly if no text has
such a value, or if the settings are unreadable anyway (`ofStore_asPromised_iff`). -/

namespace JavaAtlas.Config

/-! ## Kinds of values -/

/-- What a setting may be. -/
inductive SettingKind where
  | text
  | flag
  | level
  | texts
deriving DecidableEq, Repr

/-- Whether a value is of a kind. -/
def SettingKind.Admits : SettingKind → Toml.Value → Prop
  | text, value => ∃ s, value = .string s
  | flag, value => ∃ b, value = .boolean b
  | level, value => value = .integer 1 ∨ value = .integer 2
  | texts, value => ∃ items, value = .array items ∧ ∀ item ∈ items, ∃ s, item = .string s

theorem exists_mapStrings_eq_string_iff {f : String → String} {value : Toml.Value} :
    (∃ s, value.mapStrings f = .string s) ↔ ∃ s, value = .string s := by
  cases value <;> simp [Toml.Value.mapStrings]

/-- Changing the strings in a value leaves its kind as it is. -/
theorem SettingKind.admits_mapStrings_iff {kind : SettingKind} {f : String → String}
    {value : Toml.Value} : kind.Admits (value.mapStrings f) ↔ kind.Admits value := by
  cases kind with
  | text => exact exists_mapStrings_eq_string_iff
  | flag => cases value <;> simp [Admits, Toml.Value.mapStrings]
  | level => cases value <;> simp [Admits, Toml.Value.mapStrings]
  | texts =>
    cases value with
    | array items =>
      simp only [Admits, Toml.Value.mapStrings, Toml.Value.mapItems_eq, Toml.Value.array.injEq,
        exists_eq_left', List.forall_mem_map, exists_mapStrings_eq_string_iff]
    | _ => simp [Admits, Toml.Value.mapStrings]

theorem asString?_eq_some_iff {value : Toml.Value} {s : String} :
    value.asString? = some s ↔ value = .string s := by
  cases value <;> simp [Toml.Value.asString?]

/-- Values are texts if and only if they are all strings. -/
theorem mapM_asString?_eq_some_iff {items : List Toml.Value} {texts : List String} :
    items.mapM Toml.Value.asString? = some texts ↔ items = texts.map Toml.Value.string := by
  induction items generalizing texts with
  | nil => cases texts <;> simp
  | cons item rest ih =>
    cases texts with
    | nil => simp [Option.bind_eq_some_iff]
    | cons text texts => simp [Option.bind_eq_some_iff, asString?_eq_some_iff, ih]

theorem isSome_mapM_asString?_iff {items : List Toml.Value} :
    (∃ texts, items.mapM Toml.Value.asString? = some texts) ↔
      ∀ item ∈ items, ∃ s, item = .string s := by
  simp only [mapM_asString?_eq_some_iff]
  induction items with
  | nil => exact iff_of_true ⟨[], rfl⟩ (by simp)
  | cons item rest ih =>
    rw [List.forall_mem_cons, ← ih]
    constructor
    · rintro ⟨_ | ⟨text, texts⟩, h⟩
      · cases h
      · rw [List.map_cons] at h
        obtain ⟨rfl, rfl⟩ := List.cons.inj h
        exact ⟨⟨text, rfl⟩, texts, rfl⟩
    · rintro ⟨⟨text, rfl⟩, texts, rfl⟩
      exact ⟨text :: texts, rfl⟩

namespace Settings

/-! ## Keys and what stands under them -/

/-- The keys of the settings that are texts. -/
def textKeys : List String := ["analysis_json", "codeanalyzer_jar", "output_dir", "java"]

/-- The keys of the other settings in the order in which they are looked at, with their kinds. -/
def checkedKeys : List (String × SettingKind) :=
  [("eager", .flag), ("analysis_level", .level), ("exclude", .texts)]

/-- Whether a key of the settings is missing or holds a value of a kind. -/
def Fits (store : Store) (key : String) (kind : SettingKind) : Prop :=
  ∀ value, store.raw? sectionName key = some value → kind.Admits value

/-- Whether every key of the settings is missing or holds a value of its kind. -/
def AllFit (store : Store) : Prop :=
  (∀ key ∈ textKeys, Fits store key .text) ∧ ∀ entry ∈ checkedKeys, Fits store entry.1 entry.2

/-- A condition on what is found under a key, and another one for a key that is missing. -/
def Given (found : Option Toml.Value) (missing : Prop) (present : Toml.Value → Prop) : Prop :=
  match found with
  | none => missing
  | some value => present value

/-- Whether the settings are what is found under their keys, and their defaults where nothing is
found. -/
structure IsReadFrom (found : String → Option Toml.Value) (settings : Settings) : Prop where
  analysisJson : Given (found "analysis_json") (settings.analysisJson = none) fun value =>
    ∃ s, value = .string s ∧ settings.analysisJson = some (.ofString s)
  analyzerJar : Given (found "codeanalyzer_jar") (settings.analyzerJar = none) fun value =>
    ∃ s, value = .string s ∧ settings.analyzerJar = some (.ofString s)
  outputDirectory : Given (found "output_dir") (settings.outputDirectory = none) fun value =>
    ∃ s, value = .string s ∧ settings.outputDirectory = some (.ofString s)
  java : Given (found "java") (settings.java = "java") fun value => value = .string settings.java
  eager : Given (found "eager") (settings.eager = false) fun value =>
    value = .boolean settings.eager
  analysisLevel : Given (found "analysis_level") (settings.analysisLevel = 2) fun value =>
    settings.analysisLevel = 1 ∧ value = .integer 1 ∨
      settings.analysisLevel = 2 ∧ value = .integer 2
  exclude : Given (found "exclude") (settings.exclude = defaultExclude) fun value =>
    value = .array (settings.exclude.map .string)

/-- What is heard of the values under the keys: those of the texts are passed over if they are no
strings. -/
def heard (found : String → Option Toml.Value) (key : String) : Option Toml.Value :=
  if key ∈ textKeys then (found key).filter (·.asString?.isSome) else found key

/-- Whether a failure is a fault of the configuration that names a key. -/
def Names (key : String) (failure : Failure) : Prop :=
  ∃ rest, failure = .config ("analysis." ++ key ++ " must be " ++ rest)

/-! ## Settings that are checked -/

/-- What it is for a reader to check a setting: it has a result exactly if the value is missing or
of its kind, the result is the default or what the value stands for, and a failure names the
key. -/
structure Checks {α : Type} (read : Option Toml.Value → Except Failure α) (key : String)
    (kind : SettingKind) (default : α) (standsFor : Toml.Value → α → Prop) : Prop where
  ok_iff : ∀ {found a}, read found = .ok a ↔ Given found (a = default) (standsFor · a)
  exists_ok_iff : ∀ {found}, (∃ a, read found = .ok a) ↔ ∀ value ∈ found, kind.Admits value
  names_of_error : ∀ {found failure}, read found = .error failure → Names key failure

theorem names_append {key front : String} (rest more : String)
    (hfront : front = "analysis." ++ key ++ " must be " ++ rest) :
    Names key (.config (front ++ more)) :=
  ⟨rest ++ more, by rw [hfront, String.append_assoc]⟩

theorem checks_readFlag (default : Bool) :
    Checks (readFlag default) "eager" .flag default fun value b => value = .boolean b where
  ok_iff := by
    rintro (_ | value) b
    · simp [readFlag, Given, eq_comm]
    · cases value <;> simp [readFlag, Given]
  exists_ok_iff := by
    rintro (_ | value)
    · simp [readFlag]
    · cases value <;> simp [readFlag, SettingKind.Admits]
  names_of_error := by
    intro found failure h
    unfold readFlag at h
    split at h
    · cases h
    · cases h
    · cases h
      exact names_append "a boolean, got " _ (by decide)

theorem checks_readLevel (default : Nat) :
    Checks (readLevel default) "analysis_level" .level default fun value level =>
      level = 1 ∧ value = .integer 1 ∨ level = 2 ∧ value = .integer 2 where
  ok_iff := by
    rintro (_ | value) level
    · simp [readLevel, Given, eq_comm]
    · cases value with
      | integer n =>
        rw [readLevel, Given]
        split_ifs with hone htwo
        · simp [hone, eq_comm]
        · simp [htwo, eq_comm]
        · simp [hone, htwo]
      | _ => simp [readLevel, Given]
  exists_ok_iff := by
    rintro (_ | value)
    · simp [readLevel]
    · cases value with
      | integer n =>
        rw [readLevel]
        split_ifs with hone htwo <;> simp_all [SettingKind.Admits]
      | _ => simp [readLevel, SettingKind.Admits]
  names_of_error := by
    intro found failure h
    unfold readLevel at h
    split at h
    · cases h
    · split_ifs at h
      cases h
      exact names_append "1 or 2, got " _ (by decide)
    · cases h
      exact names_append "1 or 2, got " _ (by decide)

theorem checks_readTexts (default : List String) :
    Checks (readTexts default) "exclude" .texts default fun value texts =>
      value = .array (texts.map .string) where
  ok_iff := by
    rintro (_ | value) texts
    · simp [readTexts, Given, eq_comm]
    · cases value with
      | array items =>
        rw [Given, Toml.Value.array.injEq, ← mapM_asString?_eq_some_iff, readTexts]
        cases items.mapM Toml.Value.asString? <;> simp
      | _ => simp [readTexts, Given]
  exists_ok_iff := by
    rintro (_ | value)
    · simp [readTexts]
    · cases value with
      | array items =>
        simp only [Option.mem_some_iff, forall_eq', SettingKind.Admits, Toml.Value.array.injEq,
          exists_eq_left', ← isSome_mapM_asString?_iff, readTexts]
        cases items.mapM Toml.Value.asString? <;> simp
      | _ => simp [readTexts, SettingKind.Admits]
  names_of_error := by
    intro found failure h
    have hnames : Names "exclude" (.config "analysis.exclude must be a list of strings") :=
      ⟨"a list of strings", by decide⟩
    unfold readTexts at h
    split at h
    · cases h
    · split at h <;> cases h
      exact hnames
    · cases h
      exact hnames

/-! ## The settings of a store -/

variable {store : Store} {lookup : Lookup} {settings : Settings}

theorem fits_iff {key : String} {kind : SettingKind} :
    Fits store key kind ↔ ∀ value ∈ store.get? lookup sectionName key, kind.Admits value := by
  unfold Fits Store.get?
  cases store.raw? sectionName key with
  | none => simp
  | some value => simp [SettingKind.admits_mapStrings_iff]

theorem heard_of_not_mem {found : String → Option Toml.Value} {key : String}
    (hkey : key ∉ textKeys) : heard found key = found key := if_neg hkey

theorem heard_of_fits (h : ∀ key ∈ textKeys, Fits store key .text) :
    heard (store.get? lookup sectionName) = store.get? lookup sectionName := by
  funext key
  by_cases hkey : key ∈ textKeys
  · rw [heard, if_pos hkey]
    cases hfound : store.get? lookup sectionName key with
    | none => rfl
    | some value =>
      obtain ⟨s, rfl⟩ := fits_iff.1 (h key hkey) value hfound
      rfl
  · exact heard_of_not_mem hkey

/-- What is heard under the key of a text is a string. -/
theorem given_heard_iff {found : String → Option Toml.Value} {key : String} (hkey : key ∈ textKeys)
    {missing : Prop} {present : Toml.Value → Prop} :
    Given (heard found key) missing present ↔
      match (found key).bind Toml.Value.asString? with
      | none => missing
      | some s => present (.string s) := by
  rw [heard, if_pos hkey]
  cases found key with
  | none => exact Iff.rfl
  | some value => cases value <;> exact Iff.rfl

theorem path_heard_iff {found : String → Option Toml.Value} {key : String} (hkey : key ∈ textKeys)
    {path : Option Path} :
    (Given (heard found key) (path = none) fun value =>
        ∃ s, value = .string s ∧ path = some (.ofString s)) ↔
      ((found key).bind Toml.Value.asString?).map Path.ofString = path := by
  rw [given_heard_iff hkey]
  cases (found key).bind Toml.Value.asString? <;> simp [eq_comm]

theorem text_heard_iff {found : String → Option Toml.Value} {key : String} (hkey : key ∈ textKeys)
    {default text : String} :
    (Given (heard found key) (text = default) fun value => value = .string text) ↔
      ((found key).bind Toml.Value.asString?).getD default = text := by
  rw [given_heard_iff hkey]
  cases (found key).bind Toml.Value.asString? <;> simp [eq_comm]

/-- The settings of a store are read from what is heard of its values. -/
theorem ofStore_eq_ok_iff : ofStore store lookup = .ok settings ↔
    settings.IsReadFrom (heard (store.get? lookup sectionName)) := by
  have hsame : ∀ {key}, key ∉ textKeys → heard (store.get? lookup sectionName) key =
      store.get? lookup sectionName key := heard_of_not_mem
  have heager := hsame (show "eager" ∉ textKeys by decide)
  have hlevel := hsame (show "analysis_level" ∉ textKeys by decide)
  have hexclude := hsame (show "exclude" ∉ textKeys by decide)
  simp only [ofStore, Fallible.bind_eq_ok_iff]
  constructor
  · rintro ⟨eager, hflag, level, hnumber, exclude, htexts, h⟩
    obtain rfl := Except.ok.inj h
    exact {
      analysisJson := (path_heard_iff (by decide)).2 rfl
      analyzerJar := (path_heard_iff (by decide)).2 rfl
      outputDirectory := (path_heard_iff (by decide)).2 rfl
      java := (text_heard_iff (by decide)).2 rfl
      eager := heager ▸ (checks_readFlag _).ok_iff.1 hflag
      analysisLevel := hlevel ▸ (checks_readLevel _).ok_iff.1 hnumber
      exclude := hexclude ▸ (checks_readTexts _).ok_iff.1 htexts }
  · intro h
    refine ⟨settings.eager, (checks_readFlag _).ok_iff.2 (heager ▸ h.eager),
      settings.analysisLevel, (checks_readLevel _).ok_iff.2 (hlevel ▸ h.analysisLevel),
      settings.exclude, (checks_readTexts _).ok_iff.2 (hexclude ▸ h.exclude), ?_⟩
    have hjson := (path_heard_iff (by decide)).1 h.analysisJson
    have hjar := (path_heard_iff (by decide)).1 h.analyzerJar
    have houtput := (path_heard_iff (by decide)).1 h.outputDirectory
    have hjava := (text_heard_iff (by decide)).1 h.java
    unfold Store.text?
    rw [hjson, hjar, houtput, hjava]

section Checks

variable {α : Type} {read : Option Toml.Value → Except Failure α} {key : String}
  {kind : SettingKind} {default : α} {standsFor : Toml.Value → α → Prop}

theorem Checks.exists_ok_iff_fits (h : Checks read key kind default standsFor) :
    (∃ a, read (store.get? lookup sectionName key) = .ok a) ↔ Fits store key kind :=
  h.exists_ok_iff.trans fits_iff.symm

theorem Checks.fits_of_ok (h : Checks read key kind default standsFor) {a : α}
    (hok : read (store.get? lookup sectionName key) = .ok a) : Fits store key kind :=
  h.exists_ok_iff_fits.1 ⟨a, hok⟩

theorem Checks.not_fits_of_error (h : Checks read key kind default standsFor) {failure : Failure}
    (herror : read (store.get? lookup sectionName key) = .error failure) :
    ¬Fits store key kind := by
  intro hfits
  obtain ⟨a, hok⟩ := h.exists_ok_iff_fits.2 hfits
  cases herror.symm.trans hok

end Checks

/-- Reading the settings fails at the first of the checked keys that holds a value of another kind;
the failure names the key. -/
theorem exists_of_ofStore_eq_error {failure : Failure} (h : ofStore store lookup = .error failure) :
    ∃ before entry after, checkedKeys = before ++ entry :: after ∧
      (∀ earlier ∈ before, Fits store earlier.1 earlier.2) ∧ ¬Fits store entry.1 entry.2 ∧
      Names entry.1 failure := by
  rw [ofStore] at h
  rcases Fallible.bind_eq_error_iff.1 h with hflag | ⟨eager, hflag, h⟩
  · refine ⟨[], _, _, rfl, by simp, (checks_readFlag _).not_fits_of_error hflag,
      (checks_readFlag _).names_of_error hflag⟩
  have heager := (checks_readFlag _).fits_of_ok hflag
  rcases Fallible.bind_eq_error_iff.1 h with hnumber | ⟨level, hnumber, h⟩
  · refine ⟨[("eager", .flag)], _, _, rfl, by simpa using heager,
      (checks_readLevel _).not_fits_of_error hnumber, (checks_readLevel _).names_of_error hnumber⟩
  have hlevel := (checks_readLevel _).fits_of_ok hnumber
  rcases Fallible.bind_eq_error_iff.1 h with htexts | ⟨exclude, -, h⟩
  · refine ⟨[("eager", .flag), ("analysis_level", .level)], _, _, rfl,
      by simpa using ⟨heager, hlevel⟩, (checks_readTexts _).not_fits_of_error htexts,
      (checks_readTexts _).names_of_error htexts⟩
  · cases h

/-- The checked keys of settings that can be read hold values of their kinds. -/
theorem fits_of_ofStore_eq_ok (h : ofStore store lookup = .ok settings)
    {entry : String × SettingKind} (hentry : entry ∈ checkedKeys) :
    Fits store entry.1 entry.2 := by
  simp only [ofStore, Fallible.bind_eq_ok_iff] at h
  obtain ⟨eager, hflag, level, hnumber, exclude, htexts, -⟩ := h
  simp only [checkedKeys, List.mem_cons, List.not_mem_nil, or_false] at hentry
  rcases hentry with rfl | rfl | rfl
  · exact (checks_readFlag _).fits_of_ok hflag
  · exact (checks_readLevel _).fits_of_ok hnumber
  · exact (checks_readTexts _).fits_of_ok htexts

/-! ## Settings that are read as they should be -/

/-- Whether a result of reading the settings is as it should be: where every key is missing or holds
a value of its kind, the settings are these values, expanded, and defaults for missing keys alone;
otherwise there is a fault of the configuration. -/
def AsPromised (store : Store) (lookup : Lookup) : Except Failure Settings → Prop
  | .ok settings => AllFit store ∧ settings.IsReadFrom (store.get? lookup sectionName)
  | .error failure => ¬AllFit store ∧ ∃ problem, failure = .config problem

/-- **Which values of the settings are heard.** The settings of a store are made from what is heard
of the values under their keys: all of them, but for values other than strings under the keys of
texts, which are passed over in favour of the defaults. A value of another kind under a checked key
is a fault of the configuration that names the first such key. So the settings are read as
they should be exactly if every text has a string or no value, or if a checked key holds a value of
another kind. -/
theorem ofStore_asPromised_iff (store : Store) (lookup : Lookup) :
    (∀ settings, ofStore store lookup = .ok settings ↔
      settings.IsReadFrom (heard (store.get? lookup sectionName))) ∧
    (∀ failure, ofStore store lookup = .error failure →
      ∃ before entry after, checkedKeys = before ++ entry :: after ∧
        (∀ earlier ∈ before, Fits store earlier.1 earlier.2) ∧ ¬Fits store entry.1 entry.2 ∧
        Names entry.1 failure) ∧
    (AsPromised store lookup (ofStore store lookup) ↔
      (∀ key ∈ textKeys, Fits store key .text) ∨
        ∃ entry ∈ checkedKeys, ¬Fits store entry.1 entry.2) := by
  refine ⟨fun settings => ofStore_eq_ok_iff, fun failure => exists_of_ofStore_eq_error, ?_⟩
  cases hread : ofStore store lookup with
  | ok settings =>
    have hchecked : ∀ entry ∈ checkedKeys, Fits store entry.1 entry.2 := fun entry =>
      fits_of_ofStore_eq_ok hread
    constructor
    · rintro ⟨hfit, -⟩
      exact .inl hfit.1
    · rintro (htexts | ⟨entry, hentry, hmisfit⟩)
      · exact ⟨⟨htexts, hchecked⟩, heard_of_fits htexts ▸ ofStore_eq_ok_iff.1 hread⟩
      · exact absurd (hchecked entry hentry) hmisfit
  | error failure =>
    obtain ⟨before, entry, after, hkeys, -, hmisfit, rest, hfailure⟩ :=
      exists_of_ofStore_eq_error hread
    have hentry : entry ∈ checkedKeys := by simp [hkeys]
    exact iff_of_true ⟨fun hfit => hmisfit (hfit.2 entry hentry), _, hfailure⟩
      (.inr ⟨entry, hentry, hmisfit⟩)

/-! ## Values of other kinds -/

/-- A store with one value under a key of the settings. -/
def storeWith (key : String) (value : Toml.Value) : Store :=
  { table := [(sectionName, .table [(key, value)])] }

theorem ofStore_asPromised_iff_textForFlag :
    let store := storeWith "eager" (.string "yes")
    ∃ failure, ofStore store (fun _ => none) = .error failure ∧ (∃ entry ∈ checkedKeys,
      ¬Fits store entry.1 entry.2 ∧ Names entry.1 failure) ∧
      AsPromised store (fun _ => none) (.error failure) := by
  intro store
  have herror : ∃ failure, ofStore store (fun _ => none) = .error failure := ⟨_, rfl⟩
  obtain ⟨failure, herror⟩ := herror
  obtain ⟨before, entry, after, hkeys, -, hmisfit, hnames⟩ :=
    (ofStore_asPromised_iff store fun _ => none).2.1 failure herror
  have hentry : entry ∈ checkedKeys := by simp [hkeys]
  refine ⟨failure, herror, ⟨entry, hentry, hmisfit, hnames⟩, ?_⟩
  rw [← herror]
  exact (ofStore_asPromised_iff store fun _ => none).2.2.2 (.inr ⟨entry, hentry, hmisfit⟩)

/-- A number under the key of a text is passed over. -/
theorem number_for_java_passed_over :
    let store := storeWith "java" (.integer 5)
    (∃ settings, ofStore store (fun _ => none) = .ok settings ∧ settings.java = "java") ∧
      ¬AsPromised store (fun _ => none) (ofStore store fun _ => none) := by
  intro store
  have hread : ∃ settings, ofStore store (fun _ => none) = .ok settings ∧
      settings.java = "java" := ⟨_, rfl, rfl⟩
  refine ⟨hread, ?_⟩
  obtain ⟨settings, hread, -⟩ := hread
  rw [hread]
  rintro ⟨hfit, -⟩
  obtain ⟨s, hs⟩ := hfit.1 "java" (by decide) (.integer 5) rfl
  cases hs

end Settings

end JavaAtlas.Config
