import Mathlib.Data.List.Infix
import Mathlib.Data.List.TakeWhile
import JavaAtlas.Config.Reference

set_option autoImplicit false

/-! # Expanding a text

A text is cut from left to right into references, each as long as it can be, and the single
characters between them (`Cut`). There is one such cut (`exists_cut`, `Cut.unique`), which depends
on no variable, and the expansion joins what its pieces stand for (`Cut.value_eq`). What is put
in is therefore never read again, and only the names in the cut matter. A character that occurs in
no reference is a piece of its own, whatever stands around it (`Cut.append`). -/

namespace JavaAtlas.Config

/-! ## References as they are written -/

/-- Whether some characters are a name. -/
def IsName (name : List Char) : Prop := name ≠ [] ∧ ∀ c ∈ name, Text.isWord c = true

/-- Whether some letters spell `env`, in any letter case. -/
def SpellsEnv (letters : List Char) : Prop := letters.map Char.toLower = ['e', 'n', 'v']

/-- The characters other than those of names that occur in references. -/
def marks : List Char := ['$', '\x7b', '\x7d', ':']

theorem not_isWord_of_mem_marks {c : Char} (h : c ∈ marks) : Text.isWord c = false := by
  simp only [marks, List.mem_cons, List.not_mem_nil, or_false] at h
  rcases h with rfl | rfl | rfl | rfl <;> decide

theorem isWord_of_toLower {c : Char} (h : c.toLower ∈ ['e', 'n', 'v']) : Text.isWord c = true := by
  unfold Char.toLower at h
  split at h
  · next hrange =>
    have hupper : c.isUpper = true := decide_eq_true hrange
    have hsmall : c.toNat < 128 :=
      Nat.lt_of_le_of_lt (UInt32.le_iff_toNat_le.1 hrange.2) (by decide)
    have hword := Text.isWord_of_isAlphanum_or_underscore ⟨c.toNat, hsmall⟩
    rw [Char.ofNat_toNat] at hword
    refine hword ?_
    show (c.isUpper || c.isLower || c.isDigit || c == '_') = true
    rw [hupper]
    rfl
  · revert h
    simp only [List.mem_cons, List.not_mem_nil, or_false]
    rintro (rfl | rfl | rfl) <;> decide

theorem SpellsEnv.isWord {letters : List Char} (h : SpellsEnv letters) {c : Char}
    (hc : c ∈ letters) : Text.isWord c = true :=
  isWord_of_toLower (h ▸ List.mem_map_of_mem hc)

theorem spellsEnv_iff {letters : List Char} : SpellsEnv letters ↔ ∃ e n v,
    letters = [e, n, v] ∧ e.toLower = 'e' ∧ n.toLower = 'n' ∧ v.toLower = 'v' := by
  simp only [SpellsEnv, List.map_eq_cons_iff, List.map_eq_nil_iff]
  constructor
  · rintro ⟨e, _, rfl, he, n, _, rfl, hn, v, _, rfl, hv, rfl⟩
    exact ⟨e, n, v, rfl, he, hn, hv⟩
  · rintro ⟨e, n, v, rfl, he, hn, hv⟩
    exact ⟨e, _, rfl, he, n, _, rfl, hn, v, _, rfl, hv, rfl⟩

namespace Reference

/-- Whether a reference is written in one of the three ways. -/
inductive IsWritten : Reference → Prop where
  | plain {name : List Char} (hname : IsName name) : IsWritten ⟨name, '$' :: name⟩
  | braced {name : List Char} (hname : IsName name) :
      IsWritten ⟨name, '$' :: '\x7b' :: name ++ ['\x7d']⟩
  | env {letters name : List Char} (hletters : SpellsEnv letters) (hname : IsName name) :
      IsWritten ⟨name, letters ++ ':' :: name⟩

/-- Whether a text begins with a reference. -/
def Begins (reference : Reference) (text : List Char) : Prop :=
  reference.IsWritten ∧ reference.spelling <+: text

/-- Whether a reference is the longest one with which a text begins. -/
def LongestIn (reference : Reference) (text : List Char) : Prop :=
  reference.Begins text ∧
    ∀ other : Reference, other.Begins text → other.spelling.length ≤ reference.spelling.length

variable {reference other : Reference} {text : List Char}

theorem IsWritten.spelling_ne_nil (h : reference.IsWritten) : reference.spelling ≠ [] := by
  cases h with
  | plain => exact List.cons_ne_nil _ _
  | braced => exact List.cons_ne_nil _ _
  | env => exact List.append_ne_nil_of_right_ne_nil _ (List.cons_ne_nil _ _)

/-- A reference is made of word characters and marks. -/
theorem IsWritten.mem_spelling (h : reference.IsWritten) {c : Char} (hc : c ∈ reference.spelling) :
    Text.isWord c = true ∨ c ∈ marks := by
  cases h with
  | plain hname =>
    rcases List.mem_cons.1 hc with rfl | hc
    · exact .inr (by decide)
    · exact .inl (hname.2 c hc)
  | braced hname =>
    simp only [List.mem_append, List.mem_cons, List.not_mem_nil, or_false] at hc
    rcases hc with (rfl | rfl | hc) | rfl
    · exact .inr (by decide)
    · exact .inr (by decide)
    · exact .inl (hname.2 c hc)
    · exact .inr (by decide)
  | env hletters hname =>
    simp only [List.mem_append, List.mem_cons] at hc
    rcases hc with hc | rfl | hc
    · exact .inl (hletters.isWord hc)
    · exact .inr (by decide)
    · exact .inl (hname.2 c hc)

/-- A reference begins with a dollar sign or holds `env` and a colon. -/
theorem IsWritten.mark (h : reference.IsWritten) :
    '$' ∈ reference.spelling ∨
      ∃ letters, SpellsEnv letters ∧ letters ++ [':'] <:+: reference.spelling := by
  cases h with
  | plain => exact .inl List.mem_cons_self
  | braced => exact .inl List.mem_cons_self
  | @env letters name hletters =>
    exact .inr ⟨letters, hletters, List.IsPrefix.isInfix ⟨name, List.append_assoc ..⟩⟩

/-! ## The reference that is found -/

/-- What stands at the start of a text in front of a name. -/
theorem named?_eq_some_iff {before cs : List Char} : named? before cs = some reference ↔
    IsName (cs.takeWhile Text.isWord) ∧
      ⟨cs.takeWhile Text.isWord, before ++ cs.takeWhile Text.isWord⟩ = reference := by
  have hword : ∀ c ∈ cs.takeWhile Text.isWord, Text.isWord c = true :=
    fun c hc => List.mem_takeWhile_imp hc
  simp only [named?, List.isEmpty_iff, IsName, and_iff_left hword]
  split <;> simp [*]

theorem braced?_eq_some_iff {cs : List Char} : braced? cs = some reference ↔
    IsName (cs.takeWhile Text.isWord) ∧ (cs.dropWhile Text.isWord).head? = some '\x7d' ∧
      ⟨cs.takeWhile Text.isWord, '$' :: '\x7b' :: cs.takeWhile Text.isWord ++ ['\x7d']⟩ =
        reference := by
  have hword : ∀ c ∈ cs.takeWhile Text.isWord, Text.isWord c = true :=
    fun c hc => List.mem_takeWhile_imp hc
  simp only [braced?, List.isEmpty_iff, IsName, and_iff_left hword]
  split
  · simp [*]
  · split <;> simp [*]

theorem atStart?_dollar {rest : List Char} (h : rest.head? ≠ some '\x7b') :
    atStart? ('$' :: rest) = named? ['$'] rest := by
  cases rest with
  | nil => rfl
  | cons c rest =>
    have hc : c ≠ '\x7b' := fun hc => h (congrArg some hc)
    simp [atStart?, hc]

theorem atStart?_letters {letters : List Char} (h : SpellsEnv letters) (rest : List Char) :
    atStart? (letters ++ ':' :: rest) = named? (letters ++ [':']) rest := by
  obtain ⟨e, n, v, rfl, he, hn, hv⟩ := spellsEnv_iff.1 h
  have hdollar : e ≠ '$' := by
    rintro rfl
    exact absurd he (by decide)
  simp [atStart?, hdollar, he, hn, hv]

/-- What is found stands at the start of the text. -/
theorem begins_of_atStart? (h : atStart? text = some reference) : reference.Begins text := by
  unfold atStart? at h
  split at h
  · next rest =>
    obtain ⟨hname, hclosed, rfl⟩ := braced?_eq_some_iff.1 h
    obtain ⟨after, hafter⟩ := List.head?_eq_some_iff.1 hclosed
    refine ⟨.braced hname, after, ?_⟩
    show '$' :: '\x7b' :: (rest.takeWhile Text.isWord ++ ['\x7d'] ++ after) = _
    rw [List.append_assoc, List.singleton_append, ← hafter, List.takeWhile_append_dropWhile]
  · next rest _ =>
    obtain ⟨hname, rfl⟩ := named?_eq_some_iff.1 h
    exact ⟨.plain hname, List.cons_prefix_cons.2 ⟨rfl, List.takeWhile_prefix _⟩⟩
  · next e n v rest _ _ =>
    split at h
    · next hletters =>
      obtain ⟨hname, rfl⟩ := named?_eq_some_iff.1 h
      have henv : SpellsEnv [e, n, v] := spellsEnv_iff.2 ⟨e, n, v, rfl, hletters⟩
      refine ⟨.env henv hname, ?_⟩
      exact (List.prefix_append_right_inj [e, n, v, ':']).2 (List.takeWhile_prefix _)
    · exact nomatch h
  · exact nomatch h

theorem exists_named? {name : List Char} (before after : List Char) (h : IsName name) :
    ∃ longest, named? before (name ++ after) = some longest ∧
      before.length + name.length ≤ longest.spelling.length := by
  have htake : (name ++ after).takeWhile Text.isWord = name ++ after.takeWhile Text.isWord :=
    List.takeWhile_append_of_pos h.2
  refine ⟨⟨_, _⟩, named?_eq_some_iff.2 ⟨?_, rfl⟩, ?_⟩
  · rw [htake]
    refine ⟨List.append_ne_nil_of_left_ne_nil h.1 _, fun c hc => ?_⟩
    rcases List.mem_append.1 hc with hc | hc
    · exact h.2 c hc
    · exact List.mem_takeWhile_imp hc
  · simp only [htake, List.length_append]
    omega

/-- Where the text begins with a reference, one is found that is no shorter. -/
theorem exists_atStart? (h : reference.Begins text) : ∃ longest, atStart? text = some longest ∧
    reference.spelling.length ≤ longest.spelling.length := by
  obtain ⟨hwritten, after, rfl⟩ := h
  cases hwritten with
  | @plain name hname =>
    obtain ⟨longest, hlongest, hlength⟩ := exists_named? ['$'] after hname
    have hbrace : (name ++ after).head? ≠ some '\x7b' := by
      intro hbrace
      rw [List.head?_append_of_ne_nil _ hname.1] at hbrace
      exact absurd (hname.2 _ (List.mem_of_mem_head? hbrace)) (by decide)
    rw [List.cons_append, atStart?_dollar hbrace]
    exact ⟨longest, hlongest, by simpa [Nat.add_comm] using hlength⟩
  | @braced name hname =>
    have htake : (name ++ '\x7d' :: after).takeWhile Text.isWord = name := by
      rw [List.takeWhile_append_of_pos hname.2, List.takeWhile_cons_of_neg (by decide),
        List.append_nil]
    have hdrop : (name ++ '\x7d' :: after).dropWhile Text.isWord = '\x7d' :: after := by
      rw [List.dropWhile_append_of_pos hname.2, List.dropWhile_cons_of_neg (by decide)]
    refine ⟨_, ?_, Nat.le_refl _⟩
    rw [List.append_assoc, List.cons_append, List.cons_append, List.singleton_append]
    exact braced?_eq_some_iff.2 (by simp [htake, hdrop, hname])
  | @env letters name hletters hname =>
    obtain ⟨longest, hlongest, hlength⟩ := exists_named? (letters ++ [':']) after hname
    rw [List.append_assoc, List.cons_append, atStart?_letters hletters]
    refine ⟨longest, hlongest, ?_⟩
    simp only [List.length_append, List.length_cons, List.length_nil] at hlength ⊢
    omega

/-- The name of a reference stands behind a mark and goes on to the end, but for a brace. -/
theorem IsWritten.frame (h : reference.IsWritten) : ∃ before mark after,
    reference.spelling = before ++ mark :: (reference.name ++ after) ∧ IsName reference.name ∧
      mark ∈ marks ∧ ∀ c ∈ after, c ∈ marks := by
  cases h with
  | plain hname => exact ⟨[], '$', [], by simp, hname, by decide, List.forall_mem_nil _⟩
  | braced hname => exact ⟨['$'], '\x7b', ['\x7d'], rfl, hname, by decide, by simp [marks]⟩
  | @env letters _ _ hname =>
    exact ⟨letters, ':', [], by simp, hname, by decide, List.forall_mem_nil _⟩

/-- The name is the last run of word characters of the spelling. -/
theorem IsWritten.name_eq (h : reference.IsWritten) : reference.name =
    ((reference.spelling.reverse.dropWhile fun c => !Text.isWord c).takeWhile
      Text.isWord).reverse := by
  obtain ⟨before, mark, after, hspelling, ⟨hne, hword⟩, hmark, hafter⟩ := h.frame
  have hskipped : ∀ c ∈ after.reverse, (!Text.isWord c) = true := by
    intro c hc
    rw [not_isWord_of_mem_marks (hafter c (List.mem_reverse.1 hc)), Bool.not_false]
  have hread : ∀ c ∈ reference.name.reverse, Text.isWord c = true :=
    fun c hc => hword c (List.mem_reverse.1 hc)
  have hreverse : reference.spelling.reverse =
      after.reverse ++ (reference.name.reverse ++ mark :: before.reverse) := by
    rw [hspelling]
    simp
  rw [hreverse, List.dropWhile_append_of_pos hskipped]
  obtain ⟨c, rest, hcons⟩ := List.exists_cons_of_ne_nil (List.reverse_ne_nil_iff.2 hne)
  have hfirst : Text.isWord c = true := hread c (hcons ▸ List.mem_cons_self)
  have hkept : (reference.name.reverse ++ mark :: before.reverse).dropWhile (!Text.isWord ·) =
      reference.name.reverse ++ mark :: before.reverse := by
    rw [hcons]
    simp [hfirst]
  rw [hkept, List.takeWhile_append_of_pos hread, List.takeWhile_cons_of_neg
    (by simp [not_isWord_of_mem_marks hmark]), List.append_nil, List.reverse_reverse]

theorem IsWritten.ext (h : reference.IsWritten) (hother : other.IsWritten)
    (hspelling : reference.spelling = other.spelling) : reference = other := by
  have hname : reference.name = other.name := by rw [h.name_eq, hother.name_eq, hspelling]
  cases reference
  cases other
  exact (mk.injEq ..).mpr ⟨hname, hspelling⟩

theorem LongestIn.unique (h : reference.LongestIn text) (hother : other.LongestIn text) :
    reference = other := by
  have hlength : reference.spelling.length = other.spelling.length :=
    Nat.le_antisymm (hother.2 _ h.1) (h.2 _ hother.1)
  refine h.1.1.ext hother.1.1 ?_
  exact (List.prefix_of_prefix_length_le h.1.2 hother.1.2 hlength.le).eq_of_length hlength

theorem longestIn_of_atStart? (h : atStart? text = some reference) : reference.LongestIn text := by
  refine ⟨begins_of_atStart? h, fun other hother => ?_⟩
  obtain ⟨longest, hlongest, hlength⟩ := exists_atStart? hother
  obtain rfl := Option.some.inj (h.symm.trans hlongest)
  exact hlength

theorem atStart?_eq_some_iff : atStart? text = some reference ↔ reference.LongestIn text := by
  refine ⟨longestIn_of_atStart?, fun h => ?_⟩
  obtain ⟨longest, hlongest, -⟩ := exists_atStart? h.1
  rw [hlongest, (longestIn_of_atStart? hlongest).unique h]

theorem atStart?_eq_none_iff :
    atStart? text = none ↔ ∀ reference : Reference, ¬reference.Begins text := by
  constructor
  · intro hnone reference hbegins
    obtain ⟨longest, hlongest, -⟩ := exists_atStart? hbegins
    exact nomatch hnone.symm.trans hlongest
  · intro hbegins
    rw [Option.eq_none_iff_forall_ne_some]
    exact fun reference h => hbegins reference (begins_of_atStart? h)

end Reference

/-! ## Cutting a text into pieces -/

/-- A piece of a text: a reference, or a character outside all references. -/
inductive Piece where
  | character (c : Char)
  | reference (reference : Reference)
deriving Repr, DecidableEq

namespace Piece

/-- The piece as it is written. -/
def spelling : Piece → List Char
  | character c => [c]
  | reference found => found.spelling

/-- What the piece stands for. -/
def value (lookup : Lookup) : Piece → List Char
  | character c => [c]
  | reference found => found.replacement lookup

end Piece

/-- Whether a text is cut from left to right into some pieces, with a reference wherever one can
begin, as long as it can be. -/
inductive Cut : List Char → List Piece → Prop where
  | nil : Cut [] []
  | character {c : Char} {rest : List Char} {pieces : List Piece}
      (hnone : ∀ reference : Reference, ¬reference.Begins (c :: rest)) (hrest : Cut rest pieces) :
      Cut (c :: rest) (.character c :: pieces)
  | reference {reference : Reference} {rest : List Char} {pieces : List Piece}
      (hlongest : reference.LongestIn (reference.spelling ++ rest)) (hrest : Cut rest pieces) :
      Cut (reference.spelling ++ rest) (.reference reference :: pieces)

/-- Characters that have been dealt with are skipped. -/
theorem expandFrom_length (lookup : Lookup) (skipped rest : List Char) :
    expandFrom lookup skipped.length (skipped ++ rest) = expandFrom lookup 0 rest := by
  induction skipped with
  | nil => rfl
  | cons c skipped ih => rw [List.length_cons, List.cons_append, expandFrom, ih]

theorem exists_cut (text : List Char) : ∃ pieces, Cut text pieces := by
  induction hlength : text.length using Nat.strong_induction_on generalizing text with
  | _ n ih =>
    subst hlength
    cases text with
    | nil => exact ⟨[], .nil⟩
    | cons c rest =>
      cases hfound : Reference.atStart? (c :: rest) with
      | none =>
        obtain ⟨pieces, hpieces⟩ := ih rest.length (Nat.lt_succ_self _) rest rfl
        exact ⟨_, .character (Reference.atStart?_eq_none_iff.1 hfound) hpieces⟩
      | some reference =>
        have hlongest := Reference.atStart?_eq_some_iff.1 hfound
        obtain ⟨after, hafter⟩ := hlongest.1.2
        have hshorter : after.length < (c :: rest).length := by
          have hspelling := List.length_pos_of_ne_nil hlongest.1.1.spelling_ne_nil
          rw [← hafter, List.length_append]
          omega
        obtain ⟨pieces, hpieces⟩ := ih after.length hshorter after rfl
        rw [← hafter] at hlongest ⊢
        exact ⟨_, .reference hlongest hpieces⟩

namespace Cut

variable {text : List Char} {pieces others : List Piece}

theorem spelling (h : Cut text pieces) : pieces.flatMap Piece.spelling = text := by
  induction h with
  | nil => rfl
  | character _ _ ih => rw [List.flatMap_cons, ih]; rfl
  | reference _ _ ih => rw [List.flatMap_cons, ih]; rfl

theorem unique (h : Cut text pieces) (hother : Cut text others) : pieces = others := by
  induction h generalizing others with
  | nil =>
    generalize htext : ([] : List Char) = text at hother
    cases hother with
    | nil => rfl
    | character => exact nomatch htext
    | reference hlongest =>
      exact absurd (List.append_eq_nil_iff.1 htext.symm).1 hlongest.1.1.spelling_ne_nil
  | @character c rest _ hnone _ ih =>
    generalize htext : c :: rest = text at hother
    cases hother with
    | nil => exact nomatch htext
    | character _ hrest =>
      obtain ⟨rfl, rfl⟩ := List.cons.inj htext
      rw [ih hrest]
    | reference hlongest => exact absurd (htext ▸ hlongest.1) (hnone _)
  | @reference found rest _ hlongest _ ih =>
    generalize htext : found.spelling ++ rest = text at hother
    rw [htext] at hlongest
    cases hother with
    | nil => exact absurd (List.append_eq_nil_iff.1 htext).1 hlongest.1.1.spelling_ne_nil
    | character hnone => exact absurd hlongest.1 (hnone _)
    | reference hother hrest =>
      obtain rfl := hlongest.unique hother
      rw [ih (List.append_cancel_left htext ▸ hrest)]

theorem value_eq (h : Cut text pieces) (lookup : Lookup) :
    expandFrom lookup 0 text = pieces.flatMap (Piece.value lookup) := by
  induction h with
  | nil => rfl
  | @character c rest _ hnone _ ih =>
    rw [expandFrom, Reference.atStart?_eq_none_iff.2 hnone, List.flatMap_cons, ih]
    rfl
  | @reference found rest _ hlongest _ ih =>
    obtain ⟨c, tail, hspelling⟩ := List.exists_cons_of_ne_nil hlongest.1.1.spelling_ne_nil
    have hfound := Reference.atStart?_eq_some_iff.2 hlongest
    rw [hspelling, List.cons_append] at hfound ⊢
    rw [expandFrom, hfound, List.flatMap_cons, ← ih]
    simp only [hspelling, List.length_cons, Nat.add_sub_cancel, expandFrom_length]
    rfl

/-- The references of a cut are written in the text. -/
theorem isWritten_of_mem (h : Cut text pieces) {found : Reference}
    (hmem : .reference found ∈ pieces) : found.IsWritten ∧ found.spelling <:+: text := by
  induction h with
  | nil => exact absurd hmem List.not_mem_nil
  | @character c rest _ _ _ ih =>
    obtain ⟨hwritten, hpart⟩ := ih ((List.mem_cons.1 hmem).resolve_left nofun)
    exact ⟨hwritten, hpart.trans (List.suffix_cons c rest).isInfix⟩
  | reference hlongest _ ih =>
    rcases List.mem_cons.1 hmem with heq | hmem
    · obtain rfl := Piece.reference.inj heq
      exact ⟨hlongest.1.1, (List.prefix_append _ _).isInfix⟩
    · obtain ⟨hwritten, hpart⟩ := ih hmem
      exact ⟨hwritten, hpart.trans (List.suffix_append _ _).isInfix⟩

end Cut

/-! ## A character between two texts -/

section Between

variable {c : Char} {before after : List Char}

theorem prefix_of_prefix_append_cons {chars : List Char} (hc : c ∉ chars)
    (h : chars <+: before ++ c :: after) : chars <+: before := by
  rcases List.prefix_or_prefix_of_prefix h (List.prefix_append before (c :: after)) with
    hshort | ⟨rest, rfl⟩
  · exact hshort
  · cases rest with
    | nil => rw [List.append_nil]
    | cons d rest =>
      obtain ⟨rfl, -⟩ := List.cons_prefix_cons.1 ((List.prefix_append_right_inj before).1 h)
      exact absurd (List.mem_append_right _ List.mem_cons_self) hc

variable (hword : Text.isWord c = false) (hmarks : c ∉ marks)
include hword hmarks

/-- A reference does not reach a character that occurs in none. -/
theorem Reference.begins_append_cons_iff {reference : Reference} :
    reference.Begins (before ++ c :: after) ↔ reference.Begins before := by
  refine and_congr_right fun hwritten => ⟨prefix_of_prefix_append_cons fun hc => ?_, fun h => ?_⟩
  · rcases hwritten.mem_spelling hc with hc | hc
    · exact absurd (hword.symm.trans hc) (by decide)
    · exact hmarks hc
  · exact h.trans (List.prefix_append _ _)

theorem Reference.longestIn_append_cons_iff {reference : Reference} :
    reference.LongestIn (before ++ c :: after) ↔ reference.LongestIn before := by
  simp only [LongestIn, begins_append_cons_iff hword hmarks]

theorem Cut.append {pieces others : List Piece} (h : Cut before pieces)
    (hafter : Cut after others) : Cut (before ++ c :: after) (pieces ++ .character c :: others) := by
  induction h with
  | nil =>
    refine .character (fun reference hbegins => ?_) hafter
    rw [← List.nil_append (c :: after), Reference.begins_append_cons_iff hword hmarks] at hbegins
    exact hbegins.1.spelling_ne_nil (List.prefix_nil.1 hbegins.2)
  | character hnone _ ih =>
    refine .character (fun reference hbegins => hnone reference ?_) ih
    exact (Reference.begins_append_cons_iff hword hmarks).1 hbegins
  | reference hlongest _ ih =>
    rw [List.append_assoc]
    refine .reference ?_ ih
    rw [← List.append_assoc]
    exact (Reference.longestIn_append_cons_iff hword hmarks).2 hlongest

end Between

/-! ## What an expansion changes -/

section Expand

variable {lookup other : Lookup} {text name : String} {pieces : List Piece}

theorem expand_of_cut (h : Cut text.toList pieces) (lookup : Lookup) :
    expand lookup text = String.ofList (pieces.flatMap (Piece.value lookup)) := by
  rw [expand, h.value_eq]

/-- Whether a text refers to a variable. -/
def RefersTo (text name : String) : Prop := ∃ pieces found,
  Cut text.toList pieces ∧ .reference found ∈ pieces ∧ String.ofList found.name = name

/-- Whether a text holds no dollar sign and no `env:`, in any letter case. -/
def HasNoMark (text : String) : Prop :=
  '$' ∉ text.toList ∧ ∀ letters, SpellsEnv letters → ¬letters ++ [':'] <:+: text.toList

theorem not_refersTo_of_hasNoMark (h : HasNoMark text) : ¬RefersTo text name := by
  rintro ⟨pieces, found, hcut, hmem, -⟩
  obtain ⟨hwritten, hpart⟩ := hcut.isWritten_of_mem hmem
  rcases hwritten.mark with hdollar | ⟨letters, hletters, henv⟩
  · exact h.1 (hpart.subset hdollar)
  · exact h.2 letters hletters (henv.trans hpart)

/-- Only the variables to which a text refers matter. -/
theorem expand_congr (h : ∀ name, RefersTo text name → lookup name = other name) :
    expand lookup text = expand other text := by
  obtain ⟨pieces, hcut⟩ := exists_cut text.toList
  rw [expand_of_cut hcut, expand_of_cut hcut]
  congr 1
  refine List.flatMap_congr fun piece hpiece => ?_
  cases piece with
  | character c => rfl
  | reference found =>
    rw [Piece.value, Piece.value, Reference.replacement, Reference.replacement,
      h _ ⟨pieces, found, hcut, hpiece, rfl⟩]

/-- Without variables, every reference stays as it is written. -/
theorem expand_none (text : String) : expand (fun _ => none) text = text := by
  obtain ⟨pieces, hcut⟩ := exists_cut text.toList
  have hvalue : Piece.value (fun _ => none) = Piece.spelling := by
    funext piece
    cases piece <;> rfl
  rw [expand_of_cut hcut, hvalue, hcut.spelling, String.ofList_toList]

theorem expand_eq_self (h : ∀ name, RefersTo text name → lookup name = none) :
    expand lookup text = text :=
  (expand_congr h).trans (expand_none text)

theorem expand_append {c : Char} (hword : Text.isWord c = false) (hmarks : c ∉ marks)
    (lookup : Lookup) (before after : String) :
    expand lookup (before ++ String.singleton c ++ after) =
      expand lookup before ++ String.singleton c ++ expand lookup after := by
  obtain ⟨pieces, hbefore⟩ := exists_cut before.toList
  obtain ⟨others, hafter⟩ := exists_cut after.toList
  have hcut : Cut (before ++ String.singleton c ++ after).toList
      (pieces ++ .character c :: others) := by
    rw [String.toList_append, String.toList_append, String.toList_singleton, List.append_assoc]
    exact hbefore.append hword hmarks hafter
  rw [expand_of_cut hcut, expand_of_cut hbefore, expand_of_cut hafter, ← String.toList_inj]
  simp [Piece.value]

end Expand

/-- **Expanding a text.** A text has one cut into references and characters outside them, whatever
the variables are; its expansion joins what the pieces stand for, and a value that is put in is such
a piece as it is. So a text stays as it is without variables, or without a mark of a reference; only
the variables to which it refers matter; and a character that occurs in no reference divides the
text. -/
theorem expand_changes_references (lookup : Lookup) (text : String) :
    (∃! pieces, Cut text.toList pieces) ∧
    (∀ pieces, Cut text.toList pieces → pieces.flatMap Piece.spelling = text.toList ∧
      (expand lookup text).toList = pieces.flatMap (Piece.value lookup)) ∧
    ((∀ name, lookup name = none) ∨ HasNoMark text → expand lookup text = text) ∧
    (∀ other : Lookup, (∀ name, RefersTo text name → lookup name = other name) →
      expand lookup text = expand other text) ∧
    ∀ (after : String) (c : Char), Text.isWord c = false → c ∉ marks →
      expand lookup (text ++ String.singleton c ++ after) =
        expand lookup text ++ String.singleton c ++ expand lookup after := by
  refine ⟨?_, fun pieces hcut => ⟨hcut.spelling, ?_⟩, ?_, fun other h => expand_congr h,
    fun after c hword hmarks => expand_append hword hmarks lookup text after⟩
  · obtain ⟨pieces, hcut⟩ := exists_cut text.toList
    exact ⟨pieces, hcut, fun others hothers => hothers.unique hcut⟩
  · rw [expand_of_cut hcut, String.toList_ofList]
  · rintro (hnone | hmark)
    · exact expand_eq_self fun name _ => hnone name
    · exact expand_eq_self fun name hname => absurd hname (not_refersTo_of_hasNoMark hmark)

/-- The variable `HOME`, whose value refers to `USER`, and what else there may be. -/
def homeAnd (others : Option String) : Lookup := fun name =>
  if name = "HOME" then some "$\x7bUSER\x7d" else others

theorem refersTo_home {name : String} (h : RefersTo "$HOME" name) : name = "HOME" := by
  obtain ⟨pieces, found, hcut, hmem, rfl⟩ := h
  let home : Reference := ⟨"HOME".toList, "$HOME".toList⟩
  have hhome : Cut "$HOME".toList [.reference home] :=
    @Cut.reference home [] [] (Reference.atStart?_eq_some_iff.1 (by decide +kernel)) .nil
  rw [hcut.unique hhome, List.mem_singleton] at hmem
  obtain rfl := Piece.reference.inj hmem
  rfl

theorem expand_changes_references_home :
    let lookup := homeAnd none
    let other := homeAnd (some "root")
    (∀ name, RefersTo "$HOME" name → lookup name = other name) ∧
      expand lookup "$HOME" = expand other "$HOME" ∧
    (Text.isWord '-' = false ∧ '-' ∉ marks) ∧
      expand other ("$HOME" ++ String.singleton '-' ++ "Env:USER") = "$\x7bUSER\x7d-root" ∧
    HasNoMark "HOME" ∧ expand other "HOME" = "HOME" ∧
    expand (fun _ => none) "$HOME-$\x7bHOME" = "$HOME-$\x7bHOME" := by
  intro lookup other
  have hagree : ∀ name, RefersTo "$HOME" name → lookup name = other name := by
    intro name hname
    rw [refersTo_home hname]
    rfl
  have hdash : Text.isWord '-' = false ∧ '-' ∉ marks := by decide
  have hmark : HasNoMark "HOME" := by
    refine ⟨by decide, fun letters _ hpart => ?_⟩
    exact absurd (hpart.subset (List.mem_append_right _ List.mem_cons_self)) (by decide)
  have hsame := (expand_changes_references lookup "$HOME").2.2.2.1 other hagree
  have hdivided := (expand_changes_references other "$HOME").2.2.2.2 "Env:USER" '-' hdash.1 hdash.2
  have hplain := (expand_changes_references other "HOME").2.2.1 (.inr hmark)
  refine ⟨hagree, hsame, hdash, hdivided.trans (by decide +kernel), hmark, hplain, ?_⟩
  exact (expand_changes_references _ _).2.2.1 (.inl fun _ => rfl)

end JavaAtlas.Config
