import JavaAtlas.Proofs.Java.Stripping

set_option autoImplicit false

/-! # Stripped text has no comments

Dropping a comment puts side by side what stood around it. No comment arises from that, since a
slash in front of a comment would have been part of it; and no literal changes, unless two strings
were apart by comments alone. So the lexemes of the stripped text are those of the text, with the
line breaks of comments in the place of the comments (`isLexing_remnants`). -/

namespace JavaAtlas.Java

/-- Whether a comment comes first. -/
def beginsWithComment : List Lexeme → Bool
  | [] => false
  | lexeme :: _ => lexeme.isComment

/-- Whether a string comes first, when comments are passed over. -/
def reachesString : List Lexeme → Bool
  | [] => false
  | lexeme :: rest => if lexeme.isComment then reachesString rest else lexeme.isString

/-- Whether no two strings are separated by comments alone. -/
def StringsApart : List Lexeme → Bool
  | [] => true
  | lexeme :: rest =>
    !(lexeme.isString && beginsWithComment rest && reachesString rest) && StringsApart rest

/-- What stripping makes of a lexeme: of a comment, the line breaks as characters of code. -/
def Lexeme.remnants (lexeme : Lexeme) : List Lexeme :=
  if lexeme.isComment then lexeme.kept.map .code else [lexeme]

/-- What stripping makes of some lexemes. -/
def remnants (lexemes : List Lexeme) : List Lexeme := lexemes.flatMap Lexeme.remnants

/-! ## The text of what is left -/

theorem spelled_append (lexemes others : List Lexeme) :
    spelled (lexemes ++ others) = spelled lexemes ++ spelled others := List.flatMap_append

theorem spelled_map_code (cs : List Char) : spelled (cs.map .code) = cs := by
  unfold spelled
  rw [List.flatMap_map]
  exact List.flatMap_singleton' cs

theorem Lexeme.spelled_remnants (lexeme : Lexeme) : spelled lexeme.remnants = lexeme.kept := by
  unfold remnants
  cases hcomment : lexeme.isComment with
  | true => rw [if_pos rfl, spelled_map_code]
  | false =>
    rw [if_neg Bool.false_ne_true, kept, hcomment, if_neg Bool.false_ne_true]
    exact List.append_nil _

theorem spelled_remnants (lexemes : List Lexeme) :
    spelled (remnants lexemes) = lexemes.flatMap Lexeme.kept := by
  induction lexemes with
  | nil => rfl
  | cons lexeme rest ih =>
    rw [List.flatMap_cons, ← ih, ← lexeme.spelled_remnants, ← spelled_append]
    rfl

theorem isComment_of_mem_remnants {lexemes : List Lexeme} {lexeme : Lexeme}
    (h : lexeme ∈ remnants lexemes) : lexeme.isComment = false := by
  obtain ⟨other, -, hlexeme⟩ := List.mem_flatMap.1 h
  unfold Lexeme.remnants at hlexeme
  split at hlexeme
  · obtain ⟨c, -, rfl⟩ := List.mem_map.1 hlexeme
    rfl
  · next hother =>
    rw [List.mem_singleton.1 hlexeme]
    exact Bool.eq_false_iff.2 hother

/-! ## What comes next -/

theorem head?_of_beginsWithComment {lexemes : List Lexeme}
    (h : beginsWithComment lexemes = true) : (spelled lexemes).head? = some '/' := by
  match lexemes with
  | .lineComment body :: rest => rfl
  | .blockComment body :: rest => rfl

/-- Where no comment comes first, the text goes on as before. -/
theorem head?_spelled_remnants {lexemes : List Lexeme} (h : beginsWithComment lexemes = false) :
    (spelled (remnants lexemes)).head? = (spelled lexemes).head? := by
  cases lexemes with
  | nil => rfl
  | cons lexeme rest =>
    have hkept : lexeme.kept = lexeme.chars := by
      unfold Lexeme.kept
      rw [show lexeme.isComment = false from h, if_neg Bool.false_ne_true]
    rw [spelled_remnants, List.flatMap_cons, hkept, spelled_cons,
      List.head?_append_of_ne_nil _ lexeme.chars_ne_nil,
      List.head?_append_of_ne_nil _ lexeme.chars_ne_nil]

/-- Where the stripped text goes on with a quote, a string comes next. -/
theorem reachesString_of_head? {lexemes : List Lexeme} (h : IsLexing lexemes)
    (hhead : (spelled (remnants lexemes)).head? = some '"') : reachesString lexemes = true := by
  induction lexemes with
  | nil => exact absurd hhead (by simp [remnants])
  | cons lexeme rest ih =>
    rw [spelled_remnants, List.flatMap_cons] at hhead
    unfold reachesString
    cases hcomment : lexeme.isComment with
    | true =>
      rw [if_pos rfl]
      refine ih h.2 ?_
      rw [spelled_remnants]
      cases hkept : lexeme.kept with
      | nil => rwa [hkept] at hhead
      | cons c cs =>
        -- what is kept of a comment begins with a line break, if it is anything
        have hbreak : c ∈ lexeme.chars.filter isLineBreak := by
          have hmem : c ∈ lexeme.kept := hkept ▸ List.mem_cons_self
          rwa [Lexeme.kept, hcomment, if_pos rfl] at hmem
        rw [hkept] at hhead
        obtain rfl := Option.some.inj hhead
        exact absurd (List.mem_filter.1 hbreak).2 (by decide)
    | false =>
      rw [if_neg Bool.false_ne_true]
      cases lexeme with
      | code c => exact absurd (Option.some.inj hhead) h.1.1
      | stringLiteral body => rfl
      | charLiteral body => exact absurd (Option.some.inj hhead) (by decide)
      | textBlock body => rfl
      | lineComment body => exact absurd hcomment.symm Bool.false_ne_true
      | blockComment body => exact absurd hcomment.symm Bool.false_ne_true

/-! ## The lexemes of the stripped text -/

/-- A lexeme that is no comment is read as before when the comments behind it are gone. -/
theorem Lexeme.Stands.remnants {lexeme : Lexeme} {rest : List Lexeme}
    (h : lexeme.Stands (spelled rest)) (hcomment : lexeme.isComment = false)
    (hrest : IsLexing rest) (hapart : StringsApart (lexeme :: rest) = true) :
    lexeme.Stands (spelled (Java.remnants rest)) := by
  cases lexeme with
  | code c =>
    refine ⟨h.1, h.2.1, fun hslash => ?_⟩
    have hnext := h.2.2 hslash
    have hbegins : beginsWithComment rest = false := by
      refine Bool.eq_false_iff.2 fun hbegins => ?_
      exact hnext.1 (head?_of_beginsWithComment hbegins)
    rwa [head?_spelled_remnants hbegins]
  | stringLiteral body =>
    refine ⟨h.1, fun hempty hquote => ?_⟩
    have hreaches := reachesString_of_head? hrest hquote
    have hbegins : beginsWithComment rest = false := by
      simp only [StringsApart, isString, Bool.true_and, hreaches, Bool.and_true,
        Bool.and_eq_true, Bool.not_eq_true'] at hapart
      exact hapart.1
    rw [head?_spelled_remnants hbegins] at hquote
    exact h.2 hempty hquote
  | charLiteral body => exact h
  | textBlock body => exact h
  | lineComment body => exact absurd hcomment.symm Bool.false_ne_true
  | blockComment body => exact absurd hcomment.symm Bool.false_ne_true

/-- Line breaks are read one by one, whatever follows. -/
theorem isLexing_map_code {cs : List Char} (h : ∀ c ∈ cs, isLineBreak c = true)
    {rest : List Lexeme} (hrest : IsLexing rest) : IsLexing (cs.map .code ++ rest) := by
  induction cs with
  | nil => exact hrest
  | cons c cs ih =>
    rw [List.forall_mem_cons] at h
    refine ⟨?_, ih h.2⟩
    have hc := h.1
    refine ⟨?_, ?_, ?_⟩ <;> rintro rfl <;> exact absurd hc (by decide)

/-- The stripped text is read as what stripping makes of the lexemes. -/
theorem isLexing_remnants {lexemes : List Lexeme} (h : IsLexing lexemes)
    (hapart : StringsApart lexemes = true) : IsLexing (remnants lexemes) := by
  induction lexemes with
  | nil => trivial
  | cons lexeme rest ih =>
    have hrest := ih h.2 (Bool.and_eq_true_iff.1 hapart).2
    show IsLexing (lexeme.remnants ++ remnants rest)
    unfold Lexeme.remnants
    cases hcomment : lexeme.isComment with
    | true =>
      rw [if_pos rfl]
      refine isLexing_map_code (fun c hc => ?_) hrest
      rw [Lexeme.kept, hcomment, if_pos rfl] at hc
      exact (List.mem_filter.1 hc).2
    | false =>
      rw [if_neg Bool.false_ne_true]
      exact ⟨h.1.remnants hcomment h.2 hapart, hrest⟩

theorem readsAs_remnants {source : String} {lexemes : List Lexeme} (h : ReadsAs source lexemes)
    (hapart : StringsApart lexemes = true) : ReadsAs (stripComments source) (remnants lexemes) :=
  ⟨by rw [toList_stripComments h, spelled_remnants], isLexing_remnants h.2 hapart⟩

/-- A text without comments stays as it is. -/
theorem stripComments_eq_self {source : String} {lexemes : List Lexeme}
    (h : ReadsAs source lexemes) (hcode : ∀ lexeme ∈ lexemes, lexeme.isComment = false) :
    stripComments source = source := by
  rw [← String.toList_inj, toList_stripComments h, h.1]
  refine List.flatMap_congr fun lexeme hlexeme => ?_
  rw [Lexeme.kept, hcode lexeme hlexeme, if_neg Bool.false_ne_true]

/-- Two divisions with comments right next to their slashes. -/
def commentedDivisions : List Lexeme :=
  [.blockComment "/".toList, .code '/', .code ' ', .blockComment "\n\"".toList,
    .blockComment "".toList, .code '/', .stringLiteral "".toList, .code '*', .lineComment "/".toList]

end JavaAtlas.Java
