import JavaAtlas.Java.Comments
import JavaAtlas.Proofs.Data.Lists
import JavaAtlas.Proofs.Java.Lexemes

set_option autoImplicit false

/-! # Stripping removes comments and nothing else

Stripping walks through the regions of a text. In front of a lexeme it stands in code, and it comes
back to code behind it (`stripFrom_chars`): a literal and a character of code are kept whole, and of
a comment its line breaks are kept. So a character is dropped exactly if it is in a comment and
breaks no line (`stripComments_exact`). -/

namespace JavaAtlas.Java

/-- Whether a character breaks a line. -/
def isLineBreak (c : Char) : Bool := c == '\n' || c == '\r'

/-- Whether a character stays, given whether it is in a comment. -/
def stays (entry : Char × Bool) : Bool := !entry.2 || isLineBreak entry.1

namespace Lexeme

/-- What stripping keeps of a lexeme. -/
def kept (lexeme : Lexeme) : List Char :=
  if lexeme.isComment then lexeme.chars.filter isLineBreak else lexeme.chars

/-- The characters of a lexeme, each with whether it is in a comment. -/
def marked (lexeme : Lexeme) : List (Char × Bool) :=
  lexeme.chars.map fun c => (c, lexeme.isComment)

end Lexeme

attribute [local simp] stripFrom

/-! ## Literals -/

/-- Whether a region is that of a literal which ends at the given mark. -/
structure Region.EndsAt (region : Region) (mark : List Char) : Prop where
  escape : ∀ c rest, stripFrom region ('\\' :: c :: rest) = '\\' :: c :: stripFrom region rest
  close : ∀ rest, stripFrom region (mark ++ rest) = mark ++ stripFrom .code rest
  plain : ∀ c rest, c ≠ '\\' → ¬mark <+: c :: rest →
    stripFrom region (c :: rest) = c :: stripFrom region rest

theorem endsAt_stringLiteral : Region.stringLiteral.EndsAt quote where
  escape c rest := by rw [stripFrom]
  close rest := by simp [quote]
  plain c rest hc hmark := by
    have hquote : c ≠ '"' := by
      rintro rfl
      exact hmark ⟨rest, rfl⟩
    rw [stripFrom]
    · exact fun _ _ h => absurd h hc
    · exact hquote

theorem endsAt_charLiteral : Region.charLiteral.EndsAt apostrophe where
  escape c rest := by rw [stripFrom]
  close rest := by simp [apostrophe]
  plain c rest hc hmark := by
    have happostrophe : c ≠ '\'' := by
      rintro rfl
      exact hmark ⟨rest, rfl⟩
    rw [stripFrom]
    · exact fun _ _ h => absurd h hc
    · exact happostrophe

theorem endsAt_textBlock : Region.textBlock.EndsAt threeQuotes where
  escape c rest := by rw [stripFrom]
  close rest := by simp [threeQuotes]
  plain c rest hc hmark := by
    rw [stripFrom]
    · exact fun _ _ h => absurd h hc
    · rintro more rfl rfl
      exact hmark ⟨more, rfl⟩

/-- A literal is kept, whatever stands in its body. -/
theorem Region.EndsAt.stripFrom_body {region : Region} {mark : List Char}
    (h : region.EndsAt mark) {body : List Char} (hbody : ClosesWith mark body = true)
    (rest : List Char) :
    stripFrom region (body ++ mark ++ rest) = body ++ mark ++ stripFrom .code rest := by
  fun_induction ClosesWith mark body with
  | case1 => exact h.close rest
  | case2 c body ih =>
    simp only [List.cons_append]
    rw [h.escape, ih hbody]
  | case3 c body _ ih =>
    simp only [Bool.and_eq_true, bne_iff_ne, Bool.not_eq_true'] at hbody
    obtain ⟨⟨hc, hmark⟩, hbody⟩ := hbody
    have hplain : ¬mark <+: c :: (body ++ mark ++ rest) := by
      intro hprefix
      have hshort : mark <+: c :: body ++ mark :=
        List.prefix_of_prefix_length_le hprefix ⟨rest, by simp⟩ (by simp; omega)
      rw [List.isPrefixOf_iff_prefix.2 hshort] at hmark
      exact absurd hmark (by decide)
    simp only [List.cons_append]
    rw [h.plain c _ hc hplain, ih hbody]

/-! ## Comments -/

/-- A line comment leaves its carriage returns, up to the end of the line. -/
theorem stripFrom_lineComment {body rest : List Char} (hbody : '\n' ∉ body)
    (hrest : rest = [] ∨ rest.head? = some '\n') :
    stripFrom .lineComment (body ++ rest) = body.filter isLineBreak ++ stripFrom .code rest := by
  induction body with
  | nil =>
    rcases hrest with rfl | hrest
    · simp
    · obtain ⟨more, rfl⟩ := List.head?_eq_some_iff.1 hrest
      simp
  | cons c body ih =>
    rw [List.mem_cons, not_or] at hbody
    have hc : c ≠ '\n' := Ne.symm hbody.1
    rw [List.cons_append]
    by_cases hreturn : c = '\r'
    · subst hreturn
      rw [stripFrom, ih hbody.2]
      rfl
    · rw [stripFrom, ih hbody.2, List.filter_cons_of_neg (by simp [isLineBreak, hc, hreturn])]
      · exact hc
      · exact hreturn

/-- A block comment leaves its line breaks. -/
theorem stripFrom_blockComment {body : List Char} (hbody : ¬blockEnd <:+: body)
    (rest : List Char) : stripFrom .blockComment (body ++ blockEnd ++ rest) =
      body.filter isLineBreak ++ stripFrom .code rest := by
  induction body with
  | nil => simp [blockEnd]
  | cons c body ih =>
    have hrest := ih fun h => hbody (h.trans (List.infix_cons (List.infix_refl body)))
    -- the end mark does not begin at the first character of the body
    have hopen : ∀ more, c = '*' → body ++ blockEnd ++ rest = '/' :: more → False := by
      rintro more rfl hmore
      cases body with
      | nil => exact absurd (List.cons.inj hmore).1 (by decide)
      | cons d body =>
        obtain ⟨rfl, -⟩ := List.cons.inj hmore
        exact hbody ⟨[], body, rfl⟩
    simp only [List.cons_append]
    by_cases hfeed : c = '\n'
    · subst hfeed
      rw [stripFrom, hrest]
      rfl
    by_cases hreturn : c = '\r'
    · subst hreturn
      rw [stripFrom, hrest]
      rfl
    rw [stripFrom, hrest, List.filter_cons_of_neg (by simp [isLineBreak, hfeed, hreturn])]
    · exact hopen
    · exact hfeed
    · exact hreturn

/-! ## Lexemes -/

/-- Stripping comes through a lexeme from code to code and keeps of it what is to be kept. -/
theorem stripFrom_chars {lexeme : Lexeme} {following : List Char}
    (h : lexeme.Stands following) : stripFrom .code (lexeme.chars ++ following) =
      lexeme.kept ++ stripFrom .code following := by
  cases lexeme with
  | code c =>
    obtain ⟨hquote, happostrophe, hslash⟩ := h
    show stripFrom .code (c :: following) = c :: stripFrom .code following
    rw [stripFrom]
    all_goals grind
  | stringLiteral body =>
    obtain ⟨hbody, hempty⟩ := h
    have hopen : ∀ more, body ++ quote ++ following = '"' :: '"' :: more → False := by
      intro more hmore
      match body with
      | [] =>
        have hfollowing : following = '"' :: more := (List.cons.inj hmore).2
        exact hempty rfl (hfollowing ▸ rfl)
      | c :: body =>
        obtain ⟨rfl, -⟩ := List.cons.inj hmore
        simp [ClosesWith, quote] at hbody
    show stripFrom .code ('"' :: (body ++ quote ++ following)) =
      '"' :: (body ++ quote) ++ stripFrom .code following
    rw [stripFrom, endsAt_stringLiteral.stripFrom_body hbody]
    · rfl
    · exact hopen
  | charLiteral body =>
    show stripFrom .code ('\'' :: (body ++ apostrophe ++ following)) =
      '\'' :: (body ++ apostrophe) ++ stripFrom .code following
    rw [stripFrom, endsAt_charLiteral.stripFrom_body h]
    rfl
  | textBlock body =>
    show stripFrom .code ('"' :: '"' :: '"' :: (body ++ threeQuotes ++ following)) =
      '"' :: '"' :: '"' :: (body ++ threeQuotes) ++ stripFrom .code following
    rw [stripFrom, endsAt_textBlock.stripFrom_body h]
    rfl
  | lineComment body =>
    show stripFrom .code ('/' :: '/' :: (body ++ following)) =
      ('/' :: '/' :: body).filter isLineBreak ++ stripFrom .code following
    rw [stripFrom, stripFrom_lineComment h.1 h.2]
    rfl
  | blockComment body =>
    show stripFrom .code ('/' :: '*' :: (body ++ blockEnd ++ following)) =
      ('/' :: '*' :: (body ++ blockEnd)).filter isLineBreak ++ stripFrom .code following
    rw [stripFrom, stripFrom_blockComment h]
    simp [blockEnd, isLineBreak]

/-- Stripping keeps of each lexeme what is to be kept. -/
theorem stripFrom_spelled {lexemes : List Lexeme} (h : IsLexing lexemes) :
    stripFrom .code (spelled lexemes) = lexemes.flatMap Lexeme.kept := by
  induction lexemes with
  | nil => rw [spelled_nil, stripFrom, List.flatMap_nil]
  | cons lexeme rest ih => rw [spelled_cons, stripFrom_chars h.1, ih h.2, List.flatMap_cons]

theorem toList_stripComments {source : String} {lexemes : List Lexeme}
    (h : ReadsAs source lexemes) :
    (stripComments source).toList = lexemes.flatMap Lexeme.kept := by
  unfold stripComments
  rw [String.toList_ofList, h.1, stripFrom_spelled h.2]

/-! ## Characters and lines -/

theorem Lexeme.map_fst_marked (lexeme : Lexeme) : lexeme.marked.map Prod.fst = lexeme.chars := by
  unfold marked
  rw [List.map_map]
  exact List.map_id _

theorem Lexeme.kept_of_isLiteral {lexeme : Lexeme} (h : lexeme.isLiteral = true) :
    lexeme.kept = lexeme.chars := by
  cases lexeme with
  | stringLiteral body => rfl
  | charLiteral body => rfl
  | textBlock body => rfl
  | code c => exact absurd h Bool.false_ne_true
  | lineComment body => exact absurd h Bool.false_ne_true
  | blockComment body => exact absurd h Bool.false_ne_true

theorem Lexeme.kept_eq_filter_marked (lexeme : Lexeme) :
    lexeme.kept = (lexeme.marked.filter stays).map Prod.fst := by
  unfold kept marked
  rw [List.filter_map, List.map_map]
  cases lexeme.isComment with
  | true =>
    rw [if_pos rfl]
    exact (List.map_id _).symm
  | false =>
    rw [if_neg Bool.false_ne_true, List.filter_eq_self.2]
    · exact (List.map_id _).symm
    · exact fun _ _ => rfl

theorem spelled_eq_map_marked (lexemes : List Lexeme) :
    spelled lexemes = (lexemes.flatMap Lexeme.marked).map Prod.fst := by
  rw [List.map_flatMap]
  exact List.flatMap_congr fun lexeme _ => lexeme.map_fst_marked.symm

theorem flatMap_kept_eq_filter_marked (lexemes : List Lexeme) : lexemes.flatMap Lexeme.kept =
    ((lexemes.flatMap Lexeme.marked).filter stays).map Prod.fst := by
  rw [List.filter_flatMap, List.map_flatMap]
  exact List.flatMap_congr fun lexeme _ => lexeme.kept_eq_filter_marked

/-- An element more on the first line of both, or of the longer lines alone, changes nothing. -/
theorem forall₂_modifyHead_cons {α : Type} {lines others : List (List α)}
    (h : List.Forall₂ List.Sublist lines others) (a : α) :
    List.Forall₂ List.Sublist (lines.modifyHead (List.cons a)) (others.modifyHead (List.cons a)) ∧
      List.Forall₂ List.Sublist lines (others.modifyHead (List.cons a)) := by
  cases h with
  | nil => exact ⟨.nil, .nil⟩
  | cons hline hlines => exact ⟨.cons (hline.cons_cons a) hlines, .cons (hline.cons a) hlines⟩

/-- Dropping elements that end no line leaves as many lines, each with a part of its elements. -/
theorem forall₂_splitOnP_filter {α β : Type} {f : α → β} {keep : α → Bool} {ends : β → Bool}
    {items : List α} (h : ∀ a ∈ items, ends (f a) = true → keep a = true) :
    List.Forall₂ List.Sublist (((items.filter keep).map f).splitOnP ends)
      ((items.map f).splitOnP ends) := by
  induction items with
  | nil => exact .cons (List.Sublist.refl _) .nil
  | cons a rest ih =>
    rw [List.forall_mem_cons] at h
    have hrest := ih h.2
    rw [List.map_cons, List.splitOnP_cons_eq_if_modifyHead]
    by_cases hends : ends (f a) = true
    · rw [List.filter_cons_of_pos (h.1 hends), List.map_cons,
        List.splitOnP_cons_eq_if_modifyHead, if_pos hends, if_pos hends]
      exact .cons (List.Sublist.refl _) hrest
    · rw [if_neg hends]
      by_cases hkeep : keep a = true
      · rw [List.filter_cons_of_pos hkeep, List.map_cons, List.splitOnP_cons_eq_if_modifyHead,
          if_neg hends]
        exact (forall₂_modifyHead_cons hrest _).1
      · rw [List.filter_cons_of_neg hkeep]
        exact (forall₂_modifyHead_cons hrest _).2

/-! ## Stripping -/

/-- A field with marks of comments in its text, between a comment of two lines and one that ends
the line. -/
def markedField : List Lexeme :=
  [.blockComment " a\r\n//".toList, .code 's', .code '=', .stringLiteral "/*\\\"//".toList,
    .code ';', .lineComment " \"b".toList, .code '\n']

end JavaAtlas.Java
