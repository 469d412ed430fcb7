import Mathlib.Data.List.Infix

set_option autoImplicit false

/-! # The lexemes of Java text

As far as comments go, Java text is a sequence of comments, of literals that may hold the marks of
comments, and of single characters of code between them. A lexeme is read as far as it goes: two
slashes are no division, a literal ends at the first mark that no backslash escapes, a line comment
at the line feed and a block comment at its first end mark. `IsLexing` says that of a sequence of
lexemes, and a text is read in one way at most (`IsLexing.unique`). -/

namespace JavaAtlas.Java

/-- A part of Java text that is read as a whole. The body of a literal or a comment is what stands
between its marks. -/
inductive Lexeme where
  | code (c : Char)
  | stringLiteral (body : List Char)
  | charLiteral (body : List Char)
  | textBlock (body : List Char)
  | lineComment (body : List Char)
  | blockComment (body : List Char)
deriving DecidableEq, Repr

/-- The mark of a string literal. -/
def quote : List Char := ['"']

/-- The mark of a character literal. -/
def apostrophe : List Char := ['\'']

/-- The mark of a text block. -/
def threeQuotes : List Char := ['"', '"', '"']

/-- The mark at the end of a block comment. -/
def blockEnd : List Char := ['*', '/']

/-- Whether a body that a mark follows goes on up to that mark: no mark begins earlier, other than
right after a backslash, and every backslash has a character to escape. -/
def ClosesWith (mark : List Char) : List Char → Bool
  | [] => true
  | '\\' :: _ :: rest => ClosesWith mark rest
  | c :: rest => c != '\\' && !mark.isPrefixOf (c :: rest ++ mark) && ClosesWith mark rest

namespace Lexeme

/-- The text of a lexeme. -/
def chars : Lexeme → List Char
  | code c => [c]
  | stringLiteral body => quote ++ body ++ quote
  | charLiteral body => apostrophe ++ body ++ apostrophe
  | textBlock body => threeQuotes ++ body ++ threeQuotes
  | lineComment body => '/' :: '/' :: body
  | blockComment body => '/' :: '*' :: body ++ blockEnd

/-- Whether the lexeme is a comment. -/
def isComment : Lexeme → Bool
  | lineComment _ | blockComment _ => true
  | _ => false

/-- Whether the lexeme is a string, on one line or in a block. -/
def isString : Lexeme → Bool
  | stringLiteral _ | textBlock _ => true
  | _ => false

/-- Whether the lexeme is a literal with marks around it. -/
def isLiteral : Lexeme → Bool
  | stringLiteral _ | charLiteral _ | textBlock _ => true
  | _ => false

/-- Whether the lexeme is what is read where its text and `following` stand. -/
def Stands (following : List Char) : Lexeme → Prop
  | code c => c ≠ '"' ∧ c ≠ '\'' ∧
      (c = '/' → following.head? ≠ some '/' ∧ following.head? ≠ some '*')
  | stringLiteral body =>
      ClosesWith quote body = true ∧ (body = [] → following.head? ≠ some '"')
  | charLiteral body => ClosesWith apostrophe body = true
  | textBlock body => ClosesWith threeQuotes body = true
  | lineComment body => '\n' ∉ body ∧ (following = [] ∨ following.head? = some '\n')
  | blockComment body => ¬blockEnd <:+: body

instance (following : List Char) (lexeme : Lexeme) : Decidable (lexeme.Stands following) := by
  cases lexeme <;> unfold Stands <;> infer_instance

theorem chars_ne_nil (lexeme : Lexeme) : lexeme.chars ≠ [] := by
  cases lexeme <;> simp [chars, quote, apostrophe, threeQuotes]

end Lexeme

/-- The text of some lexemes. -/
def spelled (lexemes : List Lexeme) : List Char := lexemes.flatMap Lexeme.chars

@[simp] theorem spelled_nil : spelled [] = [] := rfl

@[simp] theorem spelled_cons (lexeme : Lexeme) (rest : List Lexeme) :
    spelled (lexeme :: rest) = lexeme.chars ++ spelled rest := rfl

/-- Whether each of some lexemes is read as such in front of those that follow. -/
def IsLexing : List Lexeme → Prop
  | [] => True
  | lexeme :: rest => lexeme.Stands (spelled rest) ∧ IsLexing rest

instance decidableIsLexing : (lexemes : List Lexeme) → Decidable (IsLexing lexemes)
  | [] => isTrue trivial
  | lexeme :: rest =>
    have := decidableIsLexing rest
    inferInstanceAs (Decidable (lexeme.Stands (spelled rest) ∧ IsLexing rest))

/-- Whether a text is read as some lexemes, all of which are terminated. -/
def ReadsAs (source : String) (lexemes : List Lexeme) : Prop :=
  source.toList = spelled lexemes ∧ IsLexing lexemes

/-! ## A text is read in one way -/

/-- The kinds of lexemes. -/
inductive LexemeKind where
  | code
  | stringLiteral
  | charLiteral
  | textBlock
  | lineComment
  | blockComment
deriving DecidableEq

/-- The kind of a lexeme. -/
def Lexeme.kind : Lexeme → LexemeKind
  | code _ => .code
  | stringLiteral _ => .stringLiteral
  | charLiteral _ => .charLiteral
  | textBlock _ => .textBlock
  | lineComment _ => .lineComment
  | blockComment _ => .blockComment

/-- The kind of the lexeme at the start of a text, by its first characters. -/
def kindAt : List Char → LexemeKind
  | '/' :: '/' :: _ => .lineComment
  | '/' :: '*' :: _ => .blockComment
  | '"' :: '"' :: '"' :: _ => .textBlock
  | '"' :: _ => .stringLiteral
  | '\'' :: _ => .charLiteral
  | _ => .code

theorem Lexeme.Stands.kindAt {lexeme : Lexeme} {following : List Char}
    (h : lexeme.Stands following) : kindAt (lexeme.chars ++ following) = lexeme.kind := by
  cases lexeme with
  | code c =>
    obtain ⟨hquote, happostrophe, hslash⟩ := h
    show Java.kindAt (c :: following) = .code
    unfold Java.kindAt
    split <;> simp_all
  | stringLiteral body =>
    obtain ⟨hbody, hempty⟩ := h
    match body with
    | [] =>
      show Java.kindAt ('"' :: '"' :: following) = .stringLiteral
      unfold Java.kindAt
      split <;> simp_all
    | c :: rest =>
      have hc : c ≠ '"' := by
        rintro rfl
        simp [ClosesWith, quote] at hbody
      show Java.kindAt ('"' :: c :: (rest ++ quote ++ following)) = .stringLiteral
      unfold Java.kindAt
      split <;> simp_all
  | charLiteral body => rfl
  | textBlock body => rfl
  | lineComment body => rfl
  | blockComment body => rfl

/-! ### Where a body ends -/

theorem closesWith_escape (mark : List Char) (c : Char) (rest : List Char) :
    ClosesWith mark ('\\' :: c :: rest) = ClosesWith mark rest := by
  rw [ClosesWith]

theorem closesWith_cons_iff {mark : List Char} {c : Char} {rest : List Char} (hc : c ≠ '\\') :
    ClosesWith mark (c :: rest) = true ↔
      ¬mark <+: c :: (rest ++ mark) ∧ ClosesWith mark rest = true := by
  rw [ClosesWith]
  · simp [hc, ← List.isPrefixOf_iff_prefix]
  · exact fun _ _ h => absurd h hc

/-- A body in front of which its mark stands at once is empty. -/
theorem eq_nil_of_closesWith {mark body after after' : List Char} (hmark : mark ≠ [])
    (hescape : mark.head? ≠ some '\\') (h : ClosesWith mark body = true)
    (heq : mark ++ after = body ++ (mark ++ after')) : body = [] := by
  cases body with
  | nil => rfl
  | cons c rest =>
    have hc : c ≠ '\\' := by
      rintro rfl
      obtain ⟨m, ms, rfl⟩ := List.exists_cons_of_ne_nil hmark
      exact hescape (congrArg some (List.cons.inj heq).1)
    have hlong : c :: rest ++ mark <+: mark ++ after := by
      rw [heq, ← List.append_assoc]
      exact List.prefix_append ..
    have hshort : mark <+: c :: rest ++ mark :=
      List.prefix_of_prefix_length_le (List.prefix_append ..) hlong (by simp; omega)
    exact absurd hshort ((closesWith_cons_iff hc).1 h).1

/-- Two bodies that end at the same mark in the same text are the same. -/
theorem eq_of_closesWith {mark : List Char} (hmark : mark ≠ [])
    (hescape : mark.head? ≠ some '\\') {body body' after after' : List Char}
    (h : ClosesWith mark body = true) (h' : ClosesWith mark body' = true)
    (heq : body ++ (mark ++ after) = body' ++ (mark ++ after')) : body = body' := by
  fun_induction ClosesWith mark body generalizing body' with
  | case1 => exact (eq_nil_of_closesWith hmark hescape h' heq).symm
  | case2 c rest ih =>
    match body' with
    | [] =>
      rw [← closesWith_escape mark c] at h
      exact eq_nil_of_closesWith hmark hescape h heq.symm
    | [c'] =>
      obtain rfl : '\\' = c' := (List.cons.inj heq).1
      simp [ClosesWith] at h'
    | c' :: d' :: rest' =>
      simp only [List.cons_append, List.cons.injEq] at heq
      obtain ⟨rfl, rfl, heq⟩ := heq
      rw [closesWith_escape] at h'
      rw [ih h h' heq]
  | case3 c rest hnext ih =>
    have hc : c ≠ '\\' := by
      rintro rfl
      simp at h
    match body' with
    | [] =>
      refine eq_nil_of_closesWith hmark hescape ?_ heq.symm
      rw [ClosesWith]
      · exact h
      · exact hnext
    | c' :: rest' =>
      obtain ⟨rfl, hrest⟩ := List.cons.inj heq
      rw [ih ?_ ((closesWith_cons_iff hc).1 h').2 hrest]
      simp only [Bool.and_eq_true] at h
      exact h.2

/-- Two block comments that begin at the same place in the same text are the same. -/
theorem eq_of_blockEnd {body body' after after' : List Char} (h : ¬blockEnd <:+: body)
    (h' : ¬blockEnd <:+: body')
    (heq : body ++ (blockEnd ++ after) = body' ++ (blockEnd ++ after')) : body = body' := by
  -- the longer body would go on with the end mark of the shorter one
  have hshort : ∀ {b b' a a' : List Char}, ¬blockEnd <:+: b' → (∃ more, b' = b ++ more ∧
      blockEnd ++ a = more ++ (blockEnd ++ a')) → b = b' := by
    rintro b b' a a' hb' ⟨more, rfl, hmore⟩
    match more with
    | [] => exact (List.append_nil b).symm
    | [c] =>
      have hslash : '/' = '*' := (List.cons.inj (List.cons.inj hmore).2).1
      exact absurd hslash (by decide)
    | c :: d :: rest =>
      obtain ⟨rfl, hrest⟩ := List.cons.inj hmore
      obtain ⟨rfl, -⟩ := List.cons.inj hrest
      exact absurd ⟨b, rest, by simp [blockEnd]⟩ hb'
  rcases List.append_eq_append_iff.1 heq with hlonger | hlonger
  · exact hshort h' hlonger
  · exact (hshort h hlonger).symm

/-- Two line comments that begin at the same place in the same text are the same. -/
theorem eq_of_lineEnd {body body' after after' : List Char} (h : '\n' ∉ body)
    (h' : '\n' ∉ body') (hafter : after = [] ∨ after.head? = some '\n')
    (hafter' : after' = [] ∨ after'.head? = some '\n')
    (heq : body ++ after = body' ++ after') : body = body' := by
  have htake : ∀ {b a : List Char}, '\n' ∉ b → (a = [] ∨ a.head? = some '\n') →
      (b ++ a).takeWhile (· != '\n') = b := by
    intro b a hb ha
    rw [List.takeWhile_append_of_pos]
    · rcases ha with rfl | ha
      · rw [List.takeWhile_nil, List.append_nil]
      · obtain ⟨more, rfl⟩ := List.head?_eq_some_iff.1 ha
        simp
    · intro c hc
      simpa using fun heq : c = '\n' => hb (heq ▸ hc)
  rw [← htake h hafter, heq, htake h' hafter']

/-! ### Lexemes and lexings -/

/-- The lexeme at the start of a text is determined by the text. -/
theorem Lexeme.Stands.unique {lexeme lexeme' : Lexeme} {following following' : List Char}
    (h : lexeme.Stands following) (h' : lexeme'.Stands following')
    (heq : lexeme.chars ++ following = lexeme'.chars ++ following') : lexeme = lexeme' := by
  have hkind : lexeme.kind = lexeme'.kind := by rw [← h.kindAt, ← h'.kindAt, heq]
  cases lexeme <;> cases lexeme' <;> simp only [Lexeme.kind, reduceCtorEq] at hkind
  case code.code c c' => rw [(List.cons.inj heq).1]
  case stringLiteral.stringLiteral body body' =>
    simp only [Lexeme.chars, List.append_assoc, List.append_cancel_left_eq] at heq
    rw [eq_of_closesWith (by decide) (by decide) h.1 h'.1 heq]
  case charLiteral.charLiteral body body' =>
    simp only [Lexeme.chars, List.append_assoc, List.append_cancel_left_eq] at heq
    rw [eq_of_closesWith (by decide) (by decide) h h' heq]
  case textBlock.textBlock body body' =>
    simp only [Lexeme.chars, List.append_assoc, List.append_cancel_left_eq] at heq
    rw [eq_of_closesWith (by decide) (by decide) h h' heq]
  case lineComment.lineComment body body' =>
    simp only [Lexeme.chars, List.cons_append, List.cons.injEq, true_and] at heq
    rw [eq_of_lineEnd h.1 h'.1 h.2 h'.2 heq]
  case blockComment.blockComment body body' =>
    simp only [Lexeme.chars, List.cons_append, List.append_assoc, List.cons.injEq, true_and] at heq
    rw [eq_of_blockEnd h h' heq]

/-- **A text is read in one way.** -/
theorem IsLexing.unique {lexemes lexemes' : List Lexeme} (h : IsLexing lexemes)
    (h' : IsLexing lexemes') (heq : spelled lexemes = spelled lexemes') : lexemes = lexemes' := by
  induction lexemes generalizing lexemes' with
  | nil =>
    cases lexemes' with
    | nil => rfl
    | cons lexeme' rest' =>
      exact absurd (List.append_eq_nil_iff.1 heq.symm).1 lexeme'.chars_ne_nil
  | cons lexeme rest ih =>
    cases lexemes' with
    | nil => exact absurd (List.append_eq_nil_iff.1 heq).1 lexeme.chars_ne_nil
    | cons lexeme' rest' =>
      obtain rfl := h.1.unique h'.1 heq
      rw [ih h.2 h'.2 (List.append_cancel_left heq)]

theorem ReadsAs.unique {source : String} {lexemes lexemes' : List Lexeme}
    (h : ReadsAs source lexemes) (h' : ReadsAs source lexemes') : lexemes = lexemes' :=
  h.2.unique h'.2 (h.1.symm.trans h'.1)

end JavaAtlas.Java
