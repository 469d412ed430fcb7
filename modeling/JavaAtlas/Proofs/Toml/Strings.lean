import Mathlib.Data.List.TakeDrop
import JavaAtlas.Toml.Quoted

set_option autoImplicit false

/-! # Strings and keys are read back

Each spelling of a string is taken up as a whole. Between quotes this goes character by character
(`Unescapes.escapeChar`); on several lines one or two quotes in a row are not known to be part of
the text before what follows them is seen, so the reader is described with these quotes still in
front of it (`readBasicLines_escapeChars`). Whatever spelling the writer chooses, the string is read
back (`readString_stringChars`), and so is a key (`readKey_keyChars`). -/

namespace JavaAtlas.Toml

/-! ## Escapes -/

/-- Whether a reader of text between quotes takes up escapes and plain characters one by one. -/
structure Unescapes (inLines : Bool) (read : List Char → Option (List Char × List Char)) :
    Prop where
  letter : ∀ {e c : Char}, simpleEscape? e = some c → ∀ cs,
    read ('\\' :: e :: cs) = withChar c (read cs)
  digits : ∀ {d₁ d₂ d₃ d₄ c : Char}, scalar? [d₁, d₂, d₃, d₄] = some c → ∀ cs,
    read ('\\' :: 'u' :: d₁ :: d₂ :: d₃ :: d₄ :: cs) = withChar c (read cs)
  plain : ∀ {c : Char}, (isControl c = true → inLines = true ∧ c = '\n') → c ≠ '\\' → c ≠ '"' →
    ∀ cs, read (c :: cs) = withChar c (read cs)

/-- A letter that stands for a character after a backslash begins no longer escape, and joins no
lines. -/
theorem ne_of_simpleEscape? {e c : Char} (h : simpleEscape? e = some c) :
    ∀ d ∈ ['x', 'u', 'U', ' ', '\t', '\n', '\r'], e ≠ d := by
  have hnone : ['x', 'u', 'U', ' ', '\t', '\n', '\r'].all
      (fun d => (simpleEscape? d).isNone) = true := by decide
  rintro d hd rfl
  have hisNone := List.all_eq_true.1 hnone e hd
  rw [h] at hisNone
  exact absurd hisNone (by simp)

theorem unescapes_readBasic : Unescapes false readBasic where
  letter {e c} he cs := by
    have hne := ne_of_simpleEscape? he
    rw [readBasic]
    · rw [he]
      rfl
    · rintro _ _ _ rfl
      exact absurd rfl (hne 'x' (by decide))
    · rintro _ _ _ _ _ rfl
      exact absurd rfl (hne 'u' (by decide))
    · rintro _ _ _ _ _ _ _ _ _ rfl
      exact absurd rfl (hne 'U' (by decide))
  digits {_ _ _ _ _} hc cs := by
    rw [readBasic, hc]
    rfl
  plain {c} hcontrol hslash hquote cs := by
    have hplain : isControl c = false :=
      Bool.eq_false_iff.2 fun h => absurd (hcontrol h).1 (by simp)
    rw [readBasic]
    · rw [hplain, beq_false_of_ne hslash]
      rfl
    all_goals grind

theorem joinsLines_of_ne {c : Char} {cs : List Char} (h : ∀ d ∈ [' ', '\t', '\n', '\r'], c ≠ d) :
    joinsLines (c :: cs) = false := by
  have hblank : (c == ' ' || c == '\t') = false := by
    simp [h ' ' (by decide), h '\t' (by decide)]
  unfold joinsLines
  rw [List.dropWhile_cons_of_neg (by simp [hblank])]
  split
  · next heq => exact absurd (List.cons.inj heq).1 (h '\n' (by decide))
  · next heq => exact absurd (List.cons.inj heq).1 (h '\r' (by decide))
  · rfl

theorem unescapes_readBasicLines : Unescapes true (readBasicLines false) where
  letter {e c} he cs := by
    have hne := ne_of_simpleEscape? he
    have hjoins : joinsLines (e :: cs) = false :=
      joinsLines_of_ne fun d hd => hne d (by simp at hd ⊢; tauto)
    rw [readBasicLines]
    · rw [hjoins, he]
      rfl
    all_goals grind
  digits {_ _ _ _ _} hc cs := by
    rw [readBasicLines, hc]
    rfl
  plain {c} hcontrol hslash hquote cs := by
    have hplain : isControlInLines c = false := by
      unfold isControlInLines
      cases h : isControl c with
      | false => rfl
      | true => simp [(hcontrol h).2]
    have hreturn : c ≠ '\r' := by
      rintro rfl
      exact absurd (hcontrol (by decide)).2 (by decide)
    rw [readBasicLines]
    · rw [hplain, beq_false_of_ne hslash]
      rfl
    all_goals grind

theorem scalar?_control {n : Nat} (h : n < 0x80) :
    scalar? ['0', '0', upperDigit (n / 16), upperDigit (n % 16)] = some (Char.ofNat n) := by
  revert n
  decide

/-- A reader takes the spelling of a character for the character. -/
theorem Unescapes.escapeChar {inLines : Bool}
    {read : List Char → Option (List Char × List Char)} (h : Unescapes inLines read) {c : Char}
    (hquote : c ≠ '"') (cs : List Char) :
    read (escapeChar inLines c ++ cs) = withChar c (read cs) := by
  unfold Toml.escapeChar
  split
  · exact h.letter rfl cs
  · exact h.letter rfl cs
  · -- a line feed stands for itself on several lines
    cases inLines with
    | true => exact h.plain (fun _ => ⟨rfl, rfl⟩) (by decide) (by decide) cs
    | false => exact h.letter rfl cs
  · exact h.letter rfl cs
  · exact h.letter rfl cs
  · exact h.letter rfl cs
  · next hslash =>
    split
    · next hcontrol =>
      have hsmall : c.toNat < 0x80 := by
        simp only [isControl, Bool.or_eq_true, Bool.and_eq_true, decide_eq_true_eq,
          beq_iff_eq] at hcontrol
        omega
      refine h.digits ?_ cs
      rw [scalar?_control hsmall]
      exact congrArg some (Char.ofNat_toNat c)
    · next hcontrol => exact h.plain (fun hc => absurd hc hcontrol) hslash hquote cs

/-! ## Spellings -/

theorem withChar_some (c : Char) (text rest : List Char) :
    withChar c (some (text, rest)) = some (c :: text, rest) := rfl

theorem readBasic_escapeChars (run : Nat) (text rest : List Char) :
    readBasic (escapeChars false run text ++ '"' :: rest) = some (text, rest) := by
  induction text generalizing run with
  | nil =>
    rw [escapeChars, List.nil_append, readBasic]
  | cons c text ih =>
    rw [escapeChars]
    split
    · next hquote =>
      subst hquote
      rw [Bool.false_and, if_neg Bool.false_ne_true, List.cons_append, List.cons_append,
        unescapes_readBasic.letter rfl, ih, withChar_some]
    · next hquote =>
      rw [List.append_assoc, unescapes_readBasic.escapeChar hquote, ih, withChar_some]

theorem readLiteral_append {text : List Char}
    (h : ∀ c ∈ text, isControl c = false ∧ c ≠ '\'') (rest : List Char) :
    readLiteral (text ++ '\'' :: rest) = some (text, rest) := by
  induction text with
  | nil => rw [List.nil_append, readLiteral]
  | cons c text ih =>
    rw [List.forall_mem_cons] at h
    rw [List.cons_append, readLiteral]
    · rw [h.1.1, if_neg Bool.false_ne_true, ih h.2, withChar_some]
    · exact h.1.2

/-- Whether a text goes on without a quote or an apostrophe, which might be taken for part of a
mark. -/
def NoMark (cs : List Char) : Prop := cs.head? ≠ some '"' ∧ cs.head? ≠ some '\''

theorem readBasicLines_quote {cs : List Char} (h : ∀ more, cs ≠ '"' :: '"' :: more) :
    readBasicLines false ('"' :: cs) = withChar '"' (readBasicLines false cs) := by
  rw [readBasicLines]
  · rfl
  all_goals grind

/-- Up to two quotes in a row are part of the text if no third one follows. -/
theorem readBasicLines_quotes {count : Nat} (hcount : count ≤ 2) {cs text rest : List Char}
    (hcs : cs.head? ≠ some '"') (h : readBasicLines false cs = some (text, rest)) :
    readBasicLines false (List.replicate count '"' ++ cs) =
      some (List.replicate count '"' ++ text, rest) := by
  have hone : readBasicLines false ('"' :: cs) = some ('"' :: text, rest) := by
    rw [readBasicLines_quote, h, withChar_some]
    rintro more rfl
    exact hcs rfl
  match count with
  | 0 => exact h
  | 1 => exact hone
  | 2 =>
    show readBasicLines false ('"' :: '"' :: cs) = some ('"' :: '"' :: text, rest)
    rw [readBasicLines_quote, hone, withChar_some]
    intro more heq
    exact hcs (by rw [(List.cons.inj heq).2]; rfl)

/-- The closing mark is found behind up to two quotes of the text. -/
theorem readBasicLines_close {count : Nat} (hcount : count ≤ 2) {rest : List Char}
    (hrest : rest.head? ≠ some '"') :
    readBasicLines false (List.replicate count '"' ++ '"' :: '"' :: '"' :: rest) =
      some (List.replicate count '"', rest) := by
  match count with
  | 0 =>
    show readBasicLines false ('"' :: '"' :: '"' :: rest) = _
    rw [readBasicLines]
    · rfl
    all_goals grind
  | 1 =>
    show readBasicLines false ('"' :: '"' :: '"' :: '"' :: rest) = _
    rw [readBasicLines]
    · rfl
    all_goals grind
  | 2 =>
    show readBasicLines false ('"' :: '"' :: '"' :: '"' :: '"' :: rest) = _
    rw [readBasicLines]
    · rfl

theorem head?_escapeChar (inLines : Bool) {c : Char} (h : c ≠ '"') :
    ∃ d ds, escapeChar inLines c = d :: ds ∧ d ≠ '"' := by
  unfold escapeChar
  split <;> (try split) <;> simp_all

/-- The text up to the closing mark is read back. `run` quotes have been written just before, and
they are still in front of the reader. -/
theorem readBasicLines_escapeChars {run : Nat} (hrun : run ≤ 2) (text : List Char)
    {rest : List Char} (hrest : rest.head? ≠ some '"') :
    readBasicLines false
        (List.replicate run '"' ++ (escapeChars true run text ++ '"' :: '"' :: '"' :: rest)) =
      some (List.replicate run '"' ++ text, rest) := by
  induction text generalizing run with
  | nil =>
    rw [escapeChars, List.nil_append, List.append_nil]
    exact readBasicLines_close hrun hrest
  | cons c text ih =>
    have hnext := ih (Nat.zero_le 2)
    rw [List.replicate_zero, List.nil_append, List.nil_append] at hnext
    rw [escapeChars]
    split
    · next hquote =>
      subst hquote
      rw [Bool.true_and]
      split
      · next htwo =>
        -- one quote more in front of the reader
        have hne : run ≠ 2 := by simpa using htwo
        have hmore := @ih (run + 1) (by omega)
        rw [List.replicate_succ', List.append_assoc, List.append_assoc] at hmore
        exact hmore
      · refine readBasicLines_quotes hrun (by simp) ?_
        rw [List.cons_append, List.cons_append, unescapes_readBasicLines.letter rfl, hnext,
          withChar_some]
    · next hquote =>
      obtain ⟨d, ds, hd, hne⟩ := head?_escapeChar true hquote
      refine readBasicLines_quotes hrun ?_ ?_
      · rw [hd]
        simpa using hne
      · rw [List.append_assoc, unescapes_readBasicLines.escapeChar hquote, hnext, withChar_some]

/-! ### Between apostrophes on several lines -/

theorem readLiteralLines_plain {c : Char} {cs : List Char} (hcontrol : isControlInLines c = false)
    (h : c = '\'' → ∀ more, cs ≠ '\'' :: '\'' :: more) :
    readLiteralLines (c :: cs) = withChar c (readLiteralLines cs) := by
  have hreturn : c ≠ '\r' := by
    rintro rfl
    exact absurd hcontrol (by decide)
  rw [readLiteralLines]
  · rw [hcontrol, if_neg Bool.false_ne_true]
  all_goals grind

/-- Up to two apostrophes in a row are part of the text if no third one follows. -/
theorem readLiteralLines_apostrophes {count : Nat} (hcount : count ≤ 2)
    {cs text rest : List Char} (hcs : cs.head? ≠ some '\'')
    (h : readLiteralLines cs = some (text, rest)) :
    readLiteralLines (List.replicate count '\'' ++ cs) =
      some (List.replicate count '\'' ++ text, rest) := by
  have hone : readLiteralLines ('\'' :: cs) = some ('\'' :: text, rest) := by
    rw [readLiteralLines_plain (by decide), h, withChar_some]
    rintro - more rfl
    exact hcs rfl
  match count with
  | 0 => exact h
  | 1 => exact hone
  | 2 =>
    show readLiteralLines ('\'' :: '\'' :: cs) = some ('\'' :: '\'' :: text, rest)
    rw [readLiteralLines_plain (by decide), hone, withChar_some]
    intro _ more heq
    exact hcs (by rw [(List.cons.inj heq).2]; rfl)

/-- The closing mark is found behind up to two apostrophes of the text. -/
theorem readLiteralLines_close {count : Nat} (hcount : count ≤ 2) {rest : List Char}
    (hrest : rest.head? ≠ some '\'') :
    readLiteralLines (List.replicate count '\'' ++ '\'' :: '\'' :: '\'' :: rest) =
      some (List.replicate count '\'', rest) := by
  match count with
  | 0 =>
    show readLiteralLines ('\'' :: '\'' :: '\'' :: rest) = _
    rw [readLiteralLines]
    · rfl
    all_goals grind
  | 1 =>
    show readLiteralLines ('\'' :: '\'' :: '\'' :: '\'' :: rest) = _
    rw [readLiteralLines]
    · rfl
    all_goals grind
  | 2 =>
    show readLiteralLines ('\'' :: '\'' :: '\'' :: '\'' :: '\'' :: rest) = _
    rw [readLiteralLines]
    · rfl

/-- A text without three apostrophes in a row is read back up to the closing mark. `run`
apostrophes are still in front of the reader. -/
theorem readLiteralLines_append {run : Nat} (hrun : run ≤ 2) {text : List Char}
    (hcontrol : ∀ c ∈ text, isControlInLines c = false) (hlong : noLongRun '\'' run text = true)
    {rest : List Char} (hrest : rest.head? ≠ some '\'') :
    readLiteralLines
        (List.replicate run '\'' ++ (text ++ '\'' :: '\'' :: '\'' :: rest)) =
      some (List.replicate run '\'' ++ text, rest) := by
  induction text generalizing run with
  | nil =>
    rw [List.nil_append, List.append_nil]
    exact readLiteralLines_close hrun hrest
  | cons c text ih =>
    rw [List.forall_mem_cons] at hcontrol
    rw [noLongRun] at hlong
    split at hlong
    · next hmark =>
      subst hmark
      rw [Bool.and_eq_true, decide_eq_true_eq] at hlong
      have hmore := ih (by omega) hcontrol.2 hlong.2
      rw [List.replicate_succ', List.append_assoc, List.append_assoc] at hmore
      exact hmore
    · next hmark =>
      have hnext := ih (Nat.zero_le 2) hcontrol.2 hlong
      refine readLiteralLines_apostrophes hrun (by simpa using hmark) ?_
      rw [List.cons_append, readLiteralLines_plain hcontrol.1 (fun h => absurd h hmark)]
      rw [List.replicate_zero, List.nil_append, List.nil_append] at hnext
      rw [hnext, withChar_some]

/-! ## Strings -/

/-- A line break that is written in front of a text with line breaks is dropped, and nothing of a
text without them is. -/
theorem dropLineBreak_append (text : List Char) {spelled cs : List Char}
    (hfeed : text.contains '\n' = false → spelled.head? ≠ some '\n' ∧ spelled.head? ≠ some '\r')
    (hcs : cs.head? ≠ some '\n' ∧ cs.head? ≠ some '\r') :
    dropLineBreak ((if text.contains '\n' then ['\n'] else []) ++ (spelled ++ cs)) =
      spelled ++ cs := by
  cases hlines : text.contains '\n' with
  | true => rfl
  | false =>
    have hhead : (spelled ++ cs).head? ≠ some '\n' ∧ (spelled ++ cs).head? ≠ some '\r' := by
      cases spelled with
      | nil => exact hcs
      | cons c spelled => exact hfeed hlines
    rw [if_neg Bool.false_ne_true, List.nil_append]
    unfold dropLineBreak
    split
    · next heq => exact absurd (by rw [heq]; rfl) hhead.1
    · next heq => exact absurd (by rw [heq]; rfl) hhead.2
    · rfl

theorem head?_escapeChars (run : Nat) {text : List Char} (h : text.contains '\n' = false) :
    (escapeChars true run text).head? ≠ some '\n' ∧
      (escapeChars true run text).head? ≠ some '\r' := by
  cases text with
  | nil => simp [escapeChars]
  | cons c text =>
    have hfeed : c ≠ '\n' := by
      rintro rfl
      simp at h
    rw [escapeChars]
    split
    · split <;> simp
    · unfold escapeChar
      split <;> (try split) <;> simp_all

theorem readLineString_basic (text rest : List Char) :
    readLineString (Spelling.basic.chars text ++ rest) = some (text, rest) := by
  show readLineString ('"' :: (escapeChars false 0 text ++ ['"'] ++ rest)) = _
  rw [readLineString, List.append_assoc]
  exact readBasic_escapeChars 0 text rest

theorem readLineString_literal {text : List Char}
    (h : ∀ c ∈ text, isControl c = false ∧ c ≠ '\'') (rest : List Char) :
    readLineString (Spelling.literal.chars text ++ rest) = some (text, rest) := by
  show readLineString ('\'' :: (text ++ ['\''] ++ rest)) = _
  rw [readLineString, List.append_assoc]
  exact readLiteral_append h rest

theorem readString_basic (text : List Char) {rest : List Char} (hrest : NoMark rest) :
    readString (Spelling.basic.chars text ++ rest) = some (text, rest) := by
  have hopen : ∀ more, Spelling.basic.chars text ++ rest ≠ '"' :: '"' :: '"' :: more := by
    intro more heq
    have heq : escapeChars false 0 text ++ ['"'] ++ rest = '"' :: '"' :: more :=
      (List.cons.inj heq).2
    cases text with
    | nil =>
      have hnext : rest = '"' :: more := (List.cons.inj heq).2
      exact hrest.1 (hnext ▸ rfl)
    | cons c text =>
      rw [escapeChars] at heq
      split at heq
      · exact absurd (List.cons.inj heq).1 (by decide)
      · next hquote =>
        obtain ⟨d, ds, hd, hne⟩ := head?_escapeChar false hquote
        rw [hd] at heq
        exact hne (List.cons.inj heq).1
  rw [readString]
  · exact readLineString_basic text rest
  · exact hopen
  · exact fun more heq => absurd (List.cons.inj heq).1 (by decide)

theorem readString_literal {text : List Char}
    (h : ∀ c ∈ text, isControl c = false ∧ c ≠ '\'') {rest : List Char} (hrest : NoMark rest) :
    readString (Spelling.literal.chars text ++ rest) = some (text, rest) := by
  have hopen : ∀ more, Spelling.literal.chars text ++ rest ≠ '\'' :: '\'' :: '\'' :: more := by
    intro more heq
    have heq : text ++ ['\''] ++ rest = '\'' :: '\'' :: more := (List.cons.inj heq).2
    cases text with
    | nil =>
      have hnext : rest = '\'' :: more := (List.cons.inj heq).2
      exact hrest.2 (hnext ▸ rfl)
    | cons c text => exact (h c List.mem_cons_self).2 (List.cons.inj heq).1
  rw [readString]
  · exact readLineString_literal h rest
  · exact fun more heq => absurd (List.cons.inj heq).1 (by decide)
  · exact hopen

theorem readString_basicLines (text : List Char) {rest : List Char} (hrest : NoMark rest) :
    readString (Spelling.basicLines.chars text ++ rest) = some (text, rest) := by
  have hclose : ('"' :: '"' :: '"' :: rest).head? ≠ some '\n' ∧
      ('"' :: '"' :: '"' :: rest).head? ≠ some '\r' := by simp
  have hdrop := dropLineBreak_append text (head?_escapeChars 0) hclose
  have hread := readBasicLines_escapeChars (Nat.zero_le 2) text hrest.1
  show readString ((['"', '"', '"'] ++ (if text.contains '\n' then ['\n'] else []) ++
    escapeChars true 0 text ++ ['"', '"', '"']) ++ rest) = _
  simp only [List.append_assoc, List.cons_append, List.nil_append]
  rw [readString, hdrop]
  exact hread

theorem readString_literalLines {text : List Char}
    (h : ∀ c ∈ text, isControlInLines c = false) (hlong : noLongRun '\'' 0 text = true)
    {rest : List Char} (hrest : NoMark rest) :
    readString (Spelling.literalLines.chars text ++ rest) = some (text, rest) := by
  have hhead : text.contains '\n' = false → text.head? ≠ some '\n' ∧ text.head? ≠ some '\r' := by
    intro hfeed
    cases text with
    | nil => simp
    | cons c text =>
      constructor <;> rintro heq <;> obtain rfl := Option.some.inj heq
      · simp at hfeed
      · exact absurd (h _ List.mem_cons_self) (by decide)
  have hclose : ('\'' :: '\'' :: '\'' :: rest).head? ≠ some '\n' ∧
      ('\'' :: '\'' :: '\'' :: rest).head? ≠ some '\r' := by simp
  have hdrop := dropLineBreak_append text hhead hclose
  have hread := readLiteralLines_append (Nat.zero_le 2) h hlong hrest.2
  show readString ((['\'', '\'', '\''] ++ (if text.contains '\n' then ['\n'] else []) ++
    text ++ ['\'', '\'', '\'']) ++ rest) = _
  simp only [List.append_assoc, List.cons_append, List.nil_append]
  rw [readString, hdrop]
  exact hread

/-- **A string is read back**, whatever spelling it is written in. -/
theorem readString_stringChars (text : String) {rest : List Char} (hrest : NoMark rest) :
    readString (stringChars text ++ rest) = some (text.toList, rest) := by
  unfold stringChars Spelling.ofText
  split
  · exact readString_basic _ hrest
  split
  · next h =>
    refine readString_literal (fun c hc => ?_) hrest
    simpa using List.all_eq_true.1 h c hc
  split
  · exact readString_basicLines _ hrest
  split
  · next h =>
    rw [Bool.and_eq_true, List.all_eq_true] at h
    exact readString_literalLines (fun c hc => by simpa using h.1 c hc) h.2 hrest
  split
  · exact readString_basicLines _ hrest
  · exact readString_basic _ hrest

/-- A string is written with a quote or an apostrophe in front. -/
theorem exists_stringChars (text : String) :
    ∃ c cs, stringChars text = c :: cs ∧ (c = '"' ∨ c = '\'') := by
  unfold stringChars
  cases Spelling.ofText text.toList with
  | basic => exact ⟨'"', _, rfl, .inl rfl⟩
  | literal => exact ⟨'\'', _, rfl, .inr rfl⟩
  | basicLines => exact ⟨'"', _, rfl, .inl rfl⟩
  | literalLines => exact ⟨'\'', _, rfl, .inr rfl⟩

/-! ## Keys -/

theorem readKey_quoted {c : Char} {spelled text rest : List Char} (hc : isBare c = false)
    (h : readLineString (c :: spelled ++ rest) = some (text, rest)) :
    readKey (c :: spelled ++ rest) = some (text, rest) := by
  unfold readKey
  rw [List.cons_append, List.takeWhile_cons_of_neg (by simp [hc])]
  exact h

theorem readKey_bare {text rest : List Char} (hne : text ≠ []) (h : ∀ c ∈ text, isBare c = true)
    (hrest : ∀ c ∈ rest.head?, isBare c = false) : readKey (text ++ rest) = some (text, rest) := by
  have htake : (text ++ rest).takeWhile isBare = text := by
    rw [List.takeWhile_append_of_pos h]
    cases rest with
    | nil => exact List.append_nil text
    | cons c rest =>
      rw [List.takeWhile_cons_of_neg (by simp [hrest c rfl]), List.append_nil]
  unfold readKey
  rw [htake]
  simp [hne]

/-- **A key is read back**, whether it is written bare or quoted. -/
theorem readKey_keyChars (key : String) {rest : List Char}
    (hrest : ∀ c ∈ rest.head?, isBare c = false) :
    readKey (keyChars key ++ rest) = some (key.toList, rest) := by
  unfold keyChars
  dsimp only
  split
  · next h =>
    rw [Bool.and_eq_true, List.all_eq_true] at h
    exact readKey_bare (by simpa using h.1) h.2 hrest
  split
  · exact readKey_quoted (by decide) (readLineString_basic _ rest)
  split
  · next h =>
    refine readKey_quoted (by decide) (readLineString_literal (fun c hc => ?_) rest)
    simpa using List.all_eq_true.1 h c hc
  · exact readKey_quoted (by decide) (readLineString_basic _ rest)

/-- A key is written with a character in front that may be part of a bare key, or with a quote or
an apostrophe. -/
theorem exists_keyChars (key : String) :
    ∃ c cs, keyChars key = c :: cs ∧ (isBare c = true ∨ c = '"' ∨ c = '\'') := by
  unfold keyChars
  dsimp only
  split
  · next h =>
    rw [Bool.and_eq_true, List.all_eq_true] at h
    obtain ⟨c, cs, hcs⟩ := List.exists_cons_of_ne_nil (by simpa using h.1 : key.toList ≠ [])
    exact ⟨c, cs, hcs, .inl (h.2 c (hcs ▸ List.mem_cons_self))⟩
  split
  · exact ⟨'"', _, rfl, .inr (.inl rfl)⟩
  split
  · exact ⟨'\'', _, rfl, .inr (.inr rfl)⟩
  · exact ⟨'"', _, rfl, .inr (.inl rfl)⟩

end JavaAtlas.Toml
