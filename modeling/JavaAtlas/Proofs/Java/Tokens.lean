import Mathlib.Data.Nat.Find
import JavaAtlas.Proofs.Java.Rereading
import JavaAtlas.Text.Word

set_option autoImplicit false

/-! # Stripping and the tokens of the code

A token is a literal, or as many characters of code standing together as make a text of the
vocabulary. A comment ends a token, but nothing marks the place of a comment without line breaks in
the stripped text, and a token may go on across it there. Where that happens is told by `overhang`,
and the tokens of the stripped text are those of the text exactly if it happens nowhere
(`tokensFrom_remnants_iff`): up to the first such place both texts have the same tokens. -/

namespace JavaAtlas.Java

/-! ## Tokens -/

/-- Whether a character of code separates tokens. -/
def isBlank (c : Char) : Bool := [' ', '\t', '\x0c', '\n', '\r'].contains c

/-- The characters of code that stand together at the start of some lexemes. -/
def run : List Lexeme → List Char
  | .code c :: rest => if isBlank c then [] else c :: run rest
  | _ => []

/-- Tells which texts may be tokens. -/
abbrev Vocabulary := List Char → Bool

/-- The length of the token at the start of characters that stand together: the longest text of the
vocabulary, or a character alone. -/
def munch (vocabulary : Vocabulary) (cs : List Char) : Nat :=
  Nat.findGreatest (fun n => n = 1 ∨ vocabulary (cs.take n) = true) cs.length

/-- The tokens of some lexemes, when the first `taken` lexemes belong to the token before. -/
def tokensFrom (vocabulary : Vocabulary) : Nat → List Lexeme → List (List Char)
  | _, [] => []
  | taken + 1, _ :: rest => tokensFrom vocabulary taken rest
  | 0, .code c :: rest =>
    if isBlank c then tokensFrom vocabulary 0 rest
    else
      let length := munch vocabulary (c :: run rest)
      (c :: run rest).take length :: tokensFrom vocabulary (length - 1) rest
  | 0, lexeme :: rest =>
    if lexeme.isComment then tokensFrom vocabulary 0 rest
    else lexeme.chars :: tokensFrom vocabulary 0 rest

/-- The tokens of some lexemes; comments are none. -/
def tokens (vocabulary : Vocabulary) (lexemes : List Lexeme) : List (List Char) :=
  tokensFrom vocabulary 0 lexemes

/-- How many lexemes of `back` belong to a token that begins in `front`, when the two stand side by
side and the first `taken` lexemes belong to the token before. -/
def overhangFrom (vocabulary : Vocabulary) : Nat → List Lexeme → List Lexeme → Nat
  | taken, [], _ => taken
  | taken + 1, _ :: front, back => overhangFrom vocabulary taken front back
  | 0, .code c :: front, back =>
    if isBlank c then overhangFrom vocabulary 0 front back
    else overhangFrom vocabulary (munch vocabulary (c :: run (front ++ back)) - 1) front back
  | 0, _ :: front, back => overhangFrom vocabulary 0 front back

/-- How many lexemes of `back` belong to a token that begins in `front`. -/
def overhang (vocabulary : Vocabulary) (front back : List Lexeme) : Nat :=
  overhangFrom vocabulary 0 front back

/-- Whether the lexeme is a comment of which stripping leaves nothing. -/
def Lexeme.isInline (lexeme : Lexeme) : Bool :=
  lexeme.isComment && !lexeme.chars.any isLineBreak

variable {vocabulary : Vocabulary}

/-! ## The longest match -/

theorem munch_le (vocabulary : Vocabulary) (cs : List Char) :
    munch vocabulary cs ≤ cs.length :=
  Nat.findGreatest_le _

theorem munch_accepts (vocabulary : Vocabulary) {cs : List Char} (h : munch vocabulary cs ≠ 0) :
    munch vocabulary cs = 1 ∨ vocabulary (cs.take (munch vocabulary cs)) = true :=
  Nat.findGreatest_of_ne_zero rfl h

/-- Characters behind a match do not matter. -/
theorem munch_append {cs more : List Char} (h : munch vocabulary (cs ++ more) ≤ cs.length) :
    munch vocabulary (cs ++ more) = munch vocabulary cs := by
  have htake : ∀ {n}, n ≤ cs.length → (cs ++ more).take n = cs.take n := fun hn =>
    List.take_append_of_le_length hn
  refine Nat.le_antisymm ?_ ?_
  · rcases Nat.eq_zero_or_pos (munch vocabulary (cs ++ more)) with hzero | hpos
    · omega
    · have haccepts := munch_accepts vocabulary (Nat.ne_of_gt hpos)
      rw [htake h] at haccepts
      exact Nat.le_findGreatest h haccepts
  · have hle := munch_le vocabulary cs
    rcases Nat.eq_zero_or_pos (munch vocabulary cs) with hzero | hpos
    · omega
    · have haccepts := munch_accepts vocabulary (Nat.ne_of_gt hpos)
      rw [← htake hle] at haccepts
      exact Nat.le_findGreatest (by rw [List.length_append]; omega) haccepts

/-! ## What stripping leaves -/

theorem Lexeme.kept_eq_nil_iff {lexeme : Lexeme} (h : lexeme.isComment = true) :
    lexeme.kept = [] ↔ lexeme.isInline = true := by
  unfold kept isInline
  rw [if_pos h, h, List.filter_eq_nil_iff]
  simp

theorem remnants_cons (lexeme : Lexeme) (rest : List Lexeme) :
    remnants (lexeme :: rest) = lexeme.remnants ++ remnants rest := rfl

theorem remnants_append (lexemes others : List Lexeme) :
    remnants (lexemes ++ others) = remnants lexemes ++ remnants others := List.flatMap_append

theorem Lexeme.remnants_of_not_isComment {lexeme : Lexeme} (h : lexeme.isComment = false) :
    lexeme.remnants = [lexeme] := by
  unfold remnants
  rw [h, if_neg Bool.false_ne_true]

theorem Lexeme.remnants_of_isInline {lexeme : Lexeme} (h : lexeme.isInline = true) :
    lexeme.remnants = [] := by
  have hcomment : lexeme.isComment = true := (Bool.and_eq_true_iff.1 h).1
  unfold remnants
  rw [if_pos hcomment, (kept_eq_nil_iff hcomment).2 h, List.map_nil]

/-- A comment with line breaks leaves blank characters. -/
theorem Lexeme.exists_remnants {lexeme : Lexeme} (h : lexeme.isComment = true)
    (hinline : lexeme.isInline = false) : ∃ c cs, lexeme.remnants = (c :: cs).map .code ∧
      ∀ d ∈ c :: cs, isBlank d = true := by
  have hkept : lexeme.kept ≠ [] := by
    rw [Ne, kept_eq_nil_iff h, hinline]
    exact Bool.false_ne_true
  obtain ⟨c, cs, hcs⟩ := List.exists_cons_of_ne_nil hkept
  refine ⟨c, cs, by rw [← hcs, remnants, if_pos h], fun d hd => ?_⟩
  rw [← hcs, kept, if_pos h] at hd
  have hbreak := (List.mem_filter.1 hd).2
  simp only [isLineBreak, Bool.or_eq_true, beq_iff_eq] at hbreak
  rcases hbreak with rfl | rfl <;> decide

theorem run_of_not_code {lexeme : Lexeme} (h : ∀ c, lexeme ≠ .code c) (rest : List Lexeme) :
    run (lexeme :: rest) = [] := by
  cases lexeme with
  | code c => exact absurd rfl (h c)
  | _ => rfl

theorem run_blank {c : Char} (h : isBlank c = true) (rest : List Lexeme) :
    run (.code c :: rest) = [] := if_pos h

theorem run_code {c : Char} (h : isBlank c = false) (rest : List Lexeme) :
    run (.code c :: rest) = c :: run rest := by
  rw [run, h, if_neg Bool.false_ne_true]

/-- Characters that stand together do so in the stripped text, if not with more behind them. -/
theorem run_prefix_remnants (lexemes : List Lexeme) : run lexemes <+: run (remnants lexemes) := by
  induction lexemes with
  | nil => exact List.prefix_rfl
  | cons lexeme rest ih =>
    cases lexeme with
    | code c =>
      show run (.code c :: rest) <+: run (.code c :: remnants rest)
      cases hblank : isBlank c with
      | true => rw [run_blank hblank]; exact List.nil_prefix
      | false => rw [run_code hblank, run_code hblank]; exact List.cons_prefix_cons.2 ⟨rfl, ih⟩
    | _ => exact List.nil_prefix

/-! ## Tokens across comments -/

section

variable (vocabulary)

/-- Blank characters are passed over. -/
theorem tokensFrom_blanks {cs : List Char} (h : ∀ c ∈ cs, isBlank c = true)
    (rest : List Lexeme) :
    tokensFrom vocabulary 0 (cs.map .code ++ rest) = tokensFrom vocabulary 0 rest := by
  induction cs with
  | nil => rfl
  | cons c cs ih =>
    rw [List.forall_mem_cons] at h
    rw [List.map_cons, List.cons_append, tokensFrom, if_pos h.1, ih h.2]

theorem overhangFrom_blanks {cs : List Char} (h : ∀ c ∈ cs, isBlank c = true)
    (front back : List Lexeme) : overhangFrom vocabulary 0 (cs.map .code ++ front) back =
      overhangFrom vocabulary 0 front back := by
  induction cs with
  | nil => rfl
  | cons c cs ih =>
    rw [List.forall_mem_cons] at h
    rw [List.map_cons, List.cons_append, overhangFrom, if_pos h.1, ih h.2]

/-- Whether no token of the stripped text goes on across the place of a comment of which nothing is
left, when its first `taken` lexemes belong to the token before. -/
def Separates (taken : Nat) (lexemes : List Lexeme) : Prop :=
  ∀ before comment after, lexemes = before ++ comment :: after → comment.isInline = true →
    overhangFrom vocabulary taken (remnants before) (remnants after) = 0

end

theorem separates_cons_iff {taken : Nat} {lexeme : Lexeme} {rest : List Lexeme} :
    Separates vocabulary taken (lexeme :: rest) ↔ (lexeme.isInline = true → taken = 0) ∧
      ∀ before comment after, rest = before ++ comment :: after → comment.isInline = true →
        overhangFrom vocabulary taken (lexeme.remnants ++ remnants before) (remnants after) = 0 := by
  constructor
  · intro h
    refine ⟨fun hinline => ?_, fun before comment after heq hinline => ?_⟩
    · have hnone := h [] lexeme rest rfl hinline
      cases taken <;> exact hnone
    · exact h (lexeme :: before) comment after (by rw [heq]; rfl) hinline
  · rintro ⟨hfirst, hrest⟩ before comment after heq hinline
    cases before with
    | nil =>
      obtain ⟨rfl, rfl⟩ := List.cons.inj heq
      rw [hfirst hinline]
      rfl
    | cons first before =>
      obtain ⟨rfl, rfl⟩ := List.cons.inj heq
      exact hrest before comment after rfl hinline

/-! ### One lexeme -/

theorem separates_inline {taken : Nat} {lexeme : Lexeme} {rest : List Lexeme}
    (h : lexeme.isInline = true) : Separates vocabulary taken (lexeme :: rest) ↔
      taken = 0 ∧ Separates vocabulary taken rest := by
  rw [separates_cons_iff, Lexeme.remnants_of_isInline h]
  exact and_congr_left fun _ => ⟨fun hzero => hzero h, fun hzero _ => hzero⟩

/-- Where no token goes on, what is no code does not begin one that could. -/
theorem separates_not_code {lexeme : Lexeme} {rest : List Lexeme}
    (h : ∀ c, lexeme ≠ .code c) : Separates vocabulary 0 (lexeme :: rest) ↔
      Separates vocabulary 0 rest := by
  have hstep : ∀ front back, overhangFrom vocabulary 0 (lexeme.remnants ++ front) back =
      overhangFrom vocabulary 0 front back := by
    intro front back
    cases hcomment : lexeme.isComment with
    | false =>
      rw [Lexeme.remnants_of_not_isComment hcomment]
      cases lexeme with
      | code c => exact absurd rfl (h c)
      | _ => rfl
    | true =>
      cases hinline : lexeme.isInline with
      | true => rw [Lexeme.remnants_of_isInline hinline, List.nil_append]
      | false =>
        obtain ⟨c, cs, hremnants, hblank⟩ := Lexeme.exists_remnants hcomment hinline
        rw [hremnants, overhangFrom_blanks vocabulary hblank]
  rw [separates_cons_iff]
  simp only [hstep]
  exact and_iff_right fun _ => trivial

theorem separates_blank {c : Char} {rest : List Lexeme} (h : isBlank c = true) :
    Separates vocabulary 0 (.code c :: rest) ↔ Separates vocabulary 0 rest := by
  rw [separates_cons_iff]
  show _ ∧ (∀ before comment after, _ → _ →
    overhangFrom vocabulary 0 (.code c :: remnants before) (remnants after) = 0) ↔ _
  simp only [overhangFrom, if_pos h]
  exact and_iff_right fun _ => trivial

theorem separates_taken {taken : Nat} {c : Char} {rest : List Lexeme} :
    Separates vocabulary (taken + 1) (.code c :: rest) ↔ Separates vocabulary taken rest := by
  rw [separates_cons_iff]
  exact and_iff_right fun h => absurd h Bool.false_ne_true

/-- A token begins at a character of code and takes what it can of the stripped text. -/
theorem separates_code {c : Char} {rest : List Lexeme} (h : isBlank c = false) :
    Separates vocabulary 0 (.code c :: rest) ↔
      Separates vocabulary (munch vocabulary (c :: run (remnants rest)) - 1) rest := by
  rw [separates_cons_iff]
  show _ ∧ (∀ before comment after, _ → _ →
    overhangFrom vocabulary 0 (.code c :: remnants before) (remnants after) = 0) ↔ _
  simp only [overhangFrom, h, if_neg Bool.false_ne_true, ← remnants_append]
  refine (and_iff_right fun _ => trivial).trans ?_
  -- the comment between the two parts leaves nothing
  have hremnants : ∀ before comment after, rest = before ++ comment :: after →
      comment.isInline = true → remnants (before ++ after) = remnants rest := by
    rintro before comment after rfl hinline
    rw [remnants_append, remnants_append, remnants_cons, Lexeme.remnants_of_isInline hinline,
      List.nil_append]
  refine forall₃_congr fun before comment after => forall₂_congr fun heq hinline => ?_
  rw [hremnants before comment after heq hinline]

/-- What belongs to the token before stands together in the text itself, if no token goes on across
a comment. -/
theorem Separates.taken_le {taken : Nat} {lexemes : List Lexeme}
    (h : Separates vocabulary taken lexemes) (htaken : taken ≤ (run (remnants lexemes)).length) :
    taken ≤ (run lexemes).length := by
  induction lexemes generalizing taken with
  | nil => exact htaken
  | cons lexeme rest ih =>
    by_cases hcode : ∃ c, lexeme = .code c
    · obtain ⟨c, rfl⟩ := hcode
      change taken ≤ (run (.code c :: remnants rest)).length at htaken
      cases hblank : isBlank c with
      | true => rwa [run_blank hblank] at htaken ⊢
      | false =>
        rw [run_code hblank, List.length_cons] at htaken ⊢
        cases taken with
        | zero => exact Nat.zero_le _
        | succ taken =>
          have hrest := ih (separates_taken.1 h) (Nat.le_of_succ_le_succ htaken)
          exact Nat.succ_le_succ hrest
    · have hother : ∀ c, lexeme ≠ .code c := fun c heq => hcode ⟨c, heq⟩
      rw [run_of_not_code hother]
      cases hcomment : lexeme.isComment with
      | false =>
        rwa [remnants_cons, Lexeme.remnants_of_not_isComment hcomment, List.singleton_append,
          run_of_not_code hother] at htaken
      | true =>
        cases hinline : lexeme.isInline with
        | true => exact Nat.le_of_eq (separates_inline hinline |>.1 h).1
        | false =>
          obtain ⟨c, cs, hremnants, hblank⟩ := Lexeme.exists_remnants hcomment hinline
          rwa [remnants_cons, hremnants, List.map_cons, List.cons_append,
            run_blank (List.forall_mem_cons.1 hblank).1] at htaken

/-! ### All lexemes -/

theorem tokensFrom_not_code {lexeme : Lexeme} {rest : List Lexeme} (h : ∀ c, lexeme ≠ .code c)
    (ih : tokensFrom vocabulary 0 (remnants rest) = tokensFrom vocabulary 0 rest ↔
      Separates vocabulary 0 rest) :
    tokensFrom vocabulary 0 (remnants (lexeme :: rest)) =
        tokensFrom vocabulary 0 (lexeme :: rest) ↔
      Separates vocabulary 0 (lexeme :: rest) := by
  have hstep : ∀ more, tokensFrom vocabulary 0 (lexeme :: more) =
      if lexeme.isComment then tokensFrom vocabulary 0 more
      else lexeme.chars :: tokensFrom vocabulary 0 more := by
    intro more
    cases lexeme with
    | code c => exact absurd rfl (h c)
    | _ => rfl
  rw [separates_not_code h, ← ih, hstep, remnants_cons]
  cases hcomment : lexeme.isComment with
  | false =>
    rw [Lexeme.remnants_of_not_isComment hcomment, List.singleton_append, hstep, hcomment]
    simp
  | true =>
    rw [if_pos rfl]
    cases hinline : lexeme.isInline with
    | true => rw [Lexeme.remnants_of_isInline hinline, List.nil_append]
    | false =>
      obtain ⟨c, cs, hremnants, hblank⟩ := Lexeme.exists_remnants hcomment hinline
      rw [hremnants, tokensFrom_blanks vocabulary hblank]

theorem tokensFrom_code {c : Char} {rest : List Lexeme} (h : isBlank c = false)
    (ih : ∀ {taken}, taken ≤ (run rest).length →
      (tokensFrom vocabulary taken (remnants rest) = tokensFrom vocabulary taken rest ↔
        Separates vocabulary taken rest)) :
    tokensFrom vocabulary 0 (.code c :: remnants rest) =
        tokensFrom vocabulary 0 (.code c :: rest) ↔
      Separates vocabulary 0 (.code c :: rest) := by
  have hstep : ∀ more, tokensFrom vocabulary 0 (.code c :: more) =
      (c :: run more).take (munch vocabulary (c :: run more)) ::
        tokensFrom vocabulary (munch vocabulary (c :: run more) - 1) more := by
    intro more
    rw [tokensFrom, h, if_neg Bool.false_ne_true]
  have hlong := munch_le vocabulary (c :: run (remnants rest))
  have hshort := munch_le vocabulary (c :: run rest)
  rw [separates_code h, hstep, hstep, List.cons.injEq]
  constructor
  · rintro ⟨hfirst, hrest⟩
    -- equal tokens are equally long, so what follows them agrees as well
    have hlength : munch vocabulary (c :: run (remnants rest)) = munch vocabulary (c :: run rest) := by
      have hlengths := congrArg List.length hfirst
      rwa [List.length_take, List.length_take, Nat.min_eq_left hlong,
        Nat.min_eq_left hshort] at hlengths
    rw [hlength] at hrest ⊢
    rw [List.length_cons] at hshort
    exact (ih (by omega)).1 hrest
  · intro hseparates
    rw [List.length_cons] at hlong
    have hwithin := hseparates.taken_le (by omega)
    obtain ⟨more, hmore⟩ := run_prefix_remnants rest
    -- the token ends in the text itself, so it is the longest one there as well
    have hmatch : munch vocabulary (c :: run rest ++ more) = munch vocabulary (c :: run rest) := by
      refine munch_append ?_
      rw [List.cons_append, hmore, List.length_cons]
      omega
    rw [← hmore, ← List.cons_append, hmatch] at hseparates hwithin ⊢
    exact ⟨List.take_append_of_le_length hshort, (ih hwithin).2 hseparates⟩

/-- The tokens stay the same exactly if none goes on across the place of a comment of which nothing
is left. -/
theorem tokensFrom_remnants_iff {lexemes : List Lexeme} {taken : Nat}
    (htaken : taken ≤ (run lexemes).length) :
    tokensFrom vocabulary taken (remnants lexemes) = tokensFrom vocabulary taken lexemes ↔
      Separates vocabulary taken lexemes := by
  induction lexemes generalizing taken with
  | nil =>
    refine iff_of_true rfl fun before comment after heq => ?_
    exact absurd heq (by simp)
  | cons lexeme rest ih =>
    by_cases hcode : ∃ c, lexeme = .code c
    · obtain ⟨c, rfl⟩ := hcode
      show tokensFrom vocabulary taken (.code c :: remnants rest) = _ ↔ _
      cases hblank : isBlank c with
      | true =>
        rw [run_blank hblank] at htaken
        obtain rfl := Nat.le_zero.1 htaken
        rw [separates_blank hblank, ← ih (Nat.zero_le _)]
        simp [tokensFrom, hblank]
      | false =>
        cases taken with
        | succ taken =>
          rw [run_code hblank, List.length_cons] at htaken
          rw [separates_taken, ← ih (Nat.le_of_succ_le_succ htaken)]
          rfl
        | zero => exact tokensFrom_code hblank ih
    · have hother : ∀ c, lexeme ≠ .code c := fun c heq => hcode ⟨c, heq⟩
      rw [run_of_not_code hother] at htaken
      obtain rfl := Nat.le_zero.1 htaken
      exact tokensFrom_not_code hother (ih (Nat.zero_le _))

/-! ## Characters that a token may join -/

theorem exists_run (lexemes : List Lexeme) :
    ∃ rest, lexemes = (run lexemes).map .code ++ rest := by
  induction lexemes with
  | nil => exact ⟨[], rfl⟩
  | cons lexeme rest ih =>
    by_cases hcode : ∃ c, lexeme = .code c ∧ isBlank c = false
    · obtain ⟨c, rfl, hblank⟩ := hcode
      obtain ⟨more, hmore⟩ := ih
      rw [run_code hblank]
      exact ⟨more, congrArg (.code c :: ·) hmore⟩
    · have hnone : run (lexeme :: rest) = [] := by
        cases lexeme with
        | code c => exact run_blank (by simpa using hcode) rest
        | _ => rfl
      exact ⟨lexeme :: rest, by rw [hnone]; rfl⟩

theorem isBlank_of_mem_run {lexemes : List Lexeme} {c : Char} (h : c ∈ run lexemes) :
    isBlank c = false := by
  fun_induction run lexemes with
  | case1 d rest hblank => exact absurd h List.not_mem_nil
  | case2 d rest hblank ih =>
    rcases List.mem_cons.1 h with rfl | h
    · exact Bool.eq_false_iff.2 hblank
    · exact ih h
  | case3 => exact absurd h List.not_mem_nil

theorem overhangFrom_of_le_length {taken : Nat} {front back : List Lexeme}
    (h : taken ≤ front.length) :
    overhangFrom vocabulary taken front back = overhangFrom vocabulary 0 (front.drop taken) back := by
  induction front generalizing taken with
  | nil =>
    obtain rfl := Nat.le_zero.1 h
    rfl
  | cons lexeme front ih =>
    cases taken with
    | zero => rfl
    | succ taken => exact ih (Nat.le_of_succ_le_succ h)

/-- Whether two characters are side by side in some text of the vocabulary. -/
def MayJoin (vocabulary : Vocabulary) (a b : Char) : Prop :=
  isBlank a = false ∧ isBlank b = false ∧ ∃ text, vocabulary text = true ∧ [a, b] <:+: text

theorem exists_neighbours {cs : List Char} {place : Nat} (h : place + 1 < cs.length) :
    ∃ before a b after, cs = before ++ a :: b :: after ∧ before.length = place := by
  have hplace : place < cs.length := Nat.lt_of_succ_lt h
  refine ⟨cs.take place, cs[place], cs[place + 1], cs.drop (place + 1 + 1), ?_, ?_⟩
  · rw [← List.drop_eq_getElem_cons h, ← List.drop_eq_getElem_cons hplace,
      List.take_append_drop]
  · rw [List.length_take]
    omega

/-- A token that begins with the front part and goes on in the back part has the two characters at
the place where the parts meet. -/
theorem exists_of_long_munch {c : Char} {front back : List Lexeme} (h : isBlank c = false)
    (hlong : front.length + 1 < munch vocabulary (c :: run (front ++ back))) :
    ∃ before a b after, .code c :: front = before ++ [.code a] ∧ back = .code b :: after ∧
      MayJoin vocabulary a b := by
  have hle := munch_le vocabulary (c :: run (front ++ back))
  have haccepts := (munch_accepts vocabulary
    (Nat.ne_of_gt (Nat.lt_of_le_of_lt (Nat.zero_le _) hlong))).resolve_left (by omega)
  have hplain : ∀ d ∈ c :: run (front ++ back), isBlank d = false :=
    List.forall_mem_cons.2 ⟨h, fun d => isBlank_of_mem_run⟩
  obtain ⟨rest, hrest⟩ := exists_run (front ++ back)
  have hall : .code c :: front ++ back = (c :: run (front ++ back)).map .code ++ rest := by
    rw [List.cons_append, List.map_cons, List.cons_append, ← hrest]
  generalize c :: run (front ++ back) = cs at hlong hle haccepts hplain hall
  -- the last character of the front part is at the place of its length
  obtain ⟨before, a, b, after, rfl, hplace⟩ :=
    exists_neighbours (Nat.lt_of_lt_of_le hlong hle)
  have hsplit : .code c :: front ++ back =
      (before.map .code ++ [.code a]) ++ (.code b :: (after.map .code ++ rest)) := by
    rw [hall]
    simp
  obtain ⟨hfront, hback⟩ := List.append_inj hsplit (by simp; omega)
  refine ⟨_, a, b, _, hfront, hback, hplain a (by simp), hplain b (by simp), _, haccepts, ?_⟩
  obtain ⟨more, hmore⟩ : ∃ more, munch vocabulary (before ++ a :: b :: after) =
      (before ++ [a, b]).length + more := Nat.exists_eq_add_of_le (by simp; omega)
  rw [hmore, show before ++ a :: b :: after = (before ++ [a, b]) ++ after by simp,
    List.take_length_add_append]
  exact ⟨before, after.take more, rfl⟩

/-- Only characters that a token may join are at the place where a token goes on. -/
theorem exists_of_overhang_pos {front back : List Lexeme}
    (h : 0 < overhangFrom vocabulary 0 front back) :
    ∃ before a b after, front = before ++ [.code a] ∧ back = .code b :: after ∧
      MayJoin vocabulary a b := by
  match front with
  | [] => exact absurd h (Nat.lt_irrefl 0)
  | lexeme :: front =>
    -- a token that ends inside the front part is passed over
    have hlater : ∀ taken, taken ≤ front.length →
        0 < overhangFrom vocabulary taken front back →
        ∃ before a b after, lexeme :: front = before ++ [.code a] ∧ back = .code b :: after ∧
          MayJoin vocabulary a b := by
      intro taken htaken hpos
      rw [overhangFrom_of_le_length htaken] at hpos
      obtain ⟨before, a, b, after, hfront, hback, hjoin⟩ := exists_of_overhang_pos hpos
      refine ⟨lexeme :: (front.take taken ++ before), a, b, after, ?_, hback, hjoin⟩
      rw [List.cons_append, List.append_assoc, ← hfront, List.take_append_drop]
    by_cases hcode : ∃ c, lexeme = .code c ∧ isBlank c = false
    · obtain ⟨c, rfl, hblank⟩ := hcode
      rw [overhangFrom, hblank, if_neg Bool.false_ne_true] at h
      rcases Nat.lt_or_ge (front.length + 1) (munch vocabulary (c :: run (front ++ back))) with
        hlong | hshort
      · exact exists_of_long_munch hblank hlong
      · exact hlater _ (by omega) h
    · refine hlater 0 (Nat.zero_le _) ?_
      cases lexeme with
      | code c =>
        have hblank : isBlank c = true := by simpa using hcode
        rwa [overhangFrom, if_pos hblank] at h
      | _ => exact h
termination_by front.length
decreasing_by
  rw [List.length_drop, List.length_cons]
  omega

end JavaAtlas.Java
