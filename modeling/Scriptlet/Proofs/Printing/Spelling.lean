import Scriptlet.Proofs.Grammar.WellFormed
import Scriptlet.Tree.Printer

set_option autoImplicit false

/-!
How the lexemes of a tree are written, and what may stand behind them. A printed lexeme is one of
its spellings, starts neither with white space nor as a comment, and ends before what is printed
next.
-/
namespace Scriptlet

namespace Text

/-- Ranges of code points with all white space beyond ASCII, and without letters and digits. -/
def blankRanges : List (Nat × Nat) :=
  [(0x85, 0xA0), (0x1680, 0x1680), (0x2000, 0x205F), (0x3000, 0x3000)]

theorem bounds_of_isBlank {c : Char} (blank : isBlank c = true) :
    c.toNat ≤ 32 ∨ ∃ gap ∈ blankRanges, gap.1 ≤ c.toNat ∧ c.toNat ≤ gap.2 := by
  simp only [isBlank, Bool.or_eq_true, Bool.and_eq_true, decide_eq_true_eq, beq_iff_eq] at blank
  simp only [blankRanges, List.mem_cons, List.not_mem_nil, or_false, exists_eq_or_imp,
    exists_eq_left]
  omega

/-- Whether a range lies before or behind another one. -/
def isApart (gap range : Nat × Nat) : Bool :=
  range.2.blt gap.1 || gap.2.blt range.1

theorem not_inRanges {ranges : Array (Nat × Nat)} {gap : Nat × Nat}
    (apart : ranges.toList.all (isApart gap) = true) {c : Char} (least : gap.1 ≤ c.toNat)
    (most : c.toNat ≤ gap.2) : inRanges ranges c = false := by
  rw [inRanges, ← Array.any_toList, List.any_eq_false]
  intro range member
  have beside := List.all_eq_true.mp apart range member
  simp only [isApart, Bool.or_eq_true, Nat.blt_eq] at beside
  simp only [Bool.and_eq_true, decide_eq_true_eq]
  omega

/-- Whether a character is one of the ASCII characters with a picture, or the space. -/
def IsPrintableAscii (c : Char) : Prop :=
  32 ≤ c.toNat ∧ c.toNat ≤ 126

theorem not_isCombining {c : Char} (ascii : c.toNat < 128) : isCombining c = false := by
  have apart : combiningRanges.toList.all (isApart (0, 127)) = true := by decide +kernel
  exact not_inRanges apart (Nat.zero_le _) (Nat.le_of_lt_succ ascii)

theorem escapeChar_of_printable {c : Char} (printable : IsPrintableAscii c) (quote : Char) :
    escapeChar quote c =
      if c == '\\' then ['\\', '\\'] else if c == quote then ['\\', quote] else [c] := by
  obtain ⟨lower, upper⟩ := printable
  have other (d : Char) (control : d.toNat < 32) : (c == d) = false := by
    rw [beq_eq_false_iff_ne]
    rintro rfl
    omega
  have drawn : isUnprintable c = false := by
    have ascii : c.toNat < 128 := by omega
    simp only [isUnprintable, ascii, ↓reduceIte, Bool.or_eq_false_iff, decide_eq_false_iff_not]
    omega
  have apart : isCombining c = false := not_isCombining (by omega)
  simp only [escapeChar, other '\x00' (by decide), other '\t' (by decide), other '\r' (by decide),
    other '\n' (by decide), drawn, apart, Bool.or_false, Bool.false_eq_true, ↓reduceIte]

end Text

namespace Keyword

theorem isWord_spelling (word : Keyword) : IsWord word.spelling := by
  cases word <;> exact ⟨_, _, rfl, by decide, List.all_eq_true.mp (by decide)⟩

theorem ofWord_spelling (word : Keyword) : Lexeme.ofWord word.spelling = .keyword word := by
  cases word <;> rfl

theorem spelling_of_ofSpelling? {text : String} {word : Keyword}
    (found : ofSpelling? text = some word) : word.spelling = text := by
  rw [ofSpelling?] at found
  have same := List.find?_some found
  exact eq_of_beq same

end Keyword

theorem Lexeme.ofWord_ne_punctuator (word : String) (sign : Punctuator) :
    ofWord word ≠ .punctuator sign := by
  unfold ofWord
  repeat' split
  all_goals nofun

/-- The token of a word tells the word. -/
theorem Token.word?_of_ofWord {token : Token} {word : String}
    (lexeme_eq : token.lexeme = .ofWord word) : token.word? = some word := by
  unfold Lexeme.ofWord at lexeme_eq
  split at lexeme_eq
  · rename_i isTrue
    rw [word?, lexeme_eq, eq_of_beq isTrue]
    rfl
  · split at lexeme_eq
    · rename_i isFalse
      rw [word?, lexeme_eq, eq_of_beq isFalse]
      rfl
    · split at lexeme_eq
      · rename_i isNull
        rw [word?, lexeme_eq, eq_of_beq isNull]
      · split at lexeme_eq
        · rename_i reserved found
          simp only [word?, lexeme_eq, Keyword.spelling_of_ofSpelling? found]
        · rw [word?, lexeme_eq]

theorem propertyKey?_of_ofWord {token : Token} {word : String}
    (lexeme_eq : token.lexeme = .ofWord word) : Grammar.propertyKey? token = some word := by
  have word_eq := Token.word?_of_ofWord lexeme_eq
  unfold Grammar.propertyKey?
  split
  · rename_i value number_eq
    rw [Token.word?, number_eq] at word_eq
    cases word_eq
  · rename_i value string_eq
    rw [Token.word?, string_eq] at word_eq
    cases word_eq
  · exact word_eq

/-- White space is no part of a word. -/
theorem not_isWordPart_of_isBlank {c : Char} (blank : Text.isBlank c = true) :
    isWordPart c = false := by
  rcases Text.bounds_of_isBlank blank with ascii | ⟨gap, member, least, most⟩
  · have none : ∀ code ≤ 32, isWordPart (Char.ofNat code) = false := by decide +kernel
    have := none c.toNat ascii
    rwa [Char.ofNat_toNat] at this
  · have apart : ∀ gap ∈ Text.blankRanges, 127 < gap.1 ∧
        Text.alphabeticRanges.toList.all (Text.isApart gap) = true ∧
        Text.numericRanges.toList.all (Text.isApart gap) = true := by decide +kernel
    obtain ⟨beyond, letters, digits⟩ := apart gap member
    have other : ¬ c.toNat < 128 := by omega
    have high (d : Char) (low : d.toNat < 128) : (c == d) = false := by
      rw [beq_eq_false_iff_ne]
      rintro rfl
      exact other low
    simp only [isWordPart, isWordHead, high '_' (by decide), high '$' (by decide),
      Text.isAlphabetic, Text.isNumeric, other, ↓reduceIte,
      Text.not_inRanges letters least most, Text.not_inRanges digits least most, Bool.or_false]

theorem isWordPart_of_isDigit {c : Char} (digit : c.isDigit = true) : isWordPart c = true := by
  have bounds := isDigit_bounds digit
  have ascii : c.toNat < 128 := by omega
  simp [isWordPart, Text.isNumeric, ascii, digit]

/-- Whether a text starts with nothing that goes on with a word or a number. -/
def Apart (rest : List Char) : Prop :=
  Lexeme.startsNumber rest = false ∧ ∀ c, rest.head? = some c → isWordPart c = false

theorem apart_cons {c : Char} (other : isWordPart c = false) (pointless : c ≠ '.')
    (rest : List Char) : Apart (c :: rest) := by
  have undigit : c.isDigit = false := by
    rw [Bool.eq_false_iff]
    intro digit
    rw [isWordPart_of_isDigit digit] at other
    cases other
  refine ⟨?_, fun d first => Option.some.inj first ▸ other⟩
  cases rest with
  | nil => exact undigit
  | cons d rest => simp [Lexeme.startsNumber, undigit, pointless]

theorem apart_dot {c : Char} (other : c.isDigit = false) (rest : List Char) :
    Apart ('.' :: c :: rest) := by
  refine ⟨?_, fun d first => Option.some.inj first ▸ by decide⟩
  simp only [Lexeme.startsNumber, other]
  decide

namespace Punctuator

/-- Whether a character behind a sign goes on with it: to a longer sign, from a point to a number,
or from a slash to a comment. -/
def goesOn (sign : Punctuator) (c : Char) : Bool :=
  all.any (fun other => (sign.characters ++ [c]).isPrefixOf other.characters) ||
    sign == .dot && c.isDigit || sign == .slash && (c == '/' || c == '*')

/-- The signs that nothing goes on with. -/
def isSolitary (sign : Punctuator) : Bool :=
  [leftBrace, rightBrace, leftParen, rightParen, leftBracket, rightBracket, semicolon, comma,
    colon].contains sign

theorem not_goesOn_of_isSolitary {sign : Punctuator} (solitary : sign.isSolitary = true)
    (c : Char) : sign.goesOn c = false := by
  cases sign <;> first | exact absurd solitary (by decide) | rfl

theorem not_goesOn_blank (sign : Punctuator) : sign.goesOn ' ' = false := by
  cases sign <;> decide

theorem not_goesOn_dot {c : Char} (other : c.isDigit = false) : dot.goesOn c = false := by
  simp [goesOn, all, characters, List.isPrefixOf, other]

/-- Only an equality sign goes on with an operator in front of an operand. -/
theorem not_goesOn_unary (operator : UnaryOperator) {c : Char} (other : c ≠ '=') :
    operator.sign.goesOn c = false := by
  cases operator <;>
    simp [goesOn, UnaryOperator.sign, all, characters, List.isPrefixOf, other]

end Punctuator

namespace Lexeme

/-- A sign ends in front of a character that does not go on with it. -/
theorem ends_sign {sign : Punctuator} {rest : List Char}
    (stops : ∀ c, rest.head? = some c → sign.goesOn c = false) :
    Ends (.punctuator sign) rest := by
  refine ⟨Punctuator.longestAt?_eq_some_iff.mpr ⟨?_, fun other starts => ?_⟩, ?_⟩
  · exact List.isPrefixOf_iff_prefix.mpr (List.prefix_append _ _)
  · refine Decidable.byContradiction fun longer => ?_
    have prefix_other := List.isPrefixOf_iff_prefix.mp starts
    obtain ⟨more, other_eq⟩ := List.prefix_of_prefix_length_le (List.prefix_append _ rest)
      prefix_other (Nat.le_of_not_le longer)
    cases more with
    | nil =>
      rw [List.append_nil] at other_eq
      exact longer (Nat.le_of_eq (congrArg List.length other_eq.symm))
    | cons c more =>
      rw [← other_eq, List.prefix_append_right_inj] at prefix_other
      obtain ⟨tail, rfl⟩ := prefix_other
      have stopped := stops c rfl
      simp only [Punctuator.goesOn, Bool.or_eq_false_iff, List.any_eq_false] at stopped
      refine stopped.1.1 other (Punctuator.mem_all other) (List.isPrefixOf_iff_prefix.mpr ?_)
      exact ⟨more, by rw [List.append_assoc, List.singleton_append, other_eq]⟩
  · cases rest with
    | nil => cases sign <;> decide
    | cons c rest =>
      have stopped := stops c rfl
      by_cases isDot : sign = .dot
      · subst isDot
        simp only [Punctuator.goesOn, Bool.or_eq_false_iff, BEq.rfl, Bool.true_and] at stopped
        simp only [Punctuator.characters, List.singleton_append, startsNumber, stopped.1.2,
          Bool.and_false, Bool.or_false]
        decide
      · cases sign <;> first | exact absurd rfl isDot | rfl

theorem settled_cons {c : Char} (visible : Text.isBlank c = false) (unslashed : c ≠ '/')
    (rest : List Char) : Cursor.Settled (c :: rest) := by
  intro d tail front
  cases front
  exact ⟨visible, fun slash => absurd slash unslashed⟩

theorem settled_sign {sign : Punctuator} {rest : List Char}
    (stops : ∀ c, rest.head? = some c → sign.goesOn c = false) :
    Cursor.Settled (sign.characters ++ rest) := by
  by_cases isSlash : sign = .slash
  · subst isSlash
    intro d tail front
    cases front
    refine ⟨by decide, fun _ => ⟨fun second => ?_, fun second => ?_⟩⟩
    · exact absurd (stops _ second) (by decide)
    · exact absurd (stops _ second) (by decide)
  · by_cases isAssignment : sign = .slashAssign
    · subst isAssignment
      intro d tail front
      cases front
      exact ⟨by decide, fun _ => ⟨nofun, nofun⟩⟩
    · obtain ⟨c, tail, characters_eq, visible, unslashed⟩ : ∃ c tail, sign.characters = c :: tail ∧
          Text.isBlank c = false ∧ c ≠ '/' := by
        cases sign <;> first
          | exact absurd rfl isSlash
          | exact absurd rfl isAssignment
          | exact ⟨_, _, rfl, by decide, by decide⟩
      rw [characters_eq]
      exact settled_cons visible unslashed _

theorem settled_of_isWordPart {c : Char} (part : isWordPart c = true) (rest : List Char) :
    Cursor.Settled (c :: rest) := by
  refine settled_cons ?_ ?_ rest
  · rw [Bool.eq_false_iff]
    intro blank
    rw [not_isWordPart_of_isBlank blank] at part
    cases part
  · rintro rfl
    cases part

/-- A string, a number or a word starts neither with white space nor as a comment. -/
theorem settled_spelled {text : List Char} {lexeme : Lexeme} (spelled : Spelled text lexeme)
    (other : lexeme ≠ .endOfSource) (signless : ∀ sign, lexeme ≠ .punctuator sign)
    (rest : List Char) : Cursor.Settled (text ++ rest) := by
  cases spelled with
  | endOfSource => exact absurd rfl other
  | punctuator sign => exact absurd rfl (signless sign)
  | string quote isQuote closed =>
    rcases isQuote with rfl | rfl
    · exact settled_cons (by decide) (by decide) _
    · exact settled_cons (by decide) (by decide) _
  | word c text head parts => exact settled_of_isWordPart (by simp [isWordPart, head]) _
  | number spelled =>
    cases spelled with
    | mk whole fraction mark exponent whole_digits fraction_digits nonempty exponent_text =>
      cases whole with
      | cons c whole =>
        exact settled_of_isWordPart
          (isWordPart_of_isDigit (whole_digits c List.mem_cons_self)) _
      | nil =>
        have present := nonempty.resolve_left fun absent => absent rfl
        obtain ⟨c, fraction, rfl⟩ := List.exists_cons_of_ne_nil present
        exact settled_cons (by decide) (by decide) _

/-- Words end where nothing goes on with them, and so do numbers. -/
theorem ends_of_apart {lexeme : Lexeme} {rest : List Char} (apart : Apart rest)
    (other : lexeme ≠ .endOfSource) (signless : ∀ sign, lexeme ≠ .punctuator sign) :
    Ends lexeme rest := by
  cases lexeme with
  | endOfSource => exact absurd rfl other
  | punctuator sign => exact absurd rfl (signless sign)
  | string => trivial
  | number =>
    refine ⟨apart.1, fun c first => ?_⟩
    have := apart.2 c first
    rw [isWordPart, Bool.or_eq_false_iff] at this
    exact this.1
  | keyword | identifier | boolean | null => exact apart.2

theorem stringText_escaped {value : List Char}
    (printable : ∀ c ∈ value, Text.IsPrintableAscii c) :
    StringText '"' (value.flatMap (Text.escapeChar '"') ++ ['"']) value := by
  induction value with
  | nil => exact .close
  | cons c value inductive_hypothesis =>
    obtain ⟨first, rest⟩ := List.forall_mem_cons.mp printable
    have later := inductive_hypothesis rest
    rw [List.flatMap_cons, List.append_assoc, Text.escapeChar_of_printable first]
    split
    · rename_i isBackslash
      rw [eq_of_beq isBackslash]
      exact .escape '\\' later
    · rename_i unescaped
      split
      · rename_i isQuote
        rw [eq_of_beq isQuote]
        exact .escape '"' later
      · rename_i unquoted
        refine .plain c (by simpa using unquoted) (by simpa using unescaped) ?_ later
        rw [Bool.eq_false_iff]
        intro lineBreak
        have space : c.toNat = 32 := by
          obtain ⟨least, most⟩ := first
          rcases Text.bounds_of_isBlank (Text.isBlank_of_isLineBreak lineBreak) with
            ascii | ⟨gap, member, above, _⟩
          · omega
          · have : ∀ gap ∈ Text.blankRanges, 127 < gap.1 := by decide
            have := this gap member
            omega
        have : c = ' ' := Char.toNat_inj.mp space
        rw [this] at lineBreak
        cases lineBreak

theorem spelled_quoted {value : String} (printable : ∀ c ∈ value.toList, Text.IsPrintableAscii c) :
    Spelled (Text.quoteText value).toList (.string value) := by
  have spelled := Spelled.string '"' (.inl rfl) (stringText_escaped printable)
  rwa [String.ofList_toList, ← List.cons_append, ← String.toList_ofList (l := '"' :: _ ++ _)]
    at spelled

end Lexeme

/-- Whether a number is written with digits, and maybe a point and digits, that read back as it. -/
def Numeral.ReadsBack (x : Float) : Prop :=
  ∃ whole fraction, whole ≠ [] ∧ (∀ c ∈ whole, c.isDigit = true) ∧
    (∀ c ∈ fraction, c.isDigit = true) ∧
    (plainText x).toList = whole ++ fractionText fraction ∧
    Decimal.toFloat ⟨whole, fraction, 0⟩ = x

theorem Lexeme.spelled_number {x : Float} (readsBack : Numeral.ReadsBack x) :
    Spelled (Numeral.plainText x).toList (.number x) := by
  obtain ⟨whole, fraction, nonempty, whole_digits, fraction_digits, text_eq, value_eq⟩ := readsBack
  have spelled := Numeral.NumberText.mk whole fraction [] 0 whole_digits fraction_digits
    (.inl nonempty) .absent
  rw [List.append_nil, ← text_eq, value_eq] at spelled
  exact .number spelled

end Scriptlet
