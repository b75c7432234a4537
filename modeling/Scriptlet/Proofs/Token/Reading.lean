import Scriptlet.Token.Lexer

set_option autoImplicit false

/-!
What a lexeme is spelled with. `Lexeme.Spelled` gives the spellings of each lexeme on their own;
`Lexeme.read` finds the spelling it takes at the front of its characters, and what follows matters
only in that it must not go on with the lexeme.
-/
namespace Scriptlet

theorem not_isDigit_of_startsNumber {c : Char} {rest : List Char}
    (other : Lexeme.startsNumber (c :: rest) = false) : c.isDigit = false := by
  cases rest with
  | nil => exact other
  | cons next rest =>
    simp only [Lexeme.startsNumber, Bool.or_eq_false_iff] at other
    exact other.1

theorem startsNumber_of_isDigit {c : Char} (digit : c.isDigit = true) (rest : List Char) :
    Lexeme.startsNumber (c :: rest) = true := by
  cases rest with
  | nil => exact digit
  | cons next rest => simp [Lexeme.startsNumber, digit]

theorem isDigit_bounds {c : Char} (digit : c.isDigit = true) : 48 ≤ c.toNat ∧ c.toNat ≤ 57 := by
  simp only [Char.isDigit, ge_iff_le, Bool.and_eq_true, decide_eq_true_eq, UInt32.le_iff_toNat_le]
    at digit
  exact digit

theorem not_isDigit_of_isWordHead {c : Char} (head : isWordHead c = true) : c.isDigit = false := by
  rw [Bool.eq_false_iff]
  intro digit
  have bounds := isDigit_bounds digit
  have ascii : c.toNat < 128 := by omega
  have alphabetic : c.isAlpha = false := by
    show (decide (c.val ≥ 'A'.val ∧ c.val ≤ 'Z'.val) ||
      (decide (c.val ≥ 'a'.val) && decide (c.val ≤ 'z'.val))) = false
    simp only [Bool.or_eq_false_iff, Bool.and_eq_false_iff, decide_eq_false_iff_not, ge_iff_le,
      UInt32.le_iff_toNat_le]
    have code : c.val.toNat = c.toNat := rfl
    rw [code]
    constructor
    · intro upper
      have : 65 ≤ c.toNat := upper.1
      omega
    · left
      intro lower
      have : 97 ≤ c.toNat := lower
      omega
  simp only [isWordHead, Text.isAlphabetic, ascii, ↓reduceIte, alphabetic, Bool.or_false,
    Bool.or_eq_true, beq_iff_eq] at head
  rcases head with rfl | rfl <;> cases digit

theorem startsNumber_of_isWordHead {c : Char} (head : isWordHead c = true) (rest : List Char) :
    Lexeme.startsNumber (c :: rest) = false := by
  have other := not_isDigit_of_isWordHead head
  have pointless : c ≠ '.' := by
    rintro rfl
    cases head
  cases rest with
  | nil => exact other
  | cons next rest => simp [Lexeme.startsNumber, other, pointless]

namespace Punctuator

theorem characters_injective {sign other : Punctuator}
    (same : sign.characters = other.characters) : sign = other := by
  have found : ∀ third : Punctuator,
      all.find? (fun sign => sign.characters == third.characters) = some third := by
    intro third
    cases third <;> decide
  have := found other
  rw [← same, found sign, Option.some.injEq] at this
  exact this

theorem foldl_longer_eq_some {signs : List Punctuator} {best : Option Punctuator}
    {sign : Punctuator} (longest : signs.foldl longer best = some sign) :
    (sign ∈ signs ∨ best = some sign) ∧ (∀ other ∈ signs, other.size ≤ sign.size) ∧
      ∀ other, best = some other → other.size ≤ sign.size := by
  induction signs generalizing best with
  | nil =>
    have best_eq : best = some sign := longest
    refine ⟨.inr best_eq, nofun, fun other other_eq => ?_⟩
    rw [best_eq, Option.some.injEq] at other_eq
    exact other_eq ▸ Nat.le_refl _
  | cons next signs inductive_hypothesis =>
    obtain ⟨found, longer_rest, longer_best⟩ := inductive_hypothesis longest
    have next_le : next.size ≤ sign.size := by
      cases best with
      | none => exact longer_best next rfl
      | some other =>
        by_cases shorter : other.size < next.size
        · exact longer_best next (by simp [longer, shorter])
        · have := longer_best other (by simp [longer, shorter])
          omega
    refine ⟨?_, ?_, ?_⟩
    · rcases found with member | best_eq
      · exact .inl (List.mem_cons_of_mem _ member)
      · cases best with
        | none =>
          cases best_eq
          exact .inl List.mem_cons_self
        | some other =>
          simp only [longer] at best_eq
          split at best_eq
          · cases best_eq
            exact .inl List.mem_cons_self
          · exact .inr best_eq
    · intro other member
      rcases List.mem_cons.mp member with rfl | member
      · exact next_le
      · exact longer_rest other member
    · rintro other rfl
      by_cases shorter : other.size < next.size
      · omega
      · exact longer_best other (by simp [longer, shorter])

theorem foldl_longer_ne_none {signs : List Punctuator} {best : Option Punctuator}
    (given : signs ≠ [] ∨ best ≠ none) : signs.foldl longer best ≠ none := by
  induction signs generalizing best with
  | nil => exact given.resolve_left fun other => other rfl
  | cons next signs inductive_hypothesis =>
    apply inductive_hypothesis
    right
    unfold longer
    repeat' split
    all_goals nofun

/-- The sign that is read is spelled at the front, and no longer one is. -/
theorem longestAt?_eq_some_iff {cs : List Char} {sign : Punctuator} :
    longestAt? cs = some sign ↔
      startsAt cs sign = true ∧ ∀ other, startsAt cs other = true → other.size ≤ sign.size := by
  constructor
  · intro longest
    obtain ⟨found, longer_rest, _⟩ := foldl_longer_eq_some longest
    have member := found.resolve_right nofun
    refine ⟨(List.mem_filter.mp member).2, fun other starts => ?_⟩
    exact longer_rest other (List.mem_filter.mpr ⟨mem_all other, starts⟩)
  · rintro ⟨starts, longest⟩
    have listed := List.mem_filter.mpr ⟨mem_all sign, starts⟩
    cases read_eq : longestAt? cs with
    | none => exact absurd read_eq (foldl_longer_ne_none (.inl (List.ne_nil_of_mem listed)))
    | some other =>
      obtain ⟨found, longer_rest, _⟩ := foldl_longer_eq_some read_eq
      have other_starts := (List.mem_filter.mp (found.resolve_right nofun)).2
      have size_eq : other.size = sign.size :=
        Nat.le_antisymm (longest other other_starts) (longer_rest sign listed)
      have other_prefix := List.isPrefixOf_iff_prefix.mp other_starts
      have sign_prefix := List.isPrefixOf_iff_prefix.mp starts
      have same := (List.prefix_of_prefix_length_le other_prefix sign_prefix
        (Nat.le_of_eq size_eq)).eq_of_length size_eq
      rw [characters_injective same]

end Punctuator

namespace Numeral

theorem all_leadingDigits (cs : List Char) : ∀ c ∈ leadingDigits cs, c.isDigit = true := by
  intro c member
  exact List.all_eq_true.mp List.all_takeWhile c member

/-- Digits end where something else follows them. -/
theorem leadingDigits_append {digits rest : List Char} (all : ∀ c ∈ digits, c.isDigit = true)
    (ends : ∀ c, rest.head? = some c → c.isDigit = false) :
    leadingDigits (digits ++ rest) = digits := by
  rw [leadingDigits, List.takeWhile_append_of_pos all]
  cases rest with
  | nil => simp
  | cons c rest => simp [ends c rfl]

/-- What follows the digits at the front starts with something else. -/
theorem leadingDigits_split (cs : List Char) :
    ∃ rest, cs = leadingDigits cs ++ rest ∧ ∀ c, rest.head? = some c → c.isDigit = false := by
  refine ⟨cs.dropWhile Char.isDigit, List.takeWhile_append_dropWhile.symm, fun c first => ?_⟩
  have stops := List.head?_dropWhile_not Char.isDigit cs
  rw [first] at stops
  simpa using stops

/-- What may follow a number: nothing that would go on with it. -/
def EndsNumber (rest : List Char) : Prop :=
  Lexeme.startsNumber rest = false ∧ ∀ c, rest.head? = some c → isWordHead c = false

theorem EndsNumber.not_isDigit {rest : List Char} (ends : EndsNumber rest) {c : Char}
    (first : rest.head? = some c) : c.isDigit = false := by
  cases rest with
  | nil => cases first
  | cons d rest =>
    rw [List.head?_cons, Option.some.injEq] at first
    exact first ▸ not_isDigit_of_startsNumber ends.1

theorem endsNumber_nil : EndsNumber [] :=
  ⟨rfl, nofun⟩

/-- The signs that an exponent may have. -/
def IsSign (sign : List Char) : Prop :=
  sign = [] ∨ sign = ['+'] ∨ sign = ['-']

theorem startsWithSign_of_isDigit {c : Char} (digit : c.isDigit = true) (rest : List Char) :
    startsWithSign (c :: rest) = false := by
  unfold startsWithSign
  split
  · simp_all
  · simp_all
  · rfl

theorem exists_sign (cs : List Char) :
    ∃ sign rest, cs = sign ++ rest ∧ IsSign sign ∧
      sign.length = (if startsWithSign cs then 1 else 0) := by
  unfold startsWithSign
  split
  · exact ⟨['-'], _, rfl, .inr (.inr rfl), rfl⟩
  · exact ⟨['+'], _, rfl, .inr (.inl rfl), rfl⟩
  · exact ⟨[], cs, rfl, .inl rfl, rfl⟩

def signedValue (sign digits : List Char) : Int :=
  if sign = ['-'] then -(digitsValue digits : Int) else digitsValue digits

/-- The spellings of an exponent: none for zero, or a mark with an optional sign and digits. -/
inductive ExponentText : List Char → Int → Prop where
  | absent : ExponentText [] 0
  | written (mark : Char) (sign digits : List Char) (isMark : mark = 'e' ∨ mark = 'E')
    (isSign : IsSign sign) (nonempty : digits ≠ []) (all : ∀ c ∈ digits, c.isDigit = true) :
    ExponentText (mark :: (sign ++ digits)) (signedValue sign digits)

theorem exponentAt_of_endsNumber {rest : List Char} (ends : EndsNumber rest) :
    exponentAt rest = (some 0, 0) := by
  cases rest with
  | nil => rfl
  | cons c rest =>
    have other := ends.2 c rfl
    have unmarked : (c == 'e' || c == 'E') = false := by
      rw [Bool.or_eq_false_iff, beq_eq_false_iff_ne, beq_eq_false_iff_ne]
      constructor
      · rintro rfl
        cases other
      · rintro rfl
        cases other
    simp only [exponentAt, unmarked, Bool.false_eq_true, ↓reduceIte]

theorem exponentAt_written {mark : Char} {sign digits rest : List Char}
    (isMark : mark = 'e' ∨ mark = 'E') (isSign : IsSign sign) (nonempty : digits ≠ [])
    (all : ∀ c ∈ digits, c.isDigit = true)
    (ends : ∀ c, rest.head? = some c → c.isDigit = false) :
    exponentAt (mark :: (sign ++ (digits ++ rest))) =
      (some (signedValue sign digits), 1 + sign.length + digits.length) := by
  have marked : (mark == 'e' || mark == 'E') = true := by
    rcases isMark with rfl | rfl <;> rfl
  have read := leadingDigits_append all ends
  have nonempty_digits : digits.isEmpty = false := by simpa using nonempty
  rcases isSign with rfl | rfl | rfl
  · obtain ⟨first, digits, rfl⟩ := List.exists_cons_of_ne_nil nonempty
    have digit := all first List.mem_cons_self
    have unsigned := startsWithSign_of_isDigit digit (digits ++ rest)
    have not_minus : (some first == some '-') = false := by
      rw [beq_eq_false_iff_ne]
      rintro same
      rw [Option.some.inj same] at digit
      cases digit
    rw [List.cons_append] at read
    simp only [exponentAt, marked, ↓reduceIte, List.nil_append, List.cons_append, unsigned,
      Bool.false_eq_true, List.drop_zero, read, List.isEmpty_cons, List.head?_cons, not_minus,
      signedValue, List.nil_eq, reduceCtorEq, List.length_nil]
  · simp only [exponentAt, marked, ↓reduceIte, List.cons_append, List.nil_append, startsWithSign,
      List.drop_succ_cons, List.drop_zero, read, nonempty_digits, Bool.false_eq_true, signedValue,
      List.length_singleton]
    rfl
  · simp only [exponentAt, marked, ↓reduceIte, List.cons_append, List.nil_append, startsWithSign,
      List.drop_succ_cons, List.drop_zero, read, nonempty_digits, Bool.false_eq_true, signedValue,
      List.length_singleton]
    rfl

theorem exponentAt_append {text rest : List Char} {exponent : Int}
    (spelled : ExponentText text exponent) (ends : EndsNumber rest) :
    exponentAt (text ++ rest) = (some exponent, text.length) := by
  cases spelled with
  | absent => exact exponentAt_of_endsNumber ends
  | written mark sign digits isMark isSign nonempty all =>
    rw [List.cons_append, List.append_assoc,
      exponentAt_written isMark isSign nonempty all fun _ => ends.not_isDigit]
    simp only [List.length_cons, List.length_append, Prod.mk.injEq, true_and]
    omega

/-- An exponent that is read is one of the spellings. -/
theorem exponentAt_split {cs : List Char} {exponent : Int} {length : Nat}
    (exponent_eq : exponentAt cs = (some exponent, length)) :
    ∃ text rest, cs = text ++ rest ∧ ExponentText text exponent ∧ text.length = length := by
  cases cs with
  | nil =>
    cases exponent_eq
    exact ⟨[], [], rfl, .absent, rfl⟩
  | cons mark tail =>
    by_cases marked : (mark == 'e' || mark == 'E') = true
    · have isMark : mark = 'e' ∨ mark = 'E' := by simpa using marked
      obtain ⟨sign, unsigned, rfl, isSign, sign_length⟩ := exists_sign tail
      obtain ⟨rest, digits_split, ends⟩ := leadingDigits_split unsigned
      have nonempty : leadingDigits unsigned ≠ [] := by
        intro empty
        simp only [exponentAt, marked, ↓reduceIte, ← sign_length, List.drop_left, empty,
          List.isEmpty_nil, Prod.mk.injEq, reduceCtorEq, false_and] at exponent_eq
      have all := all_leadingDigits unsigned
      generalize leadingDigits unsigned = digits at digits_split nonempty all
      subst digits_split
      rw [exponentAt_written isMark isSign nonempty all ends, Prod.mk.injEq,
        Option.some.injEq] at exponent_eq
      refine ⟨mark :: (sign ++ digits), rest, by simp, ?_, ?_⟩
      · rw [← exponent_eq.1]
        exact .written mark sign digits isMark isSign nonempty all
      · rw [← exponent_eq.2, List.length_cons, List.length_append]
        omega
    · simp only [exponentAt, marked, Bool.false_eq_true, ↓reduceIte, Prod.mk.injEq,
        Option.some.injEq] at exponent_eq
      refine ⟨[], mark :: tail, rfl, ?_, exponent_eq.2⟩
      rw [← exponent_eq.1]
      exact .absent

/-- A point with the digits after it, if there are any. -/
def fractionText (fraction : List Char) : List Char :=
  if fraction.isEmpty then [] else '.' :: fraction

/-- The spellings of a number: digits before a point or after it, and an exponent. -/
inductive NumberText : List Char → Float → Prop where
  | mk (whole fraction mark : List Char) (exponent : Int)
    (whole_digits : ∀ c ∈ whole, c.isDigit = true)
    (fraction_digits : ∀ c ∈ fraction, c.isDigit = true)
    (nonempty : whole ≠ [] ∨ fraction ≠ []) (exponent_text : ExponentText mark exponent) :
    NumberText (whole ++ (fractionText fraction ++ mark))
      (Decimal.toFloat ⟨whole, fraction, exponent⟩)

end Numeral

namespace Lexeme

open Numeral

theorem fractionAt_eq_nil {cs : List Char} (other : startsNumber cs = false) :
    fractionAt cs = [] := by
  unfold fractionAt
  split
  · rename_i rest
    cases rest with
    | nil => rfl
    | cons c rest =>
      simp only [startsNumber, Bool.or_eq_false_iff, BEq.rfl, Bool.true_and] at other
      simp [leadingDigits, other.2]
  · rfl

/-- What the exponent starts with, or what follows the number if there is none. -/
theorem endsNumber_exponent {mark rest : List Char} {exponent : Int}
    (spelled : ExponentText mark exponent) (ends : EndsNumber rest) :
    startsNumber (mark ++ rest) = false ∧
      ∀ c, (mark ++ rest).head? = some c → c.isDigit = false := by
  cases spelled with
  | absent => exact ⟨ends.1, fun _ => ends.not_isDigit⟩
  | written mark sign digits isMark isSign nonempty all =>
    have head : isWordHead mark = true := by rcases isMark with rfl | rfl <;> decide
    refine ⟨startsNumber_of_isWordHead head _, fun c first => ?_⟩
    cases first
    exact not_isDigit_of_isWordHead head

/-- A number is read from its spelling, whatever comes next. -/
theorem readNumber_append {text rest : List Char} {value : Float} (spelled : NumberText text value)
    (ends : EndsNumber rest) : readNumber (text ++ rest) = (.ok value, text.length) := by
  cases spelled with
  | mk whole fraction mark exponent whole_digits fraction_digits nonempty exponent_text =>
    have exponent_eq := exponentAt_append exponent_text ends
    have after_exponent : rest.head?.any isWordHead = false := by
      cases rest with
      | nil => rfl
      | cons c rest => simpa using ends.2 c rfl
    obtain ⟨pointless, stops⟩ := endsNumber_exponent exponent_text ends
    by_cases present : fraction = []
    · subst present
      have whole_eq : leadingDigits (whole ++ (mark ++ rest)) = whole :=
        leadingDigits_append whole_digits stops
      have fraction_eq := fractionAt_eq_nil pointless
      simp only [fractionText, List.isEmpty_nil, ↓reduceIte, List.nil_append, List.append_assoc,
        readNumber, whole_eq, List.drop_left, fraction_eq, List.drop_zero, exponent_eq,
        after_exponent, Bool.false_eq_true, List.length_append, Nat.add_zero]
    · have some_digits : fraction.isEmpty = false := by simpa using present
      have whole_eq :
          leadingDigits (whole ++ ('.' :: (fraction ++ (mark ++ rest)))) = whole := by
        apply leadingDigits_append whole_digits
        intro c first
        cases first
        rfl
      have fraction_eq : fractionAt ('.' :: (fraction ++ (mark ++ rest))) = fraction :=
        leadingDigits_append fraction_digits stops
      simp only [fractionText, some_digits, Bool.false_eq_true, ↓reduceIte, List.cons_append,
        List.append_assoc, readNumber, whole_eq, List.drop_left, fraction_eq, List.drop_succ_cons,
        exponent_eq, after_exponent, List.length_append, List.length_cons, Prod.mk.injEq, true_and]
      omega

/-- What stands between the digits of a number and its exponent. -/
theorem fractionAt_split (cs : List Char) :
    ∃ rest, cs = fractionText (fractionAt cs) ++ rest ∧
      (fractionText (fractionAt cs)).length =
        (if (fractionAt cs).isEmpty then 0 else (fractionAt cs).length + 1) := by
  by_cases present : (fractionAt cs).isEmpty = true
  · exact ⟨cs, by simp [fractionText, present], by simp [fractionText, present]⟩
  · unfold fractionAt at present ⊢
    split
    · rename_i rest
      obtain ⟨after, digits_split, _⟩ := leadingDigits_split rest
      refine ⟨after, ?_, ?_⟩
      · simp only at present
        simpa [fractionText, present] using digits_split
      · simp only at present
        simp [fractionText, present]
    · simp at present

theorem all_fractionAt (cs : List Char) : ∀ c ∈ fractionAt cs, c.isDigit = true := by
  unfold fractionAt
  split
  · exact all_leadingDigits _
  · nofun

/-- A number that is read has a spelling in front. -/
theorem readNumber_split {cs : List Char} {value : Float} {length : Nat}
    (starts : startsNumber cs = true) (read_eq : readNumber cs = (.ok value, length)) :
    ∃ text rest, cs = text ++ rest ∧ NumberText text value ∧ text.length = length := by
  obtain ⟨unread, whole_split, _⟩ := leadingDigits_split cs
  have nonempty : leadingDigits cs ≠ [] ∨ fractionAt unread ≠ [] := by
    by_cases empty : leadingDigits cs = []
    · right
      rw [empty, List.nil_append] at whole_split
      subst whole_split
      match cs with
      | [] => cases starts
      | [c] =>
        simp only [startsNumber] at starts
        simp [leadingDigits, starts] at empty
      | c :: next :: rest =>
        simp only [startsNumber, Bool.or_eq_true, Bool.and_eq_true, beq_iff_eq] at starts
        rcases starts with digit | ⟨rfl, digit⟩
        · simp [leadingDigits, digit] at empty
        · simp [fractionAt, leadingDigits, digit]
    · exact .inl empty
  have whole_drop : cs.drop (leadingDigits cs).length = unread := by
    conv => lhs; arg 2; rw [whole_split]
    exact List.drop_left
  obtain ⟨marked, fraction_split, fraction_length⟩ := fractionAt_split unread
  have fraction_drop : unread.drop (fractionText (fractionAt unread)).length = marked := by
    conv => lhs; arg 2; rw [fraction_split]
    exact List.drop_left
  simp only [readNumber, whole_drop, ← fraction_length, fraction_drop] at read_eq
  cases exponent_eq : exponentAt marked with
  | mk exponent exponent_length =>
    rw [exponent_eq] at read_eq
    cases exponent with
    | none => cases read_eq
    | some exponent =>
      obtain ⟨mark, rest, rfl, exponent_text, rfl⟩ := exponentAt_split exponent_eq
      simp only at read_eq
      split at read_eq
      · cases read_eq
      · cases read_eq
        refine ⟨leadingDigits cs ++ (fractionText (fractionAt unread) ++ mark), rest, ?_,
          .mk _ _ _ _ (all_leadingDigits cs) (all_fractionAt unread) nonempty exponent_text, ?_⟩
        · rw [List.append_assoc, List.append_assoc, ← fraction_split, ← whole_split]
        · simp only [List.length_append]
          omega

theorem startsNumber_append {text : List Char} {value : Float} (spelled : NumberText text value)
    (rest : List Char) : startsNumber (text ++ rest) = true := by
  cases spelled with
  | mk whole fraction mark exponent whole_digits fraction_digits nonempty exponent_text =>
    cases whole with
    | cons c whole => exact startsNumber_of_isDigit (whole_digits c List.mem_cons_self) _
    | nil =>
      have present := nonempty.resolve_left fun absent => absent rfl
      obtain ⟨c, fraction, rfl⟩ := List.exists_cons_of_ne_nil present
      have digit := fraction_digits c List.mem_cons_self
      simp [fractionText, startsNumber, digit]

/-- The spellings of the rest of a string up to and with its closing quote. -/
inductive StringText (quote : Char) : List Char → List Char → Prop where
  | close : StringText quote [quote] []
  | escape (next : Char) {text value : List Char} (rest : StringText quote text value) :
    StringText quote ('\\' :: next :: text) (unescape next :: value)
  | plain (c : Char) {text value : List Char} (other : c ≠ quote) (unescaped : c ≠ '\\')
    (inLine : Text.isLineBreak c = false) (rest : StringText quote text value) :
    StringText quote (c :: text) (c :: value)

theorem readString_append {quote : Char} {text value : List Char} (isQuote : quote ≠ '\\')
    (spelled : StringText quote text value) (rest : List Char) :
    readString quote (text ++ rest) = (some value, text.length) := by
  induction spelled with
  | close =>
    rw [List.singleton_append, readString.eq_def]
    split
    · rename_i empty
      cases empty
    · rename_i escaped
      cases escaped
      exact absurd rfl isQuote
    · rename_i front
      cases front
      simp
  | escape next _ inductive_hypothesis =>
    rw [List.cons_append, List.cons_append, readString, inductive_hypothesis]
    simp
  | plain c other unescaped inLine _ inductive_hypothesis =>
    rw [List.cons_append, readString.eq_def]
    split
    · rename_i empty
      cases empty
    · rename_i escaped
      rw [List.cons.injEq] at escaped
      exact absurd escaped.1 unescaped
    · rename_i front
      cases front
      simp [other, unescaped, inLine, inductive_hypothesis]

theorem readString_split {quote : Char} {cs value : List Char} {length : Nat}
    (read_eq : readString quote cs = (some value, length)) :
    ∃ text rest, cs = text ++ rest ∧ StringText quote text value ∧ text.length = length := by
  fun_induction readString quote cs generalizing value length with
  | case1 => cases read_eq
  | case2 next rest unread unread_length tail_eq inductive_hypothesis =>
    cases unread with
    | none => cases read_eq
    | some unread =>
      cases read_eq
      obtain ⟨text, after, rfl, spelled, rfl⟩ := inductive_hypothesis tail_eq
      exact ⟨'\\' :: next :: text, after, rfl, .escape next spelled, rfl⟩
  | case3 rest =>
    cases read_eq
    exact ⟨[quote], rest, rfl, .close, rfl⟩
  | case4 => cases read_eq
  | case5 c rest _ other stops unread unread_length tail_eq inductive_hypothesis =>
    cases unread with
    | none => cases read_eq
    | some unread =>
      cases read_eq
      obtain ⟨text, after, rfl, spelled, rfl⟩ := inductive_hypothesis tail_eq
      rw [not_or, Bool.not_eq_true] at stops
      exact ⟨c :: text, after, rfl, .plain c other stops.1 stops.2 spelled, rfl⟩

inductive Spelled : List Char → Lexeme → Prop where
  | endOfSource : Spelled [] .endOfSource
  | string (quote : Char) (isQuote : quote = '"' ∨ quote = '\'') {text value : List Char}
    (closed : StringText quote text value) : Spelled (quote :: text) (.string (String.ofList value))
  | number {text : List Char} {value : Float} (spelled : NumberText text value) :
    Spelled text (.number value)
  | word (c : Char) (text : List Char) (head : isWordHead c = true)
    (parts : ∀ d ∈ text, isWordPart d = true) :
    Spelled (c :: text) (ofWord (String.ofList (c :: text)))
  | punctuator (sign : Punctuator) : Spelled sign.characters (.punctuator sign)

/-- What may follow a lexeme: nothing that would go on with it. -/
def Ends : Lexeme → List Char → Prop
  | .endOfSource, rest => rest = []
  | .string _, _ => True
  | .number _, rest => EndsNumber rest
  | .punctuator sign, rest =>
    Punctuator.longestAt? (sign.characters ++ rest) = some sign ∧
      startsNumber (sign.characters ++ rest) = false
  | _, rest => ∀ c, rest.head? = some c → isWordPart c = false

theorem ends_nil (lexeme : Lexeme) : Ends lexeme [] := by
  cases lexeme with
  | endOfSource => rfl
  | string => trivial
  | number => exact endsNumber_nil
  | punctuator sign => cases sign <;> exact ⟨by decide, by decide⟩
  | keyword | identifier | boolean | null => nofun

theorem stops_of_ends_ofWord {word : String} {rest : List Char} (ends : Ends (ofWord word) rest) :
    ∀ c, rest.head? = some c → isWordPart c = false := by
  unfold ofWord at ends
  repeat' split at ends
  all_goals exact ends

/-- A quote starts neither a number nor a word, and a word starts no number. -/
theorem not_quote_of_startsNumber {c : Char} {rest : List Char}
    (starts : startsNumber (c :: rest) = true) : ¬(c = '"' ∨ c = '\'') := by
  rintro (rfl | rfl) <;> cases rest <;> cases starts

theorem not_quote_of_isWordHead {c : Char} (head : isWordHead c = true) :
    ¬(c = '"' ∨ c = '\'') := by
  rintro (rfl | rfl) <;> cases head

/-- A lexeme is read from its spelling, whatever comes next. -/
theorem read_append {text rest : List Char} {lexeme : Lexeme} (spelled : Spelled text lexeme)
    (ends : Ends lexeme rest) : read (text ++ rest) = (.ok lexeme, text.length) := by
  cases spelled with
  | endOfSource =>
    have empty : rest = [] := ends
    rw [empty]
    rfl
  | string quote isQuote closed =>
    have unescaped : quote ≠ '\\' := by rcases isQuote with rfl | rfl <;> decide
    simp only [List.cons_append, read, isQuote, ↓reduceIte, readString_append unescaped closed,
      List.length_cons]
  | number spelled =>
    have starts := startsNumber_append spelled rest
    have read_eq := readNumber_append spelled ends
    cases front : text ++ rest with
    | nil =>
      rw [front] at starts
      cases starts
    | cons c tail =>
      rw [front] at starts read_eq
      simp only [read, not_quote_of_startsNumber starts, ↓reduceIte, starts, read_eq]
  | word c text head parts =>
    have stops := stops_of_ends_ofWord ends
    have word_eq : (c :: (text ++ rest)).takeWhile isWordPart = c :: text := by
      have part : isWordPart c = true := by simp [isWordPart, head]
      rw [List.takeWhile_cons_of_pos part, List.takeWhile_append_of_pos parts]
      cases rest with
      | nil => simp
      | cons d rest => simp [stops d rfl]
    simp only [List.cons_append, read, not_quote_of_isWordHead head, ↓reduceIte,
      startsNumber_of_isWordHead head, Bool.false_eq_true, head, word_eq]
  | punctuator sign =>
    obtain ⟨longest, numberless⟩ := ends
    have apart : ∃ c tail, sign.characters = c :: tail ∧ ¬(c = '"' ∨ c = '\'') ∧
        isWordHead c = false := by
      cases sign <;> exact ⟨_, _, rfl, by decide, by decide⟩
    obtain ⟨c, tail, characters_eq, unquoted, other⟩ := apart
    rw [characters_eq, List.cons_append] at longest numberless
    simp only [characters_eq, List.cons_append, read, unquoted, ↓reduceIte, numberless,
      Bool.false_eq_true, other, longest, Punctuator.size]

/-- A lexeme that is read has a spelling in front. -/
theorem read_split {cs : List Char} {lexeme : Lexeme} {length : Nat}
    (read_eq : read cs = (.ok lexeme, length)) :
    ∃ text rest, cs = text ++ rest ∧ Spelled text lexeme ∧ text.length = length := by
  cases cs with
  | nil =>
    cases read_eq
    exact ⟨[], [], rfl, .endOfSource, rfl⟩
  | cons c tail =>
    simp only [read] at read_eq
    split at read_eq
    · rename_i isQuote
      split at read_eq
      · rename_i value length string_eq
        cases read_eq
        obtain ⟨text, rest, rfl, closed, rfl⟩ := readString_split string_eq
        exact ⟨c :: text, rest, rfl, .string c isQuote closed, rfl⟩
      · cases read_eq
    · split at read_eq
      · rename_i starts
        split at read_eq
        · rename_i value length number_eq
          cases read_eq
          obtain ⟨text, rest, cs_eq, spelled, length_eq⟩ := readNumber_split starts number_eq
          exact ⟨text, rest, cs_eq, .number spelled, length_eq⟩
        · cases read_eq
      · split at read_eq
        · rename_i head
          have part : isWordPart c = true := by simp [isWordPart, head]
          cases read_eq
          rw [List.takeWhile_cons_of_pos part]
          refine ⟨c :: tail.takeWhile isWordPart, tail.dropWhile isWordPart, ?_,
            .word c _ head fun d member => List.all_eq_true.mp List.all_takeWhile d member, rfl⟩
          rw [List.cons_append, List.takeWhile_append_dropWhile]
        · split at read_eq
          · rename_i sign longest
            cases read_eq
            have starts := (Punctuator.longestAt?_eq_some_iff.mp longest).1
            obtain ⟨rest, cs_eq⟩ := List.isPrefixOf_iff_prefix.mp starts
            exact ⟨sign.characters, rest, cs_eq.symm, .punctuator sign, rfl⟩
          · cases read_eq

theorem eq_nil_of_read_endOfSource {cs : List Char} {length : Nat}
    (read_eq : read cs = (.ok .endOfSource, length)) : cs = [] := by
  cases cs with
  | nil => rfl
  | cons c tail =>
    simp only [read] at read_eq
    repeat' split at read_eq
    all_goals simp only [Prod.mk.injEq, Except.ok.injEq, reduceCtorEq, false_and] at read_eq
    exact absurd read_eq.1 (ofWord_ne_endOfSource _)

theorem longestAt?_of_read {cs : List Char} {sign : Punctuator} {length : Nat}
    (read_eq : read cs = (.ok (.punctuator sign), length)) :
    Punctuator.longestAt? cs = some sign ∧ length = sign.size := by
  have wordless (word : String) : ofWord word ≠ .punctuator sign := by
    unfold ofWord
    repeat' split
    all_goals nofun
  cases cs with
  | nil => cases read_eq
  | cons c tail =>
    simp only [read] at read_eq
    repeat' split at read_eq
    all_goals simp only [Prod.mk.injEq, Except.ok.injEq, reduceCtorEq, false_and,
      punctuator.injEq, wordless] at read_eq
    rename_i longest
    exact ⟨read_eq.1 ▸ longest, read_eq.1 ▸ read_eq.2.symm⟩

end Lexeme
end Scriptlet
