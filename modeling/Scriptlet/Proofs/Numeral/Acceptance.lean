import Mathlib.Data.List.Basic
import Scriptlet.Numeral.Reading
import Scriptlet.Proofs.Token.Reading

set_option autoImplicit false

/-!
The texts that denote numbers. White space at both ends aside, they are the decimals with digits on
each side of the point that they have, the decimals that start with the point, and those that end
with it.
-/
namespace Scriptlet

namespace Text

theorem dropWhile_isBlank_append {blanks rest : List Char} (blank : ∀ c ∈ blanks, isBlank c = true)
    (first : ∀ c, rest.head? = some c → isBlank c = false) :
    (blanks ++ rest).dropWhile isBlank = rest := by
  rw [List.dropWhile_append_of_pos blank]
  cases rest with
  | nil => rfl
  | cons c rest => simp [first c rfl]

/-- What is between white space, and does not itself begin or end with it, is left over. -/
theorem trim_append {before middle after : List Char}
    (blank_before : ∀ c ∈ before, isBlank c = true)
    (blank_after : ∀ c ∈ after, isBlank c = true) (nonempty : middle ≠ [])
    (first : ∀ c, middle.head? = some c → isBlank c = false)
    (last : ∀ c, middle.getLast? = some c → isBlank c = false) :
    trim (before ++ middle ++ after) = middle := by
  have front : (before ++ (middle ++ after)).dropWhile isBlank = middle ++ after := by
    apply dropWhile_isBlank_append blank_before
    intro c head
    rw [List.head?_append_of_ne_nil _ nonempty] at head
    exact first c head
  have back : (after.reverse ++ middle.reverse).dropWhile isBlank = middle.reverse := by
    apply dropWhile_isBlank_append
    · intro c member
      exact blank_after c (List.mem_reverse.mp member)
    · intro c head
      rw [List.head?_reverse] at head
      exact last c head
  rw [trim, List.append_assoc, front, List.reverse_append, back, List.reverse_reverse]

/-- Only white space is left out. -/
theorem exists_trim (cs : List Char) :
    ∃ before after, cs = before ++ trim cs ++ after ∧ (∀ c ∈ before, isBlank c = true) ∧
      ∀ c ∈ after, isBlank c = true := by
  let kept := cs.dropWhile isBlank
  refine ⟨cs.takeWhile isBlank, (kept.reverse.takeWhile isBlank).reverse, ?_, ?_, ?_⟩
  · have split : kept = trim cs ++ (kept.reverse.takeWhile isBlank).reverse := by
      rw [trim, ← List.reverse_append, List.takeWhile_append_dropWhile, List.reverse_reverse]
    rw [List.append_assoc, ← split]
    exact List.takeWhile_append_dropWhile.symm
  · intro c member
    exact List.all_eq_true.mp List.all_takeWhile c member
  · intro c member
    exact List.all_eq_true.mp List.all_takeWhile c (List.mem_reverse.mp member)

end Text

namespace Numeral

/-- One or more decimal digits. -/
structure IsDigits (cs : List Char) : Prop where
  nonempty : cs ≠ []
  all : ∀ c ∈ cs, c.isDigit = true

/-- A point with digits behind it, or nothing. -/
def IsFraction (cs : List Char) : Prop :=
  cs = [] ∨ ∃ digits, IsDigits digits ∧ cs = '.' :: digits

/-- A mark with an optional sign and digits, or nothing. -/
def IsExponent (cs : List Char) : Prop :=
  ∃ exponent, ExponentText cs exponent

/-- Decimals, with an optional sign in front: digits with an optional fraction and an optional
exponent, or the same without the digits in front of a fraction. -/
inductive IsDecimal : List Char → Prop where
  | whole (sign digits fraction mark : List Char) (isSign : IsSign sign)
    (isDigits : IsDigits digits) (isFraction : IsFraction fraction)
    (isExponent : IsExponent mark) : IsDecimal (sign ++ (digits ++ (fraction ++ mark)))
  | fraction (sign digits mark : List Char) (isSign : IsSign sign) (isDigits : IsDigits digits)
    (isExponent : IsExponent mark) : IsDecimal (sign ++ ('.' :: (digits ++ mark)))

/-- Decimals but for a point that has digits in front of it and none behind it. -/
inductive IsPointLast : List Char → Prop where
  | mk (sign digits mark : List Char) (isSign : IsSign sign) (isDigits : IsDigits digits)
    (isExponent : IsExponent mark) : IsPointLast (sign ++ (digits ++ ('.' :: mark)))

/-- Digits with at most one point among or beside them, with an optional sign and an optional
exponent. -/
inductive IsNumeric : List Char → Prop where
  | pointless (sign digits mark : List Char) (isSign : IsSign sign) (isDigits : IsDigits digits)
    (isExponent : IsExponent mark) : IsNumeric (sign ++ (digits ++ mark))
  | pointed (sign whole fraction mark : List Char) (isSign : IsSign sign)
    (isDigits : IsDigits (whole ++ fraction)) (isExponent : IsExponent mark) :
    IsNumeric (sign ++ (whole ++ ('.' :: (fraction ++ mark))))

/-- The point may have digits on both sides, or on one of them. -/
theorem isNumeric_iff (cs : List Char) : IsNumeric cs ↔ IsDecimal cs ∨ IsPointLast cs := by
  constructor
  · intro numeric
    cases numeric with
    | pointless sign digits mark isSign isDigits isExponent =>
      exact .inl (.whole sign digits [] mark isSign isDigits (.inl rfl) isExponent)
    | pointed sign whole fraction mark isSign isDigits isExponent =>
      have whole_all : ∀ c ∈ whole, c.isDigit = true :=
        fun c member => isDigits.all c (List.mem_append_left _ member)
      have fraction_all : ∀ c ∈ fraction, c.isDigit = true :=
        fun c member => isDigits.all c (List.mem_append_right _ member)
      by_cases before : whole = []
      · subst before
        exact .inl (.fraction sign fraction mark isSign isDigits isExponent)
      · by_cases behind : fraction = []
        · subst behind
          exact .inr (.mk sign whole mark isSign ⟨before, whole_all⟩ isExponent)
        · exact .inl (.whole sign whole ('.' :: fraction) mark isSign ⟨before, whole_all⟩
            (.inr ⟨fraction, ⟨behind, fraction_all⟩, rfl⟩) isExponent)
  · rintro (decimal | pointLast)
    · cases decimal with
      | whole sign digits fraction mark isSign isDigits isFraction isExponent =>
        rcases isFraction with rfl | ⟨behind, isBehind, rfl⟩
        · exact .pointless sign digits mark isSign isDigits isExponent
        · refine .pointed sign digits behind mark isSign ⟨?_, ?_⟩ isExponent
          · exact List.append_ne_nil_of_left_ne_nil isDigits.nonempty behind
          · exact List.forall_mem_append.mpr ⟨isDigits.all, isBehind.all⟩
      | fraction sign digits mark isSign isDigits isExponent =>
        exact .pointed sign [] digits mark isSign isDigits isExponent
    · cases pointLast with
      | mk sign digits mark isSign isDigits isExponent =>
        refine .pointed sign digits [] mark isSign ?_ isExponent
        rwa [List.append_nil]

theorem startsWithSign_append {sign rest : List Char} (isSign : IsSign sign)
    (other : startsWithSign rest = false) :
    (if startsWithSign (sign ++ rest) then (sign ++ rest).tail else sign ++ rest) = rest := by
  rcases isSign with rfl | rfl | rfl
  · rw [List.nil_append, other]
    rfl
  · rfl
  · rfl

theorem exists_unsigned (signed : List Char) :
    ∃ sign, IsSign sign ∧
      signed = sign ++ (if startsWithSign signed then signed.tail else signed) := by
  unfold startsWithSign
  split
  · exact ⟨['-'], .inr (.inr rfl), rfl⟩
  · exact ⟨['+'], .inr (.inl rfl), rfl⟩
  · exact ⟨[], .inl rfl, rfl⟩

/-- A mark starts neither with a digit nor with a point. -/
theorem IsExponent.head {mark : List Char} (isExponent : IsExponent mark) :
    ∀ c, mark.head? = some c → c.isDigit = false ∧ c ≠ '.' := by
  obtain ⟨exponent, spelled⟩ := isExponent
  cases spelled with
  | absent => nofun
  | written mark sign digits isMark isSign nonempty all =>
    rintro _ ⟨rfl⟩
    rcases isMark with rfl | rfl <;> decide

theorem IsExponent.exponentAt {mark : List Char} (isExponent : IsExponent mark) :
    ∃ exponent, exponentAt mark = (some exponent, mark.length) := by
  obtain ⟨exponent, spelled⟩ := isExponent
  have read := exponentAt_append spelled endsNumber_nil
  rw [List.append_nil] at read
  exact ⟨exponent, read⟩

/-- What is read behind the digits is an exponent when the text ends there. -/
theorem isExponent_iff (cs : List Char) :
    IsExponent cs ↔ ∃ exponent length, exponentAt cs = (some exponent, length) ∧
      ¬length < cs.length := by
  constructor
  · intro isExponent
    obtain ⟨exponent, exponent_eq⟩ := isExponent.exponentAt
    exact ⟨exponent, cs.length, exponent_eq, Nat.lt_irrefl _⟩
  · rintro ⟨exponent, length, exponent_eq, all_read⟩
    obtain ⟨mark, rest, rfl, spelled, length_eq⟩ := exponentAt_split exponent_eq
    have rest_eq : rest = [] := by
      apply List.eq_nil_of_length_eq_zero
      rw [List.length_append] at all_read
      omega
    subst rest_eq
    rw [List.append_nil]
    exact ⟨exponent, spelled⟩

/-- There is a value when there is a digit, and an exponent is all that is behind the digits. -/
theorem isSome_value_iff (whole fraction cs : List Char) (value : Int → Float) :
    (if whole.isEmpty && fraction.isEmpty then none
      else match exponentAt cs with
        | (some exponent, length) => if length < cs.length then none else some (value exponent)
        | (none, _) => none).isSome = true ↔
      whole ++ fraction ≠ [] ∧ IsExponent cs := by
  rw [isExponent_iff]
  by_cases empty : (whole.isEmpty && fraction.isEmpty) = true
  · rw [if_pos empty]
    simp_all
  · rw [if_neg empty]
    have nonempty : whole ++ fraction ≠ [] := by simpa using empty
    obtain ⟨_ | exponent, length⟩ := exponentAt cs
    · simp
    · simp [nonempty]

theorem startsWithSign_of_isDigits {digits : List Char} (isDigits : IsDigits digits)
    (rest : List Char) : startsWithSign (digits ++ rest) = false := by
  obtain ⟨c, digits, rfl⟩ := List.exists_cons_of_ne_nil isDigits.nonempty
  exact startsWithSign_of_isDigit (isDigits.all c List.mem_cons_self) (digits ++ rest)

theorem isSome_of_isNumeric {text : String} (numeric : IsNumeric (Text.trim text.toList)) :
    (numericText? text).isSome = true := by
  generalize trim_eq : Text.trim text.toList = signed at numeric
  cases numeric with
  | pointless sign digits mark isSign isDigits isExponent =>
    have unsigned := startsWithSign_append isSign (startsWithSign_of_isDigits isDigits mark)
    have digits_eq : leadingDigits (digits ++ mark) = digits :=
      leadingDigits_append isDigits.all fun c first => (isExponent.head c first).1
    have other : (mark.head? == some '.') = false := by
      rw [beq_eq_false_iff_ne]
      intro first
      exact (isExponent.head '.' first).2 rfl
    simp only [numericText?, trim_eq, unsigned, digits_eq, List.drop_left, other,
      Bool.false_eq_true, ↓reduceIte]
    apply (isSome_value_iff digits [] mark _).mpr
    rw [List.append_nil]
    exact ⟨isDigits.nonempty, isExponent⟩
  | pointed sign whole fraction mark isSign isDigits isExponent =>
    have digits_all := List.forall_mem_append.mp isDigits.all
    have unsigned : startsWithSign (whole ++ ('.' :: (fraction ++ mark))) = false := by
      cases whole with
      | nil => rfl
      | cons c whole => exact startsWithSign_of_isDigit (digits_all.1 c List.mem_cons_self) _
    have whole_eq : leadingDigits (whole ++ ('.' :: (fraction ++ mark))) = whole := by
      apply leadingDigits_append digits_all.1
      rintro _ ⟨rfl⟩
      rfl
    have fraction_eq : leadingDigits (fraction ++ mark) = fraction :=
      leadingDigits_append digits_all.2 fun c first => (isExponent.head c first).1
    simp only [numericText?, trim_eq, startsWithSign_append isSign unsigned, whole_eq,
      List.drop_left, List.head?_cons, BEq.rfl, ↓reduceIte, List.tail_cons, fraction_eq,
      List.drop_succ_cons]
    exact (isSome_value_iff whole fraction mark _).mpr ⟨isDigits.nonempty, isExponent⟩

theorem isNumeric_of_isSome {text : String} (accepted : (numericText? text).isSome = true) :
    IsNumeric (Text.trim text.toList) := by
  unfold numericText? at accepted
  generalize Text.trim text.toList = signed at accepted
  -- The sign, the digits and the fraction are taken off one after the other.
  obtain ⟨sign, isSign, signed_eq⟩ := exists_unsigned signed
  dsimp only at accepted
  generalize (if startsWithSign signed then signed.tail else signed) = cs at accepted signed_eq
  rw [signed_eq]
  obtain ⟨rest, whole_split, _⟩ := leadingDigits_split cs
  have whole_all := all_leadingDigits cs
  generalize leadingDigits cs = whole at accepted whole_split whole_all
  subst whole_split
  rw [List.drop_left] at accepted
  by_cases point : rest.head? = some '.'
  · obtain ⟨after, rfl⟩ := List.head?_eq_some_iff.mp point
    obtain ⟨mark, fraction_split, _⟩ := leadingDigits_split after
    have fraction_all := all_leadingDigits after
    simp only [List.head?_cons, BEq.rfl, ↓reduceIte, List.tail_cons, List.drop_succ_cons]
      at accepted
    generalize leadingDigits after = fraction at accepted fraction_split fraction_all
    subst fraction_split
    rw [List.drop_left] at accepted
    have ⟨nonempty, isExponent⟩ := (isSome_value_iff whole fraction mark _).mp accepted
    exact .pointed sign whole fraction mark isSign
      ⟨nonempty, List.forall_mem_append.mpr ⟨whole_all, fraction_all⟩⟩ isExponent
  · have other : (rest.head? == some '.') = false := by simpa using point
    simp only [other, Bool.false_eq_true, ↓reduceIte] at accepted
    have ⟨nonempty, isExponent⟩ := (isSome_value_iff whole [] rest _).mp accepted
    rw [List.append_nil] at nonempty
    exact .pointless sign whole rest isSign ⟨nonempty, whole_all⟩ isExponent

/-- The spellings with the point last are none of the decimals. -/
theorem IsPointLast.not_isDecimal {cs : List Char} (pointLast : IsPointLast cs) :
    ¬IsDecimal cs := by
  intro decimal
  cases pointLast with
  | mk sign digits mark isSign isDigits isExponent =>
    have unsigned :=
      startsWithSign_append isSign (startsWithSign_of_isDigits isDigits ('.' :: mark))
    have digits_eq : leadingDigits (digits ++ ('.' :: mark)) = digits := by
      apply leadingDigits_append isDigits.all
      rintro _ ⟨rfl⟩
      rfl
    generalize cs_eq : sign ++ (digits ++ ('.' :: mark)) = cs at decimal unsigned
    cases decimal with
    | whole other_sign whole fraction other_mark isOther isWhole isFraction isMark =>
      rw [startsWithSign_append isOther (startsWithSign_of_isDigits isWhole _)] at unsigned
      have whole_eq : leadingDigits (whole ++ (fraction ++ other_mark)) = whole := by
        apply leadingDigits_append isWhole.all
        intro c first
        rcases isFraction with rfl | ⟨behind, _, rfl⟩
        · exact (isMark.head c first).1
        · cases first
          rfl
      rw [unsigned, digits_eq] at whole_eq
      subst whole_eq
      have after_eq := List.append_cancel_left unsigned
      rcases isFraction with rfl | ⟨behind, isBehind, rfl⟩
      · rw [List.nil_append] at after_eq
        exact (isMark.head '.' (by rw [after_eq]; rfl)).2 rfl
      · obtain ⟨c, behind, rfl⟩ := List.exists_cons_of_ne_nil isBehind.nonempty
        have mark_eq : mark = c :: (behind ++ other_mark) := (List.cons.inj after_eq).2.symm
        have other := (isExponent.head c (by rw [mark_eq]; rfl)).1
        rw [isBehind.all c List.mem_cons_self] at other
        cases other
    | fraction other_sign behind other_mark isOther _ _ =>
      have pointed : startsWithSign ('.' :: (behind ++ other_mark)) = false := rfl
      rw [startsWithSign_append isOther pointed] at unsigned
      have none_before : leadingDigits ('.' :: (behind ++ other_mark)) = [] := rfl
      rw [unsigned, digits_eq] at none_before
      exact isDigits.nonempty none_before

theorem not_isBlank_of_isDigit {c : Char} (digit : c.isDigit = true) : Text.isBlank c = false := by
  have bounds := isDigit_bounds digit
  simp only [Text.isBlank, Bool.or_eq_false_iff, Bool.and_eq_false_iff, decide_eq_false_iff_not,
    beq_eq_false_iff_ne]
  omega

theorem not_isBlank_of_isSign {sign : List Char} (isSign : IsSign sign) :
    ∀ c ∈ sign, Text.isBlank c = false := by
  rcases isSign with rfl | rfl | rfl
  · nofun
  · exact List.forall_mem_singleton.mpr rfl
  · exact List.forall_mem_singleton.mpr rfl

theorem IsExponent.not_isBlank {mark : List Char} (isExponent : IsExponent mark) :
    ∀ c ∈ mark, Text.isBlank c = false := by
  obtain ⟨exponent, spelled⟩ := isExponent
  cases spelled with
  | absent => nofun
  | written mark sign digits isMark isSign nonempty all =>
    rw [List.forall_mem_cons, List.forall_mem_append]
    refine ⟨?_, not_isBlank_of_isSign isSign, fun c member => not_isBlank_of_isDigit (all c member)⟩
    rcases isMark with rfl | rfl <;> decide

theorem IsNumeric.ne_nil {cs : List Char} (numeric : IsNumeric cs) : cs ≠ [] := by
  cases numeric with
  | pointless sign digits mark isSign isDigits isExponent =>
    apply List.append_ne_nil_of_right_ne_nil
    exact List.append_ne_nil_of_left_ne_nil isDigits.nonempty mark
  | pointed sign whole fraction mark isSign isDigits isExponent => simp

theorem IsNumeric.not_isBlank {cs : List Char} (numeric : IsNumeric cs) :
    ∀ c ∈ cs, Text.isBlank c = false := by
  cases numeric with
  | pointless sign digits mark isSign isDigits isExponent =>
    simp only [List.forall_mem_append]
    exact ⟨not_isBlank_of_isSign isSign,
      fun c member => not_isBlank_of_isDigit (isDigits.all c member), isExponent.not_isBlank⟩
  | pointed sign whole fraction mark isSign isDigits isExponent =>
    have digits_blank : ∀ c ∈ whole ++ fraction, Text.isBlank c = false :=
      fun c member => not_isBlank_of_isDigit (isDigits.all c member)
    rw [List.forall_mem_append] at digits_blank
    simp only [List.forall_mem_append, List.forall_mem_cons]
    exact ⟨not_isBlank_of_isSign isSign, digits_blank.1, rfl, digits_blank.2,
      isExponent.not_isBlank⟩

/-- The texts with a value are the decimals between white space, and besides them those that have
the point last. -/
theorem isSome_numericText?_iff (text : String) :
    (numericText? text).isSome = true ↔ ∃ before numeral after,
      text.toList = before ++ numeral ++ after ∧ (∀ c ∈ before, Text.isBlank c = true) ∧
        (∀ c ∈ after, Text.isBlank c = true) ∧
        (IsDecimal numeral ∨ IsPointLast numeral ∧ ¬IsDecimal numeral) := by
  constructor
  · intro accepted
    obtain ⟨before, after, text_eq, blank_before, blank_after⟩ := Text.exists_trim text.toList
    refine ⟨before, Text.trim text.toList, after, text_eq, blank_before, blank_after, ?_⟩
    rcases (isNumeric_iff _).mp (isNumeric_of_isSome accepted) with decimal | pointLast
    · exact .inl decimal
    · exact .inr ⟨pointLast, pointLast.not_isDecimal⟩
  · rintro ⟨before, numeral, after, text_eq, blank_before, blank_after, spelled⟩
    have numeric : IsNumeric numeral := (isNumeric_iff numeral).mpr (spelled.imp_right And.left)
    have trim_eq : Text.trim text.toList = numeral := by
      rw [text_eq]
      apply Text.trim_append blank_before blank_after numeric.ne_nil
      · intro c first
        exact numeric.not_isBlank c (List.mem_of_mem_head? first)
      · intro c last
        exact numeric.not_isBlank c (List.mem_of_mem_getLast? last)
    apply isSome_of_isNumeric
    rwa [trim_eq]

example : (numericText? " 1. ").isSome = true ∧ (numericText? ".").isSome = false := by
  decide +kernel

end Numeral
end Scriptlet
