import Scriptlet.Token.Lexer

set_option autoImplicit false

/-!
What stands between two tokens. `IsGap` says which texts are white space and complete comments, and
`Cursor.skipGap` skips such a text, as long as it can be.
-/
namespace Scriptlet

/-- White space and complete comments in front of other text. A comment to the end of the line ends
before the line break or at the end of all; a block comment ends at the first star with a slash. -/
inductive IsGap : List Char → List Char → Prop where
  | none (rest : List Char) : IsGap [] rest
  | blank {c : Char} {gap rest : List Char} (isBlank : Text.isBlank c = true)
    (more : IsGap gap rest) : IsGap (c :: gap) rest
  | lineComment {body gap rest : List Char} (inLine : ∀ c ∈ body, Text.isLineBreak c = false)
    (stops : ∀ c, (gap ++ rest).head? = some c → Text.isLineBreak c = true)
    (more : IsGap gap rest) : IsGap ('/' :: '/' :: (body ++ gap)) rest
  | blockComment {body gap rest : List Char} (isOpen : ¬ ['*', '/'] <:+: body)
    (more : IsGap gap rest) : IsGap ('/' :: '*' :: (body ++ '*' :: '/' :: gap)) rest

namespace Cursor

/-- Whether a text starts with neither white space nor a comment. -/
def Settled (cs : List Char) : Prop :=
  ∀ c rest, cs = c :: rest → Text.isBlank c = false ∧
    (c = '/' → rest.head? ≠ some '/' ∧ rest.head? ≠ some '*')

/-- A text that begins with the rest of what a state is inside of, and goes on with white space and
comments. -/
def Continues (rest : List Char) : Gap → List Char → Prop
  | .blank, text => IsGap text rest
  | .lineComment, text =>
    ∃ body gap, text = body ++ gap ∧ (∀ c ∈ body, Text.isLineBreak c = false) ∧
      (∀ c, (gap ++ rest).head? = some c → Text.isLineBreak c = true) ∧ IsGap gap rest
  | .opening _, text =>
    ∃ body gap, text = '*' :: (body ++ '*' :: '/' :: gap) ∧ ¬ ['*', '/'] <:+: body ∧
      IsGap gap rest
  | .blockComment _, text =>
    ∃ body gap, text = body ++ '*' :: '/' :: gap ∧ ¬ ['*', '/'] <:+: body ∧ IsGap gap rest
  | .closing, text => ∃ gap, text = '/' :: gap ∧ IsGap gap rest

/-- The characters that a state has already seen are the next ones. -/
def Expects (cs : List Char) : Gap → Prop
  | .opening _ => cs.head? = some '*'
  | .closing => cs.head? = some '/'
  | _ => True

theorem not_infix_cons {c : Char} {body : List Char} (isOpen : ¬ ['*', '/'] <:+: body)
    (inside : ¬(c = '*' ∧ body.head? = some '/')) : ¬ ['*', '/'] <:+: c :: body := by
  intro closed
  rcases List.infix_cons_iff.mp closed with front | later
  · obtain ⟨after, split⟩ := front
    cases split
    exact inside ⟨rfl, rfl⟩
  · exact isOpen later

/-- What `skipGap` skips from a state on: a text that the state goes on with, whose line breaks were
noticed, up to one that starts with neither white space nor a comment. -/
def Skips (gap : Gap) (newline : Bool) (offset : Nat) (cs : List Char) (result : Bool × Cursor) :
    Prop :=
  ∃ text, cs = text ++ result.2.rest ∧ result.2.offset = offset + text.length ∧
    result.1 = (newline || text.any Text.isLineBreak) ∧ Continues result.2.rest gap text ∧
    Settled result.2.rest

/-- One character more is skipped. -/
theorem Skips.cons {gap next : Gap} {newline noticed : Bool} {offset : Nat} {c : Char}
    {rest : List Char} {result : Bool × Cursor}
    (later : Skips next noticed (offset + 1) rest result)
    (noticed_eq : noticed = (newline || Text.isLineBreak c))
    (onward : ∀ text, rest = text ++ result.2.rest → Continues result.2.rest next text →
      Continues result.2.rest gap (c :: text)) :
    Skips gap newline offset (c :: rest) result := by
  obtain ⟨text, split, offset_eq, newline_eq, continues, settled⟩ := later
  refine ⟨c :: text, ?_, ?_, ?_, onward text split continues, settled⟩
  · rw [split, List.cons_append]
  · rw [offset_eq, List.length_cons]
    omega
  · rw [newline_eq, noticed_eq, List.any_cons, Bool.or_assoc]

theorem skips_nil {gap : Gap} {newline : Bool} {offset : Nat} {result : Bool × Cursor}
    (expected : Expects [] gap) (skip_eq : skipGap gap newline offset [] = .ok result) :
    Skips gap newline offset [] result := by
  cases gap with
  | blank =>
    cases skip_eq
    exact ⟨[], rfl, rfl, by simp, .none [], nofun⟩
  | lineComment =>
    cases skip_eq
    exact ⟨[], rfl, rfl, by simp, ⟨[], [], rfl, nofun, nofun, .none []⟩, nofun⟩
  | opening start => cases skip_eq
  | blockComment start => cases skip_eq
  | closing => cases expected

theorem continues_slashes {text rest : List Char} (second : (text ++ rest).head? = some '/')
    (continues : Continues rest .lineComment text) : IsGap ('/' :: text) rest := by
  obtain ⟨body, gap, rfl, inLine, stops, isGap⟩ := continues
  cases body with
  | nil => cases stops '/' second
  | cons c body =>
    cases second
    exact .lineComment (fun d member => inLine d (List.mem_cons_of_mem _ member)) stops isGap

theorem continues_inLine {c : Char} {text rest : List Char} (inLine : Text.isLineBreak c = false)
    (continues : Continues rest .lineComment text) : Continues rest .lineComment (c :: text) := by
  obtain ⟨body, gap, rfl, body_inLine, stops, isGap⟩ := continues
  refine ⟨c :: body, gap, rfl, fun d member => ?_, stops, isGap⟩
  rcases List.mem_cons.mp member with rfl | member
  · exact inLine
  · exact body_inLine d member

theorem continues_inside {c : Char} {start : Nat} {text rest : List Char}
    (inside : ¬(c = '*' ∧ (text ++ rest).head? = some '/'))
    (continues : Continues rest (.blockComment start) text) :
    Continues rest (.blockComment start) (c :: text) := by
  obtain ⟨body, gap, rfl, isOpen, isGap⟩ := continues
  refine ⟨c :: body, gap, rfl, not_infix_cons isOpen fun ⟨star, slash⟩ => inside ⟨star, ?_⟩, isGap⟩
  cases body with
  | nil => cases slash
  | cons d body => exact slash

/-- What `skipGap` skips is white space and comments. -/
theorem skipGap_ok (gap : Gap) {newline : Bool} {offset : Nat} {cs : List Char}
    {result : Bool × Cursor} (expected : Expects cs gap)
    (skip_eq : skipGap gap newline offset cs = .ok result) :
    Skips gap newline offset cs result := by
  induction cs generalizing gap newline offset with
  | nil => exact skips_nil expected skip_eq
  | cons c rest inductive_hypothesis =>
    cases gap with
    | blank =>
      simp only [skipGap] at skip_eq
      split at skip_eq
      · rename_i lineBreak
        refine (inductive_hypothesis .blank trivial skip_eq).cons (by simp [lineBreak]) ?_
        intro text _ isGap
        exact .blank (Text.isBlank_of_isLineBreak lineBreak) isGap
      · rename_i inLine
        have unnoticed : newline = (newline || Text.isLineBreak c) := by simp [inLine]
        split at skip_eq
        · rename_i blank
          refine (inductive_hypothesis .blank trivial skip_eq).cons unnoticed ?_
          intro text _ isGap
          exact .blank blank isGap
        · rename_i visible
          split at skip_eq
          · rename_i slashes
            obtain ⟨rfl, second⟩ := slashes
            refine (inductive_hypothesis .lineComment trivial skip_eq).cons unnoticed ?_
            rintro text rfl continues
            exact continues_slashes second continues
          · rename_i noLine
            split at skip_eq
            · rename_i opens
              obtain ⟨rfl, second⟩ := opens
              refine (inductive_hypothesis (.opening _) second skip_eq).cons unnoticed ?_
              rintro text _ ⟨body, gap, rfl, isOpen, isGap⟩
              exact .blockComment isOpen isGap
            · rename_i noBlock
              cases skip_eq
              refine ⟨[], rfl, rfl, by simp, .none _, fun d tail front => ?_⟩
              cases front
              exact ⟨by simpa using visible, fun slash => ⟨fun second => noLine ⟨slash, second⟩,
                fun second => noBlock ⟨slash, second⟩⟩⟩
    | lineComment =>
      simp only [skipGap] at skip_eq
      split at skip_eq
      · rename_i lineBreak
        refine (inductive_hypothesis .blank trivial skip_eq).cons (by simp [lineBreak]) ?_
        intro text _ isGap
        refine ⟨[], c :: text, rfl, by simp, fun d first => ?_,
          .blank (Text.isBlank_of_isLineBreak lineBreak) isGap⟩
        cases first
        exact lineBreak
      · rename_i inLine
        refine (inductive_hypothesis .lineComment trivial skip_eq).cons
          (by simp [inLine]) ?_
        intro text _ continues
        exact continues_inLine (by simpa using inLine) continues
    | opening start =>
      cases expected
      refine (inductive_hypothesis (.blockComment start) trivial skip_eq).cons
        (by rw [show Text.isLineBreak '*' = false by decide, Bool.or_false]) ?_
      rintro text _ ⟨body, gap, rfl, isOpen, isGap⟩
      exact ⟨body, gap, rfl, isOpen, isGap⟩
    | blockComment start =>
      simp only [skipGap] at skip_eq
      split at skip_eq
      · rename_i closes
        obtain ⟨rfl, second⟩ := closes
        refine (inductive_hypothesis .closing second skip_eq).cons
          (by rw [show Text.isLineBreak '*' = false by decide, Bool.or_false]) ?_
        rintro text _ ⟨gap, rfl, isGap⟩
        refine ⟨[], gap, rfl, fun found => ?_, isGap⟩
        cases List.infix_nil.mp found
      · rename_i inside
        refine (inductive_hypothesis (.blockComment start) trivial skip_eq).cons rfl ?_
        rintro text rfl continues
        exact continues_inside inside continues
    | closing =>
      cases expected
      refine (inductive_hypothesis .blank trivial skip_eq).cons
        (by rw [show Text.isLineBreak '/' = false by decide, Bool.or_false]) ?_
      intro text _ isGap
      exact ⟨text, rfl, isGap⟩

theorem skipGap_settled {cs : List Char} (settled : Settled cs) (newline : Bool) (offset : Nat) :
    skipGap .blank newline offset cs = .ok (newline, ⟨cs, offset⟩) := by
  cases cs with
  | nil => rfl
  | cons c rest =>
    obtain ⟨visible, uncommented⟩ := settled c rest rfl
    have inLine : Text.isLineBreak c = false := by
      rw [Bool.eq_false_iff]
      intro lineBreak
      rw [Text.isBlank_of_isLineBreak lineBreak] at visible
      cases visible
    have noLine : ¬(c = '/' ∧ rest.head? = some '/') := fun slashes =>
      (uncommented slashes.1).1 slashes.2
    have noBlock : ¬(c = '/' ∧ rest.head? = some '*') := fun opens =>
      (uncommented opens.1).2 opens.2
    simp only [skipGap, inLine, visible, noLine, noBlock, Bool.false_eq_true, ↓reduceIte]

/-- The front of a text starts like the text. -/
theorem Settled.of_append {text rest : List Char} (settled : Settled (text ++ rest)) :
    Settled text := by
  rintro c tail rfl
  obtain ⟨visible, uncommented⟩ := settled c (tail ++ rest) rfl
  refine ⟨visible, fun slash => ?_⟩
  cases tail with
  | nil => exact ⟨nofun, nofun⟩
  | cons d tail => exact uncommented slash

end Cursor
end Scriptlet
