import Scriptlet.Proofs.Grammar.Rejection

set_option autoImplicit false

/-!
What is reported of a text that is no program, and what taking all its tokens reports.
-/
namespace Scriptlet

namespace Diagnostic

/-- Whether a report is about characters that are no token. -/
def IsLexical (report : Diagnostic) : Prop :=
  report.code ∈ [some "E001", some "E002", some "E003", some "E004"]

/-- Whether a report is about tokens that are no program. -/
def IsSyntactic (report : Diagnostic) : Prop :=
  report.code ∈ [some "E100", some "E101", some "E102", some "E103"]

theorem IsSyntactic.not_isLexical {report : Diagnostic} (syntactic : report.IsSyntactic) :
    ¬ report.IsLexical := by
  intro lexical
  simp only [IsSyntactic, IsLexical, List.mem_cons, List.not_mem_nil, or_false] at syntactic lexical
  rcases syntactic with code_eq | code_eq | code_eq | code_eq <;> simp [code_eq] at lexical

/-- Whether a report names a part of the text before an offset. -/
def Within (limit : Nat) (report : Diagnostic) : Prop :=
  ∃ span, report.span = some span ∧ span.start ≤ span.stop ∧ span.stop ≤ limit

theorem Within.mono {report : Diagnostic} {limit length : Nat} (within : report.Within limit)
    (le : limit ≤ length) : report.Within length := by
  obtain ⟨span, span_eq, forward, inside⟩ := within
  exact ⟨span, span_eq, forward, Nat.le_trans inside le⟩

end Diagnostic

theorem LexicalError.toDiagnostic_span (error : LexicalError) :
    error.toDiagnostic.span = some error.span := by
  unfold toDiagnostic
  split <;> rfl

theorem SourceError.toDiagnostic_span (error : SourceError) :
    error.toDiagnostic.span = some error.span := by
  cases error with
  | lexical error => exact error.toDiagnostic_span
  | unexpectedToken | missingSemicolon | invalidTarget | unsupportedKeyword => rfl

namespace TokenStream

variable {stream : TokenStream}

theorem toExcept_error_iff {error : LexicalError} :
    stream.toExcept = .error error ↔ stream.ending = .error error := by
  unfold toExcept
  cases stream.ending <;> simp

theorem limit_of_error {error : LexicalError} (ending_eq : stream.ending = .error error) :
    stream.limit = error.span.start := by
  rw [limit, ending_eq]

end TokenStream

namespace Grammar

/-- A failure is reported like the lexical error, or as one of syntax before the limit. -/
theorem Failure.FoundIn.report {stream : TokenStream} {failure : Failure}
    (found : failure.FoundIn stream) :
    (∃ error, stream.ending = .error error ∧ failure.toDiagnostic = error.toDiagnostic) ∨
      failure.toDiagnostic.IsSyntactic ∧ failure.toDiagnostic.Within stream.limit := by
  cases failure with
  | exhausted => exact found.elim
  | rejected error =>
    have span_eq := error.toDiagnostic_span
    cases error with
    | lexical error => exact .inl ⟨error, found, rfl⟩
    | unexpectedToken | missingSemicolon | invalidTarget | unsupportedKeyword =>
      refine .inr ⟨?_, _, span_eq, found⟩
      simp [Diagnostic.IsSyntactic, toDiagnostic, SourceError.toDiagnostic]

def Form.isWhole {α : Type} : Form α → Bool
  | .statements inBlock => !inBlock
  | _ => false

/-- The statements of a program go on to the end of the source. -/
theorem Derives.sees_end {α : Type} {form : Form α} {state later : State} {value : α}
    (derived : Derives form state value later) (whole : form.isWhole = true) :
    later.Sees (·.isEnd = true) := by
  induction derived with
  | statements_skip _ _ tail_ih => exact tail_ih whole
  | statements_end ends => exact ends
  | statements_cons _ _ _ _ tail_ih => exact tail_ih whole
  | _ => cases whole

/-- A program is read only if no lexical error comes. -/
theorem ending_of_read {stream : TokenStream} {program : Program}
    (placed : (State.ofStream stream).Placed stream) (read_eq : (read stream).1 = .ok program) :
    ∃ last, stream.ending = .ok last := by
  obtain ⟨listed, later, derived, _⟩ := (read_eq_ok_iff placed.closed).mp read_eq
  obtain ⟨_, going, ending, _⟩ := derived.placed placed
  obtain ⟨token, next_eq, isEnd⟩ := derived.sees_end rfl
  unfold State.next at next_eq
  split at next_eq
  · rename_i rest tokens_eq
    cases next_eq
    have other := going token (by simp [tokens_eq])
    rw [isEnd] at other
    cases other
  · exact ⟨token, ending ▸ next_eq⟩

/-- Reading a program fails on account of the text only. -/
theorem read_foundIn {stream : TokenStream} {failure : Failure}
    (placed : (State.ofStream stream).Placed stream) (read_eq : (read stream).1 = .error failure) :
    failure.FoundIn stream := by
  have enough : (Form.statements false).Enough (.ofStream stream)
      (stepsFor stream.tokens.length) := by
    show 16 * stream.tokens.length + 8 ≤ 16 * stream.tokens.length + 16
    omega
  have fails : FailsIn stream (program (stepsFor stream.tokens.length)) (.ofStream stream) :=
    FailsInWith.bind (failsIn stream _) (.statements false) placed enough fun _ _ _ => failsIn_make
  unfold read at read_eq
  split at read_eq
  · cases read_eq
  · rename_i found later program_eq
    cases read_eq
    exact fails failure later program_eq

end Grammar

/-- The report of a text that is no program is about a part of the text. -/
theorem Program.within_of_ofText {text : String} {failure : Grammar.Failure}
    (failed : ofText text = .error failure) : failure.toDiagnostic.Within text.length := by
  have placed := Grammar.State.placed_ofText text
  obtain ⟨_, inside, _, fault⟩ := TokenStream.ordered_ofText text
  rcases (Grammar.read_foundIn placed failed).report with
    ⟨error, ending_eq, report_eq⟩ | ⟨_, within⟩
  · obtain ⟨forward, stops⟩ := fault error ending_eq
    rw [report_eq]
    exact ⟨error.span, error.toDiagnostic_span, forward, stops⟩
  · exact within.mono inside

/-- Reading a program and taking all the tokens of a text agree on lexical errors. A text that is a
program has none. Of a text that has one, either it is reported, or an error of syntax before it.
What is reported as lexical is what taking the tokens reports, and every report is about a part of
the text. -/
theorem Program.ofText_reports (text : String) :
    (∀ program, ofText text = .ok program → ∃ tokens, (Lexer.ofText text).drain.1 = .ok tokens) ∧
      (∀ error, (Lexer.ofText text).drain.1 = .error error →
        ∃ failure, ofText text = .error failure ∧
          (failure.toDiagnostic = error.toDiagnostic ∨
            failure.toDiagnostic.IsSyntactic ∧ failure.toDiagnostic.Within error.span.start)) ∧
      (∀ failure, ofText text = .error failure → failure.toDiagnostic.IsLexical →
        ∃ error, (Lexer.ofText text).drain.1 = .error error ∧
          failure.toDiagnostic = error.toDiagnostic) ∧
      ∀ failure, ofText text = .error failure → failure.toDiagnostic.Within text.length := by
  have placed := Grammar.State.placed_ofText text
  obtain ⟨_, inside, _, fault⟩ := TokenStream.ordered_ofText text
  have reported {failure : Grammar.Failure} (read_eq : ofText text = .error failure) :=
    (Grammar.read_foundIn placed read_eq).report
  simp only [TokenStream.drain_eq, TokenStream.toExcept_error_iff]
  refine ⟨fun program read_eq => ?_, fun error ending_eq => ?_, fun failure read_eq lexical => ?_,
    fun failure read_eq => ?_⟩
  · obtain ⟨last, ending_eq⟩ := Grammar.ending_of_read placed read_eq
    exact ⟨_, by rw [TokenStream.toExcept, ending_eq]⟩
  · cases read_eq : ofText text with
    | ok program =>
      obtain ⟨last, ends⟩ := Grammar.ending_of_read placed read_eq
      rw [ending_eq] at ends
      cases ends
    | error failure =>
      refine ⟨failure, rfl, ?_⟩
      rcases reported read_eq with ⟨other, other_eq, report_eq⟩ | ⟨syntactic, within⟩
      · rw [ending_eq, Except.error.injEq] at other_eq
        exact .inl (other_eq ▸ report_eq)
      · rw [TokenStream.limit_of_error ending_eq] at within
        exact .inr ⟨syntactic, within⟩
  · rcases reported read_eq with found | ⟨syntactic, _⟩
    · exact found
    · exact absurd lexical (syntactic.not_isLexical)
  · rcases reported read_eq with ⟨error, ending_eq, report_eq⟩ | ⟨_, within⟩
    · obtain ⟨forward, stops⟩ := fault error ending_eq
      rw [report_eq]
      exact ⟨error.span, error.toDiagnostic_span, forward, stops⟩
    · exact within.mono inside

end Scriptlet
