import Mathlib
import Scriptlet.Proofs.Grammar.Placing
import Scriptlet.Proofs.Grammar.Postorder

set_option autoImplicit false

/-!
The layout of a program that is read: its nodes are numbered in the order of the sites, and the
range of a node encloses those of the nodes below it, which follow each other in the text.
-/
namespace Scriptlet

/-- Whether a node and everything below it comes before another, in the text and in numbers. -/
def Node.Before (left right : Node) : Prop :=
  left.span.stop ≤ right.span.start ∧
    ∀ one ∈ left.numbers, ∀ other ∈ right.numbers, one < other

/-- What is true of each node of a tree that is read from a text of the given length. -/
structure Node.Ordered (length : Nat) (node : Node) : Prop where
  forward : node.span.start ≤ node.span.stop
  inside : node.span.stop ≤ length
  encloses : ∀ child ∈ node.children,
    node.span.start ≤ child.span.start ∧ child.span.stop ≤ node.span.stop
  last : ∀ child ∈ node.children, ∀ number ∈ child.numbers, ∀ own, node.number? = some own →
    number < own
  inOrder : node.children.Pairwise Before

theorem Node.ordered {limit length : Nat} (bound : limit ≤ length) (node : Node)
    (placed : node.Placed limit) (numbered : node.Numbered) : node.Ordered length where
  forward := placed.2.le
  inside := Nat.le_trans placed.1 bound
  encloses _ member := placed.2.inside member
  last := numbered.last
  inOrder := placed.2.pairwise.and numbered.inOrder

namespace Grammar

/-- What a program that is read comes from. The last two nodes that are made are its own. -/
theorem derives_of_read {stream : TokenStream} {program : Program} {builder : Builder}
    (read_eq : read stream = (.ok program, builder)) :
    ∃ later, Derives (.statements false) (.ofStream stream) program.body.statements later ∧
      program.body.id.index = later.count ∧ program.id.index = later.count + 1 ∧
      builder.nodeCount = later.count + 2 := by
  unfold read at read_eq
  split at read_eq
  · rename_i found last program_eq
    cases read_eq
    simp only [Grammar.program, bind_ok, make_ok] at program_eq
    obtain ⟨listed, later, read_eq, made_eq⟩ := program_eq
    cases made_eq
    have derived := sound (stepsFor stream.tokens.length) (.statements false) read_eq
    refine ⟨later, derived, rfl, ?_, ?_⟩ <;>
      simp [Builder.program, Builder.create, Builder.nodeCount, State.count]
  · cases read_eq

end Grammar

/-- The ranges of the nodes of a program lie in the text that it is read from. -/
theorem Program.within_of_read {text : String} {program : Program} {builder : Builder}
    (read_eq : read text = (.ok program, builder)) :
    program.Every fun node => node.span.start ≤ node.span.stop ∧ node.span.stop ≤ text.length := by
  obtain ⟨later, derived, _⟩ := Grammar.derives_of_read read_eq
  have bound := (TokenStream.ordered_ofText text).inside
  obtain ⟨_, placed⟩ := derived.fits (Grammar.State.placed_ofText text) Grammar.fits_refl
  refine everyStatement_iff.mpr fun statement member => ?_
  have whole := placed (.statement statement) (List.mem_map_of_mem member)
  exact whole.imp fun node here => ⟨here.2.le, Nat.le_trans here.1 bound⟩

/-- The nodes of a program that is read have the numbers from zero on, in the order of the sites
with the body and the program last. Ranges lie within the text and in each other like the nodes, and
those of siblings follow each other. -/
theorem Program.ordered_of_read {text : String} {program : Program} {builder : Builder}
    (read_eq : read text = (.ok program, builder)) :
    numbers program.sites ++ [program.body.id.index, program.id.index] =
        List.range builder.nodeCount ∧
      program.Every (Node.Ordered text.length) ∧
      (program.body.statements.map Node.statement).Pairwise Node.Before := by
  obtain ⟨later, derived, body_eq, program_eq, total⟩ := Grammar.derives_of_read read_eq
  have bound := (TokenStream.ordered_ofText text).inside
  obtain ⟨laid, placed⟩ := derived.fits (Grammar.State.placed_ofText text) Grammar.fits_refl
  have counted : numbers program.sites = List.range later.count := by
    rw [List.range_eq_range']
    exact derived.numbers_eq.2 []
  have increasing : (numbers program.sites).Pairwise (· < ·) := by
    rw [counted]
    exact List.pairwise_lt_range
  rw [sites, statementSites_eq, numbers_flatMap, List.pairwise_flatMap] at increasing
  obtain ⟨within, between⟩ := increasing
  refine ⟨?_, everyStatement_iff.mpr fun statement member => ?_, laid.pairwise.and between⟩
  · rw [counted, body_eq, program_eq, total, List.range_succ, List.range_succ, List.append_assoc]
    rfl
  · have node : Node.statement statement ∈ program.body.statements.map Node.statement :=
      List.mem_map.mpr ⟨statement, member, rfl⟩
    exact (placed _ node).combine (Node.ordered bound) (Node.every_numbered (within _ node))

/-- A property of what a call gives, with an argument in parentheses. -/
def callText : String :=
  "f((x)).y;"

/-- The program of `callText`. -/
def callProgram : Program :=
  let info (id start stop : Nat) : NodeInfo := ⟨⟨id⟩, ⟨start, stop⟩⟩
  let call : Expression := .call (info 2 0 6) (.identifier (info 0 0 1) "f")
    [.identifier (info 1 3 4) "x"]
  let whole : Expression := .member (info 3 0 8) call (.named "y")
  ⟨⟨6⟩, ⟨⟨5⟩, [.expression (info 4 0 9) whole]⟩⟩

theorem Program.ordered_of_read_callText :
    ∃ builder, read callText = (.ok callProgram, builder) ∧
      numbers callProgram.sites ++ [callProgram.body.id.index, callProgram.id.index] =
        List.range builder.nodeCount ∧
      callProgram.Every (Node.Ordered callText.length) ∧
      (callProgram.body.statements.map Node.statement).Pairwise Node.Before := by
  have read_eq : read callText = (.ok callProgram,
      ⟨#[.identifier, .identifier, .call, .member, .expression, .body, .program]⟩) := by
    cbv
  exact ⟨_, read_eq, ordered_of_read read_eq⟩

end Scriptlet
