import Mathlib
import Scriptlet.Proofs.Grammar.WellFormed
import Scriptlet.Proofs.Tree.Children

set_option autoImplicit false

/-!
A second statement of a choice belongs to the nearest choice, at any depth: what comes right before
it does not end with a choice that could have had it.
-/
namespace Scriptlet
namespace Statement

/-- Whether a statement is a choice without a second statement. -/
def LacksAlternate : Statement → Prop
  | .conditional _ _ _ none => True
  | _ => False

/-- The statements that a statement ends with, the statement itself among them. Blocks are not
entered: what stands in a block ends with its brace. -/
inductive Trails : Statement → Statement → Prop where
  | here (statement : Statement) : Trails statement statement
  | body {info : NodeInfo} {test : Expression} {body last : Statement} (inner : Trails body last) :
    Trails (.while info test body) last
  | alternate {info : NodeInfo} {condition : Expression} {consequent alternate last : Statement}
    (inner : Trails alternate last) :
    Trails (.conditional info condition consequent (some alternate)) last
  | consequent {info : NodeInfo} {condition : Expression} {consequent last : Statement}
    (inner : Trails consequent last) :
    Trails (.conditional info condition consequent none) last

theorem LacksAlternate.isOpen {statement : Statement} (lacks : statement.LacksAlternate) :
    statement.isOpen = true := by
  unfold LacksAlternate at lacks
  split at lacks
  · rw [Statement.isOpen]
  · exact lacks.elim

/-- Whether an `else` after a statement would be read as a part of it is decided by the statements
that it ends with. -/
theorem isOpen_iff {statement : Statement} :
    statement.isOpen = true ↔ ∃ last, Trails statement last ∧ last.LacksAlternate := by
  constructor
  · intro isOpen
    -- The induction is the recursion of `isOpen`, which stops at a choice without a second
    -- statement.
    induction statement using Statement.isOpen.induct with
    | case1 info condition consequent => exact ⟨_, .here _, trivial⟩
    | case2 info condition consequent alternate inductive_hypothesis =>
      rw [Statement.isOpen] at isOpen
      obtain ⟨last, trails, lacks⟩ := inductive_hypothesis isOpen
      exact ⟨last, .alternate trails, lacks⟩
    | case3 info test body inductive_hypothesis =>
      rw [Statement.isOpen] at isOpen
      obtain ⟨last, trails, lacks⟩ := inductive_hypothesis isOpen
      exact ⟨last, .body trails, lacks⟩
    | case4 statement others =>
      rw [Statement.isOpen] at isOpen
      all_goals grind
  · rintro ⟨last, trails, lacks⟩
    induction trails with
    | here => exact lacks.isOpen
    | body _ inductive_hypothesis => rw [isOpen, inductive_hypothesis lacks]
    | alternate _ inductive_hypothesis => rw [isOpen, inductive_hypothesis lacks]
    | consequent => rw [isOpen]

end Statement

/-- Whether a node is not a choice with a second statement that an earlier statement could have
had. -/
def Node.ElseNearest : Node → Prop
  | .statement (.conditional _ _ consequent (some _)) =>
    ∀ last, consequent.Trails last → ¬ last.LacksAlternate
  | _ => True

theorem Node.WellFormed.elseNearest {node : Node} (wellFormed : node.WellFormed) :
    node.ElseNearest := by
  unfold ElseNearest
  split
  · intro last trails lacks
    rw [WellFormed] at wellFormed
    have isOpen := Statement.isOpen_iff.mpr ⟨last, trails, lacks⟩
    rw [wellFormed] at isOpen
    cases isOpen
  · trivial

theorem Program.Every.imp {first good : Node → Prop} {program : Program}
    (each : ∀ node, first node → good node) (every : program.Every first) :
    program.Every good := by
  refine everyStatement_iff.mpr fun statement member => ?_
  have inside : (Node.statement statement).Every first :=
    everyStatement_iff.mp every statement member
  exact inside.imp each

/-- A second statement of a choice belongs to the nearest choice, everywhere in a program. -/
theorem Program.elseNearest_of_ofText {text : String} {program : Program}
    (read_eq : ofText text = .ok program) : program.Every Node.ElseNearest :=
  (Grammar.wellFormed_of_ofText read_eq).imp fun _ => Node.WellFormed.elseNearest

/-- A choice in a choice, each with a second statement. -/
theorem Program.elseNearest_nested :
    ∃ program, ofText "if(a)if(b)c;else d;else e" = .ok program ∧
      program.Every Node.ElseNearest := by
  let info (id start stop : Nat) : NodeInfo := ⟨⟨id⟩, ⟨start, stop⟩⟩
  have read_eq : ofText "if(a)if(b)c;else d;else e" = .ok ⟨⟨11⟩, ⟨⟨10⟩,
      [.conditional (info 9 0 25) (.identifier (info 0 3 4) "a")
        (.conditional (info 6 5 19) (.identifier (info 1 8 9) "b")
          (.expression (info 3 10 12) (.identifier (info 2 10 11) "c"))
          (some (.expression (info 5 17 19) (.identifier (info 4 17 18) "d"))))
        (some (.expression (info 8 24 25) (.identifier (info 7 24 25) "e")))]⟩⟩ := by
    cbv
  exact ⟨_, read_eq, elseNearest_of_ofText read_eq⟩

end Scriptlet
