import BallerinaSyntax.Proofs.Grouping.Definition
import BallerinaSyntax.Proofs.Grouping.Expression
import BallerinaSyntax.Grammar.Rule
import BallerinaSyntax.ParseTree

/-!
The rules that goals name, and whole units. What stands for a construct that nests too deep is
well grouped, and no operator is applied to it: everything unwinds from there.
-/

namespace BallerinaSyntax

open Condition Grammar Parse

theorem yields_missingReference : Yields missingReference :=
  .skip fun _ => .done ⟨trivial, trivial⟩

theorem gives_rule {c : Category} (goal : Goal c) : Gives any (rule goal) goal.Keeps := by
  cases goal with
  | expression power =>
    refine .nested ((gives_climb groups_expressionRule power).weaken (fun _ _ h => h)
      fun _ _ _ h => ⟨h.1.1, h.1.2, h.2⟩) ?_ fun _ _ _ _ h => h
    refine .look (looks_placeholder .missingExpression) fun info => .done fun scope s hs => ?_
    exact ⟨⟨trivial, trivial⟩, fun _ h => (by cases h), .inl hs.1⟩
  | typeName power =>
    refine .nested ((gives_climb groups_typeRule power).weaken (fun _ _ h => h)
      fun _ _ _ h => ⟨h.1.1, h.1.2, h.2⟩) ?_ fun _ _ _ _ h => h
    refine .look (looks_placeholder .missingTypeName) fun info => .done fun scope s hs => ?_
    exact ⟨⟨trivial, trivial⟩, fun _ => rfl, .inl hs.1⟩
  | reference =>
    exact Yields.nested (yields_climbReference _) yields_missingReference
  | statement => exact yields_statementBody
  | block =>
    exact Yields.nested yields_blockBody (.skip fun _ => .done ⟨trivial, trivial, trivial⟩)
  | callableBody =>
    refine Yields.nested yields_callableBodyInner (.skip fun _ => .done ?_)
    exact ⟨trivial, ⟨trivial, trivial⟩, ⟨trivial, trivial⟩, ⟨trivial, trivial⟩⟩
  | xmlElement => exact yields_xmlElementBody
  | pattern =>
    refine Yields.nested yields_patternBody (.skip fun _ => .bind yields_missingReference fun _ hr =>
      .done ?_)
    exact ⟨trivial, trivial, hr, wellGrouped_absent, wellGrouped_absent⟩

theorem groups_recursion : ∀ levels, (recursion levels).Groups
  | 0 => fun _ _ _ _ _ _ he => by cases he
  | levels + 1 => fun _ goal _ _ _ _ he => gives_rule goal (groups_recursion levels) trivial he

/-- Whatever the tokens are, operators and suffixes of type names are applied as they bind: no tree
that is read has anything below an operator that binds less tightly than that operator asks. -/
theorem SourceUnit.parse?_wellGrouped {u : SourceUnit} {options : Options} {t : ParseTree}
    (h : u.parse? options = some (.ok t)) : wellGrouped t.root := by
  obtain ⟨⟨root, s⟩, hr, h⟩ := Option.map_eq_some_iff.mp h
  dsimp only [outcome] at h
  split at h
  · cases h
  · obtain rfl := Except.ok.inj h
    exact yields_compilationUnit (groups_recursion _) trivial hr

/-- A variable of a union type that is initialized with a sum, the last part of which is a product. -/
def SourceUnit.sum : SourceUnit :=
  ⟨"sum.bal", { tokens := [.fixed .intKeyword 0, .fixed .barToken 3, .fixed .stringKeyword 4,
    .place .identifier "x" 11, .fixed .equalsToken 13, .place .decimalIntegerLiteral "1" 15,
    .fixed .plusToken 17, .place .decimalIntegerLiteral "2" 19, .fixed .asteriskToken 21,
    .place .decimalIntegerLiteral "3" 23, .fixed .semicolonToken 24, .endOfFile 25] }⟩

theorem SourceUnit.sum_wellGrouped :
    ∃ t, sum.parse? {} = some (.ok t) ∧ wellGrouped t.root := by
  have h : (sum.parse? {}).map Except.isOk = some true := by decide +kernel
  obtain ⟨r, hr, hok⟩ := Option.map_eq_some_iff.mp h
  cases r with
  | error e => cases hok
  | ok t => exact ⟨t, hr, parse?_wellGrouped hr⟩

end BallerinaSyntax
