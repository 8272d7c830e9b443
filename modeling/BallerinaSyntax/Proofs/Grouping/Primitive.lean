import BallerinaSyntax.Proofs.Grouping.Judgement

/-! What lists, optional parts and goals give. -/

namespace BallerinaSyntax

open Parse Grammar

variable {α : Type} [HasGrouping α] {c : Category}

/-! ## Lists and optional parts -/

theorem yields_progressing {what : String} {p : Parse α} (h : Yields p) :
    Yields (progressing what p) := by
  refine .skip fun before => .bind h fun a ha => .skip fun here => .skip fun ended => ?_
  exact .ite (.skip fun reported => .done ha) (.done ha)

theorem yields_moreBehind {separator : Kind} {item : Parse α} (h : Yields item) :
    Yields (moreBehind separator item) := by
  refine .many <| .skip fun unwinding => .ite (.done trivial) <| .skip fun separated => ?_
  exact .ite (.item h) (.done trivial)

theorem yields_separatedBy {separator : Kind} {item : Parse α} (h : Yields item) :
    Yields (separatedBy separator item) :=
  .bind h fun a ha => .bind (yields_moreBehind h) fun as has =>
    .done ((wellGrouped_cons a as).mpr ⟨ha, has⟩)

theorem yields_commaList {item : Parse α} (h : Yields item) : Yields (commaList item) :=
  yields_separatedBy h

theorem yields_listUntil {close : Kind} {item : Parse α} (h : Yields item) :
    Yields (listUntil close item) :=
  .skip fun _ => .ite (.done wellGrouped_nil) (yields_commaList h)

theorem yields_listAfter {opening : Leaf} {close : Kind} {item : Parse α} (h : Yields item) :
    Yields (listAfter opening close item) :=
  .ite (.done wellGrouped_nil) (yields_listUntil h)

/-- Members up to the closing brace. -/
theorem Yields.members {what : String} {member : α → Parse α} {a : α} (ha : wellGrouped a)
    (h : ∀ members, wellGrouped members → Yields (member members)) :
    Yields (Parse.loop (fun members => do
      if ← atListEnd .closeBraceToken then return .stop members
      return .again (← progressing what (member members))) a : Parse α) := by
  refine .loop ha fun members hmembers => .skip fun ended => .ite (.done hmembers) ?_
  exact .bind (yields_progressing (h members hmembers)) fun next hnext => .done hnext

theorem yields_behind {k : Kind} {p : Parse (Tree c)} (h : Yields p) : Yields (behind k p) :=
  .skip fun _ => .ite (.bind h fun _ ht => .done ⟨trivial, ht⟩) (.done wellGrouped_absent)

theorem yields_whenever {condition : Parse Bool} {p : Parse (Tree c)} (h : Yields p) :
    Yields (whenever condition p) :=
  .skip fun _ => .ite (.bind h fun _ ht => .done ⟨trivial, ht⟩) (.done wellGrouped_absent)

/-! ## Goals -/

/-- An expression with no operator behind it. -/
def Condition.unapplied (e : Expression) : Condition := fun _ _ =>
  wellGrouped e ∧ e.isOperation = false

theorem yields_expressionAt (power : ExpressionPower) : Yields (expressionAt power) :=
  .call fun _ _ _ h => h.1

theorem yields_expression : Yields expression := yields_expressionAt _

theorem yields_typeNameAt (power : TypePower) : Yields (typeNameAt power) :=
  .call fun _ _ _ h => h.1

theorem yields_typeName : Yields typeName := yields_typeNameAt _

theorem yields_reference : Yields reference := .call fun _ _ _ h => h

theorem yields_statement : Yields statement := .call fun _ _ _ h => h

theorem yields_block : Yields block := .call fun _ _ _ h => h

theorem yields_callableBody : Yields callableBody := .call fun _ _ _ h => h

theorem yields_xmlElement : Yields xmlElement := .call fun _ _ _ h => h

theorem yields_pattern : Yields pattern := .call fun _ _ _ h => h

end BallerinaSyntax
