import BallerinaSyntax.Proofs.Following.Recovery
import BallerinaSyntax.Grammar.Xml

/-! XML literals and string templates in two units that look alike. -/

namespace BallerinaSyntax

open Grammar Parse

variable {L : Likeness}

/-! ## Text -/

theorem follows_interpolation : Follows L interpolation interpolation :=
  .bind follows_mark fun _ => .bind follows_bump fun opening => .bind (.call _) fun value =>
    .bind (follows_expect _) fun closing => .node fun info =>
      congr(Tree.interpolation $(info.alike) $(opening.alike) $(value.alike) $(closing.alike))

theorem follows_interpolatedText (template text : Kind) (textRequired : Bool) :
    Follows L (interpolatedText template text textRequired)
      (interpolatedText template text textRequired) := by
  refine .bind follows_mark fun m => .bind (.many ?hole) fun holes => .see (sees_atKind _) fun _ => ?_
  case hole => exact .see (sees_goesOn _) fun here => .ite (.item follows_interpolation) (.done rfl)
  extract_lets node node'
  have hn : ∀ last : Twins L (List (Tree .textSegment)),
      Follows L (node last.first) (node' last.second) := fun last => .node fun info =>
    congr(Tree.interpolatedText $(info.alike) $((holes.append last).ofList.alike))
  clear_value node node'
  have none := hn ⟨[], [], rfl⟩
  refine .ite (.bind follows_bump fun last => ?_) (.ite (.bind (follows_expect _) fun _ => none) none)
  exact hn ⟨[.plainText last.first], [.plainText last.second], congr([Tree.plainText $(last.alike)])⟩

theorem follows_missingText : Follows L missingText missingText :=
  .placeholder fun info => congr(Tree.interpolatedText $(info.alike) .nil)

theorem follows_stringTemplate : Follows L stringTemplate stringTemplate :=
  .bind follows_mark fun _ => .bind follows_bump fun opening =>
    .bind (follows_interpolatedText _ _ _) fun content =>
      .bind (follows_expectClosing opening _ _) fun _ => .delimited fun info =>
        congr(Tree.stringTemplate $(info.alike) $(content.alike))

theorem follows_xmlText : Follows L xmlText xmlText := follows_interpolatedText ..

theorem follows_xmlComment : Follows L xmlComment xmlComment :=
  .bind follows_mark fun _ => .bind follows_bump fun _ =>
    .bind (follows_interpolatedText _ _ _) fun text => .node fun info =>
      congr(Tree.xmlComment $(info.alike) $(text.alike))

theorem follows_xmlInstruction : Follows L xmlInstruction xmlInstruction :=
  .bind follows_mark fun _ => .bind follows_bump fun target =>
    .bind (follows_interpolatedText _ _ _) fun text => .node fun info =>
      congr(Tree.xmlInstruction $(info.alike) $(target.alike) $(text.alike))

/-! ## Tags -/

theorem follows_xmlQualifiedName : Follows L xmlQualifiedName xmlQualifiedName := by
  refine .bind follows_mark fun m => .give (follows_accept _) fun _ => .ite ?_ ?_
  · exact .bind (.call _) fun value => .bind (follows_expect _) fun _ => .node fun info =>
      congr(Tree.xmlNameInterpolation $(info.alike) $(value.alike))
  refine .see (sees_atKind _) fun _ => .see (sees_isKind _ _) fun _ => ?_
  extract_lets node node'
  have hn : ∀ space : Twins L (Option Leaf), Follows L (node space.first) (node' space.second) :=
    fun space => .bind (follows_expect _) fun localName => .node fun info =>
      congr(Tree.xmlName (XmlName.mk $(info.alike) $(space.alike) $(localName.alike)))
  clear_value node node'
  exact .ite (.bind follows_bump fun space => .bind follows_bump fun _ => hn space.some) (hn .none)

theorem follows_xmlQuotedString : Follows L xmlQuotedString xmlQuotedString := by
  refine .bind follows_mark fun m => .see (sees_kind 0) fun k => ?_
  split
  · exact .bind follows_bump fun opening => .bind (follows_interpolatedText _ _ _) fun content =>
      .bind (follows_expectClosing opening _ _) fun _ => .delimited fun info =>
        congr(Tree.xmlQuotedString $(info.alike) $(content.alike))
  · exact .bind (follows_errorExpected _) fun _ => .bind follows_missingText fun content =>
      .node fun info => congr(Tree.xmlQuotedString $(info.alike) $(content.alike))

theorem follows_xmlAttribute : Follows L xmlAttribute xmlAttribute :=
  .bind follows_mark fun _ => .bind follows_xmlQualifiedName fun name =>
    .bind (follows_expect _) fun _ => .bind follows_xmlQuotedString fun value => .node fun info =>
      congr(Tree.xmlAttribute $(info.alike) $(name.alike) $(value.alike))

/-! ## Elements -/

theorem follows_xmlContentItem : Follows L xmlContentItem xmlContentItem := by
  refine .see (sees_kind 0) fun k => ?_
  split
  case h_1 | h_2 =>
    exact .bind follows_xmlText fun text => .done congr(some (Tree.contentText $(text.alike)))
  · refine .bind (follows_nested (.bind (.call _) fun element => .done ?_)
      (.bind follows_missingText fun text => .done ?_)) fun item => .done item.some.alike
    · exact congr(Tree.contentElement $(element.alike))
    · exact congr(Tree.contentText $(text.alike))
  · exact .bind follows_bump fun cdata => .done congr(some (Tree.contentCdata $(cdata.alike)))
  · exact .bind follows_xmlInstruction fun instruction =>
      .done congr(some (Tree.contentInstruction $(instruction.alike)))
  · exact .bind follows_xmlComment fun comment =>
      .done congr(some (Tree.contentComment $(comment.alike)))
  · exact .bind (follows_bumpUnexpected _) fun _ => .done rfl

theorem follows_xmlContent : Follows L xmlContent xmlContent := by
  refine .bind (.loop Likeness.alike_empty fun read => ?round) fun read => .done read.toList.ofList.alike
  refine .see sees_isUnwinding fun unwinding => .see (sees_kind 0) fun k => ?_
  refine .ite (.done congr(Turn.stop $(read.alike))) ?_
  refine .bind follows_xmlContentItem fun item => item.alike.optional ?_ fun item => ?_
  · exact .done congr(Turn.again $(read.alike))
  · exact .done congr(Turn.again $((read.push item).alike))

theorem follows_xmlCloseTag : Follows L xmlCloseTag xmlCloseTag :=
  .bind follows_mark fun _ => .bind follows_bump fun _ => .bind follows_xmlQualifiedName fun name =>
    .bind (follows_expect _) fun _ => .node fun info =>
      congr(Tree.xmlCloseTag $(info.alike) $(name.alike))

theorem follows_xmlElementBody : Follows L xmlElementBody xmlElementBody := by
  refine .bind follows_mark fun m => .bind follows_bump fun opening => ?_
  refine .bind follows_xmlQualifiedName fun name => .bind (.many ?written) fun attributes => ?_
  case written =>
    refine .see sees_isUnwinding fun unwinding => .see (sees_atAny _) fun here => ?_
    exact .ite (.item follows_xmlAttribute) (.done rfl)
  refine .give (follows_accept _) fun emptyTag => .ite ?_ ?_
  · exact .bind (follows_finish m _) fun tag => .node fun info => congr(Tree.xmlElement $(info.alike)
      (.xmlStartTag $(tag.alike) $(name.alike) $(attributes.ofList.alike)) .nil .absent)
  refine .bind (follows_expect _) fun _ => .bind (follows_finish m _) fun tag =>
    .bind follows_xmlContent fun content => .see (sees_atKind _) fun _ => .ite ?_ ?_
  · exact .bind follows_xmlCloseTag fun closeTag => .node fun info =>
      congr(Tree.xmlElement $(info.alike) (.xmlStartTag $(tag.alike) $(name.alike)
        $(attributes.ofList.alike)) $(content.alike) (.present $(closeTag.alike)))
  · exact .bind (follows_reportUnterminated opening _ _) fun _ => .node fun info =>
      congr(Tree.xmlElement $(info.alike) (.xmlStartTag $(tag.alike) $(name.alike)
        $(attributes.ofList.alike)) $(content.alike) .absent)

theorem follows_xmlItem : Follows L xmlItem xmlItem := by
  refine .see (sees_kind 0) fun k => ?_
  split
  · exact .bind (.call _) fun element => .done congr(Tree.itemElement $(element.alike))
  · exact .bind follows_xmlInstruction fun instruction =>
      .done congr(Tree.itemInstruction $(instruction.alike))
  · exact .bind follows_xmlComment fun comment => .done congr(Tree.itemComment $(comment.alike))
  · exact .bind follows_bump fun cdata => .done congr(Tree.itemCdata $(cdata.alike))
  case h_5 | h_6 => exact .bind follows_xmlText fun text => .done congr(Tree.itemText $(text.alike))
  · exact .bind (follows_errorExpected _) fun _ => .bind follows_missingText fun text =>
      .done congr(Tree.itemText $(text.alike))

theorem follows_xmlLiteral : Follows L xmlLiteral xmlLiteral :=
  .bind follows_mark fun _ => .bind follows_bump fun opening => .bind follows_xmlItem fun item =>
    .bind (follows_expectClosing opening _ _) fun _ => .delimited fun info =>
      congr(Tree.xml $(info.alike) $(item.alike))

end BallerinaSyntax
