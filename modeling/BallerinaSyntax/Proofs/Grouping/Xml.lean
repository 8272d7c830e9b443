import BallerinaSyntax.Proofs.Grouping.Primitive

/-! XML literals and string templates are well grouped. -/

namespace BallerinaSyntax

open Condition Grammar Parse

/-! ## Text -/

theorem yields_interpolation : Yields interpolation := by
  refine .skip fun m => .skip fun opening => .bind yields_expression fun value hvalue => ?_
  exact .skip fun closing => .skip fun info => .done ⟨trivial, hvalue⟩

theorem yields_interpolatedText (template text : Kind) (textRequired : Bool) :
    Yields (interpolatedText template text textRequired) := by
  refine .skip fun m => .bind (.many ?hole) fun holes hholes => .skip fun textNext => ?_
  case hole => exact .skip fun here => .ite (.item yields_interpolation) (.done trivial)
  extract_lets node
  have hnode : ∀ last, wellGrouped last → Yields (node last) := fun last hlast =>
    .skip fun info => .done ⟨trivial, wellGrouped_ofList (List.forall_mem_append.mpr ⟨hholes, hlast⟩)⟩
  clear_value node
  refine .ite (.skip fun read => hnode _ ?_) (.ite (.skip fun missing => ?_) ?_)
  · exact (wellGrouped_cons ..).mpr ⟨⟨trivial, trivial⟩, wellGrouped_nil⟩
  · exact hnode _ wellGrouped_nil
  · exact hnode _ wellGrouped_nil

theorem yields_missingText : Yields missingText :=
  .skip fun _ => .done ⟨trivial, trivial, trivial⟩

theorem gives_stringTemplate : Gives any stringTemplate unapplied := by
  refine .skip fun m => .skip fun opening => ?_
  refine .after (yields_interpolatedText ..) fun content hcontent => ?_
  exact .skip fun close => .skip fun info => .done fun _ _ _ => ⟨⟨trivial, hcontent⟩, rfl⟩

theorem yields_xmlText : Yields xmlText := yields_interpolatedText ..

theorem yields_xmlComment : Yields xmlComment :=
  .skip fun _ => .skip fun _ => .bind (yields_interpolatedText ..) fun _ ht => .skip fun _ =>
    .done ⟨trivial, ht⟩

theorem yields_xmlInstruction : Yields xmlInstruction :=
  .skip fun _ => .skip fun _ => .bind (yields_interpolatedText ..) fun _ ht => .skip fun _ =>
    .done ⟨trivial, ht⟩

/-! ## Tags -/

theorem yields_xmlQualifiedName : Yields xmlQualifiedName := by
  refine .skip fun m => .skip fun computed => .ite ?expression ?written
  case expression =>
    refine .bind yields_expression fun value hvalue => .skip fun close => ?_
    exact .skip fun info => .done ⟨trivial, hvalue⟩
  refine .skip fun named => .skip fun separated => ?_
  extract_lets node
  have hnode : ∀ space, Yields (node space) := fun space =>
    .skip fun localName => .skip fun info => .done ⟨trivial, trivial⟩
  clear_value node
  exact .ite (.skip fun space => .skip fun separator => hnode _) (hnode _)

theorem yields_xmlQuotedString : Yields xmlQuotedString := by
  refine .skip fun _ => .skip fun k => ?_
  split
  · exact .skip fun _ => .bind (yields_interpolatedText ..) fun _ ht => .skip fun _ =>
      .skip fun _ => .done ⟨trivial, ht⟩
  · exact .skip fun _ => .bind yields_missingText fun _ ht => .skip fun _ => .done ⟨trivial, ht⟩

theorem yields_xmlAttribute : Yields xmlAttribute := by
  refine .skip fun m => .bind yields_xmlQualifiedName fun name hname => .skip fun equals => ?_
  refine .bind yields_xmlQuotedString fun value hvalue => ?_
  exact .skip fun info => .done ⟨trivial, hname, hvalue⟩

/-! ## Elements -/

theorem yields_xmlContentItem : Yields xmlContentItem := by
  refine .skip fun k => ?_
  have text : Yields (xmlText >>= fun t => pure (some (Tree.contentText t))) :=
    .bind yields_xmlText fun _ ht => .done ⟨trivial, ht⟩
  split
  · exact text
  · exact text
  · refine .item (.nested ?_ ?_)
    · exact .bind yields_xmlElement fun _ he => .done ⟨trivial, he⟩
    · exact .bind yields_missingText fun _ ht => .done ⟨trivial, ht⟩
  · exact .skip fun _ => .done ⟨trivial, trivial⟩
  · exact .bind yields_xmlInstruction fun _ hi => .done ⟨trivial, hi⟩
  · exact .bind yields_xmlComment fun _ hc => .done ⟨trivial, hc⟩
  · exact .skip fun _ => .done trivial

theorem yields_xmlContent : Yields xmlContent := by
  refine .bind (.loop wellGrouped_empty fun items hitems => ?round) fun items hitems => ?_
  case round =>
    refine .skip fun unwinding => .skip fun k => .ite (.done hitems) ?_
    refine .bind yields_xmlContentItem fun item hitem => ?_
    cases item with
    | some item => exact .done ((wellGrouped_push items item).mpr ⟨hitems, hitem⟩)
    | none => exact .done hitems
  exact .done (wellGrouped_ofList hitems)

theorem yields_xmlCloseTag : Yields xmlCloseTag := by
  refine .skip fun m => .skip fun opening => .bind yields_xmlQualifiedName fun name hname => ?_
  exact .skip fun close => .skip fun info => .done ⟨trivial, hname⟩

theorem yields_xmlElementBody : Yields xmlElementBody := by
  refine .skip fun m => .skip fun opening => .bind yields_xmlQualifiedName fun name hname => ?_
  refine .bind (.many ?written) fun attributes hattributes => ?_
  case written =>
    refine .skip fun unwinding => .skip fun here => ?_
    exact .ite (.item yields_xmlAttribute) (.done trivial)
  have htag : ∀ info, wellGrouped (Tree.xmlStartTag info name (.ofList attributes)) := fun info =>
    ⟨trivial, hname, wellGrouped_ofList hattributes⟩
  refine .skip fun emptyTag => .ite ?emptyElement ?element
  case emptyElement =>
    refine .skip fun tagInfo => .skip fun info => .done ?_
    exact ⟨trivial, htag _, ⟨trivial, trivial⟩, wellGrouped_absent⟩
  refine .skip fun tagClose => .skip fun tagInfo => .bind yields_xmlContent fun content hcontent => ?_
  refine .skip fun closed => .ite ?closed ?unclosed
  case closed =>
    refine .bind yields_xmlCloseTag fun closeTag hclose => .skip fun info => .done ?_
    exact ⟨trivial, htag _, hcontent, trivial, hclose⟩
  case unclosed =>
    exact .skip fun reported => .skip fun info => .done ⟨trivial, htag _, hcontent, wellGrouped_absent⟩

theorem yields_xmlItem : Yields xmlItem := by
  refine .skip fun k => ?_
  have text : Yields (xmlText >>= fun t => pure (Tree.itemText t)) :=
    .bind yields_xmlText fun _ ht => .done ⟨trivial, ht⟩
  split
  · exact .bind yields_xmlElement fun _ he => .done ⟨trivial, he⟩
  · exact .bind yields_xmlInstruction fun _ hi => .done ⟨trivial, hi⟩
  · exact .bind yields_xmlComment fun _ hc => .done ⟨trivial, hc⟩
  · exact .skip fun _ => .done ⟨trivial, trivial⟩
  · exact text
  · exact text
  · exact .skip fun _ => .bind yields_missingText fun _ ht => .done ⟨trivial, ht⟩

theorem gives_xmlLiteral : Gives any xmlLiteral unapplied := by
  refine .skip fun m => .skip fun opening => .after yields_xmlItem fun item hitem => ?_
  exact .skip fun close => .skip fun info => .done fun _ _ _ => ⟨⟨trivial, hitem⟩, rfl⟩

end BallerinaSyntax
