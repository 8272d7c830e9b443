import BallerinaSyntax.Proofs.Following.Literal
import BallerinaSyntax.Grammar.Parameter

/-! Attachments, parameters and signatures in two units that look alike. -/

namespace BallerinaSyntax

open Grammar Parse

variable {L : Likeness}

/-! ## Documentation -/

theorem follows_inlineCode (backticks : Nat) :
    Follows L (inlineCode backticks) (inlineCode backticks) :=
  .bind follows_mark fun _ => .bind follows_bump fun _ => .bind (follows_optional _) fun code =>
    .bind (follows_expect _) fun _ => .node fun info =>
      congr(InlineCode.mk $(info.alike) backticks $(code.alike))

theorem follows_documentationPart : Follows L documentationPart? documentationPart? := by
  refine .see (sees_kind 0) fun k => ?_
  have text : Follows L (bump >>= fun token => pure (some (.text token)))
      (bump >>= fun token => pure (some (DocumentationPart.text token))) :=
    .bind follows_bump fun token => .done congr(some (.text $(token.alike)))
  have code : ∀ backticks, Follows L (inlineCode backticks >>= fun code => pure (some (.code code)))
      (inlineCode backticks >>= fun code => pure (some (DocumentationPart.code code))) :=
    fun _ => .bind (follows_inlineCode _) fun code => .done congr(some (.code $(code.alike)))
  split
  · exact text
  · exact text
  · exact code 1
  · exact code 2
  · exact code 3
  · exact .done rfl

theorem follows_documentationText : Follows L documentationText documentationText :=
  .bind follows_mark fun _ => .bind (.many follows_documentationPart) fun parts =>
    .iteOf parts.isEmpty_eq (.done rfl) <| .node fun info =>
      congr(some (DocumentationText.mk $(info.alike) $(parts.alike)))

theorem follows_documentationAttribute : Follows L documentationAttribute documentationAttribute :=
  .bind follows_mark fun _ => .bind follows_bump fun marker =>
    .bind follows_optionalIdentifier fun name => .bind (follows_expect _) fun _ =>
      .bind follows_documentationText fun description => .node fun info =>
        congr(DocumentationAttribute.mk $(info.alike) $(marker.alike) $(name.alike)
          $(description.alike))

theorem follows_documentation : Follows L documentation documentation := by
  refine .bind follows_mark fun m => .bind follows_bump fun opening => ?_
  refine .bind follows_documentationText fun text => .bind (.many ?described) fun attributes => ?_
  case described =>
    exact .see (sees_atKind _) fun here => .ite (.item follows_documentationAttribute) (.done rfl)
  exact .bind (follows_expectClosing opening _ _) fun close => .delimited fun info =>
    congr(Documentation.mk $(info.alike) $(text.alike) $(attributes.alike))

theorem follows_deprecation : Follows L deprecation deprecation :=
  .bind follows_mark fun _ => .bind follows_bump fun opening =>
    .bind follows_documentationText fun text => .bind (follows_expectClosing opening _ _) fun _ =>
      .delimited fun info => congr(Deprecation.mk $(info.alike) $(text.alike))

/-! ## Annotations -/

theorem follows_attachment : Follows L attachment attachment :=
  .bind follows_mark fun _ => .bind follows_bump fun _ => .bind follows_nameReference fun name =>
    .bind follows_optionalRecord fun value => .node fun info =>
      congr(Tree.attachment $(info.alike) $(name.alike) $(value.alike))

theorem follows_attachments : Follows L attachments attachments := by
  refine .bind (.many ?attached) fun items => .done items.ofList.alike
  exact .see (sees_goesOn _) fun here => .ite (.item follows_attachment) (.done rfl)

/-! ## Metadata -/

theorem Diagnostic.Alike.withRelated {verbatim : Bool} {d e related related' : Diagnostic}
    (h : d.Alike verbatim e) (hr : related.Alike verbatim related') :
    (d.withRelated related).Alike verbatim (e.withRelated related') where
  outline := by
    obtain ⟨hc, hs, hl⟩ := Prod.mk.inj h.outline |>.imp_right Prod.mk.inj
    simp only [Diagnostic.outline, Diagnostic.withRelated, hc, hs, hl, List.length_append]
    rfl
  same hv := by rw [h.same hv, hr.same hv]

theorem follows_reportDuplicate (first second : Twins L NodeInfo) (what : String) :
    Follows L (reportDuplicate first.first second.first what)
      (reportDuplicate first.second second.second what) :=
  .located (congrArg NodeInfo.range first.alike) (fun _ => rfl) fun _ _ _ hr =>
    .located (congrArg NodeInfo.range second.alike) (fun _ => rfl) fun _ _ hp hd =>
      follows_report second.alike.opposite ⟨hp.severity, hp.span⟩
        (hd.withRelated hr)

theorem follows_metadata : Follows L metadata metadata := by
  unfold metadata
  extract_lets next
  have hn : ∀ (docs : Twins L (Array Documentation)) (notices : Twins L (Array Deprecation))
      (items : Twins L (Array (Tree .attachment))),
      Follows L (next ⟨docs.first, notices.first, items.first⟩)
        (next ⟨docs.second, notices.second, items.second⟩) := fun docs notices items => by
    have ha := congr(Attachments.mk $(docs.alike) $(notices.alike) $(items.alike))
    refine .see sees_isUnwinding fun unwinding => .done ?_
    cases unwinding with
    | true => exact congr(Turn.stop $ha)
    | false => exact congr(Turn.again $ha)
  clear_value next
  refine .bind (.loop congr(Attachments.mk $(Likeness.alike_empty) $(Likeness.alike_empty)
    $(Likeness.alike_empty)) fun a => .see (sees_kind 0) fun k => ?_) fun a => .done ?_
  · let docs := a.map Attachments.documentation fun _ _ => rfl
    let notices := a.map Attachments.deprecated fun _ _ => rfl
    let items := a.map Attachments.annotations fun _ _ => rfl
    split
    · refine .bind follows_documentation fun doc => ?_
      have next := hn (docs.push doc) notices items
      exact Likeness.Alike.optional (x := a.first.documentation[0]?)
        (y := a.second.documentation[0]?) docs.first?.alike next fun first =>
          .bind (follows_reportDuplicate (first.map Documentation.info fun _ _ => rfl)
            (doc.map Documentation.info fun _ _ => rfl) _) fun _ => next
    · refine .bind follows_deprecation fun notice => ?_
      have next := hn docs (notices.push notice) items
      exact Likeness.Alike.optional (x := a.first.deprecated[0]?) (y := a.second.deprecated[0]?)
        notices.first?.alike next fun first =>
          .bind (follows_reportDuplicate (first.map Deprecation.info fun _ _ => rfl)
            (notice.map Deprecation.info fun _ _ => rfl) _) fun _ => next
    · exact .bind follows_attachment fun item => hn docs notices (items.push item)
    · exact .done congr(Turn.stop $(a.alike))
  · have docs := (a.map Attachments.documentation fun _ _ => rfl).toList.alike
    have notices := (a.map Attachments.deprecated fun _ _ => rfl).toList.alike
    have items := (a.map Attachments.annotations fun _ _ => rfl).toList.ofList.alike
    exact congr(Tree.metadata $docs $notices $items)

/-! ## Parameters -/

theorem follows_simpleParameter : Follows L simpleParameter simpleParameter :=
  .bind follows_mark fun _ => .bind (.call _) fun type => .bind follows_identifier fun name =>
    .node fun info => congr(Tree.simpleParameter $(info.alike) .nil $(type.alike) $(name.alike))

theorem follows_typedParameter (m : Twins L Mark) (annotations : Twins L (Tree (.list .attachment))) :
    Follows L (typedParameter m.first annotations.first)
      (typedParameter m.second annotations.second) := by
  refine .bind (.call _) fun type => .give (follows_accept _) fun _ => .ite ?_ ?_
  · exact .bind follows_identifier fun name => .node fun info =>
      congr(Tree.restParameter $(info.alike) $(annotations.alike) $(type.alike) $(name.alike))
  · exact .bind follows_identifier fun name => .node fun info =>
      congr(Tree.simple (.simpleParameter $(info.alike) $(annotations.alike) $(type.alike)
        $(name.alike)))

theorem follows_tupleMembers : Follows L tupleMembers tupleMembers :=
  .bind follows_bump fun _ => .bind (follows_commaList follows_simpleParameter) fun members =>
    .give (follows_accept _) fun _ => .ite (.done members.some.alike) (.done rfl)

theorem isRestParameter_relabel (ρ : Relabelling) (t : Tree .parameter) :
    isRestParameter (relabel ρ t) = isRestParameter t := by
  cases t <;> rfl

theorem follows_parameter : Follows L parameter parameter := by
  refine .bind follows_mark fun m => .bind follows_attachments fun annotations => ?_
  refine .see (sees_atKind _) fun tuple => ?_
  extract_lets read behindMembers read' behindMembers'
  have hr : ∀ t : Twins L (Tree .parameter), Follows L (read t.first) (read' t.second) := fun t =>
    .iteOf (t.keep isRestParameter_relabel) (.done t.alike) <| .give (follows_accept _) fun _ =>
      .ite (.bind (.call _) fun default => .node fun info =>
        congr(Tree.defaultable $(info.alike) $(t.alike) $(default.alike))) (.done t.alike)
  clear_value read read'
  have hb : ∀ members : Twins L (Option (List (Tree .simpleParameter))),
      Follows L (behindMembers members.first) (behindMembers' members.second) := fun members =>
    members.alike.optional (.bind (follows_typedParameter m annotations) hr) fun members =>
      .bind (follows_finish m _) fun info => hr
        ⟨.tupleParameter info.first annotations.first members.ofList.first,
          .tupleParameter info.second annotations.second members.ofList.second,
          congr(Tree.tupleParameter $(info.alike) $(annotations.alike) $(members.ofList.alike))⟩
  clear_value behindMembers behindMembers'
  exact .ite (.bind (follows_attempt follows_tupleMembers) hb) (hb .none)

theorem follows_parameterList : Follows L parameterList parameterList :=
  .bind follows_mark fun _ => .bind (follows_expect _) fun opening =>
    .bind (follows_listAfter opening _ follows_parameter) fun parameters =>
      .bind (follows_expectClosing opening _ _) fun _ => .delimited fun info =>
        congr(Tree.parameterList $(info.alike) $(parameters.ofList.alike))

theorem follows_returnParameter : Follows L returnParameter returnParameter :=
  .bind follows_mark fun _ => .bind follows_bump fun _ => .bind follows_attachments fun annotations =>
    .bind (.call _) fun type => .node fun info =>
      congr(Tree.returnParameter $(info.alike) $(annotations.alike) $(type.alike))

theorem follows_optionalReturn : Follows L optionalReturn optionalReturn :=
  follows_whenever (sees_atKind _).follows follows_returnParameter

theorem follows_signature : Follows L signature signature :=
  .bind follows_mark fun _ => .bind follows_callableName fun name =>
    .bind follows_parameterList fun parameters => .bind follows_optionalReturn fun returns =>
      .node fun info =>
        congr(Tree.signature $(info.alike) $(name.alike) $(parameters.alike) $(returns.alike))

theorem follows_optionalBody : Follows L optionalBody optionalBody :=
  follows_whenever (.give (follows_accept _) fun _ => .done rfl) (.call _)

theorem ofKeywords_relabel (ρ : Relabelling) (keywords : List Leaf) (all : Modifiers) :
    (relabel ρ keywords).foldl (fun all k => all.union (.ofKeyword k.kind)) all =
      keywords.foldl (fun all k => all.union (.ofKeyword k.kind)) all :=
  List.foldl_map

theorem follows_modifiers : Follows L modifiers modifiers := by
  refine .bind (.many ?keyword) fun keywords => .done ?_
  case keyword => exact .see (sees_atAny _) fun here => .ite (.item follows_bump) (.done rfl)
  exact keywords.keep fun ρ keywords => ofKeywords_relabel ρ keywords {}

end BallerinaSyntax
