import BallerinaSyntax.Proofs.Following.Reference
import BallerinaSyntax.Proofs.Following.Signature
import BallerinaSyntax.Grammar.TypeName

/-! Type names in two units that look alike. -/

namespace BallerinaSyntax

open Grammar Parse

variable {L : Likeness}

/-! ## Fields -/

theorem follows_fieldFrom (m : Twins L Mark) (metadata : Twins L Metadata) (type : Twins L TypeName) :
    Follows L (fieldFrom m.first metadata.first type.first)
      (fieldFrom m.second metadata.second type.second) :=
  .bind follows_identifier fun name => .bind (follows_behind _ (.call _)) fun default =>
    .bind (follows_expect _) fun _ => .node fun info =>
      congr(Tree.field $(info.alike) $(metadata.alike) $(type.alike) $(name.alike) $(default.alike))

theorem follows_field : Follows L field field :=
  .bind follows_mark fun m => .bind follows_metadata fun metadata => .bind (.call _) fun type =>
    follows_fieldFrom m metadata type

theorem follows_reportDuplicateBlock (info : Twins L NodeInfo) (what : String) :
    Follows L (reportDuplicateBlock info.first what) (reportDuplicateBlock info.second what) :=
  .located (congrArg NodeInfo.range info.alike) (fun _ => rfl) fun _ _ hp hd =>
    follows_report info.alike.opposite hp hd

/-! ## Objects -/

theorem follows_objectParameter : Follows L objectParameter objectParameter := by
  refine .bind follows_mark fun m => .bind follows_attachments fun annotations =>
    .see (sees_atKind _) fun _ => .see (sees_kind 1) fun _ => ?_
  extract_lets bindsField
  refine .bind (follows_whenever (.done rfl) (.call _)) fun type => ?_
  extract_lets node node'
  have hn : ∀ rest : Twins L (Option Leaf), Follows L (node rest.first) (node' rest.second) :=
    fun rest => .bind follows_identifier fun name => .bind (follows_behind _ (.call _)) fun default =>
      .node fun info => congr(Tree.objectParameter $(info.alike) $(annotations.alike) $(type.alike)
        $(rest.alike) $(name.alike) $(default.alike))
  clear_value node node'
  exact .ite (hn .none) (.bind (follows_optional _) hn)

theorem follows_objectInitializer (m : Twins L Mark) (metadata : Twins L Metadata)
    (modifiers : Modifiers) :
    Follows L (objectInitializer m.first metadata.first modifiers)
      (objectInitializer m.second metadata.second modifiers) := by
  refine .bind follows_bump fun _ => .bind follows_mark fun list => ?_
  refine .bind (follows_expect _) fun opening => ?_
  refine .bind (follows_listAfter opening _ follows_objectParameter) fun parameters => ?_
  refine .bind (follows_expectClosing opening _ _) fun close => ?_
  refine .bind (follows_finishDelimited list _ close) fun listInfo => .bind (.call _) fun body => ?_
  exact .bind (follows_finishModified m _ _) fun info => .done congr(($(info.alike),
    Tree.objectInitializer $(info.alike) $(metadata.alike)
      (.objectParameterList $(listInfo.alike) $(parameters.ofList.alike)) $(body.alike)))

theorem follows_fieldBlock : Follows L fieldBlock fieldBlock := by
  refine .bind follows_mark fun m => .bind follows_bump fun keyword => .bind follows_bump fun opening =>
    .bind (.many ?_) fun fields => .bind (follows_expectClosing opening _ _) fun close =>
      .bind (follows_finishDelimited m _ close) fun info => .done ?_
  · exact .see (sees_atListEnd _) fun _ => .ite (.done rfl) <|
      .item (follows_progressing _ follows_field)
  · have hi : L.Alike { info.first with modifiers := .ofKeyword keyword.first.kind }
        { info.second with modifiers := .ofKeyword keyword.second.kind } :=
      congr({ $(info.alike) with modifiers := Modifiers.ofKeyword $(keyword.kind_eq) })
    exact congr(($hi, Tree.fieldBlock $hi $(fields.ofList.alike)))

theorem follows_objectMember (members : Twins L ObjectMembers) :
    Follows L (objectMember members.first) (objectMember members.second) := by
  refine .bind follows_mark fun m => .bind follows_metadata fun metadata =>
    .give follows_modifiers fun modifiers => .see (sees_kind 0) fun k => ?_
  split
  · refine .bind (follows_objectInitializer m metadata modifiers) fun x => x.pair fun info read =>
      .iteOf (members.map ObjectMembers.initializer fun _ _ => rfl).isSome_eq ?_ (.done ?_)
    · exact .bind (follows_reportDuplicateBlock info _) fun _ => .done members.alike
    · exact congr({ $(members.alike) with initializer := some $(read.alike) })
  · refine .bind follows_bump fun _ => .bind follows_signature fun signature =>
      .bind follows_optionalBody fun body => .bind (follows_finishModified m _ _) fun info => .done ?_
    have hf : L.Alike (Tree.objectFunction info.first metadata.first signature.first body.first)
        (.objectFunction info.second metadata.second signature.second body.second) :=
      congr(Tree.objectFunction $(info.alike) $(metadata.alike) $(signature.alike) $(body.alike))
    have hs := ((members.map ObjectMembers.functions fun _ _ => rfl).push ⟨_, _, hf⟩).alike
    exact congr({ $(members.alike) with functions := $hs })
  · exact .bind (follows_errorExpected _) fun _ => .bind (follows_skipUntil _ _) fun _ =>
      .done members.alike

theorem follows_objectPart (members : Twins L ObjectMembers) :
    Follows L (objectPart members.first) (objectPart members.second) := by
  refine .see (sees_kind 0) fun _ => .see (sees_isKind _ _) fun _ => .ite ?_ <|
    .see (sees_isKind _ _) fun _ => .ite ?_ (follows_objectMember members)
  · refine .bind follows_fieldBlock fun x => x.pair fun info read =>
      .iteOf (members.map ObjectMembers.publicFields fun _ _ => rfl).isSome_eq ?_ (.done ?_)
    · exact .bind (follows_reportDuplicateBlock info _) fun _ => .done members.alike
    · exact congr({ $(members.alike) with publicFields := some $(read.alike) })
  · refine .bind follows_fieldBlock fun x => x.pair fun info read =>
      .iteOf (members.map ObjectMembers.privateFields fun _ _ => rfl).isSome_eq ?_ (.done ?_)
    · exact .bind (follows_reportDuplicateBlock info _) fun _ => .done members.alike
    · exact congr({ $(members.alike) with privateFields := some $(read.alike) })

theorem alike_noObjectMembers : L.Alike ({} : ObjectMembers) {} :=
  congr(ObjectMembers.mk none none none $(Likeness.alike_empty))

theorem follows_objectMembers : Follows L objectMembers objectMembers :=
  .members alike_noObjectMembers follows_objectPart

theorem follows_objectType (m : Twins L Mark) :
    Follows L (objectType m.first) (objectType m.second) := by
  refine .bind follows_bump fun _ => .bind (follows_expect _) fun opening => ?_
  extract_lets node node'
  have hn : ∀ members : Twins L ObjectMembers,
      Follows L (node members.first) (node' members.second) := fun members => by
    have hp := (members.map ObjectMembers.publicFields fun _ _ => rfl).ofOption.alike
    have hq := (members.map ObjectMembers.privateFields fun _ _ => rfl).ofOption.alike
    have hi := (members.map ObjectMembers.initializer fun _ _ => rfl).ofOption.alike
    have hf := (members.map ObjectMembers.functions fun _ _ => rfl).toList.ofList.alike
    exact .bind (follows_expectClosing opening _ _) fun _ => .delimited fun info =>
      congr(Tree.objectType $(info.alike) $hp $hq $hi $hf)
  clear_value node node'
  exact .iteOf opening.missing_eq (hn ⟨{}, {}, alike_noObjectMembers⟩)
    (.bind (.withRecovery follows_objectMembers) hn)

/-! ## Records -/

theorem follows_recordMember (members : Twins L RecordMembers) :
    Follows L (recordMember members.first) (recordMember members.second) := by
  refine .bind follows_mark fun m => .bind follows_metadata fun metadata => .bind (.call _) fun type =>
    .give (follows_accept _) fun _ => .ite ?_ ?_
  · refine .bind (follows_expect _) fun _ => .bind (follows_finish m _) fun info =>
      .iteOf (members.map RecordMembers.rest fun _ _ => rfl).isSome_eq ?_ (.done ?_)
    · exact .bind (follows_reportDuplicateBlock info _) fun _ => .done members.alike
    · exact congr({ $(members.alike) with
        rest := some (Tree.restField $(info.alike) $(type.alike)) })
  · refine .bind (follows_fieldFrom m metadata type) fun field => .done ?_
    have hf := ((members.map RecordMembers.fields fun _ _ => rfl).push field).alike
    exact congr({ $(members.alike) with fields := $hf })

theorem alike_noRecordMembers : L.Alike ({} : RecordMembers) {} :=
  congr(RecordMembers.mk $(Likeness.alike_empty) none)

theorem follows_recordMembers : Follows L recordMembers recordMembers :=
  .members alike_noRecordMembers follows_recordMember

theorem follows_recordType (m : Twins L Mark) :
    Follows L (recordType m.first) (recordType m.second) := by
  refine .bind follows_bump fun _ => .bind (follows_expect _) fun opening => ?_
  extract_lets node node'
  have hn : ∀ members : Twins L RecordMembers,
      Follows L (node members.first) (node' members.second) := fun members => by
    have hf := (members.map RecordMembers.fields fun _ _ => rfl).toList.ofList.alike
    have hr := (members.map RecordMembers.rest fun _ _ => rfl).ofOption.alike
    exact .bind (follows_expectClosing opening _ _) fun _ => .delimited fun info =>
      congr(Tree.recordType $(info.alike) $hf $hr)
  clear_value node node'
  exact .iteOf opening.missing_eq (hn ⟨{}, {}, alike_noRecordMembers⟩)
    (.bind follows_recordMembers hn)

/-! ## Other types -/

theorem follows_namespaceConstraint : Follows L namespaceConstraint namespaceConstraint := by
  refine .bind follows_mark fun m => .give (follows_accept _) fun _ => ?_
  extract_lets node node'
  have hn : ∀ uri : Twins L (Option Leaf), Follows L (node uri.first) (node' uri.second) :=
    fun uri => .bind follows_identifier fun localName => .node fun info =>
      congr(XmlNamespaceConstraint.mk $(info.alike) $(uri.alike) $(localName.alike))
  clear_value node node'
  exact .ite (.bind (follows_expect _) fun uri => .bind (follows_expect _) fun _ => hn uri.some)
    (hn .none)

theorem follows_constrainedType (m : Twins L Mark) :
    Follows L (constrainedType m.first) (constrainedType m.second) := by
  refine .bind follows_bump fun keyword => .bind follows_bump fun _ => ?_
  extract_lets node node'
  have hn : ∀ constraint : Twins L (Tree .typeConstraint),
      Follows L (node constraint.first) (node' constraint.second) :=
    fun constraint => .bind (follows_expect _) fun _ => .node fun info =>
      congr(Tree.constrainedType $(info.alike) $(keyword.alike) $(constraint.alike))
  clear_value node node'
  refine .iteOf (congrArg (· == Kind.xmlKeyword) keyword.kind_eq) ?_ ?_
  · exact .bind follows_namespaceConstraint fun constraint =>
      hn (constraint.map .namespaceConstraint fun _ _ => rfl)
  · exact .bind (.call _) fun type => hn (type.map .typeConstraint fun _ _ => rfl)

theorem follows_parenthesizedType (m : Twins L Mark) :
    Follows L (parenthesizedType m.first) (parenthesizedType m.second) := by
  refine .bind follows_bump fun opening => .give (follows_accept _) fun _ =>
    .ite (.node fun info => congr(Tree.nilType $(info.alike))) <| .bind (.call _) fun first =>
      .see (sees_atKind _) fun _ => .ite ?_ ?_
  · exact .bind (follows_expectClosing opening _ _) fun _ => .delimited fun info =>
      congr(Tree.groupType $(info.alike) $(first.alike))
  · exact .bind (follows_moreBehind _ (.call _)) fun rest =>
      .bind (follows_expectClosing opening _ _) fun _ => .delimited fun info =>
        congr(Tree.tupleType $(info.alike) $((first.cons rest).ofList.alike))

theorem follows_functionTypeParameter : Follows L functionTypeParameter functionTypeParameter :=
  .bind follows_mark fun _ => .bind follows_attachments fun annotations =>
    .bind (.call _) fun type => .bind follows_optionalIdentifier fun name => .node fun info =>
      congr(Tree.functionTypeParameter $(info.alike) $(annotations.alike) $(type.alike) $(name.alike))

theorem follows_functionType (m : Twins L Mark) :
    Follows L (functionType m.first) (functionType m.second) :=
  .bind follows_bump fun _ => .bind (follows_expect _) fun opening =>
    .bind (follows_listAfter opening _ follows_functionTypeParameter) fun parameters =>
      .bind (follows_expectClosing opening _ _) fun _ => .bind follows_optionalReturn fun returns =>
        .node fun info =>
          congr(Tree.functionType $(info.alike) $(parameters.ofList.alike) $(returns.alike))

theorem follows_typePrimary : Follows L typePrimary typePrimary := by
  refine .bind follows_mark fun m => .see (sees_kind 0) fun k => .see (sees_isKind _ _) fun _ =>
    .ite (follows_constrainedType m) <| .ite (.bind follows_bump fun keyword => .node fun info =>
      congr(Tree.builtinType $(info.alike) $(keyword.alike))) ?_
  split
  · exact .bind follows_userDefinedType fun type => .done congr(Tree.userDefinedType $(type.alike))
  · exact follows_parenthesizedType m
  · exact follows_functionType m
  · exact follows_objectType m
  · exact follows_recordType m
  · exact .bind (follows_errorExpected _) fun _ => .placeholder fun info =>
      congr(Tree.missingType $(info.alike))

/-! ## Suffixes -/

theorem sees_typeOperator : Sees L typeOperator? := by
  refine .bind (sees_kind 0) fun k => ?_
  split
  · exact .bind (sees_isKind _ _) fun _ => .bind (sees_kind _) fun _ => .bind (sees_isKind _ _)
      fun _ => .done _
  · exact .bind (sees_kind _) fun _ => .done _
  · exact .done _

theorem follows_arrayDimension : Follows L arrayDimension arrayDimension := by
  refine .bind follows_mark fun m => .bind follows_bump fun _ => .see (sees_kind 0) fun k => ?_
  extract_lets node node'
  have hn : ∀ size : Twins L (Option Leaf), Follows L (node size.first) (node' size.second) :=
    fun size => .bind (follows_expect _) fun _ => .node fun info =>
      congr(ArrayDimension.mk $(info.alike) $(size.alike))
  clear_value node node'
  exact .ite (.bind follows_bump fun size => hn size.some) (hn .none)

theorem follows_applyType (m : Twins L Mark) (left : Twins L TypeName) (op : Operator) :
    Follows L (applyType m.first left.first op) (applyType m.second left.second op) := by
  unfold applyType
  split
  · refine .bind (.many <| .see sees_typeOperator fun _ => .ite ?_ (.done rfl)) fun dimensions =>
      .node fun info => congr(Tree.arrayType $(info.alike) $(left.alike) $(dimensions.alike))
    exact .item follows_arrayDimension
  · exact .bind follows_bump fun _ => .node fun info =>
      congr(Tree.nullableType $(info.alike) $(left.alike))
  · refine .bind (.many <| .see sees_isUnwinding fun _ => .see (sees_atKind _) fun _ =>
      .see (sees_kind _) fun _ => .ite ?_ (.done rfl)) fun members => .node fun info =>
        congr(Tree.unionType $(info.alike) $((left.cons members).ofList.alike))
    exact .bind follows_bump fun _ => .item (.call _)

theorem following_typeRule : OperatorRule.Following L typeRule where
  primary := follows_typePrimary
  operator? := sees_typeOperator
  apply := follows_applyType

end BallerinaSyntax
