import BallerinaSyntax.Proofs.Following.Statement
import BallerinaSyntax.Proofs.Following.TypeName
import BallerinaSyntax.Grammar.Definition

/-! Services and other definitions in two units that look alike. -/

namespace BallerinaSyntax

open Grammar Parse

variable {L : Likeness}

/-! ## Headings -/

theorem follows_heading : Follows L heading heading :=
  .bind follows_mark fun m => .bind follows_metadata fun metadata =>
    .give follows_modifiers fun modifiers =>
      .done congr(Heading.mk $(m.alike) $(metadata.alike) modifiers)

theorem Twins.metadata_alike (h : Twins L Heading) :
    L.Alike h.first.metadata h.second.metadata := (h.map Heading.metadata fun _ _ => rfl).alike

theorem follows_headingFinish (h : Twins L Heading) (k : Kind) :
    Follows L (h.first.finish k) (h.second.finish k) := by
  have hm : h.first.modifiers = h.second.modifiers := h.keep fun _ _ => rfl
  unfold Heading.finish
  rw [hm]
  exact follows_finishModified (h.map Heading.mark fun _ _ => rfl) k _

/-- The last step of a definition. -/
theorem Follows.defined [Relabels α] {h : Twins L Heading} {k : Kind} {f g : NodeInfo → α}
    (hf : ∀ info : Twins L NodeInfo, L.Alike (f info.first) (g info.second)) :
    Follows L (h.first.finish k >>= fun info => pure (f info))
      (h.second.finish k >>= fun info => pure (g info)) :=
  .bind (follows_headingFinish h k) fun info => .done (hf info)

/-! ## Resources -/

theorem follows_resourceParameters (opening : Twins L Leaf) :
    Follows L (resourceParameters opening.first) (resourceParameters opening.second) := by
  refine .iteOf opening.missing_eq (.done rfl) <| .give (follows_accept _) fun _ => .ite ?_ ?_
  · refine .bind follows_identifier fun caller => .give (follows_accept _) fun _ => .ite ?_
      (.done congr((some $(caller.alike), ([] : List (Tree .parameter)))))
    exact .bind (follows_commaList follows_parameter) fun parameters =>
      .done congr((some $(caller.alike), $(parameters.alike)))
  · exact .bind (follows_listUntil _ follows_parameter) fun parameters =>
      .done congr(((none : Option Identifier), $(parameters.alike)))

theorem follows_resourceParameterList : Follows L resourceParameterList resourceParameterList :=
  .bind follows_mark fun _ => .bind (follows_expect _) fun opening =>
    .bind (follows_resourceParameters opening) fun x => x.pair fun caller parameters =>
      .bind (follows_expectClosing opening _ _) fun _ => .delimited fun info =>
        congr(ResourceParameterList.mk $(info.alike) $(caller.alike) $(parameters.alike))

theorem follows_resource (m : Twins L Mark) (metadata : Twins L Metadata) :
    Follows L (resource m.first metadata.first) (resource m.second metadata.second) :=
  .bind follows_identifier fun name => .bind follows_resourceParameterList fun parameters =>
    .bind (.call _) fun body => .node fun info => congr(ResourceDefinition.mk $(info.alike)
      $(metadata.alike) $(name.alike) $(parameters.alike) $(body.alike))

/-! ## Services -/

theorem isDocumented_relabel (ρ : Relabelling) (metadata : Metadata) :
    isDocumented (relabel ρ metadata) = isDocumented metadata := by
  cases metadata with
  | metadata docs notices => cases docs <;> cases notices <;> rfl

theorem attachedAnnotations_relabel (ρ : Relabelling) (metadata : Metadata) :
    relabel ρ (attachedAnnotations metadata) = attachedAnnotations (relabel ρ metadata) := by
  cases metadata
  rfl

theorem isEmptyMetadata_relabel (ρ : Relabelling) (metadata : Metadata) :
    (relabel ρ metadata).isEmptyMetadata = metadata.isEmptyMetadata := by
  have cons : ∀ (t : Tree .attachment) ts, (Tree.cons t ts).toList.isEmpty = false := fun t ts => by
    rw [Tree.toList, List.isEmpty_cons]
  cases metadata with
  | metadata docs notices items =>
    have hi : (relabel ρ items).toList.isEmpty = items.toList.isEmpty := by
      cases items with
      | nil => rfl
      | cons t ts => exact (cons _ _).trans (cons t ts).symm
    cases docs <;> cases notices <;> first | exact hi | rfl

theorem follows_serviceMember (members : Twins L ServiceMembers) :
    Follows L (serviceMember members.first) (serviceMember members.second) := by
  refine .bind follows_mark fun m => .bind follows_metadata fun metadata => .see (sees_kind 0) fun _ =>
    .ite ?_ <| .see (sees_isKind _ _) fun _ => .ite ?_ <| .ite ?_ ?_
  · extract_lets node node'
    have hn : Follows L (node ()) (node' ()) :=
      .bind (follows_endpoint m (metadata.map attachedAnnotations attachedAnnotations_relabel))
        fun endpoint => .done <| by
          have he := ((members.map ServiceMembers.endpoints fun _ _ => rfl).push endpoint).alike
          exact congr({ $(members.alike) with endpoints := $he })
    clear_value node node'
    exact .iteOf (metadata.keep isDocumented_relabel)
      (.bind (follows_errorExpected _) fun _ => hn) hn
  · refine .bind (follows_resource m metadata) fun resource => .done ?_
    have hr := ((members.map ServiceMembers.resources fun _ _ => rfl).push resource).alike
    exact congr({ $(members.alike) with resources := $hr })
  · extract_lets node node'
    have hn : Follows L (node ()) (node' ()) := .bind follows_variableDefinition fun member =>
      .done <| by
        have hv := ((members.map ServiceMembers.variableMembers fun _ _ => rfl).push member).alike
        exact congr({ $(members.alike) with variableMembers := $hv })
    clear_value node node'
    exact .iteOf (congrArg (!·) (metadata.keep isEmptyMetadata_relabel))
      (.bind (follows_errorExpected _) fun _ => hn) hn
  · exact .bind (follows_errorExpected _) fun _ => .bind (follows_skipUntil _ _) fun _ =>
      .done members.alike

theorem alike_noServiceMembers : L.Alike ({} : ServiceMembers) {} :=
  congr(ServiceMembers.mk $(Likeness.alike_empty) $(Likeness.alike_empty) $(Likeness.alike_empty))

theorem follows_serviceMembers : Follows L serviceMembers serviceMembers :=
  .withRecovery (.members alike_noServiceMembers follows_serviceMember)

theorem follows_serviceBody : Follows L serviceBody serviceBody := by
  refine .bind follows_mark fun m => .bind (follows_expect _) fun opening => ?_
  extract_lets node node'
  have hn : ∀ members : Twins L ServiceMembers,
      Follows L (node members.first) (node' members.second) := fun members => by
    have he := (members.map ServiceMembers.endpoints fun _ _ => rfl).toList.alike
    have hv := (members.map ServiceMembers.variableMembers fun _ _ => rfl).toList.alike
    have hr := (members.map ServiceMembers.resources fun _ _ => rfl).toList.alike
    exact .bind (follows_expectClosing opening _ _) fun _ => .delimited fun info =>
      congr(ServiceBody.mk $(info.alike) $he $hv $hr)
  clear_value node node'
  exact .iteOf opening.missing_eq (hn ⟨{}, {}, alike_noServiceMembers⟩)
    (.bind follows_serviceMembers hn)

theorem follows_serviceBinding : Follows L serviceBinding serviceBinding := by
  refine .bind follows_mark fun m => .bind follows_bump fun _ => .see (sees_atKind _) fun _ => ?_
  extract_lets rest rest'
  have hr : ∀ record : Twins L (Option (Tree .recordLiteral)),
      Follows L (rest record.first) (rest' record.second) := fun record => by
    unfold rest rest'
    extract_lets node node'
    have hn : ∀ endpoints : Twins L (List NameReference),
        Follows L (node endpoints.first) (node' endpoints.second) := fun endpoints =>
      .node fun info => congr(ServiceBinding.mk $(info.alike) $(endpoints.alike) $(record.alike))
    clear_value node node'
    exact .iteOf record.isSome_eq (hn ⟨[], [], rfl⟩)
      (.bind (follows_commaList follows_nameReference) hn)
  clear_value rest rest'
  exact .ite (.bind follows_recordLiteral fun record => hr record.some) (hr .none)

theorem follows_serviceEndpointType : Follows L serviceEndpointType serviceEndpointType :=
  .give (follows_accept _) fun _ => .ite (.bind follows_nameReference fun type =>
    .bind (follows_expect _) fun _ => .done type.some.alike) (.done rfl)

section

variable (h : Twins L Heading)

theorem follows_service : Follows L (service h.first) (service h.second) := by
  refine .bind follows_bump fun _ => .bind follows_serviceEndpointType fun endpointType =>
    .bind follows_identifier fun name => .see (sees_atKind _) fun _ => ?_
  extract_lets node node'
  have hn : ∀ binding : Twins L (Option ServiceBinding),
      Follows L (node binding.first) (node' binding.second) := fun binding =>
    .bind follows_serviceBody fun body => .defined fun info =>
      congr(ServiceDefinition.mk $(info.alike) $(h.metadata_alike) $(endpointType.alike)
        $(name.alike) $(binding.alike) $(body.alike))
  clear_value node node'
  exact .ite (.bind follows_serviceBinding fun binding => hn binding.some) (hn .none)

/-! ## Definitions -/

theorem follows_function : Follows L (function h.first) (function h.second) :=
  .bind follows_bump fun _ => .bind (follows_identifierBefore _) fun receiver =>
    .bind follows_signature fun signature => .bind follows_optionalBody fun body => .defined fun info =>
      congr(FunctionDefinition.mk $(info.alike) $(h.metadata_alike) $(receiver.alike)
        $(signature.alike) $(body.toOption.alike))

theorem follows_finiteTypeUnit : Follows L finiteTypeUnit finiteTypeUnit :=
  .see (sees_kind _) fun _ => .see (sees_kind _) fun _ => .ite
    (.bind follows_simpleLiteral fun value => .done congr(FiniteTypeUnit.literal $(value.alike)))
    (.bind (.call _) fun type => .done congr(FiniteTypeUnit.type $(type.alike)))

theorem follows_finiteType : Follows L finiteType finiteType :=
  .bind follows_mark fun _ => .bind (follows_separatedBy _ follows_finiteTypeUnit) fun units =>
    .node fun info => congr(FiniteType.mk $(info.alike) $(units.alike))

theorem follows_typeDefinition : Follows L (typeDefinition h.first) (typeDefinition h.second) :=
  .bind follows_bump fun _ => .bind follows_identifier fun name =>
    .bind follows_finiteType fun finite => .bind (follows_expect _) fun _ => .defined fun info =>
      congr(TypeDefinition.mk $(info.alike) $(h.metadata_alike) $(name.alike) $(finite.alike))

theorem follows_attachPoints : Follows L attachPoints attachPoints :=
  .give (follows_accept _) fun _ => .ite (.bind (follows_listUntil _ (follows_expectAny _ _))
    fun points => .bind (follows_expect _) fun _ => .done points.alike) (.done rfl)

theorem follows_annotationType : Follows L (annotationType h.first) (annotationType h.second) :=
  .bind follows_bump fun _ => .bind follows_attachPoints fun points =>
    .bind follows_identifier fun name =>
      .bind (follows_whenever (.see (sees_kind _) fun _ => .done rfl) (.call _)) fun type =>
        .bind (follows_expect _) fun _ => .defined fun info =>
          congr(AnnotationDefinition.mk $(info.alike) $(h.metadata_alike) $(points.alike)
            $(name.alike) $(type.toOption.alike))

theorem follows_globalEndpoint : Follows L (globalEndpoint h.first) (globalEndpoint h.second) :=
  .bind follows_mark fun m => .bind (follows_endpoint m ⟨.nil, .nil, rfl⟩) fun endpoint =>
    .defined fun info =>
      congr(GlobalEndpointDefinition.mk $(info.alike) $(h.metadata_alike) $(endpoint.alike))

theorem follows_globalVariable : Follows L (globalVariable h.first) (globalVariable h.second) :=
  .bind (.call _) fun type => .bind follows_identifier fun name =>
    .bind (follows_behind _ (.call _)) fun initializer => .bind (follows_expect _) fun _ =>
      .defined fun info => congr(GlobalVariableDefinition.mk $(info.alike) $(h.metadata_alike)
        $(type.alike) $(name.alike) $(initializer.toOption.alike))

theorem follows_missingDefinition :
    Follows L (missingDefinition h.first) (missingDefinition h.second) :=
  .bind (follows_errorNoViableAlternative _) fun _ => .bind (follows_skipUntil _ _) fun _ =>
    .bind (follows_finish (h.map Heading.mark fun _ _ => rfl) _) fun info => .done
      congr(Definition.missing { $(info.alike) with
        flags := { ($(info.alike) : NodeInfo).flags with missing := true, hasError := true } })

end

theorem follows_definition : Follows L definition definition := by
  refine .bind follows_heading fun h => .see (sees_kind 0) fun k => ?_
  split
  · exact .bind (follows_service h) fun d => .done congr(Definition.service $(d.alike))
  · exact .bind (follows_typeDefinition h) fun d => .done congr(Definition.type $(d.alike))
  · exact .bind (follows_annotationType h) fun d => .done congr(Definition.annotationType $(d.alike))
  · exact .bind (follows_globalEndpoint h) fun d => .done congr(Definition.endpoint $(d.alike))
  · refine .see (sees_isKind _ _) fun _ => .ite (.bind (follows_function h) fun d => .done ?_) <|
      .ite (.bind (follows_globalVariable h) fun d => .done ?_) (follows_missingDefinition h)
    · exact congr(Definition.function $(d.alike))
    · exact congr(Definition.variable $(d.alike))

/-! ## Units -/

theorem follows_requireFirst (items : Twins L UnitItems) (what : String) :
    Follows L (requireFirst items.first what) (requireFirst items.second what) := by
  have he : items.first.definitions.isEmpty = items.second.definitions.isEmpty := by
    have := (items.map UnitItems.definitions fun _ _ => rfl).toList.isEmpty_eq
    rwa [← Array.isEmpty_toList, ← Array.isEmpty_toList]
  exact .iteOf congr(!$he) (follows_errorHere rfl fun _ => rfl) (.done rfl)

theorem follows_unitItem (items : Twins L UnitItems) :
    Follows L (unitItem items.first) (unitItem items.second) := by
  refine .see (sees_kind 0) fun k => ?_
  split
  · refine .bind (follows_requireFirst items _) fun _ => .bind follows_importDeclaration fun d => .done ?_
    have hi := ((items.map UnitItems.imports fun _ _ => rfl).push
      (d.map .package fun _ _ => rfl)).alike
    exact congr({ $(items.alike) with imports := $hi })
  · refine .bind (follows_requireFirst items _) fun _ => .bind follows_namespaceDeclaration fun d => .done ?_
    have hi := ((items.map UnitItems.imports fun _ _ => rfl).push
      (d.map .xmlNamespace fun _ _ => rfl)).alike
    exact congr({ $(items.alike) with imports := $hi })
  · refine .bind follows_definition fun d => .done ?_
    have hd := ((items.map UnitItems.definitions fun _ _ => rfl).push d).alike
    exact congr({ $(items.alike) with definitions := $hd })

theorem follows_unitItems : Follows L unitItems unitItems := by
  have none : L.Alike ({} : UnitItems) {} :=
    congr(UnitItems.mk $(Likeness.alike_empty) $(Likeness.alike_empty))
  refine .loop none fun items => .see sees_isUnwinding fun unwinding => ?_
  extract_lets rest rest'
  have hr : Follows L (rest ()) (rest' ()) := by
    refine .see sees_atEnd fun ended => .ite (.done congr(Turn.stop $(items.alike))) ?_
    exact .bind (follows_progressing _ (follows_unitItem items)) fun next =>
      .done congr(Turn.again $(next.alike))
  clear_value rest rest'
  exact .ite (.bind (follows_resynchronize _) fun _ => hr) hr

theorem follows_compilationUnit : Follows L compilationUnit compilationUnit :=
  .bind follows_mark fun _ => .bind follows_unitItems fun items =>
    .bind follows_bumpEndOfFile fun endOfFile => .node fun info => by
      have hi := (items.map UnitItems.imports fun _ _ => rfl).toList.alike
      have hd := (items.map UnitItems.definitions fun _ _ => rfl).toList.alike
      exact congr(CompilationUnit.mk $(info.alike) $hi $hd $(endOfFile.alike))

end BallerinaSyntax
