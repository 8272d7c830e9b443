import BallerinaSyntax.Proofs.Reading.Statement
import BallerinaSyntax.Proofs.Reading.TypeName
import BallerinaSyntax.Grammar.Definition

/-! The contracts of services and of the other definitions. -/

namespace BallerinaSyntax

open Parse Condition Grammar

/-! ## Resources -/

theorem reads_resourceParameters (opening : Leaf) : Reads (resourceParameters opening) := by
  refine .of fun m => .ite (fun _ => .done (by simp)) fun _ => ?_
  refine .skip (reads_accept _) fun endpointNext => ?_
  refine .ite (fun _ => ?called) fun _ => ?plain
  case called =>
    refine .bind reads_identifier fun caller => .skip (reads_accept _) fun more => ?_
    refine .ite (fun _ => ?_) fun _ => .give (.done (by simp))
    exact .bind (reads_commaList reads_parameter) fun parameters => .done (by simp)
  case plain => exact .bind (reads_listUntil _ reads_parameter) fun parameters => .done (by simp)

theorem reads_resourceParameterList : Reads resourceParameterList := by
  refine .marked fun m => .skip (reads_expect nofun) fun opening => ?_
  refine .bind (reads_resourceParameters _) fun ⟨caller, parameters⟩ => ?_
  exact .bind (reads_expectClosing _ _ nofun) fun close => .delimited (fun _ => rfl) (by simp)

theorem builds_resource (m : Mark) (metadata : Metadata) :
    Builds m (pieces metadata) any (resource m metadata) :=
  .bind reads_identifier fun _ => .bind reads_resourceParameterList fun _ =>
    .bind reads_callableBody fun _ => .node (fun _ => rfl) (by simp)

/-! ## Bodies -/

instance : HasParts ServiceMembers where
  parts
    | ⟨endpoints, variableMembers, resources⟩ =>
      parts endpoints ++ parts variableMembers ++ parts resources

@[simp] theorem pieces_serviceMembers (members : ServiceMembers) :
    pieces members = pieces members.endpoints ++
      (pieces members.variableMembers ++ pieces members.resources) := by
  change (_ ++ _ ++ _ : Parts).trees = _
  simp

theorem attachedAnnotations_subperm (metadata : Metadata) :
    (pieces (attachedAnnotations metadata)).Subperm (pieces metadata) := by
  cases metadata
  simp only [pieces_metadata, ← List.append_assoc]
  exact subperm_self_append ..

theorem builds_serviceMember (m : Mark) (members : ServiceMembers) :
    Builds m (pieces members) any (serviceMember members) := by
  refine .inner fun n => .innerBind (fun _ _ h => h) reads_metadata fun metadata =>
    .look (looks_kind 0) fun k => .ite (fun _ => ?_) fun _ => .look (looks_isKind _ _) fun _ =>
    .ite (fun _ => ?_) fun _ => .ite (fun _ => ?_) fun _ => ?_
  · extract_lets endpointBehind
    have he : ∀ {P : Condition}, (∀ scope s, P scope s →
        behind m (pieces members) n ([] ++ pieces metadata) scope s) →
        Builds m (pieces members) P (endpointBehind ()) := fun hP => by
      refine .innerThen hP ((builds_endpoint n _).onward ?_) fun e => .leave (fun _ _ h => h) (.done ?_)
      · simpa using attachedAnnotations_subperm metadata
      · simpa using subperm_insert (pieces members.endpoints)
          (pieces members.variableMembers ++ pieces members.resources) (pieces e)
    clear_value endpointBehind
    refine .ite (fun _ => ?_) fun _ => he fun _ _ h => h.1
    exact .innerSkip (fun _ _ h => h.1) (reads_errorExpected _) fun _ => he fun _ _ h => h
  · exact .innerThen (fun _ _ h => h.1.1) ((builds_resource n metadata).onward (by simp)) fun resource =>
      .leave (fun _ _ h => h) (.done (by simp))
  · extract_lets variableBehind
    have hv : ∀ P : Condition, Builds m (pieces members) P (variableBehind ()) := fun P =>
      .bind reads_variableDefinition fun v => .done <| by
        simpa using subperm_insert (pieces members.endpoints ++ pieces members.variableMembers)
          (pieces members.resources) (pieces v)
    clear_value variableBehind
    exact .ite (fun _ => .skip (reads_errorExpected _) fun _ => hv _) fun _ => hv _
  · exact .skip (reads_errorExpected _) fun _ => .skip (reads_skipUntil _ _) fun _ => .done (by simp)

theorem reads_serviceMembers : Reads serviceMembers := by
  refine .withRecovery <| .of fun m => .loop (fun members => ?_) (by simp)
  refine .look (looks_atListEnd _) fun ended => .ite (fun _ => .done (by simp)) fun _ => ?_
  have hmember := (builds_serviceMember m members).progressing "a service member"
  exact (hmember.onward (by simp)).andThen fun _ => .done (by simp)

theorem reads_serviceBody : Reads serviceBody := by
  refine .marked fun m => .skip (reads_expect nofun) fun opening => ?_
  extract_lets node
  have hn : ∀ members, Builds m (pieces members) any (node members) := fun _ =>
    .bind (reads_expectClosing _ _ nofun) fun _ => .delimited (fun _ => rfl) (by simp)
  clear_value node
  refine .ite (fun _ => .give ((hn _).onward (by simp))) fun _ => ?_
  exact .bind reads_serviceMembers fun _ => (hn _).onward (by simp)

/-! ## Services -/

theorem reads_serviceBinding : Reads serviceBinding := by
  refine .marked fun m => .skipBump fun _ => .look (looks_atKind _) fun _ => ?_
  extract_lets named
  have hn : ∀ record, Builds m (pieces record) any (named record) := by
    intro record
    have node : ∀ endpoints, Builds m (pieces endpoints ++ pieces record) any
        (finish m .serviceEndpointAttachments >>= fun info =>
          pure (⟨info, endpoints, record⟩ : ServiceBinding)) := fun _ => .node (fun _ => rfl) (by simp)
    refine .ite (fun _ => .give ((node _).onward (by simp))) fun _ => ?_
    refine .bind (reads_commaList reads_nameReference) fun _ => (node _).onward ?_
    exact List.perm_append_comm.subperm
  clear_value named
  refine .ite (fun _ => ?_) fun _ => .give ((hn _).onward (by simp))
  exact .bind reads_recordLiteral fun _ => .give ((hn _).onward (by simp))

theorem reads_serviceEndpointType : Reads serviceEndpointType := by
  refine .of fun m => .skip (reads_accept _) fun opened => .ite (fun _ => ?_) fun _ => .done (by simp)
  refine .bind reads_nameReference fun type => ?_
  exact .skip (reads_expect nofun) fun close => .done (by simp)

theorem builds_service (h : Heading) : Builds h.mark (pieces h.metadata) any (service h) := by
  refine .skipBump fun _ => .bind reads_serviceEndpointType fun type => .bind reads_identifier
    fun name => .look (looks_atKind _) fun _ => ?_
  extract_lets node
  have hn : ∀ binding, Builds h.mark (pieces h.metadata ++ pieces type ++ pieces name ++
      pieces binding) any (node binding) := fun _ =>
    .bind reads_serviceBody fun _ => .modified (fun _ => rfl) (by simp)
  clear_value node
  refine .ite (fun _ => ?_) fun _ => .give ((hn _).onward (by simp))
  exact .bind reads_serviceBinding fun _ => .give ((hn _).onward (by simp))

/-! ## Other definitions -/

theorem builds_function (h : Heading) : Builds h.mark (pieces h.metadata) any (function h) :=
  .skipBump fun _ => .bind (reads_identifierBefore _) fun _ => .bind reads_signature fun _ =>
    .bind reads_optionalBody fun _ => .modified (fun _ => rfl) (by simp)

@[simp] theorem pieces_unitLiteral (t : Literal) : pieces (FiniteTypeUnit.literal t) = pieces t := rfl

@[simp] theorem pieces_unitType (t : TypeName) : pieces (FiniteTypeUnit.type t) = pieces t := rfl

theorem reads_finiteTypeUnit : Reads finiteTypeUnit := by
  refine .of fun m => .look (looks_kind 0) fun k => .look (looks_kind 1) fun next => ?_
  refine .ite (fun _ => ?literal) fun _ => ?type
  case literal => exact .bind reads_simpleLiteral fun literal => .done (by simp)
  case type => exact .bind (reads_typeNameAt _) fun type => .done (by simp)

theorem reads_finiteType : Reads finiteType :=
  .marked fun _ => .bind (reads_separatedBy _ reads_finiteTypeUnit) fun _ =>
    .node (fun _ => rfl) (by simp)

theorem builds_typeDefinition (h : Heading) :
    Builds h.mark (pieces h.metadata) any (typeDefinition h) :=
  .skipBump fun _ => .bind reads_identifier fun _ => .bind reads_finiteType fun _ =>
    .skip (reads_expect nofun) fun _ => .modified (fun _ => rfl) (by simp)

theorem reads_attachPoints : Reads attachPoints := by
  refine .of fun m => .skip (reads_accept _) fun opened => .ite (fun _ => ?_) fun _ => .done (by simp)
  refine .bind (reads_listUntil _ (reads_expectAny _ rfl)) fun points => ?_
  exact .skip (reads_expect nofun) fun close => .done (by simp)

theorem builds_annotationType (h : Heading) :
    Builds h.mark (pieces h.metadata) any (annotationType h) := by
  refine .skipBump fun keyword => .bind reads_attachPoints fun points => ?_
  refine .bind reads_identifier fun name => .bind (reads_whenever ?typed reads_typeName) fun type => ?_
  case typed => exact .of fun m => .look (looks_kind 0) fun k => .done (by simp)
  exact .skip (reads_expect nofun) fun semicolon => .modified (fun _ => rfl) (by simp)

theorem builds_globalEndpoint (h : Heading) :
    Builds h.mark (pieces h.metadata) any (globalEndpoint h) :=
  .inner fun n => .innerThen (fun _ _ h => h) ((builds_endpoint n .nil).onward (by simp)) fun _ =>
    .leave (fun _ _ h => h) (.modified (fun _ => rfl) (by simp))

theorem builds_globalVariable (h : Heading) :
    Builds h.mark (pieces h.metadata) any (globalVariable h) :=
  .bind reads_typeName fun _ => .bind reads_identifier fun _ =>
    .bind (reads_behind _ reads_expression) fun _ => .skip (reads_expect nofun) fun _ =>
    .modified (fun _ => rfl) (by simp)

theorem builds_missingDefinition (h : Heading) :
    Builds h.mark (pieces h.metadata) any (missingDefinition h) := by
  refine .complain (reads_errorNoViableAlternative _) (complains_errorNoViableAlternative _) fun _ =>
    .skipBehind (reads_skipUntil _ _) fun _ => ?_
  exact .failed (fun _ => rfl) (fun _ => rfl) (fun _ => rfl) (fun _ _ => rfl) List.nil_subperm

@[simp] theorem pieces_definition_service (d : ServiceDefinition) :
    pieces (Definition.service d) = pieces d := rfl

@[simp] theorem pieces_definition_function (d : FunctionDefinition) :
    pieces (Definition.function d) = pieces d := rfl

@[simp] theorem pieces_definition_type (d : TypeDefinition) :
    pieces (Definition.type d) = pieces d := rfl

@[simp] theorem pieces_definition_annotationType (d : AnnotationDefinition) :
    pieces (Definition.annotationType d) = pieces d := rfl

@[simp] theorem pieces_definition_variable (d : GlobalVariableDefinition) :
    pieces (Definition.variable d) = pieces d := rfl

@[simp] theorem pieces_definition_endpoint (d : GlobalEndpointDefinition) :
    pieces (Definition.endpoint d) = pieces d := rfl

theorem reads_definition : Reads definition := by
  unfold definition heading
  simp only [Parse.bind_assoc, Parse.pure_bind]
  refine .marked fun m => .bind reads_metadata fun metadata => .skip reads_modifiers fun modifiers =>
    .look (looks_kind 0) fun k => ?_
  split
  · exact ((builds_service ⟨m, metadata, modifiers⟩).onward (by simp)).andThen fun _ => .done (by simp)
  · exact ((builds_typeDefinition ⟨m, metadata, modifiers⟩).onward (by simp)).andThen fun _ =>
      .done (by simp)
  · exact ((builds_annotationType ⟨m, metadata, modifiers⟩).onward (by simp)).andThen fun _ =>
      .done (by simp)
  · exact ((builds_globalEndpoint ⟨m, metadata, modifiers⟩).onward (by simp)).andThen fun _ =>
      .done (by simp)
  · refine .look (looks_isKind _ _) fun _ => .ite (fun _ => ?_) fun _ => .ite (fun _ => ?_) fun _ => ?_
    · exact ((builds_function ⟨m, metadata, modifiers⟩).onward (by simp)).andThen fun _ =>
        .done (by simp)
    · exact ((builds_globalVariable ⟨m, metadata, modifiers⟩).onward (by simp)).andThen fun _ =>
        .done (by simp)
    · exact (builds_missingDefinition ⟨m, metadata, modifiers⟩).onward (by simp)

/-! ## Items of a unit -/

instance : HasParts UnitItems where
  parts | ⟨imports, definitions⟩ => parts imports ++ parts definitions

@[simp] theorem pieces_unitItems (items : UnitItems) :
    pieces items = pieces items.imports ++ pieces items.definitions := Forest.trees_append ..

@[simp] theorem pieces_importItem_package (d : ImportDeclaration) :
    pieces (ImportItem.package d) = pieces d := rfl

@[simp] theorem pieces_importItem_xmlNamespace (d : NamespaceDeclaration) :
    pieces (ImportItem.xmlNamespace d) = pieces d := rfl

theorem reads_requireFirst (items : UnitItems) (what : String) : Reads (requireFirst items what) :=
  .ite (reads_errorHere _ _) (.nothing rfl)

theorem builds_unitItem (m : Mark) (items : UnitItems) :
    Builds m (pieces items) any (unitItem items) := by
  refine .look (looks_kind 0) fun k => ?_
  split
  · refine .skip (reads_requireFirst _ _) fun _ => .bind reads_importDeclaration fun d => .done ?_
    simpa using subperm_insert (pieces items.imports) (pieces items.definitions) (pieces d)
  · refine .skip (reads_requireFirst _ _) fun _ => .bind reads_namespaceDeclaration fun d => .done ?_
    simpa using subperm_insert (pieces items.imports) (pieces items.definitions) (pieces d)
  · exact .bind reads_definition fun _ => .done (by simp)

theorem reads_unitItems : Reads unitItems := by
  refine .of fun m => .loop (fun items => .look looks_isUnwinding fun _ => ?_) (by simp)
  have round : Builds m (pieces items) any (atEnd >>= fun stops =>
      if stops = true then pure (.stop items) else
        Parse.progressing "a definition" (unitItem items) >>= fun items => pure (.again items) :
        Parse (Parse.Turn UnitItems UnitItems)) :=
    .look looks_atEnd fun _ => .ite (fun _ => .done (by simp)) fun _ =>
      ((builds_unitItem m items).progressing _ |>.onward (by simp)).andThen fun _ => .done (by simp)
  exact .ite (fun _ => .skip (reads_resynchronize _) fun _ => round) fun _ =>
    round.weaken fun _ _ _ => trivial

end BallerinaSyntax
