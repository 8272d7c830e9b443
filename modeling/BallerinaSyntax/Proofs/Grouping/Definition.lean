import BallerinaSyntax.Proofs.Grouping.Statement
import BallerinaSyntax.Proofs.Grouping.TypeName
import BallerinaSyntax.Grammar.Definition

/-! Definitions and compilation units are well grouped. -/

namespace BallerinaSyntax

open Condition Grammar Parse

/-! ## What definitions are made of -/

instance : HasGrouping Heading := ⟨fun h => wellGrouped h.metadata⟩

instance : HasGrouping ServiceBinding := ⟨fun b => wellGrouped b.record⟩

instance : HasGrouping ResourceParameterList := ⟨fun list => wellGrouped list.parameters⟩

instance : HasGrouping ResourceDefinition :=
  ⟨fun d => wellGrouped d.metadata ∧ wellGrouped d.parameters ∧ wellGrouped d.body⟩

instance : HasGrouping ServiceMembers where
  wellGrouped members := wellGrouped members.endpoints ∧ wellGrouped members.variableMembers ∧
    wellGrouped members.resources

instance : HasGrouping ServiceBody :=
  ⟨fun b => wellGrouped b.endpoints ∧ wellGrouped b.variableMembers ∧ wellGrouped b.resources⟩

instance : HasGrouping ServiceDefinition :=
  ⟨fun d => wellGrouped d.metadata ∧ wellGrouped d.binding ∧ wellGrouped d.body⟩

instance : HasGrouping FunctionDefinition :=
  ⟨fun d => wellGrouped d.metadata ∧ wellGrouped d.signature ∧ wellGrouped d.body⟩

/-- The types of a finite type are its units, so none of them is a union. -/
instance : HasGrouping FiniteTypeUnit where
  wellGrouped
    | .literal _ => True
    | .type t => wellGrouped t ∧ t.isUnion = false

instance : HasGrouping FiniteType := ⟨fun t => wellGrouped t.units⟩

instance : HasGrouping TypeDefinition := ⟨fun d => wellGrouped d.metadata ∧ wellGrouped d.finiteType⟩

instance : HasGrouping AnnotationDefinition := ⟨fun d => wellGrouped d.metadata ∧ wellGrouped d.type⟩

instance : HasGrouping GlobalVariableDefinition :=
  ⟨fun d => wellGrouped d.metadata ∧ wellGrouped d.type ∧ wellGrouped d.initializer⟩

instance : HasGrouping GlobalEndpointDefinition :=
  ⟨fun d => wellGrouped d.metadata ∧ wellGrouped d.endpoint⟩

instance : HasGrouping Definition where
  wellGrouped
    | .service d => wellGrouped d
    | .function d => wellGrouped d
    | .type d => wellGrouped d
    | .annotationType d => wellGrouped d
    | .variable d => wellGrouped d
    | .endpoint d => wellGrouped d
    | .missing _ => True

instance : HasGrouping UnitItems := ⟨fun items => wellGrouped items.definitions⟩

instance : HasGrouping CompilationUnit := ⟨fun u => wellGrouped u.definitions⟩

/-! ## Services -/

theorem yields_heading : Yields heading :=
  .skip fun _ => .bind yields_metadata fun _ hm => .skip fun _ => .done hm

theorem yields_resourceParameters (opening : Leaf) : Yields (resourceParameters opening) := by
  refine .ite ?missing <| .skip fun endpointNext => .ite ?called ?plain
  case missing => exact .done ⟨trivial, wellGrouped_nil⟩
  case plain =>
    refine .bind (yields_listUntil yields_parameter) fun parameters hparameters => ?_
    exact .done ⟨trivial, hparameters⟩
  refine .skip fun caller => .skip fun commaNext => ?_
  extract_lets node
  have hnode : ∀ parameters, wellGrouped parameters → Yields (node parameters) :=
    fun parameters hparameters => .done ⟨trivial, hparameters⟩
  clear_value node
  exact .ite (.bind (yields_commaList yields_parameter) hnode) (hnode _ wellGrouped_nil)

theorem yields_resourceParameterList : Yields resourceParameterList := by
  refine .skip fun m => .skip fun opening => .bind (yields_resourceParameters _) fun read hread => ?_
  exact .skip fun close => .skip fun info => .done hread.2

theorem yields_resource (m : Mark) {metadata : Metadata} (hm : wellGrouped metadata) :
    Yields (resource m metadata) := by
  refine .skip fun name => .bind yields_resourceParameterList fun parameters hparameters => ?_
  refine .bind yields_callableBody fun body hbody => ?_
  exact .skip fun info => .done ⟨hm, hparameters, hbody⟩

theorem wellGrouped_attachedAnnotations {metadata : Metadata} (hm : wellGrouped metadata) :
    wellGrouped (attachedAnnotations metadata) := by
  cases metadata with
  | metadata documentation deprecated annotations => exact hm.2

theorem yields_serviceMember {members : ServiceMembers} (h : wellGrouped members) :
    Yields (serviceMember members) := by
  obtain ⟨hendpoints, hvariables, hresources⟩ := h
  refine .skip fun m => .bind yields_metadata fun metadata hmetadata => .skip fun k => ?_
  have hannotations := wellGrouped_attachedAnnotations hmetadata
  have hendpoint : Yields (endpoint m (attachedAnnotations metadata) >>= fun endpoint =>
      pure { members with endpoints := members.endpoints.push endpoint }) := by
    refine .bind (yields_endpoint m hannotations) fun read hread => .done ?_
    have hpushed := (wellGrouped_push members.endpoints read).mpr ⟨hendpoints, hread⟩
    exact ⟨hpushed, hvariables, hresources⟩
  have hvariable : Yields (variableDefinition >>= fun definition =>
      pure { members with variableMembers := members.variableMembers.push definition }) := by
    refine .bind yields_variableDefinition fun read hread => .done ?_
    have hpushed := (wellGrouped_push members.variableMembers read).mpr ⟨hvariables, hread⟩
    exact ⟨hendpoints, hpushed, hresources⟩
  have hresource : Yields (resource m metadata >>= fun definition =>
      pure { members with resources := members.resources.push definition }) := by
    refine .bind (yields_resource m hmetadata) fun read hread => .done ?_
    have hpushed := (wellGrouped_push members.resources read).mpr ⟨hresources, hread⟩
    exact ⟨hendpoints, hvariables, hpushed⟩
  -- Metadata that a member of its kind cannot carry is reported and dropped.
  refine .ite (.ite (.skip fun reported => hendpoint) hendpoint) <| .skip fun called => ?_
  refine .ite hresource <| .ite (.ite (.skip fun reported => hvariable) hvariable) ?_
  exact .skip fun reported => .skip fun skipped => .done ⟨hendpoints, hvariables, hresources⟩

theorem wellGrouped_noServiceMembers : wellGrouped ({} : ServiceMembers) :=
  ⟨wellGrouped_empty, wellGrouped_empty, wellGrouped_empty⟩

theorem yields_serviceMembers : Yields serviceMembers :=
  .withRecovery (.members wellGrouped_noServiceMembers fun _ h => yields_serviceMember h)

theorem yields_serviceBody : Yields serviceBody := by
  refine .skip fun _ => .skip fun _ => ?_
  extract_lets node
  have hn : ∀ members, wellGrouped members → Yields (node members) := fun _ h =>
    .skip fun _ => .skip fun _ => .done h
  clear_value node
  exact .ite (hn _ wellGrouped_noServiceMembers) (.bind yields_serviceMembers hn)

theorem yields_serviceBinding : Yields serviceBinding := by
  refine .skip fun m => .skip fun keyword => .skip fun braced => ?_
  extract_lets node
  have hnode : ∀ record, wellGrouped record → Yields (node record) := fun record hrecord => by
    unfold node
    extract_lets node
    have hnode : ∀ endpoints, Yields (node endpoints) := fun endpoints => .skip fun close => .done hrecord
    clear_value node
    exact .ite (hnode _) (.skip hnode)
  clear_value node
  exact .ite (.bind yields_recordLiteral fun r hr => hnode (some r) hr) (hnode none trivial)

section

variable {h : Heading} (hh : wellGrouped h)
include hh

theorem yields_service : Yields (service h) := by
  refine .skip fun keyword => .skip fun endpointType => .skip fun name => .skip fun bindNext => ?_
  extract_lets node
  have hnode : ∀ binding, wellGrouped binding → Yields (node binding) := fun binding hbinding =>
    .bind yields_serviceBody fun body hbody => .skip fun info => .done ⟨hh, hbinding, hbody⟩
  clear_value node
  exact .ite (.bind yields_serviceBinding fun b hb => hnode (some b) hb) (hnode none trivial)

/-! ## Definitions -/

theorem yields_function : Yields (function h) := by
  refine .skip fun keyword => .skip fun receiver => .bind yields_signature fun signature hsignature => ?_
  refine .bind yields_optionalBody fun body hbody => ?_
  exact .skip fun info => .done ⟨hh, hsignature, wellGrouped_toOption hbody⟩

omit hh in
theorem yields_finiteTypeUnit : Yields finiteTypeUnit :=
  .skip fun _ => .skip fun _ => .ite (.skip fun _ => .done trivial) <|
    Gives.bind .call fun _ => .done fun _ _ ht => ⟨ht.1, ht.2.1 (by decide)⟩

omit hh in
theorem yields_finiteType : Yields finiteType :=
  .skip fun _ => .bind (yields_separatedBy yields_finiteTypeUnit) fun _ hus => .skip fun _ => .done hus

theorem yields_typeDefinition : Yields (typeDefinition h) := by
  refine .skip fun keyword => .skip fun name => .bind yields_finiteType fun type htype => ?_
  exact .skip fun semicolon => .skip fun info => .done ⟨hh, htype⟩

theorem yields_annotationType : Yields (annotationType h) := by
  refine .skip fun keyword => .skip fun points => .skip fun name => ?_
  refine .bind (yields_whenever yields_typeName) fun type htype => ?_
  exact .skip fun semicolon => .skip fun info => .done ⟨hh, wellGrouped_toOption htype⟩

theorem yields_globalEndpoint : Yields (globalEndpoint h) :=
  .skip fun m => .bind (yields_endpoint m ⟨trivial, trivial⟩) fun _ he => .skip fun _ =>
    .done ⟨hh, he⟩

theorem yields_globalVariable : Yields (globalVariable h) := by
  refine .bind yields_typeName fun type htype => .skip fun name => ?_
  refine .bind (yields_behind yields_expression) fun value hvalue => ?_
  exact .skip fun semicolon => .skip fun info => .done ⟨hh, htype, wellGrouped_toOption hvalue⟩

end

theorem yields_definition : Yields definition := by
  refine .bind yields_heading fun h hh => .skip fun k => ?_
  split
  · exact .bind (yields_service hh) fun _ hd => .done hd
  · exact .bind (yields_typeDefinition hh) fun _ hd => .done hd
  · exact .bind (yields_annotationType hh) fun _ hd => .done hd
  · exact .bind (yields_globalEndpoint hh) fun _ hd => .done hd
  · exact .skip fun _ => .ite (.bind (yields_function hh) fun _ hd => .done hd) <|
      .ite (.bind (yields_globalVariable hh) fun _ hd => .done hd) <|
        .skip fun _ => .skip fun _ => .skip fun _ => .done trivial

/-! ## Units -/

theorem yields_unitItem {items : UnitItems} (h : wellGrouped items) : Yields (unitItem items) := by
  refine .skip fun k => ?_
  split
  · exact .skip fun _ => .skip fun _ => .done h
  · exact .skip fun _ => .skip fun _ => .done h
  · exact .bind yields_definition fun d hd =>
      .done ((wellGrouped_push items.definitions d).mpr ⟨h, hd⟩)

theorem yields_unitItems : Yields unitItems := by
  refine .loop wellGrouped_empty fun items hitems => .skip fun unwinding => ?_
  extract_lets rest
  have hrest : Yields (rest ()) := by
    refine .skip fun ended => .ite (.done hitems) ?_
    exact .bind (yields_progressing (yields_unitItem hitems)) fun read hread => .done hread
  clear_value rest
  exact .ite (.skip fun stopped => hrest) hrest

theorem yields_compilationUnit : Yields compilationUnit :=
  .skip fun _ => .bind yields_unitItems fun _ h => .skip fun _ => .skip fun _ => .done h

end BallerinaSyntax
