import BallerinaSyntax.Proofs.Reading.Reference
import BallerinaSyntax.Proofs.Reading.Signature
import BallerinaSyntax.Grammar.TypeName

/-! The contracts of type names, with the bodies of object and record types. -/

namespace BallerinaSyntax

open Parse Condition Grammar

/-! ## Fields -/

theorem builds_fieldFrom (m : Mark) (metadata : Metadata) (type : TypeName) :
    Builds m (pieces metadata ++ pieces type) any (fieldFrom m metadata type) :=
  .bind reads_identifier fun _ => .bind (reads_behind _ reads_expression) fun _ =>
    .skip (reads_expect nofun) fun _ => .node (fun _ => rfl) (by simp)

theorem reads_field : Reads field :=
  .marked fun m => .bind reads_metadata fun _ => .bind reads_typeName fun _ =>
    (builds_fieldFrom m _ _).onward (by simp)

theorem reads_reportDuplicateBlock (info : NodeInfo) (what : String) :
    Reads (reportDuplicateBlock info what) :=
  .of fun _ => .look (looks_located _ _ _) fun _ => reads_report _ _ _ _

/-! ## Objects -/

instance : HasParts ObjectMembers where
  parts
    | ⟨publicFields, privateFields, initializer, functions⟩ =>
      parts publicFields ++ parts privateFields ++ parts initializer ++ parts functions

@[simp] theorem pieces_objectMembers (members : ObjectMembers) :
    pieces members = pieces members.publicFields ++ (pieces members.privateFields ++
      (pieces members.initializer ++ pieces members.functions)) := by
  change (_ ++ _ ++ _ ++ _ : Parts).trees = _
  simp

/-- A member that comes with its node is that member. -/
instance : HasParts (NodeInfo × Tree .objectInitializer) := ⟨fun x => parts x.2⟩

instance : HasParts (NodeInfo × Tree .fieldBlock) := ⟨fun x => parts x.2⟩

@[simp] theorem pieces_infoInitializer (x : NodeInfo × Tree .objectInitializer) :
    pieces x = pieces x.2 := rfl

@[simp] theorem pieces_infoFieldBlock (x : NodeInfo × Tree .fieldBlock) :
    pieces x = pieces x.2 := rfl

theorem reads_objectParameter : Reads objectParameter := by
  refine .marked fun m => .bind reads_attachments fun annotations => .look (looks_atKind _) fun here =>
    .look (looks_kind 1) fun next => ?_
  extract_lets bindsField
  refine .bind (reads_whenever (.nothing rfl) reads_typeName) fun type => ?_
  extract_lets node
  have hn : ∀ rest, Builds m (pieces annotations ++ pieces type ++ pieces rest) any (node rest) :=
    fun _ => .bind reads_identifier fun _ => .bind (reads_behind _ reads_expression) fun _ =>
      .node (fun _ => rfl) (by simp)
  clear_value node
  refine .ite (fun _ => .give ((hn _).onward (by simp))) fun _ => ?_
  exact .bind (reads_optional nofun) fun _ => (hn _).onward (by simp)

/-- The parameters of an initializer, in parentheses. -/
def Grammar.initializerParameters : Parse (Tree .objectParameterList) := do
  let list ← mark
  let opening ← expect .openParenToken
  let parameters ← listAfter opening .closeParenToken objectParameter
  let close ← expectClosing opening .closeParenToken "parameter list"
  let listInfo ← finishDelimited list .objectParameterList close
  return .objectParameterList listInfo (.ofList parameters)

theorem objectInitializer_eq (m : Mark) (metadata : Metadata) (modifiers : Modifiers) :
    objectInitializer m metadata modifiers = (do
      let _ ← bump
      let parameters ← initializerParameters
      let body ← callableBody
      let info ← finishModified m .objectInitializer modifiers
      return (info, .objectInitializer info metadata parameters body)) := by
  simp only [objectInitializer, initializerParameters, Parse.bind_assoc, Parse.pure_bind]

theorem reads_initializerParameters : Reads initializerParameters :=
  .marked fun _ => .skip (reads_expect nofun) fun _ => .bind (reads_listAfter _ _ reads_objectParameter)
    fun _ => .bind (reads_expectClosing _ _ nofun) fun _ => .delimited (fun _ => rfl) (by simp)

theorem builds_objectInitializer (m : Mark) (metadata : Metadata) (modifiers : Modifiers) :
    Builds m (pieces metadata) any (objectInitializer m metadata modifiers) := by
  rw [objectInitializer_eq]
  exact .skipBump fun _ => .bind reads_initializerParameters fun _ => .bind reads_callableBody fun _ =>
    .modified (fun _ => rfl) (by simp)

theorem reads_fieldBlock : Reads fieldBlock := by
  refine .marked fun m => .skipBump fun keyword => .skipBump fun opening => .bind (.many ?_) fun fields =>
    .bind (reads_expectClosing _ _ nofun) fun close => ?_
  · refine .of fun _ => .look (looks_atListEnd _) fun _ => .ite (fun _ => .done (by simp)) fun _ => ?_
    exact .bind (.progressing _ reads_field) fun _ => .done (by simp)
  · exact .closedAs (fun _ => rfl) (fun _ => ⟨rfl, rfl, rfl⟩) (List.sublist_append_right ..).subperm
      (by simp)

@[simp] theorem pieces_objectFunction (info : NodeInfo) (metadata : Metadata)
    (signature : Tree .signature) (body : Tree (.option .callableBody)) :
    pieces (Tree.objectFunction info metadata signature body) =
      [(.node info, metadata.parts ++ signature.parts ++ body.parts)] := rfl

theorem builds_objectMember (m : Mark) (members : ObjectMembers) :
    Builds m (pieces members) any (objectMember members) := by
  refine .inner fun n => .innerBind (fun _ _ h => h) reads_metadata fun metadata =>
    .innerBind (fun _ _ h => h) reads_modifiers fun modifiers => .look (looks_kind 0) fun k => ?_
  split
  · refine .innerThen (fun _ _ h => h.1) ((builds_objectInitializer n metadata modifiers).onward (by simp))
      fun a => .leave (fun _ _ h => h) (.ite (fun _ => ?_) fun h => .done ?_)
    · exact .skip (reads_reportDuplicateBlock _ _) fun _ => .done (by simp)
    · have : members.initializer = none := by simpa using h
      simpa [this] using subperm_insert [] (pieces members.functions) (pieces a.2)
  · refine .innerSkipBump (fun _ _ h => h.1) fun _ => .innerBind (fun _ _ h => h) reads_signature
      fun signature => .innerBind (fun _ _ h => h) reads_optionalBody fun body => ?_
    exact .innerModified (metadata.parts ++ signature.parts ++ body.parts) (fun _ _ h => h) (by simp)
      fun info => .done (by simp)
  · refine .leave (fun _ _ h => h.1) (.skip (reads_errorExpected _) fun _ => ?_)
    exact .skip (reads_skipUntil _ _) fun _ => .done (by simp)

theorem builds_objectPart (m : Mark) (members : ObjectMembers) :
    Builds m (pieces members) any (objectPart members) := by
  refine .look (looks_kind 0) fun k => .look (looks_isKind _ _) fun opening => .ite (fun _ => ?_)
    fun _ => .look (looks_isKind _ _) fun opening => .ite (fun _ => ?_) fun _ =>
      (builds_objectMember m members).weaken fun _ _ _ => trivial
  · refine .bind reads_fieldBlock fun ⟨info, block⟩ => .ite (fun _ => ?_) fun h => .done ?_
    · exact .skip (reads_reportDuplicateBlock _ _) fun _ => .done (by simp)
    · have : members.publicFields = none := by simpa using h
      simpa [this] using subperm_insert [] (pieces members.privateFields ++
        (pieces members.initializer ++ pieces members.functions)) (pieces block)
  · refine .bind reads_fieldBlock fun ⟨info, block⟩ => .ite (fun _ => ?_) fun h => .done ?_
    · exact .skip (reads_reportDuplicateBlock _ _) fun _ => .done (by simp)
    · have : members.privateFields = none := by simpa using h
      simpa [this] using subperm_insert [] (pieces members.initializer ++ pieces members.functions)
        (pieces block)

theorem reads_objectMembers : Reads objectMembers := by
  refine .of fun m => .loop (fun members => ?_) (by simp)
  refine .look (looks_atListEnd _) fun ended => .ite (fun _ => .done (by simp)) fun _ => ?_
  have hpart := (builds_objectPart m members).progressing "an object member"
  exact (hpart.onward (by simp)).andThen fun _ => .done (by simp)

theorem builds_objectType (m : Mark) : Builds m [] any (objectType m) := by
  refine .skipBump fun _ => .skip (reads_expect nofun) fun opening => ?_
  extract_lets node
  have hn : ∀ members, Builds m (pieces members) any (node members) := fun members =>
    .bind (reads_expectClosing _ _ nofun) fun _ => .delimited (fun _ => rfl) (by simp)
  clear_value node
  refine .ite (fun _ => .give ((hn _).onward ?_)) fun _ => ?_
  · simp
  · exact .bind (.withRecovery reads_objectMembers) fun _ => (hn _).onward (by simp)

/-! ## Records -/

instance : HasParts RecordMembers where
  parts | ⟨fields, rest⟩ => parts fields ++ parts rest

@[simp] theorem pieces_recordMembers (members : RecordMembers) :
    pieces members = pieces members.fields ++ pieces members.rest := Forest.trees_append ..

@[simp] theorem pieces_restField (info : NodeInfo) (type : TypeName) :
    pieces (Tree.restField info type) = [(.node info, type.parts)] := rfl

theorem builds_recordMember (m : Mark) (members : RecordMembers) :
    Builds m (pieces members) any (recordMember members) := by
  refine .inner fun n => .innerBind (fun _ _ h => h) reads_metadata fun metadata =>
    .innerBind (fun _ _ h => h) reads_typeName fun type => .innerSkip (fun _ _ h => h) (reads_accept _)
    fun _ => .ite (fun _ => ?_) fun _ => ?_
  · refine .innerSkip (fun _ _ h => h) (reads_expect nofun) fun _ =>
      .innerNode type.parts (fun _ _ h => h) (by simp) fun info => .ite (fun _ => ?_) fun h => .done ?_
    · exact .skip (reads_reportDuplicateBlock _ _) fun _ => .done (by simp)
    · have : members.rest = none := by simpa using h
      simp [this]
  · refine .innerThen (fun _ _ h => h) ((builds_fieldFrom n metadata type).onward (by simp))
      fun field => .leave (fun _ _ h => h) (.done ?_)
    simpa using subperm_insert [] (pieces members.rest) (pieces field)

theorem reads_recordMembers : Reads recordMembers := by
  refine .of fun m => .loop (fun members => ?_) (by simp)
  refine .look (looks_atListEnd _) fun ended => .ite (fun _ => .done (by simp)) fun _ => ?_
  have hmember := (builds_recordMember m members).progressing "a field"
  exact (hmember.onward (by simp)).andThen fun _ => .done (by simp)

theorem builds_recordType (m : Mark) : Builds m [] any (recordType m) := by
  refine .skipBump fun _ => .skip (reads_expect nofun) fun opening => ?_
  extract_lets node
  have hn : ∀ members, Builds m (pieces members) any (node members) := fun members =>
    .bind (reads_expectClosing _ _ nofun) fun _ => .delimited (fun _ => rfl) (by simp)
  clear_value node
  refine .ite (fun _ => .give ((hn _).onward (by simp))) fun _ => ?_
  exact .bind reads_recordMembers fun _ => (hn _).onward (by simp)

/-! ## Other types -/

theorem reads_namespaceConstraint : Reads namespaceConstraint := by
  refine .marked fun m => .skip (reads_accept _) fun _ => ?_
  extract_lets node
  have hn : ∀ uri, Builds m (pieces uri) any (node uri) := fun _ =>
    .bind reads_identifier fun _ => .node (fun _ => rfl) (by simp)
  clear_value node
  refine .ite (fun _ => ?_) fun _ => .give ((hn _).onward (by simp))
  exact .bind (reads_expect nofun) fun _ => .skip (reads_expect nofun) fun _ =>
    .give ((hn _).onward (by simp))

@[simp] theorem pieces_namespaceConstraint (t : XmlNamespaceConstraint) :
    pieces (Tree.namespaceConstraint t) = pieces t := rfl

@[simp] theorem pieces_typeConstraint (t : TypeName) : pieces (Tree.typeConstraint t) = pieces t :=
  rfl

theorem builds_constrainedType (m : Mark) : Builds m [] solid (constrainedType m) := by
  refine .bump (fun _ _ h => h) fun keyword => .skipBump fun _ => ?_
  extract_lets node
  have hn : ∀ constraint, Builds m (pieces keyword ++ pieces constraint) any (node constraint) :=
    fun _ => .skip (reads_expect nofun) fun _ => .node (fun _ => rfl) (by simp)
  clear_value node
  refine .ite (fun _ => ?_) fun _ => ?_
  · exact .bind reads_namespaceConstraint fun _ => .give ((hn _).onward (by simp))
  · exact .bind reads_typeName fun _ => .give ((hn _).onward (by simp))

theorem builds_parenthesizedType (m : Mark) : Builds m [] any (parenthesizedType m) := by
  refine .skipBump fun opening => .skip (reads_accept _) fun _ => .ite
    (fun _ => .node (fun _ => rfl) (by simp)) fun _ => .bind reads_typeName fun first =>
    .look (looks_atKind _) fun comma => .ite (fun _ => ?_) fun _ => ?_
  · exact .bind (reads_expectClosing _ _ nofun) fun _ => .delimited (fun _ => rfl) (by simp)
  · exact .bind (reads_moreBehind _ reads_typeName) fun _ => .bind (reads_expectClosing _ _ nofun)
      fun _ => .delimited (fun _ => rfl) (by simp)

theorem reads_functionTypeParameter : Reads functionTypeParameter :=
  .marked fun _ => .bind reads_attachments fun _ => .bind reads_typeName fun _ =>
    .bind reads_optionalIdentifier fun _ => .node (fun _ => rfl) (by simp)

theorem builds_functionType (m : Mark) : Builds m [] any (functionType m) :=
  .skipBump fun _ => .skip (reads_expect nofun) fun _ =>
    .bind (reads_listAfter _ _ reads_functionTypeParameter) fun _ =>
    .skip (reads_expectClosing _ _ nofun) fun _ => .bind reads_optionalReturn fun _ =>
    .node (fun _ => rfl) (by simp)

@[simp] theorem pieces_userDefinedType (t : UserDefinedType) :
    pieces (Tree.userDefinedType t) = pieces t := rfl

theorem reads_typePrimary : Reads typePrimary := by
  refine .marked fun m => .look (looks_kind 0) fun k => .look (looks_isKind _ _) fun opening =>
    .ite (fun hc => ?_) fun _ => .ite (fun hb => ?_) fun _ => ?_
  · refine (builds_constrainedType m).weaken fun scope s hs he => ?_
    rw [he] at hs
    simp [Kind.isConstrainableType, ← hs.1.2] at hc
  · refine .bump (fun scope s hs he => ?_) fun _ => .node (fun _ => rfl) (by simp)
    rw [he] at hs
    rw [← hs.1.2] at hb
    cases hb
  · split
    · exact .bind reads_userDefinedType fun _ => .done (by simp)
    · exact (builds_parenthesizedType m).onward (by simp)
    · exact (builds_functionType m).onward (by simp)
    · exact (builds_objectType m).onward (by simp)
    · exact (builds_recordType m).onward (by simp)
    · refine .complain (reads_errorExpected _) (complains_errorExpected _) fun _ => ?_
      exact (builds_placeholder m _).andThen fun _ => .done (.refl _)

/-- The suffix of a type name at the current token. -/
def Scope.typeOperator? (scope : Scope) (s : State) : Option Operator :=
  match scope.kindAt s 0 with
  | .openBracketToken =>
    if scope.kindAt s 1 == .closeBracketToken ||
        ((scope.kindAt s 1).isIntegerLiteral && scope.kindAt s 2 == .closeBracketToken) then
      Operator.typeName? .openBracketToken
    else none
  | .barToken => if startsType (scope.kindAt s 1) then Operator.typeName? .barToken else none
  | k => Operator.typeName? k

theorem looks_typeOperator? : Looks typeOperator? Scope.typeOperator? := by
  intro r scope s
  unfold typeOperator? Scope.typeOperator?
  change (match scope.kindAt s 0 with | .openBracketToken => _ | .barToken => _ | k => _ : Parse _)
    r scope s = _
  generalize scope.kindAt s 0 = k
  split <;> rfl

/-- A bar is an operator before another type. -/
theorem Scope.bar_of_typeOperator {scope : Scope} {s : State} {op : Operator}
    (h : scope.typeOperator? s = some op) (ha : op.node ≠ .arrayTypeName)
    (hn : op.node ≠ .nullableTypeName) :
    scope.kindAt s 0 = .barToken ∧ startsType (scope.kindAt s 1) = true := by
  unfold Scope.typeOperator? at h
  split at h
  · split at h <;> cases h
    exact absurd rfl ha
  · split at h
    · exact ⟨‹_›, ‹_›⟩
    · cases h
  · unfold Operator.typeName? at h
    split at h <;> cases h
    · exact absurd rfl ha
    · exact absurd rfl hn
    · rename_i hb _ _
      exact absurd ‹_› hb

theorem reads_arrayDimension : Reads arrayDimension := by
  refine .marked fun m => .skipBump fun _ => .look (looks_kind 0) fun k => ?_
  extract_lets node
  have hn : ∀ size, Builds m (pieces size) any (node size) := fun _ =>
    .skip (reads_expect nofun) fun _ => .node (fun _ => rfl) (by simp)
  clear_value node
  refine .ite (fun hk => ?_) fun _ => .give ((hn _).onward (by simp))
  refine .bump (fun scope s hs he => ?_) fun _ => .give ((hn _).onward (by simp))
  rw [← hs.2, he] at hk
  cases hk

theorem builds_applyType (m : Mark) (left : TypeName) (op : Operator) :
    Builds m (pieces left) solid (applyType m left op) := by
  unfold applyType
  split
  · refine .bind (.many ?_) fun _ => .node (fun _ => rfl) (by simp)
    exact .of fun _ => .look looks_typeOperator? fun _ => .ite (fun _ => .bind reads_arrayDimension
      fun _ => .done (by simp)) fun _ => .done (by simp)
  · exact .skipBump fun _ => .node (fun _ => rfl) (by simp)
  · refine .bind (.many ?_) fun _ => .node (fun _ => rfl) (by simp)
    refine .of fun _ => .look looks_isUnwinding fun _ => .look (looks_atKind _) fun _ =>
      .look (looks_kind 1) fun _ => .ite (fun _ => ?_) fun _ => .done (by simp)
    exact .skipBump fun _ => .bind (reads_typeNameAt _) fun _ => .done (by simp)

theorem sound_typeRule : OperatorRule.Sound typeRule Scope.typeOperator? where
  primary := reads_typePrimary
  operator? := looks_typeOperator?
  solid scope s op h he := by rw [Scope.typeOperator?, he] at h; cases h
  apply := builds_applyType

end BallerinaSyntax
