import BallerinaSyntax.Proofs.Halting.Reference
import BallerinaSyntax.Proofs.Halting.Signature
import BallerinaSyntax.Proofs.Reading.TypeName

/-!
Type names come to an end. The members of an object resume at tokens that statements wait for, but
behind the word `object` there are none of these.
-/

namespace BallerinaSyntax

open Grammar Parse
open Condition (any solid past onward gave turned since)

variable {rank : Nat} {P : Condition}

/-! ## Members -/

/-- Behind a keyword whose construct has members. -/
def Condition.members : Condition := fun scope s =>
  ∃ i, i < s.position ∧ holdsMembers (scope.buffer.get i).kind = true

theorem Condition.lasting_members : members.Lasting :=
  fun _ _ _ hl ⟨i, hi, hm⟩ => ⟨i, Nat.lt_of_lt_of_le hi hl, hm⟩

theorem Scope.members_of_lt {k : Kind} (hk : holdsMembers k = true) {scope : Scope} {s t : State}
    (h : scope.kindAt s 0 = k) (hl : s.position < t.position) : Condition.members scope t :=
  ⟨s.position, hl, by rw [← hk, ← h]; rfl⟩

/-- Where members resume, statements go on, if the tokens have none of the others. -/
theorem Scope.Sane.settles {sync : List Kind} (hk : ∀ k ∈ sync, k ∈ memberStart ∨
    settlesStatements k = true) {scope : Scope} {s : State} (hs : scope.Sane s)
    (hm : Condition.members scope s) (i : Nat) (hi : s.position ≤ i)
    (h : (scope.buffer.get i).kind ∈ sync) : settlesStatements (scope.buffer.get i).kind = true := by
  obtain ⟨j, hj, hh⟩ := hm
  exact (hk _ h).resolve_left (hs.tame.noMember j i (Nat.lt_of_lt_of_le hj hi) hh)

/-! ## Fields -/

theorem halts_fieldFrom (m : Mark) (metadata : Metadata) (type : TypeName) :
    Halts rank P (fieldFrom m metadata type) :=
  .bind halts_identifier fun _ => .bind (halts_behind nofun halts_expression) fun _ =>
    .bind (halts_expect _) fun _ => .node

theorem halts_field : Halts 3 P field :=
  .mark fun m => .bind halts_metadata fun _ => .bind halts_typeName fun _ => halts_fieldFrom m _ _

theorem halts_reportDuplicateBlock (info : NodeInfo) (what : String) :
    Halts rank P (reportDuplicateBlock info what) :=
  .skim (looks_located _ _ _) fun _ => halts_report _ _

/-! ## Objects -/

theorem halts_objectParameter : Halts 3 P objectParameter := by
  refine .mark fun m => .bind halts_attachments fun annotations => .skim (looks_atKind _) fun _ =>
    .skim (looks_kind 1) fun _ => ?_
  extract_lets bindsField
  refine .bind (halts_whenever .ended halts_typeName) fun type => ?_
  extract_lets node
  have hn : ∀ rest, Halts 3 any (node rest) := fun _ => .bind halts_identifier fun _ =>
    .bind (halts_behind nofun halts_expression) fun _ => .node
  clear_value node
  exact .ite (fun _ => hn _) fun _ => .bind (halts_optional _) fun _ => hn _

theorem halts_initializerParameters : Halts rank P initializerParameters :=
  .mark fun _ => .enclosed (by decide) halts_objectParameter fun _ _ =>
    .bind (halts_expectClosing _ _ _) fun _ => .delimited

theorem halts_objectInitializer (m : Mark) (metadata : Metadata) (modifiers : Modifiers) :
    Halts 3 P (objectInitializer m metadata modifiers) := by
  rw [objectInitializer_eq]
  exact .bind halts_bump fun _ => .bind halts_initializerParameters fun _ =>
    .bind halts_callableBody fun _ => .modified

theorem halts_fieldBlock : Halts 3 P fieldBlock := by
  refine .mark fun m => .bind halts_bump fun keyword => .bind halts_bump fun opening => ?_
  refine .bind (.many (Steps.progressing halts_field)) fun fields => ?_
  exact .bind (halts_expectClosing _ _ _) fun close => .delimited

theorem halts_objectMember (members : ObjectMembers) : Halts 3 P (objectMember members) := by
  refine .mark fun m => .bind halts_metadata fun metadata => .bind halts_modifiers fun modifiers =>
    .skim (looks_kind 0) fun k => ?_
  split
  · refine .bind (halts_objectInitializer m metadata modifiers) fun _ =>
      .ite (fun _ => ?_) fun _ => .ended
    exact .bind (halts_reportDuplicateBlock _ _) fun _ => .ended
  · exact .bind halts_bump fun _ => .bind halts_signature fun _ => .bind halts_optionalBody fun _ =>
      .modified
  · exact .bind (halts_errorExpected _) fun _ => .bind (halts_skipUntil _ _) fun _ => .ended

theorem halts_objectPart (members : ObjectMembers) : Halts 3 P (objectPart members) := by
  refine .skim (looks_kind 0) fun k => .skim (looks_isKind _ _) fun _ => .ite (fun _ => ?_)
    fun _ => .skim (looks_isKind _ _) fun _ => .ite (fun _ => ?_) fun _ => halts_objectMember members
  · exact .bind halts_fieldBlock fun ⟨_, _⟩ => .ite
      (fun _ => .bind (halts_reportDuplicateBlock _ _) fun _ => .ended) fun _ => .ended
  · exact .bind halts_fieldBlock fun ⟨_, _⟩ => .ite
      (fun _ => .bind (halts_reportDuplicateBlock _ _) fun _ => .ended) fun _ => .ended

theorem halts_objectMembers : Halts 3 P objectMembers := .members halts_objectPart

theorem objectMemberSync_settles : ∀ k ∈ objectMemberSync, k ∈ memberStart ∨
    settlesStatements k = true := by decide

theorem takes_objectType (m : Mark) : Takes (Condition.atKind .objectKeyword) (objectType m) := by
  refine .andThenAt (takes_bump.weaken fun _ _ h => solid_of_eq h (by decide))
    (fun _ _ _ => Scope.members_of_lt rfl) fun _ => .carry Condition.lasting_members (halts_expect _)
    fun opening => ?_
  extract_lets node
  have hn : ∀ {P} members, Halts 3 P (node members) := fun _ =>
    .bind (halts_expectClosing _ _ _) fun _ => .delimited
  clear_value node
  refine .ite (fun _ => hn _) fun _ => .thenAt (.withRecovery halts_objectMembers ?_) fun _ => hn _
  exact fun _ _ hs => hs.settles objectMemberSync_settles

/-! ## Records -/

theorem halts_recordMember (members : RecordMembers) : Halts 3 P (recordMember members) := by
  refine .mark fun m => .bind halts_metadata fun metadata => .bind halts_typeName fun type =>
    .bind (halts_accept _) fun _ => .ite (fun _ => ?_) fun _ => ?_
  · refine .bind (halts_expect _) fun _ => .nodeThen fun info => .ite (fun _ => ?_) fun _ => .ended
    exact .bind (halts_reportDuplicateBlock _ _) fun _ => .ended
  · exact .bind (halts_fieldFrom m metadata type) fun _ => .ended

theorem halts_recordMembers : Halts 3 P recordMembers := .members halts_recordMember

theorem takes_recordType (m : Mark) : Takes solid (recordType m) := by
  refine .bump fun _ => .bind (halts_expect _) fun opening => ?_
  extract_lets node
  have hn : ∀ members, Halts 3 any (node members) := fun _ =>
    .bind (halts_expectClosing _ _ _) fun _ => .delimited
  clear_value node
  exact .ite (fun _ => hn _) fun _ => .bind halts_recordMembers fun _ => hn _

/-! ## Other types -/

theorem halts_namespaceConstraint : Halts rank P namespaceConstraint := by
  refine .mark fun m => .bind (halts_accept _) fun _ => ?_
  extract_lets node
  have hn : ∀ uri, Halts rank any (node uri) := fun _ => .bind halts_identifier fun _ => .node
  clear_value node
  exact .ite (fun _ => .bind (halts_expect _) fun _ => .bind (halts_expect _) fun _ => hn _)
    fun _ => hn _

theorem takes_constrainedType (m : Mark) : Takes solid (constrainedType m) := by
  refine .bump fun keyword => .bind halts_bump fun _ => ?_
  extract_lets node
  have hn : ∀ constraint, Halts 3 any (node constraint) := fun _ => .bind (halts_expect _) fun _ => .node
  clear_value node
  refine .ite (fun _ => .bind halts_namespaceConstraint fun _ => hn _) fun _ => ?_
  exact .bind halts_typeName fun _ => hn _

theorem takes_parenthesizedType (m : Mark) : Takes solid (parenthesizedType m) := by
  refine .bump fun opening => .bind (halts_accept _) fun _ => .ite (fun _ => .node) fun _ =>
    .bind halts_typeName fun first => .skim (looks_atKind _) fun _ => .ite (fun _ => ?_) fun _ => ?_
  · exact .bind (halts_expectClosing _ _ _) fun _ => .delimited
  · exact .bind (halts_moreBehind nofun halts_typeName) fun _ => .bind (halts_expectClosing _ _ _)
      fun _ => .delimited

theorem halts_functionTypeParameter : Halts 3 P functionTypeParameter :=
  .mark fun _ => .bind halts_attachments fun _ => .bind halts_typeName fun _ =>
    .bind halts_optionalIdentifier fun _ => .node

theorem takes_functionType (m : Mark) : Takes solid (functionType m) :=
  .bump fun _ => .enclosed (by decide) halts_functionTypeParameter fun _ _ =>
    .bind (halts_expectClosing _ _ _) fun _ => .bind halts_optionalReturn fun _ => .node

theorem takes_userDefinedType : Takes (Condition.atKind .identifier) userDefinedType :=
  .mark fun _ => takes_nameReference.andThen (fun _ _ h => h) fun _ => .node

/-- A type name takes a token where one may begin. -/
theorem settles_typePrimary (i : Nat) :
    Settles rank (fun _ s => s.position = i) typePrimary fun _ scope s =>
      past i scope s ∨ startsType (scope.buffer.get i).kind = false := by
  refine .mark fun m => .look (looks_kind 0) fun k => .skim (looks_isKind _ _) fun _ => ?_
  have take : ∀ {p : Parse TypeName}, Takes (Condition.atKind k) p →
      Settles rank (fun scope s => s.position = i ∧ scope.kindAt s 0 = k) p fun _ scope s =>
        past i scope s ∨ startsType (scope.buffer.get i).kind = false := fun hp =>
    ((hp rank i).weaken fun _ _ h => ⟨h.2, h.1⟩).post fun _ _ _ h => .inl h
  have solid : k ≠ .endOfFileToken → ∀ scope s, Condition.atKind k scope s → solid scope s :=
    fun hk _ _ h => solid_of_eq h hk
  refine .ite (fun hc => ?_) fun _ => .ite (fun hb => ?_) fun hb => ?_
  · refine take ((takes_constrainedType m).weaken (solid ?_))
    rintro rfl
    exact absurd (Bool.and_eq_true_iff.mp hc).1 (by decide)
  · refine take (takes_bump.andThen (solid ?_) fun _ => .node)
    rintro rfl
    exact absurd hb (by decide)
  · split
    · exact take (takes_userDefinedType.andThen (fun _ _ h => h) fun _ => .ended)
    · exact take ((takes_parenthesizedType m).weaken (solid (by decide)))
    · exact take ((takes_functionType m).weaken (solid (by decide)))
    · exact take (takes_objectType m)
    · exact take ((takes_recordType m).weaken (solid (by decide)))
    · have lasting : Condition.Lasting fun scope _ => startsType (scope.buffer.get i).kind = false :=
        fun _ _ _ _ h => h
      refine Settles.weaken (.carry lasting (halts_errorExpected _) fun _ =>
        .carry lasting (halts_placeholder _) fun _ => .done fun _ _ h => .inr h) fun scope s h => ?_
      obtain ⟨rfl, rfl⟩ := h
      simp_all [startsType, Scope.kindAt]

theorem halts_typePrimary : Halts rank P typePrimary :=
  .ofHere fun s₀ => (settles_typePrimary s₀.position).weaken fun _ _ h => congrArg State.position h

theorem takes_typePrimary :
    Takes (fun scope s => startsType (scope.kindAt s 0) = true) typePrimary := by
  intro rank i cost levels scope s hv hs hc h
  obtain ⟨hk, rfl⟩ := h
  obtain ⟨a, t, hr, ht⟩ := settles_typePrimary s.position hv hs hc rfl
  exact ⟨a, t, hr, ht.resolve_right fun h => Bool.false_ne_true (h.symm.trans hk)⟩

/-! ## Suffixes -/

theorem takes_arrayDimension : Takes solid arrayDimension := by
  refine .mark fun m => .bump fun _ => .skim (looks_kind 0) fun k => ?_
  extract_lets node
  have hn : ∀ size, Halts 3 any (node size) := fun _ => .bind (halts_expect _) fun _ => .node
  clear_value node
  exact .ite (fun _ => .bind halts_bump fun _ => hn _) fun _ => hn _

theorem solid_of_typeOperator {scope : Scope} {s : State} {op : Operator}
    (h : scope.typeOperator? s = some op) : solid scope s :=
  sound_typeRule.solid h

/-- A dimension is there where a bracket is an operator. -/
theorem picks_arrayDimension :
    Picks (fun scope s => ((scope.typeOperator? s).map Operator.node == some .arrayTypeName) = true)
      (do
        if (← typeOperator?).map Operator.node == some .arrayTypeName then
          return some (← arrayDimension)
        else return none) := by
  refine fun rank s₀ => .look looks_typeOperator? fun op? => .ite (fun h => ?_) fun hn =>
    .done fun _ _ h => ⟨h.1, fun hg => hn (h.2 ▸ hg)⟩
  refine .takePast (i := s₀.position) (fun scope s hs => ⟨?_, congrArg State.position hs.1⟩)
    takes_arrayDimension fun _ => .done fun _ _ h => h
  cases op? with
  | none => simp at h
  | some op => exact solid_of_typeOperator hs.2

/-- A member is there where a bar is before another type. -/
theorem picks_unionMember :
    Picks (fun scope s => s.unwinding = false ∧ scope.kindAt s 0 = .barToken ∧
        startsType (scope.kindAt s 1) = true) (do
      if !(← isUnwinding) && (← atKind .barToken) && startsType (← kind 1) then
        let _ ← bump
        return some (← typeNameAt .nullable)
      else return none) := by
  refine fun rank s₀ => .look looks_isUnwinding fun unwinding => .look (looks_atKind _) fun bar =>
    .look (looks_kind 1) fun next => .ite (fun h => ?_) fun hn => .done fun _ _ h => ?_
  · simp only [Bool.and_eq_true] at h
    refine .takePast (i := s₀.position) (fun scope s hs =>
      ⟨solid_of_eq (k := .barToken) ?_ (by decide), ?_⟩)
      takes_bump fun _ => .keep (halts_typeNameAt _) fun _ => .done fun _ _ h => h
    · exact beq_iff_eq.mp (hs.1.2.trans h.1.2)
    · exact congrArg State.position hs.1.1.1
  · refine ⟨h.1.1.1, fun ⟨hu, hb, ht⟩ => hn ?_⟩
    rw [← h.1.1.2, ← h.1.2, ← h.2, hu, hb, ht]
    rfl

theorem takes_applyType (m : Mark) (left : TypeName) (op : Operator) :
    Takes (fun scope s => s.unwinding = false ∧ scope.typeOperator? s = some op)
      (applyType m left op) := by
  unfold applyType
  split
  · rename_i hop
    refine picks_arrayDimension.takes.andThen (fun _ _ h => ?_) fun _ => .node
    rw [h.2, Option.map_some, hop]
    rfl
  · exact takes_bump.andThen (fun _ _ h => solid_of_typeOperator h.2) fun _ => .node
  · rename_i ha hn
    exact picks_unionMember.takes.andThen
      (fun _ _ h => ⟨h.1, Scope.bar_of_typeOperator h.2 ha hn⟩) fun _ => .node

theorem halting_typeRule : OperatorRule.Halting typeRule Scope.typeOperator? rank where
  primary := halts_typePrimary
  operator? := looks_typeOperator?
  apply := takes_applyType

end BallerinaSyntax
