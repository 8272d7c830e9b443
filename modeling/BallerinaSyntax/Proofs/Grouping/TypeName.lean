import BallerinaSyntax.Proofs.Grouping.Literal

/-!
Type names are well grouped. Behind a union no suffix follows: its last member has been read with
all suffixes but bars, and bars have gone into the union.
-/

namespace BallerinaSyntax

open Condition Grammar Parse

/-! ## Fields -/

theorem yields_fieldFrom (m : Mark) {metadata : Metadata} {type : TypeName}
    (hm : wellGrouped metadata) (ht : wellGrouped type) : Yields (fieldFrom m metadata type) := by
  refine .skip fun name => .bind (yields_behind yields_expression) fun default hdefault => ?_
  exact .skip fun semicolon => .skip fun info => .done ⟨trivial, hm, ht, hdefault⟩

theorem yields_field : Yields field :=
  .skip fun m => .bind yields_metadata fun _ hm => .bind yields_typeName fun _ ht =>
    yields_fieldFrom m hm ht

/-! ## Objects -/

instance : HasGrouping ObjectMembers where
  wellGrouped members := wellGrouped members.publicFields ∧ wellGrouped members.privateFields ∧
    wellGrouped members.initializer ∧ wellGrouped members.functions

theorem yields_objectParameter : Yields objectParameter := by
  refine .skip fun m => .bind yields_attachments fun annotations hannotations => ?_
  refine .skip fun named => .skip fun next => ?_
  refine .bind (yields_whenever yields_typeName) fun type htype => ?_
  extract_lets node
  have hnode : ∀ rest, Yields (node rest) := fun rest => by
    refine .skip fun name => .bind (yields_behind yields_expression) fun default hdefault => ?_
    exact .skip fun info => .done ⟨trivial, hannotations, htype, hdefault⟩
  clear_value node
  exact .ite (hnode _) (.skip hnode)

theorem yields_initializerParameters : Yields initializerParameters := by
  refine .skip fun m => .skip fun opening => ?_
  refine .bind (yields_listAfter yields_objectParameter) fun parameters hparameters => ?_
  exact .skip fun close => .skip fun info => .done ⟨trivial, wellGrouped_ofList hparameters⟩

theorem yields_objectInitializer (m : Mark) {metadata : Metadata} (hm : wellGrouped metadata)
    (modifiers : Modifiers) : Yields (objectInitializer m metadata modifiers) := by
  rw [objectInitializer_eq]
  refine .skip fun keyword => .bind yields_initializerParameters fun parameters hparameters => ?_
  refine .bind yields_callableBody fun body hbody => ?_
  exact .skip fun info => .done ⟨trivial, trivial, hm, hparameters, hbody⟩

theorem yields_fieldBlock : Yields fieldBlock := by
  refine .skip fun m => .skip fun keyword => .skip fun opening => ?_
  refine .bind (.many ?field) fun fields hfields => ?_
  case field =>
    exact .skip fun ended => .ite (.done trivial) (.item (yields_progressing yields_field))
  exact .skip fun close => .skip fun info => .done ⟨trivial, trivial, wellGrouped_ofList hfields⟩

theorem yields_objectMember {members : ObjectMembers} (h : wellGrouped members) :
    Yields (objectMember members) := by
  obtain ⟨hpublic, hprivate, hinitializer, hfunctions⟩ := h
  refine .skip fun m => .bind yields_metadata fun metadata hmetadata => ?_
  refine .skip fun modifiers => .skip fun k => ?_
  split
  · refine .bind (yields_objectInitializer m hmetadata _) fun read hread => .ite ?_ ?_
    · exact .skip fun reported => .done ⟨hpublic, hprivate, hinitializer, hfunctions⟩
    · exact .done ⟨hpublic, hprivate, hread.2, hfunctions⟩
  · refine .skip fun keyword => .bind yields_signature fun signature hsignature => ?_
    refine .bind yields_optionalBody fun body hbody => .skip fun info => .done ?_
    refine ⟨hpublic, hprivate, hinitializer, (wellGrouped_push ..).mpr ⟨hfunctions, ?_⟩⟩
    exact ⟨trivial, hmetadata, hsignature, hbody⟩
  · exact .skip fun reported => .skip fun skipped =>
      .done ⟨hpublic, hprivate, hinitializer, hfunctions⟩

theorem yields_objectPart {members : ObjectMembers} (h : wellGrouped members) :
    Yields (objectPart members) := by
  have hpublic : ∀ block : Tree .fieldBlock, wellGrouped block →
      wellGrouped { members with publicFields := some block } := fun block hblock => ⟨hblock, h.2⟩
  have hprivate : ∀ block : Tree .fieldBlock, wellGrouped block →
      wellGrouped { members with privateFields := some block } :=
    fun block hblock => ⟨h.1, hblock, h.2.2⟩
  refine .skip fun k => .skip fun braced => ?_
  refine .ite ?shown <| .skip fun braced => .ite ?hidden (yields_objectMember h)
  case shown =>
    refine .bind yields_fieldBlock fun read hread => ?_
    exact .ite (.skip fun reported => .done h) (.done (hpublic _ hread.2))
  case hidden =>
    refine .bind yields_fieldBlock fun read hread => ?_
    exact .ite (.skip fun reported => .done h) (.done (hprivate _ hread.2))

theorem wellGrouped_noMembers : wellGrouped ({} : ObjectMembers) :=
  ⟨trivial, trivial, trivial, wellGrouped_empty⟩

theorem yields_objectMembers : Yields objectMembers :=
  .members wellGrouped_noMembers fun _ h => yields_objectPart h

/-! ## Records -/

instance : HasGrouping RecordMembers where
  wellGrouped members := wellGrouped members.fields ∧ wellGrouped members.rest

theorem yields_recordMember {members : RecordMembers} (h : wellGrouped members) :
    Yields (recordMember members) := by
  refine .skip fun m => .bind yields_metadata fun metadata hmetadata => ?_
  refine .bind yields_typeName fun type htype => .skip fun dots => .ite ?rest ?field
  case rest =>
    refine .skip fun semicolon => .skip fun info => ?_
    exact .ite (.skip fun reported => .done h) (.done ⟨h.1, trivial, htype⟩)
  case field =>
    refine .bind (yields_fieldFrom m hmetadata htype) fun read hread => .done ?_
    exact ⟨(wellGrouped_push ..).mpr ⟨h.1, hread⟩, h.2⟩

theorem yields_recordMembers : Yields recordMembers :=
  .members ⟨wellGrouped_empty, trivial⟩ fun _ h => yields_recordMember h

/-! ## Primaries -/

/-- A type name without suffixes. -/
def Condition.unsuffixed (t : TypeName) : Condition := fun _ _ =>
  wellGrouped t ∧ t.isUnion = false ∧ t.isArray = false

section Primaries

variable (m : Mark)

theorem gives_objectType : Gives any (objectType m) unsuffixed := by
  refine .skip fun keyword => .skip fun opening => ?_
  extract_lets node
  have hnode : ∀ members, wellGrouped members → Gives any (node members) unsuffixed := by
    rintro members ⟨hpublic, hprivate, hinitializer, hfunctions⟩
    refine .skip fun close => .skip fun info => .done fun _ _ _ => ⟨⟨trivial, ?_⟩, rfl, rfl⟩
    exact ⟨wellGrouped_ofOption hpublic, wellGrouped_ofOption hprivate,
      wellGrouped_ofOption hinitializer, wellGrouped_ofList hfunctions⟩
  clear_value node
  refine .ite (fun _ => hnode _ wellGrouped_noMembers) fun _ => ?_
  exact .after (.withRecovery yields_objectMembers) hnode

theorem gives_recordType : Gives any (recordType m) unsuffixed := by
  refine .skip fun keyword => .skip fun opening => ?_
  extract_lets node
  have hnode : ∀ members, wellGrouped members → Gives any (node members) unsuffixed := by
    rintro members ⟨hfields, hrest⟩
    refine .skip fun close => .skip fun info => .done fun _ _ _ => ?_
    exact ⟨⟨trivial, wellGrouped_ofList hfields, wellGrouped_ofOption hrest⟩, rfl, rfl⟩
  clear_value node
  refine .ite (fun _ => hnode _ ⟨wellGrouped_empty, trivial⟩) fun _ => ?_
  exact .after yields_recordMembers hnode

theorem gives_constrainedType : Gives any (constrainedType m) unsuffixed := by
  refine .skip fun keyword => .skip fun opening => ?_
  extract_lets node
  have hnode : ∀ constraint, wellGrouped constraint → Gives any (node constraint) unsuffixed :=
    fun constraint hconstraint => .skip fun close => .skip fun info =>
      .done fun _ _ _ => ⟨⟨trivial, hconstraint⟩, rfl, rfl⟩
  clear_value node
  refine .ite (fun _ => .skip fun space => hnode _ ⟨trivial, trivial⟩) fun _ => ?_
  exact .after yields_typeName fun type htype => hnode _ ⟨trivial, htype⟩

theorem gives_parenthesizedType : Gives any (parenthesizedType m) unsuffixed := by
  refine .skip fun opening => .skip fun closed => .ite ?nil fun _ => ?_
  case nil => exact fun _ => .skip fun info => .done fun _ _ _ => ⟨⟨trivial, trivial⟩, rfl, rfl⟩
  refine .after yields_typeName fun first hfirst => .skip fun comma => .ite ?group ?tuple
  case group =>
    exact fun _ => .skip fun close => .skip fun info => .done fun _ _ _ => ⟨⟨trivial, hfirst⟩, rfl, rfl⟩
  case tuple =>
    refine fun _ => .after (yields_moreBehind yields_typeName) fun rest hrest => ?_
    refine .skip fun close => .skip fun info => .done fun _ _ _ => ⟨⟨trivial, ?_⟩, rfl, rfl⟩
    exact wellGrouped_ofList ((wellGrouped_cons first rest).mpr ⟨hfirst, hrest⟩)

theorem yields_functionTypeParameter : Yields functionTypeParameter := by
  refine .skip fun m => .bind yields_attachments fun annotations hannotations => ?_
  refine .bind yields_typeName fun type htype => .skip fun name => ?_
  exact .skip fun info => .done ⟨trivial, hannotations, htype⟩

theorem gives_functionType : Gives any (functionType m) unsuffixed := by
  refine .skip fun keyword => .skip fun opening => ?_
  refine .after (yields_listAfter yields_functionTypeParameter) fun parameters hparameters => ?_
  refine .skip fun close => .after yields_optionalReturn fun returns hreturns => .skip fun info => ?_
  exact .done fun _ _ _ => ⟨⟨trivial, wellGrouped_ofList hparameters, hreturns⟩, rfl, rfl⟩

theorem gives_typePrimary : Gives any typePrimary unsuffixed := by
  refine .skip fun m => .skip fun k => .skip fun constrained => .ite ?constrained fun _ => ?_
  case constrained => exact fun _ => gives_constrainedType m
  refine .ite ?builtin fun _ => ?_
  case builtin =>
    exact fun _ => .skip fun keyword => .skip fun info =>
      .done fun _ _ _ => ⟨⟨trivial, trivial⟩, rfl, rfl⟩
  split
  · exact .skip fun name => .done fun _ _ _ => ⟨⟨trivial, trivial⟩, rfl, rfl⟩
  · exact gives_parenthesizedType m
  · exact gives_functionType m
  · exact gives_objectType m
  · exact gives_recordType m
  · exact .skip fun reported => .skip fun info => .done fun _ _ _ => ⟨⟨trivial, trivial⟩, rfl, rfl⟩

end Primaries

/-! ## Suffixes -/

/-- A type name that has been read with suffixes of at least this power. -/
def Tree.Suffixed (t : TypeName) (power : Nat) : Prop :=
  wellGrouped t ∧ (TypePower.union.toNat < power → t.isUnion = false)

/-- A type name to which a suffix may be added. -/
def Tree.TakesSuffix (t : TypeName) (op : Operator) : Prop :=
  t.isUnion = false ∧ (op.node = .arrayTypeName → t.isArray = false)

theorem gives_arraySuffix {m : Mark} {left : TypeName} {op : Operator} {power : Nat}
    (hl : left.Suffixed power) (ht : left.TakesSuffix op) (hn : op.node = .arrayTypeName) :
    Gives any (applyType m left op) fun t scope s =>
      t.Suffixed power ∧ ready Scope.typeOperator? Tree.TakesSuffix t scope s := by
  unfold applyType
  rw [hn]
  refine .bind (Q := fun _ scope s => ∀ op, scope.typeOperator? s = some op → op.node ≠ .arrayTypeName)
    (.many (I := fun _ => any) fun _ => ?_) fun dimensions => .node fun info => .done fun scope s hs => ?_
  · refine .look looks_typeOperator? fun op? => .ite (fun _ => .skip fun _ => .done fun _ _ _ => trivial)
      fun h => .done fun scope s hs op ho hn => h ?_
    rw [← hs.2, ho]
    simp [hn]
  · refine ⟨⟨⟨⟨ht.1, ht.2 hn⟩, hl.1⟩, fun _ => rfl⟩, .inr fun op ho => ⟨rfl, fun hn => ?_⟩⟩
    exact absurd hn (hs op ho)

theorem gives_nullableSuffix {m : Mark} {left : TypeName} {op : Operator} {power : Nat}
    (hl : left.Suffixed power) (ht : left.TakesSuffix op) (hn : op.node = .nullableTypeName) :
    Gives any (applyType m left op) fun t scope s =>
      t.Suffixed power ∧ ready Scope.typeOperator? Tree.TakesSuffix t scope s := by
  unfold applyType
  rw [hn]
  exact .skip fun _ => .skip fun _ => .done fun _ _ _ =>
    ⟨⟨⟨ht.1, hl.1⟩, fun _ => rfl⟩, .inr fun _ _ => ⟨rfl, fun _ => rfl⟩⟩

/-- The power of a suffix is the one that its node stands for. -/
theorem Scope.power_of_typeOperator {scope : Scope} {s : State} {op : Operator}
    (h : scope.typeOperator? s = some op) :
    (op.node = .arrayTypeName ∧ op.power = TypePower.array.toNat) ∨
      (op.node = .nullableTypeName ∧ op.power = TypePower.nullable.toNat) ∨
        (op.node = .unionTypeName ∧ op.power = TypePower.union.toNat) := by
  have hk : ∃ k, Operator.typeName? k = some op := by
    unfold Scope.typeOperator? at h
    split at h
    · split at h
      · exact ⟨_, h⟩
      · cases h
    · split at h
      · exact ⟨_, h⟩
      · cases h
    · exact ⟨_, h⟩
  obtain ⟨k, hk⟩ := hk
  cases k <;> cases hk <;> decide

/-- A member of a union is to be read next. -/
def Condition.atMember : Condition := fun scope s =>
  s.unwinding = false ∧ scope.kindAt s 0 = .barToken ∧ startsType (scope.kindAt s 1) = true

/-- Where no member of a union is next, no suffix follows what was read up to a bar. -/
theorem ready_of_below {scope : Scope} {s : State}
    (h : below Scope.typeOperator? TypePower.nullable.toNat scope s) (hn : ¬atMember scope s)
    (t : TypeName) : ready Scope.typeOperator? Tree.TakesSuffix t scope s := by
  rcases h with hu | hlt
  · exact .inl hu
  · cases hu : s.unwinding with
    | true => exact .inl hu
    | false =>
      refine .inr fun op ho => absurd ⟨hu, ?_⟩ hn
      have hp := hlt op ho
      rcases Scope.power_of_typeOperator ho with ⟨-, h⟩ | ⟨-, h⟩ | ⟨h, -⟩
      · exact absurd (h ▸ hp) (by decide)
      · exact absurd (h ▸ hp) (by decide)
      · exact Scope.bar_of_typeOperator ho (by rw [h]; decide) (by rw [h]; decide)

/-- What holds while the members behind the first one are read. -/
def Condition.readMembers (items : List TypeName) : Condition := fun scope s =>
  (∀ t ∈ items, wellGrouped t ∧ t.isUnion = false) ∧
    if items = [] then atMember scope s else below Scope.typeOperator? TypePower.nullable.toNat scope s

theorem gives_unionMember (items : List TypeName) :
    Gives (readMembers items) (do
        if !(← isUnwinding) && (← atKind .barToken) && startsType (← kind 1) then
          let _ ← bump
          return some (← typeNameAt .nullable)
        else return none : Parse (Option TypeName))
      (given (fun t => readMembers (items ++ [t])) fun scope s =>
        readMembers items scope s ∧ ¬atMember scope s) := by
  refine .look looks_isUnwinding fun _ => .look (looks_atKind _) fun _ => .look (looks_kind 1) fun _ =>
    .ite (fun _ => ?_) fun h => .done fun scope s hs => ?_
  · refine .of (fun scope s hs => hs.1.1.1.1) fun hitems => .skip fun _ => .bind .call fun t =>
      .done fun scope s ht => ⟨?_, ?_⟩
    · exact List.forall_mem_append.mpr ⟨hitems, List.forall_mem_singleton.mpr ⟨ht.1, ht.2.1 (by decide)⟩⟩
    · rw [if_neg (by simp)]
      exact ht.2.2
  · obtain ⟨⟨⟨hm, hu⟩, hb⟩, hk⟩ := hs
    refine ⟨hm, fun hat => h ?_⟩
    rw [← hu, ← hb, ← hk]
    simp [hat.1, hat.2.1, hat.2.2]

theorem gives_unionSuffix {m : Mark} {left : TypeName} {op : Operator} {power : Nat}
    (hl : left.Suffixed power) (ht : left.TakesSuffix op) (hn : op.node = .unionTypeName)
    (hp : power ≤ TypePower.union.toNat) :
    Gives atMember (applyType m left op) fun t scope s =>
      t.Suffixed power ∧ ready Scope.typeOperator? Tree.TakesSuffix t scope s := by
  unfold applyType
  rw [hn]
  refine .bind ((Gives.many gives_unionMember).weaken (fun _ _ hs => ⟨List.forall_mem_nil _, hs⟩)
    fun _ _ _ hs => hs) fun items => .node fun info => .done fun scope s hs => ?_
  obtain ⟨⟨hitems, hnext⟩, hat⟩ := hs
  have hne : items ≠ [] := fun he => hat (by rwa [if_pos he] at hnext)
  rw [if_neg hne] at hnext
  refine ⟨⟨⟨⟨?_, ?_⟩, wellGrouped_ofList ?_⟩, fun h => absurd h (Nat.not_lt.mpr hp)⟩,
    ready_of_below hnext hat _⟩
  · rw [Tree.toList_ofList, List.length_cons]
    have := List.length_pos_iff.mpr hne
    omega
  · rw [Tree.toList_ofList]
    exact List.forall_mem_cons.mpr ⟨ht.1, fun t hm => (hitems t hm).2⟩
  · exact (wellGrouped_cons ..).mpr ⟨hl.1, fun t hm => (hitems t hm).1⟩

theorem groups_typeRule :
    OperatorRule.Groups typeRule Scope.typeOperator? Tree.Suffixed Tree.TakesSuffix where
  primary := gives_typePrimary.weaken (fun _ _ h => h) fun _ _ _ ht =>
    ⟨fun _ => ⟨ht.1, fun _ => ht.2.1⟩, .inr fun _ _ => ⟨ht.2.1, fun _ => ht.2.2⟩⟩
  operator? := looks_typeOperator?
  apply {m left op power} hl ht hp := by
    refine .of (fun scope s hs => Scope.power_of_typeOperator hs.1) fun h => ?_
    rcases h with ⟨hn, -⟩ | ⟨hn, -⟩ | ⟨hn, hpower⟩
    · exact (gives_arraySuffix hl ht hn).weaken (fun _ _ _ => trivial) fun _ _ _ h => h
    · exact (gives_nullableSuffix hl ht hn).weaken (fun _ _ _ => trivial) fun _ _ _ h => h
    · refine (gives_unionSuffix hl ht hn (hpower ▸ hp)).weaken (fun scope s hs => ⟨hs.2, ?_⟩)
        fun _ _ _ h => h
      exact Scope.bar_of_typeOperator hs.1 (by rw [hn]; decide) (by rw [hn]; decide)

end BallerinaSyntax
