import BallerinaSyntax.Proofs.Grouping.Primitive

/-! Literals, attachments, parameters and signatures are well grouped. -/

namespace BallerinaSyntax

open Condition Grammar Parse

/-! ## Literals -/

theorem gives_arrayLiteral : Gives any arrayLiteral unapplied := by
  refine .skip fun m => .skip fun opening => ?_
  refine .after (yields_listUntil yields_expression) fun elements helements => .skip fun close => ?_
  exact .skip fun info => .done fun _ _ _ => ⟨⟨trivial, wellGrouped_ofList helements⟩, rfl⟩

theorem yields_recordField : Yields recordField := by
  refine .skip fun m => .skip fun named => .skip fun colon => ?_
  extract_lets node
  have hnode : ∀ key, wellGrouped key → Yields (node key) := fun key hkey => by
    refine .skip fun colon => .bind yields_expression fun value hvalue => ?_
    exact .skip fun info => .done ⟨trivial, hkey, hvalue⟩
  clear_value node
  refine .ite (.skip fun name => hnode _ ⟨trivial, trivial⟩) ?_
  exact .bind yields_expression fun key hkey => hnode _ ⟨trivial, hkey⟩

theorem yields_recordLiteral : Yields recordLiteral := by
  refine .skip fun m => .skip fun opening => ?_
  refine .bind (yields_listAfter yields_recordField) fun fields hfields => .skip fun close => ?_
  exact .skip fun info => .done ⟨trivial, wellGrouped_ofList hfields⟩

theorem yields_optionalRecord : Yields optionalRecord := yields_whenever yields_recordLiteral

theorem gives_tableLiteral : Gives any tableLiteral unapplied :=
  .skip fun _ => .skip fun _ => .after yields_recordLiteral fun _ hr => .skip fun _ =>
    .done fun _ _ _ => ⟨⟨trivial, hr⟩, rfl⟩

theorem yields_intRange : Yields intRange := by
  refine .skip fun m => .skip fun opening => .bind (yields_expressionAt _) fun start hstart => ?_
  refine .skip fun dots => .bind (yields_whenever (yields_expressionAt _)) fun stop hstop => ?_
  exact .skip fun closing => .skip fun info => .done ⟨trivial, hstart, hstop⟩

/-! ## Attachments -/

theorem yields_attachment : Yields attachment := by
  refine .skip fun m => .skip fun opening => .skip fun name => ?_
  refine .bind yields_optionalRecord fun value hvalue => ?_
  exact .skip fun info => .done ⟨trivial, hvalue⟩

theorem yields_attachments : Yields attachments := by
  refine .bind (.many ?attached) fun items hitems => .done (wellGrouped_ofList hitems)
  exact .skip fun here => .ite (.item yields_attachment) (.done trivial)

instance : HasGrouping Attachments := ⟨fun a => wellGrouped a.annotations⟩

theorem yields_metadata : Yields metadata := by
  have next : ∀ {a : Attachments}, wellGrouped a → Yields (do
      return if ← isUnwinding then .stop a else .again a : Parse (Turn Attachments Attachments)) :=
    fun {a} ha => .skip fun x => .done (by cases x <;> exact ha)
  refine .bind (.loop wellGrouped_empty fun a ha => .skip fun k => ?_) fun a ha =>
    .done ⟨trivial, wellGrouped_ofList ha⟩
  split
  · refine .skip fun _ => ?_
    split
    · exact .skip fun _ => next ha
    · exact next ha
  · refine .skip fun _ => ?_
    split
    · exact .skip fun _ => next ha
    · exact next ha
  · exact .bind yields_attachment fun t ht => next ((wellGrouped_push a.annotations t).mpr ⟨ha, ht⟩)
  · exact .done ha

/-! ## Parameters -/

theorem yields_simpleParameter : Yields simpleParameter := by
  refine .skip fun m => .bind yields_typeName fun type htype => .skip fun name => ?_
  exact .skip fun info => .done ⟨trivial, ⟨trivial, trivial⟩, htype⟩

theorem yields_typedParameter (m : Mark) {annotations : Tree (.list .attachment)}
    (ha : wellGrouped annotations) : Yields (typedParameter m annotations) := by
  refine .bind yields_typeName fun type htype => .skip fun dots => .ite ?rest ?simple
  case rest => exact .skip fun name => .skip fun info => .done ⟨trivial, ha, htype⟩
  case simple => exact .skip fun name => .skip fun info => .done ⟨trivial, trivial, ha, htype⟩

theorem yields_tupleMembers : Yields tupleMembers := by
  refine .skip fun opening => .bind (yields_commaList yields_simpleParameter) fun members hmembers => ?_
  exact .skip fun closed => .ite (.done hmembers) (.done trivial)

theorem yields_parameter : Yields parameter := by
  refine .skip fun m => .bind yields_attachments fun annotations hannotations => .skip fun opened => ?_
  extract_lets afterRead afterMembers
  have hread : ∀ read, wellGrouped read → Yields (afterRead read) := fun read hread => by
    refine .ite (.done hread) <| .skip fun assigned => .ite ?_ (.done hread)
    refine .bind yields_expression fun default hdefault => ?_
    exact .skip fun info => .done ⟨trivial, hread, hdefault⟩
  clear_value afterRead
  have hmembers : ∀ members, wellGrouped members → Yields (afterMembers members) := by
    rintro (_ | members) hmembers
    · exact .bind (yields_typedParameter m hannotations) hread
    · exact .skip fun info => hread _ ⟨trivial, hannotations, wellGrouped_ofList hmembers⟩
  clear_value afterMembers
  exact .ite (.bind (.attempt yields_tupleMembers) hmembers) (hmembers none trivial)

theorem yields_parameterList : Yields parameterList := by
  refine .skip fun m => .skip fun opening => ?_
  refine .bind (yields_listAfter yields_parameter) fun parameters hparameters => .skip fun close => ?_
  exact .skip fun info => .done ⟨trivial, wellGrouped_ofList hparameters⟩

theorem yields_returnParameter : Yields returnParameter := by
  refine .skip fun m => .skip fun keyword => .bind yields_attachments fun annotations hannotations => ?_
  refine .bind yields_typeName fun type htype => ?_
  exact .skip fun info => .done ⟨trivial, hannotations, htype⟩

theorem yields_optionalReturn : Yields optionalReturn := yields_whenever yields_returnParameter

theorem yields_signature : Yields signature := by
  refine .skip fun m => .skip fun name => .bind yields_parameterList fun parameters hparameters => ?_
  refine .bind yields_optionalReturn fun returns hreturns => ?_
  exact .skip fun info => .done ⟨trivial, hparameters, hreturns⟩

theorem yields_optionalBody : Yields optionalBody := yields_whenever yields_callableBody

end BallerinaSyntax
