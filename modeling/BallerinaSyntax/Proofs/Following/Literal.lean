import BallerinaSyntax.Proofs.Following.Recovery
import BallerinaSyntax.Grammar.Import
import BallerinaSyntax.Grammar.Literal

/-! Names, imports and literals in two units that look alike. -/

namespace BallerinaSyntax

open Grammar Parse

variable {L : Likeness}

/-! ## Names -/

theorem follows_nameReference : Follows L nameReference nameReference := by
  refine .bind follows_mark fun m => .see (sees_kind 0) fun k => .see (sees_isQualifiedName 0)
    fun _ => .see (sees_isName k) fun _ => .see (sees_isKind _ _) fun _ => ?_
  extract_lets node node'
  have hn : ∀ (package : Twins L (Option Identifier)) (name : Twins L Identifier),
      Follows L (node (package.first, name.first)) (node' (package.second, name.second)) :=
    fun package name => .node fun info =>
      congr(NameReference.mk $(info.alike) $(package.alike) $(name.alike))
  clear_value node node'
  refine .ite ?_ (.ite ?_ ?_)
  · exact .bind follows_bumpName fun package => .bind follows_bump fun _ =>
      .bind follows_bumpName fun name => hn package.some name
  · exact .bind follows_bumpName fun name => hn .none name
  · exact .bind follows_identifier fun name => hn .none name

theorem follows_userDefinedType : Follows L userDefinedType userDefinedType :=
  .bind follows_mark fun _ => .bind follows_nameReference fun name =>
    .node fun info => congr(UserDefinedType.mk $(info.alike) $(name.alike))

theorem follows_optionalAlias : Follows L optionalAlias optionalAlias :=
  .give (follows_accept _) fun _ => .ite (.item follows_identifier) (.done rfl)

/-! ## Imports -/

theorem follows_identifierBefore (k : Kind) :
    Follows L (identifierBefore k) (identifierBefore k) :=
  .see (sees_atKind _) fun _ => .see (sees_isKind _ _) fun _ => .ite (.bind follows_bumpName fun name =>
    .bind follows_bump fun _ => .done name.some.alike) (.done rfl)

theorem follows_packageName : Follows L packageName packageName := by
  refine .bind follows_mark fun m => .bind follows_identifier fun first => ?_
  refine .bind (.many ?segment) fun others => .give (follows_accept _) fun versioned => ?_
  case segment =>
    exact .give (follows_accept _) fun dotted => .ite (.item follows_identifier) (.done rfl)
  extract_lets node node'
  have hn : ∀ version : Twins L (Option Leaf), Follows L (node version.first) (node' version.second) :=
    fun version => .node fun info =>
      congr(PackageName.mk $(info.alike) $((first.cons others).alike) $(version.alike))
  clear_value node node'
  refine .ite (.bind (follows_expectAny _ _) fun version => ?_) (hn .none)
  exact hn version.some

theorem follows_importDeclaration : Follows L importDeclaration importDeclaration :=
  .bind follows_mark fun _ => .bind follows_bump fun _ =>
    .bind (follows_identifierBefore _) fun organization => .bind follows_packageName fun package =>
      .bind follows_optionalAlias fun asName => .bind (follows_expect _) fun _ => .node fun info =>
        congr(ImportDeclaration.mk $(info.alike) $(organization.alike) $(package.alike)
          $(asName.alike))

theorem follows_namespaceDeclaration : Follows L namespaceDeclaration namespaceDeclaration :=
  .bind follows_mark fun _ => .bind follows_bump fun _ => .bind (follows_expect _) fun uri =>
    .bind follows_optionalAlias fun asName => .bind (follows_expect _) fun _ => .node fun info =>
      congr(NamespaceDeclaration.mk $(info.alike) $(uri.alike) $(asName.alike))

/-! ## Literals -/

theorem follows_simpleLiteral : Follows L simpleLiteral simpleLiteral := by
  refine .bind follows_mark fun m => .see (sees_atKind _) fun _ => .see (sees_isKind _ _) fun _ => ?_
  refine .ite (.bind follows_bump fun value => .bind follows_bump fun _ => .node fun info =>
    congr(Literal.mk $(info.alike) .nil none $(value.alike))) ?_
  refine .see (sees_atKind _) fun _ => .see (sees_kind _) fun _ => ?_
  extract_lets rest rest'
  have hr : ∀ sign : Twins L (Option Leaf), Follows L (rest sign.first) (rest' sign.second) := by
    refine fun sign => .see (sees_kind 0) fun k => ?_
    split
    · rename_i kind _
      exact .bind follows_bump fun value => .node fun info =>
        congr(Literal.mk $(info.alike) kind $(sign.alike) $(value.alike))
    · exact .bind (follows_errorExpected _) fun _ => .bind (follows_missingToken _) fun value =>
        .node fun info => congr(Literal.mk
          { $(info.alike) with flags := { ($(info.alike) : NodeInfo).flags with missing := true } }
          .nil $(sign.alike) $(value.alike))
  clear_value rest rest'
  exact .ite (.bind follows_bump fun sign => hr sign.some)
    (hr .none)

theorem follows_arrayLiteral : Follows L arrayLiteral arrayLiteral :=
  .bind follows_mark fun _ => .bind follows_bump fun opening =>
    .bind (follows_listUntil _ (.call _)) fun elements =>
      .bind (follows_expectClosing opening _ _) fun _ => .delimited fun info =>
        congr(Tree.array $(info.alike) $(elements.ofList.alike))

theorem follows_recordField : Follows L recordField recordField := by
  refine .bind follows_mark fun _ => .see (sees_atKind _) fun _ => .see (sees_isKind _ _) fun _ => ?_
  extract_lets rest rest'
  have hr : ∀ key : Twins L (Tree .recordKey), Follows L (rest key.first) (rest' key.second) :=
    fun key => .bind (follows_expect _) fun _ => .bind (.call _) fun value => .node fun info =>
      congr(Tree.recordField $(info.alike) $(key.alike) $(value.alike))
  clear_value rest rest'
  refine .ite (.bind follows_bumpName fun name => ?_) (.bind (.call _) fun key => ?_)
  · exact hr (name.map .keyName fun _ _ => rfl)
  · exact hr (key.map .keyExpression fun _ _ => rfl)

theorem follows_recordLiteral : Follows L recordLiteral recordLiteral :=
  .bind follows_mark fun _ => .bind (follows_expect _) fun opening =>
    .bind (follows_listAfter opening _ follows_recordField) fun fields =>
      .bind (follows_expectClosing opening _ _) fun _ => .delimited fun info =>
        congr(Tree.recordLiteral $(info.alike) $(fields.ofList.alike))

theorem follows_optionalRecord : Follows L optionalRecord optionalRecord :=
  follows_whenever (sees_atKind _).follows follows_recordLiteral

theorem follows_tableLiteral : Follows L tableLiteral tableLiteral :=
  .bind follows_mark fun _ => .bind follows_bump fun _ => .bind follows_recordLiteral fun record =>
    .node fun info => congr(Tree.table $(info.alike) $(record.alike))

theorem follows_intRange : Follows L intRange intRange :=
  .bind follows_mark fun _ => .bind (follows_expectAny _ _) fun opening =>
    .bind (.call _) fun start => .bind (follows_expect _) fun _ =>
      .bind (follows_whenever (.see (sees_atAny _) fun _ => .done rfl) (.call _)) fun stop =>
        .bind (follows_expectAny _ _) fun closing => .delimited fun info =>
          congr(Tree.intRange $(info.alike) $(opening.alike) $(start.alike) $(stop.alike)
            $(closing.alike))

end BallerinaSyntax
