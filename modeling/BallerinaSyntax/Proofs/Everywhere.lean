import BallerinaSyntax.Grammar.Rule

/-!
Properties that hold of a tree and of all trees in it, and of all trees that a result of reading
carries.
-/

namespace BallerinaSyntax

/-- A property of trees of every category. -/
abbrev TreeProperty := ⦃c : Category⦄ → Tree c → Prop

/-- A property holds of a tree and of all trees in it. -/
def Tree.Everywhere (P : TreeProperty) {c : Category} (t : Tree c) : Prop :=
  P t ∧
    match t with
    | .nil | .absent | .builtinType .. | .userDefinedType .. | .nilType .. | .missingType ..
    | .namespaceConstraint .. | .simpleReference .. | .missingReference .. | .literal ..
    | .missingExpression .. | .keyName .. | .continueLoop .. | .breakLoop .. | .abortTransaction ..
    | .retryTransaction .. | .declareNamespace .. | .missingStatement .. | .itemCdata ..
    | .xmlName .. | .contentCdata .. | .plainText .. => True
    | .present t | .attachment _ _ t | .metadata _ _ t | .endpointRecord t | .endpointReference t
    | .worker _ _ t | .parameterList _ t | .simple t | .constrainedType _ _ t | .arrayType _ t ..
    | .unionType _ t | .nullableType _ t | .groupType _ t | .tupleType _ t | .typeConstraint t
    | .fieldBlock _ t | .restField _ t | .objectParameterList _ t | .functionCall t
    | .fieldReference _ t .. | .invocation _ _ t | .positional t | .named _ _ t | .restArgument _ t
    | .array _ t | .record t | .table _ t | .xml _ t | .stringTemplate _ t | .variable _ _ t
    | .action _ _ _ t | .typeInit _ _ t | .unary _ _ t | .braced _ t | .tuple _ t | .await _ t
    | .check _ t | .typeAccess _ t | .recordLiteral _ t | .keyExpression t | .block _ t
    | .defineVariable t | .throwError _ t | .returnValue _ t | .evaluate _ t | .lock _ t
    | .forever _ t | .targetReferences t | .targetParameters t | .elseClause _ t
    | .matchStatementBody t | .matchBlockBody t | .iterableExpression t | .iterableRange t
    | .finallyClause _ t | .transactionProperty _ _ t | .onRetryClause _ t | .itemElement t
    | .itemInstruction t | .itemComment t | .itemText t | .xmlCloseTag _ t
    | .xmlNameInterpolation _ t | .xmlQuotedString _ t | .contentText t | .contentElement t
    | .contentInstruction t | .contentComment t | .xmlComment _ t | .xmlInstruction _ _ t
    | .interpolatedText _ t | .interpolation _ _ t .. | .querySourcePattern t
    | .patternClause _ _ t .. | .groupedPattern _ t | .edgePattern t | .whereClause _ t
    | .windowClause _ t | .selectItem _ t .. | .groupByClause _ t | .havingClause _ t
    | .orderByClause _ t | .orderByItem _ t .. => t.Everywhere P
    | .cons t u | .endpoint _ t _ _ u | .signature _ _ t u | .tupleParameter _ t u
    | .defaultable _ t u | .restParameter _ t u .. | .simpleParameter _ t u ..
    | .returnParameter _ t u | .functionType _ t u | .recordType _ t u
    | .functionTypeParameter _ t u .. | .indexReference _ t u | .xmlAttributeReference _ t u
    | .methodCall _ t _ u | .binary _ t _ u | .range _ t _ u | .elvis _ t _ u | .matching _ t u
    | .recordField _ t u | .matchArm _ t _ u | .variableDefinition _ t _ u | .assign _ _ t u
    | .compoundAssign _ t _ u | .destructure _ _ t u | .matchStatement _ t u | .whileLoop _ t u
    | .workerSend _ t _ u | .workerReceive _ t _ u | .ifClause _ t u | .matchClause _ t _ u
    | .intRange _ _ t u .. | .joinClause _ _ t _ u | .catchClause _ t _ u | .xmlStartTag _ t u
    | .xmlAttribute _ t u | .querySourceInput t u | .joinInput _ _ _ t u | .followedBy _ t u
    | .negatedPattern _ t u .. | .logicalPattern _ t _ u | .streamingAction _ t u =>
      t.Everywhere P ∧ u.Everywhere P
    | .callableBody _ t u v | .field _ t u _ v | .objectInitializer _ t u v
    | .objectParameter _ t u _ _ v | .objectFunction _ t u v | .lambda _ t u v
    | .typeConversion _ t u v | .ternary _ t u v | .ifElse _ t u v | .foreach _ t u v
    | .forkJoin _ t u v | .tryCatch _ t u v | .transaction _ t u v | .timeoutClause _ t u _ v
    | .xmlElement _ t u v | .patternEdge _ t u v .. | .selectClause _ _ t u v =>
      t.Everywhere P ∧ u.Everywhere P ∧ v.Everywhere P
    | .objectType _ t u v w | .tableQuery _ t u v w .. | .streamingQuery _ t u v _ w =>
      t.Everywhere P ∧ u.Everywhere P ∧ v.Everywhere P ∧ w.Everywhere P
    | .streamingInput _ t u v w x y .. =>
      t.Everywhere P ∧ u.Everywhere P ∧ v.Everywhere P ∧ w.Everywhere P ∧ x.Everywhere P ∧
        y.Everywhere P

end BallerinaSyntax
