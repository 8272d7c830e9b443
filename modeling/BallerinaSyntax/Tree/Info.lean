import BallerinaSyntax.Tree.Basic

/-!
Access to trees without regard to their rule: what the root of a tree carries, and lists and
optional parts as ordinary ones.
-/

namespace BallerinaSyntax.Tree

variable {c : Category}

def ofList : List (Tree c) → Tree (.list c)
  | [] => .nil
  | t :: ts => .cons t (ofList ts)

def toList : Tree (.list c) → List (Tree c)
  | .nil => []
  | .cons t ts => t :: toList ts

def ofOption : Option (Tree c) → Tree (.option c)
  | none => .absent
  | some t => .present t

def toOption : Tree (.option c) → Option (Tree c)
  | .absent => none
  | .present t => some t

@[simp] theorem toList_ofList (ts : List (Tree c)) : (ofList ts).toList = ts := by
  induction ts with
  | nil => simp [ofList, toList]
  | cons t ts ih => simp [ofList, toList, ih]

/-- What the root node carries. A rule that only chooses between others has no node of its own
and gives that of its choice; lists and choices of tokens give nothing. -/
def info? {c : Category} : Tree c → Option NodeInfo
  | .attachment info .. | .endpoint info .. | .callableBody info .. | .worker info ..
  | .signature info .. | .parameterList info .. | .tupleParameter info .. | .defaultable info ..
  | .restParameter info .. | .simpleParameter info .. | .returnParameter info ..
  | .builtinType info .. | .constrainedType info .. | .functionType info .. | .nilType info
  | .arrayType info .. | .unionType info .. | .nullableType info .. | .groupType info ..
  | .tupleType info .. | .objectType info .. | .recordType info .. | .missingType info
  | .functionTypeParameter info .. | .fieldBlock info .. | .field info .. | .restField info ..
  | .objectInitializer info .. | .objectParameterList info .. | .objectParameter info ..
  | .objectFunction info .. | .simpleReference info .. | .indexReference info ..
  | .fieldReference info .. | .xmlAttributeReference info .. | .methodCall info ..
  | .missingReference info | .invocation info .. | .named info .. | .restArgument info ..
  | .array info .. | .table info .. | .xml info .. | .stringTemplate info .. | .variable info ..
  | .action info .. | .lambda info .. | .typeInit info .. | .tableQuery info ..
  | .typeConversion info .. | .unary info .. | .braced info .. | .tuple info .. | .await info ..
  | .check info .. | .binary info .. | .range info .. | .elvis info .. | .ternary info ..
  | .matching info .. | .typeAccess info .. | .missingExpression info | .recordLiteral info ..
  | .recordField info .. | .matchArm info .. | .block info .. | .variableDefinition info ..
  | .assign info .. | .compoundAssign info .. | .destructure info .. | .ifElse info ..
  | .matchStatement info .. | .foreach info .. | .whileLoop info .. | .continueLoop info
  | .breakLoop info | .forkJoin info .. | .tryCatch info .. | .throwError info ..
  | .returnValue info .. | .workerSend info .. | .workerReceive info .. | .evaluate info ..
  | .transaction info .. | .abortTransaction info | .retryTransaction info | .lock info ..
  | .forever info .. | .missingStatement info | .ifClause info .. | .elseClause info ..
  | .matchClause info .. | .intRange info .. | .joinClause info .. | .timeoutClause info ..
  | .catchClause info .. | .finallyClause info .. | .transactionProperty info ..
  | .onRetryClause info .. | .xmlElement info .. | .xmlStartTag info .. | .xmlCloseTag info ..
  | .xmlAttribute info .. | .xmlNameInterpolation info .. | .xmlQuotedString info ..
  | .xmlComment info .. | .xmlInstruction info .. | .interpolatedText info ..
  | .interpolation info .. | .streamingQuery info .. | .streamingInput info ..
  | .joinInput info .. | .patternClause info .. | .followedBy info .. | .groupedPattern info ..
  | .negatedPattern info .. | .logicalPattern info .. | .patternEdge info ..
  | .whereClause info .. | .windowClause info .. | .selectClause info .. | .selectItem info ..
  | .groupByClause info .. | .havingClause info .. | .orderByClause info ..
  | .orderByItem info .. | .streamingAction info .. => some info
  | .simple t => info? t
  | .userDefinedType t => some t.info
  | .namespaceConstraint t => some t.info
  | .functionCall t => info? t
  | .typeConstraint t | .endpointRecord t | .endpointReference t | .positional t | .record t
  | .keyExpression t | .defineVariable t | .matchStatementBody t | .matchBlockBody t
  | .iterableExpression t | .iterableRange t | .itemElement t | .itemInstruction t
  | .itemComment t | .itemText t | .contentText t | .contentElement t | .contentInstruction t
  | .contentComment t | .querySourcePattern t | .edgePattern t => info? t
  | .literal t => some t.info
  | .declareNamespace t => some t.info
  | .xmlName t => some t.info
  | .metadata .. | .keyName _ | .targetReferences _ | .targetParameters _ | .itemCdata _
  | .contentCdata _ | .plainText _ | .querySourceInput .. | .nil | .cons .. | .absent
  | .present _ => none

end BallerinaSyntax.Tree
