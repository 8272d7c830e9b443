import BallerinaSyntax.Program.Basic
import BallerinaSyntax.Grammar.Definition
import BallerinaSyntax.Grammar.Rule

/-!
All productions inside definitions are programs. Which program is found by following how a production
is put together; only where it tells cases apart are these taken one by one.
-/

namespace BallerinaSyntax.Programmed

open Grammar Parse

set_option synthInstance.maxSize 1000

/-! ## Names and references -/

instance : Programmed nameReference := by unfold nameReference; dsimp only; infer_instance

instance : Programmed userDefinedType := by unfold userDefinedType; infer_instance

instance : Programmed optionalAlias := by unfold optionalAlias; infer_instance

instance (k : Kind) : Programmed (identifierBefore k) := by unfold identifierBefore; infer_instance

instance : Programmed packageName := by unfold packageName; dsimp only; infer_instance

instance : Programmed importDeclaration := by unfold importDeclaration; infer_instance

instance : Programmed namespaceDeclaration := by unfold namespaceDeclaration; infer_instance

/-! ## Literals -/

instance : Programmed simpleLiteral := by
  have value (m : Mark) (sign : Option Leaf) (k : Option LiteralKind) : Programmed (match k with
    | some k => do
      let value ← bump
      return { info := ← finish m .simpleLiteral, kind := k, sign := sign, value := value }
    | none => do
      errorExpected "literal"
      let value ← missingToken .unknown
      let info ← finish m .simpleLiteral
      return {
        info := { info with flags := { info.flags with missing := true } }
        kind := .nil
        sign := sign
        value := value } : Parse Literal) := by
    split <;> infer_instance
  unfold simpleLiteral
  dsimp only
  infer_instance

instance : Programmed recordField := by unfold recordField; dsimp only; infer_instance

instance : Programmed recordLiteral := by unfold recordLiteral; infer_instance

instance : Programmed optionalRecord := by unfold optionalRecord; infer_instance

instance : Programmed arrayLiteral := by unfold arrayLiteral; infer_instance

instance : Programmed tableLiteral := by unfold tableLiteral; infer_instance

instance : Programmed intRange := by unfold intRange; infer_instance

/-! ## Attachments -/

instance (n : Nat) : Programmed (inlineCode n) := by unfold inlineCode; split; infer_instance

instance : Programmed documentationPart? := by
  unfold documentationPart?
  refine andThen fun k => ?_
  split <;> infer_instance

instance : Programmed documentationText := by unfold documentationText; infer_instance

instance : Programmed documentationAttribute := by unfold documentationAttribute; infer_instance

instance : Programmed documentation := by unfold documentation; infer_instance

instance : Programmed deprecation := by unfold deprecation; infer_instance

instance : Programmed attachment := by unfold attachment; infer_instance

instance : Programmed attachments := by unfold attachments; infer_instance

instance (first second : NodeInfo) (what : String) :
    Programmed (reportDuplicate first second what) := by
  unfold reportDuplicate; infer_instance

instance : Programmed metadata := by
  unfold metadata
  dsimp only
  refine @ofBind _ _ _ _ (@loop _ _ _ _ fun a => andThen fun k => ?_) inferInstance
  split
  · refine andThen fun doc => ?_
    split <;> infer_instance
  · refine andThen fun doc => ?_
    split <;> infer_instance
  · infer_instance
  · infer_instance

/-! ## References -/

instance : Programmed argument := by unfold argument; infer_instance

instance : Programmed argumentList := by unfold argumentList; infer_instance

instance : Programmed invocation := by unfold invocation; infer_instance

instance (n : Nat) : Programmed (isActionInvocation n) := by
  unfold isActionInvocation; dsimp only; infer_instance

instance : Programmed isCall := by unfold isCall; infer_instance

instance : Programmed referencePrimary := by unfold referencePrimary; infer_instance

instance : Programmed referenceOperator? := by unfold referenceOperator?; infer_instance

instance (s : String) : Programmed (index s) := by unfold index; infer_instance

instance (m : Mark) (t : Reference) (op : Operator) : Programmed (applyReference m t op) := by
  unfold applyReference
  dsimp only
  split <;> infer_instance

instance climb {c : Category} (rule : OperatorRule c) (power : Nat) [Programmed rule.primary]
    [Programmed rule.operator?] [∀ m left op, Programmed (rule.apply m left op)] :
    Programmed (Grammar.climb rule power) := by
  have next (m : Mark) (left : Tree c) (op : Option Operator) : Programmed (match op with
    | none => return .stop left
    | some op => do
      if op.power < power then return .stop left
      return .again (← rule.apply m left op) : Parse (Turn (Tree c) (Tree c))) := by
    split <;> infer_instance
  unfold Grammar.climb
  infer_instance

section Marked

variable (m : Mark)

/-! ## Text with expressions in it -/

instance : Programmed interpolation := by unfold interpolation; infer_instance

instance (template text : Kind) (required : Bool) :
    Programmed (interpolatedText template text required) := by
  unfold interpolatedText; dsimp only; infer_instance

instance : Programmed missingText := by unfold missingText; infer_instance

instance : Programmed stringTemplate := by unfold stringTemplate; infer_instance

instance : Programmed xmlText := by unfold xmlText; infer_instance

instance : Programmed xmlComment := by unfold xmlComment; infer_instance

instance : Programmed xmlInstruction := by unfold xmlInstruction; infer_instance

instance : Programmed xmlQualifiedName := by unfold xmlQualifiedName; dsimp only; infer_instance

instance : Programmed xmlQuotedString := by
  unfold xmlQuotedString
  refine andThen fun _ => andThen fun _ => ?_
  split <;> infer_instance

instance : Programmed xmlAttribute := by unfold xmlAttribute; infer_instance

instance : Programmed xmlContentItem := by
  unfold xmlContentItem
  refine andThen fun _ => ?_
  split <;> infer_instance

instance : Programmed xmlContent := by
  unfold xmlContent
  refine @ofBind _ _ _ _ (@loop _ _ _ _ fun read => andThen fun unwinding => andThen fun k => ?_)
    inferInstance
  refine @ite _ _ _ _ _ inferInstance (andThen fun item => ?_)
  split <;> infer_instance

instance : Programmed xmlCloseTag := by unfold xmlCloseTag; infer_instance

instance : Programmed xmlElementBody := by unfold xmlElementBody; dsimp only; infer_instance

instance : Programmed xmlItem := by
  unfold xmlItem
  refine andThen fun _ => ?_
  split <;> infer_instance

instance : Programmed xmlLiteral := by unfold xmlLiteral; infer_instance

/-! ## Parameters -/

instance : Programmed simpleParameter := by unfold simpleParameter; infer_instance

instance (annotations : Tree (.list .attachment)) : Programmed (typedParameter m annotations) := by
  unfold typedParameter; infer_instance

instance : Programmed tupleMembers := by unfold tupleMembers; infer_instance

instance : Programmed parameter := by
  unfold parameter
  dsimp only
  refine andThen fun mark => andThen fun annotations => andThen fun opens => ?_
  refine @ite _ _ _ _ _ (andThen fun members => ?_) (andThen fun members => ?_) <;> split <;>
    infer_instance

instance : Programmed parameterList := by unfold parameterList; infer_instance

instance : Programmed returnParameter := by unfold returnParameter; infer_instance

instance : Programmed optionalReturn := by unfold optionalReturn; infer_instance

instance : Programmed signature := by unfold signature; infer_instance

instance : Programmed optionalBody := by unfold optionalBody; infer_instance

instance : Programmed modifiers := by unfold modifiers; infer_instance

/-! ## Streams and queries -/

instance : Programmed whereClause := by unfold whereClause; infer_instance

instance : Programmed optionalWhere := by unfold optionalWhere; infer_instance

instance : Programmed windowClause := by unfold windowClause; infer_instance

instance : Programmed streamFunctions := by unfold streamFunctions; dsimp only; infer_instance

instance : Programmed streamingInput := by unfold streamingInput; infer_instance

instance : Programmed timeScale := by unfold timeScale; infer_instance

instance : Programmed patternEdge := by unfold patternEdge; infer_instance

instance : Programmed startsPattern := by unfold startsPattern; infer_instance

instance : Programmed (groupedPattern m) := by unfold groupedPattern; infer_instance

instance : Programmed (negatedPattern m) := by unfold negatedPattern; infer_instance

instance : Programmed (sequencePattern m) := by
  unfold sequencePattern
  refine andThen fun _ => andThen fun _ => ?_
  split <;> infer_instance

instance : Programmed patternBody := by
  unfold patternBody
  refine andThen fun _ => andThen fun _ => ?_
  split <;> infer_instance

instance : Programmed withinClause := by unfold withinClause; infer_instance

instance : Programmed patternClause := by unfold patternClause; dsimp only; infer_instance

instance : Programmed joinKind := by
  unfold joinKind
  refine andThen fun _ => ?_
  split <;> infer_instance

instance : Programmed joinType := by unfold joinType; infer_instance

instance : Programmed joinInput := by unfold joinInput; dsimp only; infer_instance

instance : Programmed optionalJoin := by unfold optionalJoin; infer_instance

instance : Programmed selectItem := by unfold selectItem; infer_instance

instance : Programmed groupByClause := by unfold groupByClause; infer_instance

instance : Programmed havingClause := by unfold havingClause; infer_instance

instance : Programmed selectClause := by unfold selectClause; dsimp only; infer_instance

instance : Programmed optionalSelect := by unfold optionalSelect; infer_instance

instance : Programmed orderByItem := by unfold orderByItem; dsimp only; infer_instance

instance : Programmed orderByClause := by unfold orderByClause; infer_instance

instance : Programmed optionalOrderBy := by unfold optionalOrderBy; infer_instance

instance : Programmed outputRateLimit := by unfold outputRateLimit; dsimp only; infer_instance

instance : Programmed streamingAction := by unfold streamingAction; infer_instance

instance : Programmed querySource := by unfold querySource; infer_instance

instance : Programmed streamingQuery := by unfold streamingQuery; dsimp only; infer_instance

instance : Programmed limitClause := by unfold limitClause; infer_instance

instance : Programmed tableQuery := by unfold tableQuery; dsimp only; infer_instance

instance : Programmed streamingQueries := by unfold streamingQueries; dsimp only; infer_instance

instance : Programmed foreverStatement := by unfold foreverStatement; dsimp only; infer_instance

/-! ## Expressions -/

section Started

variable (start : Option Leaf)

instance : Programmed (referenceExpression m start) := by unfold referenceExpression; infer_instance

instance : Programmed (actionExpression m start) := by unfold actionExpression; infer_instance

instance : Programmed (actionOrReference m start) := by unfold actionOrReference; infer_instance

end Started

instance : Programmed (startExpression m) := by unfold startExpression; infer_instance

instance : Programmed (parenthesizedExpression m) := by
  unfold parenthesizedExpression; infer_instance

instance : Programmed (typeConversion m) := by unfold typeConversion; infer_instance

instance : Programmed (unaryExpression m) := by unfold unaryExpression; infer_instance

instance : Programmed (awaitExpression m) := by unfold awaitExpression; infer_instance

instance : Programmed (checkExpression m) := by unfold checkExpression; infer_instance

instance : Programmed (typeInit m) := by unfold typeInit; dsimp only; infer_instance

instance : Programmed (lambda m) := by unfold lambda; infer_instance

instance : Programmed (typeAccess m) := by unfold typeAccess; infer_instance

instance : Programmed startsLiteral := by unfold startsLiteral; infer_instance

instance : Programmed (keywordExpression m) := by unfold keywordExpression; infer_instance

instance : Programmed primaryExpression := by
  unfold primaryExpression
  refine andThen fun m => andThen fun starts => @ite _ _ _ _ _ inferInstance (andThen fun k => ?_)
  split <;> infer_instance

instance : Programmed expressionOperator? := by unfold expressionOperator?; infer_instance

instance : Programmed matchArm := by unfold matchArm; infer_instance

section Operators

variable (left : Expression) (op : Operator)

instance : Programmed (matchExpression m left) := by unfold matchExpression; infer_instance

instance : Programmed (rightOperand op) := by unfold rightOperand; infer_instance

instance : Programmed (ternaryExpression m left op) := by unfold ternaryExpression; infer_instance

instance : Programmed (infixExpression m left op) := by unfold infixExpression; infer_instance

instance : Programmed (applyExpression m left op) := by
  unfold applyExpression
  split <;> infer_instance

end Operators

/-! ## Callables -/

instance : Programmed statementRound := by unfold statementRound; infer_instance

instance : Programmed statements := by
  unfold statements
  refine @ofBind _ _ _ _ (@withRecovery _ _ _ (@loop _ _ _ _ fun read => andThen fun ends => ?_))
    inferInstance
  refine @ite _ _ _ _ _ inferInstance (andThen fun s => ?_)
  split <;> infer_instance

instance : Programmed blockBody := by unfold blockBody; infer_instance

instance : Programmed worker := by unfold worker; infer_instance

instance : Programmed workers := by unfold workers; infer_instance

instance : Programmed endpointValue := by unfold endpointValue; infer_instance

instance (annotations : Tree (.list .attachment)) : Programmed (endpoint m annotations) := by
  unfold endpoint; infer_instance

instance : Programmed localEndpoints := by unfold localEndpoints; infer_instance

instance : Programmed callableBodyInner := by unfold callableBodyInner; dsimp only; infer_instance

/-! ## Type names -/

instance (metadata : Metadata) (type : TypeName) : Programmed (fieldFrom m metadata type) := by
  unfold fieldFrom; infer_instance

instance : Programmed field := by unfold field; infer_instance

instance (info : NodeInfo) (what : String) : Programmed (reportDuplicateBlock info what) := by
  unfold reportDuplicateBlock; infer_instance

instance : Programmed objectParameter := by unfold objectParameter; dsimp only; infer_instance

instance (metadata : Metadata) (modifiers : Modifiers) :
    Programmed (objectInitializer m metadata modifiers) := by
  unfold objectInitializer; infer_instance

instance : Programmed fieldBlock := by unfold fieldBlock; dsimp only; infer_instance

instance (members : ObjectMembers) : Programmed (objectMember members) := by
  unfold objectMember
  refine andThen fun _ => andThen fun _ => andThen fun _ => andThen fun _ => ?_
  split
  · refine andThen fun _ => ?_
    dsimp only
    infer_instance
  · infer_instance
  · infer_instance

instance (members : ObjectMembers) : Programmed (objectPart members) := by
  unfold objectPart; dsimp only; infer_instance

instance : Programmed objectMembers := by unfold objectMembers; infer_instance

instance : Programmed (objectType m) := by unfold objectType; dsimp only; infer_instance

instance (members : RecordMembers) : Programmed (recordMember members) := by
  unfold recordMember; infer_instance

instance : Programmed recordMembers := by unfold recordMembers; infer_instance

instance : Programmed (recordType m) := by unfold recordType; dsimp only; infer_instance

instance : Programmed namespaceConstraint := by
  unfold namespaceConstraint; dsimp only; infer_instance

instance : Programmed (constrainedType m) := by unfold constrainedType; dsimp only; infer_instance

instance : Programmed (parenthesizedType m) := by unfold parenthesizedType; infer_instance

instance : Programmed functionTypeParameter := by unfold functionTypeParameter; infer_instance

instance : Programmed (functionType m) := by unfold functionType; infer_instance

instance : Programmed typePrimary := by
  unfold typePrimary
  refine andThen fun mark => andThen fun k => andThen fun less => ?_
  refine @ite _ _ _ _ _ inferInstance (@ite _ _ _ _ _ inferInstance ?_)
  split <;> infer_instance

instance : Programmed typeOperator? := by
  unfold typeOperator?
  refine andThen fun _ => ?_
  split <;> infer_instance

instance : Programmed arrayDimension := by unfold arrayDimension; dsimp only; infer_instance

instance (left : TypeName) (op : Operator) : Programmed (applyType m left op) := by
  unfold applyType
  split <;> infer_instance

/-! ## Assignments -/

instance : Programmed startsVariableDefinition := by unfold startsVariableDefinition; infer_instance

instance : Programmed variableDefinition := by unfold variableDefinition; infer_instance

instance : Programmed lastExpression := by unfold lastExpression; infer_instance

instance (left : Expression) : Programmed (assignmentTarget left) := by
  unfold assignmentTarget
  dsimp only
  split <;> infer_instance

section Led

variable (left : Expression)

instance : Programmed (assignment m left) := by unfold assignment; infer_instance

instance : Programmed (compoundAssignment m left) := by unfold compoundAssignment; infer_instance

instance : Programmed workerTarget := by unfold workerTarget; infer_instance

instance : Programmed (workerSend m left) := by unfold workerSend; infer_instance

instance : Programmed (workerReceive m left) := by unfold workerReceive; infer_instance

end Led

instance : Programmed expressionStatement := by
  unfold expressionStatement
  refine andThen fun mark => andThen fun first => andThen fun k => ?_
  refine @ite _ _ _ _ _ inferInstance ?_
  split <;> infer_instance

instance (varKeyword : Leaf) : Programmed (destructuringReferences varKeyword m) := by
  unfold destructuringReferences; infer_instance

instance : Programmed varStatement := by unfold varStatement; infer_instance

instance {c : Category} (item : Parse (Tree c)) [Programmed item] :
    Programmed (destructuringMembers item) := by
  unfold destructuringMembers; infer_instance

instance : Programmed destructuring? := by
  unfold destructuring?
  refine andThen fun parameters => ?_
  split
  · infer_instance
  · refine andThen fun references => ?_
    split <;> infer_instance

instance : Programmed parenthesizedStatement := by
  unfold parenthesizedStatement
  refine andThen fun defines => @ite _ _ _ _ _ inferInstance ?_
  refine andThen fun mark => andThen fun targets => ?_
  split <;> infer_instance

instance : Programmed definitionOrExpression := by
  unfold definitionOrExpression; infer_instance

/-! ## Compound statements -/

instance (k : Kind) : Programmed (keywordBlock k) := by unfold keywordBlock; infer_instance

instance (k : Kind) : Programmed (ifClause m k) := by unfold ifClause; infer_instance

instance : Programmed elseIfClause? := by unfold elseIfClause?; infer_instance

instance : Programmed elseClause := by unfold elseClause; infer_instance

instance : Programmed ifStatement := by unfold ifStatement; infer_instance

instance : Programmed matchBody := by unfold matchBody; infer_instance

instance : Programmed matchClause := by unfold matchClause; infer_instance

instance : Programmed matchClauses := by unfold matchClauses; infer_instance

instance : Programmed matchStatement := by unfold matchStatement; dsimp only; infer_instance

instance : Programmed iterableRange := by unfold iterableRange; infer_instance

instance : Programmed iterable := by
  unfold iterable
  dsimp only
  refine andThen fun opens => ?_
  refine @ite _ _ _ _ _ (andThen fun range => ?_) (andThen fun range => ?_) <;> split <;>
    infer_instance

instance : Programmed foreachStatement := by
  unfold foreachStatement
  dsimp only
  refine andThen fun mark => andThen fun _ => andThen fun opening => andThen fun targets =>
    andThen fun _ => andThen fun iterated => ?_
  split <;> infer_instance

instance : Programmed whileStatement := by unfold whileStatement; infer_instance

instance : Programmed lockStatement := by unfold lockStatement; infer_instance

instance (construct : String) : Programmed (binding construct) := by unfold binding; infer_instance

instance : Programmed joinConditions := by unfold joinConditions; dsimp only; infer_instance

instance : Programmed startsJoinConditions := by unfold startsJoinConditions; infer_instance

instance : Programmed joinClause := by unfold joinClause; dsimp only; infer_instance

instance : Programmed timeoutClause := by unfold timeoutClause; dsimp only; infer_instance

instance : Programmed forkStatement := by unfold forkStatement; dsimp only; infer_instance

instance : Programmed catchClause := by unfold catchClause; dsimp only; infer_instance

instance : Programmed finallyClause := by unfold finallyClause; infer_instance

instance : Programmed tryStatement := by unfold tryStatement; dsimp only; infer_instance

instance : Programmed transactionProperty := by unfold transactionProperty; infer_instance

instance : Programmed onRetryClause := by unfold onRetryClause; infer_instance

instance : Programmed transactionStatement := by
  unfold transactionStatement; dsimp only; infer_instance

/-! ## Statements -/

instance (k : Kind) : Programmed (keywordStatement k) := by unfold keywordStatement; infer_instance

instance : Programmed throwStatement := by unfold throwStatement; infer_instance

instance : Programmed returnStatement := by unfold returnStatement; infer_instance

instance (start : StatementStart) : Programmed (statementFrom start) := by
  unfold statementFrom
  split <;> infer_instance

instance : Programmed startsReservedCall := by unfold startsReservedCall; infer_instance

instance : Programmed statementBody := by
  unfold statementBody
  refine andThen fun reserved => @ite _ _ _ _ _ inferInstance (andThen fun k => ?_)
  split <;> infer_instance

end Marked

/-! ## Rules -/

instance : Programmed referenceRule.primary := inferInstanceAs (Programmed referencePrimary)

instance : Programmed referenceRule.operator? := inferInstanceAs (Programmed referenceOperator?)

instance (m : Mark) (left : Reference) (op : Operator) :
    Programmed (referenceRule.apply m left op) :=
  inferInstanceAs (Programmed (applyReference m left op))

instance : Programmed expressionRule.primary := inferInstanceAs (Programmed primaryExpression)

instance : Programmed expressionRule.operator? := inferInstanceAs (Programmed expressionOperator?)

instance (m : Mark) (left : Expression) (op : Operator) :
    Programmed (expressionRule.apply m left op) :=
  inferInstanceAs (Programmed (applyExpression m left op))

instance : Programmed typeRule.primary := inferInstanceAs (Programmed typePrimary)

instance : Programmed typeRule.operator? := inferInstanceAs (Programmed typeOperator?)

instance (m : Mark) (left : TypeName) (op : Operator) : Programmed (typeRule.apply m left op) :=
  inferInstanceAs (Programmed (applyType m left op))

instance : Programmed missingExpression := by unfold missingExpression; infer_instance

instance : Programmed missingType := by unfold missingType; infer_instance

instance : Programmed missingReference := by unfold missingReference; infer_instance

instance : Programmed missingBlock := by unfold missingBlock; infer_instance

instance : Programmed missingBody := by unfold missingBody; infer_instance

instance : Programmed missingPattern := by unfold missingPattern; infer_instance

instance {c : Category} (goal : Goal c) : Programmed (rule goal) := by
  cases goal <;> dsimp only [rule] <;> infer_instance

end BallerinaSyntax.Programmed
