/-!
The kinds of tokens and of tree nodes. A token kind is one of four things: a literal form, a
punctuation mark, a keyword, or a marker inside an XML literal, a string template or a
documentation block; a node kind names a grammar rule. The classes of kinds are intervals of
the order in which the constructors stand, tokens before nodes.
-/

namespace BallerinaSyntax

inductive Kind where
  -- markers of the stream
  | unknown | endOfFileToken
  -- literals
  | identifier | decimalIntegerLiteral | hexIntegerLiteral | octalIntegerLiteral
  | binaryIntegerLiteral | decimalFloatingPointLiteral | hexFloatingPointLiteral
  | quotedStringLiteral | base16BlobLiteral | base64BlobLiteral
  -- punctuation
  | semicolonToken | colonToken | colonColonToken | dotToken | commaToken | openBraceToken
  | closeBraceToken | openParenToken | closeParenToken | openBracketToken | closeBracketToken
  | questionToken | equalsToken | plusToken | minusToken | asteriskToken | slashToken
  | percentToken | caretToken | exclamationToken | equalsEqualsToken | exclamationEqualsToken
  | greaterThanToken | lessThanToken | greaterThanEqualsToken | lessThanEqualsToken
  | ampersandAmpersandToken | barBarToken | rightArrowToken | leftArrowToken | atToken
  | backtickToken | dotDotToken | dotDotLessThanToken | dotDotDotToken | barToken
  | equalsGreaterThanToken | questionColonToken | plusEqualsToken | minusEqualsToken
  | asteriskEqualsToken | slashEqualsToken
  -- keywords: declarations
  | importKeyword | asKeyword | publicKeyword | privateKeyword | nativeKeyword | serviceKeyword
  | resourceKeyword | functionKeyword | objectKeyword | recordKeyword | annotationKeyword
  | parameterKeyword | workerKeyword | endpointKeyword | bindKeyword | xmlnsKeyword
  | returnsKeyword | versionKeyword | newKeyword | typeKeyword
  -- keywords: streaming queries
  | fromKeyword | onKeyword | selectKeyword | groupKeyword | byKeyword | havingKeyword
  | orderKeyword | whereKeyword | followedKeyword | forKeyword | windowKeyword | everyKeyword
  | withinKeyword | lastKeyword | firstKeyword | snapshotKeyword | outputKeyword | innerKeyword
  | outerKeyword | rightKeyword | leftKeyword | fullKeyword | unidirectionalKeyword
  | foreverKeyword | limitKeyword | ascendingKeyword | descendingKeyword | eventsKeyword
  | andKeyword | orKeyword | notKeyword
  -- keywords: time scales
  | secondKeyword | secondsKeyword | minuteKeyword | minutesKeyword | hourKeyword | hoursKeyword
  | dayKeyword | daysKeyword | monthKeyword | monthsKeyword | yearKeyword | yearsKeyword
  -- keywords: builtin types
  | intKeyword | floatKeyword | booleanKeyword | stringKeyword | blobKeyword | mapKeyword
  | jsonKeyword | xmlKeyword | tableKeyword | streamKeyword | anyKeyword | typedescKeyword
  | futureKeyword | varKeyword
  -- keywords: statements and expressions
  | ifKeyword | matchKeyword | elseKeyword | foreachKeyword | whileKeyword | continueKeyword
  | breakKeyword | forkKeyword | joinKeyword | someKeyword | allKeyword | timeoutKeyword
  | tryKeyword | catchKeyword | finallyKeyword | throwKeyword | returnKeyword
  | transactionKeyword | abortKeyword | retryKeyword | onRetryKeyword | retriesKeyword
  | onAbortKeyword | onCommitKeyword | lengthofKeyword | withKeyword | inKeyword | lockKeyword
  | untaintKeyword | startKeyword | awaitKeyword | butKeyword | checkKeyword
  -- keywords: literal values
  | trueKeyword | falseKeyword | nullKeyword
  -- XML mode
  | xmlLiteralStart | xmlLiteralEnd | xmlTagOpen | xmlTagOpenSlash | xmlTagClose
  | xmlTagSlashClose | xmlTagEquals | xmlQName | xmlQNameSeparator | xmlTagExpressionStart
  | xmlText | xmlTemplateText | xmlCommentStart | xmlCommentText | xmlCommentTemplateText | xmlPi
  | xmlPiText | xmlPiTemplateText | xmlCdata | xmlSingleQuote | xmlSingleQuoteEnd
  | xmlSingleQuotedString | xmlSingleQuotedTemplateString | xmlDoubleQuote | xmlDoubleQuoteEnd
  | xmlDoubleQuotedString | xmlDoubleQuotedTemplateString | expressionEnd
  -- string-template mode
  | stringTemplateLiteralStart | stringTemplateLiteralEnd | stringTemplateExpressionStart
  | stringTemplateText
  -- documentation and deprecation mode
  | documentationTemplateStart | documentationTemplateEnd | documentationTemplateAttributeStart
  | documentationTemplateAttributeEnd | documentationTemplateText | deprecatedTemplateStart
  | deprecatedTemplateEnd | deprecatedTemplateText | singleBacktickInlineCodeStart
  | singleBacktickInlineCode | singleBacktickInlineCodeEnd | doubleBacktickInlineCodeStart
  | doubleBacktickInlineCode | doubleBacktickInlineCodeEnd | tripleBacktickInlineCodeStart
  | tripleBacktickInlineCode | tripleBacktickInlineCodeEnd
  -- compilation unit
  | compilationUnit | importDeclaration | packageName | namespaceDeclaration
  -- definitions
  | serviceDefinition | serviceEndpointAttachments | serviceBody | resourceDefinition
  | resourceParameterList | callableUnitBody | functionDefinition | callableUnitSignature
  | formalParameterList | simpleParameter | tupleParameter | defaultableParameter | restParameter
  | returnParameter | workerDeclaration | typeDefinition | finiteType | annotationDefinition
  | globalVariableDefinition | globalEndpointDefinition | endpointDeclaration | objectFieldBlock
  | fieldDefinition | recordRestField | objectInitializer | objectParameterList | objectParameter
  | objectFunctionDefinition | missingDefinition
  -- type names
  | builtinTypeName | constrainedTypeName | xmlNamespaceConstraint | userDefinedTypeName
  | functionTypeName | functionTypeParameter | nilTypeName | arrayTypeName | arrayDimension
  | unionTypeName | nullableTypeName | groupTypeName | tupleTypeName | objectTypeName
  | recordTypeName | missingTypeName
  -- variable references
  | nameReference | simpleVariableReference | functionInvocation | namedArgument | restArgument
  | indexReference | fieldReference | xmlAttributeReference | methodInvocation | missingReference
  -- expressions
  | simpleLiteral | arrayLiteral | recordLiteral | recordKeyValue | tableLiteral | xmlLiteral
  | stringTemplateLiteral | variableReferenceExpression | actionInvocation | lambdaFunction
  | typeInitExpression | typeConversionExpression | unaryExpression | bracedExpression
  | tupleExpression | awaitExpression | checkedExpression | binaryExpression
  | integerRangeExpression | elvisExpression | ternaryExpression | matchExpression
  | matchExpressionClause | typeAccessExpression | missingExpression
  -- statements
  | block | variableDefinitionStatement | assignmentStatement | compoundAssignmentStatement
  | tupleDestructuringStatement | ifElseStatement | ifClause | elseIfClause | elseClause
  | matchStatement | matchPatternClause | foreachStatement | intRangeExpression | whileStatement
  | continueStatement | breakStatement | forkJoinStatement | joinClause | joinConditions
  | timeoutClause | tryCatchStatement | catchClause | finallyClause | throwStatement
  | returnStatement | workerSendStatement | workerReceiveStatement | expressionStatement
  | transactionStatement | transactionProperty | onRetryClause | abortStatement | retryStatement
  | lockStatement | foreverStatement | missingStatement
  -- XML
  | xmlElement | xmlStartTag | xmlEmptyTag | xmlCloseTag | xmlAttribute | xmlQualifiedName
  | xmlNameInterpolation | xmlQuotedString | xmlComment | xmlProcessingInstruction
  | interpolatedText | templateInterpolation
  -- streaming queries
  | tableQuery | streamingQueryStatement | streamingInput | joinStreamingInput | joinType
  | patternClause | followedByPattern | groupedPattern | negationPattern | logicalPattern
  | patternEdgeInput | withinClause | whereClause | windowClause | selectClause
  | selectExpression | groupByClause | havingClause | orderByClause | orderByVariable
  | limitClause | outputRateLimit | streamingAction
  -- attachments
  | documentationAttachment | documentationText | inlineCode | documentationAttribute
  | deprecatedAttachment | annotationAttachment
deriving DecidableEq, Repr, Inhabited

namespace Kind

/-- The place of a kind in the order of declaration, from zero. -/
def ordinal (k : Kind) : Nat := k.ctorIdx

/-- The kinds from `first` to `last`, both included. -/
def between (first last k : Kind) : Bool := first.ordinal ≤ k.ordinal && k.ordinal ≤ last.ordinal

/-- Every kind, in the order of declaration. -/
def all : List Kind := [
  .unknown, .endOfFileToken, .identifier, .decimalIntegerLiteral, .hexIntegerLiteral,
  .octalIntegerLiteral, .binaryIntegerLiteral, .decimalFloatingPointLiteral,
  .hexFloatingPointLiteral, .quotedStringLiteral, .base16BlobLiteral, .base64BlobLiteral,
  .semicolonToken, .colonToken, .colonColonToken, .dotToken, .commaToken, .openBraceToken,
  .closeBraceToken, .openParenToken, .closeParenToken, .openBracketToken, .closeBracketToken,
  .questionToken, .equalsToken, .plusToken, .minusToken, .asteriskToken, .slashToken,
  .percentToken, .caretToken, .exclamationToken, .equalsEqualsToken, .exclamationEqualsToken,
  .greaterThanToken, .lessThanToken, .greaterThanEqualsToken, .lessThanEqualsToken,
  .ampersandAmpersandToken, .barBarToken, .rightArrowToken, .leftArrowToken, .atToken,
  .backtickToken, .dotDotToken, .dotDotLessThanToken, .dotDotDotToken, .barToken,
  .equalsGreaterThanToken, .questionColonToken, .plusEqualsToken, .minusEqualsToken,
  .asteriskEqualsToken, .slashEqualsToken, .importKeyword, .asKeyword, .publicKeyword,
  .privateKeyword, .nativeKeyword, .serviceKeyword, .resourceKeyword, .functionKeyword,
  .objectKeyword, .recordKeyword, .annotationKeyword, .parameterKeyword, .workerKeyword,
  .endpointKeyword, .bindKeyword, .xmlnsKeyword, .returnsKeyword, .versionKeyword, .newKeyword,
  .typeKeyword, .fromKeyword, .onKeyword, .selectKeyword, .groupKeyword, .byKeyword,
  .havingKeyword, .orderKeyword, .whereKeyword, .followedKeyword, .forKeyword, .windowKeyword,
  .everyKeyword, .withinKeyword, .lastKeyword, .firstKeyword, .snapshotKeyword, .outputKeyword,
  .innerKeyword, .outerKeyword, .rightKeyword, .leftKeyword, .fullKeyword,
  .unidirectionalKeyword, .foreverKeyword, .limitKeyword, .ascendingKeyword, .descendingKeyword,
  .eventsKeyword, .andKeyword, .orKeyword, .notKeyword, .secondKeyword, .secondsKeyword,
  .minuteKeyword, .minutesKeyword, .hourKeyword, .hoursKeyword, .dayKeyword, .daysKeyword,
  .monthKeyword, .monthsKeyword, .yearKeyword, .yearsKeyword, .intKeyword, .floatKeyword,
  .booleanKeyword, .stringKeyword, .blobKeyword, .mapKeyword, .jsonKeyword, .xmlKeyword,
  .tableKeyword, .streamKeyword, .anyKeyword, .typedescKeyword, .futureKeyword, .varKeyword,
  .ifKeyword, .matchKeyword, .elseKeyword, .foreachKeyword, .whileKeyword, .continueKeyword,
  .breakKeyword, .forkKeyword, .joinKeyword, .someKeyword, .allKeyword, .timeoutKeyword,
  .tryKeyword, .catchKeyword, .finallyKeyword, .throwKeyword, .returnKeyword,
  .transactionKeyword, .abortKeyword, .retryKeyword, .onRetryKeyword, .retriesKeyword,
  .onAbortKeyword, .onCommitKeyword, .lengthofKeyword, .withKeyword, .inKeyword, .lockKeyword,
  .untaintKeyword, .startKeyword, .awaitKeyword, .butKeyword, .checkKeyword, .trueKeyword,
  .falseKeyword, .nullKeyword, .xmlLiteralStart, .xmlLiteralEnd, .xmlTagOpen, .xmlTagOpenSlash,
  .xmlTagClose, .xmlTagSlashClose, .xmlTagEquals, .xmlQName, .xmlQNameSeparator,
  .xmlTagExpressionStart, .xmlText, .xmlTemplateText, .xmlCommentStart, .xmlCommentText,
  .xmlCommentTemplateText, .xmlPi, .xmlPiText, .xmlPiTemplateText, .xmlCdata, .xmlSingleQuote,
  .xmlSingleQuoteEnd, .xmlSingleQuotedString, .xmlSingleQuotedTemplateString, .xmlDoubleQuote,
  .xmlDoubleQuoteEnd, .xmlDoubleQuotedString, .xmlDoubleQuotedTemplateString, .expressionEnd,
  .stringTemplateLiteralStart, .stringTemplateLiteralEnd, .stringTemplateExpressionStart,
  .stringTemplateText, .documentationTemplateStart, .documentationTemplateEnd,
  .documentationTemplateAttributeStart, .documentationTemplateAttributeEnd,
  .documentationTemplateText, .deprecatedTemplateStart, .deprecatedTemplateEnd,
  .deprecatedTemplateText, .singleBacktickInlineCodeStart, .singleBacktickInlineCode,
  .singleBacktickInlineCodeEnd, .doubleBacktickInlineCodeStart, .doubleBacktickInlineCode,
  .doubleBacktickInlineCodeEnd, .tripleBacktickInlineCodeStart, .tripleBacktickInlineCode,
  .tripleBacktickInlineCodeEnd, .compilationUnit, .importDeclaration, .packageName,
  .namespaceDeclaration, .serviceDefinition, .serviceEndpointAttachments, .serviceBody,
  .resourceDefinition, .resourceParameterList, .callableUnitBody, .functionDefinition,
  .callableUnitSignature, .formalParameterList, .simpleParameter, .tupleParameter,
  .defaultableParameter, .restParameter, .returnParameter, .workerDeclaration, .typeDefinition,
  .finiteType, .annotationDefinition, .globalVariableDefinition, .globalEndpointDefinition,
  .endpointDeclaration, .objectFieldBlock, .fieldDefinition, .recordRestField,
  .objectInitializer, .objectParameterList, .objectParameter, .objectFunctionDefinition,
  .missingDefinition, .builtinTypeName, .constrainedTypeName, .xmlNamespaceConstraint,
  .userDefinedTypeName, .functionTypeName, .functionTypeParameter, .nilTypeName, .arrayTypeName,
  .arrayDimension, .unionTypeName, .nullableTypeName, .groupTypeName, .tupleTypeName,
  .objectTypeName, .recordTypeName, .missingTypeName, .nameReference, .simpleVariableReference,
  .functionInvocation, .namedArgument, .restArgument, .indexReference, .fieldReference,
  .xmlAttributeReference, .methodInvocation, .missingReference, .simpleLiteral, .arrayLiteral,
  .recordLiteral, .recordKeyValue, .tableLiteral, .xmlLiteral, .stringTemplateLiteral,
  .variableReferenceExpression, .actionInvocation, .lambdaFunction, .typeInitExpression,
  .typeConversionExpression, .unaryExpression, .bracedExpression, .tupleExpression,
  .awaitExpression, .checkedExpression, .binaryExpression, .integerRangeExpression,
  .elvisExpression, .ternaryExpression, .matchExpression, .matchExpressionClause,
  .typeAccessExpression, .missingExpression, .block, .variableDefinitionStatement,
  .assignmentStatement, .compoundAssignmentStatement, .tupleDestructuringStatement,
  .ifElseStatement, .ifClause, .elseIfClause, .elseClause, .matchStatement, .matchPatternClause,
  .foreachStatement, .intRangeExpression, .whileStatement, .continueStatement, .breakStatement,
  .forkJoinStatement, .joinClause, .joinConditions, .timeoutClause, .tryCatchStatement,
  .catchClause, .finallyClause, .throwStatement, .returnStatement, .workerSendStatement,
  .workerReceiveStatement, .expressionStatement, .transactionStatement, .transactionProperty,
  .onRetryClause, .abortStatement, .retryStatement, .lockStatement, .foreverStatement,
  .missingStatement, .xmlElement, .xmlStartTag, .xmlEmptyTag, .xmlCloseTag, .xmlAttribute,
  .xmlQualifiedName, .xmlNameInterpolation, .xmlQuotedString, .xmlComment,
  .xmlProcessingInstruction, .interpolatedText, .templateInterpolation, .tableQuery,
  .streamingQueryStatement, .streamingInput, .joinStreamingInput, .joinType, .patternClause,
  .followedByPattern, .groupedPattern, .negationPattern, .logicalPattern, .patternEdgeInput,
  .withinClause, .whereClause, .windowClause, .selectClause, .selectExpression, .groupByClause,
  .havingClause, .orderByClause, .orderByVariable, .limitClause, .outputRateLimit,
  .streamingAction, .documentationAttachment, .documentationText, .inlineCode,
  .documentationAttribute, .deprecatedAttachment, .annotationAttachment]

end Kind

end BallerinaSyntax
