import BallerinaSyntax.Kind.Basic

/-! The name under which a kind is shown, and the kind of a name. -/

namespace BallerinaSyntax.Kind

def name : Kind → String
  | .unknown => "Unknown"
  | .endOfFileToken => "EndOfFileToken"
  | .identifier => "Identifier"
  | .decimalIntegerLiteral => "DecimalIntegerLiteral"
  | .hexIntegerLiteral => "HexIntegerLiteral"
  | .octalIntegerLiteral => "OctalIntegerLiteral"
  | .binaryIntegerLiteral => "BinaryIntegerLiteral"
  | .decimalFloatingPointLiteral => "DecimalFloatingPointLiteral"
  | .hexFloatingPointLiteral => "HexFloatingPointLiteral"
  | .quotedStringLiteral => "QuotedStringLiteral"
  | .base16BlobLiteral => "Base16BlobLiteral"
  | .base64BlobLiteral => "Base64BlobLiteral"
  | .semicolonToken => "SemicolonToken"
  | .colonToken => "ColonToken"
  | .colonColonToken => "ColonColonToken"
  | .dotToken => "DotToken"
  | .commaToken => "CommaToken"
  | .openBraceToken => "OpenBraceToken"
  | .closeBraceToken => "CloseBraceToken"
  | .openParenToken => "OpenParenToken"
  | .closeParenToken => "CloseParenToken"
  | .openBracketToken => "OpenBracketToken"
  | .closeBracketToken => "CloseBracketToken"
  | .questionToken => "QuestionToken"
  | .equalsToken => "EqualsToken"
  | .plusToken => "PlusToken"
  | .minusToken => "MinusToken"
  | .asteriskToken => "AsteriskToken"
  | .slashToken => "SlashToken"
  | .percentToken => "PercentToken"
  | .caretToken => "CaretToken"
  | .exclamationToken => "ExclamationToken"
  | .equalsEqualsToken => "EqualsEqualsToken"
  | .exclamationEqualsToken => "ExclamationEqualsToken"
  | .greaterThanToken => "GreaterThanToken"
  | .lessThanToken => "LessThanToken"
  | .greaterThanEqualsToken => "GreaterThanEqualsToken"
  | .lessThanEqualsToken => "LessThanEqualsToken"
  | .ampersandAmpersandToken => "AmpersandAmpersandToken"
  | .barBarToken => "BarBarToken"
  | .rightArrowToken => "RightArrowToken"
  | .leftArrowToken => "LeftArrowToken"
  | .atToken => "AtToken"
  | .backtickToken => "BacktickToken"
  | .dotDotToken => "DotDotToken"
  | .dotDotLessThanToken => "DotDotLessThanToken"
  | .dotDotDotToken => "DotDotDotToken"
  | .barToken => "BarToken"
  | .equalsGreaterThanToken => "EqualsGreaterThanToken"
  | .questionColonToken => "QuestionColonToken"
  | .plusEqualsToken => "PlusEqualsToken"
  | .minusEqualsToken => "MinusEqualsToken"
  | .asteriskEqualsToken => "AsteriskEqualsToken"
  | .slashEqualsToken => "SlashEqualsToken"
  | .importKeyword => "ImportKeyword"
  | .asKeyword => "AsKeyword"
  | .publicKeyword => "PublicKeyword"
  | .privateKeyword => "PrivateKeyword"
  | .nativeKeyword => "NativeKeyword"
  | .serviceKeyword => "ServiceKeyword"
  | .resourceKeyword => "ResourceKeyword"
  | .functionKeyword => "FunctionKeyword"
  | .objectKeyword => "ObjectKeyword"
  | .recordKeyword => "RecordKeyword"
  | .annotationKeyword => "AnnotationKeyword"
  | .parameterKeyword => "ParameterKeyword"
  | .workerKeyword => "WorkerKeyword"
  | .endpointKeyword => "EndpointKeyword"
  | .bindKeyword => "BindKeyword"
  | .xmlnsKeyword => "XmlnsKeyword"
  | .returnsKeyword => "ReturnsKeyword"
  | .versionKeyword => "VersionKeyword"
  | .newKeyword => "NewKeyword"
  | .typeKeyword => "TypeKeyword"
  | .fromKeyword => "FromKeyword"
  | .onKeyword => "OnKeyword"
  | .selectKeyword => "SelectKeyword"
  | .groupKeyword => "GroupKeyword"
  | .byKeyword => "ByKeyword"
  | .havingKeyword => "HavingKeyword"
  | .orderKeyword => "OrderKeyword"
  | .whereKeyword => "WhereKeyword"
  | .followedKeyword => "FollowedKeyword"
  | .forKeyword => "ForKeyword"
  | .windowKeyword => "WindowKeyword"
  | .everyKeyword => "EveryKeyword"
  | .withinKeyword => "WithinKeyword"
  | .lastKeyword => "LastKeyword"
  | .firstKeyword => "FirstKeyword"
  | .snapshotKeyword => "SnapshotKeyword"
  | .outputKeyword => "OutputKeyword"
  | .innerKeyword => "InnerKeyword"
  | .outerKeyword => "OuterKeyword"
  | .rightKeyword => "RightKeyword"
  | .leftKeyword => "LeftKeyword"
  | .fullKeyword => "FullKeyword"
  | .unidirectionalKeyword => "UnidirectionalKeyword"
  | .foreverKeyword => "ForeverKeyword"
  | .limitKeyword => "LimitKeyword"
  | .ascendingKeyword => "AscendingKeyword"
  | .descendingKeyword => "DescendingKeyword"
  | .eventsKeyword => "EventsKeyword"
  | .andKeyword => "AndKeyword"
  | .orKeyword => "OrKeyword"
  | .notKeyword => "NotKeyword"
  | .secondKeyword => "SecondKeyword"
  | .secondsKeyword => "SecondsKeyword"
  | .minuteKeyword => "MinuteKeyword"
  | .minutesKeyword => "MinutesKeyword"
  | .hourKeyword => "HourKeyword"
  | .hoursKeyword => "HoursKeyword"
  | .dayKeyword => "DayKeyword"
  | .daysKeyword => "DaysKeyword"
  | .monthKeyword => "MonthKeyword"
  | .monthsKeyword => "MonthsKeyword"
  | .yearKeyword => "YearKeyword"
  | .yearsKeyword => "YearsKeyword"
  | .intKeyword => "IntKeyword"
  | .floatKeyword => "FloatKeyword"
  | .booleanKeyword => "BooleanKeyword"
  | .stringKeyword => "StringKeyword"
  | .blobKeyword => "BlobKeyword"
  | .mapKeyword => "MapKeyword"
  | .jsonKeyword => "JsonKeyword"
  | .xmlKeyword => "XmlKeyword"
  | .tableKeyword => "TableKeyword"
  | .streamKeyword => "StreamKeyword"
  | .anyKeyword => "AnyKeyword"
  | .typedescKeyword => "TypedescKeyword"
  | .futureKeyword => "FutureKeyword"
  | .varKeyword => "VarKeyword"
  | .ifKeyword => "IfKeyword"
  | .matchKeyword => "MatchKeyword"
  | .elseKeyword => "ElseKeyword"
  | .foreachKeyword => "ForeachKeyword"
  | .whileKeyword => "WhileKeyword"
  | .continueKeyword => "ContinueKeyword"
  | .breakKeyword => "BreakKeyword"
  | .forkKeyword => "ForkKeyword"
  | .joinKeyword => "JoinKeyword"
  | .someKeyword => "SomeKeyword"
  | .allKeyword => "AllKeyword"
  | .timeoutKeyword => "TimeoutKeyword"
  | .tryKeyword => "TryKeyword"
  | .catchKeyword => "CatchKeyword"
  | .finallyKeyword => "FinallyKeyword"
  | .throwKeyword => "ThrowKeyword"
  | .returnKeyword => "ReturnKeyword"
  | .transactionKeyword => "TransactionKeyword"
  | .abortKeyword => "AbortKeyword"
  | .retryKeyword => "RetryKeyword"
  | .onRetryKeyword => "OnRetryKeyword"
  | .retriesKeyword => "RetriesKeyword"
  | .onAbortKeyword => "OnAbortKeyword"
  | .onCommitKeyword => "OnCommitKeyword"
  | .lengthofKeyword => "LengthofKeyword"
  | .withKeyword => "WithKeyword"
  | .inKeyword => "InKeyword"
  | .lockKeyword => "LockKeyword"
  | .untaintKeyword => "UntaintKeyword"
  | .startKeyword => "StartKeyword"
  | .awaitKeyword => "AwaitKeyword"
  | .butKeyword => "ButKeyword"
  | .checkKeyword => "CheckKeyword"
  | .trueKeyword => "TrueKeyword"
  | .falseKeyword => "FalseKeyword"
  | .nullKeyword => "NullKeyword"
  | .xmlLiteralStart => "XmlLiteralStart"
  | .xmlLiteralEnd => "XmlLiteralEnd"
  | .xmlTagOpen => "XmlTagOpen"
  | .xmlTagOpenSlash => "XmlTagOpenSlash"
  | .xmlTagClose => "XmlTagClose"
  | .xmlTagSlashClose => "XmlTagSlashClose"
  | .xmlTagEquals => "XmlTagEquals"
  | .xmlQName => "XmlQName"
  | .xmlQNameSeparator => "XmlQNameSeparator"
  | .xmlTagExpressionStart => "XmlTagExpressionStart"
  | .xmlText => "XmlText"
  | .xmlTemplateText => "XmlTemplateText"
  | .xmlCommentStart => "XmlCommentStart"
  | .xmlCommentText => "XmlCommentText"
  | .xmlCommentTemplateText => "XmlCommentTemplateText"
  | .xmlPi => "XmlPi"
  | .xmlPiText => "XmlPiText"
  | .xmlPiTemplateText => "XmlPiTemplateText"
  | .xmlCdata => "XmlCdata"
  | .xmlSingleQuote => "XmlSingleQuote"
  | .xmlSingleQuoteEnd => "XmlSingleQuoteEnd"
  | .xmlSingleQuotedString => "XmlSingleQuotedString"
  | .xmlSingleQuotedTemplateString => "XmlSingleQuotedTemplateString"
  | .xmlDoubleQuote => "XmlDoubleQuote"
  | .xmlDoubleQuoteEnd => "XmlDoubleQuoteEnd"
  | .xmlDoubleQuotedString => "XmlDoubleQuotedString"
  | .xmlDoubleQuotedTemplateString => "XmlDoubleQuotedTemplateString"
  | .expressionEnd => "ExpressionEnd"
  | .stringTemplateLiteralStart => "StringTemplateLiteralStart"
  | .stringTemplateLiteralEnd => "StringTemplateLiteralEnd"
  | .stringTemplateExpressionStart => "StringTemplateExpressionStart"
  | .stringTemplateText => "StringTemplateText"
  | .documentationTemplateStart => "DocumentationTemplateStart"
  | .documentationTemplateEnd => "DocumentationTemplateEnd"
  | .documentationTemplateAttributeStart => "DocumentationTemplateAttributeStart"
  | .documentationTemplateAttributeEnd => "DocumentationTemplateAttributeEnd"
  | .documentationTemplateText => "DocumentationTemplateText"
  | .deprecatedTemplateStart => "DeprecatedTemplateStart"
  | .deprecatedTemplateEnd => "DeprecatedTemplateEnd"
  | .deprecatedTemplateText => "DeprecatedTemplateText"
  | .singleBacktickInlineCodeStart => "SingleBacktickInlineCodeStart"
  | .singleBacktickInlineCode => "SingleBacktickInlineCode"
  | .singleBacktickInlineCodeEnd => "SingleBacktickInlineCodeEnd"
  | .doubleBacktickInlineCodeStart => "DoubleBacktickInlineCodeStart"
  | .doubleBacktickInlineCode => "DoubleBacktickInlineCode"
  | .doubleBacktickInlineCodeEnd => "DoubleBacktickInlineCodeEnd"
  | .tripleBacktickInlineCodeStart => "TripleBacktickInlineCodeStart"
  | .tripleBacktickInlineCode => "TripleBacktickInlineCode"
  | .tripleBacktickInlineCodeEnd => "TripleBacktickInlineCodeEnd"
  | .compilationUnit => "CompilationUnit"
  | .importDeclaration => "ImportDeclaration"
  | .packageName => "PackageName"
  | .namespaceDeclaration => "NamespaceDeclaration"
  | .serviceDefinition => "ServiceDefinition"
  | .serviceEndpointAttachments => "ServiceEndpointAttachments"
  | .serviceBody => "ServiceBody"
  | .resourceDefinition => "ResourceDefinition"
  | .resourceParameterList => "ResourceParameterList"
  | .callableUnitBody => "CallableUnitBody"
  | .functionDefinition => "FunctionDefinition"
  | .callableUnitSignature => "CallableUnitSignature"
  | .formalParameterList => "FormalParameterList"
  | .simpleParameter => "SimpleParameter"
  | .tupleParameter => "TupleParameter"
  | .defaultableParameter => "DefaultableParameter"
  | .restParameter => "RestParameter"
  | .returnParameter => "ReturnParameter"
  | .workerDeclaration => "WorkerDeclaration"
  | .typeDefinition => "TypeDefinition"
  | .finiteType => "FiniteType"
  | .annotationDefinition => "AnnotationDefinition"
  | .globalVariableDefinition => "GlobalVariableDefinition"
  | .globalEndpointDefinition => "GlobalEndpointDefinition"
  | .endpointDeclaration => "EndpointDeclaration"
  | .objectFieldBlock => "ObjectFieldBlock"
  | .fieldDefinition => "FieldDefinition"
  | .recordRestField => "RecordRestField"
  | .objectInitializer => "ObjectInitializer"
  | .objectParameterList => "ObjectParameterList"
  | .objectParameter => "ObjectParameter"
  | .objectFunctionDefinition => "ObjectFunctionDefinition"
  | .missingDefinition => "MissingDefinition"
  | .builtinTypeName => "BuiltinTypeName"
  | .constrainedTypeName => "ConstrainedTypeName"
  | .xmlNamespaceConstraint => "XmlNamespaceConstraint"
  | .userDefinedTypeName => "UserDefinedTypeName"
  | .functionTypeName => "FunctionTypeName"
  | .functionTypeParameter => "FunctionTypeParameter"
  | .nilTypeName => "NilTypeName"
  | .arrayTypeName => "ArrayTypeName"
  | .arrayDimension => "ArrayDimension"
  | .unionTypeName => "UnionTypeName"
  | .nullableTypeName => "NullableTypeName"
  | .groupTypeName => "GroupTypeName"
  | .tupleTypeName => "TupleTypeName"
  | .objectTypeName => "ObjectTypeName"
  | .recordTypeName => "RecordTypeName"
  | .missingTypeName => "MissingTypeName"
  | .nameReference => "NameReference"
  | .simpleVariableReference => "SimpleVariableReference"
  | .functionInvocation => "FunctionInvocation"
  | .namedArgument => "NamedArgument"
  | .restArgument => "RestArgument"
  | .indexReference => "IndexReference"
  | .fieldReference => "FieldReference"
  | .xmlAttributeReference => "XmlAttributeReference"
  | .methodInvocation => "MethodInvocation"
  | .missingReference => "MissingReference"
  | .simpleLiteral => "SimpleLiteral"
  | .arrayLiteral => "ArrayLiteral"
  | .recordLiteral => "RecordLiteral"
  | .recordKeyValue => "RecordKeyValue"
  | .tableLiteral => "TableLiteral"
  | .xmlLiteral => "XmlLiteral"
  | .stringTemplateLiteral => "StringTemplateLiteral"
  | .variableReferenceExpression => "VariableReferenceExpression"
  | .actionInvocation => "ActionInvocation"
  | .lambdaFunction => "LambdaFunction"
  | .typeInitExpression => "TypeInitExpression"
  | .typeConversionExpression => "TypeConversionExpression"
  | .unaryExpression => "UnaryExpression"
  | .bracedExpression => "BracedExpression"
  | .tupleExpression => "TupleExpression"
  | .awaitExpression => "AwaitExpression"
  | .checkedExpression => "CheckedExpression"
  | .binaryExpression => "BinaryExpression"
  | .integerRangeExpression => "IntegerRangeExpression"
  | .elvisExpression => "ElvisExpression"
  | .ternaryExpression => "TernaryExpression"
  | .matchExpression => "MatchExpression"
  | .matchExpressionClause => "MatchExpressionClause"
  | .typeAccessExpression => "TypeAccessExpression"
  | .missingExpression => "MissingExpression"
  | .block => "Block"
  | .variableDefinitionStatement => "VariableDefinitionStatement"
  | .assignmentStatement => "AssignmentStatement"
  | .compoundAssignmentStatement => "CompoundAssignmentStatement"
  | .tupleDestructuringStatement => "TupleDestructuringStatement"
  | .ifElseStatement => "IfElseStatement"
  | .ifClause => "IfClause"
  | .elseIfClause => "ElseIfClause"
  | .elseClause => "ElseClause"
  | .matchStatement => "MatchStatement"
  | .matchPatternClause => "MatchPatternClause"
  | .foreachStatement => "ForeachStatement"
  | .intRangeExpression => "IntRangeExpression"
  | .whileStatement => "WhileStatement"
  | .continueStatement => "ContinueStatement"
  | .breakStatement => "BreakStatement"
  | .forkJoinStatement => "ForkJoinStatement"
  | .joinClause => "JoinClause"
  | .joinConditions => "JoinConditions"
  | .timeoutClause => "TimeoutClause"
  | .tryCatchStatement => "TryCatchStatement"
  | .catchClause => "CatchClause"
  | .finallyClause => "FinallyClause"
  | .throwStatement => "ThrowStatement"
  | .returnStatement => "ReturnStatement"
  | .workerSendStatement => "WorkerSendStatement"
  | .workerReceiveStatement => "WorkerReceiveStatement"
  | .expressionStatement => "ExpressionStatement"
  | .transactionStatement => "TransactionStatement"
  | .transactionProperty => "TransactionProperty"
  | .onRetryClause => "OnRetryClause"
  | .abortStatement => "AbortStatement"
  | .retryStatement => "RetryStatement"
  | .lockStatement => "LockStatement"
  | .foreverStatement => "ForeverStatement"
  | .missingStatement => "MissingStatement"
  | .xmlElement => "XmlElement"
  | .xmlStartTag => "XmlStartTag"
  | .xmlEmptyTag => "XmlEmptyTag"
  | .xmlCloseTag => "XmlCloseTag"
  | .xmlAttribute => "XmlAttribute"
  | .xmlQualifiedName => "XmlQualifiedName"
  | .xmlNameInterpolation => "XmlNameInterpolation"
  | .xmlQuotedString => "XmlQuotedString"
  | .xmlComment => "XmlComment"
  | .xmlProcessingInstruction => "XmlProcessingInstruction"
  | .interpolatedText => "InterpolatedText"
  | .templateInterpolation => "TemplateInterpolation"
  | .tableQuery => "TableQuery"
  | .streamingQueryStatement => "StreamingQueryStatement"
  | .streamingInput => "StreamingInput"
  | .joinStreamingInput => "JoinStreamingInput"
  | .joinType => "JoinType"
  | .patternClause => "PatternClause"
  | .followedByPattern => "FollowedByPattern"
  | .groupedPattern => "GroupedPattern"
  | .negationPattern => "NegationPattern"
  | .logicalPattern => "LogicalPattern"
  | .patternEdgeInput => "PatternEdgeInput"
  | .withinClause => "WithinClause"
  | .whereClause => "WhereClause"
  | .windowClause => "WindowClause"
  | .selectClause => "SelectClause"
  | .selectExpression => "SelectExpression"
  | .groupByClause => "GroupByClause"
  | .havingClause => "HavingClause"
  | .orderByClause => "OrderByClause"
  | .orderByVariable => "OrderByVariable"
  | .limitClause => "LimitClause"
  | .outputRateLimit => "OutputRateLimit"
  | .streamingAction => "StreamingAction"
  | .documentationAttachment => "DocumentationAttachment"
  | .documentationText => "DocumentationText"
  | .inlineCode => "InlineCode"
  | .documentationAttribute => "DocumentationAttribute"
  | .deprecatedAttachment => "DeprecatedAttachment"
  | .annotationAttachment => "AnnotationAttachment"

instance : ToString Kind := ⟨name⟩

def ofName? (s : String) : Option Kind := all.find? (·.name == s)

end BallerinaSyntax.Kind
