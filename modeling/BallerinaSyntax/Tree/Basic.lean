import BallerinaSyntax.Tree.Leaf

/-!
The trees of expressions, types, statements and all that they contain. These rules refer to each
other in a circle, so they form one family, indexed by the category of the rule: a tree of the
wrong category cannot be put anywhere. Lists and optional parts are categories of the family
too, which makes every function over trees one structural recursion.
-/

namespace BallerinaSyntax

inductive Category where
  | list (of : Category)
  | option (of : Category)
  -- attachments and callables
  | attachment | metadata | endpoint | endpointValue | callableBody | worker | signature
  | parameterList | parameter | simpleParameter | returnParameter
  -- types and their members
  | typeName | typeConstraint | functionTypeParameter | fieldBlock | field | restField
  | objectInitializer | objectParameterList | objectParameter | objectFunction
  -- references and expressions
  | reference | invocation | argument | expression | recordLiteral | recordField | recordKey
  | matchArm
  -- statements
  | block | variableDefinition | statement | destructuring | ifClause | elseClause | matchClause
  | matchBody | iterable | intRange | joinClause | timeoutClause | catchClause | finallyClause
  | transactionProperty | onRetryClause
  -- XML and templates
  | xmlItem | xmlElement | xmlStartTag | xmlCloseTag | xmlAttribute | xmlQualifiedName
  | xmlQuotedString | xmlContent | xmlComment | xmlInstruction | interpolatedText | textSegment
  -- queries
  | streamingQuery | querySource | streamingInput | joinInput | patternClause | pattern
  | patternEdge | whereClause | windowClause | selectClause | selectItem | groupByClause
  | havingClause | orderByClause | orderByItem | streamingAction
deriving DecidableEq, Repr

inductive Tree : Category → Type where
  | nil {c : Category} : Tree (.list c)
  | cons {c : Category} (head : Tree c) (tail : Tree (.list c)) : Tree (.list c)
  | absent {c : Category} : Tree (.option c)
  | present {c : Category} (value : Tree c) : Tree (.option c)
  -- attachments and callables
  | attachment (info : NodeInfo) (name : NameReference) (value : Tree (.option .recordLiteral)) :
      Tree .attachment
  | metadata (documentation : List Documentation) (deprecated : List Deprecation)
      (annotations : Tree (.list .attachment)) : Tree .metadata
  | endpoint (info : NodeInfo) (annotations : Tree (.list .attachment))
      (endpointType : NameReference) (name : Identifier) (value : Tree (.option .endpointValue)) :
      Tree .endpoint
  | endpointRecord (record : Tree .recordLiteral) : Tree .endpointValue
  | endpointReference (reference : Tree .reference) : Tree .endpointValue
  /-- Endpoints, then statements or workers. -/
  | callableBody (info : NodeInfo) (endpoints : Tree (.list .endpoint))
      (statements : Tree (.list .statement)) (workers : Tree (.list .worker)) : Tree .callableBody
  | worker (info : NodeInfo) (name : Identifier) (body : Tree .block) : Tree .worker
  | signature (info : NodeInfo) (name : Identifier) (parameters : Tree .parameterList)
      (returns : Tree (.option .returnParameter)) : Tree .signature
  | parameterList (info : NodeInfo) (parameters : Tree (.list .parameter)) : Tree .parameterList
  | simple (parameter : Tree .simpleParameter) : Tree .parameter
  | tupleParameter (info : NodeInfo) (annotations : Tree (.list .attachment))
      (members : Tree (.list .simpleParameter)) : Tree .parameter
  | defaultable (info : NodeInfo) (parameter : Tree .parameter) (default : Tree .expression) :
      Tree .parameter
  | restParameter (info : NodeInfo) (annotations : Tree (.list .attachment))
      (type : Tree .typeName) (name : Identifier) : Tree .parameter
  | simpleParameter (info : NodeInfo) (annotations : Tree (.list .attachment))
      (type : Tree .typeName) (name : Identifier) : Tree .simpleParameter
  | returnParameter (info : NodeInfo) (annotations : Tree (.list .attachment))
      (type : Tree .typeName) : Tree .returnParameter
  -- types
  | builtinType (info : NodeInfo) (keyword : Leaf) : Tree .typeName
  | constrainedType (info : NodeInfo) (keyword : Leaf) (constraint : Tree .typeConstraint) :
      Tree .typeName
  | userDefinedType (type : UserDefinedType) : Tree .typeName
  | functionType (info : NodeInfo) (parameters : Tree (.list .functionTypeParameter))
      (returns : Tree (.option .returnParameter)) : Tree .typeName
  | nilType (info : NodeInfo) : Tree .typeName
  | arrayType (info : NodeInfo) (element : Tree .typeName) (dimensions : List ArrayDimension) :
      Tree .typeName
  | unionType (info : NodeInfo) (members : Tree (.list .typeName)) : Tree .typeName
  | nullableType (info : NodeInfo) (inner : Tree .typeName) : Tree .typeName
  | groupType (info : NodeInfo) (inner : Tree .typeName) : Tree .typeName
  | tupleType (info : NodeInfo) (members : Tree (.list .typeName)) : Tree .typeName
  | objectType (info : NodeInfo) (publicFields : Tree (.option .fieldBlock))
      (privateFields : Tree (.option .fieldBlock)) (initializer : Tree (.option .objectInitializer))
      (functions : Tree (.list .objectFunction)) : Tree .typeName
  | recordType (info : NodeInfo) (fields : Tree (.list .field)) (rest : Tree (.option .restField)) :
      Tree .typeName
  | missingType (info : NodeInfo) : Tree .typeName
  | typeConstraint (type : Tree .typeName) : Tree .typeConstraint
  | namespaceConstraint (constraint : XmlNamespaceConstraint) : Tree .typeConstraint
  | functionTypeParameter (info : NodeInfo) (annotations : Tree (.list .attachment))
      (type : Tree .typeName) (name : Option Identifier) : Tree .functionTypeParameter
  | fieldBlock (info : NodeInfo) (fields : Tree (.list .field)) : Tree .fieldBlock
  | field (info : NodeInfo) (metadata : Tree .metadata) (type : Tree .typeName) (name : Identifier)
      (default : Tree (.option .expression)) : Tree .field
  | restField (info : NodeInfo) (type : Tree .typeName) : Tree .restField
  | objectInitializer (info : NodeInfo) (metadata : Tree .metadata)
      (parameters : Tree .objectParameterList) (body : Tree .callableBody) : Tree .objectInitializer
  | objectParameterList (info : NodeInfo) (parameters : Tree (.list .objectParameter)) :
      Tree .objectParameterList
  | objectParameter (info : NodeInfo) (annotations : Tree (.list .attachment))
      (type : Tree (.option .typeName)) (rest : Option Leaf) (name : Identifier)
      (default : Tree (.option .expression)) : Tree .objectParameter
  | objectFunction (info : NodeInfo) (metadata : Tree .metadata) (signature : Tree .signature)
      (body : Tree (.option .callableBody)) : Tree .objectFunction
  -- references
  | simpleReference (info : NodeInfo) (name : NameReference) : Tree .reference
  | functionCall (invocation : Tree .invocation) : Tree .reference
  | indexReference (info : NodeInfo) (target : Tree .reference) (index : Tree .expression) :
      Tree .reference
  | fieldReference (info : NodeInfo) (target : Tree .reference) (accessor : Leaf)
      (field : FieldName) : Tree .reference
  | xmlAttributeReference (info : NodeInfo) (target : Tree .reference)
      (index : Tree (.option .expression)) : Tree .reference
  | methodCall (info : NodeInfo) (target : Tree .reference) (name : Identifier)
      (arguments : Tree (.list .argument)) : Tree .reference
  | missingReference (info : NodeInfo) : Tree .reference
  | invocation (info : NodeInfo) (name : NameReference) (arguments : Tree (.list .argument)) :
      Tree .invocation
  | positional (value : Tree .expression) : Tree .argument
  | named (info : NodeInfo) (name : Identifier) (value : Tree .expression) : Tree .argument
  | restArgument (info : NodeInfo) (value : Tree .expression) : Tree .argument
  -- expressions
  | literal (literal : Literal) : Tree .expression
  | array (info : NodeInfo) (elements : Tree (.list .expression)) : Tree .expression
  | record (record : Tree .recordLiteral) : Tree .expression
  | table (info : NodeInfo) (initializer : Tree .recordLiteral) : Tree .expression
  | xml (info : NodeInfo) (item : Tree .xmlItem) : Tree .expression
  | stringTemplate (info : NodeInfo) (content : Tree .interpolatedText) : Tree .expression
  | variable (info : NodeInfo) (start : Option Leaf) (reference : Tree .reference) :
      Tree .expression
  | action (info : NodeInfo) (start : Option Leaf) (endpoint : NameReference)
      (invocation : Tree .invocation) : Tree .expression
  | lambda (info : NodeInfo) (parameters : Tree .parameterList)
      (returns : Tree (.option .returnParameter)) (body : Tree .callableBody) : Tree .expression
  | typeInit (info : NodeInfo) (type : Option UserDefinedType)
      (arguments : Tree (.option (.list .argument))) : Tree .expression
  | tableQuery (info : NodeInfo) (input : Tree .streamingInput) (join : Tree (.option .joinInput))
      (select : Tree (.option .selectClause)) (orderBy : Tree (.option .orderByClause))
      (limit : Option LimitClause) : Tree .expression
  | typeConversion (info : NodeInfo) (type : Tree .typeName)
      (conversion : Tree (.option .invocation)) (operand : Tree .expression) : Tree .expression
  | unary (info : NodeInfo) (operator : Leaf) (operand : Tree .expression) : Tree .expression
  | braced (info : NodeInfo) (inner : Tree .expression) : Tree .expression
  | tuple (info : NodeInfo) (elements : Tree (.list .expression)) : Tree .expression
  | await (info : NodeInfo) (operand : Tree .expression) : Tree .expression
  | check (info : NodeInfo) (operand : Tree .expression) : Tree .expression
  | binary (info : NodeInfo) (left : Tree .expression) (operator : Leaf)
      (right : Tree .expression) : Tree .expression
  | range (info : NodeInfo) (left : Tree .expression) (operator : Leaf)
      (right : Tree .expression) : Tree .expression
  | elvis (info : NodeInfo) (left : Tree .expression) (operator : Leaf)
      (right : Tree .expression) : Tree .expression
  | ternary (info : NodeInfo) (condition : Tree .expression) (yes : Tree .expression)
      (no : Tree .expression) : Tree .expression
  | matching (info : NodeInfo) (subject : Tree .expression) (arms : Tree (.list .matchArm)) :
      Tree .expression
  /-- A bare type name where an expression is expected. -/
  | typeAccess (info : NodeInfo) (type : Tree .typeName) : Tree .expression
  | missingExpression (info : NodeInfo) : Tree .expression
  | recordLiteral (info : NodeInfo) (fields : Tree (.list .recordField)) : Tree .recordLiteral
  | recordField (info : NodeInfo) (key : Tree .recordKey) (value : Tree .expression) :
      Tree .recordField
  | keyName (name : Identifier) : Tree .recordKey
  | keyExpression (key : Tree .expression) : Tree .recordKey
  | matchArm (info : NodeInfo) (type : Tree .typeName) (binding : Option Identifier)
      (value : Tree .expression) : Tree .matchArm
  -- statements
  | block (info : NodeInfo) (statements : Tree (.list .statement)) : Tree .block
  | variableDefinition (info : NodeInfo) (type : Tree .typeName) (name : Identifier)
      (initializer : Tree (.option .expression)) : Tree .variableDefinition
  | defineVariable (definition : Tree .variableDefinition) : Tree .statement
  | assign (info : NodeInfo) (varKeyword : Option Leaf) (target : Tree .reference)
      (value : Tree .expression) : Tree .statement
  | compoundAssign (info : NodeInfo) (target : Tree .reference) (operator : Leaf)
      (value : Tree .expression) : Tree .statement
  | destructure (info : NodeInfo) (varKeyword : Option Leaf) (targets : Tree .destructuring)
      (value : Tree .expression) : Tree .statement
  | ifElse (info : NodeInfo) (first : Tree .ifClause) (others : Tree (.list .ifClause))
      (last : Tree (.option .elseClause)) : Tree .statement
  | matchStatement (info : NodeInfo) (subject : Tree .expression)
      (clauses : Tree (.list .matchClause)) : Tree .statement
  | foreach (info : NodeInfo) (targets : Tree (.list .reference)) (iterated : Tree .iterable)
      (body : Tree .block) : Tree .statement
  | whileLoop (info : NodeInfo) (condition : Tree .expression) (body : Tree .block) :
      Tree .statement
  | continueLoop (info : NodeInfo) : Tree .statement
  | breakLoop (info : NodeInfo) : Tree .statement
  | forkJoin (info : NodeInfo) (workers : Tree (.list .worker)) (join : Tree (.option .joinClause))
      (timeout : Tree (.option .timeoutClause)) : Tree .statement
  | tryCatch (info : NodeInfo) (body : Tree .block) (catches : Tree (.list .catchClause))
      (last : Tree (.option .finallyClause)) : Tree .statement
  | throwError (info : NodeInfo) (value : Tree .expression) : Tree .statement
  | returnValue (info : NodeInfo) (value : Tree (.option .expression)) : Tree .statement
  | workerSend (info : NodeInfo) (value : Tree .expression) (target : WorkerTarget)
      (key : Tree (.option .expression)) : Tree .statement
  | workerReceive (info : NodeInfo) (target : Tree .expression) (worker : Identifier)
      (key : Tree (.option .expression)) : Tree .statement
  | evaluate (info : NodeInfo) (value : Tree .expression) : Tree .statement
  | transaction (info : NodeInfo) (properties : Tree (.list .transactionProperty))
      (body : Tree .block) (onRetry : Tree (.option .onRetryClause)) : Tree .statement
  | abortTransaction (info : NodeInfo) : Tree .statement
  | retryTransaction (info : NodeInfo) : Tree .statement
  | lock (info : NodeInfo) (body : Tree .block) : Tree .statement
  | declareNamespace (declaration : NamespaceDeclaration) : Tree .statement
  | forever (info : NodeInfo) (queries : Tree (.list .streamingQuery)) : Tree .statement
  | missingStatement (info : NodeInfo) : Tree .statement
  | targetReferences (references : Tree (.list .reference)) : Tree .destructuring
  | targetParameters (parameters : Tree (.list .simpleParameter)) : Tree .destructuring
  | ifClause (info : NodeInfo) (condition : Tree .expression) (body : Tree .block) : Tree .ifClause
  | elseClause (info : NodeInfo) (body : Tree .block) : Tree .elseClause
  | matchClause (info : NodeInfo) (type : Tree .typeName) (binding : Option Identifier)
      (body : Tree .matchBody) : Tree .matchClause
  | matchStatementBody (statement : Tree .statement) : Tree .matchBody
  | matchBlockBody (block : Tree .block) : Tree .matchBody
  | iterableExpression (value : Tree .expression) : Tree .iterable
  | iterableRange (range : Tree .intRange) : Tree .iterable
  | intRange (info : NodeInfo) (opening : Leaf) (start : Tree .expression)
      (stop : Tree (.option .expression)) (closing : Leaf) : Tree .intRange
  | joinClause (info : NodeInfo) (conditions : Option JoinConditions) (type : Tree .typeName)
      (result : Identifier) (body : Tree .block) : Tree .joinClause
  | timeoutClause (info : NodeInfo) (duration : Tree .expression) (type : Tree .typeName)
      (result : Identifier) (body : Tree .block) : Tree .timeoutClause
  | catchClause (info : NodeInfo) (type : Tree .typeName) (binding : Identifier)
      (body : Tree .block) : Tree .catchClause
  | finallyClause (info : NodeInfo) (body : Tree .block) : Tree .finallyClause
  | transactionProperty (info : NodeInfo) (keyword : Leaf) (value : Tree .expression) :
      Tree .transactionProperty
  | onRetryClause (info : NodeInfo) (body : Tree .block) : Tree .onRetryClause
  -- XML and templates
  | itemElement (element : Tree .xmlElement) : Tree .xmlItem
  | itemInstruction (instruction : Tree .xmlInstruction) : Tree .xmlItem
  | itemComment (comment : Tree .xmlComment) : Tree .xmlItem
  | itemText (text : Tree .interpolatedText) : Tree .xmlItem
  | itemCdata (token : Leaf) : Tree .xmlItem
  /-- An empty element has a start tag of kind `xmlEmptyTag`, no content and no close tag. -/
  | xmlElement (info : NodeInfo) (startTag : Tree .xmlStartTag) (content : Tree (.list .xmlContent))
      (closeTag : Tree (.option .xmlCloseTag)) : Tree .xmlElement
  | xmlStartTag (info : NodeInfo) (name : Tree .xmlQualifiedName)
      (attributes : Tree (.list .xmlAttribute)) : Tree .xmlStartTag
  | xmlCloseTag (info : NodeInfo) (name : Tree .xmlQualifiedName) : Tree .xmlCloseTag
  | xmlAttribute (info : NodeInfo) (name : Tree .xmlQualifiedName) (value : Tree .xmlQuotedString) :
      Tree .xmlAttribute
  | xmlName (name : XmlName) : Tree .xmlQualifiedName
  | xmlNameInterpolation (info : NodeInfo) (expression : Tree .expression) : Tree .xmlQualifiedName
  | xmlQuotedString (info : NodeInfo) (text : Tree .interpolatedText) : Tree .xmlQuotedString
  | contentText (text : Tree .interpolatedText) : Tree .xmlContent
  | contentElement (element : Tree .xmlElement) : Tree .xmlContent
  | contentCdata (token : Leaf) : Tree .xmlContent
  | contentInstruction (instruction : Tree .xmlInstruction) : Tree .xmlContent
  | contentComment (comment : Tree .xmlComment) : Tree .xmlContent
  | xmlComment (info : NodeInfo) (text : Tree .interpolatedText) : Tree .xmlComment
  | xmlInstruction (info : NodeInfo) (target : Leaf) (text : Tree .interpolatedText) :
      Tree .xmlInstruction
  | interpolatedText (info : NodeInfo) (segments : Tree (.list .textSegment)) :
      Tree .interpolatedText
  | plainText (token : Leaf) : Tree .textSegment
  /-- An expression between `opening`, which holds the text before it too, and `closing`. -/
  | interpolation (info : NodeInfo) (opening : Leaf) (expression : Tree .expression)
      (closing : Leaf) : Tree .textSegment
  -- queries
  | streamingQuery (info : NodeInfo) (source : Tree .querySource)
      (select : Tree (.option .selectClause)) (orderBy : Tree (.option .orderByClause))
      (rateLimit : Option OutputRateLimit) (action : Tree .streamingAction) : Tree .streamingQuery
  | querySourceInput (input : Tree .streamingInput) (join : Tree (.option .joinInput)) :
      Tree .querySource
  | querySourcePattern (pattern : Tree .patternClause) : Tree .querySource
  | streamingInput (info : NodeInfo) (reference : Tree .reference)
      (preFilter : Tree (.option .whereClause)) (preFunctions : Tree (.list .invocation))
      (window : Tree (.option .windowClause)) (postFunctions : Tree (.list .invocation))
      (postFilter : Tree (.option .whereClause)) (asName : Option Identifier) : Tree .streamingInput
  | joinInput (info : NodeInfo) (unidirectional : Option Leaf) (joinType : JoinType)
      (input : Tree .streamingInput) (condition : Tree .expression) : Tree .joinInput
  | patternClause (info : NodeInfo) (every : Option Leaf) (input : Tree .pattern)
      (within : Option WithinClause) : Tree .patternClause
  | followedBy (info : NodeInfo) (left : Tree .patternEdge) (right : Tree .pattern) : Tree .pattern
  | groupedPattern (info : NodeInfo) (inner : Tree .pattern) : Tree .pattern
  | negatedPattern (info : NodeInfo) (edge : Tree .patternEdge)
      (andEdge : Tree (.option .patternEdge)) (duration : Option Literal)
      (timeScale : Option Leaf) : Tree .pattern
  | logicalPattern (info : NodeInfo) (left : Tree .patternEdge) (operator : Leaf)
      (right : Tree .patternEdge) : Tree .pattern
  | edgePattern (edge : Tree .patternEdge) : Tree .pattern
  | patternEdge (info : NodeInfo) (reference : Tree .reference)
      (filter : Tree (.option .whereClause)) (count : Tree (.option .intRange))
      (asName : Option Identifier) : Tree .patternEdge
  | whereClause (info : NodeInfo) (condition : Tree .expression) : Tree .whereClause
  | windowClause (info : NodeInfo) (invocation : Tree .invocation) : Tree .windowClause
  | selectClause (info : NodeInfo) (star : Option Leaf) (items : Tree (.list .selectItem))
      (groupBy : Tree (.option .groupByClause)) (having : Tree (.option .havingClause)) :
      Tree .selectClause
  | selectItem (info : NodeInfo) (expression : Tree .expression) (asName : Option Identifier) :
      Tree .selectItem
  | groupByClause (info : NodeInfo) (references : Tree (.list .reference)) : Tree .groupByClause
  | havingClause (info : NodeInfo) (condition : Tree .expression) : Tree .havingClause
  | orderByClause (info : NodeInfo) (items : Tree (.list .orderByItem)) : Tree .orderByClause
  | orderByItem (info : NodeInfo) (reference : Tree .reference) (direction : Option Leaf) :
      Tree .orderByItem
  | streamingAction (info : NodeInfo) (parameters : Tree .parameterList) (body : Tree .block) :
      Tree .streamingAction

abbrev Expression := Tree .expression

abbrev TypeName := Tree .typeName

abbrev Reference := Tree .reference

abbrev Statement := Tree .statement

abbrev Block := Tree .block

abbrev Metadata := Tree .metadata

end BallerinaSyntax
