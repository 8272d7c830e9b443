import BallerinaSyntax.Outline.Basic
import BallerinaSyntax.Tree.Basic

/-! Outlines of trees. A rule that only chooses shows as a choice. -/

namespace BallerinaSyntax

def Tree.outline {c : Category} : Tree c → Outline
  | .nil => .nil
  | .cons t ts => .item t.outline ts.outline
  | .absent => .nothing
  | .present t => t.outline
  | .attachment i name value => .node i [("name", name.outline), ("value", value.outline)]
  | .metadata docs notices annotations =>
    .record [("documentation", .list Documentation.outline docs),
      ("deprecated", .list Deprecation.outline notices), ("annotations", annotations.outline)]
  | .endpoint i annotations type name value =>
    .node i [("annotations", annotations.outline), ("endpoint_type", type.outline),
      ("name", .named name), ("initialization", value.outline)]
  | .endpointRecord t => .choice "Record" t.outline
  | .endpointReference t => .choice "Reference" t.outline
  | .callableBody i endpoints statements workers =>
    .node i [("endpoints", endpoints.outline), ("statements", statements.outline),
      ("workers", workers.outline)]
  | .worker i name body => .node i [("name", .named name), ("body", body.outline)]
  | .signature i name parameters returns =>
    .node i [("name", .named name), ("parameters", parameters.outline),
      ("return_parameter", returns.outline)]
  | .parameterList i parameters => .node i [("parameters", parameters.outline)]
  | .simple t => .choice "Simple" t.outline
  | .tupleParameter i annotations members =>
    .choice "Tuple" (.node i [("annotations", annotations.outline), ("members", members.outline)])
  | .defaultable i parameter default =>
    .choice "Defaultable" (.node i [("parameter", parameter.outline), ("default", default.outline)])
  | .restParameter i annotations type name =>
    .choice "Rest" (.node i [("annotations", annotations.outline), ("type_name", type.outline),
      ("name", .named name)])
  | .simpleParameter i annotations type name =>
    .node i [("annotations", annotations.outline), ("type_name", type.outline),
      ("name", .named name)]
  | .returnParameter i annotations type =>
    .node i [("annotations", annotations.outline), ("type_name", type.outline)]
  | .builtinType i keyword => .choice "Builtin" (.node i [("keyword", .leaf keyword)])
  | .constrainedType i keyword constraint =>
    .choice "Constrained" (.node i [("keyword", .leaf keyword), ("constraint", constraint.outline)])
  | .userDefinedType t => .choice "UserDefined" t.outline
  | .functionType i parameters returns =>
    .choice "Function" (.node i [("parameters", parameters.outline),
      ("return_parameter", returns.outline)])
  | .nilType i => .choice "Nil" (.node i [])
  | .arrayType i element dimensions =>
    .choice "Array" (.node i [("element", element.outline),
      ("dimensions", .list ArrayDimension.outline dimensions)])
  | .unionType i members => .choice "Union" (.node i [("members", members.outline)])
  | .nullableType i inner => .choice "Nullable" (.node i [("inner", inner.outline)])
  | .groupType i inner => .choice "Group" (.node i [("inner", inner.outline)])
  | .tupleType i members => .choice "Tuple" (.node i [("members", members.outline)])
  | .objectType i publicFields privateFields initializer functions =>
    .choice "Object" (.node i [("public_fields", publicFields.outline),
      ("private_fields", privateFields.outline), ("initializer", initializer.outline),
      ("functions", functions.outline)])
  | .recordType i fields rest =>
    .choice "Record" (.node i [("fields", fields.outline), ("rest_field", rest.outline)])
  | .missingType i => .choice "Missing" (.placeholder i)
  | .typeConstraint t => .choice "Type" t.outline
  | .namespaceConstraint c => .choice "XmlNamespace" c.outline
  | .functionTypeParameter i annotations type name =>
    .node i [("annotations", annotations.outline), ("type_name", type.outline),
      ("name", .optional .named name)]
  | .fieldBlock i fields => .node i [("fields", fields.outline)]
  | .field i attached type name default =>
    .node i [("metadata", attached.outline), ("type_name", type.outline), ("name", .named name),
      ("default", default.outline)]
  | .restField i type => .node i [("type_name", type.outline)]
  | .objectInitializer i attached parameters body =>
    .node i [("metadata", attached.outline), ("parameters", parameters.outline),
      ("body", body.outline)]
  | .objectParameterList i parameters => .node i [("parameters", parameters.outline)]
  | .objectParameter i annotations type rest name default =>
    .node i [("annotations", annotations.outline), ("type_name", type.outline),
      ("rest", .optional .leaf rest), ("name", .named name), ("default", default.outline)]
  | .objectFunction i attached head body =>
    .node i [("metadata", attached.outline), ("signature", head.outline), ("body", body.outline)]
  | .simpleReference i name => .choice "Simple" (.node i [("name", name.outline)])
  | .functionCall t => .choice "FunctionInvocation" t.outline
  | .indexReference i target index =>
    .choice "Index" (.node i [("target", target.outline), ("index", index.outline)])
  | .fieldReference i target accessor member =>
    .choice "Field" (.node i [("target", target.outline), ("accessor", .leaf accessor),
      ("field", member.outline)])
  | .xmlAttributeReference i target index =>
    .choice "XmlAttribute" (.node i [("target", target.outline), ("index", index.outline)])
  | .methodCall i target name arguments =>
    .choice "Invocation" (.node i [("target", target.outline), ("name", .named name),
      ("arguments", arguments.outline)])
  | .missingReference i => .choice "Missing" (.placeholder i)
  | .invocation i name arguments =>
    .node i [("name", name.outline), ("arguments", arguments.outline)]
  | .positional t => .choice "Positional" t.outline
  | .named i name value =>
    .choice "Named" (.node i [("name", .named name), ("value", value.outline)])
  | .restArgument i value => .choice "Rest" (.node i [("expression", value.outline)])
  | .literal l => .choice "Literal" l.outline
  | .array i elements => .choice "Array" (.node i [("elements", elements.outline)])
  | .record t => .choice "Record" t.outline
  | .table i initializer => .choice "Table" (.node i [("initializer", initializer.outline)])
  | .xml i item => .choice "Xml" (.node i [("item", item.outline)])
  | .stringTemplate i content => .choice "StringTemplate" (.node i [("content", content.outline)])
  | .variable i start target =>
    .choice "VariableReference" (.node i [("start", .optional .leaf start),
      ("reference", target.outline)])
  | .action i start target call =>
    .choice "ActionInvocation" (.node i [("start", .optional .leaf start),
      ("endpoint", target.outline), ("invocation", call.outline)])
  | .lambda i parameters returns body =>
    .choice "Lambda" (.node i [("parameters", parameters.outline),
      ("return_parameter", returns.outline), ("body", body.outline)])
  | .typeInit i type arguments =>
    .choice "TypeInit" (.node i [("type_name", .optional UserDefinedType.outline type),
      ("arguments", arguments.outline)])
  | .tableQuery i input join select orderBy limit =>
    .choice "TableQuery" (.node i [("input", input.outline), ("join", join.outline),
      ("select", select.outline), ("order_by", orderBy.outline),
      ("limit", .optional LimitClause.outline limit)])
  | .typeConversion i type conversion operand =>
    .choice "TypeConversion" (.node i [("target_type", type.outline),
      ("conversion", conversion.outline), ("expression", operand.outline)])
  | .unary i operator operand =>
    .choice "Unary" (.node i [("operator", .leaf operator), ("operand", operand.outline)])
  | .braced i inner => .choice "Braced" (.node i [("expression", inner.outline)])
  | .tuple i elements => .choice "Tuple" (.node i [("elements", elements.outline)])
  | .await i operand => .choice "Await" (.node i [("expression", operand.outline)])
  | .check i operand => .choice "Check" (.node i [("expression", operand.outline)])
  | .binary i left operator right =>
    .choice "Binary" (.node i [("left", left.outline), ("operator", .leaf operator),
      ("right", right.outline)])
  | .range i left operator right =>
    .choice "Range" (.node i [("left", left.outline), ("operator", .leaf operator),
      ("right", right.outline)])
  | .elvis i left operator right =>
    .choice "Elvis" (.node i [("left", left.outline), ("operator", .leaf operator),
      ("right", right.outline)])
  | .ternary i condition yes no =>
    .choice "Ternary" (.node i [("condition", condition.outline), ("then_expression", yes.outline),
      ("else_expression", no.outline)])
  | .matching i subject arms =>
    .choice "Match" (.node i [("subject", subject.outline), ("clauses", arms.outline)])
  | .typeAccess i type => .choice "TypeAccess" (.node i [("type_name", type.outline)])
  | .missingExpression i => .choice "Missing" (.placeholder i)
  | .recordLiteral i fields => .node i [("fields", fields.outline)]
  | .recordField i key value => .node i [("key", key.outline), ("value", value.outline)]
  | .keyName name => .choice "Identifier" (.named name)
  | .keyExpression t => .choice "Expression" t.outline
  | .matchArm i type binding value =>
    .node i [("type_name", type.outline), ("binding", .optional .named binding),
      ("expression", value.outline)]
  | .block i statements => .node i [("statements", statements.outline)]
  | .variableDefinition i type name initializer =>
    .node i [("type_name", type.outline), ("name", .named name),
      ("initializer", initializer.outline)]
  | .defineVariable t => .choice "VariableDefinition" t.outline
  | .assign i varKeyword target value =>
    .choice "Assignment" (.node i [("var", .optional .leaf varKeyword), ("target", target.outline),
      ("value", value.outline)])
  | .compoundAssign i target operator value =>
    .choice "CompoundAssignment" (.node i [("target", target.outline), ("operator", .leaf operator),
      ("value", value.outline)])
  | .destructure i varKeyword targets value =>
    .choice "TupleDestructuring" (.node i [("var", .optional .leaf varKeyword),
      ("targets", targets.outline), ("value", value.outline)])
  | .ifElse i first others last =>
    .choice "If" (.node i [("if_clause", first.outline), ("else_if_clauses", others.outline),
      ("else_clause", last.outline)])
  | .matchStatement i subject clauses =>
    .choice "Match" (.node i [("subject", subject.outline), ("clauses", clauses.outline)])
  | .foreach i targets iterated body =>
    .choice "Foreach" (.node i [("variables", targets.outline), ("iterable", iterated.outline),
      ("body", body.outline)])
  | .whileLoop i condition body =>
    .choice "While" (.node i [("condition", condition.outline), ("body", body.outline)])
  | .continueLoop i => .choice "Continue" (.node i [])
  | .breakLoop i => .choice "Break" (.node i [])
  | .forkJoin i workers join timeout =>
    .choice "ForkJoin" (.node i [("workers", workers.outline), ("join", join.outline),
      ("timeout", timeout.outline)])
  | .tryCatch i body catches last =>
    .choice "TryCatch" (.node i [("body", body.outline), ("catches", catches.outline),
      ("finally", last.outline)])
  | .throwError i value => .choice "Throw" (.node i [("expression", value.outline)])
  | .returnValue i value => .choice "Return" (.node i [("expression", value.outline)])
  | .workerSend i value target key =>
    .choice "WorkerSend" (.node i [("expression", value.outline), ("target", target.outline),
      ("key", key.outline)])
  | .workerReceive i target sender key =>
    .choice "WorkerReceive" (.node i [("expression", target.outline), ("worker", .named sender),
      ("key", key.outline)])
  | .evaluate i value => .choice "Expression" (.node i [("expression", value.outline)])
  | .transaction i properties body onRetry =>
    .choice "Transaction" (.node i [("properties", properties.outline), ("body", body.outline),
      ("on_retry", onRetry.outline)])
  | .abortTransaction i => .choice "Abort" (.node i [])
  | .retryTransaction i => .choice "Retry" (.node i [])
  | .lock i body => .choice "Lock" (.node i [("body", body.outline)])
  | .declareNamespace d => .choice "NamespaceDeclaration" d.outline
  | .forever i queries => .choice "Forever" (.node i [("queries", queries.outline)])
  | .missingStatement i => .choice "Missing" (.placeholder i)
  | .targetReferences t => .choice "References" t.outline
  | .targetParameters t => .choice "Parameters" t.outline
  | .ifClause i condition body => .node i [("condition", condition.outline), ("body", body.outline)]
  | .elseClause i body => .node i [("body", body.outline)]
  | .matchClause i type binding body =>
    .node i [("type_name", type.outline), ("binding", .optional .named binding),
      ("body", body.outline)]
  | .matchStatementBody t => .choice "Statement" t.outline
  | .matchBlockBody t => .choice "Block" t.outline
  | .iterableExpression t => .choice "Expression" t.outline
  | .iterableRange t => .choice "Range" t.outline
  | .intRange i opening start stop closing =>
    .node i [("open", .leaf opening), ("start", start.outline), ("end", stop.outline),
      ("close", .leaf closing)]
  | .joinClause i conditions type result body =>
    .node i [("conditions", .optional JoinConditions.outline conditions),
      ("result_type", type.outline), ("result", .named result), ("body", body.outline)]
  | .timeoutClause i duration type result body =>
    .node i [("duration", duration.outline), ("result_type", type.outline),
      ("result", .named result), ("body", body.outline)]
  | .catchClause i type binding body =>
    .node i [("error_type", type.outline), ("binding", .named binding), ("body", body.outline)]
  | .finallyClause i body => .node i [("body", body.outline)]
  | .transactionProperty i keyword value =>
    .node i [("keyword", .leaf keyword), ("value", value.outline)]
  | .onRetryClause i body => .node i [("body", body.outline)]
  | .itemElement t => .choice "Element" t.outline
  | .itemInstruction t => .choice "ProcessingInstruction" t.outline
  | .itemComment t => .choice "Comment" t.outline
  | .itemText t => .choice "Text" t.outline
  | .itemCdata token => .choice "Cdata" (.leaf token)
  | .xmlElement i startTag content closeTag =>
    .node i [("start_tag", startTag.outline), ("content", content.outline),
      ("close_tag", closeTag.outline)]
  | .xmlStartTag i name attributes =>
    .node i [("name", name.outline), ("attributes", attributes.outline)]
  | .xmlCloseTag i name => .node i [("name", name.outline)]
  | .xmlAttribute i name value => .node i [("name", name.outline), ("value", value.outline)]
  | .xmlName n => .choice "Name" n.outline
  | .xmlNameInterpolation i value =>
    .choice "Interpolation" (.node i [("expression", value.outline)])
  | .xmlQuotedString i text => .node i [("text", text.outline)]
  | .contentText t => .choice "Text" t.outline
  | .contentElement t => .choice "Element" t.outline
  | .contentCdata token => .choice "Cdata" (.leaf token)
  | .contentInstruction t => .choice "ProcessingInstruction" t.outline
  | .contentComment t => .choice "Comment" t.outline
  | .xmlComment i text => .node i [("text", text.outline)]
  | .xmlInstruction i target text => .node i [("target", .leaf target), ("text", text.outline)]
  | .interpolatedText i segments => .node i [("segments", segments.outline)]
  | .plainText token => .choice "Literal" (.leaf token)
  | .interpolation i opening value closing =>
    .choice "Interpolation" (.node i [("opening", .leaf opening), ("expression", value.outline),
      ("closing", .leaf closing)])
  | .streamingQuery i source select orderBy rateLimit reaction =>
    .node i [("source", source.outline), ("select", select.outline), ("order_by", orderBy.outline),
      ("output_rate_limit", .optional OutputRateLimit.outline rateLimit),
      ("action", reaction.outline)]
  | .querySourceInput input join => .record [("input", input.outline), ("join", join.outline)]
  | .querySourcePattern t => .choice "Pattern" t.outline
  | .streamingInput i stream preFilter preFunctions window postFunctions postFilter asName =>
    .node i [("reference", stream.outline), ("pre_filter", preFilter.outline),
      ("pre_functions", preFunctions.outline), ("window", window.outline),
      ("post_functions", postFunctions.outline), ("post_filter", postFilter.outline),
      ("alias", .optional .named asName)]
  | .joinInput i unidirectional type input condition =>
    .node i [("unidirectional", .optional .leaf unidirectional), ("join_type", type.outline),
      ("input", input.outline), ("on", condition.outline)]
  | .patternClause i every input within =>
    .node i [("every", .optional .leaf every), ("input", input.outline),
      ("within", .optional WithinClause.outline within)]
  | .followedBy i left right =>
    .choice "FollowedBy" (.node i [("left", left.outline), ("right", right.outline)])
  | .groupedPattern i inner => .choice "Grouped" (.node i [("inner", inner.outline)])
  | .negatedPattern i edge andEdge duration timeScale =>
    .choice "Negation" (.node i [("edge", edge.outline), ("and_edge", andEdge.outline),
      ("duration", .optional Literal.outline duration), ("time_scale", .optional .leaf timeScale)])
  | .logicalPattern i left operator right =>
    .choice "Logical" (.node i [("left", left.outline), ("operator", .leaf operator),
      ("right", right.outline)])
  | .edgePattern t => .choice "Edge" t.outline
  | .patternEdge i stream filter count asName =>
    .node i [("reference", stream.outline), ("filter", filter.outline), ("count", count.outline),
      ("alias", .optional .named asName)]
  | .whereClause i condition => .node i [("condition", condition.outline)]
  | .windowClause i call => .node i [("invocation", call.outline)]
  | .selectClause i star items groupBy having =>
    .node i [("star", .optional .leaf star), ("expressions", items.outline),
      ("group_by", groupBy.outline), ("having", having.outline)]
  | .selectItem i value asName =>
    .node i [("expression", value.outline), ("alias", .optional .named asName)]
  | .groupByClause i references => .node i [("references", references.outline)]
  | .havingClause i condition => .node i [("condition", condition.outline)]
  | .orderByClause i items => .node i [("variables", items.outline)]
  | .orderByItem i key direction =>
    .node i [("reference", key.outline), ("direction", .optional .leaf direction)]
  | .streamingAction i parameters body =>
    .node i [("parameters", parameters.outline), ("body", body.outline)]

end BallerinaSyntax
