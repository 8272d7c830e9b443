import BallerinaSyntax.Kind.Name

/-!
The texts of kinds. Keywords and punctuation marks have one text each, given by two tables; a
word belongs to at most one keyword. A kind is described in messages by its text in quotes
where it has one, and by a phrase otherwise.
-/

namespace BallerinaSyntax.Kind

def keywords : List (Kind × String) := [
  (.importKeyword, "import"), (.asKeyword, "as"), (.publicKeyword, "public"),
  (.privateKeyword, "private"), (.nativeKeyword, "native"), (.serviceKeyword, "service"),
  (.resourceKeyword, "resource"), (.functionKeyword, "function"), (.objectKeyword, "object"),
  (.recordKeyword, "record"), (.annotationKeyword, "annotation"),
  (.parameterKeyword, "parameter"), (.workerKeyword, "worker"), (.endpointKeyword, "endpoint"),
  (.bindKeyword, "bind"), (.xmlnsKeyword, "xmlns"), (.returnsKeyword, "returns"),
  (.versionKeyword, "version"), (.newKeyword, "new"), (.typeKeyword, "type"),
  (.fromKeyword, "from"), (.onKeyword, "on"), (.selectKeyword, "select"),
  (.groupKeyword, "group"), (.byKeyword, "by"), (.havingKeyword, "having"),
  (.orderKeyword, "order"), (.whereKeyword, "where"), (.followedKeyword, "followed"),
  (.forKeyword, "for"), (.windowKeyword, "window"), (.everyKeyword, "every"),
  (.withinKeyword, "within"), (.lastKeyword, "last"), (.firstKeyword, "first"),
  (.snapshotKeyword, "snapshot"), (.outputKeyword, "output"), (.innerKeyword, "inner"),
  (.outerKeyword, "outer"), (.rightKeyword, "right"), (.leftKeyword, "left"),
  (.fullKeyword, "full"), (.unidirectionalKeyword, "unidirectional"),
  (.foreverKeyword, "forever"), (.limitKeyword, "limit"), (.ascendingKeyword, "ascending"),
  (.descendingKeyword, "descending"), (.eventsKeyword, "events"), (.andKeyword, "and"),
  (.orKeyword, "or"), (.notKeyword, "not"), (.secondKeyword, "second"),
  (.secondsKeyword, "seconds"), (.minuteKeyword, "minute"), (.minutesKeyword, "minutes"),
  (.hourKeyword, "hour"), (.hoursKeyword, "hours"), (.dayKeyword, "day"), (.daysKeyword, "days"),
  (.monthKeyword, "month"), (.monthsKeyword, "months"), (.yearKeyword, "year"),
  (.yearsKeyword, "years"), (.intKeyword, "int"), (.floatKeyword, "float"),
  (.booleanKeyword, "boolean"), (.stringKeyword, "string"), (.blobKeyword, "blob"),
  (.mapKeyword, "map"), (.jsonKeyword, "json"), (.xmlKeyword, "xml"), (.tableKeyword, "table"),
  (.streamKeyword, "stream"), (.anyKeyword, "any"), (.typedescKeyword, "typedesc"),
  (.futureKeyword, "future"), (.varKeyword, "var"), (.ifKeyword, "if"), (.matchKeyword, "match"),
  (.elseKeyword, "else"), (.foreachKeyword, "foreach"), (.whileKeyword, "while"),
  (.continueKeyword, "continue"), (.breakKeyword, "break"), (.forkKeyword, "fork"),
  (.joinKeyword, "join"), (.someKeyword, "some"), (.allKeyword, "all"),
  (.timeoutKeyword, "timeout"), (.tryKeyword, "try"), (.catchKeyword, "catch"),
  (.finallyKeyword, "finally"), (.throwKeyword, "throw"), (.returnKeyword, "return"),
  (.transactionKeyword, "transaction"), (.abortKeyword, "abort"), (.retryKeyword, "retry"),
  (.onRetryKeyword, "onretry"), (.retriesKeyword, "retries"), (.onAbortKeyword, "onabort"),
  (.onCommitKeyword, "oncommit"), (.lengthofKeyword, "lengthof"), (.withKeyword, "with"),
  (.inKeyword, "in"), (.lockKeyword, "lock"), (.untaintKeyword, "untaint"),
  (.startKeyword, "start"), (.awaitKeyword, "await"), (.butKeyword, "but"),
  (.checkKeyword, "check"), (.trueKeyword, "true"), (.falseKeyword, "false"),
  (.nullKeyword, "null")]

def punctuation : List (Kind × String) := [
  (.semicolonToken, ";"), (.colonToken, ":"), (.colonColonToken, "::"), (.dotToken, "."),
  (.commaToken, ","), (.openBraceToken, "\x7b"), (.closeBraceToken, "\x7d"),
  (.openParenToken, "("), (.closeParenToken, ")"), (.openBracketToken, "["),
  (.closeBracketToken, "]"), (.questionToken, "?"), (.equalsToken, "="), (.plusToken, "+"),
  (.minusToken, "-"), (.asteriskToken, "*"), (.slashToken, "/"), (.percentToken, "%"),
  (.caretToken, "^"), (.exclamationToken, "!"), (.equalsEqualsToken, "=="),
  (.exclamationEqualsToken, "!="), (.greaterThanToken, ">"), (.lessThanToken, "<"),
  (.greaterThanEqualsToken, ">="), (.lessThanEqualsToken, "<="),
  (.ampersandAmpersandToken, "&&"), (.barBarToken, "||"), (.rightArrowToken, "->"),
  (.leftArrowToken, "<-"), (.atToken, "@"), (.backtickToken, "`"), (.dotDotToken, ".."),
  (.dotDotLessThanToken, "..<"), (.dotDotDotToken, "..."), (.barToken, "|"),
  (.equalsGreaterThanToken, "=>"), (.questionColonToken, "?:"), (.plusEqualsToken, "+="),
  (.minusEqualsToken, "-="), (.asteriskEqualsToken, "*="), (.slashEqualsToken, "/=")]

def keywordText? (k : Kind) : Option String := keywords.lookup k

def punctuationText? (k : Kind) : Option String := punctuation.lookup k

/-- The text that the kind alone determines. -/
def fixedText? (k : Kind) : Option String := k.keywordText?.or k.punctuationText?

def ofKeyword? (word : String) : Option Kind :=
  (keywords.find? (·.2 == word)).map (·.1)

/-- How messages name a kind that has no text of its own. -/
def phrase? : Kind → Option String
  | .endOfFileToken => some "end of input"
  | .identifier => some "identifier"
  | .decimalIntegerLiteral | .hexIntegerLiteral | .octalIntegerLiteral | .binaryIntegerLiteral =>
    some "integer literal"
  | .decimalFloatingPointLiteral | .hexFloatingPointLiteral => some "floating point literal"
  | .quotedStringLiteral => some "string literal"
  | .base16BlobLiteral | .base64BlobLiteral => some "blob literal"
  | .xmlLiteralStart => some "start of XML literal"
  | .xmlLiteralEnd => some "end of XML literal"
  | .xmlTagOpen => some "'<'"
  | .xmlTagOpenSlash => some "'</'"
  | .xmlTagClose => some "'>'"
  | .xmlTagSlashClose => some "'/>'"
  | .xmlTagEquals => some "'='"
  | .xmlQName => some "XML name"
  | .xmlQNameSeparator => some "':'"
  | .xmlText | .xmlTemplateText => some "XML text"
  | .xmlCommentStart => some "'<!--'"
  | .xmlCommentText | .xmlCommentTemplateText => some "XML comment text"
  | .xmlPi => some "XML processing instruction"
  | .xmlPiText | .xmlPiTemplateText => some "XML processing instruction text"
  | .xmlCdata => some "CDATA section"
  | .xmlSingleQuote | .xmlSingleQuoteEnd => some "\"'\""
  | .xmlDoubleQuote | .xmlDoubleQuoteEnd => some "'\"'"
  | .xmlSingleQuotedString | .xmlSingleQuotedTemplateString | .xmlDoubleQuotedString
  | .xmlDoubleQuotedTemplateString => some "XML attribute text"
  | .xmlTagExpressionStart => some "start of XML name interpolation"
  | .expressionEnd => some "end of interpolation"
  | .stringTemplateLiteralStart => some "start of string template"
  | .stringTemplateLiteralEnd => some "end of string template"
  | .stringTemplateExpressionStart | .stringTemplateText => some "string template text"
  | .documentationTemplateStart => some "start of documentation"
  | .documentationTemplateEnd => some "end of documentation"
  | .documentationTemplateAttributeStart => some "documentation attribute"
  | .documentationTemplateAttributeEnd => some "end of documentation attribute"
  | .documentationTemplateText | .deprecatedTemplateText => some "documentation text"
  | .deprecatedTemplateStart => some "start of deprecation notice"
  | .deprecatedTemplateEnd => some "end of deprecation notice"
  | .singleBacktickInlineCodeStart | .doubleBacktickInlineCodeStart
  | .tripleBacktickInlineCodeStart => some "start of inline code"
  | .singleBacktickInlineCode | .doubleBacktickInlineCode | .tripleBacktickInlineCode =>
    some "inline code"
  | .singleBacktickInlineCodeEnd | .doubleBacktickInlineCodeEnd | .tripleBacktickInlineCodeEnd =>
    some "end of inline code"
  | _ => none

def describe (k : Kind) : String :=
  match k.fixedText? with
  | some text => "'" ++ text ++ "'"
  | none => k.phrase?.getD k.name

end BallerinaSyntax.Kind
