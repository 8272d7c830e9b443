import BallerinaSyntax.Diagnostic.Template

/-! The messages of the parser: each has a number, a severity and a template. -/

namespace BallerinaSyntax

inductive Severity where
  | warning | error
deriving DecidableEq, Repr, Inhabited

def Severity.name : Severity → String
  | .warning => "warning"
  | .error => "error"

inductive Message where
  -- unexpected tokens
  | expectedFound | unexpectedSkipped | noViableAlternative | mustPrecedeDefinitions
  -- unterminated constructs
  | unterminated
  -- limits and attachments
  | nestingTooDeep | duplicateAttachment | firstAttachmentHere | tooManyDiagnostics
  | duplicateBlock
deriving DecidableEq, Repr, Inhabited

namespace Message

def code : Message → Nat
  | .expectedFound => 1001
  | .unexpectedSkipped => 1002
  | .noViableAlternative => 1003
  | .mustPrecedeDefinitions => 1004
  | .unterminated => 1010
  | .nestingTooDeep => 1020
  | .duplicateAttachment => 1021
  | .firstAttachmentHere => 1022
  | .tooManyDiagnostics => 1023
  | .duplicateBlock => 1024

def severity : Message → Severity
  | .firstAttachmentHere | .tooManyDiagnostics => .warning
  | _ => .error

def template : Message → String
  | .expectedFound => "\x7b0\x7d expected, found \x7b1\x7d."
  | .unexpectedSkipped =>
    "Unexpected \x7b0\x7d; skipped \x7b1\x7d token(s) while looking for \x7b2\x7d."
  | .noViableAlternative => "No viable alternative for \x7b0\x7d at \x7b1\x7d."
  | .mustPrecedeDefinitions => "\x7b0\x7d must precede all definitions."
  | .unterminated => "Unterminated \x7b0\x7d; missing closing \x7b1\x7d."
  | .nestingTooDeep => "Maximum nesting depth of \x7b0\x7d exceeded."
  | .duplicateAttachment => "Duplicate \x7b0\x7d attachment."
  | .firstAttachmentHere => "The first \x7b0\x7d attachment is here."
  | .tooManyDiagnostics => "Too many syntax errors; stopped reporting after \x7b0\x7d."
  | .duplicateBlock => "Duplicate \x7b0\x7d block."

end Message

end BallerinaSyntax
