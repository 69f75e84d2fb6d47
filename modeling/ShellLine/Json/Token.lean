import ShellLine.Json.Basic
import ShellLine.Token.Basic

/-!
# Tokens as JSON

A token is an object with the name of its kind, its value and its place.
-/

namespace ShellLine

def ControlOperator.name : ControlOperator → String
  | .separator .semicolon => "Semicolon"
  | .separator .ampersand => "Amp"
  | .conditional .and => "AndAnd"
  | .conditional .or => "OrOr"
  | .pipe => "Pipe"

def RedirectionOperator.name : RedirectionOperator → String
  | .read => "Less"
  | .hereDocument => "DLess"
  | .hereDocumentStripped => "DLessDash"
  | .duplicateInput => "LessAnd"
  | .readWrite => "LessGreat"
  | .write => "Great"
  | .append => "DGreat"
  | .duplicateOutput => "GreatAnd"
  | .clobber => "Clobber"

def ReservedWord.name : ReservedWord → String
  | .ifWord => "If"
  | .thenWord => "Then"
  | .elseWord => "Else"
  | .elifWord => "Elif"
  | .fiWord => "Fi"
  | .doWord => "Do"
  | .doneWord => "Done"
  | .caseWord => "Case"
  | .esacWord => "Esac"
  | .whileWord => "While"
  | .untilWord => "Until"
  | .forWord => "For"
  | .inWord => "In"
  | .functionWord => "Function"

namespace Token

/-- The name of a kind; no two kinds share theirs. -/
def Kind.name : Kind → String
  | .eof => "Eof"
  | .control op => op.name
  | .redirection op => op.name
  | .reserved w => w.name
  | .word => "Word"
  | .ioNumber => "IoNumber"

/-- The kind with a given name, if there is one. -/
def Kind.ofName? (name : String) : Option Kind :=
  Kind.all.find? fun kind ↦ kind.name == name

theorem Kind.ofName?_name (kind : Kind) : Kind.ofName? kind.name = some kind := by
  cases kind with
  | control op => rcases op with (_ | _) | (_ | _) | _ <;> decide
  | redirection op => cases op <;> decide
  | reserved w => cases w <;> decide
  | eof => decide
  | word => decide
  | ioNumber => decide

def toJson (token : Token) : Json :=
  .object
    [("token_type", .string token.kind.name), ("value", .string token.value),
     ("line", .number token.position.line), ("column", .number token.position.column)]

end Token

end ShellLine
