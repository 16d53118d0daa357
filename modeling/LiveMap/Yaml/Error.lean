/-!
# What makes a text no YAML document

## Main definitions

* `Yaml.Error`: the causes.
* `Yaml.Error.message`: their wording.
-/

namespace LiveMap.Yaml

/-- What keeps a text from being read as one YAML document. -/
inductive Error where
  | unprintable (code : Nat)
  | unexpectedCharacter (c : Char)
  | unsupported (c : Char)
  | unclosedQuote
  | markInsideQuote
  | unknownEscape
  | badLiteralHeader
  | missingColon
  | mappingNotAllowed
  | sequenceNotAllowed
  | keyNotAllowed
  | nodeExpected
  | blockEndExpected
  | separatorExpected
  | secondDocument
  | collectionAsKey
  | nothingToTake
  | reservedScalar (text : String)
  /-- A number in a base without a single digit of it, or a character code that is none. -/
  | emptyNumber
  deriving DecidableEq, Repr

def Error.message : Error → String
  | .unprintable code => "special characters are not allowed: " ++ toString code
  | .unexpectedCharacter c => "a token cannot start with " ++ c.toString
  | .unsupported c => "a token of this kind is not supported: " ++ c.toString
  | .unclosedQuote => "the text ends inside a quoted scalar"
  | .markInsideQuote => "a document mark stands inside a quoted scalar"
  | .unknownEscape => "unknown escape in a quoted scalar"
  | .badLiteralHeader => "bad header of a literal scalar"
  | .missingColon => "a key is not followed by a colon"
  | .mappingNotAllowed => "mapping values are not allowed here"
  | .sequenceNotAllowed => "sequence entries are not allowed here"
  | .keyNotAllowed => "mapping keys are not allowed here"
  | .nodeExpected => "a node is expected"
  | .blockEndExpected => "the end of a block is expected"
  | .separatorExpected => "a comma or a closing bracket is expected"
  | .secondDocument => "a single document is expected"
  | .collectionAsKey => "a collection cannot be a key"
  | .nothingToTake => "a mapping can take pairs from mappings only"
  | .reservedScalar text => "no value belongs to the plain scalar " ++ text
  | .emptyNumber => "a number without digits"

end LiveMap.Yaml
