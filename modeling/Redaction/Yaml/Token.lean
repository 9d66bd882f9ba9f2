/-!
# Tokens of a YAML text

And the ways in which a text can fail to be YAML.
-/

namespace Redaction.Yaml

/-- How a scalar is written. -/
inductive ScalarStyle
  | plain
  | singleQuoted
  | doubleQuoted
  | literal
  | folded
  deriving DecidableEq, Repr, Inhabited

inductive Token
  | streamEnd
  | versionDirective (major minor : Nat)
  | tagDirective (handle : String) (uri : List UInt8)
  | documentStart
  | documentEnd
  | blockSequenceStart
  | blockMappingStart
  | blockEnd
  | flowSequenceStart
  | flowSequenceEnd
  | flowMappingStart
  | flowMappingEnd
  | blockEntry
  | flowEntry
  | key
  | value
  | alias (name : String)
  | anchor (name : String)
  | tag (handle : String) (suffix : List UInt8)
  | scalar (text : String) (style : ScalarStyle)
  deriving DecidableEq, Repr, Inhabited

/-- Why a text is no YAML document, or not of the shape that is asked for. -/
inductive Problem
  | control
  | noToken
  | indentation
  | tab
  | simpleKey
  | misplacedEntry
  | misplacedKey
  | misplacedValue
  | directive
  | anchorName
  | tagText
  | blockHeader
  | unclosedQuote
  | escape
  | plainColon
  | documentStart
  | documentVersion
  | duplicateDirective
  | tagHandle
  | unknownAlias
  | content
  | entry
  | secondDocument
  | repetition
  | shape
  deriving DecidableEq, Repr, Inhabited

def Problem.message : Problem → String
  | control => "control characters are not allowed"
  | noToken => "found character that cannot start any token"
  | indentation => "found an indentation indicator equal to 0"
  | tab => "found a tab character where an indentation space is expected"
  | simpleKey => "could not find expected ':'"
  | misplacedEntry => "block sequence entries are not allowed in this context"
  | misplacedKey => "mapping keys are not allowed in this context"
  | misplacedValue => "mapping values are not allowed in this context"
  | directive => "found a malformed directive"
  | anchorName => "did not find expected alphabetic or numeric character"
  | tagText => "found a malformed tag"
  | blockHeader => "did not find expected comment or line break"
  | unclosedQuote => "found unexpected end of a quoted scalar"
  | escape => "found unknown escape character"
  | plainColon => "found unexpected ':'"
  | documentStart => "did not find expected <document start>"
  | documentVersion => "found incompatible YAML document"
  | duplicateDirective => "found duplicate directive"
  | tagHandle => "found undefined tag handle"
  | unknownAlias => "unknown anchor"
  | content => "did not find expected node content"
  | entry => "did not find expected entry or end of a collection"
  | secondDocument => "more than one document is not supported"
  | repetition => "repetition limit exceeded"
  | shape => "unexpected type, unknown variant, or missing or duplicate field"

end Redaction.Yaml
