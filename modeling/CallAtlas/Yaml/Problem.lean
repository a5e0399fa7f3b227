/-!
# Problems in YAML Documents

The causes for which a text is refused: it cannot be read as a document, or the
document does not have the shape that its reader asks for.

## Main definitions

* `Problem`: A cause.
* `Problem.message`: How a cause is described.
-/

namespace CallAtlas

namespace Yaml

/-- A cause for which a text is refused. -/
inductive Problem where
  | controlCharacter
  | unexpectedCharacter
  | misplacedIndicator
  | missingValueIndicator
  | tabInIndentation
  | unterminatedScalar
  | badEscape
  | badBlockHeader
  | badAnchor
  | badTag
  | badDirective
  | missingContent
  | missingDelimiter
  | missingKey
  | missingDocumentStart
  | unknownAnchor
  | tooDeep
  | repeatedKey
  | wrongKind
  | selfContaining
deriving DecidableEq, Inhabited, Repr

/-- How a cause is described. -/
def Problem.message : Problem → String
  | controlCharacter => "control characters are not allowed"
  | unexpectedCharacter => "found character that cannot start any token"
  | misplacedIndicator => "found an indicator that is not allowed in this context"
  | missingValueIndicator => "could not find expected ':'"
  | tabInIndentation => "found a tab character that violates indentation"
  | unterminatedScalar => "found unexpected end of a quoted scalar"
  | badEscape => "found unknown escape character"
  | badBlockHeader => "found a malformed block scalar header"
  | badAnchor => "did not find expected alphabetic or numeric character"
  | badTag => "found a malformed or undefined tag"
  | badDirective => "found a malformed directive"
  | missingContent => "did not find expected node content"
  | missingDelimiter => "did not find expected delimiter of a collection"
  | missingKey => "did not find expected key"
  | missingDocumentStart => "did not find expected document start"
  | unknownAnchor => "unknown anchor referenced"
  | tooDeep => "exceeded max depth"
  | repeatedKey => "mapping key already defined"
  | wrongKind => "cannot unmarshal a node into a setting of another kind"
  | selfContaining => "anchor value contains itself"

end Yaml

end CallAtlas
