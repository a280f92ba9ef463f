/-!
What a piece of a source is to a reader, and the name each category is listed
under.
-/

namespace SageNotation.Highlight

inductive Category where
  | text | comment | heading | decision | string | escape | number
  | declaration | clause | inferred | keyword | symbol | tick | operator
  | fieldName | typeName | name | punctuation | error
  deriving DecidableEq

namespace Category

def label : Category → String
  | text => "Text"
  | comment => "Comment.Single"
  | heading => "Generic.Heading"
  | decision => "Generic.Strong"
  | string => "Literal.String"
  | escape => "Literal.String.Escape"
  | number => "Literal.Number"
  | declaration => "Keyword.Declaration"
  | clause => "Keyword.Namespace"
  | inferred => "Name.Decorator"
  | keyword => "Keyword"
  | symbol => "Operator.Word"
  | tick => "Generic.Inserted"
  | operator => "Operator"
  | fieldName => "Name.Attribute"
  | typeName => "Name.Class"
  | name => "Name"
  | punctuation => "Punctuation"
  | error => "Error"

end Category

end SageNotation.Highlight
