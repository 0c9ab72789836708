/-!
# Kinds of tokens and nodes

The closed set of kinds that a syntax tree is described with. Tokens and keywords
come first: a binary expression carries one as its operator, a heritage clause as
its keyword. The kinds of nodes follow.

The order of declaration is part of the meaning. The compound assignment
operators stand next to each other, so that being one of them is lying between
the first and the last.

## Main definitions

* `Kind`: The kinds, in their order.
* `Kind.all`, `Kind.rank`: The list of them, and the place of a kind in it.
* `Kind.label`: The name under which messages and answers show a kind.
* `Kind.text?`: What a token or keyword looks like in a program.
-/

namespace TreeQuery

/-- A kind of token, keyword or node. -/
inductive Kind where
  -- Punctuation and operators.
  | dotToken | equalsToken | plusToken | minusToken | asteriskToken | asteriskAsteriskToken
  | slashToken | percentToken | lessThanToken | greaterThanToken | lessThanEqualsToken
  | greaterThanEqualsToken | equalsEqualsToken | equalsEqualsEqualsToken | exclamationEqualsToken
  | exclamationEqualsEqualsToken | lessThanLessThanToken | greaterThanGreaterThanToken
  | greaterThanGreaterThanGreaterThanToken | ampersandToken | barToken | caretToken
  | ampersandAmpersandToken | barBarToken | questionQuestionToken | commaToken
  -- Compound assignments.
  | plusEqualsToken | minusEqualsToken | asteriskEqualsToken | asteriskAsteriskEqualsToken
  | slashEqualsToken | percentEqualsToken | lessThanLessThanEqualsToken
  | greaterThanGreaterThanEqualsToken | greaterThanGreaterThanGreaterThanEqualsToken
  | ampersandEqualsToken | barEqualsToken | caretEqualsToken | ampersandAmpersandEqualsToken
  | barBarEqualsToken | questionQuestionEqualsToken
  -- Keywords.
  | extendsKeyword | implementsKeyword
  -- Nodes.
  | sourceFile | identifier | numericLiteral | stringLiteral | classDeclaration | heritageClause
  | expressionWithTypeArguments | functionDeclaration | parameter | block | variableStatement
  | variableDeclaration | arrayBindingPattern | bindingElement | expressionStatement
  | returnStatement | forStatement | exportAssignment | exportDeclaration | binaryExpression
  | arrayLiteralExpression | callExpression | propertyAccessExpression
  deriving DecidableEq

namespace Kind

def all : List Kind :=
  [.dotToken, .equalsToken, .plusToken, .minusToken, .asteriskToken, .asteriskAsteriskToken,
   .slashToken, .percentToken, .lessThanToken, .greaterThanToken, .lessThanEqualsToken,
   .greaterThanEqualsToken, .equalsEqualsToken, .equalsEqualsEqualsToken,
   .exclamationEqualsToken, .exclamationEqualsEqualsToken, .lessThanLessThanToken,
   .greaterThanGreaterThanToken, .greaterThanGreaterThanGreaterThanToken, .ampersandToken,
   .barToken, .caretToken, .ampersandAmpersandToken, .barBarToken, .questionQuestionToken,
   .commaToken, .plusEqualsToken, .minusEqualsToken, .asteriskEqualsToken,
   .asteriskAsteriskEqualsToken, .slashEqualsToken, .percentEqualsToken,
   .lessThanLessThanEqualsToken, .greaterThanGreaterThanEqualsToken,
   .greaterThanGreaterThanGreaterThanEqualsToken, .ampersandEqualsToken, .barEqualsToken,
   .caretEqualsToken, .ampersandAmpersandEqualsToken, .barBarEqualsToken,
   .questionQuestionEqualsToken, .extendsKeyword, .implementsKeyword, .sourceFile, .identifier,
   .numericLiteral, .stringLiteral, .classDeclaration, .heritageClause,
   .expressionWithTypeArguments, .functionDeclaration, .parameter, .block, .variableStatement,
   .variableDeclaration, .arrayBindingPattern, .bindingElement, .expressionStatement,
   .returnStatement, .forStatement, .exportAssignment, .exportDeclaration, .binaryExpression,
   .arrayLiteralExpression, .callExpression, .propertyAccessExpression]

/-- The place of a kind in the order of declaration: how many kinds come before it. -/
def rank (kind : Kind) : Nat :=
  all.idxOf kind

def label : Kind → String
  | .dotToken => "DotToken"
  | .equalsToken => "EqualsToken"
  | .plusToken => "PlusToken"
  | .minusToken => "MinusToken"
  | .asteriskToken => "AsteriskToken"
  | .asteriskAsteriskToken => "AsteriskAsteriskToken"
  | .slashToken => "SlashToken"
  | .percentToken => "PercentToken"
  | .lessThanToken => "LessThanToken"
  | .greaterThanToken => "GreaterThanToken"
  | .lessThanEqualsToken => "LessThanEqualsToken"
  | .greaterThanEqualsToken => "GreaterThanEqualsToken"
  | .equalsEqualsToken => "EqualsEqualsToken"
  | .equalsEqualsEqualsToken => "EqualsEqualsEqualsToken"
  | .exclamationEqualsToken => "ExclamationEqualsToken"
  | .exclamationEqualsEqualsToken => "ExclamationEqualsEqualsToken"
  | .lessThanLessThanToken => "LessThanLessThanToken"
  | .greaterThanGreaterThanToken => "GreaterThanGreaterThanToken"
  | .greaterThanGreaterThanGreaterThanToken => "GreaterThanGreaterThanGreaterThanToken"
  | .ampersandToken => "AmpersandToken"
  | .barToken => "BarToken"
  | .caretToken => "CaretToken"
  | .ampersandAmpersandToken => "AmpersandAmpersandToken"
  | .barBarToken => "BarBarToken"
  | .questionQuestionToken => "QuestionQuestionToken"
  | .commaToken => "CommaToken"
  | .plusEqualsToken => "PlusEqualsToken"
  | .minusEqualsToken => "MinusEqualsToken"
  | .asteriskEqualsToken => "AsteriskEqualsToken"
  | .asteriskAsteriskEqualsToken => "AsteriskAsteriskEqualsToken"
  | .slashEqualsToken => "SlashEqualsToken"
  | .percentEqualsToken => "PercentEqualsToken"
  | .lessThanLessThanEqualsToken => "LessThanLessThanEqualsToken"
  | .greaterThanGreaterThanEqualsToken => "GreaterThanGreaterThanEqualsToken"
  | .greaterThanGreaterThanGreaterThanEqualsToken => "GreaterThanGreaterThanGreaterThanEqualsToken"
  | .ampersandEqualsToken => "AmpersandEqualsToken"
  | .barEqualsToken => "BarEqualsToken"
  | .caretEqualsToken => "CaretEqualsToken"
  | .ampersandAmpersandEqualsToken => "AmpersandAmpersandEqualsToken"
  | .barBarEqualsToken => "BarBarEqualsToken"
  | .questionQuestionEqualsToken => "QuestionQuestionEqualsToken"
  | .extendsKeyword => "ExtendsKeyword"
  | .implementsKeyword => "ImplementsKeyword"
  | .sourceFile => "SourceFile"
  | .identifier => "Identifier"
  | .numericLiteral => "NumericLiteral"
  | .stringLiteral => "StringLiteral"
  | .classDeclaration => "ClassDeclaration"
  | .heritageClause => "HeritageClause"
  | .expressionWithTypeArguments => "ExpressionWithTypeArguments"
  | .functionDeclaration => "FunctionDeclaration"
  | .parameter => "Parameter"
  | .block => "Block"
  | .variableStatement => "VariableStatement"
  | .variableDeclaration => "VariableDeclaration"
  | .arrayBindingPattern => "ArrayBindingPattern"
  | .bindingElement => "BindingElement"
  | .expressionStatement => "ExpressionStatement"
  | .returnStatement => "ReturnStatement"
  | .forStatement => "ForStatement"
  | .exportAssignment => "ExportAssignment"
  | .exportDeclaration => "ExportDeclaration"
  | .binaryExpression => "BinaryExpression"
  | .arrayLiteralExpression => "ArrayLiteralExpression"
  | .callExpression => "CallExpression"
  | .propertyAccessExpression => "PropertyAccessExpression"

/-- What a token or keyword looks like in a program. Nodes have no fixed text. -/
def text? : Kind → Option String
  | .dotToken => some "."
  | .equalsToken => some "="
  | .plusToken => some "+"
  | .minusToken => some "-"
  | .asteriskToken => some "*"
  | .asteriskAsteriskToken => some "**"
  | .slashToken => some "/"
  | .percentToken => some "%"
  | .lessThanToken => some "<"
  | .greaterThanToken => some ">"
  | .lessThanEqualsToken => some "<="
  | .greaterThanEqualsToken => some ">="
  | .equalsEqualsToken => some "=="
  | .equalsEqualsEqualsToken => some "==="
  | .exclamationEqualsToken => some "!="
  | .exclamationEqualsEqualsToken => some "!=="
  | .lessThanLessThanToken => some "<<"
  | .greaterThanGreaterThanToken => some ">>"
  | .greaterThanGreaterThanGreaterThanToken => some ">>>"
  | .ampersandToken => some "&"
  | .barToken => some "|"
  | .caretToken => some "^"
  | .ampersandAmpersandToken => some "&&"
  | .barBarToken => some "||"
  | .questionQuestionToken => some "??"
  | .commaToken => some ","
  | .plusEqualsToken => some "+="
  | .minusEqualsToken => some "-="
  | .asteriskEqualsToken => some "*="
  | .asteriskAsteriskEqualsToken => some "**="
  | .slashEqualsToken => some "/="
  | .percentEqualsToken => some "%="
  | .lessThanLessThanEqualsToken => some "<<="
  | .greaterThanGreaterThanEqualsToken => some ">>="
  | .greaterThanGreaterThanGreaterThanEqualsToken => some ">>>="
  | .ampersandEqualsToken => some "&="
  | .barEqualsToken => some "|="
  | .caretEqualsToken => some "^="
  | .ampersandAmpersandEqualsToken => some "&&="
  | .barBarEqualsToken => some "||="
  | .questionQuestionEqualsToken => some "??="
  | .extendsKeyword => some "extends"
  | .implementsKeyword => some "implements"
  | _ => none

def ofLabel? (label : String) : Option Kind :=
  all.find? fun kind => kind.label == label

theorem mem_all (kind : Kind) : kind ∈ all := by
  cases kind <;> decide

end Kind

end TreeQuery
