/-!
# Keywords of Swift

The reserved words that open or structure declarations, statements and expressions.
-/

namespace ParenLint.Swift

/-- Words of declarations. -/
def declarationKeywords : List String :=
  ["associatedtype", "class", "deinit", "enum", "extension", "fileprivate", "func", "import",
    "init", "inout", "internal", "let", "open", "operator", "private", "protocol", "public",
    "rethrows", "static", "struct", "subscript", "typealias", "var"]

/-- Words of statements. -/
def statementKeywords : List String :=
  ["break", "case", "continue", "default", "defer", "do", "else", "fallthrough", "for", "guard",
    "if", "in", "repeat", "return", "switch", "where", "while"]

/-- Words of expressions and types. -/
def expressionKeywords : List String :=
  ["as", "Any", "catch", "false", "is", "nil", "super", "self", "Self", "throw", "throws", "true",
    "try"]

/-- All reserved words. -/
def keywords : List String :=
  declarationKeywords ++ statementKeywords ++ expressionKeywords

/-- Whether the characters spell a reserved word. -/
def isKeyword (word : List Char) : Bool :=
  keywords.any fun k => k.toList == word

example : isKeyword ['i', 'f'] = true ∧ isKeyword ['I', 'f'] = false := by decide

end ParenLint.Swift
