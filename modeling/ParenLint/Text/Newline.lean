/-!
# Line ends

A line may end with a newline, a carriage return, or the two together. On reading, each becomes one
newline.
-/

namespace ParenLint.Text

/-- The text with every line end written as a newline. -/
def unifyNewlines : List Char → List Char
  | [] => []
  | '\r' :: '\n' :: rest => '\n' :: unifyNewlines rest
  | '\r' :: rest => '\n' :: unifyNewlines rest
  | c :: rest => c :: unifyNewlines rest

end ParenLint.Text
