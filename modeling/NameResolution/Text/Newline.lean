/-!
# Line ends — one convention for all files

A file may end its lines with a line feed, with a carriage return or with both. The program reads
all three as a line feed.
-/

namespace NameResolution.Text

/-- The text with every line end written as one line feed. -/
def normalizeNewlines : List Char → List Char
  | [] => []
  | '\r' :: '\n' :: rest => '\n' :: normalizeNewlines rest
  | '\r' :: rest => '\n' :: normalizeNewlines rest
  | c :: rest => c :: normalizeNewlines rest

end NameResolution.Text
