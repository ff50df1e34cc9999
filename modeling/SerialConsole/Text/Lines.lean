set_option autoImplicit false

/-!
# Line ends of files

Reading a file takes a carriage return, with or without a line feed after it, for a line feed.
-/
namespace SerialConsole.Text

/-- The text with every line end written as a line feed. -/
def unifyLineEnds : List Char → List Char
  | [] => []
  | '\r' :: '\n' :: rest => '\n' :: unifyLineEnds rest
  | '\r' :: rest => '\n' :: unifyLineEnds rest
  | c :: rest => c :: unifyLineEnds rest

end SerialConsole.Text
