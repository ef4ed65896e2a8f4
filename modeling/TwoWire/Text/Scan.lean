import TwoWire.Error

/-! Steps that all readers of text share. A reader takes characters from the front
and gives what it read and the rest. It works in one pass, so the fault it reports
is the first one in the text. -/

namespace TwoWire

abbrev Reader (α : Type) := List Char → Except TextFault (α × List Char)

def isBlank (c : Char) : Bool :=
  c == ' ' || c == '\t' || c == '\n' || c == '\r'

def skipBlank (s : List Char) : List Char :=
  s.dropWhile isBlank

def expectWord : List Char → List Char → Except TextFault (List Char)
  | [], s => .ok s
  | _ :: _, [] => .error .truncated
  | c :: word, d :: s => if c = d then expectWord word s else .error .malformed

/-- The text after blanks and a given character. -/
def expectMark (mark : Char) (s : List Char) : Except TextFault (List Char) :=
  match skipBlank s with
  | [] => .error .truncated
  | c :: s => if c = mark then .ok s else .error .malformed

/-- Only blanks may be left. -/
def expectEnd (s : List Char) : Except TextFault Unit :=
  if (skipBlank s).isEmpty then .ok () else .error .malformed

end TwoWire
