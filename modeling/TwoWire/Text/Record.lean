import TwoWire.Text.Skip

/-! Records in a text: an object whose members may come in any order, each known
field at most once and unknown ones skipped, or an array that holds the fields in
their fixed order and may stop early. -/

namespace TwoWire

/-- What a reader meets where it expected a value of another kind. Such a value is
read to its end first, if it is not bracketed, so it may turn out to be no value. -/
def misfit (s : List Char) : TextFault :=
  let settle {α : Type} : Except TextFault α → TextFault
    | .ok _ => .unfit
    | .error fault => fault
  match s with
  | [] => .truncated
  | 'n' :: s => settle (expectWord ['u', 'l', 'l'] s)
  | 't' :: s => settle (expectWord ['r', 'u', 'e'] s)
  | 'f' :: s => settle (expectWord ['a', 'l', 's', 'e'] s)
  | '\x22' :: s => settle (Quoted.read s)
  | '[' :: _ => .unfit
  | '\x7b' :: _ => .unfit
  | c :: s => if c = '-' ∨ c.isDigit then settle (readNumeral (c :: s)) else .malformed

def readNatural (limit : Nat) : Reader Nat := fun s =>
  match skipBlank s with
  | [] => .error .truncated
  | c :: s =>
    if c = '-' ∨ c.isDigit then do
      match ← readNumeral (c :: s) with
      | (some n, s) => if n ≤ limit then return (n, s) else .error .unfit
      | (none, _) => .error .unfit
    else .error (misfit (c :: s))

def readOptional {α : Type} (read : Reader α) : Reader (Option α) := fun s =>
  match skipBlank s with
  | 'n' :: s => do return (none, ← expectWord ['u', 'l', 'l'] s)
  | s => do
    let (a, s) ← read s
    return (some a, s)

def readNull : Reader Unit := fun s =>
  match skipBlank s with
  | 'n' :: s => do return ((), ← expectWord ['u', 'l', 'l'] s)
  | s => .error (misfit s)

/-- One of some names. Where a name has to stand, anything but quoted text is
malformed, other values included. -/
def readName {α : Type} (names : List (String × α)) : Reader α := fun s =>
  match skipBlank s with
  | [] => .error .truncated
  | '\x22' :: s => do
    let (name, s) ← Quoted.read s
    match names.lookup (String.ofList name) with
    | some a => return (a, s)
    | none => .error .unfit
  | _ => .error .malformed

/-- A choice by name: the name itself, or an object with the name as its only
member and `null` as its value. -/
def readChoice {α : Type} (names : List (String × α)) : Reader α := fun s =>
  match skipBlank s with
  | '\x7b' :: s => do
    let (a, s) ← readName names s
    let ((), s) ← readNull (← expectMark ':' s)
    return (a, ← expectMark '\x7d' s)
  | s => readName names s

/-- The fields of a record: their names in order, and how to read a value of each. -/
structure RecordShape (φ ν : Type) where
  fields : List (String × φ)
  value : φ → Reader ν

namespace RecordShape

variable {φ ν : Type} [DecidableEq φ] (shape : RecordShape φ ν)

/-- Reads the members of an object up to its end, with those already read and a
bound on their number. That a field comes again is seen before its value. -/
def readMembers : Nat → List (φ × ν) → Reader (List (φ × ν))
  | 0, _, _ => .error .truncated
  | n + 1, seen, s =>
    match skipBlank s with
    | [] => .error .truncated
    | '\x22' :: s => do
      let (name, s) ← Quoted.read s
      match shape.fields.lookup (String.ofList name) with
      | none => next n seen (← skipValue (← expectMark ':' s))
      | some field =>
        if seen.any (·.1 = field) then .error .unfit
        else do
          let (value, s) ← shape.value field (← expectMark ':' s)
          next n (seen ++ [(field, value)]) s
    | _ => .error .malformed
where
  /-- Behind a member comes another one or the end. -/
  next (n : Nat) (seen : List (φ × ν)) (s : List Char) :
      Except TextFault (List (φ × ν) × List Char) :=
    match skipBlank s with
    | [] => .error .truncated
    | ',' :: s => readMembers n seen s
    | '\x7d' :: s => .ok (seen, s)
    | _ => .error .malformed

def readObject (s : List Char) : Except TextFault (List (φ × ν) × List Char) :=
  match skipBlank s with
  | '\x7d' :: s => .ok ([], s)
  | _ => shape.readMembers (s.length + 1) [] s

/-- Reads elements for the given fields up to the end of an array. Between elements
there is a comma; `first` says that no element came yet. -/
def readElements (first : Bool) : List φ → List (φ × ν) → Reader (List (φ × ν))
  | [], seen, s => do return (seen, ← expectMark ']' s)
  | field :: fields, seen, s =>
    match skipBlank s with
    | [] => .error .truncated
    | ']' :: s => .ok (seen, s)
    | c :: s =>
      if first then element field fields seen (c :: s)
      else if c = ',' then
        match skipBlank s with
        | [] => .error .truncated
        | ']' :: _ => .error .malformed
        | s => element field fields seen s
      else .error .malformed
where
  element (field : φ) (fields : List φ) (seen : List (φ × ν)) (s : List Char) :
      Except TextFault (List (φ × ν) × List Char) := do
    let (value, s) ← shape.value field s
    readElements false fields (seen ++ [(field, value)]) s

/-- Reads a record: the fields that are there, in the order of the text. -/
def read (s : List Char) : Except TextFault (List (φ × ν) × List Char) :=
  match skipBlank s with
  | [] => .error .truncated
  | '[' :: s => shape.readElements true (shape.fields.map Prod.snd) [] s
  | '\x7b' :: s => shape.readObject s
  | s => .error (misfit s)

end RecordShape

/-- A member of an object as it is written: the quoted name, a colon, the value. -/
def memberText (name : String) (value : List Char) : List Char :=
  '\x22' :: name.toList ++ '\x22' :: ':' :: value

def objectText (members : List (List Char)) : List Char :=
  '\x7b' :: [','].intercalate members ++ ['\x7d']

def optionalText {α : Type} (text : α → List Char) : Option α → List Char
  | none => ['n', 'u', 'l', 'l']
  | some a => text a

end TwoWire
