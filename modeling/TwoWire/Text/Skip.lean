import TwoWire.Text.Numeral
import TwoWire.Text.Quoted

/-! Skipping a value of any kind. Its grammar is checked but nothing in it is
evaluated, and brackets may be nested to any depth: those that are open are kept in
a list, innermost first. -/

namespace TwoWire

namespace Skip

inductive Bracket where
  | square | curly
deriving DecidableEq

/-- Where skipping stands: before a value, before a member of an object, or behind
a value. -/
inductive Place where
  | value | member | after
deriving DecidableEq

/-- One step from a place, with the brackets open there. Nothing is left to do
behind a value with no bracket open. -/
def step (place : Place) (opened : List Bracket) (s : List Char) :
    Except TextFault (Place × List Bracket × List Char) :=
  match place, opened, skipBlank s with
  | _, _, [] => .error .truncated
  | .value, opened, '\x22' :: s => do return (.after, opened, ← Quoted.skip s)
  | .value, opened, 'n' :: s => do return (.after, opened, ← expectWord ['u', 'l', 'l'] s)
  | .value, opened, 't' :: s => do return (.after, opened, ← expectWord ['r', 'u', 'e'] s)
  | .value, opened, 'f' :: s => do return (.after, opened, ← expectWord ['a', 'l', 's', 'e'] s)
  | .value, opened, '[' :: s =>
    match skipBlank s with
    | ']' :: s => .ok (.after, opened, s)
    | s => .ok (.value, .square :: opened, s)
  | .value, opened, '\x7b' :: s =>
    match skipBlank s with
    | '\x7d' :: s => .ok (.after, opened, s)
    | s => .ok (.member, .curly :: opened, s)
  | .value, opened, c :: s =>
    if c = '-' ∨ c.isDigit then do
      let (_, s) ← Numeral.scan .malformed (c :: s)
      return (.after, opened, s)
    else .error .malformed
  | .member, opened, '\x22' :: s => do
    return (.value, opened, ← expectMark ':' (← Quoted.skip s))
  | .after, .square :: opened, ',' :: s => .ok (.value, .square :: opened, s)
  | .after, .curly :: opened, ',' :: s => .ok (.member, .curly :: opened, s)
  | .after, .square :: opened, ']' :: s => .ok (.after, opened, s)
  | .after, .curly :: opened, '\x7d' :: s => .ok (.after, opened, s)
  | _, _, _ => .error .malformed

/-- Steps until the value is behind, with a bound on their number. -/
def within : Nat → Place → List Bracket → List Char → Except TextFault (List Char)
  | _, .after, [], s => .ok s
  | 0, _, _, _ => .error .truncated
  | n + 1, place, opened, s => do
    let (place, opened, s) ← step place opened s
    within n place opened s

end Skip

/-- The text behind the value at its front. Every step takes a character or more. -/
def skipValue (s : List Char) : Except TextFault (List Char) :=
  Skip.within (s.length + 1) .value [] s

end TwoWire
