import TwoWire.Pack.Packable

/-! Records and choices in MessagePack. A field or a choice is named by text, by the
bytes of that text or by its position. A record is a map, in which unknown fields
are skipped, or an array that holds the fields in order. Bytes do for an array of
numbers, and then those behind the last field are ignored. -/

namespace TwoWire

namespace PackValue

/-- What a value names among named things. The outer answer is missing where the
value is no name at all, the inner one where it names something else. -/
def named? {φ : Type} (names : List (String × φ)) (v : PackValue) : Option (Option φ) :=
  match v with
  | uint n => some (names[n.toNat]?.map Prod.snd)
  | v => v.octets?.map fun octets =>
    (names.find? fun (name, _) => name.toUTF8.toList == octets).map Prod.snd

/-- One of some choices: its name, or a map from its name to nil. -/
def choice? {φ : Type} (names : List (String × φ)) : PackValue → Option φ
  | map [(key, nil)] => (key.named? names).join
  | map _ => none
  | v => (v.named? names).join

/-- The known ones among the entries of a map, no field twice. -/
def known? {φ : Type} [DecidableEq φ] (names : List (String × φ)) :
    List (PackValue × PackValue) → Option (List (φ × PackValue))
  | [] => some []
  | (key, value) :: entries => do
    let rest ← known? names entries
    match ← key.named? names with
    | none => return rest
    | some field => if rest.any (·.1 = field) then none else return (field, value) :: rest

/-- The fields of a record that are there. Where they come in order the last ones
may be missing. -/
def fields? {φ : Type} [DecidableEq φ] (names : List (String × φ)) :
    PackValue → Option (List (φ × PackValue))
  | map entries => known? names entries
  | array items =>
    if items.length > names.length then none else some ((names.map Prod.snd).zip items)
  | bin bytes => some ((names.map Prod.snd).zip (ofOctets bytes))
  | _ => none

/-- A record as a map with the names of the fields as keys. -/
def record (members : List (String × PackValue)) : PackValue :=
  map (members.map fun (name, value) => (ofString name, value))

end PackValue

end TwoWire
