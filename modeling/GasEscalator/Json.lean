/-!
# JSON values

A value keeps each number as it is written, so that reading it as an integer or as a binary number
is exact. Text that holds half of a surrogate pair is no sequence of characters; it is kept as an
absent text, which a reader of the value refuses where it needs the characters.
-/
namespace GasEscalator

/-- A number as written: `whole`, then `fraction` behind a point unless it is empty, then the power
of ten if one is given. -/
structure Numeral where
  negative : Bool
  whole : List Char
  fraction : List Char
  exponent : Option Int
deriving DecidableEq

inductive Json
  | null
  | bool (b : Bool)
  | number (n : Numeral)
  | text (chars : Option String)
  | array (items : List Json)
  | object (members : List (Option String × Json))

namespace Json

def ofText (s : String) : Json := .text (some s)

def ofNat (n : Nat) : Json := .number ⟨false, (toString n).toList, [], none⟩

def ofMembers (members : List (String × Json)) : Json :=
  .object (members.map fun (k, v) => (some k, v))

/-- The value of plain decimal digits, most significant first. -/
def digitsValue (digits : List Char) : Nat :=
  digits.foldl (fun n c => 10 * n + (c.toNat - 48)) 0

/-- The natural number that a numeral without sign, fraction and exponent denotes. -/
def nat? : Json → Option Nat
  | .number ⟨false, whole, [], none⟩ => some (digitsValue whole)
  | _ => none

def natBelow? (bound : Nat) (v : Json) : Option Nat := do
  let n ← v.nat?
  if n < bound then some n else none

/-- Text whose characters are all known. -/
def text? : Json → Option String
  | .text chars => chars
  | _ => none

def items? : Json → Option (List Json)
  | .array items => some items
  | _ => none

/-- The values of the members named `key`, in order. -/
def membersNamed (key : String) (members : List (Option String × Json)) : List Json :=
  members.filterMap fun (k, v) => if k = some key then some v else none

/-- The value under each of `keys`, absent where there is none. A repeated key is refused. -/
def lookUpAll? (members : List (Option String × Json)) (keys : List String) :
    Option (List (Option Json)) :=
  keys.mapM fun key =>
    match membersNamed key members with
    | [] => some none
    | [v] => some (some v)
    | _ => none

/-- Reads a record with the given keys: an object, in which other keys are ignored, or an array of
the first values in the order of the keys. -/
def fields? (keys : List String) : Json → Option (List (Option Json))
  | .object members =>
    if members.all (·.1.isSome) then lookUpAll? members keys else none
  | .array items =>
    if items.length ≤ keys.length then
      some (items.map some ++ List.replicate (keys.length - items.length) none)
    else none
  | _ => none

/-- As `fields?`, and an object may hold no other key. -/
def exactFields? (keys : List String) (v : Json) : Option (List (Option Json)) :=
  match v with
  | .object members =>
    if members.all (fun (k, _) => keys.any (some · = k)) then v.fields? keys else none
  | _ => v.fields? keys

end Json

end GasEscalator
