import GasEscalator.Json
import GasEscalator.Bytes

/-!
# Writing JSON

Compact JSON: no blanks, members in the order given. In text only the quote, the backslash and
control characters below the space are escaped, with the short escape where there is one.
-/
namespace GasEscalator

/-- A number as written. A power of ten always carries its sign. -/
def Numeral.chars (n : Numeral) : List Char :=
  (if n.negative then ['-'] else []) ++ n.whole ++
    (if n.fraction.isEmpty then [] else '.' :: n.fraction) ++
    match n.exponent with
    | none => []
    | some (.ofNat e) => 'e' :: '+' :: (toString e).toList
    | some (.negSucc e) => 'e' :: '-' :: (toString (e + 1)).toList

namespace Json

def escapeChar (c : Char) : List Char :=
  match c with
  | '"' => ['\\', '"']
  | '\\' => ['\\', '\\']
  | '\n' => ['\\', 'n']
  | '\r' => ['\\', 'r']
  | '\t' => ['\\', 't']
  | _ =>
    if c.toNat = 0x08 then ['\\', 'b']
    else if c.toNat = 0x0c then ['\\', 'f']
    else if c.toNat < 0x20 then
      ['\\', 'u', '0', '0', hexDigit (c.toNat / 16), hexDigit (c.toNat % 16)]
    else [c]

def textChars (s : String) : List Char := '"' :: (s.toList.flatMap escapeChar ++ ['"'])

mutual

/-- A value; text with unknown characters is written as if it were empty. -/
def chars : Json → List Char
  | .null => ['n', 'u', 'l', 'l']
  | .bool true => ['t', 'r', 'u', 'e']
  | .bool false => ['f', 'a', 'l', 's', 'e']
  | .number n => n.chars
  | .text t => textChars (t.getD "")
  | .array vs => '[' :: (itemChars vs ++ [']'])
  | .object ms => '{' :: (memberChars ms ++ ['}'])

def itemChars : List Json → List Char
  | [] => []
  | [v] => chars v
  | v :: w :: rest => chars v ++ ',' :: itemChars (w :: rest)

def memberChars : List (Option String × Json) → List Char
  | [] => []
  | [(k, v)] => textChars (k.getD "") ++ ':' :: chars v
  | (k, v) :: m :: rest => textChars (k.getD "") ++ ':' :: (chars v ++ ',' :: memberChars (m :: rest))

end

def render (v : Json) : String := String.ofList v.chars

end Json

end GasEscalator
