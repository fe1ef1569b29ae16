import GasEscalator.Json
import GasEscalator.Bytes

/-!
# Reading JSON

Strict JSON: one value with blanks around it, no comments, no leading zeros, no control characters
in text. Recursion is bounded by a budget that every text pays for with its length.
-/
namespace GasEscalator.Json.Reader

def skipBlanks (s : List Char) : List Char :=
  s.dropWhile fun c => c = ' ' || c = '\n' || c = '\t' || c = '\r'

/-! ## Text -/

def codeUnit? (a b c d : Char) : Option Nat := do
  return ((← hexValue? a) * 16 + (← hexValue? b)) * 256 + ((← hexValue? c) * 16 + (← hexValue? d))

/-- The rest of a text behind its opening quote: its characters as code points, with escaped
surrogates still apart, and what follows the closing quote. -/
def codePoints : List Char → Option (List Nat × List Char)
  | '"' :: rest => some ([], rest)
  | '\\' :: 'u' :: a :: b :: c :: d :: rest => do
    let unit ← codeUnit? a b c d
    let (more, rest) ← codePoints rest
    return (unit :: more, rest)
  | '\\' :: e :: rest => do
    let c ← match e with
      | '"' => some 0x22
      | '\\' => some 0x5c
      | '/' => some 0x2f
      | 'b' => some 0x08
      | 'f' => some 0x0c
      | 'n' => some 0x0a
      | 'r' => some 0x0d
      | 't' => some 0x09
      | _ => none
    let (more, rest) ← codePoints rest
    return (c :: more, rest)
  | c :: rest => do
    if c.toNat < 0x20 then none
    let (more, rest) ← codePoints rest
    return (c.toNat :: more, rest)
  | [] => none

/-- Joins escaped surrogates to characters; nothing if one has no partner. -/
def joinSurrogates : List Nat → Option (List Char)
  | [] => some []
  | [n] => if 0xd800 ≤ n && n < 0xe000 then none else some [Char.ofNat n]
  | n :: m :: rest =>
    if 0xd800 ≤ n && n < 0xdc00 && 0xdc00 ≤ m && m < 0xe000 then
      (joinSurrogates rest).map (Char.ofNat (0x10000 + (n - 0xd800) * 0x400 + (m - 0xdc00)) :: ·)
    else if 0xd800 ≤ n && n < 0xe000 then none
    else (joinSurrogates (m :: rest)).map (Char.ofNat n :: ·)

def text (s : List Char) : Option (Option String × List Char) := do
  let (points, rest) ← codePoints s
  return ((joinSurrogates points).map String.ofList, rest)

/-! ## Numbers -/

def digits (s : List Char) : List Char × List Char := (s.takeWhile Char.isDigit, s.dropWhile Char.isDigit)

def someDigits (s : List Char) : Option (List Char × List Char) :=
  match digits s with
  | ([], _) => none
  | found => some found

/-- The integer part: a lone zero, or digits that do not start with one. -/
def whole : List Char → Option (List Char × List Char)
  | '0' :: rest => if (rest.head?.any Char.isDigit) then none else some (['0'], rest)
  | s => someDigits s

def fraction : List Char → Option (List Char × List Char)
  | '.' :: rest => someDigits rest
  | s => some ([], s)

def exponentDigits (s : List Char) : Option (Nat × List Char) := do
  let (ds, rest) ← someDigits s
  return (digitsValue ds, rest)

/-- An exponent behind the letter that announces it. -/
def signedExponent : List Char → Option (Int × List Char)
  | '-' :: rest => (exponentDigits rest).map fun (n, rest) => (-(n : Int), rest)
  | '+' :: rest => (exponentDigits rest).map fun (n, rest) => ((n : Int), rest)
  | s => (exponentDigits s).map fun (n, rest) => ((n : Int), rest)

def exponent : List Char → Option (Option Int × List Char)
  | 'e' :: rest => (signedExponent rest).map fun (n, rest) => (some n, rest)
  | 'E' :: rest => (signedExponent rest).map fun (n, rest) => (some n, rest)
  | s => some (none, s)

def unsignedNumber (negative : Bool) (s : List Char) : Option (Numeral × List Char) := do
  let (w, s) ← whole s
  let (f, s) ← fraction s
  let (e, s) ← exponent s
  return (⟨negative, w, f, e⟩, s)

def number : List Char → Option (Numeral × List Char)
  | '-' :: rest => unsignedNumber true rest
  | s => unsignedNumber false s

/-! ## Values -/

mutual

/-- A value with the blanks in front of it. -/
def value : (budget : Nat) → List Char → Option (Json × List Char)
  | 0, _ => none
  | budget + 1, s =>
    match skipBlanks s with
    | 'n' :: 'u' :: 'l' :: 'l' :: rest => some (.null, rest)
    | 't' :: 'r' :: 'u' :: 'e' :: rest => some (.bool true, rest)
    | 'f' :: 'a' :: 'l' :: 's' :: 'e' :: rest => some (.bool false, rest)
    | '"' :: rest => (text rest).map fun (t, rest) => (.text t, rest)
    | '[' :: rest =>
      match skipBlanks rest with
      | ']' :: rest => some (.array [], rest)
      | rest => (items budget rest).map fun (vs, rest) => (.array vs, rest)
    | '{' :: rest =>
      match skipBlanks rest with
      | '}' :: rest => some (.object [], rest)
      | rest => (members budget rest).map fun (ms, rest) => (.object ms, rest)
    | rest => (number rest).map fun (n, rest) => (.number n, rest)

/-- The items of an array that is not empty, and its closing bracket. -/
def items : (budget : Nat) → List Char → Option (List Json × List Char)
  | 0, _ => none
  | budget + 1, s => do
    let (v, rest) ← value budget s
    match skipBlanks rest with
    | ']' :: rest => some ([v], rest)
    | ',' :: rest => (items budget rest).map fun (vs, rest) => (v :: vs, rest)
    | _ => none

/-- The members of an object that is not empty, and its closing brace. -/
def members : (budget : Nat) → List Char → Option (List (Option String × Json) × List Char)
  | 0, _ => none
  | budget + 1, s => do
    match skipBlanks s with
    | '"' :: rest =>
      let (key, rest) ← text rest
      match skipBlanks rest with
      | ':' :: rest =>
        let (v, rest) ← value budget rest
        match skipBlanks rest with
        | '}' :: rest => some ([(key, v)], rest)
        | ',' :: rest => (members budget rest).map fun (ms, rest) => ((key, v) :: ms, rest)
        | _ => none
      | _ => none
    | _ => none

end

end Reader

/-- Reads a text that is one value. Each character pays for two levels of recursion. -/
def parse? (s : String) : Option Json := do
  let (v, rest) ← Reader.value (2 * s.length + 2) s.toList
  if (Reader.skipBlanks rest).isEmpty then some v else none

end GasEscalator.Json
