import GasEscalator.Text.Hidden

/-!
# Quoted text

A text between quotes as messages show it. Quotes and backslashes are escaped, the usual control
characters have short escapes, and a character that would not be seen stands as its code point.
-/
namespace GasEscalator

/-- The lowercase hexadecimal digits of a code point, without leading zeros. -/
def codePointDigits (c : Char) : List Char := Nat.toDigits 16 c.toNat

def quoteChar (c : Char) : List Char :=
  match c with
  | '"' => ['\\', '"']
  | '\\' => ['\\', '\\']
  | '\n' => ['\\', 'n']
  | '\r' => ['\\', 'r']
  | '\t' => ['\\', 't']
  | '\x00' => ['\\', '0']
  | _ => if isHidden c then '\\' :: 'u' :: '\x7b' :: (codePointDigits c ++ ['\x7d']) else [c]

def quote (text : String) : String :=
  String.ofList ('"' :: (text.toList.flatMap quoteChar ++ ['"']))

end GasEscalator
