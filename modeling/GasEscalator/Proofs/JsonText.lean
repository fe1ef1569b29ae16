import GasEscalator.Json.Printer
import GasEscalator.Json.Reader
import GasEscalator.Proofs.AddressText
import GasEscalator.Proofs.Digits

/-!
# Printed values are read back

A value whose texts are known and whose numerals can be written is read back from its text. Each
reader takes from the front just what was printed. For all but numbers this does not depend on what
follows; a number ends where no further digit, point or exponent follows, and a comma or a closing
bracket is none of these.
-/
namespace GasEscalator.Json

open Reader

/-! ## Blanks -/

/-- What the reader skips between values. -/
def isSpacing (c : Char) : Bool := c = ' ' || c = '\n' || c = '\t' || c = '\r'

theorem skipBlanks_cons {c : Char} {rest : List Char} (solid : isSpacing c = false) :
    skipBlanks (c :: rest) = c :: rest :=
  List.dropWhile_cons_of_neg (by simpa [isSpacing] using solid)

/-! ## Text -/

theorem codePoints_plain {c : Char} {tail : List Char} (quote : c ≠ '"') (backslash : c ≠ '\\')
    (control : ¬ c.toNat < 0x20) : codePoints (c :: tail) =
      (codePoints tail).map fun p => (c.toNat :: p.1, p.2) := by
  rw [codePoints.eq_def]
  split
  case h_1 h => exact absurd (List.cons.inj h).1 quote
  case h_2 h => exact absurd (List.cons.inj h).1 backslash
  case h_3 h => exact absurd (List.cons.inj h).1 backslash
  case h_4 h =>
    obtain ⟨rfl, rfl⟩ := List.cons.inj h
    rw [if_neg control]
    cases codePoints tail <;> rfl
  case h_5 h => cases h

theorem codeUnit?_hexDigit {n : Nat} (small : n < 0x20) :
    codeUnit? '0' '0' (hexDigit (n / 16)) (hexDigit (n % 16)) = some n := by
  have zero : hexValue? '0' = some 0 := by decide
  rw [codeUnit?, zero, hexValue?_hexDigit _ (by omega), hexValue?_hexDigit _ (by omega)]
  show some (0 * 256 + (n / 16 * 16 + n % 16)) = some n
  congr 1
  omega

/-- What one character is written as is read as its code point. -/
theorem codePoints_escapeChar (c : Char) (tail : List Char) :
    codePoints (escapeChar c ++ tail) =
      (codePoints tail).map fun p => (c.toNat :: p.1, p.2) := by
  unfold escapeChar
  split
  case h_6 quote backslash _ _ _ =>
    -- the characters that are left are told apart by their codes
    split
    case isTrue code =>
      rw [code]
      cases h : codePoints tail <;> simp [codePoints, h]
    split
    case isTrue code =>
      rw [code]
      cases h : codePoints tail <;> simp [codePoints, h]
    split
    case isTrue control =>
      show codePoints ('\\' :: 'u' :: '0' :: '0' :: hexDigit (c.toNat / 16) ::
        hexDigit (c.toNat % 16) :: tail) = _
      rw [codePoints, codeUnit?_hexDigit control]
      cases h : codePoints tail <;> simp
    case isFalse control =>
      exact codePoints_plain quote backslash control
  all_goals
    cases h : codePoints tail <;> simp [codePoints, h]

theorem codePoints_flatMap (cs rest : List Char) :
    codePoints (cs.flatMap escapeChar ++ '"' :: rest) = some (cs.map Char.toNat, rest) := by
  induction cs with
  | nil => rfl
  | cons c cs ih =>
    rw [List.flatMap_cons, List.append_assoc, codePoints_escapeChar, ih]
    rfl

/-- No character is half of a surrogate pair. -/
theorem not_surrogate (c : Char) : ¬ (0xd800 ≤ c.toNat ∧ c.toNat < 0xe000) := by
  have valid : c.toNat < 0xd800 ∨ (0xdfff < c.toNat ∧ c.toNat < 0x110000) := c.valid
  omega

theorem joinSurrogates_map : ∀ cs : List Char, joinSurrogates (cs.map Char.toNat) = some cs
  | [] => rfl
  | [c] => by
    have whole := not_surrogate c
    simp only [List.map_cons, List.map_nil, joinSurrogates]
    rw [if_neg (by simpa using whole), Char.ofNat_toNat]
  | c :: c' :: cs => by
    have whole := not_surrogate c
    have rest := joinSurrogates_map (c' :: cs)
    simp only [List.map_cons] at rest
    simp only [List.map_cons, joinSurrogates]
    rw [if_neg (by simp; omega), if_neg (by simpa using whole), rest, Char.ofNat_toNat]
    rfl

/-- A text is read back up to its closing quote. -/
theorem text_textChars (s : String) (rest : List Char) :
    Reader.text (s.toList.flatMap escapeChar ++ '"' :: rest) = some (some s, rest) := by
  rw [Reader.text, codePoints_flatMap]
  show some ((joinSurrogates (s.toList.map Char.toNat)).map String.ofList, rest) = _
  rw [joinSurrogates_map, Option.map_some, String.ofList_toList]

/-! ## Numbers -/

/-- What follows does not begin with a digit. -/
def StopsDigits (rest : List Char) : Prop := ∀ c ∈ rest.head?, c.isDigit = false

/-- What follows does not continue a number. -/
structure EndsNumber (rest : List Char) : Prop where
  digit : StopsDigits rest
  point : rest.head? ≠ some '.'
  lower : rest.head? ≠ some 'e'
  upper : rest.head? ≠ some 'E'

theorem stopsDigits_cons {c : Char} {rest : List Char} (h : c.isDigit = false) :
    StopsDigits (c :: rest) := by
  rintro _ ⟨⟩
  exact h

theorem endsNumber_nil : EndsNumber [] := ⟨nofun, nofun, nofun, nofun⟩

/-- A comma or a closing bracket does not. -/
theorem endsNumber_cons {c : Char} (h : c = ',' ∨ c = ']' ∨ c = '}') (rest : List Char) :
    EndsNumber (c :: rest) := by
  rcases h with rfl | rfl | rfl <;>
    exact ⟨stopsDigits_cons rfl, by simp, by simp, by simp⟩

section Digits

variable {ds rest : List Char}

theorem digits_append (all : ∀ c ∈ ds, c.isDigit = true) (stop : StopsDigits rest) :
    digits (ds ++ rest) = (ds, rest) := by
  have front : rest.takeWhile Char.isDigit = [] ∧ rest.dropWhile Char.isDigit = rest := by
    cases rest with
    | nil => exact ⟨rfl, rfl⟩
    | cons c rest =>
      have first := stop c rfl
      exact ⟨List.takeWhile_cons_of_neg (by simp [first]),
        List.dropWhile_cons_of_neg (by simp [first])⟩
  rw [digits, List.takeWhile_append_of_pos all, List.dropWhile_append_of_pos all, front.1, front.2,
    List.append_nil]

theorem someDigits_append (all : ∀ c ∈ ds, c.isDigit = true) (nonempty : ds ≠ [])
    (stop : StopsDigits rest) : someDigits (ds ++ rest) = some (ds, rest) := by
  rw [someDigits, digits_append all stop]
  split
  case h_1 h => exact absurd (congrArg Prod.fst h) nonempty
  case h_2 => rfl

theorem exponentDigits_append (n : Nat) (stop : StopsDigits rest) :
    exponentDigits ((toString n).toList ++ rest) = some (n, rest) := by
  rw [exponentDigits, someDigits_append (fun _ => isDigit_of_mem_toString) (toString_ne_nil n) stop]
  show some (digitsValue (toString n).toList, rest) = _
  rw [digitsValue_toString]

end Digits

def exponentChars : Option Int → List Char
  | none => []
  | some (.ofNat e) => 'e' :: '+' :: (toString e).toList
  | some (.negSucc e) => 'e' :: '-' :: (toString (e + 1)).toList

theorem Numeral.chars_eq (n : Numeral) : n.chars = (if n.negative then ['-'] else []) ++ n.whole ++
    (if n.fraction.isEmpty then [] else '.' :: n.fraction) ++ exponentChars n.exponent := by
  unfold Numeral.chars exponentChars
  rfl

section Number

variable {rest : List Char}

theorem exponent_chars (e : Option Int) (ends : EndsNumber rest) :
    exponent (exponentChars e ++ rest) = some (e, rest) := by
  cases e with
  | none =>
    show exponent rest = _
    unfold exponent
    split
    case h_1 => exact absurd rfl ends.lower
    case h_2 => exact absurd rfl ends.upper
    case h_3 => rfl
  | some e =>
    cases e with
    | ofNat e =>
      show (signedExponent ('+' :: ((toString e).toList ++ rest))).map _ = _
      rw [signedExponent, exponentDigits_append e ends.digit]
      rfl
    | negSucc e =>
      show (signedExponent ('-' :: ((toString (e + 1)).toList ++ rest))).map _ = _
      rw [signedExponent, exponentDigits_append (e + 1) ends.digit]
      rfl

/-- Behind the digits of a numeral neither a digit nor a point follows. -/
theorem stops_exponentChars (e : Option Int) (ends : EndsNumber rest) :
    StopsDigits (exponentChars e ++ rest) ∧ (exponentChars e ++ rest).head? ≠ some '.' := by
  match e with
  | none => exact ⟨ends.digit, ends.point⟩
  | some (.ofNat _) | some (.negSucc _) => exact ⟨stopsDigits_cons rfl, by simp [exponentChars]⟩

theorem fraction_chars {f : List Char} (all : ∀ c ∈ f, c.isDigit = true)
    (stop : StopsDigits rest) (point : rest.head? ≠ some '.') :
    fraction ((if f.isEmpty then [] else '.' :: f) ++ rest) = some (f, rest) := by
  cases f with
  | nil =>
    show fraction rest = _
    unfold fraction
    split
    case h_1 => exact absurd rfl point
    case h_2 => rfl
  | cons c f => exact someDigits_append all (List.cons_ne_nil c f) stop

theorem stopsDigits_fraction {f : List Char} (stop : StopsDigits rest) :
    StopsDigits ((if f.isEmpty then [] else '.' :: f) ++ rest) := by
  cases f with
  | nil => exact stop
  | cons c f => exact stopsDigits_cons rfl

theorem whole_chars {n : Numeral} (formed : n.WellFormed) (stop : StopsDigits rest) :
    whole (n.whole ++ rest) = some (n.whole, rest) := by
  by_cases zero : n.whole.head? = some '0'
  · rw [formed.lead zero]
    show (if rest.head?.any Char.isDigit then none else some (['0'], rest)) = _
    rw [if_neg]
    cases rest with
    | nil => simp
    | cons c rest => simpa using stop c rfl
  · unfold whole
    split
    case h_1 h =>
      obtain ⟨c, cs, long⟩ := List.exists_cons_of_ne_nil formed.nonempty
      rw [long] at h zero
      exact absurd (congrArg some (List.cons.inj h).1) zero
    case h_2 => exact someDigits_append formed.whole formed.nonempty stop

theorem unsignedNumber_chars {n : Numeral} (formed : n.WellFormed) (ends : EndsNumber rest) :
    unsignedNumber n.negative (n.whole ++ ((if n.fraction.isEmpty then [] else '.' :: n.fraction) ++
      (exponentChars n.exponent ++ rest))) = some (n, rest) := by
  obtain ⟨stop, point⟩ := stops_exponentChars n.exponent ends
  rw [unsignedNumber, whole_chars formed (stopsDigits_fraction stop)]
  show (fraction _).bind _ = _
  rw [fraction_chars formed.fraction stop point]
  show (exponent _).bind _ = _
  rw [exponent_chars n.exponent ends]
  rfl

/-- The first character of a numeral. -/
theorem exists_chars_cons {n : Numeral} (formed : n.WellFormed) :
    ∃ c cs, n.chars = c :: cs ∧ (c = '-' ∨ c.isDigit = true) := by
  obtain ⟨c, cs, long⟩ := List.exists_cons_of_ne_nil formed.nonempty
  rw [Numeral.chars_eq, long]
  cases n.negative with
  | true => exact ⟨_, _, rfl, .inl rfl⟩
  | false =>
    refine ⟨_, _, rfl, .inr (formed.whole c ?_)⟩
    rw [long]
    exact List.mem_cons_self

/-- **A numeral is read back** where no further digit, point or exponent follows. -/
theorem number_chars {n : Numeral} (formed : n.WellFormed) (ends : EndsNumber rest) :
    Reader.number (n.chars ++ rest) = some (n, rest) := by
  have unsigned := unsignedNumber_chars formed ends
  rw [Numeral.chars_eq]
  simp only [List.append_assoc]
  cases sign : n.negative with
  | true =>
    rw [sign] at unsigned
    exact unsigned
  | false =>
    rw [sign] at unsigned
    -- a numeral without a sign begins with a digit, which the reader does not take for one
    obtain ⟨c, cs, long⟩ := List.exists_cons_of_ne_nil formed.nonempty
    have digit : c.isDigit = true := formed.whole c (by rw [long]; exact List.mem_cons_self)
    rw [long] at unsigned ⊢
    unfold Reader.number
    split
    case h_1 h =>
      rw [(List.cons.inj h).1] at digit
      exact absurd digit (by decide)
    case h_2 => exact unsigned

end Number

/-! ## Values -/

mutual

/-- A value that its text tells: texts are known, and numerals can be written. -/
def Printable : Json → Prop
  | .null | .bool _ => True
  | .number n => n.WellFormed
  | .text t => t.isSome = true
  | .array vs => PrintableItems vs
  | .object ms => PrintableMembers ms

def PrintableItems : List Json → Prop
  | [] => True
  | v :: vs => Printable v ∧ PrintableItems vs

def PrintableMembers : List (Option String × Json) → Prop
  | [] => True
  | (k, v) :: ms => k.isSome = true ∧ Printable v ∧ PrintableMembers ms

end

section Value

variable {rest : List Char}

theorem isSpacing_of_isDigit {c : Char} (h : c = '-' ∨ c.isDigit = true) : isSpacing c = false := by
  rcases h with rfl | h
  · decide
  · by_contra blank
    simp only [isSpacing, Bool.not_eq_false, Bool.or_eq_true, decide_eq_true_eq] at blank
    rcases blank with ((rfl | rfl) | rfl) | rfl <;> exact absurd h (by decide)

/-- The first character of a value is no blank and closes no array. -/
theorem exists_chars_cons_of_printable {v : Json} (printable : v.Printable) :
    ∃ c cs, v.chars = c :: cs ∧ isSpacing c = false ∧ c ≠ ']' := by
  cases v with
  | null => exact ⟨'n', _, rfl, by decide, by decide⟩
  | bool b =>
    cases b with
    | true => exact ⟨'t', _, rfl, by decide, by decide⟩
    | false => exact ⟨'f', _, rfl, by decide, by decide⟩
  | number n =>
    rw [Printable] at printable
    obtain ⟨c, cs, chars, first⟩ := exists_chars_cons printable
    refine ⟨c, cs, chars, isSpacing_of_isDigit first, ?_⟩
    rintro rfl
    exact absurd first (by decide)
  | text t => exact ⟨'"', _, rfl, by decide, by decide⟩
  | array vs => exact ⟨'[', _, rfl, by decide, by decide⟩
  | object ms => exact ⟨'{', _, rfl, by decide, by decide⟩

theorem exists_itemChars_cons {v : Json} {vs : List Json} (printable : PrintableItems (v :: vs)) :
    ∃ c cs, itemChars (v :: vs) = c :: cs ∧ isSpacing c = false ∧ c ≠ ']' := by
  obtain ⟨c, cs, long, solid, opens⟩ := exists_chars_cons_of_printable printable.1
  cases vs with
  | nil => exact ⟨c, cs, long, solid, opens⟩
  | cons w vs =>
    refine ⟨c, cs ++ ',' :: itemChars (w :: vs), ?_, solid, opens⟩
    rw [itemChars, long, List.cons_append]

/-- What begins with neither a bracket, a quote nor the letter of a word is read as a number. -/
theorem value_of_digit {c : Char} {cs : List Char} (first : c = '-' ∨ c.isDigit = true)
    (budget : Nat) : Reader.value (budget + 1) (c :: cs) =
      (Reader.number (c :: cs)).map fun (n, rest) => (.number n, rest) := by
  have other : ∀ c' : Char, ¬ (c' = '-' ∨ c'.isDigit = true) → c ≠ c' := by
    rintro c' no rfl
    exact no first
  rw [Reader.value, skipBlanks_cons (isSpacing_of_isDigit first)]
  split
  case h_7 => rfl
  all_goals
    rename_i h
    exact absurd (List.cons.inj h).1 (other _ (by decide))

/-- What begins with a bracket that is not closed at once is read as an array. -/
theorem value_of_bracket {c : Char} {cs : List Char} (solid : isSpacing c = false) (opens : c ≠ ']')
    (budget : Nat) : Reader.value (budget + 1) ('[' :: c :: cs) =
      (Reader.items budget (c :: cs)).map fun (vs, rest) => (.array vs, rest) := by
  have outer : skipBlanks ('[' :: c :: cs) = '[' :: c :: cs := skipBlanks_cons rfl
  simp only [Reader.value, outer, skipBlanks_cons solid]
  split
  case h_1 h => exact absurd (List.cons.inj h).1 opens
  case h_2 => rfl

/-- What stands behind the key of a member. -/
theorem members_of_key (k : String) (cs : List Char) (budget : Nat) :
    Reader.members (budget + 1) (textChars k ++ ':' :: cs) =
      (Reader.value budget cs).bind fun (v, rest) =>
        match skipBlanks rest with
        | '}' :: rest => some ([(some k, v)], rest)
        | ',' :: rest =>
          (Reader.members budget rest).map fun (ms, rest) => ((some k, v) :: ms, rest)
        | _ => none := by
  show (Reader.text (k.toList.flatMap escapeChar ++ ['"'] ++ ':' :: cs)).bind _ = _
  rw [List.append_assoc, List.singleton_append, text_textChars]
  rfl

mutual

/-- A printable value is read back from its text, whatever follows that does not continue a number.
Two units of the budget for each character are enough. -/
theorem value_chars : ∀ (v : Json) (budget : Nat) (rest : List Char), v.Printable →
    EndsNumber rest → 2 * v.chars.length ≤ budget + 1 →
    Reader.value budget (v.chars ++ rest) = some (v, rest)
  | .null, budget + 1, rest, _, _, _ => rfl
  | .bool true, budget + 1, rest, _, _, _ => rfl
  | .bool false, budget + 1, rest, _, _, _ => rfl
  | .number n, budget + 1, rest, printable, ends, _ => by
    rw [Printable] at printable
    obtain ⟨c, cs, long, first⟩ := exists_chars_cons printable
    have read := number_chars printable ends
    show Reader.value (budget + 1) (n.chars ++ rest) = _
    rw [long] at read ⊢
    rw [List.cons_append, value_of_digit first, ← List.cons_append, read]
    rfl
  | .text (some s), budget + 1, rest, _, _, _ => by
    show (Reader.text ((s.toList.flatMap escapeChar ++ ['"']) ++ rest)).map _ = _
    rw [List.append_assoc, List.singleton_append, text_textChars]
    rfl
  | .array [], budget + 1, rest, _, _, _ => rfl
  | .array (v :: vs), budget + 1, rest, printable, _, paid => by
    have length : (Json.array (v :: vs)).chars.length = (itemChars (v :: vs)).length + 2 := by
      simp [chars]
    have read := items_chars (v :: vs) budget rest (List.cons_ne_nil v vs) printable
      (by omega)
    obtain ⟨c, cs, long, solid, opens⟩ := exists_itemChars_cons printable
    show Reader.value (budget + 1) ('[' :: (itemChars (v :: vs) ++ [']'] ++ rest)) = _
    rw [List.append_assoc, List.singleton_append]
    rw [long] at read ⊢
    rw [List.cons_append, value_of_bracket solid opens, ← List.cons_append, read]
    rfl
  | .object [], budget + 1, rest, _, _, _ => rfl
  | .object ((k, v) :: ms), budget + 1, rest, printable, _, paid => by
    have length :
        (Json.object ((k, v) :: ms)).chars.length = (memberChars ((k, v) :: ms)).length + 2 := by
      simp [chars]
    have read := members_chars ((k, v) :: ms) budget rest (List.cons_ne_nil _ ms) printable
      (by omega)
    -- the first key begins with a quote, so that the object is not taken for an empty one
    obtain ⟨cs, long⟩ : ∃ cs, memberChars ((k, v) :: ms) = '"' :: cs := by
      cases ms <;> exact ⟨_, rfl⟩
    show Reader.value (budget + 1) ('{' :: (memberChars ((k, v) :: ms) ++ ['}'] ++ rest)) = _
    rw [List.append_assoc, List.singleton_append]
    rw [long] at read ⊢
    show (Reader.members budget ('"' :: cs ++ '}' :: rest)).map _ = _
    rw [read]
    rfl
  | v, 0, rest, printable, _, paid => by
    -- no value has an empty text
    obtain ⟨c, cs, long, -, -⟩ := exists_chars_cons_of_printable printable
    rw [long, List.length_cons] at paid
    omega

/-- The same of the items of an array up to its closing bracket. -/
theorem items_chars : ∀ (vs : List Json) (budget : Nat) (rest : List Char), vs ≠ [] →
    PrintableItems vs → 2 * (itemChars vs).length ≤ budget →
    Reader.items budget (itemChars vs ++ ']' :: rest) = some (vs, rest)
  | [v], budget + 1, rest, _, printable, paid => by
    have read := value_chars v budget (']' :: rest) printable.1
      (endsNumber_cons (.inr (.inl rfl)) rest) paid
    show Reader.items (budget + 1) (v.chars ++ ']' :: rest) = _
    rw [Reader.items, read]
    rfl
  | v :: w :: vs, budget + 1, rest, _, printable, paid => by
    have length : (itemChars (v :: w :: vs)).length =
        v.chars.length + (itemChars (w :: vs)).length + 1 := by
      simp [itemChars]
      omega
    have read := value_chars v budget (',' :: (itemChars (w :: vs) ++ ']' :: rest))
      printable.1 (endsNumber_cons (.inl rfl) _) (by omega)
    have others := items_chars (w :: vs) budget rest (List.cons_ne_nil w vs) printable.2
      (by omega)
    show Reader.items (budget + 1) (v.chars ++ ',' :: itemChars (w :: vs) ++ ']' :: rest) = _
    rw [List.append_assoc, List.cons_append, Reader.items, read]
    show (Reader.items budget (itemChars (w :: vs) ++ ']' :: rest)).map _ = _
    rw [others]
    rfl
  | v :: vs, 0, rest, _, printable, paid => by
    obtain ⟨c, cs, long, -, -⟩ := exists_itemChars_cons printable
    rw [long, List.length_cons] at paid
    omega

/-- The same of the members of an object up to its closing brace. -/
theorem members_chars : ∀ (ms : List (Option String × Json)) (budget : Nat) (rest : List Char),
    ms ≠ [] → PrintableMembers ms → 2 * (memberChars ms).length ≤ budget →
    Reader.members budget (memberChars ms ++ '}' :: rest) = some (ms, rest)
  | [(some k, v)], budget + 1, rest, _, printable, paid => by
    have length : (memberChars [(some k, v)]).length =
        (textChars k).length + v.chars.length + 1 := by
      simp [memberChars]
      omega
    have read := value_chars v budget ('}' :: rest) printable.2.1
      (endsNumber_cons (.inr (.inr rfl)) rest) (by omega)
    show Reader.members (budget + 1) (textChars k ++ ':' :: v.chars ++ '}' :: rest) = _
    rw [List.append_assoc, List.cons_append, members_of_key, read]
    rfl
  | (some k, v) :: m :: ms, budget + 1, rest, _, printable, paid => by
    have length : (memberChars ((some k, v) :: m :: ms)).length =
        (textChars k).length + v.chars.length + (memberChars (m :: ms)).length + 2 := by
      simp [memberChars]
      omega
    have read := value_chars v budget (',' :: (memberChars (m :: ms) ++ '}' :: rest))
      printable.2.1 (endsNumber_cons (.inl rfl) _) (by omega)
    have others := members_chars (m :: ms) budget rest (List.cons_ne_nil m ms)
      printable.2.2 (by omega)
    show Reader.members (budget + 1)
      (textChars k ++ ':' :: (v.chars ++ ',' :: memberChars (m :: ms)) ++ '}' :: rest) = _
    rw [List.append_assoc, List.cons_append, List.append_assoc, List.cons_append, members_of_key,
      read]
    show (Reader.members budget (memberChars (m :: ms) ++ '}' :: rest)).map _ = _
    rw [others]
    rfl
  | (some k, v) :: ms, 0, rest, _, _, paid => by
    have long : 0 < (memberChars ((some k, v) :: ms)).length := by
      cases ms <;> simp [memberChars, textChars]
    omega

end

end Value

/-! ## Whole texts -/

/-- **A printable value is read back from its text.** -/
theorem parse?_render {v : Json} (printable : v.Printable) : parse? v.render = some v := by
  have paid : 2 * v.chars.length ≤ 2 * v.render.length + 2 + 1 := by
    rw [render, String.length_ofList]
    omega
  have read := value_chars v _ [] printable endsNumber_nil paid
  rw [List.append_nil] at read
  rw [parse?, render, String.toList_ofList]
  rw [render] at read
  rw [read]
  rfl

end GasEscalator.Json
