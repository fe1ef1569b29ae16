import GasEscalator.Address
import GasEscalator.Text.Blank

/-!
# Addresses as text

A text is read as the address that it spells: forty hexadecimal digits in any case, with or without
a mark in front. So an address is read back from its checksummed text, whichever letters the
checksum raises. No spelling holds a blank, so that trimming leaves it alone.
-/
namespace GasEscalator

/-! ## Digits -/

theorem hexValue?_hexDigit : ∀ n < 16, hexValue? (hexDigit n) = some n := by decide

theorem hexValue?_toUpper_hexDigit : ∀ n < 16, hexValue? (hexDigit n).toUpper = some n := by decide

/-- Two spellings with the same values are read alike. -/
theorem ofHexDigits?_congr : ∀ {chars chars' : List Char},
    chars.map hexValue? = chars'.map hexValue? → ofHexDigits? chars = ofHexDigits? chars'
  | [], [], _ => rfl
  | [_], [_], _ => rfl
  | _ :: _ :: rest, _ :: _ :: rest', h => by
    simp only [List.map_cons, List.cons.injEq] at h
    obtain ⟨high, low, others⟩ := h
    rw [ofHexDigits?, ofHexDigits?, high, low, ofHexDigits?_congr others]
  | [], _ :: _, h | _ :: _, [], h | [_], _ :: _ :: _, h | _ :: _ :: _, [_], h => by simp at h

theorem ofHexDigits?_hexDigits (bytes : List UInt8) :
    ofHexDigits? (hexDigits bytes) = some bytes := by
  induction bytes with
  | nil => rfl
  | cons b rest ih =>
    have hb := b.toNat_lt
    have high := hexValue?_hexDigit (b.toNat / 16) (by omega)
    have low := hexValue?_hexDigit (b.toNat % 16) (by omega)
    have whole : 16 * (b.toNat / 16) + b.toNat % 16 = b.toNat := by omega
    show ofHexDigits? (hexDigit (b.toNat / 16) :: hexDigit (b.toNat % 16) :: hexDigits rest) = _
    rw [ofHexDigits?, high, low, ih]
    show some (UInt8.ofNat (16 * (b.toNat / 16) + b.toNat % 16) :: rest) = _
    rw [whole, UInt8.ofNat_toNat]

/-- The case of a digit does not matter. -/
theorem hexValue?_toLower (c : Char) : hexValue? c.toLower = hexValue? c := by
  by_cases low : c.toNat < 91
  · have all : ∀ n < 91, hexValue? (Char.ofNat n).toLower = hexValue? (Char.ofNat n) := by decide
    have here := all c.toNat low
    rwa [Char.ofNat_toNat] at here
  · have same : c.toLower = c := by
      refine dif_neg fun between => low ?_
      have atMost : c.toNat ≤ 90 := UInt32.le_iff_toNat_le.mp between.2
      omega
    rw [same]

theorem toNat_lt_of_hexValue? {c : Char} {v : Nat} (h : hexValue? c = some v) : c.toNat < 103 := by
  have below {last : Char} (atMost : c ≤ last) (low : last.toNat < 103) : c.toNat < 103 :=
    Nat.lt_of_le_of_lt (UInt32.le_iff_toNat_le.mp atMost) low
  unfold hexValue? at h
  split at h
  case isTrue digit => exact below digit.2 (by decide)
  split at h
  case isTrue lower => exact below lower.2 (by decide)
  split at h
  case isTrue upper => exact below upper.2 (by decide)
  case isFalse => cases h

/-- In lowercase a digit is the one of its value. -/
theorem toLower_of_hexValue? {c : Char} {v : Nat} (h : hexValue? c = some v) :
    v < 16 ∧ c.toLower = hexDigit v := by
  have all : ∀ n < 103, (hexValue? (Char.ofNat n)).all fun v =>
      decide (v < 16 ∧ (Char.ofNat n).toLower = hexDigit v) := by decide
  have here := all c.toNat (toNat_lt_of_hexValue? h)
  rw [Char.ofNat_toNat, h] at here
  exact of_decide_eq_true here

theorem map_toLower_of_ofHexDigits? : ∀ {chars : List Char} {bytes : List UInt8},
    ofHexDigits? chars = some bytes → chars.map Char.toLower = hexDigits bytes
  | [], _, h => by
    obtain rfl := Option.some.inj h
    rfl
  | high :: low :: rest, bytes, h => by
    obtain ⟨u, hu, h⟩ := Option.bind_eq_some_iff.mp h
    obtain ⟨v, hv, h⟩ := Option.bind_eq_some_iff.mp h
    obtain ⟨others, read, h⟩ := Option.bind_eq_some_iff.mp h
    obtain rfl := Option.some.inj h
    obtain ⟨hu16, upper⟩ := toLower_of_hexValue? hu
    obtain ⟨hv16, lower⟩ := toLower_of_hexValue? hv
    have value : (UInt8.ofNat (16 * u + v)).toNat = 16 * u + v := by
      rw [UInt8.toNat_ofNat']
      omega
    have quotient : (16 * u + v) / 16 = u := by omega
    have remainder : (16 * u + v) % 16 = v := by omega
    show _ = hexDigit ((UInt8.ofNat (16 * u + v)).toNat / 16) ::
      hexDigit ((UInt8.ofNat (16 * u + v)).toNat % 16) :: hexDigits others
    rw [List.map_cons, List.map_cons, upper, lower, map_toLower_of_ofHexDigits? read, value,
      quotient, remainder]

/-- Digits are read as the bytes that they show in lowercase. -/
theorem ofHexDigits?_eq_some_iff {chars : List Char} {bytes : List UInt8} :
    ofHexDigits? chars = some bytes ↔ chars.map Char.toLower = hexDigits bytes := by
  refine ⟨map_toLower_of_ofHexDigits?, fun same => ?_⟩
  have values : chars.map hexValue? = (hexDigits bytes).map hexValue? := by
    rw [← same, List.map_map]
    exact List.map_congr_left fun c _ => (hexValue?_toLower c).symm
  exact (ofHexDigits?_congr values).trans (ofHexDigits?_hexDigits bytes)

/-- A digit of some bytes is one of the sixteen. -/
theorem exists_of_mem_hexDigits {c : Char} {bytes : List UInt8} (h : c ∈ hexDigits bytes) :
    ∃ n < 16, c = hexDigit n := by
  obtain ⟨b, -, h⟩ := List.mem_flatMap.mp h
  have hb := b.toNat_lt
  rcases List.mem_cons.mp h with rfl | h
  · exact ⟨b.toNat / 16, by omega, rfl⟩
  · exact ⟨b.toNat % 16, by omega, List.mem_singleton.mp h⟩

theorem exists_value_of_mem {chars : List Char} {bytes : List UInt8} {c : Char}
    (shown : chars.map Char.toLower = hexDigits bytes) (h : c ∈ chars) :
    ∃ v, hexValue? c = some v := by
  obtain ⟨n, small, lower⟩ := exists_of_mem_hexDigits (shown ▸ List.mem_map_of_mem h)
  exact ⟨n, by rw [← hexValue?_toLower, lower, hexValue?_hexDigit n small]⟩

theorem length_hexDigits (bytes : List UInt8) : (hexDigits bytes).length = 2 * bytes.length := by
  induction bytes with
  | nil => rfl
  | cons b rest ih =>
    show (hexDigits rest).length + 1 + 1 = 2 * (rest.length + 1)
    omega

theorem length_nibbles (bytes : List UInt8) :
    (Address.nibbles bytes).length = 2 * bytes.length := by
  induction bytes with
  | nil => rfl
  | cons b rest ih =>
    show (Address.nibbles rest).length + 1 + 1 = 2 * (rest.length + 1)
    omega

/-- A choice for each element that a function does not see leaves its values as they are. -/
theorem map_zipWith_eq {α β γ : Type} {f : α → β → α} {g : α → γ} {l : List α} {l' : List β}
    (kept : ∀ a ∈ l, ∀ b, g (f a b) = g a) (long : l.length ≤ l'.length) :
    (List.zipWith f l l').map g = l.map g := by
  induction l generalizing l' with
  | nil => rfl
  | cons a l ih =>
    cases l' with
    | nil => simp at long
    | cons b l' =>
      have rest := ih (fun a ha => kept a (List.mem_cons_of_mem _ ha)) (Nat.le_of_succ_le_succ long)
      rw [List.zipWith_cons_cons, List.map_cons, List.map_cons, rest, kept a List.mem_cons_self]

/-! ## Blanks -/

/-- The printable characters of ASCII other than the space are no blanks. -/
theorem isBlank_eq_false {c : Char} (low : 0x21 ≤ c.toNat) (high : c.toNat ≤ 0x7e) :
    isBlank c = false := by
  simp only [isBlank, Bool.or_eq_false_iff, Bool.and_eq_false_iff, decide_eq_false_iff_not]
  omega

/-- A character between two printable ones is no blank. -/
theorem isBlank_of_mem_range {c first last : Char} (atLeast : first ≤ c) (atMost : c ≤ last)
    (low : 0x21 ≤ first.toNat) (high : last.toNat ≤ 0x7e) : isBlank c = false := by
  have above : first.toNat ≤ c.toNat := UInt32.le_iff_toNat_le.mp atLeast
  have below : c.toNat ≤ last.toNat := UInt32.le_iff_toNat_le.mp atMost
  exact isBlank_eq_false (by omega) (by omega)

/-- A hexadecimal digit is no blank. -/
theorem isBlank_of_hexValue? {c : Char} {v : Nat} (h : hexValue? c = some v) :
    isBlank c = false := by
  unfold hexValue? at h
  split at h
  case isTrue digit => exact isBlank_of_mem_range digit.1 digit.2 (by decide) (by decide)
  split at h
  case isTrue lower => exact isBlank_of_mem_range lower.1 lower.2 (by decide) (by decide)
  split at h
  case isTrue upper => exact isBlank_of_mem_range upper.1 upper.2 (by decide) (by decide)
  case isFalse => cases h

/-- A text without the blanks at its two ends. -/
structure IsTrimmed (text trimmed : String) : Prop where
  blanks : ∃ front back, text.toList = front ++ trimmed.toList ++ back ∧
    ∀ c ∈ front ++ back, isBlank c = true
  first : ∀ c, trimmed.toList.head? = some c → isBlank c = false
  last : ∀ c, trimmed.toList.getLast? = some c → isBlank c = false

theorem isBlank_of_mem_takeWhile {chars : List Char} {c : Char}
    (h : c ∈ chars.takeWhile isBlank) : isBlank c = true :=
  List.all_eq_true.mp List.all_takeWhile c h

theorem isBlank_of_head?_dropWhile {chars : List Char} {c : Char}
    (h : (chars.dropWhile isBlank).head? = some c) : isBlank c = false := by
  have first := List.head?_dropWhile_not isBlank chars
  rwa [h] at first

theorem isTrimmed_trim (text : String) : IsTrimmed text (trim text) := by
  obtain ⟨back, blank, inner⟩ : ∃ back, (∀ c ∈ back, isBlank c = true) ∧
      text.toList.dropWhile isBlank = trimChars text.toList ++ back := by
    refine ⟨((text.toList.dropWhile isBlank).reverse.takeWhile isBlank).reverse, ?_, ?_⟩
    · exact fun c hc => isBlank_of_mem_takeWhile (List.mem_reverse.mp hc)
    · rw [trimChars, ← List.reverse_append, List.takeWhile_append_dropWhile, List.reverse_reverse]
  have chars : (trim text).toList = trimChars text.toList := String.toList_ofList
  refine ⟨⟨text.toList.takeWhile isBlank, back, ?_, ?_⟩, ?_, ?_⟩
  · rw [chars, List.append_assoc, ← inner, List.takeWhile_append_dropWhile]
  · intro c hc
    exact (List.mem_append.mp hc).elim isBlank_of_mem_takeWhile (blank c)
  · intro c hc
    have first : (text.toList.dropWhile isBlank).head? = some c := by
      rw [inner, List.head?_append, ← chars, hc]
      rfl
    exact isBlank_of_head?_dropWhile first
  · intro c hc
    rw [chars, trimChars, List.getLast?_reverse] at hc
    exact isBlank_of_head?_dropWhile hc

theorem dropWhile_isBlank_of_head? {chars : List Char}
    (first : ∀ c, chars.head? = some c → isBlank c = false) : chars.dropWhile isBlank = chars := by
  cases chars with
  | nil => rfl
  | cons c rest => exact List.dropWhile_cons_of_neg (by simp [first c rfl])

/-- The blanks on both sides go, whether or not anything stands between them. -/
theorem trimChars_of_blanks {front inner back : List Char}
    (blank : ∀ c ∈ front ++ back, isBlank c = true)
    (first : ∀ c, inner.head? = some c → isBlank c = false)
    (last : ∀ c, inner.getLast? = some c → isBlank c = false) :
    trimChars (front ++ inner ++ back) = inner := by
  have before : ∀ c ∈ front, isBlank c = true :=
    fun c hc => blank c (List.mem_append_left back hc)
  have behind : ∀ c ∈ back, isBlank c = true :=
    fun c hc => blank c (List.mem_append_right front hc)
  rw [trimChars, List.append_assoc, List.dropWhile_append_of_pos before]
  cases inner with
  | nil =>
    have gone : (back ++ []).dropWhile isBlank = [] := List.dropWhile_append_of_pos behind
    rw [List.append_nil] at gone
    rw [List.nil_append, gone]
    rfl
  | cons c rest =>
    have backwards : ∀ c ∈ back.reverse, isBlank c = true :=
      fun c hc => behind c (List.mem_reverse.mp hc)
    have stays : (c :: rest ++ back).dropWhile isBlank = c :: rest ++ back :=
      dropWhile_isBlank_of_head? first
    have kept : (c :: rest).reverse.dropWhile isBlank = (c :: rest).reverse :=
      dropWhile_isBlank_of_head? fun d hd => last d (by rwa [List.head?_reverse] at hd)
    rw [stays, List.reverse_append, List.dropWhile_append_of_pos backwards, kept,
      List.reverse_reverse]

/-- There is one way to take the blanks around a text away. -/
theorem isTrimmed_iff {text trimmed : String} : IsTrimmed text trimmed ↔ trimmed = trim text := by
  constructor
  · rintro ⟨⟨front, back, split, blank⟩, first, last⟩
    rw [trim, split, trimChars_of_blanks blank first last, String.ofList_toList]
  · rintro rfl
    exact isTrimmed_trim text

theorem trim_eq_self {text : String} (solid : ∀ c ∈ text.toList, isBlank c = false) :
    trim text = text := by
  refine (isTrimmed_iff.mp ⟨⟨[], [], by simp, nofun⟩, ?_, ?_⟩).symm
  · exact fun c hc => solid c (List.mem_of_head? hc)
  · exact fun c hc => solid c (List.mem_of_getLast? hc)

/-! ## Spellings -/

theorem exists_mark (chars : List Char) :
    ∃ mark ∈ [[], ['0', 'x'], ['0', 'X']], chars = mark ++ dropHexMark chars := by
  unfold dropHexMark
  split
  case h_1 => exact ⟨['0', 'x'], by simp, rfl⟩
  case h_2 => exact ⟨['0', 'X'], by simp, rfl⟩
  case h_3 => exact ⟨[], by simp, rfl⟩

/-- Digits alone do not begin with a mark. -/
theorem dropHexMark_of_digits {chars : List Char}
    (digits : ∀ c ∈ chars, ∃ v, hexValue? c = some v) : dropHexMark chars = chars := by
  unfold dropHexMark
  split
  case h_1 =>
    obtain ⟨v, value⟩ := digits 'x' (by simp)
    exact absurd value (by decide +revert)
  case h_2 =>
    obtain ⟨v, value⟩ := digits 'X' (by simp)
    exact absurd value (by decide +revert)
  case h_3 => rfl

namespace Address

/-- A text spells an address: the forty digits of the address in any case, with or without a mark in
front. -/
def Spells (text : String) (a : Address) : Prop :=
  ∃ mark digits, mark ∈ [[], ['0', 'x'], ['0', 'X']] ∧ text.toList = mark ++ digits ∧
    digits.map Char.toLower = hexDigits a.toList

variable {text : String} {a : Address}

theorem ofText?_eq_some_iff : ofText? text = some a ↔ Spells text a := by
  have read : ofText? text = some a ↔ ofHexDigits? (dropHexMark text.toList) = some a.toList := by
    constructor
    · intro h
      obtain ⟨bytes, read, sized⟩ := Option.bind_eq_some_iff.mp h
      rw [Bytes.ofList?] at sized
      split at sized
      · obtain rfl := Option.some.inj sized
        exact read
      · cases sized
    · intro h
      rw [ofText?, h]
      exact dif_pos a.length_toList
  rw [read, ofHexDigits?_eq_some_iff]
  constructor
  · intro shown
    obtain ⟨mark, known, split⟩ := exists_mark text.toList
    exact ⟨mark, _, known, split, shown⟩
  · rintro ⟨mark, digits, known, split, shown⟩
    have plain : dropHexMark digits = digits :=
      dropHexMark_of_digits fun c => exists_value_of_mem shown
    have dropped : dropHexMark text.toList = digits := by
      rw [split]
      simp only [List.mem_cons, List.not_mem_nil, or_false] at known
      rcases known with rfl | rfl | rfl
      · exact plain
      · rfl
      · rfl
    rw [dropped, shown]

theorem Spells.isEmpty_eq_false (spells : Spells text a) : text.isEmpty = false := by
  cases blank : text.isEmpty with
  | false => rfl
  | true =>
    obtain rfl := String.isEmpty_iff.mp blank
    have unread : ofText? "" = none := by decide
    rw [ofText?_eq_some_iff.mpr spells] at unread
    cases unread

theorem Spells.trim_eq (spells : Spells text a) : trim text = text := by
  obtain ⟨mark, digits, known, split, shown⟩ := spells
  apply trim_eq_self
  intro c hc
  rw [split] at hc
  rcases List.mem_append.mp hc with hc | hc
  · have solid : ∀ mark ∈ [[], ['0', 'x'], ['0', 'X']], mark.any isBlank = false := by decide
    simpa using List.any_eq_false.mp (solid mark known) c hc
  · obtain ⟨v, value⟩ := exists_value_of_mem shown hc
    exact isBlank_of_hexValue? value

end Address

/-! ## Checksums -/

namespace Address

variable (a : Address)

/-- The checksum changes no value. -/
theorem map_hexValue?_checksumDigits :
    a.checksumDigits.map hexValue? = (hexDigits a.toList).map hexValue? := by
  refine map_zipWith_eq ?_ ?_
  · intro c hc n
    obtain ⟨v, small, rfl⟩ := exists_of_mem_hexDigits hc
    split
    · rw [hexValue?_toUpper_hexDigit v small, hexValue?_hexDigit v small]
    · rfl
  · rw [length_hexDigits, length_nibbles, a.length_toList, Bytes.length_toList]
    decide

theorem ofText?_checksumText : ofText? a.checksumText = some a := by
  have digits : ofHexDigits? a.checksumDigits = some a.toList :=
    (ofHexDigits?_congr a.map_hexValue?_checksumDigits).trans (ofHexDigits?_hexDigits a.toList)
  rw [ofText?, checksumText, String.toList_ofList, dropHexMark, digits]
  exact dif_pos a.length_toList

theorem trim_checksumText : trim a.checksumText = a.checksumText :=
  (ofText?_eq_some_iff.mp a.ofText?_checksumText).trim_eq

end Address

end GasEscalator
