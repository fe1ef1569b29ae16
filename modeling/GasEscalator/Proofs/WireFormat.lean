import GasEscalator.Transaction.Wire
import Mathlib.Logic.ExistsUnique

/-!
# Wire forms are exact

Each reader takes from the front of the bytes exactly what the writer of its field put there and
leaves the rest alone; and what it took, it took because the bytes begin with what that writer makes
of the value. Lengths are written in four bytes, so that only shorter byte strings are read back. No
value has two spellings: the widths are fixed, the tag of the recipient has one value for each case,
and nothing may follow the last field.
-/
namespace GasEscalator

/-- One more than the longest length that four bytes hold. -/
abbrev Wire.lengthBound : Nat := 0x100000000

/-- The lengths of a transaction's byte strings can be written. -/
structure SignedTx.Fits (tx : SignedTx) : Prop where
  data : tx.payload.data.length < Wire.lengthBound
  signature : tx.signature.length < Wire.lengthBound

namespace Wire

variable {α β : Type}

/-- A reader that is through with its field hands over to the next. -/
theorem bind_of_ok {r : Reader α} {next : α → Reader β} {bytes rest : List UInt8} {a : α}
    (h : r bytes = .ok (a, rest)) : (r >>= next) bytes = next a rest := by
  show (r bytes >>= fun p => next p.1 p.2) = next a rest
  rw [h]
  rfl

theorem pure_apply (a : α) (bytes : List UInt8) : (pure a : Reader α) bytes = .ok (a, bytes) := rfl

/-- What two readers took in turn, the first of them took from the front. -/
theorem bind_eq_ok {r : Reader α} {next : α → Reader β} {bytes : List UInt8}
    {out : β × List UInt8} :
    (r >>= next) bytes = .ok out ↔ ∃ a mid, r bytes = .ok (a, mid) ∧ next a mid = .ok out := by
  show (r bytes >>= fun p => next p.1 p.2) = .ok out ↔ _
  cases r bytes with
  | error e => exact ⟨nofun, nofun⟩
  | ok p =>
    constructor
    · exact fun h => ⟨p.1, p.2, rfl, h⟩
    · rintro ⟨a, mid, same, h⟩
      cases same
      exact h

/-- Of two readers in turn the first that fails is the fault. -/
theorem bind_eq_error {r : Reader α} {next : α → Reader β} {bytes : List UInt8} {e : DecodeError} :
    (r >>= next) bytes = .error e ↔
      r bytes = .error e ∨ ∃ a mid, r bytes = .ok (a, mid) ∧ next a mid = .error e := by
  show (r bytes >>= fun p => next p.1 p.2) = .error e ↔ _
  cases r bytes with
  | error e' =>
    constructor
    · intro h
      cases h
      exact .inl rfl
    · rintro (h | ⟨_, _, h, -⟩)
      · cases h
        rfl
      · cases h
  | ok p =>
    constructor
    · exact fun h => .inr ⟨p.1, p.2, rfl, h⟩
    · rintro (h | ⟨a, mid, same, h⟩)
      · cases h
      · cases same
        exact h

theorem pure_eq_ok {a b : α} {bytes rest : List UInt8} :
    (pure a : Reader α) bytes = .ok (b, rest) ↔ a = b ∧ bytes = rest := by
  rw [pure_apply, Except.ok.injEq, Prod.mk.injEq]

/-! ## Fields -/

theorem take_append {n : Nat} (b : Bytes n) (rest : List UInt8) :
    take n (b.toList ++ rest) = .ok (b, rest) := by
  have hl := b.length_toList
  have fits : n ≤ (b.toList ++ rest).length := by
    rw [List.length_append]
    omega
  have front : (b.toList ++ rest).take n = b.toList := List.take_left' hl
  have back : (b.toList ++ rest).drop n = rest := List.drop_left' hl
  unfold take
  rw [dif_pos fits, back]
  congr 2
  exact Bytes.ext front

theorem takeNat_littleEndian (width n : Nat) (rest : List UInt8) :
    takeNat width (littleEndian width n ++ rest) = .ok (n % Nat.pow 256 width, rest) := by
  have h := take_append ⟨littleEndian width n, length_littleEndian width n⟩ rest
  rw [takeNat, bind_of_ok h, pure_apply, ofLittleEndian_littleEndian]

theorem takeUInt64_append (n : UInt64) (rest : List UInt8) :
    takeUInt64 (ofUInt64 n ++ rest) = .ok (n, rest) := by
  have hn : n.toNat % Nat.pow 256 8 = n.toNat := Nat.mod_eq_of_lt n.toNat_lt
  rw [takeUInt64, ofUInt64, bind_of_ok (takeNat_littleEndian 8 n.toNat rest), pure_apply, hn,
    UInt64.ofNat_toNat]

theorem takePrice_append (p : Price) (rest : List UInt8) :
    takePrice (ofPrice p ++ rest) = .ok (p, rest) := by
  have hp : p.val % Nat.pow 256 16 = p.val := Nat.mod_eq_of_lt p.isLt
  have same : Fin.ofNat priceCount p.val = p := Fin.ext (Nat.mod_eq_of_lt p.isLt)
  rw [takePrice, ofPrice, bind_of_ok (takeNat_littleEndian 16 p.val rest), pure_apply, hp, same]

theorem takeRecipient_append (a : Option Address) (rest : List UInt8) :
    takeRecipient (ofRecipient a ++ rest) = .ok (a, rest) := by
  cases a with
  | none =>
    have tag : takeNat 1 (0 :: rest) = .ok (0, rest) := takeNat_littleEndian 1 0 rest
    show takeRecipient (0 :: rest) = _
    rw [takeRecipient, bind_of_ok tag]
    rfl
  | some a =>
    have tag : takeNat 1 (1 :: (a.toList ++ rest)) = .ok (1, a.toList ++ rest) :=
      takeNat_littleEndian 1 1 _
    show takeRecipient (1 :: (a.toList ++ rest)) = _
    rw [takeRecipient, bind_of_ok tag]
    show (take 20 >>= fun a => pure (some a)) _ = _
    rw [bind_of_ok (take_append a rest), pure_apply]

theorem takeByteString_append {bytes : List UInt8} (short : bytes.length < lengthBound)
    (rest : List UInt8) : takeByteString (ofByteString bytes ++ rest) = .ok (bytes, rest) := by
  have hn : bytes.length % Nat.pow 256 4 = bytes.length := Nat.mod_eq_of_lt short
  have count := takeNat_littleEndian 4 bytes.length (bytes ++ rest)
  rw [hn] at count
  have content := take_append ⟨bytes, rfl⟩ rest
  rw [takeByteString, ofByteString, List.append_assoc, bind_of_ok count, bind_of_ok content,
    pure_apply]

/-! ## What the bytes of a field are -/

theorem eq_of_take {n : Nat} {b : Bytes n} {bytes rest : List UInt8}
    (h : take n bytes = .ok (b, rest)) : bytes = b.toList ++ rest := by
  unfold take at h
  split at h
  · cases h
    exact (List.take_append_drop n bytes).symm
  · cases h

theorem eq_of_takeNat {width n : Nat} {bytes rest : List UInt8}
    (h : takeNat width bytes = .ok (n, rest)) :
    n < Nat.pow 256 width ∧ bytes = littleEndian width n ++ rest := by
  obtain ⟨b, mid, taken, made⟩ := bind_eq_ok.mp h
  obtain ⟨rfl, rfl⟩ := pure_eq_ok.mp made
  have bound := ofLittleEndian_lt b.toList
  have same := littleEndian_ofLittleEndian b.toList
  rw [b.length_toList] at bound same
  exact ⟨bound, by rw [same]; exact eq_of_take taken⟩

theorem eq_of_takeUInt64 {n : UInt64} {bytes rest : List UInt8}
    (h : takeUInt64 bytes = .ok (n, rest)) : bytes = ofUInt64 n ++ rest := by
  obtain ⟨k, mid, taken, made⟩ := bind_eq_ok.mp h
  obtain ⟨rfl, rfl⟩ := pure_eq_ok.mp made
  obtain ⟨bound, same⟩ := eq_of_takeNat taken
  rw [ofUInt64, UInt64.toNat_ofNat_of_lt' bound]
  exact same

theorem eq_of_takePrice {p : Price} {bytes rest : List UInt8}
    (h : takePrice bytes = .ok (p, rest)) : bytes = ofPrice p ++ rest := by
  obtain ⟨k, mid, taken, made⟩ := bind_eq_ok.mp h
  obtain ⟨rfl, rfl⟩ := pure_eq_ok.mp made
  obtain ⟨bound, same⟩ := eq_of_takeNat taken
  have hk : (Fin.ofNat priceCount k).val = k := Nat.mod_eq_of_lt bound
  rw [ofPrice, hk]
  exact same

/-- The tag decides whether a recipient follows, and no third tag is read. -/
theorem eq_of_takeRecipient {a : Option Address} {bytes rest : List UInt8}
    (h : takeRecipient bytes = .ok (a, rest)) : bytes = ofRecipient a ++ rest := by
  obtain ⟨tag, mid, taken, made⟩ := bind_eq_ok.mp h
  obtain ⟨-, same⟩ := eq_of_takeNat taken
  split at made
  · obtain ⟨rfl, rfl⟩ := pure_eq_ok.mp made
    exact same
  · obtain ⟨address, mid', taken', made'⟩ := bind_eq_ok.mp made
    obtain ⟨rfl, rfl⟩ := pure_eq_ok.mp made'
    rw [same, eq_of_take taken']
    rfl
  · cases made

theorem eq_of_takeByteString {content bytes rest : List UInt8}
    (h : takeByteString bytes = .ok (content, rest)) :
    content.length < lengthBound ∧ bytes = ofByteString content ++ rest := by
  obtain ⟨n, mid, count, made⟩ := bind_eq_ok.mp h
  obtain ⟨b, mid', taken, made'⟩ := bind_eq_ok.mp made
  obtain ⟨rfl, rfl⟩ := pure_eq_ok.mp made'
  obtain ⟨bound, same⟩ := eq_of_takeNat count
  rw [ofByteString, b.length_toList, List.append_assoc, ← eq_of_take taken]
  exact ⟨bound, same⟩

/-! ## Transactions -/

theorem takeUnsigned_append {tx : UnsignedTx} (short : tx.data.length < lengthBound)
    (rest : List UInt8) : takeUnsigned (tx.encode ++ rest) = .ok (tx, rest) := by
  simp only [UnsignedTx.encode, List.append_assoc]
  rw [takeUnsigned, bind_of_ok (takeUInt64_append _ _), bind_of_ok (takePrice_append _ _),
    bind_of_ok (takeUInt64_append _ _), bind_of_ok (takeRecipient_append _ _),
    bind_of_ok (take_append _ _), bind_of_ok (takeByteString_append short _), pure_apply]

theorem takeSigned_append {tx : SignedTx} (fits : tx.Fits) (rest : List UInt8) :
    takeSigned (tx.encode ++ rest) = .ok (tx, rest) := by
  simp only [SignedTx.encode, List.append_assoc]
  rw [takeSigned, bind_of_ok (takeUInt64_append _ _), bind_of_ok (takeUnsigned_append fits.data _),
    bind_of_ok (takeByteString_append fits.signature _), pure_apply]

theorem eq_of_takeUnsigned {tx : UnsignedTx} {bytes rest : List UInt8}
    (h : takeUnsigned bytes = .ok (tx, rest)) :
    tx.data.length < lengthBound ∧ bytes = tx.encode ++ rest := by
  obtain ⟨nonce, b₁, h₁, h⟩ := bind_eq_ok.mp h
  obtain ⟨gasPrice, b₂, h₂, h⟩ := bind_eq_ok.mp h
  obtain ⟨gasLimit, b₃, h₃, h⟩ := bind_eq_ok.mp h
  obtain ⟨recipient, b₄, h₄, h⟩ := bind_eq_ok.mp h
  obtain ⟨value, b₅, h₅, h⟩ := bind_eq_ok.mp h
  obtain ⟨data, b₆, h₆, h⟩ := bind_eq_ok.mp h
  obtain ⟨rfl, rfl⟩ := pure_eq_ok.mp h
  obtain ⟨short, same⟩ := eq_of_takeByteString h₆
  refine ⟨short, ?_⟩
  simp only [UnsignedTx.encode, List.append_assoc]
  rw [eq_of_takeUInt64 h₁, eq_of_takePrice h₂, eq_of_takeUInt64 h₃, eq_of_takeRecipient h₄,
    eq_of_take h₅, same]

theorem eq_of_takeSigned {tx : SignedTx} {bytes rest : List UInt8}
    (h : takeSigned bytes = .ok (tx, rest)) : tx.Fits ∧ bytes = tx.encode ++ rest := by
  obtain ⟨chainId, b₁, h₁, h⟩ := bind_eq_ok.mp h
  obtain ⟨payload, b₂, h₂, h⟩ := bind_eq_ok.mp h
  obtain ⟨signature, b₃, h₃, h⟩ := bind_eq_ok.mp h
  obtain ⟨rfl, rfl⟩ := pure_eq_ok.mp h
  obtain ⟨shortData, samePayload⟩ := eq_of_takeUnsigned h₂
  obtain ⟨shortSignature, sameSignature⟩ := eq_of_takeByteString h₃
  refine ⟨⟨shortData, shortSignature⟩, ?_⟩
  simp only [SignedTx.encode, List.append_assoc]
  rw [eq_of_takeUInt64 h₁, samePayload, sameSignature]

end Wire

namespace SignedTx

/-- A transaction is read back as it was written. -/
theorem decode_encode {tx : SignedTx} (fits : tx.Fits) : decode tx.encode = .ok tx := by
  have read := Wire.takeSigned_append fits []
  rw [List.append_nil] at read
  rw [decode, read]
  rfl

/-- Bytes that are read are the bytes that are written for what was read. -/
theorem encode_of_decode {bytes : List UInt8} {tx : SignedTx} (read : decode bytes = .ok tx) :
    tx.Fits ∧ tx.encode = bytes := by
  unfold decode at read
  cases taken : Wire.takeSigned bytes with
  | error e =>
    rw [taken] at read
    cases read
  | ok out =>
    obtain ⟨got, left⟩ := out
    rw [taken] at read
    have finished : 
        (if left.isEmpty then pure got else throw DecodeError.trailingBytes) = Except.ok tx := read
    split at finished
    case isFalse => cases finished
    case isTrue empty =>
      cases finished
      obtain ⟨fits, same⟩ := Wire.eq_of_takeSigned taken
      rw [List.isEmpty_iff.mp empty, List.append_nil] at same
      exact ⟨fits, same.symm⟩

/-- The gas price stands in front of everything of variable length, so that the wire form tells it
even if the lengths do not fit. -/
theorem gasPrice_eq_of_encode_eq {tx tx' : SignedTx} (same : tx.encode = tx'.encode) :
    tx.gasPrice = tx'.gasPrice := by
  have read (t : SignedTx) : ∃ rest,
      (Wire.takeUInt64 >>= fun _ => Wire.takeUInt64 >>= fun _ => Wire.takePrice) t.encode =
        .ok (t.gasPrice, rest) := by
    simp only [encode, UnsignedTx.encode, List.append_assoc]
    apply Exists.intro
    rw [Wire.bind_of_ok (Wire.takeUInt64_append _ _), Wire.bind_of_ok (Wire.takeUInt64_append _ _)]
    exact Wire.takePrice_append _ _
  obtain ⟨rest, first⟩ := read tx
  obtain ⟨rest', second⟩ := read tx'
  rw [same, second] at first
  exact (Prod.mk.inj (Except.ok.inj first)).1.symm

/-- Transactions that fit and are written alike are the same. -/
theorem encode_inj {tx tx' : SignedTx} (fits : tx.Fits) (fits' : tx'.Fits)
    (same : tx.encode = tx'.encode) : tx = tx' := by
  have read := decode_encode fits
  rw [same, decode_encode fits'] at read
  exact (Except.ok.inj read).symm

end SignedTx

/-- **A wire form is exact in both directions.** A transaction whose byte strings fit is read back
as it was written, and bytes that are read at all are those that are written for what was read;
therefore no two transactions share a wire form, and each has exactly one. -/
theorem wire_form_is_exact :
    (∀ tx : SignedTx, tx.Fits → SignedTx.decode tx.encode = .ok tx) ∧
    (∀ (bytes : List UInt8) (tx : SignedTx),
      SignedTx.decode bytes = .ok tx → tx.Fits ∧ tx.encode = bytes) ∧
    (∀ tx tx' : SignedTx, tx.Fits → tx'.Fits → tx.encode = tx'.encode → tx = tx') ∧
    ∀ tx : SignedTx, tx.Fits → ∃! bytes, SignedTx.decode bytes = .ok tx := by
  refine ⟨fun _ => SignedTx.decode_encode, fun _ _ => SignedTx.encode_of_decode,
    fun _ _ => SignedTx.encode_inj, ?_⟩
  intro tx fits
  refine ⟨tx.encode, SignedTx.decode_encode fits, ?_⟩
  intro bytes read
  exact (SignedTx.encode_of_decode read).2.symm

def Sample.transfer : SignedTx :=
  { chainId := 1
    payload :=
      { nonce := 7, gasPrice := .saturating 300, gasLimit := 21000,
        recipient := some ⟨List.replicate 20 0x33, rfl⟩,
        value := ⟨List.replicate 31 0 ++ [5], rfl⟩, data := [1, 2, 3] }
    signature := [0xaa, 0xbb] }

def Sample.transferBytes : List UInt8 :=
  [1, 0, 0, 0, 0, 0, 0, 0] ++ [7, 0, 0, 0, 0, 0, 0, 0] ++
    ([44, 1] ++ List.replicate 14 0) ++ [8, 82, 0, 0, 0, 0, 0, 0] ++
    (1 :: List.replicate 20 0x33) ++ (List.replicate 31 0 ++ [5]) ++
    [3, 0, 0, 0, 1, 2, 3] ++ [2, 0, 0, 0, 0xaa, 0xbb]

theorem transfer_has_one_wire_form :
    SignedTx.decode Sample.transferBytes = .ok Sample.transfer ∧ Sample.transfer.Fits ∧
    Sample.transfer.encode = Sample.transferBytes ∧
    (∀ tx : SignedTx, tx.Fits → tx.encode = Sample.transferBytes → tx = Sample.transfer) ∧
    ∃! bytes, SignedTx.decode bytes = .ok Sample.transfer := by
  obtain ⟨-, written, distinct, unique⟩ := wire_form_is_exact
  have read : SignedTx.decode Sample.transferBytes = .ok Sample.transfer := by rfl
  obtain ⟨fits, same⟩ := written _ _ read
  refine ⟨read, fits, same, ?_, unique _ fits⟩
  intro tx fitsToo alike
  exact distinct _ _ fitsToo fits (alike.trans same.symm)

end GasEscalator
