import GasEscalator.Proofs.Digits
import GasEscalator.Proofs.WireFormat

/-!
# Damaged wire forms

What a reader tells of some bytes it tells of them with more bytes behind, unless the bytes were
too few. A form that is cut anywhere can therefore only be found too short, for any other answer
would stand for the whole form as well. Conversely bytes that are too few are the front of some
form, since every field can be brought to its end. The one other thing that can be wrong with the
bytes of a form is the tag of the recipient. It stands behind fields of fixed width, which are read
whatever they hold, and it is judged before anything behind it is looked at.
-/
namespace GasEscalator

namespace Wire

variable {α β : Type}

/-! ## Fields of fixed width -/

/-- The reader takes `width` bytes whatever they are, and lacks nothing but bytes. -/
structure Fixed (width : Nat) (r : Reader α) : Prop where
  reads : ∀ {bytes : List UInt8}, width ≤ bytes.length →
    ∃ a, r bytes = .ok (a, bytes.drop width)
  fails : ∀ {bytes : List UInt8}, bytes.length < width → r bytes = .error .unexpectedEnd

theorem fixed_take (n : Nat) : Fixed n (take n) where
  reads enough := ⟨_, dif_pos enough⟩
  fails few := dif_neg (Nat.not_le_of_lt few)

theorem Fixed.map {width : Nat} {r : Reader α} (h : Fixed width r) (f : α → β) :
    Fixed width (r >>= fun a => pure (f a)) where
  reads enough := by
    obtain ⟨a, read⟩ := h.reads enough
    exact ⟨f a, bind_of_ok read⟩
  fails few := bind_eq_error.mpr (.inl (h.fails few))

theorem fixed_takeNat (width : Nat) : Fixed width (takeNat width) := (fixed_take width).map _

theorem fixed_takeUInt64 : Fixed 8 takeUInt64 := (fixed_takeNat 8).map _

theorem fixed_takePrice : Fixed 16 takePrice := (fixed_takeNat 16).map _

theorem Fixed.reads_all {width : Nat} {r : Reader α} (h : Fixed width r) {bytes : List UInt8}
    (length : bytes.length = width) : ∃ a, r bytes = .ok (a, []) := by
  obtain ⟨a, read⟩ := h.reads length.ge
  rw [List.drop_eq_nil_of_le length.le] at read
  exact ⟨a, read⟩

theorem Fixed.of_error {width : Nat} {r : Reader α} (h : Fixed width r) {bytes : List UInt8}
    {e : DecodeError} (fault : r bytes = .error e) :
    bytes.length < width ∧ e = .unexpectedEnd := by
  rcases Nat.lt_or_ge bytes.length width with few | enough
  · rw [h.fails few] at fault
    cases fault
    exact ⟨few, rfl⟩
  · obtain ⟨a, read⟩ := h.reads enough
    rw [read] at fault
    cases fault

/-! ## More bytes behind -/

/-- What the reader tells of some bytes does not change with more bytes behind them, unless they
were too few. -/
structure Steady (r : Reader α) : Prop where
  finishes : ∀ {bytes left : List UInt8} {a : α}, r bytes = .ok (a, left) →
    ∀ more, r (bytes ++ more) = .ok (a, left ++ more)
  insists : ∀ {bytes : List UInt8} {e : DecodeError}, r bytes = .error e → e ≠ .unexpectedEnd →
    ∀ more, r (bytes ++ more) = .error e

theorem steady_pure (a : α) : Steady (pure a) where
  finishes := by
    intro bytes left b h more
    obtain ⟨rfl, rfl⟩ := pure_eq_ok.mp h
    rfl
  insists := nofun

theorem steady_throw (e : DecodeError) : Steady (throw e : Reader α) where
  finishes := nofun
  insists := by
    intro bytes e' h _ more
    cases h
    rfl

theorem steady_take (n : Nat) : Steady (take n) where
  finishes := by
    intro bytes left b h more
    rw [eq_of_take h, List.append_assoc]
    exact take_append b _
  insists fault other := absurd ((fixed_take n).of_error fault).2 other

theorem Steady.bind {r : Reader α} {next : α → Reader β} (h : Steady r)
    (hnext : ∀ a, Steady (next a)) : Steady (r >>= next) where
  finishes := by
    intro bytes left b read more
    obtain ⟨a, mid, first, second⟩ := bind_eq_ok.mp read
    exact bind_eq_ok.mpr ⟨a, mid ++ more, h.finishes first more, (hnext a).finishes second more⟩
  insists := by
    intro bytes e fault other more
    rcases bind_eq_error.mp fault with first | ⟨a, mid, first, second⟩
    · exact bind_eq_error.mpr (.inl (h.insists first other more))
    · exact bind_eq_error.mpr
        (.inr ⟨a, mid ++ more, h.finishes first more, (hnext a).insists second other more⟩)

/-! ## Completion -/

/-- The reader is steady, and bytes that are too few for it can be brought to an end. -/
structure Completable (r : Reader α) : Prop extends Steady r where
  possible : ∃ bytes a, r bytes = .ok (a, [])
  completes : ∀ {bytes : List UInt8}, r bytes = .error .unexpectedEnd →
    ∃ missing a, r (bytes ++ missing) = .ok (a, [])

theorem completable_pure (a : α) : Completable (pure a) where
  toSteady := steady_pure a
  possible := ⟨[], a, rfl⟩
  completes := nofun

theorem completable_take (n : Nat) : Completable (take n) where
  toSteady := steady_take n
  possible := ⟨_, (fixed_take n).reads_all (Bytes.zero n).length_toList⟩
  completes := by
    intro bytes short
    have few := ((fixed_take n).of_error short).1
    have length : (bytes ++ List.replicate (n - bytes.length) 0).length = n := by
      rw [List.length_append, List.length_replicate]
      omega
    exact ⟨_, (fixed_take n).reads_all length⟩

theorem Completable.bind {r : Reader α} {next : α → Reader β} (h : Completable r)
    (hnext : ∀ a, Completable (next a)) : Completable (r >>= next) where
  toSteady := h.toSteady.bind fun a => (hnext a).toSteady
  possible := by
    obtain ⟨front, a, first⟩ := h.possible
    obtain ⟨back, b, second⟩ := (hnext a).possible
    exact ⟨front ++ back, b, bind_eq_ok.mpr ⟨a, back, h.finishes first back, second⟩⟩
  completes := by
    intro bytes short
    rcases bind_eq_error.mp short with first | ⟨a, mid, first, second⟩
    · obtain ⟨missing, a, first⟩ := h.completes first
      obtain ⟨back, b, second⟩ := (hnext a).possible
      refine ⟨missing ++ back, b, bind_eq_ok.mpr ⟨a, back, ?_, second⟩⟩
      rw [← List.append_assoc]
      exact h.finishes first back
    · obtain ⟨missing, b, second⟩ := (hnext a).completes second
      exact ⟨missing, b, bind_eq_ok.mpr ⟨a, mid ++ missing, h.finishes first missing, second⟩⟩

theorem completable_takeNat (width : Nat) : Completable (takeNat width) :=
  (completable_take width).bind fun _ => completable_pure _

theorem completable_takeUInt64 : Completable takeUInt64 :=
  (completable_takeNat 8).bind fun _ => completable_pure _

theorem completable_takePrice : Completable takePrice :=
  (completable_takeNat 16).bind fun _ => completable_pure _

theorem completable_takeByteString : Completable takeByteString :=
  (completable_takeNat 4).bind fun n => (completable_take n).bind fun _ => completable_pure _

/-- A tag without its recipient can be completed if it is one of the two, and no tag at all in any
case; but a bad tag has no completion, so that this is not the completion of one part after the
other. -/
theorem completable_takeRecipient : Completable takeRecipient := by
  have address : Completable (take 20 >>= fun a => pure (some a)) :=
    (completable_take 20).bind fun _ => completable_pure _
  constructor
  case toSteady =>
    refine (completable_takeNat 1).toSteady.bind fun tag => ?_
    split
    · exact steady_pure none
    · exact address.toSteady
    · exact steady_throw _
  case possible => exact ⟨ofRecipient none, none, takeRecipient_append none []⟩
  case completes =>
    intro bytes short
    rcases bind_eq_error.mp short with first | ⟨tag, mid, first, second⟩
    · have few := ((fixed_takeNat 1).of_error first).1
      obtain rfl : bytes = [] := List.eq_nil_of_length_eq_zero (by omega)
      exact ⟨ofRecipient none, none, takeRecipient_append none []⟩
    · have more (missing : List UInt8) : takeNat 1 (bytes ++ missing) = .ok (tag, mid ++ missing) :=
        (completable_takeNat 1).finishes first missing
      split at second
      · cases second
      · obtain ⟨missing, a, completed⟩ := address.completes second
        exact ⟨missing, a, (bind_of_ok (more missing)).trans completed⟩
      · cases second

theorem completable_takeUnsigned : Completable takeUnsigned :=
  completable_takeUInt64.bind fun _ => completable_takePrice.bind fun _ =>
    completable_takeUInt64.bind fun _ => completable_takeRecipient.bind fun _ =>
      (completable_take 32).bind fun _ => completable_takeByteString.bind fun _ =>
        completable_pure _

theorem completable_takeSigned : Completable takeSigned :=
  completable_takeUInt64.bind fun _ => completable_takeUnsigned.bind fun _ =>
    completable_takeByteString.bind fun _ => completable_pure _

/-! ## Faults -/

/-- The reader finds no fault but a lack of bytes. -/
def Lenient (r : Reader α) : Prop := ∀ bytes e, r bytes = .error e → e = .unexpectedEnd

theorem lenient_pure (a : α) : Lenient (pure a) := nofun

theorem Fixed.lenient {width : Nat} {r : Reader α} (h : Fixed width r) : Lenient r :=
  fun _ _ fault => (h.of_error fault).2

theorem Lenient.bind {r : Reader α} {next : α → Reader β} (h : Lenient r)
    (hnext : ∀ a, Lenient (next a)) : Lenient (r >>= next) := by
  intro bytes e fault
  rcases bind_eq_error.mp fault with first | ⟨a, mid, -, second⟩
  · exact h _ _ first
  · exact hnext a _ _ second

theorem lenient_takeByteString : Lenient takeByteString :=
  (fixed_takeNat 4).lenient.bind fun n => (fixed_take n).lenient.bind fun _ => lenient_pure _

/-- The byte at the place is there and is no tag of a recipient. -/
def BadTagAt (place : Nat) (bytes : List UInt8) (tag : UInt8) : Prop :=
  bytes[place]? = some tag ∧ tag ≠ 0 ∧ tag ≠ 1

theorem badTagAt_drop {place width : Nat} {bytes : List UInt8} {tag : UInt8} :
    BadTagAt place (bytes.drop width) tag ↔ BadTagAt (width + place) bytes tag := by
  rw [BadTagAt, List.getElem?_drop, BadTagAt]

/-- Apart from a lack of bytes the reader finds a bad tag at the place, and always does so. -/
structure Checks (place : Nat) (r : Reader α) : Prop where
  fault : ∀ {bytes : List UInt8} {e : DecodeError}, r bytes = .error e →
    e = .unexpectedEnd ∨ ∃ tag, BadTagAt place bytes tag ∧ e = .badRecipientTag tag
  objects : ∀ {bytes : List UInt8} {tag : UInt8}, BadTagAt place bytes tag →
    r bytes = .error (.badRecipientTag tag)

theorem Checks.bind {place : Nat} {r : Reader α} {next : α → Reader β} (h : Checks place r)
    (hnext : ∀ a, Lenient (next a)) : Checks place (r >>= next) where
  fault := by
    intro bytes e fault
    rcases bind_eq_error.mp fault with first | ⟨a, mid, -, second⟩
    · exact h.fault first
    · exact .inl (hnext a _ _ second)
  objects bad := bind_eq_error.mpr (.inl (h.objects bad))

theorem Fixed.checks {width place : Nat} {r : Reader α} {next : α → Reader β} (h : Fixed width r)
    (hnext : ∀ a, Checks place (next a)) : Checks (width + place) (r >>= next) where
  fault := by
    intro bytes e fault
    rcases Nat.lt_or_ge bytes.length width with few | enough
    · rw [bind_eq_error.mpr (.inl (h.fails few))] at fault
      cases fault
      exact .inl rfl
    · obtain ⟨a, read⟩ := h.reads enough
      rw [bind_of_ok read] at fault
      simpa only [badTagAt_drop] using (hnext a).fault fault
  objects := by
    intro bytes tag bad
    obtain ⟨inside, -⟩ := List.getElem?_eq_some_iff.mp bad.1
    obtain ⟨a, read⟩ := h.reads (show width ≤ bytes.length by omega)
    rw [bind_of_ok read]
    exact (hnext a).objects (badTagAt_drop.mpr bad)

theorem takeNat_one (b : UInt8) (rest : List UInt8) :
    takeNat 1 (b :: rest) = .ok (b.toNat, rest) := by
  have read := takeNat_littleEndian 1 b.toNat rest
  have small : b.toNat % Nat.pow 256 1 = b.toNat := Nat.mod_eq_of_lt b.toNat_lt
  rw [small] at read
  simpa only [littleEndian, UInt8.ofNat_toNat, List.singleton_append] using read

theorem takeRecipient_of_bad {tag : UInt8} (notNone : tag ≠ 0) (notSome : tag ≠ 1)
    (rest : List UInt8) : takeRecipient (tag :: rest) = .error (.badRecipientTag tag) := by
  have notZero : tag.toNat ≠ 0 := fun zero => notNone (UInt8.toNat.inj zero)
  have notOne : tag.toNat ≠ 1 := fun one => notSome (UInt8.toNat.inj one)
  obtain ⟨n, other⟩ : ∃ n, tag.toNat = n + 2 := ⟨tag.toNat - 2, by omega⟩
  have same : UInt8.ofNat (n + 2) = tag := by rw [← other, UInt8.ofNat_toNat]
  rw [takeRecipient, bind_of_ok (takeNat_one tag rest), other]
  exact congrArg (fun t => Except.error (DecodeError.badRecipientTag t)) same

theorem checks_takeRecipient : Checks 0 takeRecipient where
  fault := by
    intro bytes e fault
    cases bytes with
    | nil =>
      cases fault
      exact .inl rfl
    | cons tag rest =>
      by_cases notNone : tag = 0
      · have read : takeRecipient (0 :: rest) = .ok (none, rest) := takeRecipient_append none rest
        rw [notNone, read] at fault
        cases fault
      by_cases notSome : tag = 1
      · rw [notSome, takeRecipient, bind_of_ok (takeNat_one 1 rest)] at fault
        exact .inl (((fixed_take 20).map some).lenient _ _ fault)
      · rw [takeRecipient_of_bad notNone notSome] at fault
        cases fault
        exact .inr ⟨tag, ⟨rfl, notNone, notSome⟩, rfl⟩
  objects := by
    rintro bytes tag ⟨there, notNone, notSome⟩
    cases bytes with
    | nil => cases there
    | cons _ rest =>
      cases there
      exact takeRecipient_of_bad notNone notSome rest

theorem checks_takeUnsigned : Checks 32 takeUnsigned :=
  fixed_takeUInt64.checks fun _ => fixed_takePrice.checks fun _ => fixed_takeUInt64.checks fun _ =>
    checks_takeRecipient.bind fun _ => (fixed_take 32).lenient.bind fun _ =>
      lenient_takeByteString.bind fun _ => lenient_pure _

theorem checks_takeSigned : Checks 40 takeSigned :=
  fixed_takeUInt64.checks fun _ => checks_takeUnsigned.bind fun _ =>
    lenient_takeByteString.bind fun _ => lenient_pure _

end Wire

namespace DecodeError

theorem reason_badRecipientTag (tag : UInt8) : (badRecipientTag tag).reason =
    "Invalid Option representation: " ++ toString tag.toNat ++
      ". The first byte must be 0 or 1" := rfl

theorem head?_reason (e : DecodeError) : e.reason.toList.head? =
    some (match e with
      | .unexpectedEnd => 'U'
      | .trailingBytes => 'N'
      | .badRecipientTag _ => 'I') := by
  cases e with
  | unexpectedEnd => rfl
  | trailingBytes => rfl
  | badRecipientTag tag =>
    rw [reason_badRecipientTag, String.toList_append, String.toList_append]
    rfl

/-- The words tell the faults apart. -/
theorem reason_injective {e e' : DecodeError} (same : e.reason = e'.reason) : e = e' := by
  have letter := congrArg (fun text : String => text.toList.head?) same
  simp only [head?_reason] at letter
  cases e <;> cases e'
  case badRecipientTag.badRecipientTag tag tag' =>
    rw [reason_badRecipientTag, reason_badRecipientTag, String.append_left_inj,
      String.append_right_inj] at same
    have number := congrArg (fun text : String => Json.digitsValue text.toList) same
    simp only [Json.digitsValue_toString] at number
    rw [UInt8.toNat.inj number]
  case unexpectedEnd.unexpectedEnd | trailingBytes.trailingBytes => rfl
  all_goals simp at letter

end DecodeError

namespace SignedTx

variable {bytes : List UInt8} {e : DecodeError}

/-- The damage to a wire form that a fault stands for. -/
def Damage (bytes : List UInt8) : DecodeError → Prop
  | .unexpectedEnd =>
    ∃ (tx : SignedTx) (missing : List UInt8),
      tx.Fits ∧ missing ≠ [] ∧ bytes ++ missing = tx.encode
  | .trailingBytes =>
    ∃ (tx : SignedTx) (extra : List UInt8), tx.Fits ∧ extra ≠ [] ∧ bytes = tx.encode ++ extra
  | .badRecipientTag tag => Wire.BadTagAt 40 bytes tag

theorem decode_of_fault (fault : Wire.takeSigned bytes = .error e) : decode bytes = .error e := by
  rw [decode, fault]
  rfl

theorem decode_of_left {left : List UInt8} {tx : SignedTx}
    (read : Wire.takeSigned bytes = .ok (tx, left)) (more : left ≠ []) :
    decode bytes = .error .trailingBytes := by
  rw [decode, read]
  show (if left.isEmpty then pure tx else throw DecodeError.trailingBytes) = _
  rw [if_neg (by rwa [List.isEmpty_iff])]
  rfl

/-- A form that lacks bytes at its end is too short wherever it is cut. -/
theorem decode_of_cut {tx : SignedTx} (fits : tx.Fits) {missing : List UInt8}
    (lacking : missing ≠ []) (whole : bytes ++ missing = tx.encode) :
    decode bytes = .error .unexpectedEnd := by
  have read := Wire.takeSigned_append fits []
  rw [List.append_nil, ← whole] at read
  have steady := Wire.completable_takeSigned.toSteady
  apply decode_of_fault
  cases early : Wire.takeSigned bytes with
  | ok out =>
    -- what was read of the part would be read of the whole, and leave the missing bytes
    have again := steady.finishes early missing
    rw [read] at again
    have left := (Prod.mk.inj (Except.ok.inj again)).2
    exact absurd (List.append_eq_nil_iff.mp left.symm).2 lacking
  | error e =>
    by_cases other : e = .unexpectedEnd
    · rw [other]
    · have again := steady.insists early other missing
      rw [read] at again
      cases again

theorem decode_of_damage (damaged : Damage bytes e) : decode bytes = .error e := by
  cases e with
  | unexpectedEnd =>
    obtain ⟨tx, missing, fits, lacking, whole⟩ := damaged
    exact decode_of_cut fits lacking whole
  | trailingBytes =>
    obtain ⟨tx, extra, fits, more, rfl⟩ := damaged
    exact decode_of_left (Wire.takeSigned_append fits extra) more
  | badRecipientTag tag => exact decode_of_fault (Wire.checks_takeSigned.objects damaged)

theorem damage_of_decode (refused : decode bytes = .error e) : Damage bytes e := by
  cases taken : Wire.takeSigned bytes with
  | ok out =>
    obtain ⟨tx, left⟩ := out
    obtain ⟨fits, same⟩ := Wire.eq_of_takeSigned taken
    have more : left ≠ [] := by
      rintro rfl
      rw [same, List.append_nil, decode_encode fits] at refused
      cases refused
    rw [decode_of_left taken more] at refused
    cases refused
    exact ⟨tx, left, fits, more, same⟩
  | error e' =>
    rw [decode_of_fault taken] at refused
    cases refused
    rcases Wire.checks_takeSigned.fault taken with rfl | ⟨tag, bad, rfl⟩
    · obtain ⟨missing, tx, read⟩ := Wire.completable_takeSigned.completes taken
      obtain ⟨fits, same⟩ := Wire.eq_of_takeSigned read
      rw [List.append_nil] at same
      refine ⟨tx, missing, fits, ?_, same⟩
      rintro rfl
      rw [List.append_nil, taken] at read
      cases read
    · exact bad

/-- Bytes are refused in the words for a fault just when they have its damage. -/
theorem refused_iff : (decode bytes).mapError DecodeError.reason = .error e.reason ↔
    Damage bytes e := by
  constructor
  · intro refused
    cases answer : decode bytes with
    | ok tx =>
      rw [answer] at refused
      cases refused
    | error e' =>
      rw [answer] at refused
      rw [← DecodeError.reason_injective (Except.error.inj refused)]
      exact damage_of_decode answer
  · intro damaged
    rw [decode_of_damage damaged]
    rfl

end SignedTx

/-- **A refusal tells the damage.** Bytes are found too short just when they are a form with bytes
missing at its end. They are found not to be read to their end just when they are a form with bytes
behind it. And a tag is objected to just when it stands behind forty bytes and is neither 0 nor 1,
whatever follows it or is missing there. -/
theorem refusal_tells_damage (bytes : List UInt8) :
    ((SignedTx.decode bytes).mapError DecodeError.reason = .error "Unexpected length of input" ↔
      ∃ (tx : SignedTx) (missing : List UInt8),
        tx.Fits ∧ missing ≠ [] ∧ bytes ++ missing = tx.encode) ∧
    ((SignedTx.decode bytes).mapError DecodeError.reason = .error "Not all bytes read" ↔
      ∃ (tx : SignedTx) (extra : List UInt8),
        tx.Fits ∧ extra ≠ [] ∧ bytes = tx.encode ++ extra) ∧
    ∀ tag : UInt8,
      (SignedTx.decode bytes).mapError DecodeError.reason = .error
        ("Invalid Option representation: " ++ toString tag.toNat ++
          ". The first byte must be 0 or 1") ↔
      bytes[40]? = some tag ∧ tag ≠ 0 ∧ tag ≠ 1 := by
  refine ⟨?_, ?_, ?_⟩
  · exact SignedTx.refused_iff (e := .unexpectedEnd)
  · exact SignedTx.refused_iff (e := .trailingBytes)
  · intro tag
    exact SignedTx.refused_iff (e := .badRecipientTag tag)

/-- A transfer that ends within its data, one with a byte behind it, and one of which nothing is
left behind a bad tag. -/
theorem damaged_transfer_is_told_apart :
    (SignedTx.decode (Sample.transferBytes.take 98)).mapError DecodeError.reason =
      .error "Unexpected length of input" ∧
    (SignedTx.decode (Sample.transferBytes ++ [0])).mapError DecodeError.reason =
      .error "Not all bytes read" ∧
    (SignedTx.decode (Sample.transferBytes.take 40 ++ [7])).mapError DecodeError.reason =
      .error ("Invalid Option representation: " ++ toString (7 : UInt8).toNat ++
        ". The first byte must be 0 or 1") := by
  have read : SignedTx.decode Sample.transferBytes = .ok Sample.transfer := by rfl
  obtain ⟨fits, same⟩ := SignedTx.encode_of_decode read
  refine ⟨?_, ?_, ?_⟩
  · refine (refusal_tells_damage _).1.mpr
      ⟨Sample.transfer, Sample.transferBytes.drop 98, fits, ?_, ?_⟩
    · decide
    · rw [same, List.take_append_drop]
  · refine (refusal_tells_damage _).2.1.mpr ⟨Sample.transfer, [0], fits, List.cons_ne_nil _ _, ?_⟩
    rw [same]
  · exact ((refusal_tells_damage _).2.2 7).mpr ⟨by rfl, by decide, by decide⟩

end GasEscalator
