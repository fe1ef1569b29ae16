import GasEscalator.Proofs.JsonText
import GasEscalator.Proofs.Numerals
import GasEscalator.Record.Stored

/-!
# Records and settings are read back

The stored form loses what its notation cannot hold: the parts of a duration below a millisecond and
above 64 bits, a factor that is not finite, a moment that no clock shows. What loses nothing in this
way is read back exactly, whatever the texts, bytes and numbers in it.
-/
namespace GasEscalator

/-! ## Leaves -/

namespace Json

theorem printable_ofNat (n : Nat) : (ofNat n).Printable := by
  rw [ofNat, Printable]
  exact Numeral.wellFormed_digits n

theorem printable_ofText (s : String) : (ofText s).Printable := by
  rw [ofText, Printable]
  rfl

theorem printable_ofBinary64 {x : Binary64} (finite : x.isFinite = true) :
    (ofBinary64 x).Printable := by
  rw [ofBinary64, if_pos finite, Printable]
  exact Numeral.wellFormed_ofBinary64 x

theorem nat?_ofNat (n : Nat) : (ofNat n).nat? = some n := by
  show some (digitsValue (toString n).toList) = some n
  rw [digitsValue_toString]

theorem natBelow?_ofNat {bound n : Nat} (h : n < bound) : (ofNat n).natBelow? bound = some n := by
  rw [natBelow?, nat?_ofNat]
  exact if_pos h

theorem uint64?_ofNat (x : UInt64) : (ofNat x.toNat).uint64? = some x := by
  rw [uint64?, natBelow?_ofNat x.toNat_lt, Option.map_some, UInt64.ofNat_toNat]

theorem byte?_ofNat (b : UInt8) : (ofNat b.toNat).byte? = some b := by
  rw [byte?, natBelow?_ofNat b.toNat_lt, Option.map_some, UInt8.ofNat_toNat]

theorem price?_ofNat (p : Price) : (ofNat p.val).price? = some p := by
  rw [price?, nat?_ofNat]
  exact dif_pos p.isLt

theorem binary64?_ofBinary64 {x : Binary64} (finite : x.isFinite = true) :
    (ofBinary64 x).binary64? = some x := by
  rw [ofBinary64, if_pos finite]
  exact Numeral.binary64?_ofBinary64 finite

end Json

/-- A whole number of milliseconds that 64 bits hold. -/
structure Duration.IsWholeMillis (d : Duration) : Prop where
  whole : d.nanos % nanosPerMilli = 0
  fits : d.millis < 2 ^ 64

def Duration.kept (d : Duration) : Duration := .ofMillis d.storedMillis

theorem Duration.kept_eq_self {d : Duration} (h : d.IsWholeMillis) : d.kept = d := by
  have fits := h.fits
  have kept : d.storedMillis.toNat = d.millis := UInt64.toNat_ofNat_of_lt' fits
  have whole : d.millis * nanosPerMilli = d.nanos :=
    Nat.div_mul_cancel (Nat.dvd_of_mod_eq_zero h.whole)
  rw [← kept] at whole
  cases d
  exact (mk.injEq ..).mpr whole

theorem Json.duration?_ofDuration (d : Duration) : (ofDuration d).duration? = some d.kept := by
  rw [duration?, ofDuration, uint64?_ofNat, Option.map_some, Duration.kept]

theorem Status.ofJson?_name (s : Status) : ofJson? (.ofText s.name) = some s := by
  cases s <;> rfl

/-! ## Arrays and objects -/

namespace Json

theorem printableItems_iff {vs : List Json} : PrintableItems vs ↔ ∀ v ∈ vs, v.Printable := by
  induction vs with
  | nil => simp [PrintableItems]
  | cons v vs ih => simp [PrintableItems, ih]

theorem printableMembers_iff {ms : List (Option String × Json)} :
    PrintableMembers ms ↔ ∀ m ∈ ms, m.1.isSome = true ∧ m.2.Printable := by
  induction ms with
  | nil => simp [PrintableMembers]
  | cons m ms ih => simp [PrintableMembers, ih, and_assoc]

theorem printable_ofMembers {keys : List String} {vs : List Json}
    (printable : ∀ v ∈ vs, v.Printable) : (ofMembers (keys.zip vs)).Printable := by
  rw [ofMembers, Printable, printableMembers_iff]
  intro m hm
  obtain ⟨p, hp, rfl⟩ := List.mem_map.mp hm
  exact ⟨rfl, printable _ (List.of_mem_zip hp).2⟩

/-- A key of distinct ones is found once. -/
theorem membersNamed_of_mem {ps : List (String × Json)} (distinct : (ps.map Prod.fst).Nodup)
    {p : String × Json} (h : p ∈ ps) :
    membersNamed p.1 (ps.map fun (k, v) => (some k, v)) = [p.2] := by
  induction ps with
  | nil => exact absurd h List.not_mem_nil
  | cons q ps ih =>
    obtain ⟨fresh, distinct⟩ := List.nodup_cons.mp distinct
    rw [List.map_cons, membersNamed, List.filterMap_cons]
    rcases List.mem_cons.mp h with rfl | h
    · -- no later member bears the key
      have none : membersNamed p.1 (ps.map fun (k, v) => (some k, v)) = [] := by
        rw [membersNamed, List.filterMap_map, List.filterMap_eq_nil_iff]
        intro q hq
        refine if_neg fun same => fresh ?_
        rw [← Option.some.inj same]
        exact List.mem_map_of_mem hq
      rw [membersNamed] at none
      simp only [if_true, none]
    · have other : some q.1 ≠ some p.1 := by
        intro same
        rw [Option.some.inj same] at fresh
        exact fresh (List.mem_map_of_mem h)
      have tail := ih distinct h
      rw [membersNamed] at tail
      simp only [if_neg other, tail]

/-- Under distinct keys the values are found in the order of the keys. -/
theorem lookUpAll?_map {ps : List (String × Json)} (distinct : (ps.map Prod.fst).Nodup) :
    ∀ {qs : List (String × Json)}, qs ⊆ ps →
    lookUpAll? (ps.map fun (k, v) => (some k, v)) (qs.map Prod.fst) =
      some (qs.map fun q => some q.2)
  | [], _ => rfl
  | q :: qs, among => by
    have head := membersNamed_of_mem distinct (among List.mem_cons_self)
    have tail := lookUpAll?_map distinct (fun _ h => among (List.mem_cons_of_mem q h))
    rw [lookUpAll?] at tail ⊢
    rw [List.map_cons, List.mapM_cons, head, tail]
    rfl

/-- **Distinct keys are read back with their values.** -/
theorem fields?_zip {keys : List String} {vs : List Json} (distinct : keys.Nodup)
    (count : keys.length = vs.length) :
    (ofMembers (keys.zip vs)).fields? keys = some (vs.map some) := by
  have first : (keys.zip vs).map Prod.fst = keys := List.map_fst_zip (Nat.le_of_eq count)
  have second : (keys.zip vs).map Prod.snd = vs := List.map_snd_zip (Nat.le_of_eq count.symm)
  have read := lookUpAll?_map (by rw [first]; exact distinct) (List.Subset.refl (keys.zip vs))
  have values : (keys.zip vs).map (fun p => some p.2) = vs.map some := by
    rw [← second, List.map_map, second]
    rfl
  rw [first, values] at read
  rw [ofMembers, fields?, if_pos, read]
  rw [List.all_eq_true]
  intro m hm
  obtain ⟨p, -, rfl⟩ := List.mem_map.mp hm
  rfl

theorem exactFields?_zip {keys : List String} {vs : List Json} (distinct : keys.Nodup)
    (count : keys.length = vs.length) :
    (ofMembers (keys.zip vs)).exactFields? keys = some (vs.map some) := by
  have read := fields?_zip distinct count
  rw [ofMembers] at read ⊢
  rw [exactFields?, if_pos, read]
  rw [List.all_eq_true]
  intro m hm
  obtain ⟨p, hp, rfl⟩ := List.mem_map.mp hm
  exact List.any_eq_true.mpr ⟨p.1, (List.of_mem_zip hp).1, decide_eq_true rfl⟩

theorem text?_ofText (s : String) : (ofText s).text? = some s := rfl

theorem items?_array (vs : List Json) : (array vs).items? = some vs := rfl

theorem mapM_byte? (bytes : List UInt8) :
    (bytes.map fun b => ofNat b.toNat).mapM byte? = some bytes := by
  induction bytes with
  | nil => rfl
  | cons b bytes ih =>
    rw [List.map_cons, List.mapM_cons, byte?_ofNat, ih]
    rfl

end Json

/-! ## Moments, policies, settings and records -/

namespace Moment

theorem toJson_eq (m : Moment) :
    m.toJson = .ofMembers (keys.zip [.ofNat m.seconds, .ofNat m.subsecondNanos]) := rfl

theorem printable_toJson (m : Moment) : m.toJson.Printable := by
  rw [toJson_eq]
  apply Json.printable_ofMembers
  simp only [List.forall_mem_cons, List.not_mem_nil, false_implies, implies_true, and_true]
  exact ⟨Json.printable_ofNat _, Json.printable_ofNat _⟩

theorem ofParts_parts (m : Moment) : ofParts m.seconds m.subsecondNanos = m := by
  show (⟨m.nanos / nanosPerSecond * nanosPerSecond + m.nanos % nanosPerSecond⟩ : Moment) = m
  rw [Nat.div_add_mod']

theorem ofJson?_of_fields {v secs nanos : Json} {s n : Nat}
    (fields : v.exactFields? keys = some [some secs, some nanos])
    (readSecs : secs.natBelow? 0x10000000000000000 = some s)
    (readNanos : nanos.natBelow? 0x100000000 = some n) :
    ofJson? v = if (ofParts s n).isRepresentable then some (ofParts s n) else none := by
  rw [ofJson?, fields, Option.bind_eq_bind, Option.bind_some]
  dsimp only
  rw [readSecs, Option.bind_eq_bind, Option.bind_some, readNanos, Option.bind_some]

theorem ofJson?_toJson {m : Moment} (shown : m.isRepresentable = true) :
    ofJson? m.toJson = some m := by
  have seconds : m.seconds < clockBound := of_decide_eq_true shown
  have nanos : m.subsecondNanos < nanosPerSecond := Nat.mod_lt _ (by decide)
  have fields : m.toJson.exactFields? keys =
      some [some (.ofNat m.seconds), some (.ofNat m.subsecondNanos)] := by
    rw [toJson_eq]
    exact Json.exactFields?_zip (by decide) rfl
  rw [ofJson?_of_fields fields (Json.natBelow?_ofNat (Nat.lt_trans seconds (by decide)))
    (Json.natBelow?_ofNat (Nat.lt_trans nanos (by decide))), ofParts_parts, if_pos shown]

end Moment

namespace Policy

/-- A policy of which the stored form loses nothing. -/
structure IsExact (p : Policy) : Prop where
  timeout : p.timeout.IsWholeMillis
  checkInterval : p.checkInterval.IsWholeMillis
  increaseInterval : p.increaseInterval.IsWholeMillis
  priceMultiplier : p.priceMultiplier.isFinite = true

/-- What the stored form keeps of a policy. -/
def kept (p : Policy) : Policy :=
  { p with
    timeout := p.timeout.kept
    checkInterval := p.checkInterval.kept
    increaseInterval := p.increaseInterval.kept }

variable {p : Policy}

theorem kept_eq_self (exact : p.IsExact) : p.kept = p := by
  rw [kept, Duration.kept_eq_self exact.timeout, Duration.kept_eq_self exact.checkInterval,
    Duration.kept_eq_self exact.increaseInterval]

theorem printable_toJson (finite : p.priceMultiplier.isFinite = true) : p.toJson.Printable := by
  apply Json.printable_ofMembers
  simp only [List.forall_mem_cons, List.not_mem_nil, false_implies, implies_true, and_true]
  exact ⟨Json.printable_ofNat _, Json.printable_ofNat _, Json.printable_ofNat _,
    Json.printable_ofBinary64 finite, Json.printable_ofNat _⟩

theorem ofJson?_toJson (finite : p.priceMultiplier.isFinite = true) :
    ofJson? p.toJson = some p.kept := by
  have fields : p.toJson.fields? keys =
      some [some (.ofDuration p.timeout), some (.ofDuration p.checkInterval),
        some (.ofDuration p.increaseInterval), some (.ofBinary64 p.priceMultiplier),
        some (.ofNat p.maxPrice.val)] := Json.fields?_zip (by decide) rfl
  rw [ofJson?, fields]
  simp only [Option.bind_eq_bind, Option.bind_some, Json.duration?_ofDuration,
    Json.binary64?_ofBinary64 finite, Json.price?_ofNat]
  rfl

end Policy

namespace Settings

/-- Settings of which the stored form loses nothing. -/
structure IsExact (s : Settings) : Prop where
  pollInterval : s.pollInterval.IsWholeMillis
  callTimeout : ∀ limit, s.callTimeout = some limit → limit.IsWholeMillis

variable {s : Settings}

theorem printable_toJson (s : Settings) : s.toJson.Printable := by
  apply Json.printable_ofMembers
  simp only [List.forall_mem_cons, List.not_mem_nil, false_implies, implies_true, and_true]
  refine ⟨Json.printable_ofNat _, Json.printable_ofNat _, ?_⟩
  cases s.callTimeout with
  | none =>
    rw [Option.elim, Json.Printable]
    trivial
  | some limit => exact Json.printable_ofNat _

theorem optionalDuration?_callTimeout (exact : s.IsExact) :
    Json.optionalDuration? (s.callTimeout.elim .null .ofDuration) = some s.callTimeout := by
  cases limit : s.callTimeout with
  | none => rfl
  | some d =>
    show (Json.ofDuration d).duration?.map some = _
    rw [Json.duration?_ofDuration, Duration.kept_eq_self (exact.callTimeout d limit),
      Option.map_some]

theorem ofJson?_toJson (exact : s.IsExact) : ofJson? s.toJson = some s := by
  have fields : s.toJson.fields? keys =
      some [some (.ofDuration s.pollInterval), some (.ofNat s.maxQueuePerSigner.toNat),
        some (s.callTimeout.elim .null .ofDuration)] := Json.fields?_zip (by decide) rfl
  rw [ofJson?, fields]
  simp only [Option.bind_eq_bind, Option.bind_some, orStandard, Json.uint64?_ofNat,
    Json.duration?_ofDuration, Duration.kept_eq_self exact.pollInterval,
    optionalDuration?_callTimeout exact]
  rfl

end Settings

namespace Record

/-- A record of which the stored form loses nothing. Its texts and bytes may be any. -/
structure IsExact (r : Record) : Prop where
  policy : r.policy.IsExact
  createdAt : r.createdAt.isRepresentable = true

/-- What the stored form keeps of a record. -/
def kept (r : Record) : Record := { r with policy := r.policy.kept }

variable {r : Record}

theorem kept_eq_self (exact : r.policy.IsExact) : r.kept = r := by
  rw [kept, Policy.kept_eq_self exact]

theorem printable_of_isFinite (finite : r.policy.priceMultiplier.isFinite = true) :
    r.toJson.Printable := by
  apply Json.printable_ofMembers
  simp only [List.forall_mem_cons, List.not_mem_nil, false_implies, implies_true, and_true]
  refine ⟨Json.printable_ofText _, Json.printable_ofNat _, Json.printable_ofText _,
    Json.printable_ofText _, Policy.printable_toJson finite, ?_, r.createdAt.printable_toJson⟩
  rw [Json.Printable, Json.printableItems_iff]
  intro v hv
  obtain ⟨b, -, rfl⟩ := List.mem_map.mp hv
  exact Json.printable_ofNat _

theorem ofJson?_toJson_kept (finite : r.policy.priceMultiplier.isFinite = true)
    (shown : r.createdAt.isRepresentable = true) : ofJson? r.toJson = some r.kept := by
  have fields : r.toJson.fields? keys =
      some [some (.ofText r.id), some (.ofNat r.chainId.toNat), some (.ofText r.sender),
        some (.ofText r.status.name), some r.policy.toJson,
        some (.array (r.latestTx.map fun b => .ofNat b.toNat)), some r.createdAt.toJson] :=
    Json.fields?_zip (by decide) rfl
  rw [ofJson?, fields]
  simp only [Option.bind_eq_bind, Option.bind_some, Json.text?_ofText, Json.uint64?_ofNat,
    Status.ofJson?_name, Policy.ofJson?_toJson finite, Json.items?_array, Json.mapM_byte?,
    Moment.ofJson?_toJson shown]
  rfl

theorem printable_toJson (exact : r.IsExact) : r.toJson.Printable :=
  printable_of_isFinite exact.policy.priceMultiplier

theorem ofJson?_toJson (exact : r.IsExact) : ofJson? r.toJson = some r := by
  rw [ofJson?_toJson_kept exact.policy.priceMultiplier exact.createdAt, kept_eq_self exact.policy]

end Record

/-! ## The stored text -/

/-- **The stored text of a record or of settings is read back to exactly the same.** Nothing is
asked of identifiers, senders, bytes, statuses, counts and prices; only what the notation cannot
hold is left out. -/
theorem stored_text_is_read_back :
    (∀ r : Record, r.IsExact → Record.ofStored? r.stored = some r) ∧
      ∀ s : Settings, s.IsExact → Settings.ofStored? s.stored = some s := by
  constructor
  · intro r exact
    rw [Record.ofStored?, Record.stored, Json.parse?_render (Record.printable_toJson exact),
      Option.bind_eq_bind, Option.bind_some]
    exact Record.ofJson?_toJson exact
  · intro s exact
    rw [Settings.ofStored?, Settings.stored, Json.parse?_render s.printable_toJson,
      Option.bind_eq_bind, Option.bind_some]
    exact Settings.ofJson?_toJson exact

/-- Quotes, control characters and a character outside the basic plane; the longest duration that
can be stored, the highest price, a factor that no short decimal denotes, a moment late in its
second. -/
def Sample.ornate : Record :=
  { id := "\"a\\\n\u0007é𝄞"
    chainId := 0xffffffffffffffff
    sender := "\u007f"
    status := .priceIncreased
    policy :=
      { timeout := .ofMillis 0xffffffffffffffff, checkInterval := .ofMillis 1,
        increaseInterval := .zero, priceMultiplier := ⟨0x3ff199999999999a⟩, maxPrice := .highest }
    latestTx := [0, 0x7f, 0xff]
    createdAt := ⟨1700000000999999999⟩ }

theorem ornate_is_read_back :
    Record.ofStored? Sample.ornate.stored = some Sample.ornate ∧
      Settings.ofStored? Settings.standard.stored = some Settings.standard :=
  ⟨stored_text_is_read_back.1 Sample.ornate
      ⟨⟨⟨by decide, by decide⟩, ⟨by decide, by decide⟩, ⟨by decide, by decide⟩, by decide⟩,
        by decide⟩,
    stored_text_is_read_back.2 Settings.standard ⟨⟨by decide, by decide⟩, nofun⟩⟩

end GasEscalator
