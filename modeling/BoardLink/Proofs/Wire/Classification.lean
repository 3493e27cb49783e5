import BoardLink.Proofs.Failures
import BoardLink.Wire.Packet

/-!
# What a packet is, by its rcode

The rcode says what the fields behind it are: those of an answer if it is not positive, those of an
event if it is 1, 2 or 3, and no matter what if it is larger. `Packet.MadeOf` says so without
reading anything, and `Event.FieldsIn` tells which fields an event asks for.

* `Packet.ofFields_eq_ok_iff` — the fields are read as what they make, and as nothing else;
* `Packet.failsOnly_ofFields` — if they make nothing, that is a fault of the format;
* `Packet.ofValue_int` — so each integer in front of them has an outcome;
* `Packet.ofValue_eq_invalidPacket_iff` — and the other values are no packets at all.
-/

namespace BoardLink.MessagePack

/-! ### Integers that are signed words -/

theorem Integer.toInt64?_eq_some_iff {n : Integer} {word : Int64} :
    n.toInt64? = some word ↔ n.val = word.toInt := by
  unfold toInt64?
  constructor
  · intro h
    split at h
    next hlt =>
      obtain rfl := Option.some.inj h
      exact (Int64.toInt_ofInt_of_le n.neg_le hlt).symm
    · cases h
  · intro h
    rw [if_pos (h ▸ word.toInt_lt), h, Int64.ofInt_toInt]

theorem Value.asInt64?_eq_some_iff {v : Value} {word : Int64} :
    v.asInt64? = some word ↔ ∃ n, v = .int n ∧ n.val = word.toInt := by
  -- of the kinds of values only integers are looked at
  cases v with
  | int n => simp [asInt64?, Integer.toInt64?_eq_some_iff]
  | _ => simp [asInt64?]

theorem Value.asInt64?_eq_none_iff {v : Value} :
    v.asInt64? = none ↔ ∀ n, v = .int n → 0x8000000000000000 ≤ n.val := by
  cases v with
  | int n => simp [asInt64?, Integer.toInt64?]
  | _ => simp [asInt64?]

end BoardLink.MessagePack

namespace BoardLink.Wire

open BoardLink.MessagePack

/-- A fault of the format. -/
def Fault.IsOfFormat (fault : Fault) : Prop := ∃ why, fault = .invalidFormat why

/-! ### Fields -/

section Fields

variable {fields : List Value} {place : Nat} {name : String}

theorem field_eq_ok_iff {v : Value} :
    field fields place name = .ok v ↔ fields[place]? = some v := by
  unfold field
  cases fields[place]? <;> simp

theorem textField_eq_ok_iff {s : String} :
    textField fields place name = .ok s ↔ fields[place]?.bind Value.asText? = some s := by
  simp only [textField, bind_eq_ok_iff, field_eq_ok_iff, Option.bind_eq_some_iff]
  refine exists_congr fun v => and_congr_right fun _ => ?_
  -- a value that is no text is refused, so both sides are false
  cases v.asText? <;> simp [pure, Except.pure, throw, throwThe, MonadExceptOf.throw]

theorem boundedField_eq_ok_iff {bound n : Nat} : boundedField bound fields place name = .ok n ↔
    fields[place]?.bind Value.asNat? = some n ∧ n < bound := by
  simp only [boundedField, bind_eq_ok_iff, field_eq_ok_iff, Option.bind_eq_some_iff]
  rw [← exists_and_right]
  refine exists_congr fun v => ?_
  rw [and_assoc]
  refine and_congr_right fun _ => ?_
  -- the number may be missing, or be too large for the word
  cases v.asNat? with
  | none => simp [throw, throwThe, MonadExceptOf.throw]
  | some m =>
    by_cases hm : m < bound
    · simp only [hm, if_true, pure, Except.pure, Except.ok.injEq, Option.some.injEq]
      exact ⟨fun h => ⟨h, h ▸ hm⟩, fun h => h.1⟩
    · simp only [hm, if_false, throw, throwThe, MonadExceptOf.throw, reduceCtorEq,
        Option.some.injEq, false_iff, not_and]
      exact fun h => h ▸ hm

/-- A word of any width is read where a number that it can hold stands. -/
theorem wordField_eq_ok_iff {ω : Type} {ofNat : Nat → ω} {toNat : ω → Nat} {bound : Nat} {n : ω}
    (hlt : ∀ n, toNat n < bound) (hto : ∀ m, m < bound → toNat (ofNat m) = m)
    (hof : ∀ n, ofNat (toNat n) = n) : ofNat <$> boundedField bound fields place name = .ok n ↔
      fields[place]?.bind Value.asNat? = some (toNat n) := by
  simp only [map_eq_ok_iff, boundedField_eq_ok_iff]
  -- below the bound the word and the number are the same
  constructor
  · rintro ⟨m, ⟨hm, hbound⟩, rfl⟩
    rwa [hto m hbound]
  · intro h
    exact ⟨toNat n, ⟨h, hlt n⟩, hof n⟩

theorem uint8Field_eq_ok_iff {n : UInt8} :
    uint8Field fields place name = .ok n ↔ fields[place]?.bind Value.asNat? = some n.toNat :=
  wordField_eq_ok_iff UInt8.toNat_lt (fun _ => UInt8.toNat_ofNat_of_lt') fun _ => UInt8.ofNat_toNat

theorem uint16Field_eq_ok_iff {n : UInt16} :
    uint16Field fields place name = .ok n ↔ fields[place]?.bind Value.asNat? = some n.toNat :=
  wordField_eq_ok_iff UInt16.toNat_lt (fun _ => UInt16.toNat_ofNat_of_lt') fun _ =>
    UInt16.ofNat_toNat

theorem uint32Field_eq_ok_iff {n : UInt32} :
    uint32Field fields place name = .ok n ↔ fields[place]?.bind Value.asNat? = some n.toNat :=
  wordField_eq_ok_iff UInt32.toNat_lt (fun _ => UInt32.toNat_ofNat_of_lt') fun _ =>
    UInt32.ofNat_toNat

theorem failsOnly_field : FailsOnly Fault.IsOfFormat (field fields place name) := by
  unfold field
  split
  · exact .ok _
  · exact .error ⟨_, rfl⟩

theorem failsOnly_textField : FailsOnly Fault.IsOfFormat (textField fields place name) := by
  refine failsOnly_field.bind fun v => ?_
  split
  · exact .ok _
  · exact .error ⟨_, rfl⟩

theorem failsOnly_boundedField {bound : Nat} :
    FailsOnly Fault.IsOfFormat (boundedField bound fields place name) := by
  refine failsOnly_field.bind fun v => ?_
  split
  · split
    · exact .ok _
    · exact .error ⟨_, rfl⟩
  · exact .error ⟨_, rfl⟩

end Fields

/-! ### Packets -/

/-- The fields behind an rcode are those of an event. What stands behind them does not matter. -/
def Event.FieldsIn (fields : List Value) : Event → Prop
  | .added serial | .removed serial => fields[0]?.bind Value.asText? = some serial
  | .changed serial addr port value =>
    fields[0]?.bind Value.asText? = some serial ∧ fields[1]?.bind Value.asNat? = some addr.toNat ∧
      fields[2]?.bind Value.asNat? = some port.toNat ∧
      fields[3]?.bind Value.asNat? = some value.toNat

/-- The packet that an rcode and the fields behind it make. -/
def Packet.MadeOf (rcode : Int64) (fields : List Value) : Packet → Prop
  | .answer a => rcode ≤ 0 ∧ a = ⟨rcode, fields⟩
  | .event e => e.rcode = rcode ∧ e.FieldsIn fields
  | .unknown rcode' fields' => 3 < rcode ∧ rcode' = rcode ∧ fields' = fields

theorem Event.rcode_ne (e : Event) {rcode : Int64} (h : rcode ≤ 0 ∨ 3 < rcode) :
    e.rcode ≠ rcode := by
  -- an event has one of three rcodes, and these are in between
  have hcases : e.rcode = 1 ∨ e.rcode = 2 ∨ e.rcode = 3 := by
    cases e <;> simp [Event.rcode]
  grind

namespace Packet

variable {rcode : Int64} {first : Value} {fields : List Value} {p : Packet}

theorem ofFields_of_nonpos (h : rcode ≤ 0) :
    ofFields rcode (first :: fields) = .ok (.answer ⟨rcode, fields⟩) := if_pos h

theorem ofFields_of_large (h : 3 < rcode) :
    ofFields rcode (first :: fields) = .ok (.unknown rcode fields) := by
  have hpos : ¬ rcode ≤ 0 := by grind
  have hone : rcode ≠ 1 := by grind
  have htwo : rcode ≠ 2 := by grind
  have hthree : rcode ≠ 3 := by grind
  rw [ofFields, if_neg hpos, if_neg hone, if_neg htwo, if_neg hthree]
  rfl

/-- Each event is read off the fields that it asks for. -/
theorem ofFields_of_event (h : 0 < rcode ∧ rcode ≤ 3) : ofFields rcode (first :: fields) = .ok p ↔
    ∃ e : Event, e.rcode = rcode ∧ e.FieldsIn fields ∧ event e = p := by
  have hcases : rcode = 1 ∨ rcode = 2 ∨ rcode = 3 := by grind
  have hpure : ∀ {e : Event}, (pure (event e) : Except Fault Packet) = .ok p ↔ event e = p :=
    ⟨Except.ok.inj, congrArg Except.ok⟩
  -- an event is read field after field, and `Event.FieldsIn` states its fields in that order
  rcases hcases with rfl | rfl | rfl
  · show (do return event (.added (← textField (first :: fields) 1 "serial"))) = _ ↔ _
    simp only [bind_eq_ok_iff, textField_eq_ok_iff]
    constructor
    · rintro ⟨serial, hserial, hp⟩
      exact ⟨.added serial, rfl, hserial, hpure.1 hp⟩
    · rintro ⟨e, hrcode, hfields, hp⟩
      cases e with
      | added serial => exact ⟨serial, hfields, hpure.2 hp⟩
      | removed | changed => cases hrcode
  · show (do return event (.removed (← textField (first :: fields) 1 "serial"))) = _ ↔ _
    simp only [bind_eq_ok_iff, textField_eq_ok_iff]
    constructor
    · rintro ⟨serial, hserial, hp⟩
      exact ⟨.removed serial, rfl, hserial, hpure.1 hp⟩
    · rintro ⟨e, hrcode, hfields, hp⟩
      cases e with
      | removed serial => exact ⟨serial, hfields, hpure.2 hp⟩
      | added | changed => cases hrcode
  · show (do
        return event (.changed (← textField (first :: fields) 1 "serial")
          (← uint8Field (first :: fields) 2 "addr") (← uint8Field (first :: fields) 3 "port")
          (← uint16Field (first :: fields) 4 "value"))) = _ ↔ _
    simp only [bind_eq_ok_iff, textField_eq_ok_iff, uint8Field_eq_ok_iff, uint16Field_eq_ok_iff]
    constructor
    · rintro ⟨serial, hserial, addr, haddr, port, hport, value, hvalue, hp⟩
      exact ⟨.changed serial addr port value, rfl, ⟨hserial, haddr, hport, hvalue⟩, hpure.1 hp⟩
    · rintro ⟨e, hrcode, hfields, hp⟩
      cases e with
      | changed serial addr port value =>
        obtain ⟨hserial, haddr, hport, hvalue⟩ := hfields
        exact ⟨serial, hserial, addr, haddr, port, hport, value, hvalue, hpure.2 hp⟩
      | added | removed => cases hrcode

/-- **Fields that make no packet are a fault of the format.** -/
theorem failsOnly_ofFields (rcode : Int64) (fields : List Value) :
    FailsOnly Fault.IsOfFormat (ofFields rcode fields) := by
  -- nothing can fail but to read the fields of an event
  unfold ofFields
  -- in the order in which an rcode is looked at: answer, the three events, unknown
  split
  · exact .ok _
  · split
    · exact failsOnly_textField.bind fun serial => .ok _
    · split
      · exact failsOnly_textField.bind fun serial => .ok _
      · split
        · refine failsOnly_textField.bind fun serial => ?_
          refine (failsOnly_boundedField.map _).bind fun addr => ?_
          refine (failsOnly_boundedField.map _).bind fun port => ?_
          exact (failsOnly_boundedField.map _).bind fun value => .ok _
        · exact .ok _

/-- Where an event is expected it is read, or its fields are not there. -/
theorem ofFields_event_or (h : 0 < rcode ∧ rcode ≤ 3) :
    (∃ e : Event, e.rcode = rcode ∧ e.FieldsIn fields ∧
        ofFields rcode (first :: fields) = .ok (event e)) ∨
      (∀ e : Event, e.rcode = rcode → ¬ e.FieldsIn fields) ∧
        ∃ why, ofFields rcode (first :: fields) = .error (.invalidFormat why) := by
  cases hresult : ofFields rcode (first :: fields) with
  | ok p =>
    obtain ⟨e, he, hfields, rfl⟩ := (ofFields_of_event h).1 hresult
    exact .inl ⟨e, he, hfields, rfl⟩
  | error fault =>
    obtain ⟨why, rfl⟩ := failsOnly_ofFields _ _ _ hresult
    refine .inr ⟨fun e he hfields => ?_, why, rfl⟩
    -- if the fields were those of an event, the event would have been read
    cases hresult.symm.trans ((ofFields_of_event h).2 ⟨e, he, hfields, rfl⟩)

/-- **The fields are read as what they make**, and as nothing else. -/
theorem ofFields_eq_ok_iff : ofFields rcode (first :: fields) = .ok p ↔ p.MadeOf rcode fields := by
  -- answers and unknown rcodes take any fields, so the events are left
  by_cases hanswer : rcode ≤ 0
  · rw [ofFields_of_nonpos hanswer, Except.ok.injEq]
    cases p with
    | answer a => simp [MadeOf, hanswer, eq_comm]
    | event e => simp [MadeOf, e.rcode_ne (.inl hanswer)]
    | unknown =>
      have hsmall : ¬ 3 < rcode := by grind
      simp [MadeOf, hsmall]
  · by_cases hlarge : 3 < rcode
    · rw [ofFields_of_large hlarge, Except.ok.injEq]
      cases p with
      | answer => simp [MadeOf, hanswer]
      | event e => simp [MadeOf, e.rcode_ne (.inr hlarge)]
      | unknown rcode' fields' => simp [MadeOf, hlarge, eq_comm]
    · have hevent : 0 < rcode ∧ rcode ≤ 3 := by grind
      rw [ofFields_of_event hevent]
      cases p with
      | answer => simp [MadeOf, hanswer]
      | event e => simp [MadeOf]
      | unknown => simp [MadeOf, hlarge]

/-! ### Values -/

theorem ofValue_array_cons (first : Value) (fields : List Value) :
    ofValue (.array (first :: fields)) =
      match first.asInt64? with
      | some rcode => ofFields rcode (first :: fields)
      | none => .error (.invalidPacket (.rcodeNotInteger first)) := rfl

/-- An array is read as what its rcode and its fields make. -/
theorem ofValue_eq_ok_iff {v : Value} : ofValue v = .ok p ↔
    ∃ first fields rcode, v = .array (first :: fields) ∧ first.asInt64? = some rcode ∧
      p.MadeOf rcode fields := by
  constructor
  · intro h
    -- in front of the fields there are three ways to be no packet
    unfold ofValue at h
    split at h
    · cases h
    next first fields =>
      split at h
      next rcode hrcode => exact ⟨first, fields, rcode, rfl, hrcode, ofFields_eq_ok_iff.1 h⟩
      · cases h
    · cases h
  · rintro ⟨first, fields, rcode, rfl, hrcode, hmade⟩
    rw [ofValue_array_cons, hrcode]
    exact ofFields_eq_ok_iff.2 hmade

/-- An integer that a signed word can hold is the rcode. -/
theorem ofValue_of_word {n : Integer} (h : n.val = rcode.toInt) :
    ofValue (.array (.int n :: fields)) = ofFields rcode (.int n :: fields) := by
  have hfirst : (Value.int n).asInt64? = some rcode := Value.asInt64?_eq_some_iff.2 ⟨n, rfl, h⟩
  rw [ofValue_array_cons, hfirst]

/-- One above those is none. -/
theorem ofValue_of_large {n : Integer} (h : 0x8000000000000000 ≤ n.val) :
    ofValue (.array (.int n :: fields)) = .error (.invalidPacket (.rcodeNotInteger (.int n))) := by
  have hfirst : (Value.int n).asInt64? = none := by
    rw [Value.asInt64?_eq_none_iff]
    -- an array can hold no other integer in front than this one
    rintro m ⟨rfl⟩
    exact h
  rw [ofValue_array_cons, hfirst]

/-- **Each integer says what the fields behind it are**: those of an answer if it is not positive,
those of an event if it is 1, 2 or 3, which then have to be there, and of a packet of no known kind
if it is larger, as far as a signed word can hold it. -/
theorem ofValue_int {n : Integer} (hword : n.val < 0x8000000000000000) (fields : List Value) :
    let received := ofValue (.array (.int n :: fields))
    ∃ rcode : Int64, rcode.toInt = n.val ∧
      (n.val ≤ 0 → received = .ok (.answer ⟨rcode, fields⟩)) ∧
      (0 < n.val → n.val ≤ 3 →
        (∃ e : Event, e.rcode = rcode ∧ e.FieldsIn fields ∧ received = .ok (.event e)) ∨
        (∀ e : Event, e.rcode = rcode → ¬ e.FieldsIn fields) ∧
          ∃ why, received = .error (.invalidFormat why)) ∧
      (3 < n.val → received = .ok (.unknown rcode fields)) := by
  intro received
  -- the integer as a word is ordered against the known rcodes as the integer is
  obtain ⟨rcode, hrcode⟩ : ∃ rcode : Int64, rcode.toInt = n.val :=
    ⟨Int64.ofInt n.val, Int64.toInt_ofInt_of_le n.neg_le hword⟩
  have hread : received = ofFields rcode (.int n :: fields) := ofValue_of_word hrcode.symm
  have hle : ∀ k : Int64, n.val ≤ k.toInt ↔ rcode ≤ k := fun k => by
    rw [Int64.le_iff_toInt_le, hrcode]
  have hlt : ∀ k : Int64, k.toInt < n.val ↔ k < rcode := fun k => by
    rw [Int64.lt_iff_toInt_lt, hrcode]
  rw [hread]
  exact ⟨rcode, hrcode, fun h => ofFields_of_nonpos ((hle 0).1 h),
    fun hpos hthree => ofFields_event_or ⟨(hlt 0).1 hpos, (hle 3).1 hthree⟩,
    fun h => ofFields_of_large ((hlt 3).1 h)⟩

/-- **No packets at all** are the values that are no arrays, the empty array, and the arrays whose
first field is no integer, or one above those that a signed word can hold. -/
theorem ofValue_eq_invalidPacket_iff {v : Value} :
    (∃ why, ofValue v = .error (.invalidPacket why)) ↔
      (∀ items, v ≠ .array items) ∨ v = .array [] ∨
        ∃ first fields, v = .array (first :: fields) ∧
          ∀ n, first = .int n → 0x8000000000000000 ≤ n.val := by
  constructor
  · rintro ⟨why, h⟩
    unfold ofValue at h
    split at h
    · exact .inr (.inl rfl)
    next first fields =>
      split at h
      next rcode hrcode =>
        -- a packet that begins with an rcode is refused for its fields, which is another fault
        obtain ⟨why', hwhy⟩ := failsOnly_ofFields rcode (first :: fields) _ h
        cases hwhy
      next hnone => exact .inr (.inr ⟨first, fields, rfl, Value.asInt64?_eq_none_iff.1 hnone⟩)
    next other hempty harray =>
      refine .inl fun items hitems => ?_
      cases items with
      | nil => exact hempty hitems
      | cons first fields => exact harray first fields hitems
  -- back: each of the three refusals is read off its branch
  · rintro (hother | rfl | ⟨first, fields, rfl, hfirst⟩)
    · refine ⟨.notAnArray v, ?_⟩
      cases v with
      | array items => exact absurd rfl (hother items)
      | _ => rfl
    · exact ⟨.empty, rfl⟩
    · refine ⟨.rcodeNotInteger first, ?_⟩
      rw [ofValue_array_cons, Value.asInt64?_eq_none_iff.2 hfirst]

end Packet

end BoardLink.Wire
