import BoardLink.Proofs.MessagePack.RoundTrip
import BoardLink.Proofs.Wire.Classification
import BoardLink.Proofs.Wire.Pieces
import BoardLink.Wire.Request

/-!
# Messages that are understood as they were sent

A request or a packet comes back as it was sent if its message is one that the receiver accepts.
What has to be known of the message is its length alone: the lengths inside of it are shorter than
the message (`Value.sized_of_length`), and messages of the protocol are nested only a few levels
deep (`Value.Flat`).

* `Request.gets_of_passes` — a server gets each request that a client sends;
* `Packet.gets_event`, `Packet.gets_answer` — a client gets the events and answers of a server.
-/

namespace BoardLink.MessagePack

/-! ### Short messages -/

theorem Integer.length_encode_pos (n : Integer) : 0 < n.encode.length := by
  unfold Integer.encode
  -- each encoding begins with a marker, and the split is over which one it is
  split
  · simp only
    repeat' split
    all_goals exact Nat.succ_pos _
  · simp only
    repeat' split
    all_goals simp

theorem Value.length_encode_pos (v : Value) : 0 < v.encode.length := by
  cases v with
  | nil => exact Nat.one_pos
  | bool b => cases b <;> exact Nat.one_pos
  | int n => exact n.length_encode_pos
  | f32 bits | f64 bits => exact Nat.succ_pos _
  | str s =>
    -- the header alone is not empty, for every class of length
    rw [Value.encode, stringHeader]
    repeat' split
    all_goals exact Nat.succ_pos _
  | badStr bytes | bin bytes =>
    rw [Value.encode, binaryHeader]
    repeat' split
    all_goals exact Nat.succ_pos _
  | array items =>
    rw [Value.encode, arrayHeader]
    repeat' split
    all_goals exact Nat.succ_pos _
  | map entries =>
    rw [Value.encode, mapHeader]
    repeat' split
    all_goals exact Nat.succ_pos _
  | ext type data =>
    rw [Value.encode, List.length_append, List.length_cons]
    omega

theorem length_le_length_encodeAll (items : List Value) :
    items.length ≤ (encodeAll items).length := by
  induction items with
  | nil => exact Nat.le_refl 0
  | cons v rest ih =>
    -- each item takes a byte at least, so there are no more of them than bytes
    have hpos := v.length_encode_pos
    rw [encodeAll, List.length_append, List.length_cons]
    omega

theorem length_le_length_encodeEntries (entries : List (Value × Value)) :
    entries.length ≤ (encodeEntries entries).length := by
  induction entries with
  | nil => exact Nat.le_refl 0
  | cons entry rest ih =>
    have hpos := entry.1.length_encode_pos
    rw [encodeEntries, List.length_append, List.length_append, List.length_cons]
    omega

mutual
/-- **The lengths inside of a short message are short.** -/
theorem Value.sized_of_length : (v : Value) → v.encode.length < 0x100000000 → v.Sized
  | .nil, _ | .bool _, _ | .int _, _ | .f32 _, _ | .f64 _, _ => trivial
  | .str s, h => by
    -- the payload is a part of the message, so its length is below that of the message
    rw [Value.encode, List.length_append] at h
    show (utf8 s).length < _
    omega
  | .badStr bytes, h | .bin bytes, h => by
    rw [Value.encode, List.length_append] at h
    show bytes.length < _
    omega
  | .ext type data, h => by
    rw [Value.encode, List.length_append, List.length_cons] at h
    show data.length < _
    omega
  | .array items, h => by
    rw [Value.encode, List.length_append] at h
    -- an array of many items is a long message, even if they are short
    have hcount := length_le_length_encodeAll items
    exact ⟨by omega, allSized_of_length items (by omega)⟩
  | .map entries, h => by
    rw [Value.encode, List.length_append] at h
    have hcount := length_le_length_encodeEntries entries
    exact ⟨by omega, entriesSized_of_length entries (by omega)⟩

theorem allSized_of_length : (items : List Value) →
    (encodeAll items).length < 0x100000000 → AllSized items
  | [], _ => trivial
  | v :: rest, h => by
    rw [encodeAll, List.length_append] at h
    exact ⟨v.sized_of_length (by omega), allSized_of_length rest (by omega)⟩

theorem entriesSized_of_length : (entries : List (Value × Value)) →
    (encodeEntries entries).length < 0x100000000 → EntriesSized entries
  | [], _ => trivial
  | (k, v) :: rest, h => by
    -- keys and values lie one behind the other in the bytes
    rw [encodeEntries, List.length_append, List.length_append] at h
    exact ⟨k.sized_of_length (by omega), v.sized_of_length (by omega),
      entriesSized_of_length rest (by omega)⟩
end

/-! ### Values without depth -/

/-- A value that is received as it was sent, at a cost of at most `cost`. -/
structure Value.Flat (cost : Nat) (v : Value) : Prop where
  received : v.received = v
  cost_le : v.cost ≤ cost

theorem Value.Flat.array {cost : Nat} {items : List Value} (h : ∀ v ∈ items, v.Flat cost) :
    (Value.array items).Flat (cost + 2) := by
  -- both parts at once, as the cost of a list is the largest one of its items
  have hitems : receivedAll items = items ∧ costAll items ≤ cost := by
    induction items with
    | nil => exact ⟨rfl, Nat.zero_le _⟩
    | cons v rest ih =>
      obtain ⟨hreceived, hcost⟩ := ih fun w hw => h w (List.mem_cons_of_mem v hw)
      have hv := h v List.mem_cons_self
      exact ⟨by rw [receivedAll, hv.received, hreceived], Nat.max_le.2 ⟨hv.cost_le, hcost⟩⟩
  exact ⟨congrArg Value.array hitems.1, Nat.add_le_add_right hitems.2 2⟩

/-! A cost of three covers each value that is no container. -/

@[simp] theorem Value.flat_nil : Value.nil.Flat 3 := ⟨rfl, Nat.le_add_left 1 2⟩

@[simp] theorem Value.flat_bool (b : Bool) : (Value.bool b).Flat 3 := ⟨rfl, Nat.le_add_left 1 2⟩

@[simp] theorem Value.flat_int (n : Integer) : (Value.int n).Flat 3 := ⟨rfl, Nat.le_add_left 1 2⟩

@[simp] theorem Value.flat_ofNat64 (n : UInt64) : (Value.ofNat64 n).Flat 3 := Value.flat_int _

@[simp] theorem Value.flat_bin (bytes : Bytes) : (Value.bin bytes).Flat 3 :=
  ⟨rfl, Nat.le_add_left 2 1⟩

@[simp] theorem Value.flat_str (s : String) : (Value.str s).Flat 3 := ⟨rfl, Nat.le_refl 3⟩

theorem Value.Flat.mono {cost cost' : Nat} {v : Value} (h : v.Flat cost) (hle : cost ≤ cost') :
    v.Flat cost' := ⟨h.received, Nat.le_trans h.cost_le hle⟩

/-- **A message without depth is understood as it was sent**, if it gets through. -/
theorem Reading.Gets.of_passes {ε α : Type} {r : Reading ε α} {limit cost : Nat} {v : Value} {a : α}
    (hflat : v.Flat cost) (hcost : cost ≤ readBudget) (hpasses : v.Passes limit)
    (hread : r.ofValue v = .ok a) : r.Gets limit v a where
  passes := hpasses
  depth := by
    -- what is received has the cost of what was sent, since it is the same
    rw [hflat.received]
    exact Nat.le_trans hflat.cost_le hcost
  understood := by rwa [hflat.received]

/-- **A short message without depth gets through**, as what it is understood as. -/
theorem Reading.Gets.of_flat {ε α : Type} {r : Reading ε α} {limit cost : Nat} {v : Value} {a : α}
    (hflat : v.Flat cost) (hcost : cost ≤ readBudget) (hlength : v.encode.length ≤ limit)
    (hshort : v.encode.length < 0x100000000) (hread : r.ofValue v = .ok a) : r.Gets limit v a :=
  .of_passes hflat hcost ⟨v.sized_of_length hshort, hlength⟩ hread

end BoardLink.MessagePack

namespace BoardLink.Wire

open BoardLink.MessagePack

/-! ### Fields -/

theorem asNat?_ofNat64 (n : UInt64) : (Value.ofNat64 n).asNat? = some n.toNat := by
  have hnat : 0 ≤ (Integer.ofUInt64 n).val := Int.natCast_nonneg n.toNat
  show Integer.toNat? (.ofUInt64 n) = _
  unfold Integer.toNat?
  -- a number of 64 bits without sign is never below zero
  rw [if_pos hnat]
  rfl

theorem uint8Field_eq {fields : List Value} {place : Nat} {n : UInt8} (name : String)
    (h : fields[place]? = some (.ofNat64 n.toUInt64)) : uint8Field fields place name = .ok n := by
  -- the field is read as a number first, and then it is in range, being `n` itself
  rw [uint8Field_eq_ok_iff, h]
  exact (asNat?_ofNat64 n.toUInt64).trans (by simp)

theorem uint16Field_eq {fields : List Value} {place : Nat} {n : UInt16} (name : String)
    (h : fields[place]? = some (.ofNat64 n.toUInt64)) : uint16Field fields place name = .ok n := by
  rw [uint16Field_eq_ok_iff, h]
  exact (asNat?_ofNat64 n.toUInt64).trans (by simp)

theorem uint32Field_eq {fields : List Value} {place : Nat} {n : UInt32} (name : String)
    (h : fields[place]? = some (.ofNat64 n.toUInt64)) : uint32Field fields place name = .ok n := by
  rw [uint32Field_eq_ok_iff, h]
  exact (asNat?_ofNat64 n.toUInt64).trans (by simp)

/-! ### Requests -/

/-- Values as requests. -/
def readRequests : Reading Fault Request := ⟨Request.ofValue, .ofFrame⟩

/-- The fields that name a register, behind a method. -/
theorem registerFields_eq (lead serial : String) (addr port : UInt8) (more : List Value) :
    let fields := Value.str lead :: .str serial :: .ofNat64 addr.toUInt64 ::
      .ofNat64 port.toUInt64 :: more
    textField fields 1 "serial" = .ok serial ∧ uint8Field fields 2 "addr" = .ok addr ∧
      uint8Field fields 3 "port" = .ok port :=
  ⟨rfl, uint8Field_eq "addr" rfl, uint8Field_eq "port" rfl⟩

/-- A request is understood as it was sent. -/
theorem Request.ofValue_toValue (r : Request) : ofValue r.toValue = .ok r := by
  cases r with
  -- there is no number in these to be read back
  | deviceList | reprogram | writeRaw => rfl
  | readReg serial addr port =>
    obtain ⟨hserial, haddr, hport⟩ := registerFields_eq "readreg" serial addr port []
    show ofFields "readreg" _ = _
    simp only [ofFields, method, arguments, hserial, haddr, hport]
    rfl
  | writeReg serial addr port value =>
    obtain ⟨hserial, haddr, hport⟩ :=
      registerFields_eq "writereg" serial addr port [.ofNat64 value.toUInt64]
    have hvalue := uint16Field_eq (n := value) "value"
      (show (Value.str "writereg" :: (writeReg serial addr port value).arguments)[4]? = _ from rfl)
    show ofFields "writereg" _ = _
    -- the value is the fourth argument, which only unfolding the whole list of them shows
    simp only [arguments] at hvalue
    simp only [ofFields, method, arguments, hserial, haddr, hport, hvalue]
    rfl
  | writeRegN serial addr port data =>
    obtain ⟨hserial, haddr, hport⟩ := registerFields_eq "writeregn" serial addr port [.bin data]
    show ofFields "writeregn" _ = _
    simp only [ofFields, method, arguments, hserial, haddr, hport]
    rfl
  | readRegN serial addr port count =>
    obtain ⟨hserial, haddr, hport⟩ :=
      registerFields_eq "readregn" serial addr port [.ofNat64 count.toUInt64]
    -- the count is the fourth argument
    have hcount := uint32Field_eq (n := count) "count"
      (show (Value.str "readregn" :: (readRegN serial addr port count).arguments)[4]? = _ from rfl)
    show ofFields "readregn" _ = _
    simp only [arguments] at hcount
    simp only [ofFields, method, arguments, hserial, haddr, hport, hcount]
    rfl
  | readRaw serial count =>
    have hcount := uint32Field_eq (n := count) "count"
      (show (Value.str "readraw" :: (readRaw serial count).arguments)[2]? = _ from rfl)
    show ofFields "readraw" _ = _
    simp only [arguments] at hcount
    simp only [ofFields, method, arguments, hcount]
    rfl

/-- A request has no depth. -/
theorem Request.flat_toValue (r : Request) : r.toValue.Flat 5 := by
  -- the method is a string, and the arguments are strings, numbers and blocks
  have harguments : ∀ v ∈ r.arguments, v.Flat 3 := by
    cases r <;> simp [arguments]
  exact Value.Flat.array (List.forall_mem_cons.2 ⟨Value.flat_str _, harguments⟩)

/-- **A server gets each request that a client sends**, if the request gets through. -/
theorem Request.gets_of_passes {limit : Nat} {r : Request} (h : r.toValue.Passes limit) :
    readRequests.Gets limit r.toValue r :=
  .of_passes r.flat_toValue (by decide) h r.ofValue_toValue

/-- A request gets through if it is short enough. -/
theorem Request.gets {limit : Nat} {r : Request} (hlimit : limit < 0x100000000)
    (hlength : r.encode.length ≤ limit) : readRequests.Gets limit r.toValue r :=
  gets_of_passes ⟨r.toValue.sized_of_length (Nat.lt_of_le_of_lt hlength hlimit), hlength⟩

/-! ### Packets -/

/-- A packet is read back from its value as what its rcode and its fields make. -/
theorem Packet.ofValue_toValue_iff {p q : Packet} :
    ofValue p.toValue = .ok q ↔ q.MadeOf p.rcode p.fields := by
  -- an rcode is encoded as a signed number, so it is read back for every sign
  have hrcode : (Value.int (.ofInt64 p.rcode)).asInt64? = some p.rcode :=
    Integer.toInt64?_ofInt64 p.rcode
  rw [toValue, ofValue_array_cons, hrcode]
  exact ofFields_eq_ok_iff

/-- The fields of an event are those that it asks for. -/
theorem Event.fieldsIn_fields (e : Event) : e.FieldsIn (Packet.event e).fields := by
  cases e with
  | added serial | removed serial => rfl
  | changed serial addr port value =>
    -- the serial is a string already, so only the three numbers are read back
    exact ⟨rfl, (asNat?_ofNat64 addr.toUInt64).trans (by simp),
      (asNat?_ofNat64 port.toUInt64).trans (by simp),
      (asNat?_ofNat64 value.toUInt64).trans (by simp)⟩

/-- An event is understood as it was sent. -/
theorem Packet.ofValue_toValue_event (e : Event) :
    ofValue (Packet.event e).toValue = .ok (.event e) :=
  ofValue_toValue_iff.2 ⟨rfl, e.fieldsIn_fields⟩

/-- An answer is understood as it was sent. -/
theorem Packet.ofValue_toValue_answer {a : Answer} (h : a.rcode ≤ 0) :
    ofValue (Packet.answer a).toValue = .ok (.answer a) :=
  ofValue_toValue_iff.2 ⟨h, rfl⟩

theorem Packet.flat_toValue_event (e : Event) : (Packet.event e).toValue.Flat 5 := by
  -- none of the fields of an event is a container
  have hfields : ∀ v ∈ (Packet.event e).fields, v.Flat 3 := by
    cases e <;> simp [fields]
  exact Value.Flat.array (List.forall_mem_cons.2 ⟨Value.flat_int _, hfields⟩)

/-- **A client gets the events of a server**, -/
theorem Packet.gets_event {limit : Nat} {e : Event} (hlength : (Packet.event e).encode.length ≤ limit)
    (hshort : (Packet.event e).encode.length < 0x100000000) :
    readPackets.Gets limit (Packet.event e).toValue (.event e) :=
  .of_flat (flat_toValue_event e) (by decide) hlength hshort (ofValue_toValue_event e)

/-- and its answers, if their payload has no depth. -/
theorem Packet.gets_answer {limit : Nat} {a : Answer} (hrcode : a.rcode ≤ 0)
    (hpayload : ∀ v ∈ a.payload, v.Flat 5)
    (hlength : (Packet.answer a).encode.length ≤ limit)
    (hshort : (Packet.answer a).encode.length < 0x100000000) :
    readPackets.Gets limit (Packet.answer a).toValue (.answer a) := by
  -- the payload may be an array itself, which is the list of devices
  have hflat : (Packet.answer a).toValue.Flat 7 :=
    Value.Flat.array (List.forall_mem_cons.2 ⟨(Value.flat_int _).mono (by decide), hpayload⟩)
  exact .of_flat hflat (by decide) hlength hshort (ofValue_toValue_answer hrcode)

end BoardLink.Wire
