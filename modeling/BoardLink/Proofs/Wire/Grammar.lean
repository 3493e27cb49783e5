import BoardLink.Proofs.MessagePack.Views
import BoardLink.Wire.Request
import Mathlib.Data.List.Nodup

/-!
# The grammar of requests

A request is an array of a method and the fields that the method asks for. Here the grammar is
stated on values alone: what each method asks for (`Request.layouts`), when values carry what a
layout asks for (`Accept`), and which value is the first that does not (`Refuse`). No two of these
apply to the same values in two ways, so it is enough to show that a server which reads a value ends
up with something that the grammar says of it.

* `RestReadsAs.field` — the crux: a field that is read takes one value off the front and leaves the
  rest of the layout to what is read behind it. The eight methods are chains of this one step;
* `Request.ofValue_outcome` — what is read of a value is a request that is written so, or the fault
  for which it is refused;
* `Request.ofValue_exact` — and so each of them is read of exactly the values that the grammar says.
-/

namespace BoardLink.Wire

open BoardLink.MessagePack

/-! ### The grammar -/

/-- What a field is to carry. -/
inductive FieldKind where
  | text
  /-- A number below a bound. -/
  | number (bound : Nat)
  | block

/-- A field that a method asks for. -/
structure Slot where
  name : String
  kind : FieldKind

/-- What a field carries. -/
inductive Argument where
  | text (s : String)
  | number (n : Nat)
  | block (bytes : Bytes)
  deriving DecidableEq, Repr

/-- The value carries this, as a field of a kind. -/
inductive FieldKind.Carries : FieldKind → Value → Argument → Prop
  | text {v : Value} {s : String} (h : v.IsText s) : Carries .text v (.text s)
  | number {v : Value} {bound n : Nat} (h : v.IsNat n) (hlt : n < bound) :
      Carries (.number bound) v (.number n)
  | block {v : Value} {bytes : Bytes} (h : v.IsBlock bytes) : Carries .block v (.block bytes)

/-- What is wrong with a value that a field cannot carry. -/
def Slot.fault (slot : Slot) (v : Value) : FormatFault :=
  match slot.kind with
  | .text => .notText slot.name v
  | .number _ => .outOfRange slot.name v
  | .block => .notBytes slot.name v

/-- The values carry what a layout asks for, one after the other. What stands behind them does not
matter. -/
inductive Accept : List Slot → List Value → List Argument → Prop
  | nil (behind : List Value) : Accept [] behind []
  | cons {slot : Slot} {slots : List Slot} {v : Value} {values : List Value} {a : Argument}
      {arguments : List Argument} (h : slot.kind.Carries v a)
      (hlater : Accept slots values arguments) :
      Accept (slot :: slots) (v :: values) (a :: arguments)

/-- The first field of a layout that is not there or not what it is to be has this fault. -/
inductive Refuse : List Slot → List Value → FormatFault → Prop
  | missing (slot : Slot) (slots : List Slot) : Refuse (slot :: slots) [] (.missing slot.name)
  | bad {slot : Slot} {slots : List Slot} {v : Value} {values : List Value}
      (h : ∀ a, ¬ slot.kind.Carries v a) : Refuse (slot :: slots) (v :: values) (slot.fault v)
  | later {slot : Slot} {slots : List Slot} {v : Value} {values : List Value} {a : Argument}
      {why : FormatFault} (h : slot.kind.Carries v a) (hlater : Refuse slots values why) :
      Refuse (slot :: slots) (v :: values) why

namespace Request

/-- The field of the serial. -/
def serialSlot : Slot := ⟨"serial", .text⟩

/-- The fields of a register. -/
def registerSlots : List Slot :=
  [serialSlot, ⟨"addr", .number 0x100⟩, ⟨"port", .number 0x100⟩]

/-- The fields that each method asks for, in their order. -/
def layouts : List (String × List Slot) :=
  [("devicelist", []),
   ("reprogram", [serialSlot]),
   ("readreg", registerSlots),
   ("writereg", registerSlots ++ [⟨"value", .number 0x10000⟩]),
   ("writeregn", registerSlots ++ [⟨"data", .block⟩]),
   ("readregn", registerSlots ++ [⟨"count", .number 0x100000000⟩]),
   ("writeraw", [serialSlot, ⟨"data", .block⟩]),
   ("readraw", [serialSlot, ⟨"count", .number 0x100000000⟩])]

/-- What a request carries, in the order of its layout. -/
def contents : Request → List Argument
  | .deviceList => []
  | .reprogram serial => [.text serial]
  | .readReg serial addr port => [.text serial, .number addr.toNat, .number port.toNat]
  | .writeReg serial addr port value =>
    [.text serial, .number addr.toNat, .number port.toNat, .number value.toNat]
  | .writeRegN serial addr port data =>
    [.text serial, .number addr.toNat, .number port.toNat, .block data]
  | .readRegN serial addr port count =>
    [.text serial, .number addr.toNat, .number port.toNat, .number count.toNat]
  | .writeRaw serial data => [.text serial, .block data]
  | .readRaw serial count => [.text serial, .number count.toNat]

/-- **The value is the request**: an array of its method and of what it carries. -/
inductive Written : Value → Request → Prop
  | intro {r : Request} {slots : List Slot} {first : Value} {values : List Value}
      (hmethod : first.IsText r.method) (hlayout : (r.method, slots) ∈ layouts)
      (h : Accept slots values r.contents) : Written (.array (first :: values)) r

/-- **The value is refused with a fault**: it is no array, or has no method, or the method is none of
a request, or one of the fields that the method asks for is not there or not what it is to be. -/
inductive Refused : Value → Fault → Prop
  | notAnArray {v : Value} (h : ∀ items, v ≠ .array items) :
      Refused v (.invalidFormat (.requestNotAnArray v))
  | empty : Refused (.array []) (.invalidFormat .noMethod)
  | noMethod {first : Value} {values : List Value} (h : ∀ method, ¬ first.IsText method) :
      Refused (.array (first :: values)) (.invalidFormat .noMethod)
  | unknown {first : Value} {values : List Value} {method : String} (hmethod : first.IsText method)
      (h : ∀ r : Request, r.method ≠ method) :
      Refused (.array (first :: values)) (.invalidCommand method)
  | field {first : Value} {values : List Value} {method : String} {slots : List Slot}
      {why : FormatFault} (hmethod : first.IsText method) (hlayout : (method, slots) ∈ layouts)
      (h : Refuse slots values why) : Refused (.array (first :: values)) (.invalidFormat why)

end Request

/-! ### Nothing is said twice -/

theorem FieldKind.Carries.unique {kind : FieldKind} {v : Value} {a a' : Argument}
    (h : kind.Carries v a) (h' : kind.Carries v a') : a = a' := by
  -- of one kind, so both say it through the same view of the value, and a view finds one thing
  cases h with
  | text h =>
    cases h' with
    | text h' => rw [h.unique h']
  | number h =>
    cases h' with
    | number h' => rw [h.unique h']
  | block h =>
    cases h' with
    | block h' => rw [h.unique h']

section Unique

variable {slots : List Slot} {values : List Value}

theorem Accept.unique {arguments arguments' : List Argument} (h : Accept slots values arguments)
    (h' : Accept slots values arguments') : arguments = arguments' := by
  induction h generalizing arguments' with
  | nil =>
    cases h'
    rfl
  | cons h hlater ih =>
    cases h' with
    | cons h' hlater' => rw [h.unique h', ih hlater']

theorem Accept.not_refuse {arguments : List Argument} {why : FormatFault}
    (h : Accept slots values arguments) : ¬ Refuse slots values why := by
  intro hrefuse
  -- along the layout: at its first field, and then behind a field that is right
  induction h with
  | nil => cases hrefuse
  | cons h hlater ih =>
    cases hrefuse with
    | bad hbad => exact hbad _ h
    | later _ hwhy => exact ih hwhy

theorem Refuse.unique {why why' : FormatFault} (h : Refuse slots values why)
    (h' : Refuse slots values why') : why = why' := by
  induction h with
  | missing =>
    cases h'
    rfl
  | bad hbad =>
    cases h' with
    | bad => rfl
    -- a field that is right in one of them is not the first bad one of the other
    | later hcarries => exact absurd hcarries (hbad _)
  | later hcarries _ ih =>
    cases h' with
    | bad hbad => exact absurd hcarries (hbad _)
    | later _ hlater => exact ih hlater

end Unique

namespace Request

/-- A request is known by its method and by what it carries. -/
theorem eq_of_contents {r r' : Request} (hmethod : r.method = r'.method)
    (hcontents : r.contents = r'.contents) : r = r' := by
  -- the method tells the kinds of requests apart, and a word is known by its number
  cases r <;> cases r' <;> simp [method] at hmethod <;>
    simp_all [contents, ← UInt8.toNat_inj, ← UInt16.toNat_inj, ← UInt32.toNat_inj]

/-- A method has one layout. -/
theorem layout_unique {method : String} {slots slots' : List Slot} (h : (method, slots) ∈ layouts)
    (h' : (method, slots') ∈ layouts) : slots = slots' := by
  -- no method is listed twice
  have hnodup : (layouts.map Prod.fst).Nodup := by decide
  exact congrArg Prod.snd (List.inj_on_of_nodup_map hnodup h h' rfl)

/-- The methods that have a layout are those of the requests. -/
theorem exists_layout_iff {method : String} :
    (∃ slots, (method, slots) ∈ layouts) ↔ ∃ r : Request, r.method = method := by
  constructor
  · -- each line of the table is the method of some request
    rintro ⟨slots, h⟩
    simp only [layouts, List.mem_cons, Prod.mk.injEq, List.not_mem_nil, or_false] at h
    rcases h with ⟨rfl, -⟩ | ⟨rfl, -⟩ | ⟨rfl, -⟩ | ⟨rfl, -⟩ | ⟨rfl, -⟩ | ⟨rfl, -⟩ | ⟨rfl, -⟩ |
      ⟨rfl, -⟩
    exacts [⟨.deviceList, rfl⟩, ⟨.reprogram "", rfl⟩, ⟨.readReg "" 0 0, rfl⟩,
      ⟨.writeReg "" 0 0 0, rfl⟩, ⟨.writeRegN "" 0 0 [], rfl⟩, ⟨.readRegN "" 0 0 0, rfl⟩,
      ⟨.writeRaw "" [], rfl⟩, ⟨.readRaw "" 0, rfl⟩]
  · rintro ⟨r, rfl⟩
    cases r <;> simp [method, layouts]

variable {v : Value}

theorem Written.unique {r r' : Request} (h : Written v r) (h' : Written v r') : r = r' := by
  cases h with
  | intro hmethod hlayout h =>
    cases h' with
    | intro hmethod' hlayout' h' =>
      -- the same text stands in front, so it is the same method with the same layout
      have hsame := hmethod.unique hmethod'
      rw [← hsame] at hlayout'
      obtain rfl := layout_unique hlayout hlayout'
      exact eq_of_contents hsame (h.unique h')

theorem Written.not_refused {r : Request} {fault : Fault} (h : Written v r) : ¬ Refused v fault := by
  intro hrefused
  -- each fault denies one of the three things that writing needs: an array, a text, a known method
  cases h with
  | intro hmethod hlayout h =>
    cases hrefused with
    | notAnArray hno => exact hno _ rfl
    | noMethod hno => exact hno _ hmethod
    | unknown hmethod' hno => exact hno _ (hmethod.unique hmethod')
    | field hmethod' hlayout' hwhy =>
      obtain rfl := hmethod.unique hmethod'
      -- only the fields are left, and they cannot both be accepted and refused
      obtain rfl := layout_unique hlayout hlayout'
      exact h.not_refuse hwhy

theorem Refused.unique {fault fault' : Fault} (h : Refused v fault) (h' : Refused v fault') :
    fault = fault' := by
  cases h with
  | notAnArray hno =>
    cases h' with
    | notAnArray => rfl
    -- any other fault is told of an array
    | _ => exact absurd rfl (hno _)
  | empty =>
    cases h' with
    | notAnArray hno => exact absurd rfl (hno _)
    | empty => rfl
  | noMethod hno =>
    cases h' with
    | notAnArray hno => exact absurd rfl (hno _)
    | noMethod => rfl
    | unknown hmethod | field hmethod => exact absurd hmethod (hno _)
  | unknown hmethod hno =>
    cases h' with
    | notAnArray hno => exact absurd rfl (hno _)
    | noMethod hno => exact absurd hmethod (hno _)
    | unknown hmethod' => rw [hmethod.unique hmethod']
    | field hmethod' hlayout =>
      -- a method that has a layout is known
      obtain rfl := hmethod.unique hmethod'
      obtain ⟨r, hr⟩ := exists_layout_iff.1 ⟨_, hlayout⟩
      exact absurd hr (hno r)
  | field hmethod hlayout h =>
    cases h' with
    | notAnArray hno => exact absurd rfl (hno _)
    | noMethod hno => exact absurd hmethod (hno _)
    | unknown hmethod' hno =>
      obtain rfl := hmethod.unique hmethod'
      obtain ⟨r, hr⟩ := exists_layout_iff.1 ⟨_, hlayout⟩
      exact absurd hr (hno r)
    | field hmethod' hlayout' h' =>
      obtain rfl := hmethod.unique hmethod'
      obtain rfl := layout_unique hlayout hlayout'
      rw [h.unique h']

end Request

/-! ### Reading a field -/

/-- A field has been read as its slot says: as what its value carries, or its fault is told. -/
def Slot.ReadsAs {α : Type} (slot : Slot) (argument : α → Argument) (found : Option Value)
    (x : Except Fault α) : Prop :=
  match found with
  | none => x = .error (.invalidFormat (.missing slot.name))
  | some v =>
    (∃ a, slot.kind.Carries v (argument a) ∧ x = .ok a) ∨
      (∀ a, ¬ slot.kind.Carries v a) ∧ x = .error (.invalidFormat (slot.fault v))

section Fields

variable {α : Type} {fields : List Value} {place : Nat} {name : String}

/-- It is enough to read the value well, if there is one. -/
theorem Slot.readsAs_field (slot : Slot) {argument : α → Argument} {read : Value → Except Fault α}
    (h : ∀ v, slot.ReadsAs argument (some v) (read v)) :
    slot.ReadsAs argument fields[place]? (field fields place slot.name >>= read) := by
  -- a field that is not there is told as missing whatever would be read of it
  unfold field
  cases fields[place]? with
  | none => rfl
  | some v => exact h v

theorem readsAs_textField : Slot.ReadsAs ⟨name, .text⟩ .text fields[place]?
    (textField fields place name) := by
  refine Slot.readsAs_field ⟨name, .text⟩ fun v => ?_
  split
  next s hs => exact .inl ⟨s, .text (Value.asText?_eq_some_iff.1 hs), rfl⟩
  next hnone =>
    -- no text is carried by a value that the view does not know as one
    refine .inr ⟨?_, rfl⟩
    rintro _ ⟨hs⟩
    exact Value.asText?_eq_none_iff.1 hnone _ hs

theorem readsAs_bytesField : Slot.ReadsAs ⟨name, .block⟩ .block fields[place]?
    (bytesField fields place name) := by
  refine Slot.readsAs_field ⟨name, .block⟩ fun v => ?_
  split
  next bytes hbytes => exact .inl ⟨bytes, .block (Value.asBytes?_eq_some_iff.1 hbytes), rfl⟩
  next hnone =>
    refine .inr ⟨?_, rfl⟩
    intro _ h
    cases h with
    | block hbytes => exact Value.asBytes?_eq_none_iff.1 hnone _ hbytes

theorem readsAs_boundedField {bound : Nat} : Slot.ReadsAs ⟨name, .number bound⟩ .number
    fields[place]? (boundedField bound fields place name) := by
  refine Slot.readsAs_field ⟨name, .number bound⟩ fun v => ?_
  split
  next n hn =>
    have hnat := Value.asNat?_eq_some_iff.1 hn
    split
    next hlt => exact .inl ⟨n, .number hnat hlt, rfl⟩
    next hlarge =>
      -- the number is there, and it is the only one, so no smaller one is carried
      refine .inr ⟨?_, rfl⟩
      intro _ h
      cases h with
      | number hnat' hlt =>
        obtain rfl := hnat.unique hnat'
        exact hlarge hlt
  next hnone =>
    refine .inr ⟨?_, rfl⟩
    intro _ h
    cases h with
    | number hnat hlt => exact Value.asNat?_eq_none_iff.1 hnone _ hnat

/-- A word of any width is read where a number that it can hold stands. -/
theorem readsAs_wordField {ω : Type} {ofNat : Nat → ω} {toNat : ω → Nat} {bound : Nat}
    (hto : ∀ n, n < bound → toNat (ofNat n) = n) :
    Slot.ReadsAs ⟨name, .number bound⟩ (fun w => .number (toNat w)) fields[place]?
      -- the word is made of what the bounded field has read, so it is enough how that was read
      (ofNat <$> boundedField bound fields place name) := by
  have hread : Slot.ReadsAs ⟨name, .number bound⟩ .number fields[place]?
      (boundedField bound fields place name) := readsAs_boundedField
  generalize boundedField bound fields place name = x at hread
  cases hfound : fields[place]? with
  | none =>
    rw [hfound] at hread
    obtain rfl := hread
    rfl
  | some v =>
    rw [hfound] at hread
    rcases hread with ⟨n, hcarries, rfl⟩ | ⟨hnone, rfl⟩
    · refine .inl ⟨ofNat n, ?_, rfl⟩
      cases hcarries with
      | number hnat hlt =>
        -- the word stands for the number that was found, since that is below the bound
        show FieldKind.Carries _ v (.number (toNat (ofNat n)))
        rw [hto n hlt]
        exact .number hnat hlt
    · exact .inr ⟨hnone, rfl⟩

theorem readsAs_uint8Field : Slot.ReadsAs ⟨name, .number 0x100⟩ (fun n : UInt8 => .number n.toNat)
    fields[place]? (uint8Field fields place name) :=
  readsAs_wordField fun _ => UInt8.toNat_ofNat_of_lt'

theorem readsAs_uint16Field :
    Slot.ReadsAs ⟨name, .number 0x10000⟩ (fun n : UInt16 => .number n.toNat) fields[place]?
      (uint16Field fields place name) :=
  readsAs_wordField fun _ => UInt16.toNat_ofNat_of_lt'

theorem readsAs_uint32Field :
    Slot.ReadsAs ⟨name, .number 0x100000000⟩ (fun n : UInt32 => .number n.toNat) fields[place]?
      (uint32Field fields place name) :=
  readsAs_wordField fun _ => UInt32.toNat_ofNat_of_lt'

end Fields

/-! ### Reading the fields of a method -/

/-- What is read of the values for the rest of a layout is right, when `earlier` has been read in
front of them: it is a request that carries `earlier` and what the values carry, or the fault of the
first that does not. -/
def RestReadsAs (method : String) (earlier : List Argument) (slots : List Slot) (values : List Value)
    (x : Except Fault Request) : Prop :=
  (∃ r arguments, x = .ok r ∧ r.method = method ∧ r.contents = earlier ++ arguments ∧
    Accept slots values arguments) ∨
  ∃ why, x = .error (.invalidFormat why) ∧ Refuse slots values why

namespace RestReadsAs

variable {method : String} {earlier : List Argument}

/-- Behind the last field there is nothing to read. -/
theorem done {values : List Value} {r : Request} (hmethod : r.method = method)
    (hcontents : r.contents = earlier) : RestReadsAs method earlier [] values (pure r) :=
  .inl ⟨r, [], rfl, hmethod, by rw [hcontents, List.append_nil], .nil values⟩

/-- **A field takes one value off the front** and leaves the rest of the layout to what is read
behind it. -/
theorem field {α : Type} {slot : Slot} {slots : List Slot} {fields : List Value} {place : Nat}
    {argument : α → Argument} {x : Except Fault α} {more : α → Except Fault Request}
    (hfield : slot.ReadsAs argument fields[place]? x)
    (hmore : ∀ a,
      RestReadsAs method (earlier ++ [argument a]) slots (fields.drop (place + 1)) (more a)) :
    RestReadsAs method earlier (slot :: slots) (fields.drop place) (x >>= more) := by
  cases hfound : fields[place]? with
  | none =>
    -- the values have come to their end, so this is the first field that is not there
    rw [hfound] at hfield
    obtain rfl := hfield
    have hend : fields.drop place = [] := List.drop_eq_nil_of_le (List.getElem?_eq_none_iff.1 hfound)
    rw [hend]
    exact .inr ⟨_, rfl, .missing slot slots⟩
  | some v =>
    rw [hfound] at hfield
    obtain ⟨hplace, hv⟩ := List.getElem?_eq_some_iff.1 hfound
    have hfront : fields.drop place = v :: fields.drop (place + 1) := by
      rw [List.drop_eq_getElem_cons hplace, hv]
    rw [hfront]
    rcases hfield with ⟨a, hcarries, rfl⟩ | ⟨hbad, rfl⟩
    · -- the field is right, and what is behind it decides
      rcases hmore a with ⟨r, arguments, hr, hmethod, hcontents, haccept⟩ | ⟨why, hwhy, hrefuse⟩
      · rw [List.append_assoc] at hcontents
        exact .inl ⟨r, argument a :: arguments, hr, hmethod, hcontents, .cons hcarries haccept⟩
      · exact .inr ⟨why, hwhy, .later hcarries hrefuse⟩
    · -- it is the first that is wrong, and nothing behind it is read
      exact .inr ⟨_, rfl, .bad hbad⟩

/-- The fields of a register. -/
theorem register {slots : List Slot} {fields : List Value}
    {more : String → UInt8 → UInt8 → Except Fault Request}
    (hmore : ∀ serial addr port,
      RestReadsAs method [.text serial, .number addr.toNat, .number port.toNat] slots (fields.drop 4)
        (more serial addr port)) :
    RestReadsAs method [] (Request.registerSlots ++ slots) (fields.drop 1) (do
      let serial ← textField fields 1 "serial"
      let addr ← uint8Field fields 2 "addr"
      let port ← uint8Field fields 3 "port"
      more serial addr port) :=
  .field readsAs_textField fun serial => .field readsAs_uint8Field fun addr =>
    .field readsAs_uint8Field fun port => hmore serial addr port

end RestReadsAs

namespace Request

/-- **The fields of each method are read as its layout says.** -/
theorem restReadsAs_ofFields {method : String} {slots : List Slot} (h : (method, slots) ∈ layouts)
    (fields : List Value) :
    RestReadsAs method [] slots (fields.drop 1) (ofFields method fields) := by
  simp only [layouts, List.mem_cons, Prod.mk.injEq, List.not_mem_nil, or_false] at h
  -- one chain of fields for each line of the table
  rcases h with ⟨rfl, rfl⟩ | ⟨rfl, rfl⟩ | ⟨rfl, rfl⟩ | ⟨rfl, rfl⟩ | ⟨rfl, rfl⟩ | ⟨rfl, rfl⟩ |
    ⟨rfl, rfl⟩ | ⟨rfl, rfl⟩
  · exact .done rfl rfl
  · exact .field readsAs_textField fun serial => .done rfl rfl
  · exact .register fun serial addr port => .done rfl rfl
  · exact .register fun serial addr port => .field readsAs_uint16Field fun value => .done rfl rfl
  · exact .register fun serial addr port => .field readsAs_bytesField fun data => .done rfl rfl
  · exact .register fun serial addr port => .field readsAs_uint32Field fun count => .done rfl rfl
  · exact .field readsAs_textField fun serial => .field readsAs_bytesField fun data =>
      .done rfl rfl
  · exact .field readsAs_textField fun serial => .field readsAs_uint32Field fun count =>
      .done rfl rfl

/-- A method of no request is told. -/
theorem ofFields_unknown {method : String} (h : ∀ r : Request, r.method ≠ method)
    (fields : List Value) : ofFields method fields = .error (.invalidCommand method) := by
  unfold ofFields
  -- every method that is matched is the method of a request
  split
  · exact absurd rfl (h .deviceList)
  · exact absurd rfl (h (.reprogram ""))
  · exact absurd rfl (h (.readReg "" 0 0))
  · exact absurd rfl (h (.writeReg "" 0 0 0))
  · exact absurd rfl (h (.writeRegN "" 0 0 []))
  · exact absurd rfl (h (.readRegN "" 0 0 0))
  · exact absurd rfl (h (.writeRaw "" []))
  · exact absurd rfl (h (.readRaw "" 0))
  · rfl

theorem ofValue_array_cons (first : Value) (values : List Value) :
    ofValue (.array (first :: values)) =
      match first.asText? with
      | some method => ofFields method (first :: values)
      | none => .error (.invalidFormat .noMethod) := rfl

/-- What is read of a value is a request that is written so, or a fault for which it is refused. -/
theorem ofValue_outcome (v : Value) : (∃ r, ofValue v = .ok r ∧ Written v r) ∨
    ∃ fault, ofValue v = .error fault ∧ Refused v fault := by
  cases v with
  | array items =>
    cases items with
    | nil => exact .inr ⟨_, rfl, .empty⟩
    | cons first values =>
      rw [ofValue_array_cons]
      cases htext : first.asText? with
      | none => exact .inr ⟨_, rfl, .noMethod (Value.asText?_eq_none_iff.1 htext)⟩
      | some method =>
        -- a method has a layout exactly if it is that of a request
        have hmethod := Value.asText?_eq_some_iff.1 htext
        by_cases hknown : ∃ r : Request, r.method = method
        · obtain ⟨slots, hlayout⟩ := exists_layout_iff.2 hknown
          rcases restReadsAs_ofFields hlayout (first :: values) with
            ⟨r, arguments, hr, rfl, rfl, haccept⟩ | ⟨why, hwhy, hrefuse⟩
          · exact .inl ⟨r, hr, .intro hmethod hlayout haccept⟩
          · exact .inr ⟨_, hwhy, .field hmethod hlayout hrefuse⟩
        · have hunknown := not_exists.1 hknown
          exact .inr ⟨_, ofFields_unknown hunknown _, .unknown hmethod hunknown⟩
  | _ =>
    -- a value of any other shape is no array
    refine .inr ⟨_, rfl, .notAnArray fun items h => ?_⟩
    cases h

/-- **Requests are read by their grammar, and by nothing else.** A value is read as a request if and
only if it is an array of a text, which is the request's method, and of values that carry what the
request carries, in the order of its layout; what stands behind them does not matter. And it is
refused with a fault if and only if the fault is the right one:

* a value that is no array, one without a method or whose method is no text, and a field that is not
  there, no text, out of the range of its number or no block of bytes, are faults of the format, and
  of several such fields it is the first in the layout that is told;
* a method that is a text, but that of no request, is told as an unknown command. -/
theorem ofValue_exact (v : Value) :
    (∀ r, ofValue v = .ok r ↔ Written v r) ∧
      ∀ fault, ofValue v = .error fault ↔ Refused v fault := by
  -- something is read that the grammar says of the value, and it says nothing else of it
  rcases ofValue_outcome v with ⟨r, hr, hwritten⟩ | ⟨fault, hfault, hrefused⟩
  · -- a request was read, so any other request and any fault would contradict it
    refine ⟨fun r' => ⟨fun h => ?_, fun h => ?_⟩, fun fault => ⟨fun h => ?_, fun h => ?_⟩⟩
    · obtain rfl := Except.ok.inj (hr.symm.trans h)
      exact hwritten
    · rwa [hwritten.unique h] at hr
    · cases hr.symm.trans h
    · exact absurd h hwritten.not_refused
  · -- a fault was read
    refine ⟨fun r => ⟨fun h => ?_, fun h => ?_⟩, fun fault' => ⟨fun h => ?_, fun h => ?_⟩⟩
    · cases hfault.symm.trans h
    · exact absurd hrefused h.not_refused
    · obtain rfl := Except.error.inj (hfault.symm.trans h)
      exact hrefused
    · rwa [hrefused.unique h] at hfault

/-- The address is too large, so it does not matter that there is no port. -/
example : ofValue (.array [.bin (utf8 "readreg"), .str "FAOUT-01", .ofNat64 0x100]) =
    .error (.invalidFormat (.outOfRange "addr" (.ofNat64 0x100))) := by
  rfl

end Request

end BoardLink.Wire
