import BoardLink.MessagePack.Encode
import BoardLink.MessagePack.Reader
import BoardLink.Proofs.MessagePack.Spans

/-!
# What a reader makes of bytes

`Reads r bytes a cost` says all that there is to say of a reader in front of the bytes of an `a`: it
takes exactly them, whatever stands behind, if its budget covers the cost, and else it refuses the
depth. Two readers one after the other cost the larger of their costs (`Reads.bind`), since the
budget is one of depth, and so each format is put together from its steps:

* `Reads.string`, `Reads.binary`, `Reads.ext`, `Reads.array`, `Reads.map` — a header that holds the
  length, and what belongs to it, are read as the value;
* `Reads.many_cons` — values one after the other are read as a list.

A header is a marker and a length field; `Extent.Holds` is what the field has to be.
-/

namespace BoardLink.MessagePack

/-! ### Readers that cost depth -/

/-- **`bytes` are read as `a` at a cost.** Whatever stands behind them, a budget that covers the
cost takes exactly them, and a smaller one is exceeded. -/
def Reads {α : Type} (r : (budget : Nat) → Reader α) (bytes : Bytes) (a : α) (cost : Nat) : Prop :=
  ∀ budget rest, r budget (bytes ++ rest) =
    if cost ≤ budget then .ok (a, rest) else .error .tooDeep

mutual
/-- The depth that a value costs its reader: every value one, the members of a container one more, a
byte block one more, a string or an extension two more. -/
def Value.cost : Value → Nat
  | .nil | .bool _ | .int _ | .f32 _ | .f64 _ => 1
  | .bin _ => 2
  | .str _ | .badStr _ | .ext _ _ => 3
  | .array items => costAll items + 2
  | .map entries => costEntries entries + 2

/-- The largest cost of the values in a list. -/
def costAll : List Value → Nat
  | [] => 0
  | v :: rest => max v.cost (costAll rest)

/-- The largest cost of the keys and values in a list of entries. -/
def costEntries : List (Value × Value) → Nat
  | [] => 0
  | (k, v) :: rest => max (max k.cost v.cost) (costEntries rest)
end

theorem Value.cost_ofStringBytes (bytes : Bytes) : (Value.ofStringBytes bytes).cost = 3 := by
  unfold Value.ofStringBytes
  cases text? bytes <;> rfl

/-- The number that a field stands for in two's complement. -/
def twosComplement (field : Bytes) : Int :=
  if 2 * ofBigEndian field < fieldValues field.length then ofBigEndian field
  else ofBigEndian field - fieldValues field.length

namespace Reads

variable {α β : Type}

theorem pure (a : α) : Reads (fun _ => Pure.pure a) [] a 0 := by
  intro budget rest
  rfl

theorem byte (b : UInt8) : Reads (fun _ => readByte) [b] b 0 := by
  intro budget rest
  rfl

theorem bytes (taken : Bytes) : Reads (fun _ => readBytes taken.length) taken taken 0 := by
  intro budget rest
  simp [readBytes]

theorem afford (cost : Nat) : Reads (MessagePack.afford cost) [] () cost := by
  intro budget rest
  unfold MessagePack.afford
  -- the check takes no bytes: it passes or it fails
  by_cases hcost : cost ≤ budget
  · rw [if_pos hcost, if_pos hcost]
    rfl
  · rw [if_neg hcost, if_neg hcost]
    rfl

/-- **One after the other.** The budget covers both if it covers the larger cost; otherwise the
depth is refused by the first of the two that is not covered. -/
theorem bind {r : Nat → Reader α} {f : Nat → α → Reader β} {x y : Bytes} {a : α} {b : β}
    {c d : Nat} (hr : Reads r x a c) (hf : Reads (fun budget => f budget a) y b d) :
    Reads (fun budget => r budget >>= f budget) (x ++ y) b (max c d) := by
  intro budget rest
  show (r budget (x ++ y ++ rest) >>= fun taken => f budget taken.1 taken.2) = _
  rw [List.append_assoc, hr]
  by_cases hc : c ≤ budget
  · -- the first is covered, and the second decides
    rw [if_pos hc]
    refine (hf budget rest).trans ?_
    by_cases hd : d ≤ budget
    · rw [if_pos hd, if_pos (Nat.max_le.2 ⟨hc, hd⟩)]
    · rw [if_neg hd, if_neg (fun hmax => hd (Nat.max_le.1 hmax).2)]
  · -- the first is refused, and so nothing else is read
    rw [if_neg hc, if_neg (fun hmax => hc (Nat.max_le.1 hmax).1)]
    rfl

theorem bind_pure {r : Nat → Reader α} {x : Bytes} {a : α} {c : Nat} (g : α → β)
    (hr : Reads r x a c) :
    Reads (fun budget => r budget >>= fun a => Pure.pure (g a)) x (g a) c := by
  -- what is computed from the value costs nothing and takes no bytes
  have h := hr.bind (f := fun _ a => Pure.pure (g a)) (pure (g a))
  rwa [List.append_nil, Nat.max_zero] at h

theorem unsigned_field (field : Bytes) :
    Reads (fun _ => readUnsigned field.length) field (ofBigEndian field) 0 :=
  (bytes field).bind_pure ofBigEndian

theorem signed_field (field : Bytes) :
    Reads (fun _ => readSigned field.length) field (twosComplement field) 0 :=
  (unsigned_field field).bind_pure fun n =>
    if 2 * n < fieldValues field.length then (n : Int) else n - fieldValues field.length

end Reads

/-! ### Headers -/

/-- The length field of an extent that says `n`. -/
def Extent.Holds (e : Extent) (field : Bytes) (n : Nat) : Prop :=
  match e with
  | .immediate m => field = [] ∧ m = n
  | .stored width => field.length = width ∧ ofBigEndian field = n

theorem Extent.Holds.reads {e : Extent} {field : Bytes} {n : Nat} (h : e.Holds field n) :
    Reads (fun _ => e.read) field n 0 := by
  cases e with
  | immediate m =>
    obtain ⟨rfl, rfl⟩ := h
    exact Reads.pure m
  | stored width =>
    obtain ⟨rfl, rfl⟩ := h
    exact Reads.unsigned_field field

/-- Takes a key and its value. -/
def readEntry (budget : Nat) : Reader (Value × Value) := do
  return (← readValue budget, ← readValue budget)

namespace Reads

variable {marker : UInt8} {e : Extent} {field : Bytes}

theorem readByte_bind (next : UInt8 → Reader Value) (marker : UInt8) (bytes : Bytes) :
    (readByte >>= next) (marker :: bytes) = next marker bytes := rfl

/-- A value costs one more than what is read behind its marker. -/
theorem of_marker {body : Nat → Reader Value} {own : Bytes} {v : Value} {cost : Nat}
    (hbody : ∀ budget bytes, readValue (budget + 1) (marker :: bytes) = body budget bytes)
    (h : Reads body own v cost) : Reads readValue (marker :: own) v (cost + 1) := by
  intro budget rest
  -- the marker is read at the whole budget, and what is behind it at one less
  cases budget with
  | zero => rfl -- without a budget no marker is read
  | succ budget =>
    rw [List.cons_append, hbody, h]
    by_cases hcost : cost ≤ budget
    · rw [if_pos hcost, if_pos (Nat.succ_le_succ hcost)]
    · rw [if_neg hcost, if_neg (fun hle => hcost (Nat.le_of_succ_le_succ hle))]

/-! Values without a length. -/

theorem nil (hf : Format.ofMarker marker = .nil) : Reads readValue [marker] .nil 1 :=
  of_marker (fun budget bytes => by simp only [readValue, readByte_bind, hf]) (pure Value.nil)

theorem bool {b : Bool} (hf : Format.ofMarker marker = .bool b) :
    Reads readValue [marker] (.bool b) 1 :=
  of_marker (fun budget bytes => by simp only [readValue, readByte_bind, hf]) (pure (Value.bool b))

theorem small {n : Int8} (hf : Format.ofMarker marker = .small n) :
    Reads readValue [marker] (.int (.ofInt64 n.toInt64)) 1 :=
  of_marker (fun budget bytes => by simp only [readValue, readByte_bind, hf])
    (pure (Value.int (.ofInt64 n.toInt64)))

theorem unsigned (hf : Format.ofMarker marker = .unsigned field.length) :
    Reads readValue (marker :: field) (.int (.ofUInt64 (UInt64.ofNat (ofBigEndian field)))) 1 :=
  of_marker (fun budget bytes => by simp only [readValue, readByte_bind, hf])
    ((unsigned_field field).bind_pure fun n => Value.int (.ofUInt64 (UInt64.ofNat n)))

theorem signed (hf : Format.ofMarker marker = .signed field.length) :
    Reads readValue (marker :: field) (.int (.ofInt64 (Int64.ofInt (twosComplement field)))) 1 :=
  of_marker (fun budget bytes => by simp only [readValue, readByte_bind, hf])
    ((signed_field field).bind_pure fun n => Value.int (.ofInt64 (Int64.ofInt n)))

theorem float32 (hf : Format.ofMarker marker = .float32) (hfield : field.length = 4) :
    Reads readValue (marker :: field) (.f32 (UInt32.ofNat (ofBigEndian field))) 1 :=
  of_marker (fun budget bytes => by simp only [readValue, readByte_bind, hf, hfield])
    ((unsigned_field field).bind_pure fun n => Value.f32 (UInt32.ofNat n))

theorem float64 (hf : Format.ofMarker marker = .float64) (hfield : field.length = 8) :
    Reads readValue (marker :: field) (.f64 (UInt64.ofNat (ofBigEndian field))) 1 :=
  of_marker (fun budget bytes => by simp only [readValue, readByte_bind, hf, hfield])
    ((unsigned_field field).bind_pure fun n => Value.f64 (UInt64.ofNat n))

/-! Values with a length. -/

theorem string {payload : Bytes} (hf : Format.ofMarker marker = .string e)
    (he : e.Holds field payload.length) :
    Reads readValue (marker :: (field ++ payload)) (.ofStringBytes payload) 3 := by
  -- the length field first, then the depth of the bytes, which a string pays before it has them
  have hpayload := (bytes payload).bind_pure Value.ofStringBytes
  have hbody := he.reads.bind (f := fun budget n => do
    MessagePack.afford 2 budget
    return Value.ofStringBytes (← readBytes n)) ((afford 2).bind hpayload)
  exact of_marker (fun budget bytes => by simp only [readValue, readByte_bind, hf]) hbody

theorem binary {payload : Bytes} (hf : Format.ofMarker marker = .binary e)
    (he : e.Holds field payload.length) :
    Reads readValue (marker :: (field ++ payload)) (.bin payload) 2 := by
  have hpayload := (bytes payload).bind_pure Value.bin
  have hbody := he.reads.bind (f := fun budget n => do
    MessagePack.afford 1 budget
    return Value.bin (← readBytes n)) ((afford 1).bind hpayload)
  exact of_marker (fun budget bytes => by simp only [readValue, readByte_bind, hf]) hbody

theorem ext {type : UInt8} {payload : Bytes} (hf : Format.ofMarker marker = .ext e)
    -- the type is one more byte in front of the payload, and costs nothing
    (he : e.Holds field payload.length) :
    Reads readValue (marker :: (field ++ type :: payload)) (.ext type.toInt8 payload) 3 := by
  have hpayload := (byte type).bind (f := fun _ type => do
    return Value.ext type.toInt8 (← readBytes payload.length))
    ((bytes payload).bind_pure (Value.ext type.toInt8))
  have hbody := he.reads.bind (f := fun budget n => do
    MessagePack.afford 2 budget
    let type ← readByte
    return Value.ext type.toInt8 (← readBytes n)) ((afford 2).bind hpayload)
  exact of_marker (fun budget bytes => by simp only [readValue, readByte_bind, hf]) hbody

/-! Values in values. -/

/-- Reads what is nested in a value, at one less than the budget. -/
def descend {α : Type} (r : Nat → Reader α) (g : α → Value) : (budget : Nat) → Reader Value
  | 0 => throw .tooDeep
  | inner + 1 => do return g (← r inner)

/-- What is nested costs one more. -/
theorem nested {α : Type} {r : Nat → Reader α} {x : Bytes} {a : α} {c : Nat} (g : α → Value)
    (hr : Reads r x a c) : Reads (descend r g) x (g a) (c + 1) := by
  intro budget rest
  -- the members are read at one less than the container
  cases budget with
  | zero => rfl
  | succ inner =>
    refine (hr.bind_pure g inner rest).trans ?_
    by_cases hc : c ≤ inner
    · rw [if_pos hc, if_pos (Nat.succ_le_succ hc)]
    · rw [if_neg hc, if_neg (fun hle => hc (Nat.le_of_succ_le_succ hle))]

theorem array {n : Nat} {body : Bytes} {items : List Value} {c : Nat}
    (hf : Format.ofMarker marker = .array e) (he : e.Holds field n)
    (hbody : Reads (fun budget => readMany (readValue budget) n) body items c) :
    Reads readValue (marker :: (field ++ body)) (.array items) (c + 2) := by
  have hitems := he.reads.bind
    (f := fun budget n => descend (fun inner => readMany (readValue inner) n) Value.array budget)
    (hbody.nested Value.array)
  -- the length field costs nothing, so the cost is that of the members
  rw [Nat.zero_max] at hitems
  exact of_marker (fun budget bytes => by simp only [readValue, readByte_bind, hf]; rfl) hitems

theorem map {n : Nat} {body : Bytes} {entries : List (Value × Value)} {c : Nat}
    (hf : Format.ofMarker marker = .map e) (he : e.Holds field n)
    (hbody : Reads (fun budget => readMany (readEntry budget) n) body entries c) :
    Reads readValue (marker :: (field ++ body)) (.map entries) (c + 2) := by
  have hentries := he.reads.bind
    (f := fun budget n => descend (fun inner => readMany (readEntry inner) n) Value.map budget)
    (hbody.nested Value.map)
  rw [Nat.zero_max] at hentries
  exact of_marker (fun budget bytes => by simp only [readValue, readByte_bind, hf]; rfl) hentries

theorem entry {x y : Bytes} {k v : Value} {c d : Nat} (hk : Reads readValue x k c)
    (hv : Reads readValue y v d) : Reads readEntry (x ++ y) (k, v) (max c d) :=
  hk.bind (f := fun budget k => do return (k, ← readValue budget)) (hv.bind_pure (k, ·))

theorem many_nil {α : Type} (r : Nat → Reader α) :
    Reads (fun budget => readMany (r budget) 0) [] [] 0 :=
  pure []

theorem many_cons {α : Type} {r : Nat → Reader α} {x y : Bytes} {a : α} {as : List α} {n c d : Nat}
    (hr : Reads r x a c) (hothers : Reads (fun budget => readMany (r budget) n) y as d) :
    Reads (fun budget => readMany (r budget) (n + 1)) (x ++ y) (a :: as) (max c d) :=
  hr.bind (f := fun budget first => do return first :: (← readMany (r budget) n))
    (hothers.bind_pure (a :: ·))

end Reads

end BoardLink.MessagePack
