import BoardLink.Proofs.MessagePack.Headers

/-!
# Decoding undoes encoding

Values have no length in front of them and a stream of them no separators, so a decoder finds the
values again only because each encoding tells its own end. A value comes back as it was sent, but
for strings that are not well-formed text, which are sent as byte blocks (`Value.received`).

* `Value.spans_encode` — an encoding is the bytes of one value;
* `Value.reads_encode` — and read as the value that is received;
* `Framer.takePieces_encodeAll` — so the values of a stream come back in their order, however the
  stream is cut, and what there is of a further value waits in the buffer.

The three kinds of values, members of an array and entries of a map are gone through together.
-/

namespace BoardLink.MessagePack

/-! ### Values as they are received -/

mutual
/-- The value that a receiver makes of a value: byte blocks for strings that are not well-formed
text, at every depth. -/
def Value.received : Value → Value
  | .nil => .nil
  | .bool b => .bool b
  | .int n => .int n
  | .f32 bits => .f32 bits
  | .f64 bits => .f64 bits
  | .str s => .str s
  | .badStr bytes => .bin bytes
  | .bin bytes => .bin bytes
  | .array items => .array (receivedAll items)
  | .map entries => .map (receivedEntries entries)
  | .ext type data => .ext type data

def receivedAll : List Value → List Value
  | [] => []
  | v :: rest => v.received :: receivedAll rest

def receivedEntries : List (Value × Value) → List (Value × Value)
  | [] => []
  | (k, v) :: rest => (k.received, v.received) :: receivedEntries rest
end

mutual
/-- A value whose lengths can be written: each of them is below `2 ^ 32`. -/
def Value.Sized : Value → Prop
  | .str s => (utf8 s).length < 0x100000000
  | .badStr bytes => bytes.length < 0x100000000
  | .bin bytes => bytes.length < 0x100000000
  | .ext _ data => data.length < 0x100000000
  | .array items => items.length < 0x100000000 ∧ AllSized items
  | .map entries => entries.length < 0x100000000 ∧ EntriesSized entries
  | .nil | .bool _ | .int _ | .f32 _ | .f64 _ => True

def AllSized : List Value → Prop
  | [] => True
  | v :: rest => v.Sized ∧ AllSized rest

def EntriesSized : List (Value × Value) → Prop
  | [] => True
  | (k, v) :: rest => k.Sized ∧ v.Sized ∧ EntriesSized rest
end

/-! ### One value -/

mutual
/-- **An encoding is the bytes of one value.** -/
theorem Value.spans_encode : (v : Value) → v.Sized → Spans 1 v.encode
  | .nil, _ => by
    rw [Value.encode]
    exact Spans.field rfl
  | .bool b, _ => by
    rw [Value.encode]
    cases b
    · exact Spans.field rfl
    · exact Spans.field rfl
  | .int n, _ => n.readsBack_encode.1
  | .f32 bits, _ => by
    rw [Value.encode]
    exact Spans.field (by rw [length_bigEndian]; rfl)
  | .f64 bits, _ => by
    rw [Value.encode]
    exact Spans.field (by rw [length_bigEndian]; rfl)
  | .str s, h => by
    rw [Value.encode]
    exact (heads_stringHeader h).spans_bytes (fun _ => rfl) (Nat.zero_add _).symm
  | .badStr bytes, h => by
    rw [Value.encode]
    exact (heads_binaryHeader h).spans_bytes (fun _ => rfl) (Nat.zero_add _).symm
  | .bin bytes, h => by
    rw [Value.encode]
    exact (heads_binaryHeader h).spans_bytes (fun _ => rfl) (Nat.zero_add _).symm
  -- the type byte is announced, though the length does not count it
  | .ext type data, h => by
    rw [Value.encode]
    exact (heads_extHeader h).spans_bytes (fun _ => rfl) (Nat.add_comm _ _)
  | .array items, h => by
    -- containers count entries: an array as many values, a map twice as many
    rw [Value.encode]
    obtain ⟨hlength, hitems⟩ := h
    refine (heads_arrayHeader hlength).spans_entries (fun _ => rfl) ?_
    rw [Nat.mul_one]
    exact spans_encodeAll items hitems
  | .map entries, h => by
    rw [Value.encode]
    obtain ⟨hlength, hentries⟩ := h
    exact (heads_mapHeader hlength).spans_entries (fun _ => rfl)
      (spans_encodeEntries entries hentries)

theorem spans_encodeAll : (items : List Value) → AllSized items →
    Spans items.length (encodeAll items)
  | [], _ => .nil
  | v :: rest, ⟨hv, hrest⟩ => by
    rw [encodeAll, List.length_cons, Nat.add_comm]
    exact (v.spans_encode hv).append (spans_encodeAll rest hrest)

theorem spans_encodeEntries : (entries : List (Value × Value)) → EntriesSized entries →
    Spans (entries.length * 2) (encodeEntries entries)
  | [], _ => .nil
  | (k, v) :: rest, ⟨hk, hv, hrest⟩ => by
    rw [encodeEntries, List.length_cons, Nat.add_mul, Nat.one_mul, Nat.add_comm]
    exact ((k.spans_encode hk).append (v.spans_encode hv)).append (spans_encodeEntries rest hrest)
end

mutual
/-- **An encoding is read as the value that is received.** -/
theorem Value.reads_encode : (v : Value) → v.Sized →
    Reads readValue v.encode v.received v.received.cost
  | .nil, _ => Reads.nil rfl
  | .bool b, _ => by
    rw [Value.encode]
    cases b
    · exact Reads.bool rfl
    · exact Reads.bool rfl
  | .int n, _ => n.readsBack_encode.2
  | .f32 bits, _ => by
    -- the bits of a float are those of its field, so no number is computed
    have hread : Reads readValue (0xca :: bigEndian 4 bits.toNat) _ 1 :=
      Reads.float32 rfl (length_bigEndian 4 bits.toNat)
    rw [ofBigEndian_bigEndian bits.toNat_lt, UInt32.ofNat_toNat] at hread
    exact hread
  | .f64 bits, _ => by
    have hread : Reads readValue (0xcb :: bigEndian 8 bits.toNat) _ 1 :=
      Reads.float64 rfl (length_bigEndian 8 bits.toNat)
    rw [ofBigEndian_bigEndian bits.toNat_lt, UInt64.ofNat_toNat] at hread
    exact hread
  | .str s, h => by
    obtain ⟨marker, e, field, hheader, hf, he⟩ := heads_stringHeader h
    -- the bytes of a text are text again
    have hs : Value.ofStringBytes (utf8 s) = .str s := by rw [Value.ofStringBytes, text?_utf8]
    have hread := Reads.string hf he
    rw [hs] at hread
    rw [Value.encode, hheader]
    exact hread
  | .badStr bytes, h => by
    -- a string that is no text is written as a byte block, and so it is read as one
    obtain ⟨marker, e, field, hheader, hf, he⟩ := heads_binaryHeader h
    rw [Value.encode, hheader]
    exact Reads.binary hf he
  | .bin bytes, h => by
    obtain ⟨marker, e, field, hheader, hf, he⟩ := heads_binaryHeader h
    rw [Value.encode, hheader]
    exact Reads.binary hf he
  | .ext type data, h => by
    obtain ⟨marker, e, field, hheader, hf, he⟩ := heads_extHeader h
    rw [Value.encode, hheader]
    exact Reads.ext hf he
  | .array items, h => by
    obtain ⟨hlength, hitems⟩ := h
    obtain ⟨marker, e, field, hheader, hf, he⟩ := heads_arrayHeader hlength
    rw [Value.encode, hheader]
    exact Reads.array hf he (reads_encodeAll items hitems)
  | .map entries, h => by
    obtain ⟨hlength, hentries⟩ := h
    obtain ⟨marker, e, field, hheader, hf, he⟩ := heads_mapHeader hlength
    rw [Value.encode, hheader]
    exact Reads.map hf he (reads_encodeEntries entries hentries)

theorem reads_encodeAll : (items : List Value) → AllSized items →
    Reads (fun budget => readMany (readValue budget) items.length) (encodeAll items)
      (receivedAll items) (costAll (receivedAll items))
  | [], _ => Reads.many_nil readValue
  | v :: rest, ⟨hv, hrest⟩ => (v.reads_encode hv).many_cons (reads_encodeAll rest hrest)

theorem reads_encodeEntries : (entries : List (Value × Value)) → EntriesSized entries →
    Reads (fun budget => readMany (readEntry budget) entries.length) (encodeEntries entries)
      (receivedEntries entries) (costEntries (receivedEntries entries))
  | [], _ => Reads.many_nil readEntry
  | (k, v) :: rest, ⟨hk, hv, hrest⟩ =>
    ((k.reads_encode hk).entry (v.reads_encode hv)).many_cons (reads_encodeEntries rest hrest)
end

/-! ### Streams of values -/

/-- A value that gets through: its lengths can be written, and its encoding keeps within the size
limit. -/
structure Value.Passes (limit : Nat) (v : Value) : Prop where
  sized : v.Sized
  length_le : v.encode.length ≤ limit

namespace Framer

/-- A value is taken off the front of a stream if its depth is within the budget. -/
theorem next_encode {limit : Nat} {v : Value} (h : v.Passes limit) (hlimit : limit ≤ maxSize)
    (hdepth : v.received.cost ≤ readBudget) (rest : Bytes) :
    next { limit := limit } (v.encode ++ rest) =
      (.ok (some v.received), { limit := limit }, rest) := by
  -- nothing stands behind the value in a message that was cut off
  have hread : readMessage v.encode = .ok (some v.received) := by
    have := v.reads_encode h.sized readBudget []
    rw [List.append_nil, if_pos hdepth] at this
    rw [readMessage, this]
  rw [next_of_spans (v.spans_encode h.sized) hlimit h.length_le, hread]

/-- What there is of a value waits. -/
theorem next_of_prefix {limit : Nat} {v : Value} {tail : Bytes} (h : v.Passes limit)
    (hlimit : limit ≤ maxSize) (htail : tail <+: v.encode) (hproper : tail ≠ v.encode) :
    ∃ w, next { limit := limit } tail = (.ok none, ⟨limit, w⟩, tail) :=
  next_of_part (v.spans_encode h.sized) hlimit h.length_le htail hproper

end Framer

/-- **A value of which a receiver gets `a`**: it gets through, its depth is within the budget of a
reader, and it is understood as `a`. -/
structure Reading.Gets {ε α : Type} (r : Reading ε α) (limit : Nat) (v : Value) (a : α) : Prop where
  passes : v.Passes limit
  depth : v.received.cost ≤ readBudget
  understood : r.ofValue v.received = .ok a

theorem encodeAll_eq_flatMap (values : List Value) :
    encodeAll values = values.flatMap Value.encode := by
  induction values with
  | nil => rfl
  | cons v values ih => rw [encodeAll, List.flatMap_cons, ih]

namespace Framer

variable {ε α β : Type} {r : Reading ε α} {limit : Nat}

theorem takeAll_encode_append {v : Value} {a : α} (h : r.Gets limit v a) (hlimit : limit ≤ maxSize)
    (rest : Bytes) :
    takeAll r { limit := limit } (v.encode ++ rest) =
      { takeAll r { limit := limit } rest with
        items := a :: (takeAll r { limit := limit } rest).items } := by
  -- the value is read whole and understood
  have hnext : nextAs r { limit := limit } (v.encode ++ rest) =
      (.ok (some a), { limit := limit }, rest) := by
    rw [nextAs, next_encode h.passes hlimit h.depth rest]
    simp only [h.understood]
    rfl
  rw [takeAll_eq, hnext]

theorem takeAll_of_wait {f f' : Framer} {tail : Bytes}
    (hwait : f.next tail = (.ok none, f', tail)) : takeAll r f tail = ⟨[], none, f', tail⟩ := by
  rw [takeAll_eq, nextAs, hwait]

/-- The encodings of what was sent, one after the other. -/
def encodeSent (toValue : β → Value) (sent : List β) : Bytes :=
  sent.flatMap fun b => (toValue b).encode

variable {toValue : β → Value} {got : β → α} {sent : List β} {further : Value} {tail : Bytes}

/-- **What was sent is taken in its order**, in front of a tail that waits. -/
theorem takeAll_encodeSent {f : Framer} (hlimit : limit ≤ maxSize)
    (hsent : ∀ b ∈ sent, r.Gets limit (toValue b) (got b))
    (hwait : next { limit := limit } tail = (.ok none, f, tail)) :
    takeAll r { limit := limit } (encodeSent toValue sent ++ tail) =
      ⟨sent.map got, none, f, tail⟩ := by
  induction sent with
  | nil => exact takeAll_of_wait hwait -- only the tail is there
  | cons b sent ih =>
    have hrest := ih fun c hc => hsent c (List.mem_cons_of_mem b hc)
    rw [encodeSent, List.flatMap_cons, List.append_assoc,
      takeAll_encode_append (hsent b List.mem_cons_self) hlimit, ← encodeSent, hrest]
    rfl

/-- Less than one whole message of a value waits, and so less than can be counted. -/
theorem exact_of_prefix {v : Value} {front : Bytes} (h : v.Passes limit) (hlimit : limit ≤ maxSize)
    (hfront : front <+: v.encode) (hproper : front ≠ v.encode) :
    Walk.Exact limit (takeAll r { limit := limit } front).rest.length := by
  obtain ⟨w, hwait⟩ := next_of_prefix h hlimit hfront hproper
  -- what is less than the encoding is shorter than it
  have hlt : front.length < v.encode.length := by
    refine Nat.lt_of_le_of_ne hfront.length_le ?_
    intro heq
    exact hproper (hfront.eq_of_length heq)
  have hsmall : front.length < maxSize :=
    calc front.length
        < v.encode.length := hlt
      _ ≤ limit := h.length_le
      _ ≤ maxSize := hlimit
  rw [takeAll_of_wait hwait]
  exact .inr hsmall

/-- Wherever such a stream is cut, what is left behind is less than one message. -/
theorem fits_encodeSent (hlimit : limit ≤ maxSize)
    (hsent : ∀ b ∈ sent, r.Gets limit (toValue b) (got b)) (hfurther : further.Passes limit)
    (htail : tail <+: further.encode) (hproper : tail ≠ further.encode) :
    Fits r { limit := limit } (encodeSent toValue sent ++ tail) := by
  induction sent with
  | nil =>
    intro front hfront
    refine exact_of_prefix hfurther hlimit (hfront.trans htail) ?_
    rintro rfl
    exact hproper (htail.eq_of_length_le hfront.length_le)
  | cons b sent ih =>
    intro front hfront
    have hb := hsent b List.mem_cons_self
    rw [encodeSent, List.flatMap_cons, List.append_assoc] at hfront
    by_cases hwhole : (toValue b).encode <+: front
    · -- the value is taken, and the rest is cut somewhere
      obtain ⟨front', rfl⟩ := hwhole
      rw [takeAll_encode_append hb hlimit]
      exact ih (fun c hc => hsent c (List.mem_cons_of_mem b hc)) front'
        ((List.prefix_append_right_inj _).1 hfront)
    -- the cut is inside of the first value, so none is taken
    · refine exact_of_prefix hb.passes hlimit ?_ (fun heq => hwhole (heq ▸ List.prefix_refl _))
      exact (List.prefix_or_prefix_of_prefix hfront (List.prefix_append _ _)).resolve_right hwhole

/-- A cut in front of the end of such a stream is inside of one of the values. -/
theorem exists_of_prefix_encodeSent {front : Bytes} (hfront : front <+: encodeSent toValue sent)
    (hproper : front ≠ encodeSent toValue sent) :
    ∃ before b after tail, sent = before ++ b :: after ∧
      front = encodeSent toValue before ++ tail ∧ tail <+: (toValue b).encode ∧
      tail ≠ (toValue b).encode := by
  induction sent generalizing front with
  | nil => exact absurd (List.prefix_nil.1 hfront) hproper
  | cons b sent ih =>
    have hcons : encodeSent toValue (b :: sent) = (toValue b).encode ++ encodeSent toValue sent := rfl
    rw [hcons] at hfront hproper
    by_cases hwhole : (toValue b).encode <+: front
    · -- the cut is behind the first value
      obtain ⟨front', rfl⟩ := hwhole
      have hproper' : front' ≠ encodeSent toValue sent :=
        fun heq => hproper (congrArg ((toValue b).encode ++ ·) heq)
      obtain ⟨before, b', after, tail, rfl, rfl, htail, hne⟩ :=
        ih ((List.prefix_append_right_inj _).1 hfront) hproper'
      refine ⟨b :: before, b', after, tail, rfl, ?_, htail, hne⟩
      rw [← List.append_assoc]
      rfl
    -- the cut is inside of the first value, and nothing is in front of it
    · have hinside := (List.prefix_or_prefix_of_prefix hfront (List.prefix_append _ _)).resolve_right
        hwhole
      exact ⟨[], b, sent, front, rfl, rfl, hinside, fun heq => hwhole (heq ▸ List.prefix_refl _)⟩

/-- **What was sent is taken in its order, in any fragmentation**, and the part of a further value
behind it waits. -/
theorem takePieces_encodeSent {pieces : List Bytes} (hlimit : limit ≤ maxSize)
    (hsent : ∀ b ∈ sent, r.Gets limit (toValue b) (got b)) (hfurther : further.Passes limit)
    (htail : tail <+: further.encode) (hproper : tail ≠ further.encode)
    (hpieces : pieces.flatten = encodeSent toValue sent ++ tail) :
    ∃ f, takePieces r { limit := limit } pieces = ⟨sent.map got, none, f, tail⟩ ∧
      f.next tail = (.ok none, f, tail) := by
  obtain ⟨w, hwait⟩ := next_of_prefix hfurther hlimit htail hproper
  refine ⟨⟨limit, w⟩, ?_, ?_⟩
  · have hfits := fits_encodeSent hlimit hsent hfurther htail hproper
    rw [← hpieces] at hfits
    rw [takePieces_eq_takeAll hfits, hpieces]
    exact takeAll_encodeSent hlimit hsent hwait
  · -- asked again, the framer resumes its walk and waits as before
    have hx : Walk.Exact limit (takeAll r { limit := limit } tail).rest.length :=
      exact_of_prefix hfurther hlimit htail hproper
    rw [takeAll_of_wait hwait] at hx
    have hagain := (next_append_of_wait [] hx hwait).2
    rw [List.append_nil] at hagain
    rw [hagain, hwait]

/-- **What was sent is taken in its order, in any fragmentation**, and nothing is left of it. Any of
the values serves as the further one, of which nothing has arrived. -/
theorem takePieces_encodeSent_whole {pieces : List Bytes} (hlimit : limit ≤ maxSize)
    (hsent : ∀ b ∈ sent, r.Gets limit (toValue b) (got b))
    (hpieces : pieces.flatten = encodeSent toValue sent) :
    takePieces r { limit := limit } pieces = ⟨sent.map got, none, { limit := limit }, []⟩ := by
  have hwait : next { limit := limit } [] = (.ok none, { limit := limit }, []) := rfl
  have htaken := takeAll_encodeSent hlimit hsent hwait
  -- the empty tail stands for a further value of which nothing has arrived
  have hfits : Fits r { limit := limit } (encodeSent toValue sent) := by
    cases sent with
    | nil => exact .of_exact (.inr (show 0 < maxSize by decide))
    | cons b sent =>
      have hb := (hsent b List.mem_cons_self).passes
      have hunfinished : [] ≠ (toValue b).encode := by
        intro hempty
        have hpos := ((toValue b).spans_encode hb.sized).le_length
        rw [← hempty] at hpos
        exact Nat.not_succ_le_zero 0 hpos
      have hfits := fits_encodeSent hlimit hsent hb List.nil_prefix hunfinished
      rwa [List.append_nil] at hfits
  rw [← hpieces] at hfits
  rw [takePieces_eq_takeAll hfits, hpieces]
  rwa [List.append_nil] at htaken

/-- **Decoding undoes encoding, for streams of values in any fragmentation.** What arrives is the
encodings of values that get through, and a part of the encoding of a further one. Then the values
are handed out as they are received, in their order and without a fault; the part of the further
one is left in the buffer, and the framer goes on waiting for the rest of it. -/
theorem takePieces_encodeAll {values : List Value} {pieces : List Bytes} (hlimit : limit ≤ maxSize)
    (hvalues : ∀ v ∈ values, v.Passes limit)
    (hdepth : ∀ v ∈ values, v.received.cost ≤ readBudget) (hfurther : further.Passes limit)
    (htail : tail <+: further.encode) (hproper : tail ≠ further.encode)
    (hpieces : pieces.flatten = encodeAll values ++ tail) :
    ∃ f, takePieces .values { limit := limit } pieces =
        ⟨values.map Value.received, none, f, tail⟩ ∧
      f.next tail = (.ok none, f, tail) := by
  have hsent : ∀ v ∈ values, Reading.values.Gets limit v v.received :=
    fun v hv => ⟨hvalues v hv, hdepth v hv, rfl⟩
  -- values are sent as themselves
  have hencode : encodeAll values = encodeSent id values := encodeAll_eq_flatMap values
  rw [hencode] at hpieces
  exact takePieces_encodeSent hlimit hsent hfurther htail hproper hpieces

/-- An array with a string that is not text and a nil, in front of the marker of a byte block. -/
theorem takePieces_encodeAll_badStr :
    (∀ v ∈ [Value.array [.badStr [0xff]], .nil], v.Passes 64) ∧
      (Value.bin [1, 2]).Passes 64 ∧ [0xc4] <+: (Value.bin [1, 2]).encode ∧
      ∃ f, takePieces .values { limit := 64 } [[0x91, 0xc4], [0x01], [], [0xff, 0xc0, 0xc4]] =
          ⟨[.array [.bin [0xff]], .nil], none, f, [0xc4]⟩ ∧
        f.next [0xc4] = (.ok none, f, [0xc4]) := by
  have hvalues : ∀ v ∈ [Value.array [.badStr [0xff]], .nil], v.Passes 64 := by
    intro v hv
    rcases List.mem_cons.1 hv with rfl | hv
    · exact ⟨by simp [Value.Sized, AllSized], by decide⟩
    · obtain rfl := List.mem_singleton.1 hv
      exact ⟨trivial, by decide⟩
  have hdepth : ∀ v ∈ [Value.array [.badStr [0xff]], .nil], v.received.cost ≤ readBudget := by
    intro v hv
    rcases List.mem_cons.1 hv with rfl | hv
    · decide
    · obtain rfl := List.mem_singleton.1 hv
      decide
  have hfurther : (Value.bin [1, 2]).Passes 64 := ⟨by simp [Value.Sized], by decide⟩
  have htail : [0xc4] <+: (Value.bin [1, 2]).encode := ⟨[2, 1, 2], rfl⟩
  exact ⟨hvalues, hfurther, htail,
    takePieces_encodeAll (by decide) hvalues hdepth hfurther htail (by decide) (by rfl)⟩

end Framer

end BoardLink.MessagePack
