import BoardLink.Proofs.MessagePack.Reads
import BoardLink.Proofs.MessagePack.Stream

/-!
# The walk and the reader agree

The framer cuts a message off where its walk ends, reads it, and never asks whether the reader took
all of it. That is sound because both go by the same markers:

* `announcement_ofMarker` — each marker announces what its format takes, for all 256 of them;
* `Spans.reads` — so the bytes of one value are read as one value, up to their last byte (the crux:
  the walk counts the values that are owed, the reader descends into them, and `Spans.split` gives
  every nested value the bytes that the reader takes for it);
* `Walk.readValue_of_complete` — what a walk settles on is read whole, or is nested too deeply.
-/

namespace BoardLink.MessagePack

/-! ### Formats announce what they take -/

/-- The announcement of a length that counts bytes, of which `extra` are not counted. -/
def Extent.announceBytes (extra : Nat) : Extent → Announcement
  | .immediate n => .fixed (1 + extra + n)
  | .stored width => .sized (1 + extra + width) width

/-- The announcement of a length that counts entries. -/
def Extent.announceEntries (perEntry : Nat) : Extent → Announcement
  | .immediate n => .container (n * perEntry)
  | .stored width => .sizedContainer width perEntry

/-- What a format takes. -/
def Format.announcement : Format → Announcement
  | .reserved => .reserved
  | .nil | .bool _ | .small _ => .fixed 1
  | .unsigned width | .signed width => .fixed (1 + width)
  | .float32 => .fixed 5
  | .float64 => .fixed 9
  | .string e | .binary e => e.announceBytes 0
  -- the type of an extension stands in front of its data
  | .ext e => e.announceBytes 1
  | .array e => e.announceEntries 1
  | .map e => e.announceEntries 2

/-- **Every marker announces what its format takes.** -/
theorem announcement_ofMarker (marker : UInt8) :
    (Format.ofMarker marker).announcement = Announcement.ofMarker marker :=
  forall_byte (P := fun m => (Format.ofMarker m).announcement = Announcement.ofMarker m)
    (by decide +kernel) marker

theorem extent?_fixed {length nested : Nat} {own : Bytes}
    (h : (Announcement.fixed length).extent? own = some (own.length, nested)) :
    own.length = length - 1 ∧ nested = 0 := by
  simp only [Announcement.extent?, Option.some.injEq, Prod.mk.injEq] at h
  exact ⟨h.1.symm, h.2.symm⟩

/-- The bytes that are announced are the length field and as many bytes as it says. -/
theorem Extent.extent?_announceBytes_iff {e : Extent} {extra nested : Nat} {own : Bytes} :
    (e.announceBytes extra).extent? own = some (own.length, nested) ↔
      nested = 0 ∧ ∃ field payload n, own = field ++ payload ∧ payload.length = extra + n ∧
        e.Holds field n := by
  cases e with
  | immediate m =>
    simp only [Extent.announceBytes, Announcement.extent?, Option.some.injEq, Prod.mk.injEq]
    constructor
    · rintro ⟨hown, rfl⟩
      exact ⟨rfl, [], own, m, rfl, by omega, rfl, rfl⟩
    · rintro ⟨rfl, field, payload, n, rfl, hpayload, rfl, rfl⟩
      rw [List.nil_append]
      omega
  | stored width =>
    simp only [Extent.announceBytes, Announcement.extent?, Option.map_eq_some_iff,
      Walk.lengthField?_eq_some_iff, Prod.mk.injEq]
    constructor
    · -- the first `width` bytes are the field, and the others are those that it counts
      rintro ⟨n, ⟨hwidth, hfield⟩, hown, rfl⟩
      refine ⟨rfl, own.take width, own.drop width, n, (List.take_append_drop width own).symm, ?_,
        ?_, hfield⟩
      · rw [List.length_drop]
        omega
      · rw [List.length_take]
        omega
    · rintro ⟨rfl, field, payload, n, rfl, hpayload, rfl, rfl⟩
      refine ⟨ofBigEndian field, ⟨?_, ?_⟩, ?_, rfl⟩
      · rw [List.length_append]
        omega
      · rw [List.take_left]
      · rw [List.length_append]
        omega

/-- A container has no bytes of its own but the length field, and as many values as it says. -/
theorem Extent.extent?_announceEntries_iff {e : Extent} {perEntry nested : Nat} {own : Bytes} :
    (e.announceEntries perEntry).extent? own = some (own.length, nested) ↔
      ∃ n, nested = n * perEntry ∧ e.Holds own n := by
  cases e with
  | immediate m =>
    simp only [Extent.announceEntries, Announcement.extent?, Option.some.injEq, Prod.mk.injEq]
    constructor
    · rintro ⟨hown, rfl⟩
      exact ⟨m, rfl, List.length_eq_zero_iff.1 hown.symm, rfl⟩
    · rintro ⟨n, rfl, rfl, rfl⟩
      exact ⟨rfl, rfl⟩
  | stored width =>
    simp only [Extent.announceEntries, Announcement.extent?, Option.map_eq_some_iff,
      Walk.lengthField?_eq_some_iff, Prod.mk.injEq]
    constructor
    · rintro ⟨n, ⟨hwidth, hfield⟩, rfl, rfl⟩
      exact ⟨n, rfl, rfl, by rwa [List.take_length] at hfield⟩
    · rintro ⟨n, rfl, rfl, rfl⟩
      exact ⟨ofBigEndian own, ⟨Nat.le_refl _, by rw [List.take_length]⟩, rfl, rfl⟩

/-! ### Spans are read -/

namespace Spans

/-- A marker, the bytes that it announces and the values that it announces are one value. -/
theorem one {marker : UInt8} {own tail : Bytes} {nested : Nat}
    (hextent : (Format.ofMarker marker).announcement.extent? own = some (own.length, nested))
    (htail : Spans nested tail) : Spans 1 (marker :: (own ++ tail)) := by
  rw [announcement_ofMarker] at hextent
  exact .value hextent htail

theorem eq_nil {bytes : Bytes} (h : Spans 0 bytes) : bytes = [] := by
  cases h
  rfl

/-- Values one after the other are read as a list if each of them is read. -/
theorem reads_many {size : Nat}
    (hone : ∀ {x : Bytes}, x.length < size → Spans 1 x → ∃ v : Value, Reads readValue x v v.cost)
    (n : Nat) {body : Bytes} (hlt : body.length < size) (h : Spans n body) :
    ∃ items, Reads (fun budget => readMany (readValue budget) n) body items (costAll items) := by
  induction n generalizing body with
  | zero =>
    rw [h.eq_nil]
    exact ⟨[], Reads.many_nil readValue⟩
  | succ n ih =>
    obtain ⟨x, y, rfl, hx, hy⟩ := h.split 1 n (Nat.add_comm n 1)
    rw [List.length_append] at hlt
    obtain ⟨v, hv⟩ := hone (by omega) hx
    obtain ⟨items, hitems⟩ := ih (by omega) hy
    exact ⟨v :: items, hv.many_cons hitems⟩

theorem reads_entries {size : Nat}
    (hone : ∀ {x : Bytes}, x.length < size → Spans 1 x → ∃ v : Value, Reads readValue x v v.cost)
    (n : Nat) {body : Bytes} (hlt : body.length < size) (h : Spans (n * 2) body) :
    ∃ entries,
      Reads (fun budget => readMany (readEntry budget) n) body entries (costEntries entries) := by
  induction n generalizing body with
  | zero =>
    rw [Nat.zero_mul] at h
    rw [h.eq_nil]
    exact ⟨[], Reads.many_nil readEntry⟩
  | succ n ih =>
    -- an entry is a key and a value, and each of them is one span
    obtain ⟨xy, z, rfl, hxy, hz⟩ := h.split 2 (n * 2) (by omega)
    obtain ⟨x, y, rfl, hx, hy⟩ := hxy.split 1 1 rfl
    simp only [List.length_append] at hlt
    obtain ⟨k, hk⟩ := hone (by omega) hx
    obtain ⟨v, hv⟩ := hone (by omega) hy
    obtain ⟨entries, hentries⟩ := ih (by omega) hz
    exact ⟨(k, v) :: entries, (hk.entry hv).many_cons hentries⟩

/-- **The bytes of one value are read as one value.** The induction is on their number; the formats
are told apart by the marker, and each takes what the marker announces. -/
theorem reads {bytes : Bytes} (h : Spans 1 bytes) :
    ∃ v : Value, Reads readValue bytes v v.cost := by
  induction hn : bytes.length using Nat.strongRecOn generalizing bytes with
  | _ size ih =>
  obtain ⟨marker, own, tail, nested, rfl, hextent, htail⟩ := h.one_inv
  -- what is nested is shorter, and therefore read
  have hone : ∀ {x : Bytes}, x.length < size → Spans 1 x →
      ∃ v : Value, Reads readValue x v v.cost := fun hlt hx => ih _ hlt hx rfl
  have hlt : tail.length < size := by
    simp only [List.length_cons, List.length_append] at hn
    omega
  rw [← announcement_ofMarker] at hextent
  -- where no values are nested, the bytes of the value's own are all of it
  have hfixed : ∀ {length}, (Format.ofMarker marker).announcement = .fixed length →
      own.length = length - 1 ∧ tail = [] := by
    intro length hlength
    rw [hlength] at hextent
    obtain ⟨hown, rfl⟩ := extent?_fixed hextent
    exact ⟨hown, htail.eq_nil⟩
  -- the same where the length stands in a field in front of them
  have hsized : ∀ {e : Extent} {extra},
      (Format.ofMarker marker).announcement = e.announceBytes extra →
      ∃ field payload n, own = field ++ payload ∧ payload.length = extra + n ∧
        e.Holds field n ∧ tail = [] := by
    intro e extra hbytes
    rw [hbytes] at hextent
    obtain ⟨rfl, field, payload, n, hown, hpayload, he⟩ :=
      Extent.extent?_announceBytes_iff.1 hextent
    exact ⟨field, payload, n, hown, hpayload, he, htail.eq_nil⟩
  cases hf : Format.ofMarker marker with
  | reserved => simp [hf, Format.announcement, Announcement.extent?] at hextent
  | nil =>
    obtain ⟨hown, rfl⟩ := hfixed (by rw [hf]; rfl)
    rw [List.length_eq_zero_iff.1 hown]
    exact ⟨.nil, Reads.nil hf⟩
  | bool b =>
    obtain ⟨hown, rfl⟩ := hfixed (by rw [hf]; rfl)
    rw [List.length_eq_zero_iff.1 hown]
    exact ⟨.bool b, Reads.bool hf⟩
  | small n =>
    obtain ⟨hown, rfl⟩ := hfixed (by rw [hf]; rfl)
    rw [List.length_eq_zero_iff.1 hown]
    exact ⟨.int _, Reads.small hf⟩
  | unsigned width =>
    obtain ⟨hown, rfl⟩ := hfixed (by rw [hf]; rfl)
    rw [List.append_nil]
    exact ⟨.int _, Reads.unsigned (by rw [hf, hown, Nat.add_sub_cancel_left])⟩
  | signed width =>
    obtain ⟨hown, rfl⟩ := hfixed (by rw [hf]; rfl)
    rw [List.append_nil]
    exact ⟨.int _, Reads.signed (by rw [hf, hown, Nat.add_sub_cancel_left])⟩
  | float32 =>
    obtain ⟨hown, rfl⟩ := hfixed (by rw [hf]; rfl)
    rw [List.append_nil]
    exact ⟨.f32 _, Reads.float32 hf hown⟩
  | float64 =>
    obtain ⟨hown, rfl⟩ := hfixed (by rw [hf]; rfl)
    rw [List.append_nil]
    exact ⟨.f64 _, Reads.float64 hf hown⟩
  | string e =>
    obtain ⟨field, payload, n, rfl, hpayload, he, rfl⟩ := hsized (by rw [hf]; rfl)
    rw [Nat.zero_add] at hpayload
    refine ⟨.ofStringBytes payload, ?_⟩
    rw [List.append_nil, Value.cost_ofStringBytes]
    exact Reads.string hf (hpayload ▸ he)
  | binary e =>
    obtain ⟨field, payload, n, rfl, hpayload, he, rfl⟩ := hsized (by rw [hf]; rfl)
    rw [Nat.zero_add] at hpayload
    rw [List.append_nil]
    exact ⟨.bin payload, Reads.binary hf (hpayload ▸ he)⟩
  | ext e =>
    obtain ⟨field, payload, n, rfl, hpayload, he, rfl⟩ := hsized (by rw [hf]; rfl)
    -- the first byte behind the length field is the type
    obtain ⟨type, data, rfl⟩ : ∃ type data, payload = type :: data :=
      List.exists_cons_of_length_pos (by omega)
    have hdata : data.length = n := by
      rw [List.length_cons] at hpayload
      omega
    rw [List.append_nil]
    exact ⟨.ext _ data, Reads.ext hf (hdata ▸ he)⟩
  | array e =>
    rw [hf] at hextent
    obtain ⟨n, rfl, he⟩ := Extent.extent?_announceEntries_iff.1 hextent
    rw [Nat.mul_one] at htail
    obtain ⟨items, hitems⟩ := reads_many hone n hlt htail
    exact ⟨.array items, Reads.array hf he hitems⟩
  | map e =>
    rw [hf] at hextent
    obtain ⟨n, rfl, he⟩ := Extent.extent?_announceEntries_iff.1 hextent
    obtain ⟨entries, hentries⟩ := reads_entries hone n hlt htail
    exact ⟨.map entries, Reads.map hf he hentries⟩

end Spans

/-- A message that a walk has settled on is the bytes of one value. -/
theorem Walk.spans_of_settled {limit : Nat} {buffer : Bytes} {w₀ w : Walk}
    (hw₀ : Walk.Reached limit buffer w₀) (hx : Walk.Exact limit buffer.length)
    (h : w₀.resume limit buffer = (w, .complete)) :
    w.pos ≤ buffer.length ∧ Spans 1 (buffer.take w.pos) := by
  -- the walk may be taken to have begun on this buffer
  have hstart : Walk.start.resume limit buffer = (w, .complete) := by
    have := hw₀.resume_eq hx []
    rw [List.append_nil] at this
    rw [← this, h]
  obtain ⟨used, rest, rfl, hused, rfl⟩ :=
    Walk.spans_of_complete hstart (by simpa [Walk.start] using hx)
  have hpos : Walk.start.pos + used.length = used.length := Nat.zero_add _
  refine ⟨?_, ?_⟩
  · rw [hpos, List.length_append]
    exact Nat.le_add_right _ _
  · rw [hpos, List.take_left]
    exact hused

/-- **The walk and the reader agree on where a message ends.** Wherever a walk over a buffer was
suspended and resumed, if it settles on a message, then the reader takes exactly the bytes of that
message as a value, under every budget that covers the depth of this value; under any other the
depth is what it refuses. It never runs out of bytes, leaves none over and never meets the marker
that begins no value. -/
theorem Walk.readValue_of_complete {limit : Nat} {buffer : Bytes} {w₀ w : Walk}
    (hw₀ : Walk.Reached limit buffer w₀) (hx : Walk.Exact limit buffer.length)
    (h : w₀.resume limit buffer = (w, .complete)) :
    w.pos ≤ buffer.length ∧ ∃ v : Value, ∀ budget,
      readValue budget (buffer.take w.pos) =
        if v.cost ≤ budget then .ok (v, []) else .error .tooDeep := by
  obtain ⟨hle, hspans⟩ := Walk.spans_of_settled hw₀ hx h
  obtain ⟨v, hv⟩ := hspans.reads
  refine ⟨hle, v, ?_⟩
  intro budget
  have := hv budget []
  rwa [List.append_nil] at this

/-- An array of two numbers in front of another message, resumed behind its header. -/
theorem Walk.readValue_of_complete_pair :
    Walk.Reached 64 [0x92, 0x01, 0x02, 0xc0] (Walk.start.resume 64 [0x92]).1 ∧
      Walk.Exact 64 4 ∧
      (Walk.start.resume 64 [0x92]).1.resume 64 [0x92, 0x01, 0x02, 0xc0] = (⟨3, 0⟩, .complete) ∧
      ∃ v : Value, ∀ budget, readValue budget [0x92, 0x01, 0x02] =
        if v.cost ≤ budget then .ok (v, []) else .error .tooDeep := by
  have hw₀ : Walk.Reached 64 [0x92, 0x01, 0x02, 0xc0] (Walk.start.resume 64 [0x92]).1 :=
    .grown [0x01, 0x02, 0xc0] (.resumed (.start [0x92]))
  have hx : Walk.Exact 64 4 := .inl (by decide)
  have h : (Walk.start.resume 64 [0x92]).1.resume 64 [0x92, 0x01, 0x02, 0xc0] =
      (⟨3, 0⟩, .complete) := by decide
  exact ⟨hw₀, hx, h, (Walk.readValue_of_complete hw₀ hx h).2⟩

end BoardLink.MessagePack
