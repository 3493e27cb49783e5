import BoardLink.Proofs.MessagePack.LeastSize
import BoardLink.Proofs.Wire.Pieces

/-!
# How much is buffered

A server can announce a message of any size, and send it as slowly as it likes. What an inbox keeps
of it is bounded by its limit all the same: it refuses an announcement above the limit as soon as it
has read it, and what it has accepted it does not have to keep beyond the announced size. Only a
length field that is not complete announces nothing yet; up to three bytes of it lie on top.

* `Framer.buffered_le_of_waits` — the crux: where a framer waits, its walk stands within the limit,
  and what lies behind the walk is less than a header;
* `Inbox.Reached` — the inboxes that any sequence of feeding and taking comes to;
* `Inbox.buffered_drain_le_limit` — so a drained inbox that has not failed is never far above its
  limit.
-/

namespace BoardLink

namespace MessagePack

/-- **The bytes end inside of a length field.** In front of its marker there is the beginning of a
message, which goes on with a value there, and behind it some of the field's bytes, but not all. -/
def EndsInLengthField (buffer : Bytes) : Prop :=
  ∃ front marker field owed, buffer = front ++ marker :: field ∧
    Spans.Opens 1 front front.length (owed + 1) ∧
    field ≠ [] ∧ field.length < (Announcement.ofMarker marker).fieldWidth

theorem Announcement.IsNarrow.fieldWidth_le {a : Announcement} (ha : a.IsNarrow) :
    a.fieldWidth ≤ 4 := by
  cases a with
  | fixed | container | reserved => exact Nat.zero_le 4
  | sized header width => exact ha.2
  | sizedContainer width perEntry => exact ha.1

/-- **A framer that waits keeps little more than its limit.** The walk over what it keeps is within
the limit, and stands in front of a header that is not complete, if it does not stand at the end. -/
theorem Framer.buffered_le_of_waits {limit : Nat} {f f' : Framer} {buffer rest : Bytes}
    (hpos : 1 ≤ limit) (hlimit : limit < maxSize) (hreached : Reached limit f buffer)
    (h : f.next buffer = (.ok none, f', rest)) :
    rest.length ≤ limit + 3 ∧ (limit < rest.length → EndsInLengthField rest) := by
  obtain ⟨hf, hwalk⟩ := hreached.walk
  obtain ⟨w, hw, -, rfl⟩ := next_eq_none h
  -- the walk of a framer that was asked again and again is the one over its whole buffer
  have hstart := hwalk.resume_eq (.inl hlimit) []
  rw [List.append_nil, ← hf, hw, hf] at hstart
  obtain ⟨hknows, hstays⟩ := Walk.Knows.of_resume hlimit hstart.symm
  have hwithin : w.pos + w.pending ≤ limit := by
    have hmax := hknows.within
    rwa [Nat.max_eq_left hpos] at hmax
  cases hstays with
  | exhausted hle =>
    -- all that is there has been announced
    exact ⟨by omega, fun hlt => absurd hlt (by omega)⟩
  | @partialHeader marker field hbytes howes hstep =>
    -- behind the walk there are the marker and less than its length field
    have hfield := Walk.lt_fieldWidth_of_partial hstep
    have hwidth := (isNarrow_ofMarker marker).fieldWidth_le
    have hlength := length_of_drop_eq_cons hbytes
    refine ⟨by omega, fun hover => ?_⟩
    obtain ⟨owed, howed⟩ := Nat.exists_eq_add_one_of_ne_zero howes
    refine ⟨rest.take w.pos, marker, field, owed, ?_, ?_, ?_, hfield⟩
    · rw [← hbytes, List.take_append_drop]
    · rw [← howed]
      exact hknows.opens_marker hbytes
    · -- the marker alone would still be within the limit
      rintro rfl
      rw [List.length_nil] at hlength
      omega

end MessagePack

namespace Wire.Inbox

open BoardLink.MessagePack

/-- The inboxes that a new one can become: bytes are fed to it, and packets are taken, in any order.
To drain an inbox is to take packets until there is none. -/
inductive Reached (limit : Nat) : Inbox → Prop
  | new : Reached limit (withLimit limit)
  | fed {i : Inbox} (data : Bytes) (h : Reached limit i) : Reached limit (i.feed data)
  | taken {i : Inbox} (h : Reached limit i) : Reached limit i.next.2

/-- The next packet of an inbox that has not failed is asked of its framer. -/
theorem next_of_open {i : Inbox} (hi : i.failure = none) :
    i.next.2.framer = (i.framer.next i.buffer).2.1 ∧
      i.next.2.buffer = (i.framer.next i.buffer).2.2 ∧
      (i.next.1 = .ok none → (i.framer.next i.buffer).1 = .ok none) := by
  rw [next, hi]
  -- whatever is cut off, the inbox takes over the framer and the buffer
  rcases i.framer.next i.buffer with ⟨why | _ | v, framer, buffer⟩
  · exact ⟨rfl, rfl, by simp [readPacket]⟩
  · exact ⟨rfl, rfl, fun _ => rfl⟩
  · cases hv : Packet.ofValue v with
    | error e => simp [readPacket, hv, Functor.map, Except.map]
    | ok p => simp [readPacket, hv, Functor.map, Except.map]

/-- The framer of an inbox that has not failed is that of a growing buffer. -/
theorem Reached.framer {limit : Nat} {i : Inbox} (h : Reached limit i) (hi : i.failure = none) :
    Framer.Reached limit i.framer i.buffer := by
  induction h with
  | new => exact .new
  | fed data h ih => exact .grown data (ih hi)
  | @taken i h ih =>
    -- to take from an open inbox is to ask its framer, which is how it was reached
    cases hfailure : i.failure with
    | none =>
      obtain ⟨hframer, hbuffer, -⟩ := next_of_open hfailure
      rw [hframer, hbuffer]
      exact .asked (ih hfailure)
    | some first =>
      -- a failed inbox stays failed
      rw [next_of_failed hfailure, hfailure] at hi
      cases hi

/-- Draining ends where the inbox has no packet. -/
theorem Reached.exists_next_of_drain {limit : Nat} {i : Inbox} (h : Reached limit i)
    (hok : i.drain.1.fault = none) :
    ∃ i₁, Reached limit i₁ ∧ i₁.next = (.ok none, i.drain.2) := by
  -- each packet that is taken leaves a shorter buffer
  induction hn : i.buffer.length using Nat.strongRecOn generalizing i with
  | _ n ih =>
  rw [drain_eq] at hok ⊢
  match hnext : i.next with
  | (.ok none, i') => exact ⟨i, h, hnext⟩
  | (.error fault, i') =>
    rw [hnext] at hok
    cases hok
  | (.ok (some p), i') =>
    -- the packet is taken off, and the draining goes on from there
    rw [hnext] at hok
    have hlt := length_next_lt hnext
    have hreached : Reached limit i' := by
      have htaken := h.taken
      rwa [hnext] at htaken
    exact ih i'.buffer.length (by omega) hreached hok rfl

/-- Draining comes to an inbox that any further feeding and taking can go on with. -/
theorem Reached.drain {limit : Nat} {i : Inbox} (h : Reached limit i)
    (hok : i.drain.1.fault = none) : Reached limit i.drain.2 := by
  obtain ⟨i₁, hreached, hnext⟩ := h.exists_next_of_drain hok
  have htaken := hreached.taken
  rwa [hnext] at htaken

/-- **What is buffered is bounded by the limit**, whatever the stream announces and however it is cut.
If an inbox is drained and there is no fault, what it keeps is at most three bytes above its limit;
and it is above the limit only if it ends inside of a length field.

The limit is at least one byte. If it is the largest size there is, it takes a memory with as many
bytes to exceed it. -/
theorem buffered_drain_le_limit {limit : Nat} {i : Inbox} (hpos : 1 ≤ limit)
    (hreached : Reached limit i) (hok : i.drain.1.fault = none)
    (hx : Walk.Exact limit i.drain.2.buffered) :
    i.drain.2.buffered ≤ limit + 3 ∧
      (limit < i.drain.2.buffered → EndsInLengthField i.drain.2.buffer) := by
  by_cases hlimit : limit < maxSize
  · obtain ⟨i₁, hreached₁, hnext⟩ := hreached.exists_next_of_drain hok
    -- an inbox that has failed would have told its fault again
    have hopen : i₁.failure = none := by
      cases hfailure : i₁.failure with
      | none => rfl
      | some first =>
        rw [next_of_failed hfailure] at hnext
        cases hnext
    obtain ⟨-, hbuffer, hwaits⟩ := next_of_open hopen
    rw [hnext] at hbuffer hwaits
    rw [buffered, hbuffer]
    exact Framer.buffered_le_of_waits hpos hlimit (hreached₁.framer hopen)
      (Prod.ext (hwaits rfl) rfl)
  · -- no memory holds as much
    have hfew : i.drain.2.buffered < maxSize := hx.resolve_left hlimit
    exact ⟨by omega, fun hover => absurd hover (by omega)⟩

/-- One byte is allowed, and four are kept: the marker of a block of bytes, and three of the four
bytes in which its length comes. -/
theorem buffered_drain_le_limit_block :
    let i := ((withLimit 1).feed [0xc6]).drain.2.feed [0x00, 0x00, 0x00]
    1 ≤ 1 ∧ Reached 1 i ∧ i.drain.1.fault = none ∧ Walk.Exact 1 i.drain.2.buffered ∧
      i.drain.2.buffered = 4 ∧ EndsInLengthField i.drain.2.buffer := by
  intro i
  have hfirst : ((withLimit 1).feed [0xc6]).drain = (⟨[], none⟩, (withLimit 1).feed [0xc6]) := by
    rw [drain_eq]
    rfl
  -- nothing was taken off the marker alone, so the four bytes are together
  have hi : i = (withLimit 1).feed [0xc6, 0x00, 0x00, 0x00] := by
    show ((withLimit 1).feed [0xc6]).drain.2.feed [0x00, 0x00, 0x00] = _
    rw [hfirst]
    rfl
  have hdrain : i.drain = (⟨[], none⟩, i) := by
    rw [hi, drain_eq]
    rfl
  have hdrained : Reached 1 ((withLimit 1).feed [0xc6]).drain.2 :=
    (Reached.fed [0xc6] .new).drain (by rw [hfirst])
  have hreached : Reached 1 i := hdrained.fed [0x00, 0x00, 0x00]
  have hok : i.drain.1.fault = none := by rw [hdrain]
  have hx : Walk.Exact 1 i.drain.2.buffered := .inl (by decide)
  have hfour : i.drain.2.buffered = 4 := by
    rw [hdrain, hi]
    rfl
  have hpos : 1 ≤ 1 := Nat.le_refl 1
  obtain ⟨-, hends⟩ := buffered_drain_le_limit hpos hreached hok hx
  exact ⟨hpos, hreached, hok, hx, hfour, hends (by rw [hfour]; decide)⟩

end Wire.Inbox

end BoardLink
