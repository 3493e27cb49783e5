import BoardLink.Proofs.MessagePack.Refusals
import BoardLink.Proofs.MessagePack.SizeLimit
import Mathlib.Logic.Relation
import Mathlib.Order.Bounds.Basic

/-!
# The beginning of a message

What has arrived of a message settles a part of it. `Spans.Opens k front pos owed` says which: what
begins with `front` is `k` values exactly if behind `pos` bytes there are `owed` values. The bytes up
to `pos` may be more than there are in `front`, since a header announces bytes that come after it.

A walk gathers just this. It is taken apart into steps, each of which follows one marker
(`Walk.Follows`), and stays where it can follow no further (`Walk.Stays`), so what is true wherever a
walk stops is proved for one step (`Walk.Knows.follow`).

* `Spans.behind_value` — the crux: what one header settles, as an equivalence;
* `Spans.Opens.isLeast` — the size that an opening announces is the least of all messages that begin
  so, and there is one of that size;
* `Walk.follows_of_scan` — a scan is a sequence of steps;
* `Walk.Knows.of_resume` — what a walk knows of the buffer that it has gone over.
-/

namespace BoardLink.MessagePack

/-! ### In front of a marker and behind it -/

section

variable {buffer rest : Bytes} {marker : UInt8} {pos : Nat}

theorem length_of_drop_eq_cons (h : buffer.drop pos = marker :: rest) :
    buffer.length = pos + 1 + rest.length := by
  have hlength := congrArg List.length h
  rw [List.length_drop, List.length_cons] at hlength
  omega

theorem length_take_of_drop_eq_cons (h : buffer.drop pos = marker :: rest) :
    (buffer.take pos).length = pos := by
  have hlength := length_of_drop_eq_cons h
  exact List.length_take_of_le (by omega)

/-- Up to `n` bytes behind a marker. -/
theorem take_of_drop_eq_cons (h : buffer.drop pos = marker :: rest) (n : Nat) :
    buffer.take (pos + 1 + n) = buffer.take pos ++ marker :: rest.take n := by
  rw [Nat.add_assoc, List.take_add, h, Nat.add_comm 1 n, List.take_succ_cons]

theorem drop_of_drop_eq_cons (h : buffer.drop pos = marker :: rest) (n : Nat) :
    buffer.drop (pos + 1 + n) = rest.drop n := by
  rw [Nat.add_assoc, ← List.drop_drop, h, Nat.add_comm 1 n, List.drop_succ_cons]

/-- A marker in the buffer is a marker of whatever extends the buffer. -/
theorem drop_append_of_drop_eq_cons (h : buffer.drop pos = marker :: rest) (more : Bytes) :
    (buffer ++ more).drop pos = marker :: (rest ++ more) := by
  have hlength := length_of_drop_eq_cons h
  rw [List.drop_append_of_le_length (by omega), h, List.cons_append]

end

/-! ### What a front settles -/

namespace Spans

/-- The bytes are `pos` bytes of any kind and behind them `owed` values. -/
def Behind (pos owed : Nat) (bytes : Bytes) : Prop :=
  pos ≤ bytes.length ∧ Spans owed (bytes.drop pos)

/-- **`front` opens `k` values**, of which it settles the first `pos` bytes, and that `owed` values
are behind them. Nothing else is settled about what begins with `front`. -/
def Opens (k : Nat) (front : Bytes) (pos owed : Nat) : Prop :=
  ∀ bytes, front <+: bytes → (Spans k bytes ↔ Behind pos owed bytes)

/-- The sizes of the messages that begin with `front`. -/
def sizesFrom (front : Bytes) : Set Nat :=
  {n | ∃ message, Spans 1 message ∧ front <+: message ∧ message.length = n}

theorem replicate (k : Nat) : Spans k (List.replicate k 0x00) := by
  induction k with
  | zero => exact .nil
  | succ k ih =>
    -- a small integer is a marker without anything behind it
    have hsmall : (Announcement.ofMarker 0x00).extent? [] = some (([] : Bytes).length, 0) := rfl
    show Spans (k + 1) (0x00 :: ([] ++ List.replicate k 0x00))
    exact .value hsmall (by rwa [Nat.zero_add])

/-- Where a value begins, its own bytes are any, and what is nested in it comes behind them. -/
theorem cons_iff {marker : UInt8} {rest : Bytes} {own nested k : Nat}
    (extent : (Announcement.ofMarker marker).extent? rest = some (own, nested)) :
    Spans (k + 1) (marker :: rest) ↔ Behind own (nested + k) rest := by
  constructor
  · intro h
    cases h with
    | @value _ own' tail nested' _ extent' others =>
      -- the length field says the same to both
      have hsame := Announcement.extent?_append tail extent'
      obtain ⟨rfl, rfl⟩ : own'.length = own ∧ nested' = nested := by
        rw [extent] at hsame
        simpa [eq_comm] using hsame
      refine ⟨?_, ?_⟩
      · rw [List.length_append]
        exact Nat.le_add_right _ _
      · rwa [List.drop_left]
  · rintro ⟨hle, hothers⟩
    have hlength : (rest.take own).length = own := List.length_take_of_le hle
    have hown : (Announcement.ofMarker marker).extent? (rest.take own) =
        some ((rest.take own).length, nested) := by
      rw [hlength]
      exact Announcement.extent?_take (countsMarker_ofMarker marker) extent
    have hvalue := Spans.value hown hothers
    rwa [List.take_append_drop] at hvalue

/-- **What one header settles.** The value that begins behind `pos` bytes takes its own bytes, and
owes what is nested in it. -/
theorem behind_value {pos owed own nested : Nat} {bytes rest : Bytes} {marker : UInt8}
    (hbytes : bytes.drop pos = marker :: rest)
    (extent : (Announcement.ofMarker marker).extent? rest = some (own, nested)) :
    Behind pos (owed + 1) bytes ↔ Behind (pos + 1 + own) (nested + owed) bytes := by
  unfold Behind
  rw [hbytes, cons_iff extent, Behind, drop_of_drop_eq_cons hbytes own,
    -- both sides say the same of what is nested and behind; the rest is where the own bytes end
    length_of_drop_eq_cons hbytes]
  refine ⟨fun ⟨_, hown, hothers⟩ => ⟨?_, hothers⟩, fun ⟨hown, hothers⟩ => ⟨?_, ?_, hothers⟩⟩ <;>
    omega

namespace Opens

variable {k pos owed : Nat} {front : Bytes}

/-- Nothing is settled yet but the number of the values. -/
theorem nil (k : Nat) : Opens k [] 0 k := by
  intro bytes _
  simp [Behind]

/-- The header of the next value settles how many bytes and values it takes. `field` is what there
is behind its marker, its length field at least. -/
theorem header {marker : UInt8} {field : Bytes} {own nested : Nat}
    (h : Opens k front front.length (owed + 1))
    (extent : (Announcement.ofMarker marker).extent? field = some (own, nested)) :
    Opens k (front ++ marker :: field) (front.length + 1 + own) (nested + owed) := by
  -- the header is the next thing in whatever begins with the front and it
  rintro bytes ⟨later, rfl⟩
  have hnext : (front ++ marker :: field ++ later).drop front.length =
      marker :: (field ++ later) := by
    rw [List.append_assoc, List.drop_left, List.cons_append]
  have hbegins : front <+: front ++ marker :: field ++ later := by
    rw [List.append_assoc]
    exact List.prefix_append _ _
  exact (h _ hbegins).trans (behind_value hnext (Announcement.extent?_append later extent))

/-- **What is announced is the least size.** What begins with `front` has the bytes that are settled
and one for each value that is owed; and there is nothing more to it if all other bytes are zero. -/
theorem isLeast (h : Opens 1 front pos owed) (hpos : front.length ≤ pos) :
    IsLeast (sizesFrom front) (pos + owed) := by
  refine ⟨?_, ?_⟩
  · -- the front, zeros for the bytes that are settled, and a zero for each value that is owed
    let filler : Bytes := List.replicate (pos - front.length) 0x00
    have hlength : (front ++ filler).length = pos := by
      rw [List.length_append, List.length_replicate]
      omega
    have hbegins : front <+: front ++ filler ++ List.replicate owed 0x00 := by
      rw [List.append_assoc]
      exact List.prefix_append _ _
    refine ⟨front ++ filler ++ List.replicate owed 0x00, (h _ hbegins).2 ⟨?_, ?_⟩, hbegins, ?_⟩
    · rw [List.length_append]
      omega
    · rw [← hlength, List.drop_left]
      exact replicate owed
    · rw [List.length_append, hlength, List.length_replicate]
  · -- whatever begins so has the settled bytes, and each value that is owed has one at least
    rintro n ⟨message, hmessage, hbegins, rfl⟩
    obtain ⟨hle, hothers⟩ := (h message hbegins).1 hmessage
    have howed := hothers.le_length
    rw [List.length_drop] at howed
    omega

end Opens

end Spans

/-! ### A walk in steps -/

namespace Walk

/-- The walk follows the marker that it stands in front of. -/
def Follows (limit : Nat) (buffer : Bytes) (w next : Walk) : Prop :=
  ∃ marker rest, buffer.drop w.pos = marker :: rest ∧ w.pending ≠ 0 ∧
    w.step limit marker rest = .moved next

/-- Why a walk stays where it is. -/
inductive Stays (limit : Nat) (buffer : Bytes) (w : Walk) : Stop → Prop
  /-- All values are settled. -/
  | complete (howes : w.pending = 0) : Stays limit buffer w .complete
  /-- The bytes end where it stands, or before. -/
  | exhausted (h : buffer.length ≤ w.pos) : Stays limit buffer w .incomplete
  | partialHeader {marker : UInt8} {rest : Bytes} (h : buffer.drop w.pos = marker :: rest)
      (howes : w.pending ≠ 0) (hstep : w.step limit marker rest = .partialHeader) :
      Stays limit buffer w .incomplete
  | reserved {marker : UInt8} {rest : Bytes} (h : buffer.drop w.pos = marker :: rest)
      (howes : w.pending ≠ 0) (hstep : w.step limit marker rest = .reserved) :
      Stays limit buffer w .reserved
  | tooLarge {marker : UInt8} {rest : Bytes} {got : Nat} (h : buffer.drop w.pos = marker :: rest)
      (howes : w.pending ≠ 0) (hstep : w.step limit marker rest = .tooLarge got) :
      Stays limit buffer w (.tooLarge got)

/-- **A scan follows one marker after the other**, and stays where there is none that it can follow.
The scan has `bytes` of the buffer in front of it, those behind the first `offset` ones, and passes
over `skip` of them before it looks for a marker. -/
theorem follows_of_scan {limit skip : Nat} {buffer : Bytes} (hx : Exact limit buffer.length)
    (offset : Nat) {bytes : Bytes} {w last : Walk} {stop : Stop}
    (hbytes : buffer.drop offset = bytes) (hoffset : offset ≤ buffer.length)
    (hskip : skip + offset = w.pos) (h : scan limit w skip bytes = (last, stop)) :
    Relation.ReflTransGen (Follows limit buffer) w last ∧ Stays limit buffer last stop := by
  induction bytes generalizing w skip offset with
  | nil =>
    -- the bytes have come to their end, so the walk ends with them or has ended before
    have hlength : buffer.length ≤ offset := List.drop_eq_nil_iff.1 hbytes
    cases skip with
    | succ skip =>
      obtain ⟨rfl, rfl⟩ := Prod.mk.inj h
      exact ⟨.refl, .exhausted (by omega)⟩
    | zero =>
      by_cases howes : w.pending = 0
      · rw [scan, if_pos howes] at h
        obtain ⟨rfl, rfl⟩ := Prod.mk.inj h
        exact ⟨.refl, .complete howes⟩
      · rw [scan, if_neg howes] at h
        obtain ⟨rfl, rfl⟩ := Prod.mk.inj h
        exact ⟨.refl, .exhausted (by omega)⟩
  | cons marker rest ih =>
    have hrest : buffer.drop (offset + 1) = rest := drop_of_drop_eq_cons hbytes 0
    have hlt : offset < buffer.length := by
      rw [length_of_drop_eq_cons hbytes]
      omega
    cases skip with
    | succ skip => exact ih (offset + 1) hrest hlt (by omega) h
    | zero =>
      -- the walk stands in front of this marker
      rw [show offset = w.pos by omega] at hbytes hrest hlt
      rw [scan] at h
      by_cases howes : w.pending = 0
      · rw [if_pos howes] at h
        obtain ⟨rfl, rfl⟩ := Prod.mk.inj h
        exact ⟨.refl, .complete howes⟩
      · rw [if_neg howes] at h
        cases hstep : w.step limit marker rest with
        | partialHeader =>
          rw [hstep] at h
          obtain ⟨rfl, rfl⟩ := Prod.mk.inj h
          exact ⟨.refl, .partialHeader hbytes howes hstep⟩
        | reserved =>
          rw [hstep] at h
          obtain ⟨rfl, rfl⟩ := Prod.mk.inj h
          exact ⟨.refl, .reserved hbytes howes hstep⟩
        | tooLarge got =>
          rw [hstep] at h
          obtain ⟨rfl, rfl⟩ := Prod.mk.inj h
          exact ⟨.refl, .tooLarge hbytes howes hstep⟩
        | moved next =>
          rw [hstep] at h
          -- the marker lies behind the walk now, so the scan goes on with what is left
          have hpos := pos_lt_of_moved hstep (hx.mono hlt)
          obtain ⟨hfollows, hstays⟩ := ih (w.pos + 1) hrest hlt (by omega) h
          exact ⟨.head ⟨marker, rest, hbytes, howes, hstep⟩ hfollows, hstays⟩

theorem follows_of_resume {limit : Nat} {buffer : Bytes} {w : Walk} {stop : Stop}
    (hx : Exact limit buffer.length) (w₀ : Walk) (h : w₀.resume limit buffer = (w, stop)) :
    Relation.ReflTransGen (Follows limit buffer) w₀ w ∧ Stays limit buffer w stop :=
  follows_of_scan hx 0 rfl (Nat.zero_le _) (Nat.add_zero _) h

/-- **What a marker that is followed comes to**, below a limit that can be exceeded. -/
theorem Follows.extent {limit : Nat} {buffer : Bytes} {w next : Walk}
    (hlimit : limit < maxSize) (h : Follows limit buffer w next) :
    ∃ marker rest own nested owed, buffer.drop w.pos = marker :: rest ∧ w.pending = owed + 1 ∧
      (Announcement.ofMarker marker).extent? rest = some (own, nested) ∧
      next = ⟨w.pos + 1 + own, nested + owed⟩ ∧ next.pos + next.pending ≤ limit := by
  obtain ⟨marker, rest, hbytes, howes, hstep⟩ := h
  have hle := (moved_inv hstep).1
  -- no sum has stopped at the largest size, as that would be over the limit
  have hwithin : next.pos + next.pending ≤ limit := by
    simp only [addSizes] at hle
    omega
  obtain ⟨own, nested, hextent, hnext⟩ :=
    extent_of_moved hstep (Nat.lt_of_le_of_lt hwithin hlimit)
  exact ⟨marker, rest, own, nested, w.pending - 1, hbytes, by omega, hextent, hnext, hwithin⟩

/-- A step never lowers the least size. -/
theorem needed_le_of_follows {limit : Nat} {buffer : Bytes} {w last : Walk}
    (hlimit : limit < maxSize) (h : Relation.ReflTransGen (Follows limit buffer) w last) :
    w.needed ≤ last.needed := by
  induction h with
  | refl => exact Nat.le_refl _
  | @tail w' last _ hstep ih =>
    obtain ⟨marker, rest, own, nested, owed, -, howes, -, rfl, -⟩ := hstep.extent hlimit
    simp only [needed] at ih ⊢
    -- a header takes its own bytes, the marker at least, for the one value that was owed
    omega

end Walk

theorem headersFrom_drop (pos owed skip : Nat) (bytes : Bytes) :
    headersFrom pos owed skip bytes = headersFrom pos owed 0 (bytes.drop skip) := by
  induction bytes generalizing skip with
  | nil => cases skip <;> rfl
  | cons b rest ih =>
    cases skip with
    | zero => rfl
    | succ skip => exact ih skip

/-- The headers from a value on are its own one, and those behind its own bytes. -/
theorem headersFrom_of_extent {pos owed own nested : Nat} {bytes rest : Bytes} {marker : UInt8}
    (hbytes : bytes.drop pos = marker :: rest)
    (extent : (Announcement.ofMarker marker).extent? rest = some (own, nested)) :
    headersFrom pos (owed + 1) 0 (bytes.drop pos) =
      ⟨pos + 1 + (Announcement.ofMarker marker).fieldWidth, pos + 1 + own + (nested + owed)⟩ ::
        headersFrom (pos + 1 + own) (nested + owed) 0 (bytes.drop (pos + 1 + own)) := by
  rw [hbytes, headersFrom, if_neg (Nat.succ_ne_zero owed), extent,
    drop_of_drop_eq_cons hbytes own, ← headersFrom_drop (pos + 1 + own) (nested + owed) own rest]
  rfl

/-! ### What a walk knows -/

namespace Walk

/-- **What a walk that began in front of a buffer knows of it.** -/
structure Knows (limit : Nat) (buffer : Bytes) (w : Walk) : Prop where
  /-- A limit of nothing is exceeded by every message, but not before its marker is there. -/
  within : w.pos + w.pending ≤ max limit 1
  opens : Spans.Opens 1 (buffer.take w.pos) w.pos w.pending
  /-- The headers up to here are within the limit, whatever follows, and the others are those from
  here on. -/
  announced : ∀ more, ∃ followed, headers (buffer ++ more) =
      followed ++ headersFrom w.pos w.pending 0 ((buffer ++ more).drop w.pos) ∧
    ∀ h ∈ followed, h.stop ≤ w.pos ∧ h.size ≤ limit

theorem Knows.start (limit : Nat) (buffer : Bytes) : Knows limit buffer .start where
  within := Nat.le_max_right limit 1
  opens := by
    rw [show Walk.start.pos = 0 from rfl, List.take_zero]
    exact .nil 1
  announced more := ⟨[], rfl, by simp⟩

/-- In front of a marker, all that has been walked over is there. -/
theorem Knows.opens_marker {limit : Nat} {buffer rest : Bytes} {w : Walk} {marker : UInt8}
    (h : Knows limit buffer w) (hbytes : buffer.drop w.pos = marker :: rest) :
    Spans.Opens 1 (buffer.take w.pos) (buffer.take w.pos).length w.pending := by
  rw [length_take_of_drop_eq_cons hbytes]
  exact h.opens

/-- **A walk that follows a marker knows what it announces.** -/
theorem Knows.follow {limit : Nat} {buffer : Bytes} {w next : Walk} (hlimit : limit < maxSize)
    (h : Knows limit buffer w) (hstep : Follows limit buffer w next) :
    Knows limit buffer next := by
  obtain ⟨marker, rest, own, nested, owed, hbytes, howes, hextent, rfl, hwithin⟩ :=
    hstep.extent hlimit
  refine ⟨Nat.le_trans hwithin (Nat.le_max_left limit 1), ?_, fun more => ?_⟩
  · have hopens := h.opens_marker hbytes
    rw [howes] at hopens
    -- the length field is among the value's own bytes
    have hown := Announcement.extent?_take (countsMarker_ofMarker marker) hextent
    have hnext := hopens.header hown
    rwa [length_take_of_drop_eq_cons hbytes, ← take_of_drop_eq_cons hbytes own] at hnext
  · obtain ⟨followed, hheaders, hfollowed⟩ := h.announced more
    have hmore := drop_append_of_drop_eq_cons hbytes more
    have hfield := (Announcement.fieldWidth_le (countsMarker_ofMarker marker) hextent).2
    rw [howes, headersFrom_of_extent hmore (Announcement.extent?_append more hextent),
      List.append_cons] at hheaders
    refine ⟨_, hheaders, fun header hheader => ?_⟩
    rcases List.mem_append.1 hheader with hearlier | hlast
    · have hbounds := hfollowed header hearlier
      -- the earlier headers lie in front of the marker, and the last one is that of the marker
      exact ⟨by simp only; omega, hbounds.2⟩
    · obtain rfl := List.mem_singleton.1 hlast
      exact ⟨by simp only; omega, hwithin⟩

/-- **A walk that begins in front of a buffer knows of it wherever it stops.** -/
theorem Knows.of_resume {limit : Nat} {buffer : Bytes} {w : Walk} {stop : Stop}
    (hlimit : limit < maxSize) (h : Walk.start.resume limit buffer = (w, stop)) :
    Knows limit buffer w ∧ Stays limit buffer w stop := by
  obtain ⟨hfollows, hstays⟩ := follows_of_resume (.inl hlimit) Walk.start h
  refine ⟨?_, hstays⟩
  clear h hstays
  induction hfollows with
  | refl => exact .start limit buffer
  | tail _ hstep ih => exact ih.follow hlimit hstep

end Walk

end BoardLink.MessagePack
