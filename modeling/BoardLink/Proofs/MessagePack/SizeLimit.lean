import BoardLink.Proofs.MessagePack.Stream

/-!
# What the size limit decides

A message says how long it is bit by bit: each header, a marker with its length field, announces
bytes or values to come, and so a least size of the message. The least sizes grow from header to
header up to the size itself (`Spans.header_bounds`, `Spans.exists_size_eq`). A framer compares
them with its limit one by one, so what it decides is the size of the message: a message above the
limit is refused at the first header whose least size is, and one within the limit never.

* `headers` — the headers of a message, read off its bytes without a walk or a limit;
* `Walk.scan_of_over` — the crux: a walk over any part of a message that is too large is refused by
  the first header that is over the limit, or waits if that header has not arrived;
* `Framer.Settles.asked_eq` — what a framer says to any part of a stream it says at the first piece
  with which that part has arrived;
* `Framer.tooLarge_iff_limit_lt_length` — a message is refused for its size if and only if it is
  larger than the limit.
-/

namespace BoardLink.MessagePack

/-! ### Headers -/

/-- How many bytes the length field behind a marker takes. -/
def Announcement.fieldWidth : Announcement → Nat
  | .sized _ width | .sizedContainer width _ => width
  | .fixed _ | .container _ | .reserved => 0

/-- A header of a message: a marker and its length field. -/
structure Header where
  /-- The number of bytes of the message up to the end of the header. -/
  stop : Nat
  /-- The least size of a message with the headers up to this one: the bytes announced so far, and
  one for each value that is still to come. -/
  size : Nat
  deriving DecidableEq, Repr

/-- The headers of `owed` values, of which the first begins behind `pos` bytes. The next `skip`
bytes belong to a value whose header was read before. -/
def headersFrom (pos owed : Nat) : (skip : Nat) → Bytes → List Header
  | _, [] => []
  | skip + 1, _ :: rest => headersFrom pos owed skip rest
  | 0, marker :: rest =>
    if owed = 0 then []
    else match (Announcement.ofMarker marker).extent? rest with
      | none => []
      | some (own, nested) =>
        let pos' := pos + 1 + own
        let owed' := nested + (owed - 1)
        ⟨pos + 1 + (Announcement.ofMarker marker).fieldWidth, pos' + owed'⟩ ::
          headersFrom pos' owed' own rest

/-- The headers of a message, in their order. -/
def headers (message : Bytes) : List Header := headersFrom 0 1 0 message

/-- The first header that announces more than a limit. -/
def firstOver? (limit : Nat) (message : Bytes) : Option Header :=
  (headers message).find? (limit < ·.size)

theorem headersFrom_append_skip (pos owed : Nat) (own rest : Bytes) :
    headersFrom pos owed own.length (own ++ rest) = headersFrom pos owed 0 rest := by
  induction own with
  | nil => rfl
  | cons b own ih => exact ih

/-- The headers of values are that of the first one, and those of what is behind it. -/
theorem headersFrom_value {marker : UInt8} {own tail : Bytes} {nested k : Nat} (pos : Nat)
    (extent : (Announcement.ofMarker marker).extent? own = some (own.length, nested)) :
    headersFrom pos (k + 1) 0 (marker :: (own ++ tail)) =
      ⟨pos + 1 + (Announcement.ofMarker marker).fieldWidth, pos + 1 + own.length + (nested + k)⟩ ::
        headersFrom (pos + 1 + own.length) (nested + k) 0 tail := by
  rw [headersFrom, if_neg (Nat.succ_ne_zero k), Announcement.extent?_append tail extent]
  simp only [Nat.add_sub_cancel, headersFrom_append_skip]

/-! ### The length field alone -/

/-- What a marker announces depends on its length field alone. -/
theorem Announcement.extent?_take_field (a : Announcement) (rest : Bytes) :
    a.extent? (rest.take a.fieldWidth) = a.extent? rest := by
  have hfield : ∀ width,
      Walk.lengthField? width (rest.take width) = Walk.lengthField? width rest := by
    intro width
    rw [Walk.lengthField?, Walk.lengthField?, List.take_take, Nat.min_self]
  -- only a length field looks at the bytes behind the marker, and it looks at its own ones
  cases a with
  | fixed | container | reserved => rfl
  | sized header width | sizedContainer width perEntry =>
    simp only [Announcement.extent?, fieldWidth, hfield]

/-- The length field is there if the extent is known, and it is among the value's own bytes. -/
theorem Announcement.fieldWidth_le {a : Announcement} {rest : Bytes} {own nested : Nat}
    (ha : a.CountsMarker) (h : a.extent? rest = some (own, nested)) :
    a.fieldWidth ≤ rest.length ∧ a.fieldWidth ≤ own := by
  cases a with
  | reserved => cases h
  | fixed | container => exact ⟨Nat.zero_le _, Nat.zero_le _⟩
  | sized header width =>
    have hwidth : width < header := ha
    simp only [Announcement.extent?, Option.map_eq_some_iff, Walk.lengthField?_eq_some_iff,
      Prod.mk.injEq] at h
    obtain ⟨n, ⟨hle, -⟩, rfl, -⟩ := h
    exact ⟨hle, by simp only [fieldWidth]; omega⟩
  | sizedContainer width perEntry =>
    simp only [Announcement.extent?, Option.map_eq_some_iff, Walk.lengthField?_eq_some_iff,
      Prod.mk.injEq] at h
    obtain ⟨n, ⟨hle, -⟩, rfl, -⟩ := h
    exact ⟨hle, Nat.le_refl _⟩

/-- The extent is known as soon as the length field has arrived. -/
theorem Announcement.extent?_of_prefix {a : Announcement} {front own more : Bytes} {nested : Nat}
    (ha : a.CountsMarker) (h : a.extent? own = some (own.length, nested))
    (hfront : front <+: own ++ more) (hfield : a.fieldWidth ≤ front.length) :
    a.extent? front = some (own.length, nested) := by
  have hwidth := (Announcement.fieldWidth_le ha h).1
  have htake : front.take a.fieldWidth = own.take a.fieldWidth := by
    rw [(List.prefix_iff_eq_take.1 hfront), List.take_take, Nat.min_eq_left hfield,
      List.take_append_of_le_length hwidth]
  -- the two have the same length field, and nothing else of them matters
  rw [← a.extent?_take_field front, htake, a.extent?_take_field own, h]

/-! ### The least sizes of a message -/

namespace Spans

/-- No header announces more than the size of the message that it belongs to. -/
theorem header_bounds {k : Nat} {used : Bytes} (hs : Spans k used) {pos : Nat} {h : Header}
    (hh : h ∈ headersFrom pos k 0 used) :
    pos < h.stop ∧ h.stop ≤ h.size ∧ h.size ≤ pos + used.length := by
  induction hs generalizing pos with
  | nil => cases hh
  | @value marker own tail nested k extent others ih =>
    have htail := others.le_length
    have hfield := (Announcement.fieldWidth_le (countsMarker_ofMarker marker) extent).2
    rw [headersFrom_value pos extent] at hh
    simp only [List.length_cons, List.length_append]
    -- the header of the first value, or one further on, which lies behind this value's own bytes
    rcases List.mem_cons.1 hh with rfl | hlater
    · simp only
      omega
    · have hbounds := ih hlater
      omega

/-- The last header announces all of it. -/
theorem exists_size_eq {k : Nat} {used : Bytes} (hs : Spans k used) (hk : k ≠ 0) (pos : Nat) :
    ∃ h ∈ headersFrom pos k 0 used, h.size = pos + used.length := by
  induction hs generalizing pos with
  | nil => exact absurd rfl hk
  | @value marker own tail nested k extent others ih =>
    rw [headersFrom_value pos extent]
    simp only [List.length_cons, List.length_append]
    by_cases hlast : nested + k = 0
    · -- nothing is to come, so this header is the last one
      rw [hlast] at others ⊢
      cases others
      exact ⟨_, List.mem_cons_self, by simp only [List.length_nil]; omega⟩
    · obtain ⟨h, hh, hsize⟩ := ih hlast (pos + 1 + own.length)
      exact ⟨h, List.mem_cons_of_mem _ hh, by omega⟩

end Spans

/-- The first header that is over a limit is that of the first value, or it lies behind the bytes of
this value's own. -/
theorem over_value {limit pos nested k : Nat} {marker : UInt8} {own tail : Bytes} {h : Header}
    (extent : (Announcement.ofMarker marker).extent? own = some (own.length, nested))
    (others : Spans (nested + k) tail)
    (hover :
      (headersFrom pos (k + 1) 0 (marker :: (own ++ tail))).find? (limit < ·.size) = some h) :
    (limit < pos + 1 + own.length + (nested + k) ∧
      h = ⟨pos + 1 + (Announcement.ofMarker marker).fieldWidth,
        pos + 1 + own.length + (nested + k)⟩) ∨
    (pos + 1 + own.length + (nested + k) ≤ limit ∧ pos + 1 + own.length < h.stop ∧
      (headersFrom (pos + 1 + own.length) (nested + k) 0 tail).find? (limit < ·.size) =
        some h) := by
  rw [headersFrom_value pos extent, List.find?_cons] at hover
  split at hover
  next hlarge => exact .inl ⟨of_decide_eq_true hlarge, (Option.some.inj hover).symm⟩
  next hsmall =>
    have hlater := (others.header_bounds (List.mem_of_find?_eq_some hover)).1
    exact .inr ⟨Nat.le_of_not_lt (of_decide_eq_false hsmall), hlater, hover⟩

/-- The first header that is over the limit lies in the message, and says no more than its size. -/
theorem firstOver?_bounds {limit : Nat} {message : Bytes} {h : Header} (hmessage : Spans 1 message)
    (hover : firstOver? limit message = some h) :
    0 < h.stop ∧ h.stop ≤ message.length ∧ limit < h.size ∧ h.size ≤ message.length := by
  have hbounds := hmessage.header_bounds (List.mem_of_find?_eq_some hover)
  -- that it is over the limit is what it was looked for by
  have hlimit : limit < h.size := by simpa using List.find?_some hover
  omega

/-- **A header announces more than the limit exactly if the message is larger than the limit.** -/
theorem exists_firstOver?_iff {limit : Nat} {message : Bytes} (hmessage : Spans 1 message) :
    (∃ h, firstOver? limit message = some h) ↔ limit < message.length := by
  rw [← Option.isSome_iff_exists, firstOver?, List.find?_isSome]
  constructor
  · rintro ⟨h, hh, hover⟩
    have hsize : h.size ≤ message.length := by simpa using (hmessage.header_bounds hh).2.2
    exact Nat.lt_of_lt_of_le (of_decide_eq_true hover) hsize
  · intro hlimit
    -- the last header announces the whole message, so it is over the limit, if none before it is
    obtain ⟨h, hh, hsize⟩ := hmessage.exists_size_eq Nat.one_ne_zero 0
    exact ⟨h, hh, decide_eq_true (by omega)⟩

/-! ### Walks over a part of a message -/

namespace Walk

/-- A marker waits for its length field. -/
theorem step_of_partial {limit : Nat} {w : Walk} {marker : UInt8} {rest : Bytes}
    (h : rest.length < (Announcement.ofMarker marker).fieldWidth) :
    w.step limit marker rest = .partialHeader := by
  have hfield : ∀ {width}, rest.length < width → lengthField? width rest = none := by
    intro width hlt
    rw [lengthField?, if_neg]
    rw [List.length_take]
    omega
  unfold step
  cases hm : Announcement.ofMarker marker with
  | fixed | container | reserved =>
    rw [hm] at h
    cases h
  | sized header width | sizedContainer width perEntry =>
    rw [hm] at h
    have hnone : lengthField? width rest = none := hfield h
    simp only [hnone]

/-- A marker is refused if what it announces exceeds the limit. -/
theorem tooLarge_of_extent {limit : Nat} {w : Walk} {marker : UInt8} {rest : Bytes}
    {own nested : Nat} (h : (Announcement.ofMarker marker).extent? rest = some (own, nested))
    (hover : limit < min (w.pos + 1 + own + (nested + (w.pending - 1))) maxSize) :
    w.step limit marker rest =
      .tooLarge (min (w.pos + 1 + own + (nested + (w.pending - 1))) maxSize) := by
  obtain ⟨next, hstep, hsize, -⟩ := step_of_extent (w := w) limit h
  simp only [hstep, checked, hsize, if_pos hover]

/-- A walk waits inside of a value's own bytes. -/
theorem scan_of_short {limit skip : Nat} {w : Walk} {bytes : Bytes} (h : bytes.length < skip) :
    scan limit w skip bytes = (w, .incomplete) := by
  -- each byte that is there is one of those to be skipped
  induction bytes generalizing skip with
  | nil =>
    obtain ⟨skip, rfl⟩ := Nat.exists_eq_add_one.2 h
    rfl
  | cons b rest ih =>
    obtain ⟨skip, rfl⟩ := Nat.exists_eq_add_one.2 (Nat.zero_lt_of_lt h)
    rw [List.length_cons] at h
    exact ih (by omega)

/-- A walk that has followed a marker waits inside of the value's own bytes, and then goes on behind
them. -/
theorem scan_of_moved {limit : Nat} {w next : Walk} {marker : UInt8} {front own behind : Bytes}
    (howes : w.pending ≠ 0) (hmoved : w.step limit marker front = .moved next)
    (hpos : next.pos = w.pos + 1 + own.length) (hfront : front <+: own ++ behind) :
    (front.length < own.length ∧ scan limit w 0 (marker :: front) = (next, .incomplete)) ∨
      ∃ later, front = own ++ later ∧ later <+: behind ∧
        scan limit w 0 (marker :: front) = scan limit next 0 later := by
  have hskip : next.pos - w.pos - 1 = own.length := by omega
  rw [scan, if_neg howes, hmoved]
  simp only [hskip]
  by_cases hown : front.length < own.length
  · exact .inl ⟨hown, scan_of_short hown⟩
  · obtain ⟨later, rfl⟩ : own <+: front :=
      List.prefix_of_prefix_length_le (List.prefix_append own behind) hfront (Nat.le_of_not_lt hown)
    exact .inr ⟨later, rfl, (List.prefix_append_right_inj own).1 hfront, scan_append_skip _ _ _ _⟩

/-- **A walk is refused by the first header that is over the limit**, once that header has arrived,
and waits before. `front` is what has arrived of the values that are owed and of what is behind
them. The induction is on the values: a header within the limit is followed, its value's own bytes
are skipped as far as they are there, and the rest is the induction's. -/
theorem scan_of_over {limit k : Nat} {used : Bytes} (hs : Spans k used) {w : Walk} {h : Header}
    {front behind : Bytes} (hk : w.pending = k) (hlimit : limit ≤ maxSize)
    (hx : Exact limit (w.pos + used.length))
    (hover : (headersFrom w.pos k 0 used).find? (limit < ·.size) = some h)
    (hfront : front <+: used ++ behind) :
    (scan limit w 0 front).2 =
      if h.stop ≤ w.pos + front.length then .tooLarge (min h.size maxSize) else .incomplete := by
  induction hs generalizing w front with
  | nil => cases hover
  | @value marker own tail nested k extent others ih =>
    have hcounts := countsMarker_ofMarker marker
    have hfield := (Announcement.fieldWidth_le hcounts extent).2
    obtain ⟨-, hsize⟩ := (Spans.value extent others).header_bounds (List.mem_of_find?_eq_some hover)
    have hcases := over_value extent others hover
    have hstop : w.pos + 1 + (Announcement.ofMarker marker).fieldWidth ≤ h.stop := by
      rcases hcases with ⟨-, rfl⟩ | ⟨-, hlater, -⟩
      · exact Nat.le_refl _
      · omega
    cases front with
    | nil =>
      -- the marker has not arrived
      rw [scan, if_neg (by omega), if_neg (by rw [List.length_nil]; omega)]
    | cons first front =>
      obtain ⟨rfl, hrest⟩ := List.cons_prefix_cons.1 hfront
      have hrest : front <+: own ++ (tail ++ behind) := by
        rw [← List.append_assoc]
        exact hrest
      have howes : w.pending ≠ 0 := by omega
      have howed : nested + (w.pending - 1) = nested + k := by omega
      rw [List.length_cons]
      by_cases harrived : (Announcement.ofMarker first).fieldWidth ≤ front.length
      · have hextent := Announcement.extent?_of_prefix hcounts extent hrest harrived
        rcases hcases with ⟨hlarge, rfl⟩ | ⟨hsmall, hlater, hover⟩
        · -- the header is here, and it is refused
          have hlt : limit < min (w.pos + 1 + own.length + (nested + (w.pending - 1))) maxSize := by
            rw [howed]
            -- neither the limit nor a message that fits the memory lets a sum stop
            rcases hx with hlimit | htotal
            · exact Nat.lt_min.2 ⟨hlarge, hlimit⟩
            · exact Nat.lt_min.2 ⟨hlarge, by simp only at hsize; omega⟩
          rw [scan, if_neg howes, tooLarge_of_extent hextent hlt, howed,
            if_pos (by simp only; omega)]
        · -- the header is followed, and the one that is over the limit is still to come
          have hmoved := moved_of_extent hextent hlimit (by rw [howed]; exact hsmall)
          rcases scan_of_moved howes hmoved rfl hrest with
            ⟨hown, hscan⟩ | ⟨later, rfl, hbehind, hscan⟩
          · rw [hscan, if_neg (by omega)]
          -- what is left ends where the message ends
          · have hx' : Exact limit (w.pos + 1 + own.length + tail.length) :=
              hx.mono (by simp only [List.length_cons, List.length_append]; omega)
            have hlength : w.pos + ((own ++ later).length + 1) =
                w.pos + 1 + own.length + later.length := by
              rw [List.length_append]
              omega
            rw [hscan, ih howed hx' hover hbehind, hlength]
      · -- its length field has not arrived
        rw [scan, if_neg howes, step_of_partial (Nat.lt_of_not_le harrived), if_neg (by omega)]

end Walk

/-! ### What a framer says to a stream in pieces -/

namespace Framer

/-- What a framer says that is asked once behind each piece of a stream, up to the first time that
it says anything but to wait. -/
def asked (f : Framer) (buffer : Bytes) :
    (pieces : List Bytes) → List (Except FrameFault (Option Value))
  | [] => []
  | piece :: pieces =>
    match f.next (buffer ++ piece) with
    | (.ok none, f', rest) => .ok none :: asked f' rest pieces
    | (result, _, _) => [result]

/-- The piece behind the first `before` ones is that with which `bytes` bytes have arrived. -/
def ArrivesWith (pieces : List Bytes) (before bytes : Nat) : Prop :=
  (pieces.take before).flatten.length < bytes ∧ bytes ≤ (pieces.take (before + 1)).flatten.length

/-- **A new framer says `result` to a stream once `bytes` bytes of it have arrived**, and waits
before. -/
structure Settles (limit : Nat) (stream : Bytes) (bytes : Nat)
    (result : Except FrameFault (Option Value)) : Prop where
  pos : 0 < bytes
  settled : result ≠ .ok none
  next_eq : ∀ front, front <+: stream →
    (next { limit := limit } front).1 = if bytes ≤ front.length then result else .ok none

/-- What a framer says that goes on as a new one would. `buffer` is what has arrived before, which
is not enough. The induction is on the pieces; while the framer waits, what it has walked over does
not show. -/
theorem Settles.asked_of_waited {limit bytes : Nat} {stream : Bytes}
    {result : Except FrameFault (Option Value)} (h : Settles limit stream bytes result)
    (hx : Walk.Exact limit bytes) {f : Framer} {buffer : Bytes} {pieces : List Bytes}
    (hnext : ∀ more, f.next (buffer ++ more) = next { limit := limit } (buffer ++ more))
    (hlimit : f.limit = limit) (hlt : buffer.length < bytes)
    (hstream : buffer ++ pieces.flatten <+: stream) :
    (bytes ≤ (buffer ++ pieces.flatten).length → ∃ before,
      (buffer ++ (pieces.take before).flatten).length < bytes ∧
      bytes ≤ (buffer ++ (pieces.take (before + 1)).flatten).length ∧
      f.asked buffer pieces = List.replicate before (.ok none) ++ [result]) ∧
    ((buffer ++ pieces.flatten).length < bytes →
      f.asked buffer pieces = List.replicate pieces.length (.ok none)) := by
  induction pieces generalizing f buffer with
  | nil =>
    rw [List.flatten_nil, List.append_nil]
    exact ⟨fun harrived => absurd hlt (Nat.not_lt.2 harrived), fun _ => rfl⟩
  | cons piece pieces ih =>
    rw [List.flatten_cons, ← List.append_assoc] at hstream ⊢
    -- this framer says what a new one would say to all that has arrived
    have hfirst : (f.next (buffer ++ piece)).1 =
        if bytes ≤ (buffer ++ piece).length then result else .ok none := by
      rw [hnext piece]
      exact h.next_eq _ ((List.prefix_append _ _).trans hstream)
    match hasked : f.next (buffer ++ piece) with
    | (said, f', rest) =>
    rw [hasked] at hfirst
    by_cases harrived : bytes ≤ (buffer ++ piece).length
    · -- enough has arrived with this piece
      obtain rfl : said = result := by rwa [if_pos harrived] at hfirst
      refine ⟨fun _ => ⟨0, ?_, ?_, ?_⟩, fun hshort => ?_⟩
      · simpa using hlt
      · simpa using harrived
      · rw [asked, hasked]
        split
        next heq => exact absurd (Prod.mk.inj heq).1 h.settled
        next heq => rw [← (Prod.mk.inj heq).1]; rfl
      · rw [List.length_append] at hshort
        omega
    · -- the framer waits, and what it has walked over does not show
      obtain rfl : said = .ok none := by rwa [if_neg harrived] at hfirst
      have hx' : Walk.Exact f.limit (buffer ++ piece).length :=
        hlimit ▸ hx.mono (Nat.le_of_lt (Nat.lt_of_not_le harrived))
      have hresumed : ∀ more,
          f'.next (buffer ++ piece ++ more) =
            next { limit := limit } (buffer ++ piece ++ more) := by
        intro more
        rw [(next_append_of_wait more hx' hasked).2, List.append_assoc, hnext]
      obtain ⟨rfl, -⟩ := next_append_of_wait [] hx' hasked
      have hlimit' : f'.limit = limit := by
        rw [← hlimit, ← limit_next f (buffer ++ piece), hasked]
      have hcons : f.asked buffer (piece :: pieces) =
          .ok none :: f'.asked (buffer ++ piece) pieces := by
        rw [asked, hasked]
      obtain ⟨htells, hwaits⟩ :=
        ih hresumed hlimit' (Nat.lt_of_not_le harrived) hstream
      refine ⟨fun hlater => ?_, fun hshort => ?_⟩
      · obtain ⟨before, hbefore, hafter, hsaid⟩ := htells hlater
        refine ⟨before + 1, ?_, ?_, ?_⟩
        · simpa using hbefore
        · simpa using hafter
        · rw [hcons, hsaid]
          rfl
      · rw [hcons, hwaits hshort]
        rfl

/-- **When a framer says what it says does not depend on the pieces** but for the one that is the
first with enough bytes. -/
theorem Settles.asked_eq {limit bytes : Nat} {stream : Bytes}
    {result : Except FrameFault (Option Value)} (h : Settles limit stream bytes result)
    (hx : Walk.Exact limit bytes) {pieces : List Bytes} (hpieces : pieces.flatten <+: stream) :
    (bytes ≤ pieces.flatten.length → ∃ before, ArrivesWith pieces before bytes ∧
      asked { limit := limit } [] pieces = List.replicate before (.ok none) ++ [result]) ∧
    (pieces.flatten.length < bytes →
      asked { limit := limit } [] pieces = List.replicate pieces.length (.ok none)) := by
  have hnew : ∀ more, next { limit := limit } ([] ++ more) = next { limit := limit } ([] ++ more) :=
    fun _ => rfl
  obtain ⟨htells, hwaits⟩ := h.asked_of_waited hx hnew rfl h.pos hpieces
  refine ⟨fun harrived => ?_, hwaits⟩
  obtain ⟨before, hlt, hle, hasked⟩ := htells harrived
  exact ⟨before, ⟨hlt, hle⟩, hasked⟩

/-! ### The size decides -/

section SizeDecides

variable {limit : Nat} {message : Bytes}

/-- A message that is too large is refused with its first header that is over the limit. -/
theorem settles_of_over {h : Header} (hlimit : limit ≤ maxSize)
    (hx : Walk.Exact limit message.length) (hmessage : Spans 1 message)
    (hover : firstOver? limit message = some h) (behind : Bytes) :
    Settles limit (message ++ behind) h.stop (.error (.tooLarge limit (min h.size maxSize))) where
  pos := (firstOver?_bounds hmessage hover).1
  settled := by simp
  next_eq := by
    intro front hfront
    have hx' : Walk.Exact limit (Walk.start.pos + message.length) := by
      rwa [Walk.start, Nat.zero_add]
    have hstop : (Walk.start.resume limit front).2 =
        if h.stop ≤ Walk.start.pos + front.length then .tooLarge (min h.size maxSize)
        else .incomplete :=
      Walk.scan_of_over hmessage rfl hlimit hx' hover hfront
    rw [Walk.start, Nat.zero_add, ← Walk.start] at hstop
    unfold next
    cases hpart : Walk.start.resume limit front with
    | mk w stop =>
    by_cases harrived : h.stop ≤ front.length
    · rw [if_pos harrived, hpart] at hstop
      obtain rfl : stop = .tooLarge (min h.size maxSize) := hstop
      rw [if_pos harrived]
    · rw [if_neg harrived, hpart] at hstop
      obtain rfl : stop = .incomplete := hstop
      rw [if_neg harrived]

/-- A message within the limit is read with its last byte, and not refused for its size. -/
theorem settles_of_within (hlimit : limit ≤ maxSize) (hle : message.length ≤ limit)
    (hmessage : Spans 1 message) (behind : Bytes) :
    Settles limit (message ++ behind) message.length (readMessage message) where
  pos := hmessage.le_length
  settled := readMessage_ne_none message
  next_eq := by
    intro front hfront
    unfold next
    by_cases harrived : message.length ≤ front.length
    · obtain ⟨later, rfl⟩ : message <+: front :=
        List.prefix_of_prefix_length_le (List.prefix_append message behind) hfront harrived
      have hwhole : Walk.start.resume limit (message ++ later) =
          (⟨Walk.start.pos + message.length, 0⟩, .complete) :=
        Walk.complete_of_spans hmessage rfl hlimit (by rwa [Walk.start, Nat.zero_add]) later
      have htake : (message ++ later).take (Walk.start.pos + message.length) = message := by
        rw [Walk.start, Nat.zero_add, List.take_left]
      simp only [hwhole, htake, if_pos harrived]
    · have hpart : front <+: message :=
        List.prefix_of_prefix_length_le hfront (List.prefix_append message behind)
          (Nat.le_of_not_le harrived)
      have hproper : front ≠ message := by
        rintro rfl
        exact harrived (Nat.le_refl _)
      have hstop := Walk.resume_of_proper hmessage hlimit hle hpart hproper
      cases hw : Walk.start.resume limit front with
      | mk w stop =>
      obtain rfl : stop = .incomplete := by rwa [hw] at hstop
      rw [if_neg harrived]

/-- Refusals for their size are only among what is said last. -/
theorem tooLarge_mem_iff {before max got : Nat} {result : Except FrameFault (Option Value)} :
    .error (.tooLarge max got) ∈ List.replicate before (.ok none) ++ [result] ↔
      result = .error (.tooLarge max got) := by
  -- what was said before is that the framer waits
  simp [List.mem_replicate, eq_comm]

theorem readMessage_ne_tooLarge (message : Bytes) (max got : Nat) :
    readMessage message ≠ .error (.tooLarge max got) := by
  unfold readMessage
  split <;> simp

/-- A message above the limit is refused with its first header that is over the limit, and what the
refusal names is above the limit and at most the size of the message. -/
theorem exists_settles_of_over (hlimit : limit ≤ maxSize) (hx : Walk.Exact limit message.length)
    (hmessage : Spans 1 message) (hlt : limit < message.length) :
    ∃ h got, firstOver? limit message = some h ∧ h.stop ≤ message.length ∧ limit < got ∧
      got ≤ message.length ∧
      ∀ behind, Settles limit (message ++ behind) h.stop (.error (.tooLarge limit got)) := by
  obtain ⟨h, hover⟩ := (exists_firstOver?_iff hmessage).2 hlt
  obtain ⟨-, hstop, hsize, hle⟩ := firstOver?_bounds hmessage hover
  -- the sum has not stopped at or below the limit
  have hgot : limit < min h.size maxSize := by
    rcases hx with hlt | hlt <;> omega
  have hgot' : min h.size maxSize ≤ message.length := Nat.le_trans (Nat.min_le_left _ _) hle
  exact ⟨h, min h.size maxSize, hover, hstop, hgot, hgot', settles_of_over hlimit hx hmessage hover⟩

/-- No part of a message within the limit is refused for its size. -/
theorem not_tooLarge_of_within (hlimit : limit ≤ maxSize) (hx : Walk.Exact limit message.length)
    (hmessage : Spans 1 message) (hle : message.length ≤ limit) (behind : Bytes)
    (pieces : List Bytes) (hpieces : pieces.flatten <+: message ++ behind) (max got : Nat) :
    .error (.tooLarge max got) ∉ asked { limit := limit } [] pieces := by
  intro hmem
  obtain ⟨htells, hwaits⟩ := (settles_of_within hlimit hle hmessage behind).asked_eq hx hpieces
  -- the last thing said is what the reader makes of the message, or that the framer still waits
  by_cases harrived : message.length ≤ pieces.flatten.length
  · obtain ⟨before, -, hasked⟩ := htells harrived
    rw [hasked, tooLarge_mem_iff] at hmem
    exact readMessage_ne_tooLarge message max got hmem
  · rw [hwaits (Nat.lt_of_not_le harrived)] at hmem
    cases List.eq_of_mem_replicate hmem

/-- **A message is refused for its size if and only if it is larger than the limit**, whatever it
holds, whatever is behind it and however it is cut. The refusal names the same least size for every
cut, above the limit and at most that of the message, and it is made with the piece that completes
the first header that is over the limit. A message within the limit is not refused for its size, and
neither is any part of it. -/
theorem tooLarge_iff_limit_lt_length (hlimit : limit ≤ maxSize)
    (hx : Walk.Exact limit message.length) (hmessage : Spans 1 message) :
    (∀ behind pieces, pieces.flatten = message ++ behind →
      ((∃ max got, .error (.tooLarge max got) ∈ asked { limit := limit } [] pieces) ↔
        limit < message.length)) ∧
    (limit < message.length → ∃ h got, firstOver? limit message = some h ∧
      limit < got ∧ got ≤ message.length ∧
      ∀ behind pieces, pieces.flatten <+: message ++ behind →
        (h.stop ≤ pieces.flatten.length → ∃ before, ArrivesWith pieces before h.stop ∧
          asked { limit := limit } [] pieces =
            List.replicate before (.ok none) ++ [.error (.tooLarge limit got)]) ∧
        (pieces.flatten.length < h.stop →
          asked { limit := limit } [] pieces = List.replicate pieces.length (.ok none))) ∧
    (message.length ≤ limit → ∀ behind pieces, pieces.flatten <+: message ++ behind →
      ∀ max got, .error (.tooLarge max got) ∉ asked { limit := limit } [] pieces) := by
  refine ⟨fun behind pieces hpieces => ⟨?_, ?_⟩, ?_, not_tooLarge_of_within hlimit hx hmessage⟩
  · rintro ⟨max, got, hmem⟩
    rcases Nat.lt_or_ge limit message.length with hlt | hle
    · exact hlt
    · exact absurd hmem (not_tooLarge_of_within hlimit hx hmessage hle behind pieces
        (hpieces ▸ List.prefix_refl _) max got)
  · intro hlt
    obtain ⟨h, got, -, hstop, -, -, hsettles⟩ :=
      exists_settles_of_over hlimit hx hmessage hlt
    have hprefix : pieces.flatten <+: message ++ behind := hpieces ▸ List.prefix_refl _
    have hx' := hx.mono hstop
    -- the whole message has arrived, and so the header has
    have harrived : h.stop ≤ pieces.flatten.length := by
      rw [hpieces, List.length_append]
      omega
    obtain ⟨before, -, hasked⟩ := ((hsettles behind).asked_eq hx' hprefix).1 harrived
    exact ⟨limit, got, by rw [hasked, tooLarge_mem_iff]⟩
  · intro hlt
    obtain ⟨h, got, hover, hstop, hgot, hle, hsettles⟩ :=
      exists_settles_of_over hlimit hx hmessage hlt
    exact ⟨h, got, hover, hgot, hle, fun behind pieces hpieces =>
      (hsettles behind).asked_eq (hx.mono hstop) hpieces⟩

end SizeDecides

/-- A pair of a number and three bytes takes seven bytes, and four are allowed. The refusal comes
with the length of the bytes, before the last two of them. -/
theorem tooLarge_iff_limit_lt_length_pair :
    4 ≤ maxSize ∧ Walk.Exact 4 7 ∧ Spans 1 [0x92, 0x00, 0xc4, 0x03, 0x01, 0x02, 0x03] ∧
      (headers [0x92, 0x00, 0xc4, 0x03, 0x01, 0x02, 0x03] = [⟨1, 3⟩, ⟨2, 3⟩, ⟨4, 7⟩]) ∧
      asked { limit := 4 } [] [[0x92], [0x00, 0xc4], [], [0x03, 0x01], [0x02, 0x03]] =
        [.ok none, .ok none, .ok none, .error (.tooLarge 4 7)] ∧
      ∃ max got, .error (.tooLarge max got) ∈
        asked { limit := 4 } [] [[0x92], [0x00, 0xc4], [], [0x03, 0x01], [0x02, 0x03]] := by
  have hlimit : 4 ≤ maxSize := by decide
  have hx : Walk.Exact 4 [0x92, 0x00, 0xc4, 0x03, 0x01, 0x02, 0x03].length := .inl (by decide)
  have hbytes : Spans 1 [0xc4, 0x03, 0x01, 0x02, 0x03] :=
    @Spans.value 0xc4 [0x03, 0x01, 0x02, 0x03] [] 0 0 rfl .nil
  have hmessage : Spans 1 [0x92, 0x00, 0xc4, 0x03, 0x01, 0x02, 0x03] :=
    @Spans.value 0x92 [] _ 2 0 rfl (@Spans.value 0x00 [] _ 0 1 rfl hbytes)
  have hlarge : 4 < [0x92, 0x00, 0xc4, 0x03, 0x01, 0x02, 0x03].length := by decide
  refine ⟨hlimit, hx, hmessage, rfl, rfl, ?_⟩
  exact ((tooLarge_iff_limit_lt_length hlimit hx hmessage).1 [] _ rfl).2 hlarge

end Framer

end BoardLink.MessagePack
