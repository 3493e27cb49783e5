import BoardLink.Proofs.MessagePack.Openings
import Mathlib.Data.List.Induction

/-!
# The least size that is told

A framer tells a size in two places. While it waits, it says how many bytes it needs at least, so
that an application can make room for them; and when it refuses a message that is too large, it names
the size that was too much. Neither is the size of the message, which may not be known yet. Both are
the least size of all messages with the headers that have arrived, and so the best that can be told.

* `Framer.needed_isLeast` — both sizes, for every limit that leaves room for one more header;
* `Walk.got_of_tooLarge` — the crux for the second one: no sum of sizes stops at the largest size, as
  a header announces less than is left above such a limit.
-/

namespace BoardLink.MessagePack

/-! ### How much a header can announce -/

/-- An announcement of few bytes and values, or of a length field of at most four bytes. -/
def Announcement.IsNarrow : Announcement → Prop
  | .fixed length => length ≤ 32
  | .container count => count ≤ 30
  | .sized header width => header ≤ 6 ∧ width ≤ 4
  | .sizedContainer width perEntry => width ≤ 4 ∧ perEntry ≤ 2
  | .reserved => True

instance : DecidablePred Announcement.IsNarrow
  | .fixed length => Nat.decLe length 32
  | .container count => Nat.decLe count 30
  | .sized header width => @instDecidableAnd _ _ (Nat.decLe header 6) (Nat.decLe width 4)
  | .sizedContainer width perEntry =>
    @instDecidableAnd _ _ (Nat.decLe width 4) (Nat.decLe perEntry 2)
  | .reserved => instDecidableTrue

theorem isNarrow_ofMarker (marker : UInt8) : (Announcement.ofMarker marker).IsNarrow :=
  forall_byte (P := fun m => (Announcement.ofMarker m).IsNarrow) (by decide +kernel) marker

/-- A number is in the range of its field. -/
theorem ofBigEndian_lt (bytes : Bytes) : ofBigEndian bytes < fieldValues bytes.length := by
  induction bytes using List.reverseRecOn with
  | nil => exact Nat.one_pos
  | append_singleton bytes b ih =>
    have hb := b.toNat_lt
    rw [ofBigEndian_append_byte, List.length_append, List.length_singleton, fieldValues]
    omega

theorem Walk.lengthField?_lt {width n : Nat} {rest : Bytes} (hwidth : width ≤ 4)
    (h : Walk.lengthField? width rest = some n) : n < 0x100000000 := by
  obtain ⟨hle, rfl⟩ := Walk.lengthField?_eq_some_iff.1 h
  have hlt := ofBigEndian_lt (rest.take width)
  rw [List.length_take_of_le hle] at hlt
  -- a field has four bytes at most
  have hrange : ∀ w : Fin 5, fieldValues w ≤ 0x100000000 := by decide
  exact Nat.lt_of_lt_of_le hlt (hrange ⟨width, by omega⟩)

/-- A header announces less than three times what a field of four bytes can hold. -/
theorem Announcement.extent?_lt {a : Announcement} {rest : Bytes} {own nested : Nat}
    (ha : a.IsNarrow) (h : a.extent? rest = some (own, nested)) : own + nested < 0x300000000 := by
  cases a with
  | reserved => cases h
  | fixed length =>
    have hlength : length ≤ 32 := ha
    simp only [Announcement.extent?, Option.some.injEq, Prod.mk.injEq] at h
    omega
  | container count =>
    have hcount : count ≤ 30 := ha
    simp only [Announcement.extent?, Option.some.injEq, Prod.mk.injEq] at h
    omega
  | sized header width =>
    obtain ⟨hheader, hwidth⟩ : header ≤ 6 ∧ width ≤ 4 := ha
    simp only [Announcement.extent?, Option.map_eq_some_iff, Prod.mk.injEq] at h
    obtain ⟨n, hfield, rfl, rfl⟩ := h
    have hn := Walk.lengthField?_lt hwidth hfield
    omega
  | sizedContainer width perEntry =>
    obtain ⟨hwidth, hentry⟩ : width ≤ 4 ∧ perEntry ≤ 2 := ha
    simp only [Announcement.extent?, Option.map_eq_some_iff, Prod.mk.injEq] at h
    obtain ⟨n, hfield, rfl, rfl⟩ := h
    have hn := Walk.lengthField?_lt hwidth hfield
    -- an entry owes two values, so that the largest count of a field is doubled
    have hentries : n * perEntry ≤ n * 2 := Nat.mul_le_mul_left n hentry
    omega

/-! ### Where a walk stays -/

namespace Walk

variable {limit : Nat} {buffer : Bytes} {w : Walk}

/-- What keeps a walk in front of a marker that it does not follow: without an extent, it waits for
the length field, or the marker begins no value. -/
theorem step_of_no_extent (limit : Nat) {marker : UInt8} {rest : Bytes}
    (h : (Announcement.ofMarker marker).extent? rest = none) :
    (w.step limit marker rest = .partialHeader ∧
        rest.length < (Announcement.ofMarker marker).fieldWidth) ∨
      w.step limit marker rest = .reserved := by
  -- only the length field can be missing
  have hshort : ∀ {width}, lengthField? width rest = none → rest.length < width := by
    intro width hnone
    by_contra hle
    have hsome := lengthField?_eq_some_iff.2 ⟨Nat.le_of_not_lt hle, rfl⟩
    rw [hnone] at hsome
    cases hsome
  unfold step
  -- an announcement without a length field always has its extent
  cases hm : Announcement.ofMarker marker with
  | reserved => exact .inr rfl
  | fixed | container =>
    rw [hm] at h
    cases h
  | sized header width | sizedContainer width perEntry =>
    rw [hm] at h
    have hnone : lengthField? width rest = none := Option.map_eq_none_iff.1 h
    simp only [hnone]
    exact .inl ⟨trivial, hshort hnone⟩

/-- A walk waits for a header that has not arrived. -/
theorem lt_fieldWidth_of_partial {marker : UInt8} {rest : Bytes}
    (h : w.step limit marker rest = .partialHeader) :
    rest.length < (Announcement.ofMarker marker).fieldWidth := by
  -- without an extent it may have been reserved, with one it would have been followed or too large
  cases hextent : (Announcement.ofMarker marker).extent? rest with
  | none =>
    rcases step_of_no_extent (w := w) limit hextent with ⟨-, hlt⟩ | hreserved
    · exact hlt
    · rw [h] at hreserved
      cases hreserved
  | some extent =>
    obtain ⟨next, hstep, -⟩ := step_of_extent (w := w) limit hextent
    rw [h, checked] at hstep
    split at hstep <;> cases hstep

/-- **What a refusal names** is the least size with the header that was refused. -/
theorem got_of_tooLarge {marker : UInt8} {rest : Bytes} {got : Nat}
    (hroom : w.pos + w.pending ≤ 0x8000000000000000)
    (h : w.step limit marker rest = .tooLarge got) :
    ∃ own nested, (Announcement.ofMarker marker).extent? rest = some (own, nested) ∧
      got = w.pos + 1 + own + (nested + (w.pending - 1)) ∧ limit < got := by
  cases hextent : (Announcement.ofMarker marker).extent? rest with
  | none =>
    rcases step_of_no_extent (w := w) limit hextent with ⟨hpartial, -⟩ | hreserved
    · rw [h] at hpartial
      cases hpartial
    · rw [h] at hreserved
      cases hreserved
  | some extent =>
    obtain ⟨own, nested⟩ := extent
    obtain ⟨next, hstep, hsize, -⟩ := step_of_extent (w := w) limit hextent
    rw [h, checked] at hstep
    split at hstep
    next hover =>
      -- the sizes stay below what a word can hold, so no sum was cut off
      have hsmall := Announcement.extent?_lt (isNarrow_ofMarker marker) hextent
      refine ⟨own, nested, rfl, ?_, ?_⟩
      · rw [Step.tooLarge.inj hstep, hsize, maxSize]
        omega
      · rw [Step.tooLarge.inj hstep]
        exact hover
    · cases hstep

/-- All headers of the buffer are behind a walk that waits. -/
theorem Knows.stop_le_pos (h : Knows limit buffer w) (hstays : Stays limit buffer w .incomplete) :
    ∀ header ∈ headers buffer, header.stop ≤ w.pos := by
  obtain ⟨followed, hheaders, hfollowed⟩ := h.announced []
  -- nothing is followed behind the place where the walk stays
  have hnone : headersFrom w.pos w.pending 0 (buffer.drop w.pos) = [] := by
    cases hstays with
    | exhausted hle =>
      rw [List.drop_eq_nil_iff.2 hle]
      rfl
    | @partialHeader marker rest hbytes howes hstep =>
      have hextent : (Announcement.ofMarker marker).extent? rest = none := by
        by_contra hsome
        obtain ⟨⟨own, nested⟩, hsome⟩ := Option.ne_none_iff_exists'.1 hsome
        have hfield := (Announcement.fieldWidth_le (countsMarker_ofMarker marker) hsome).1
        exact absurd (lt_fieldWidth_of_partial hstep) (Nat.not_lt.2 hfield)
      rw [hbytes, headersFrom, if_neg howes, hextent]
  rw [List.append_nil, hnone, List.append_nil] at hheaders
  intro header hheader
  exact (hfollowed header (hheaders ▸ hheader)).1

/-- **A walk that waits knows the size of a message whose headers are all there.** If it owed values
the first one of them would have a header that is not. -/
theorem Knows.needed_eq_length (h : Knows limit buffer w)
    (hstays : Stays limit buffer w .incomplete) {message : Bytes} (hmessage : Spans 1 message)
    (hextends : buffer <+: message) (hall : ∀ header ∈ headers message, header.stop ≤ buffer.length) :
    w.needed = message.length := by
  obtain ⟨hle, hothers⟩ := (h.opens message ((List.take_prefix _ _).trans hextends)).1 hmessage
  obtain ⟨more, rfl⟩ := hextends
  obtain ⟨followed, hheaders, -⟩ := h.announced more
  cases howed : w.pending with
  | zero =>
    -- nothing is owed, so there is nothing behind the bytes that are settled
    rw [howed] at hothers
    have hend := congrArg List.length hothers.eq_nil
    rw [List.length_drop, List.length_nil] at hend
    rw [needed, howed]
    omega
  | succ owed =>
    -- a value is owed, and its header would be there, against the walk having stopped in front of
    -- it
    exfalso
    rw [howed] at hothers hheaders
    generalize hlater : (buffer ++ more).drop w.pos = later at hothers hheaders
    cases hothers with
    | @value marker own tail nested _ extent others =>
      rw [headersFrom_value w.pos extent] at hheaders
      have hstop := hall _ (hheaders ▸ List.mem_append_right followed List.mem_cons_self)
      cases hstays with
      | exhausted hshort =>
        simp only at hstop
        omega
      | @partialHeader marker' rest hbytes _ hstep =>
        have hdrop := drop_append_of_drop_eq_cons hbytes more
        obtain ⟨rfl, -⟩ := List.cons.inj (hdrop.symm.trans hlater)
        have hpartial := lt_fieldWidth_of_partial hstep
        have hlength := length_of_drop_eq_cons hbytes
        simp only at hstop
        omega

/-- **A walk is refused by the first header that is over the limit**, and the size that the refusal
names is the least one of the messages that begin with the headers up to this one. -/
theorem Knows.isLeast_of_tooLarge {got : Nat} (hlimit : limit < 0x8000000000000000)
    (h : Knows limit buffer w) (hstays : Stays limit buffer w (.tooLarge got)) :
    ∃ header, firstOver? limit buffer = some header ∧
      IsLeast (Spans.sizesFrom (buffer.take header.stop)) got := by
  cases hstays with
  | @tooLarge marker rest _ hbytes howes hstep =>
    -- a walk that got here is within the limit, which leaves room for one more header
    have hroom : w.pos + w.pending ≤ 0x8000000000000000 := by
      have hwithin := h.within
      omega
    obtain ⟨own, nested, hextent, hgot, hover⟩ := got_of_tooLarge hroom hstep
    obtain ⟨owed, howed⟩ := Nat.exists_eq_add_one_of_ne_zero howes
    rw [howed, Nat.add_sub_cancel] at hgot
    refine ⟨⟨w.pos + 1 + (Announcement.ofMarker marker).fieldWidth, got⟩, ?_, ?_⟩
    · -- the headers in front of it are within the limit
      obtain ⟨followed, hheaders, hfollowed⟩ := h.announced []
      rw [List.append_nil, howed, headersFrom_of_extent hbytes hextent, ← hgot] at hheaders
      have hwithin : followed.find? (limit < ·.size) = none := by
        rw [List.find?_eq_none]
        intro header hheader
        simpa using (hfollowed header hheader).2
      rw [firstOver?, hheaders, List.find?_append, hwithin, Option.none_or]
      exact List.find?_cons_of_pos (decide_eq_true hover)
    · have hopens := h.opens_marker hbytes
      rw [howed] at hopens
      have hfield : (Announcement.ofMarker marker).extent?
          (rest.take (Announcement.ofMarker marker).fieldWidth) = some (own, nested) := by
        rw [Announcement.extent?_take_field, hextent]
      have hseen := hopens.header hfield
      rw [length_take_of_drop_eq_cons hbytes, ← take_of_drop_eq_cons hbytes] at hseen
      -- the header itself is within the bytes that the value takes
      have hown := (Announcement.fieldWidth_le (countsMarker_ofMarker marker) hextent).2
      rw [hgot]
      refine hseen.isLeast ?_
      rw [List.length_take]
      omega

end Walk

/-! ### What a framer tells -/

namespace Framer

variable {f f' : Framer} {buffer rest : Bytes}

/-- A size is refused by the walk alone. -/
theorem next_eq_tooLarge {max got : Nat}
    (h : f.next buffer = (.error (.tooLarge max got), f', rest)) :
    max = f.limit ∧ ∃ w, f.walk.resume f.limit buffer = (w, .tooLarge got) := by
  unfold next at h
  rcases hw : f.walk.resume f.limit buffer with ⟨w, stop⟩
  rw [hw] at h
  cases stop with
  | incomplete | reserved => cases h
  | tooLarge needed =>
    cases h
    exact ⟨rfl, w, rfl⟩
  | complete => exact absurd (Prod.mk.inj h).1 (readMessage_ne_tooLarge _ _ _)

/-- While a framer is asked and waits, what it needs does not become less. -/
theorem needed_le_of_waits {limit : Nat} (hlimit : limit < maxSize) (hf : f.limit = limit)
    (h : f.next buffer = (.ok none, f', rest)) : f.needed ≤ f'.needed := by
  subst hf
  obtain ⟨w, hw, rfl, -⟩ := next_eq_none h
  exact Walk.needed_le_of_follows hlimit (Walk.follows_of_resume (.inl hlimit) f.walk hw).1

/-- The same for any number of pieces that arrive. -/
theorem needed_le_of_askOn {limit : Nat} (hlimit : limit < maxSize) {pieces : List Bytes}
    {last : Framer} {left : Bytes} (hf : f.limit = limit)
    (h : f.askOn buffer pieces = (List.replicate pieces.length (.ok none), last, left)) :
    f.needed ≤ last.needed := by
  induction pieces generalizing f buffer with
  | nil =>
    -- no piece has arrived
    obtain ⟨-, rfl, -⟩ : _ ∧ _ ∧ _ := by simpa only [askOn, Prod.mk.injEq] using h
    exact Nat.le_refl _
  | cons piece pieces ih =>
    rcases hnext : f.next (buffer ++ piece) with ⟨result, f', rest⟩
    rcases hlater : f'.askOn rest pieces with ⟨results, last', left'⟩
    rw [askOn, hnext] at h
    simp only [hlater, List.length_cons, List.replicate_succ, Prod.mk.injEq, List.cons.injEq] at h
    obtain ⟨⟨rfl, rfl⟩, rfl, rfl⟩ := h
    have hf' : f'.limit = limit := by
      rw [← hf, ← limit_next f (buffer ++ piece), hnext]
    -- each piece raises what is needed or leaves it, and so do the later ones
    exact Nat.le_trans (needed_le_of_waits hlimit hf hnext) (ih hf' hlater)

/-- **The sizes that a framer tells are the least ones.** Let the framer be reached by asking for the
messages of a growing buffer, with a limit below half of what a word can hold, and ask it once more.

If it waits, it has walked over all headers in the buffer, and what it needs
* is the least size of the messages that begin with what it has walked over;
* is not above the size of any message that extends the buffer;
* is not less than before, and does not become less however many pieces arrive while it waits;
* is the size of a message that extends the buffer, as soon as all headers of this message are there.

If it refuses the message as too large, it names the least size of the messages that begin with the
headers in the buffer up to the first one that is over the limit. -/
theorem needed_isLeast {limit : Nat} {result : Except FrameFault (Option Value)}
    (hlimit : limit < 0x8000000000000000) (hreached : Reached limit f buffer)
    (h : f.next buffer = (result, f', rest)) :
    (result = .ok none →
      (∀ header ∈ headers buffer, header.stop ≤ f'.walk.pos) ∧
      IsLeast (Spans.sizesFrom (buffer.take f'.walk.pos)) f'.needed ∧
      (∀ message, Spans 1 message → buffer <+: message → f'.needed ≤ message.length) ∧
      f.needed ≤ f'.needed ∧
      (∀ pieces last left,
        f'.askOn rest pieces = (List.replicate pieces.length (.ok none), last, left) →
          f'.needed ≤ last.needed) ∧
      (∀ message, Spans 1 message → buffer <+: message →
        (∀ header ∈ headers message, header.stop ≤ buffer.length) →
          f'.needed = message.length)) ∧
    ∀ max got, result = .error (.tooLarge max got) → max = limit ∧
      ∃ header, firstOver? limit buffer = some header ∧
        IsLeast (Spans.sizesFrom (buffer.take header.stop)) got := by
  obtain ⟨hf, hwalk⟩ := hreached.walk
  have hmax : limit < maxSize := by
    rw [maxSize]
    omega
  -- the walk may be taken to have begun on this buffer
  have hstart : f.walk.resume f.limit buffer = Walk.start.resume limit buffer := by
    have hsame := hwalk.resume_eq (.inl hmax) []
    rw [List.append_nil] at hsame
    rw [hf, hsame]
  refine ⟨?_, ?_⟩
  · rintro rfl
    obtain ⟨w, hw, rfl, rfl⟩ := next_eq_none h
    obtain ⟨hknows, hstays⟩ := Walk.Knows.of_resume hmax (hstart.symm.trans hw)
    have hleast : IsLeast (Spans.sizesFrom (rest.take w.pos)) w.needed :=
      hknows.opens.isLeast (List.length_take_le _ _)
    refine ⟨hknows.stop_le_pos hstays, hleast, ?_, needed_le_of_waits hmax hf h, ?_, ?_⟩
    -- any message that extends the buffer begins with what has been walked over
    · intro message hmessage hextends
      exact hleast.2 ⟨message, hmessage, (List.take_prefix _ _).trans hextends, rfl⟩
    · intro pieces last left hasked
      exact needed_le_of_askOn hmax hf hasked
    · intro message hmessage hextends hall
      exact hknows.needed_eq_length hstays hmessage hextends hall
  · rintro max got rfl
    obtain ⟨rfl, w, hw⟩ := next_eq_tooLarge h
    obtain ⟨hknows, hstays⟩ := Walk.Knows.of_resume hmax (hstart.symm.trans hw)
    exact ⟨hf, hknows.isLeast_of_tooLarge hlimit hstays⟩

/-- A pair that begins with three bytes, of which one is there: it takes seven bytes at least. Where
four are allowed it is refused with these seven as soon as the length of the bytes has arrived. -/
theorem needed_isLeast_pair :
    let f : Framer := (next { limit := 16 } [0x92]).2.1
    let f' : Framer := ⟨16, ⟨6, 1⟩⟩
    let buffer : Bytes := [0x92] ++ [0xc4, 0x03, 0x01]
    16 < 0x8000000000000000 ∧ Reached 16 f buffer ∧ f.next buffer = (.ok none, f', buffer) ∧
      IsLeast (Spans.sizesFrom [0x92, 0xc4, 0x03, 0x01]) 7 ∧
      (next { limit := 4 } [0x92, 0xc4, 0x03]).1 = .error (.tooLarge 4 7) ∧
      IsLeast (Spans.sizesFrom [0x92, 0xc4, 0x03]) 7 := by
  intro f f' buffer
  have hlimit : 16 < 0x8000000000000000 := by decide
  -- what was asked before does not show, so one question is as good as two
  have hreached : Reached 16 f buffer := .grown [0xc4, 0x03, 0x01] (.asked (.grown [0x92] .new))
  have hwaits : f.next buffer = (.ok none, f', buffer) := rfl
  obtain ⟨-, hleast, -⟩ := (needed_isLeast hlimit hreached hwaits).1 rfl
  have hnew : Reached 4 { limit := 4 } [0x92, 0xc4, 0x03] := .grown [0x92, 0xc4, 0x03] .new
  have hrefuses : next { limit := 4 } [0x92, 0xc4, 0x03] =
      (.error (.tooLarge 4 7), ⟨4, ⟨1, 2⟩⟩, [0x92, 0xc4, 0x03]) := rfl
  obtain ⟨-, header, hover, hrefused⟩ :=
    (needed_isLeast (by decide) hnew hrefuses).2 4 7 rfl
  obtain rfl : header = ⟨3, 7⟩ := (Option.some.inj hover).symm
  exact ⟨hlimit, hreached, hwaits, hleast, congrArg Prod.fst hrefuses, hrefused⟩

end Framer

end BoardLink.MessagePack
