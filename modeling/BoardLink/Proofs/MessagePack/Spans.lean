import BoardLink.MessagePack.Boundary

/-!
# The extent of values

The marker bytes alone fix where a value ends. `Spans k bytes` says so without a walk: `bytes` are
exactly `k` values one after the other, where the values nested in a container are counted with
those behind it. It is what a walk and a reader have in common, and each of them is compared with it
alone:

* `Spans.append`, `Spans.split` — spans add up, and come apart at every count;
* `Walk.moved_inv` — what a marker that is followed comes to, from which every fact about walks is
  derived;
* `Walk.spans_of_complete` — a walk that reaches the end of a message has passed over exactly the
  values it had to (the crux: a sum that stopped at the largest size would be too small, and a walk
  that completes never met one);
* `Walk.complete_of_spans` — a walk reaches the end of every message that its limit admits.
-/

namespace BoardLink.MessagePack

/-! ### What a marker announces -/

/-- What a value takes behind its marker: how many bytes of its own, and how many values nested in
it. `none` if the length field is not complete, or no value begins so. -/
def Announcement.extent? (a : Announcement) (rest : Bytes) : Option (Nat × Nat) :=
  match a with
  | .reserved => none
  | .fixed length => some (length - 1, 0)
  | .container count => some (0, count)
  | .sized header width => (Walk.lengthField? width rest).map fun n => (header - 1 + n, 0)
  | .sizedContainer width perEntry =>
    (Walk.lengthField? width rest).map fun n => (width, n * perEntry)

/-- An announcement that counts its marker, and its length field if there is one. -/
def Announcement.CountsMarker : Announcement → Prop
  | .fixed length => 0 < length
  | .sized header width => width < header
  | _ => True

instance (a : Announcement) : Decidable a.CountsMarker := by
  cases a <;> unfold Announcement.CountsMarker <;> infer_instance

/-- A property that can be checked holds of all bytes if it holds of the numbers below 256. -/
theorem forall_byte {P : UInt8 → Prop} (h : ∀ n : Fin 256, P (UInt8.ofNat n)) (b : UInt8) :
    P b := by
  have hb := h ⟨b.toNat, b.toNat_lt⟩
  rwa [UInt8.ofNat_toNat] at hb

theorem countsMarker_ofMarker (marker : UInt8) : (Announcement.ofMarker marker).CountsMarker :=
  forall_byte (P := fun m => (Announcement.ofMarker m).CountsMarker) (by decide +kernel) marker

/-- A length field is complete exactly if its bytes are there. -/
theorem Walk.lengthField?_eq_some_iff {width n : Nat} {rest : Bytes} :
    Walk.lengthField? width rest = some n ↔
      width ≤ rest.length ∧ ofBigEndian (rest.take width) = n := by
  simp only [Walk.lengthField?, List.length_take]
  by_cases hle : width ≤ rest.length
  · simp only [Nat.min_eq_left hle, hle, if_true, Option.some.injEq, true_and]
  · simp [hle, show min width rest.length ≠ width by omega]

theorem Announcement.extent?_append {a : Announcement} {rest : Bytes} {extent : Nat × Nat}
    (more : Bytes) (h : a.extent? rest = some extent) : a.extent? (rest ++ more) = some extent := by
  cases a with
  | reserved => simp [Announcement.extent?] at h
  | fixed | container => exact h
  | sized header width | sizedContainer width perEntry =>
    simp only [Announcement.extent?, Option.map_eq_some_iff] at h ⊢
    obtain ⟨n, hn, hextent⟩ := h
    exact ⟨n, Walk.lengthField?_append more hn, hextent⟩

/-- The length field is part of the bytes that belong to the value. -/
theorem Announcement.extent?_take {a : Announcement} {rest : Bytes} {own nested : Nat}
    (ha : a.CountsMarker) (h : a.extent? rest = some (own, nested)) :
    a.extent? (rest.take own) = some (own, nested) := by
  cases a with
  | reserved => simp [Announcement.extent?] at h
  | fixed | container => exact h
  | sized header width =>
    simp only [Announcement.extent?, Option.map_eq_some_iff, Walk.lengthField?_eq_some_iff,
      Prod.mk.injEq] at h ⊢
    obtain ⟨n, ⟨hlen, hfield⟩, rfl, rfl⟩ := h
    have hwidth : width < header := ha
    refine ⟨n, ⟨?_, ?_⟩, rfl, rfl⟩
    · rw [List.length_take]; omega
    · rw [List.take_take, Nat.min_eq_left (by omega), hfield]
  | sizedContainer width perEntry =>
    simp only [Announcement.extent?, Option.map_eq_some_iff, Walk.lengthField?_eq_some_iff,
      Prod.mk.injEq] at h ⊢
    obtain ⟨n, ⟨hlen, hfield⟩, rfl, rfl⟩ := h
    refine ⟨n, ⟨?_, ?_⟩, rfl, rfl⟩
    · rw [List.length_take]; omega
    · rw [List.take_take, Nat.min_self, hfield]

/-! ### Values one after the other -/

/-- `bytes` are exactly `k` values one after the other. The values nested in a container come right
behind its header, in front of the values that follow it, so one count covers both. -/
inductive Spans : (k : Nat) → (bytes : Bytes) → Prop
  | nil : Spans 0 []
  | value {marker : UInt8} {own tail : Bytes} {nested k : Nat}
      (extent : (Announcement.ofMarker marker).extent? own = some (own.length, nested))
      (others : Spans (nested + k) tail) : Spans (k + 1) (marker :: (own ++ tail))

namespace Spans

/-- Every value takes at least one byte. -/
theorem le_length {k : Nat} {bytes : Bytes} (h : Spans k bytes) : k ≤ bytes.length := by
  induction h with
  | nil => exact Nat.le_refl 0
  | value extent others ih =>
    simp only [List.length_cons, List.length_append]
    omega

theorem append {a b : Nat} {x y : Bytes} (hx : Spans a x) (hy : Spans b y) :
    Spans (a + b) (x ++ y) := by
  induction hx with
  | nil => simpa using hy
  | @value marker own tail nested k extent others ih =>
    rw [show k + 1 + b = (k + b) + 1 by omega, List.cons_append, List.append_assoc]
    refine .value extent ?_
    rw [← Nat.add_assoc]
    exact ih

/-- **Spans come apart.** The first `a` of `a + b` values have an end of their own. The induction is
on the derivation, whose count also holds the nested values, so it is stated for every way to read
that count as a sum. -/
theorem split {k : Nat} {bytes : Bytes} (h : Spans k bytes) :
    ∀ a b, k = a + b → ∃ x y, bytes = x ++ y ∧ Spans a x ∧ Spans b y := by
  induction h with
  | nil =>
    intro a b hk
    -- no values come apart into none and none
    obtain ⟨rfl, rfl⟩ : a = 0 ∧ b = 0 := by omega
    exact ⟨[], [], rfl, .nil, .nil⟩
  | @value marker own tail nested k extent others ih =>
    intro a b hk
    cases a with
    | zero =>
      obtain rfl : b = k + 1 := by omega
      exact ⟨[], _, rfl, .nil, .value extent others⟩
    | succ a =>
      -- the value is among the first ones, and so is what is nested in it
      obtain ⟨x, y, rfl, hx, hy⟩ := ih (nested + a) b (by omega)
      exact ⟨marker :: (own ++ x), y, by simp, .value extent hx, hy⟩

/-- A value has a marker; what is nested in it fills the rest of its bytes. -/
theorem one_inv {bytes : Bytes} (h : Spans 1 bytes) :
    ∃ marker own tail nested, bytes = marker :: (own ++ tail) ∧
      (Announcement.ofMarker marker).extent? own = some (own.length, nested) ∧
      Spans nested tail := by
  cases h with
  | @value marker own tail nested k extent others =>
    exact ⟨marker, own, tail, nested, rfl, extent, by simpa using others⟩

end Spans

/-! ### Walks and spans -/

namespace Walk

/-- **Sizes are counted exactly.** Sums of sizes stop at the largest one. That is never mistaken for
a size if the limit is below the largest size, so that it is refused, or if the bytes at hand are
fewer, so that it is never reached. A memory holds fewer bytes. -/
def Exact (limit total : Nat) : Prop := limit < maxSize ∨ total < maxSize

theorem Exact.mono {limit total total' : Nat} (h : Exact limit total) (hle : total' ≤ total) :
    Exact limit total' :=
  h.imp id fun ht => Nat.lt_of_le_of_lt hle ht

theorem checked_eq_moved_iff {limit : Nat} {next next' : Walk} :
    checked limit next = .moved next' ↔
      next' = next ∧ addSizes next.pos next.pending ≤ limit := by
  unfold checked
  by_cases h : limit < addSizes next.pos next.pending
  · simp [h]
  · simp only [h, if_false, Step.moved.injEq]
    exact ⟨fun heq => ⟨heq.symm, by omega⟩, fun hand => hand.1.symm⟩

/-- **What a marker that is followed comes to.** The walk keeps within its limit, and it moves by
the extent of the value, unless a sum has stopped at the largest size. -/
theorem moved_inv {limit : Nat} {w next : Walk} {marker : UInt8} {rest : Bytes}
    (h : w.step limit marker rest = .moved next) :
    addSizes next.pos next.pending ≤ limit ∧
      ∃ own nested, (Announcement.ofMarker marker).extent? rest = some (own, nested) ∧
        (next.pos = w.pos + 1 + own ∨ next.pos = addSizes (w.pos + 1) own) ∧
        (next.pending = nested + (w.pending - 1) ∨
          next.pending = addSizes nested (w.pending - 1)) := by
  have hcounts := countsMarker_ofMarker marker
  unfold step at h
  cases hm : Announcement.ofMarker marker with
  | reserved => simp [hm] at h
  | fixed length =>
    simp only [hm, checked_eq_moved_iff] at h hcounts
    have hlength : 0 < length := hcounts
    obtain ⟨rfl, hle⟩ := h
    refine ⟨hle, length - 1, 0, rfl, .inl ?_, .inl (Nat.zero_add _).symm⟩
    show w.pos + length = w.pos + 1 + (length - 1)
    omega
  | container count =>
    simp only [hm, checked_eq_moved_iff] at h
    obtain ⟨rfl, hle⟩ := h
    exact ⟨hle, 0, count, rfl, .inl rfl, .inl (Nat.add_comm _ _)⟩
  | sized header width =>
    simp only [hm] at h hcounts
    have hheader : width < header := hcounts
    cases hf : lengthField? width rest with
    | none => simp [hf] at h
    | some n =>
      simp only [hf, checked_eq_moved_iff] at h
      obtain ⟨rfl, hle⟩ := h
      -- of these sums the one with the length can stop
      refine ⟨hle, header - 1 + n, 0, by simp [Announcement.extent?, hf], .inr ?_,
        .inl (Nat.zero_add _).symm⟩
      show addSizes (w.pos + header) n = addSizes (w.pos + 1) (header - 1 + n)
      rw [addSizes, addSizes, show w.pos + 1 + (header - 1 + n) = w.pos + header + n by omega]
  | sizedContainer width perEntry =>
    simp only [hm] at h
    cases hf : lengthField? width rest with
    | none => simp [hf] at h
    | some n =>
      simp only [hf, checked_eq_moved_iff] at h
      obtain ⟨rfl, hle⟩ := h
      refine ⟨hle, width, n * perEntry, by simp [Announcement.extent?, hf], .inl rfl, .inr ?_⟩
      -- stopping at the largest size twice is stopping once
      show addSizes (w.pending - 1) (mulSizes n perEntry) = addSizes (n * perEntry) (w.pending - 1)
      simp only [addSizes, mulSizes]
      omega

/-- A marker that was followed is behind the walk, unless a sum stopped at the largest size. -/
theorem pos_lt_of_moved {limit : Nat} {w next : Walk} {marker : UInt8} {rest : Bytes}
    (h : w.step limit marker rest = .moved next) (hx : Exact limit (w.pos + 1)) :
    w.pos < next.pos := by
  obtain ⟨hle, own, nested, -, hpos, -⟩ := moved_inv h
  -- a position that had stopped would be refused, or lie behind all bytes
  simp only [addSizes] at hle hpos
  rcases hx with hlimit | htotal <;> omega

/-- A walk that owes `pending` values owes at most one fewer behind the next marker. -/
theorem pending_le_of_moved {limit : Nat} {w next : Walk} {marker : UInt8} {rest : Bytes}
    (h : w.step limit marker rest = .moved next) :
    min w.pending maxSize ≤ min next.pending maxSize + 1 := by
  obtain ⟨-, own, nested, -, -, hpending⟩ := moved_inv h
  simp only [addSizes] at hpending
  omega

theorem scan_nil_complete {limit skip : Nat} {w last : Walk}
    (h : scan limit w skip [] = (last, .complete)) : skip = 0 ∧ w.pending = 0 ∧ last = w := by
  cases skip with
  | succ skip => simp [scan] at h
  | zero =>
    by_cases hp : w.pending = 0
    · simp only [scan, hp, if_true, Prod.mk.injEq] at h
      exact ⟨rfl, hp, h.1.symm⟩
    · simp [scan, hp] at h

/-- In front of a marker a walk is complete, or it follows the marker and completes behind it. -/
theorem scan_cons_complete {limit : Nat} {w last : Walk} {marker : UInt8} {rest : Bytes}
    (h : scan limit w 0 (marker :: rest) = (last, .complete)) :
    (w.pending = 0 ∧ last = w) ∨
      (w.pending ≠ 0 ∧ ∃ next, w.step limit marker rest = .moved next ∧
        scan limit next (next.pos - w.pos - 1) rest = (last, .complete)) := by
  by_cases hp : w.pending = 0
  · simp only [scan, hp, if_true, Prod.mk.injEq] at h
    exact .inl ⟨hp, h.1.symm⟩
  · simp only [scan, hp, if_false] at h
    cases hs : w.step limit marker rest with
    | partialHeader | reserved | tooLarge => simp [hs] at h
    | moved next =>
      simp only [hs] at h
      exact .inr ⟨hp, next, rfl, h⟩

/-- A walk completes only where the bytes it passes over are there. -/
theorem scan_of_complete {limit : Nat} {w last : Walk} {skip : Nat} {bytes : Bytes}
    (h : scan limit w skip bytes = (last, .complete)) :
    skip ≤ bytes.length ∧ scan limit w 0 (bytes.drop skip) = (last, .complete) := by
  induction bytes generalizing skip with
  | nil =>
    obtain ⟨rfl, -, -⟩ := scan_nil_complete h
    exact ⟨Nat.le_refl 0, h⟩
  | cons b rest ih =>
    cases skip with
    | zero => exact ⟨Nat.zero_le _, h⟩
    | succ skip =>
      simp only [scan] at h
      obtain ⟨hle, hscan⟩ := ih h
      exact ⟨Nat.succ_le_succ hle, hscan⟩

theorem scan_append_skip (limit : Nat) (w : Walk) (own rest : Bytes) :
    scan limit w own.length (own ++ rest) = scan limit w 0 rest := by
  induction own with
  | nil => rfl
  | cons b own ih => exact ih

/-- A walk completes only where there is a byte for every value it owes. -/
theorem pending_le_of_complete {limit : Nat} {w last : Walk} {skip : Nat} {bytes : Bytes}
    (h : scan limit w skip bytes = (last, .complete)) :
    min w.pending maxSize + skip ≤ bytes.length := by
  induction bytes generalizing w skip with
  | nil =>
    obtain ⟨rfl, hp, -⟩ := scan_nil_complete h
    simp [hp]
  | cons marker rest ih =>
    rw [List.length_cons]
    cases skip with
    | succ skip =>
      have := ih h
      omega
    | zero =>
      rcases scan_cons_complete h with ⟨hp, -⟩ | ⟨-, next, hs, hscan⟩
      · simp [hp]
      · -- the marker is one byte, and at most one value is settled by it
        have hbound := ih hscan
        have hstep := pending_le_of_moved hs
        omega

/-- On the way to the end of a message no sum has stopped at the largest size. -/
theorem lt_maxSize_of_complete {limit : Nat} {w next last : Walk} {marker : UInt8} {rest : Bytes}
    (hs : w.step limit marker rest = .moved next)
    (h : scan limit next (next.pos - w.pos - 1) rest = (last, .complete))
    (hx : Exact limit (w.pos + (rest.length + 1))) : next.pos + next.pending < maxSize := by
  have hpos := pos_lt_of_moved hs (hx.mono (by omega))
  rcases hx with hlimit | htotal
  · -- the limit refuses the largest size
    have hle := (moved_inv hs).1
    simp only [addSizes] at hle
    omega
  · -- the bytes at hand do not reach the largest size
    have hbytes := pending_le_of_complete h
    omega

/-- A marker that was followed without a sum stopping moves the walk by what it announces. -/
theorem extent_of_moved {limit : Nat} {w next : Walk} {marker : UInt8} {rest : Bytes}
    (h : w.step limit marker rest = .moved next) (hlt : next.pos + next.pending < maxSize) :
    ∃ own nested, (Announcement.ofMarker marker).extent? rest = some (own, nested) ∧
      next = ⟨w.pos + 1 + own, nested + (w.pending - 1)⟩ := by
  obtain ⟨-, own, nested, hextent, hpos, hpending⟩ := moved_inv h
  refine ⟨own, nested, hextent, ?_⟩
  -- a sum that had stopped would be the largest size itself
  have hpos' : next.pos = w.pos + 1 + own := by
    simp only [addSizes] at hpos
    omega
  have hpending' : next.pending = nested + (w.pending - 1) := by
    simp only [addSizes] at hpending
    omega
  rw [← hpos', ← hpending']

/-- **What a marker announces is compared with the limit.** The least size is counted up to the
largest one. Where it is not above that, the move is by the extent of the value. -/
theorem step_of_extent {w : Walk} {marker : UInt8} {rest : Bytes} {own nested : Nat} (limit : Nat)
    (h : (Announcement.ofMarker marker).extent? rest = some (own, nested)) :
    ∃ next, w.step limit marker rest = checked limit next ∧
      addSizes next.pos next.pending =
        min (w.pos + 1 + own + (nested + (w.pending - 1))) maxSize ∧
      (w.pos + 1 + own + (nested + (w.pending - 1)) ≤ maxSize →
        next = ⟨w.pos + 1 + own, nested + (w.pending - 1)⟩) := by
  have hcounts := countsMarker_ofMarker marker
  unfold step
  cases hm : Announcement.ofMarker marker with
  | reserved => simp [hm, Announcement.extent?] at h
  | fixed length =>
    simp only [hm, Announcement.extent?, Option.some.injEq, Prod.mk.injEq] at h hcounts
    have hlength : 0 < length := hcounts
    refine ⟨_, rfl, ?_, fun hle => ?_⟩
    · simp only [addSizes]
      omega
    · rw [Walk.mk.injEq]
      omega
  | container count =>
    simp only [hm, Announcement.extent?, Option.some.injEq, Prod.mk.injEq] at h
    refine ⟨_, rfl, ?_, fun hle => ?_⟩
    · simp only [addSizes]
      omega
    · rw [Walk.mk.injEq]
      omega
  | sized header width =>
    simp only [hm, Announcement.extent?, Option.map_eq_some_iff, Prod.mk.injEq] at h hcounts
    have hheader : width < header := hcounts
    obtain ⟨n, hf, hown, hnested⟩ := h
    simp only [hf]
    refine ⟨_, rfl, ?_, fun hle => ?_⟩
    · simp only [addSizes]
      omega
    · simp only [Walk.mk.injEq, addSizes]
      omega
  | sizedContainer width perEntry =>
    simp only [hm, Announcement.extent?, Option.map_eq_some_iff, Prod.mk.injEq] at h
    obtain ⟨n, hf, hown, hnested⟩ := h
    simp only [hf]
    refine ⟨_, rfl, ?_, fun hle => ?_⟩
    · simp only [addSizes, mulSizes]
      omega
    · simp only [Walk.mk.injEq, addSizes, mulSizes]
      omega

/-- A marker is followed if the limit admits what it announces. -/
theorem moved_of_extent {limit : Nat} {w : Walk} {marker : UInt8} {rest : Bytes} {own nested : Nat}
    (h : (Announcement.ofMarker marker).extent? rest = some (own, nested))
    (hlimit : limit ≤ maxSize) (hle : w.pos + 1 + own + (nested + (w.pending - 1)) ≤ limit) :
    w.step limit marker rest = .moved ⟨w.pos + 1 + own, nested + (w.pending - 1)⟩ := by
  obtain ⟨next, hstep, hsize, hexact⟩ := step_of_extent (w := w) limit h
  rw [hstep, checked_eq_moved_iff, hsize]
  exact ⟨(hexact (Nat.le_trans hle hlimit)).symm, Nat.le_trans (Nat.min_le_left _ _) hle⟩

/-- **A completed walk has passed over exactly the values it owed.** The induction is on the bytes
that are left; the bytes of a value's own are skipped by the walk and part of its extent, and what
is nested in it is owed from then on. -/
theorem spans_of_complete {limit : Nat} {w last : Walk} {bytes : Bytes}
    (h : scan limit w 0 bytes = (last, .complete)) (hx : Exact limit (w.pos + bytes.length)) :
    ∃ used rest, bytes = used ++ rest ∧ Spans w.pending used ∧
      last = ⟨w.pos + used.length, 0⟩ := by
  induction hn : bytes.length using Nat.strongRecOn generalizing w bytes with
  | _ n ih =>
  -- a walk that owes nothing stands at the end already
  have owesNothing : w.pending = 0 → last = w → ∃ used rest, bytes = used ++ rest ∧
      Spans w.pending used ∧ last = ⟨w.pos + used.length, 0⟩ := by
    rintro hp rfl
    refine ⟨[], bytes, rfl, hp ▸ .nil, ?_⟩
    rw [List.length_nil, Nat.add_zero, ← hp]
  cases bytes with
  | nil =>
    obtain ⟨-, hp, hlast⟩ := scan_nil_complete h
    exact owesNothing hp hlast
  | cons marker rest =>
    rcases scan_cons_complete h with ⟨hp, hlast⟩ | ⟨hp, next, hs, hnext⟩
    · exact owesNothing hp hlast
    · have hlt := lt_maxSize_of_complete hs hnext (by simpa using hx)
      obtain ⟨own, nested, hextent, rfl⟩ := extent_of_moved hs hlt
      rw [show w.pos + 1 + own - w.pos - 1 = own by omega] at hnext
      -- the value's own bytes are skipped, and the walk goes on behind them
      obtain ⟨hown, hscan⟩ := scan_of_complete hnext
      simp only [List.length_cons] at hn hx
      have hleft : (rest.drop own).length = rest.length - own := List.length_drop
      obtain ⟨used, tail, hrest, hspans, rfl⟩ := ih (rest.drop own).length (by omega) hscan
        (hx.mono (by simp only [hleft]; omega)) rfl
      have htake : (rest.take own).length = own := by rw [List.length_take]; omega
      have hextent' := Announcement.extent?_take (countsMarker_ofMarker marker) hextent
      refine ⟨marker :: (rest.take own ++ used), tail, ?_, ?_, ?_⟩
      · rw [List.cons_append, List.append_assoc, ← hrest, List.take_append_drop]
      · rw [show w.pending = (w.pending - 1) + 1 by omega]
        exact .value (by rw [htake]; exact hextent') hspans
      · simp only [List.length_cons, List.length_append, htake]
        rw [Walk.mk.injEq]
        omega

/-- **A walk completes on the values it owes** if the limit admits them, whatever stands behind. -/
theorem complete_of_spans {limit k : Nat} {w : Walk} {used : Bytes} (hs : Spans k used)
    (hk : w.pending = k) (hlimit : limit ≤ maxSize) (hle : w.pos + used.length ≤ limit)
    (rest : Bytes) :
    scan limit w 0 (used ++ rest) = (⟨w.pos + used.length, 0⟩, .complete) := by
  induction hs generalizing w with
  | nil =>
    have hw : w = ⟨w.pos, 0⟩ := by rw [← hk]
    cases rest <;> simp only [List.nil_append, scan, hk, if_true, List.length_nil, Nat.add_zero] <;>
      exact Prod.ext hw rfl
  | @value marker own tail nested k extent others ih =>
    have htail := others.le_length
    simp only [List.length_cons, List.length_append] at hle
    have hmoved := moved_of_extent (w := w) (Announcement.extent?_append (tail ++ rest) extent)
      hlimit (by omega)
    -- the marker is followed, the value's own bytes are skipped, and the rest is the induction's
    rw [List.cons_append, List.append_assoc, scan, if_neg (by omega), hmoved]
    simp only [show w.pos + 1 + own.length - w.pos - 1 = own.length by omega]
    rw [scan_append_skip, ih (by simp only; omega) (by simp only; omega)]
    simp only [List.length_cons, List.length_append, Prod.mk.injEq, Walk.mk.injEq, and_true]
    omega

end Walk

end BoardLink.MessagePack
