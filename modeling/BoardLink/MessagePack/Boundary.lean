import BoardLink.Bytes

/-!
# Where a message ends

A message carries no length of its own. It ends where the value at its front ends, which the marker
bytes tell: each one announces a number of bytes to pass over or a number of values to come. `Walk`
counts both, and `Walk.scan` moves it over as much of a message as is there.

A walk is compared with a size limit after every marker, through the least size that the
announcements so far admit. So a message that is too large is refused at the same marker however its
bytes arrive.

* `Walk.scan_append_of_settled` — bytes behind the place where a walk settled, be it on the end of a
  message or on a fault, do not change what it settled on.
-/

namespace BoardLink.MessagePack

/-- The largest size a machine word can hold. Sums of announced sizes stop there. -/
def maxSize : Nat := 0xffffffffffffffff

/-- Addition of sizes that stops at the largest one. -/
def addSizes (a b : Nat) : Nat := min (a + b) maxSize

/-- Multiplication of sizes that stops at the largest one. -/
def mulSizes (a b : Nat) : Nat := min (a * b) maxSize

/-- What a marker byte announces. -/
inductive Announcement where
  /-- A value of `length` bytes, the marker included. -/
  | fixed (length : Nat)
  /-- A container of `count` values. -/
  | container (count : Nat)
  /-- A value with `header` bytes in front, whose length stands in `width` bytes behind the
  marker. -/
  | sized (header width : Nat)
  /-- A container whose number of entries stands in `width` bytes behind the marker; every entry is
  `perEntry` values. -/
  | sizedContainer (width perEntry : Nat)
  /-- The marker that begins no value. -/
  | reserved
  deriving DecidableEq, Repr

/-- The announcement of each marker byte. -/
def Announcement.ofMarker (marker : UInt8) : Announcement :=
  if marker < 0x80 then .fixed 1
  else if marker < 0x90 then .container (2 * (marker &&& 0x0f).toNat)
  else if marker < 0xa0 then .container (marker &&& 0x0f).toNat
  else if marker < 0xc0 then .fixed (1 + (marker &&& 0x1f).toNat)
  else match marker with
    | 0xc1 => .reserved
    | 0xc4 | 0xd9 => .sized 2 1
    | 0xc5 | 0xda => .sized 3 2
    | 0xc6 | 0xdb => .sized 5 4
    | 0xc7 => .sized 3 1
    | 0xc8 => .sized 4 2
    | 0xc9 => .sized 6 4
    | 0xcc | 0xd0 => .fixed 2
    | 0xcd | 0xd1 => .fixed 3
    | 0xca | 0xce | 0xd2 => .fixed 5
    | 0xcb | 0xcf | 0xd3 => .fixed 9
    | 0xd4 => .fixed 3
    | 0xd5 => .fixed 4
    | 0xd6 => .fixed 6
    | 0xd7 => .fixed 10
    | 0xd8 => .fixed 18
    | 0xdc => .sizedContainer 2 1
    | 0xdd => .sizedContainer 4 1
    | 0xde => .sizedContainer 2 2
    | 0xdf => .sizedContainer 4 2
    | _ => .fixed 1

/-- How far the markers of a message have been followed. -/
structure Walk where
  /-- The end of the part that was followed. -/
  pos : Nat
  /-- The number of values that are still to come. -/
  pending : Nat
  deriving DecidableEq, Repr

namespace Walk

/-- The walk in front of a message, which is one value. -/
def start : Walk := ⟨0, 1⟩

/-- The least size of a message that begins as the walk has seen. -/
def needed (w : Walk) : Nat := w.pos + w.pending

/-- The outcome of following one marker. -/
inductive Step where
  /-- The length field behind the marker is not complete. -/
  | partialHeader
  | reserved
  /-- The message is too large; it takes at least `needed` bytes. -/
  | tooLarge (needed : Nat)
  | moved (w : Walk)
  deriving DecidableEq, Repr

/-- Accepts a move that keeps within the limit. -/
def checked (limit : Nat) (next : Walk) : Step :=
  let needed := addSizes next.pos next.pending
  if limit < needed then .tooLarge needed else .moved next

/-- The number in a field of `width` bytes, `none` if the field is not complete. -/
def lengthField? (width : Nat) (rest : Bytes) : Option Nat :=
  let field := rest.take width
  if field.length = width then some (ofBigEndian field) else none

/-- Follows one marker, with `rest` behind it. -/
def step (limit : Nat) (w : Walk) (marker : UInt8) (rest : Bytes) : Step :=
  let others := w.pending - 1
  match Announcement.ofMarker marker with
  | .reserved => .reserved
  | .fixed length => checked limit ⟨w.pos + length, others⟩
  | .container count => checked limit ⟨w.pos + 1, others + count⟩
  | .sized header width =>
    match lengthField? width rest with
    | none => .partialHeader
    | some length => checked limit ⟨addSizes (w.pos + header) length, others⟩
  | .sizedContainer width perEntry =>
    match lengthField? width rest with
    | none => .partialHeader
    | some count => checked limit ⟨w.pos + 1 + width, addSizes others (mulSizes count perEntry)⟩

/-- Why a scan ended. -/
inductive Stop where
  /-- The message is not complete. -/
  | incomplete
  /-- The message ends at the walk's position. -/
  | complete
  | reserved
  | tooLarge (needed : Nat)
  deriving DecidableEq, Repr

/-- Follows the markers of a message as far as they are there. The next `skip` bytes belong to what
was followed before. -/
def scan (limit : Nat) (w : Walk) : (skip : Nat) → Bytes → Walk × Stop
  | 0, [] => (w, if w.pending = 0 then .complete else .incomplete)
  | _ + 1, [] => (w, .incomplete)
  | skip + 1, _ :: rest => scan limit w skip rest
  | 0, marker :: rest =>
    if w.pending = 0 then (w, .complete)
    else match w.step limit marker rest with
      | .partialHeader => (w, .incomplete)
      | .reserved => (w, .reserved)
      | .tooLarge needed => (w, .tooLarge needed)
      | .moved next => scan limit next (next.pos - w.pos - 1) rest

/-- Resumes a walk on a buffer that holds the message from its first byte on. -/
def resume (limit : Nat) (w : Walk) (buffer : Bytes) : Walk × Stop :=
  scan limit w w.pos buffer

/-- A length field that is complete is not changed by the bytes behind it. -/
theorem lengthField?_append {width n : Nat} {rest : Bytes} (more : Bytes)
    (h : lengthField? width rest = some n) : lengthField? width (rest ++ more) = some n := by
  simp only [lengthField?, List.length_take] at h ⊢
  have enough : width ≤ rest.length := by
    by_cases hle : width ≤ rest.length
    · exact hle
    · simp [show min width rest.length ≠ width by omega] at h
  rw [List.take_append_of_le_length enough, List.length_append,
    Nat.min_eq_left (Nat.le_add_right_of_le enough)]
  simpa [Nat.min_eq_left enough] using h

/-- What following a marker comes to does not change with more bytes behind it, once the length
field is complete. -/
theorem step_append {limit : Nat} {w : Walk} {marker : UInt8} {rest : Bytes} (more : Bytes)
    (h : w.step limit marker rest ≠ .partialHeader) :
    w.step limit marker (rest ++ more) = w.step limit marker rest := by
  unfold step at h ⊢
  cases hm : Announcement.ofMarker marker with
  | reserved => rfl
  | fixed | container => rfl
  | sized header width | sizedContainer width perEntry =>
    simp only [hm] at h ⊢
    cases hf : lengthField? width rest with
    | none => simp [hf] at h
    | some n => rw [lengthField?_append more hf]

/-- Bytes behind the place where a walk settled do not change what it settled on. -/
theorem scan_append_of_settled {limit : Nat} {w last : Walk} {skip : Nat} {bytes : Bytes}
    {stop : Stop} (more : Bytes) (h : scan limit w skip bytes = (last, stop))
    (hstop : stop ≠ .incomplete) : scan limit w skip (bytes ++ more) = (last, stop) := by
  induction bytes generalizing w skip with
  | nil =>
    cases skip with
    | succ skip =>
      simp only [scan, Prod.mk.injEq] at h
      exact absurd h.2.symm hstop
    | zero =>
      by_cases hp : w.pending = 0
      · simp only [scan, hp, if_true, Prod.mk.injEq] at h
        obtain ⟨rfl, rfl⟩ := h
        cases more <;> simp [scan, hp]
      · simp only [scan, hp, if_false, Prod.mk.injEq] at h
        exact absurd h.2.symm hstop
  | cons marker rest ih =>
    cases skip with
    | succ skip =>
      simp only [scan, List.cons_append] at h ⊢
      exact ih h
    | zero =>
      simp only [scan, List.cons_append] at h ⊢
      by_cases hp : w.pending = 0
      · simpa [hp] using h
      · simp only [hp, if_false] at h ⊢
        have hstep : w.step limit marker rest ≠ .partialHeader := by
          intro hpartial
          simp only [hpartial, Prod.mk.injEq] at h
          exact hstop h.2.symm
        rw [step_append more hstep]
        cases hs : w.step limit marker rest with
        | partialHeader => exact absurd hs hstep
        | reserved | tooLarge => simpa [hs] using h
        | moved next =>
          simp only [hs] at h
          exact ih h

end Walk

end BoardLink.MessagePack
