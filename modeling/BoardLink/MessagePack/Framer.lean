import BoardLink.MessagePack.Boundary
import BoardLink.MessagePack.Reader

/-!
# Cutting messages off a growing buffer

A `Framer` takes complete values off the front of a buffer that grows at its end. It follows the
markers of the first message as far as they are there, remembers how far it came, and reads the
value once all its bytes are buffered. A message above the size limit is refused as soon as its
markers say so, before its payload arrives.

* `Framer.length_next_lt` — a value that is handed out was taken off the buffer, so a loop over the
  values of a buffer ends.
-/

namespace BoardLink.MessagePack

/-- Why a message was refused. -/
inductive FrameFault where
  | malformed (why : Malformed)
  /-- The message takes at least `got` bytes, `max` are allowed. -/
  | tooLarge (max got : Nat)
  deriving DecidableEq, Repr

/-- The size limit of a message unless another one is asked for. The largest block a board answers
takes a little over 16 MiB. -/
def defaultMessageLimit : Nat := 64 * 1024 * 1024

/-- A size limit, and the walk over the message at the front of the buffer. -/
structure Framer where
  limit : Nat := defaultMessageLimit
  walk : Walk := .start
  deriving DecidableEq, Repr

namespace Framer

/-- Reads a message whose end is known. -/
def readMessage (message : Bytes) : Except FrameFault (Option Value) :=
  match readValue readBudget message with
  | .ok (v, _) => .ok (some v)
  | .error why => .error (.malformed why)

/-- Takes one value off the front of the buffer: `none` and an unchanged buffer while it is
incomplete.

A message refused by the walk stays in the buffer, and the walk stays in front of the marker that
was refused. A message refused by the reader is taken off, and the next one can be asked for. -/
def next (f : Framer) (buffer : Bytes) : Except FrameFault (Option Value) × Framer × Bytes :=
  match f.walk.resume f.limit buffer with
  | (w, .incomplete) => (.ok none, { f with walk := w }, buffer)
  | (w, .reserved) => (.error (.malformed .reservedMarker), { f with walk := w }, buffer)
  | (w, .tooLarge needed) => (.error (.tooLarge f.limit needed), { f with walk := w }, buffer)
  | (w, .complete) =>
    (readMessage (buffer.take w.pos), { f with walk := .start }, buffer.drop w.pos)

/-- The least size of the message at the front, from what was followed of it. -/
def needed (f : Framer) : Nat := f.walk.needed

/-- Nothing is read from an empty message. -/
theorem readMessage_ne_nil {message : Bytes} {v : Value} (h : readMessage message = .ok (some v)) :
    message ≠ [] := by
  rintro rfl
  obtain ⟨e, he⟩ := readValue_nil readBudget
  simp [readMessage, he] at h

/-- A value that is handed out was taken off the buffer. -/
theorem length_next_lt {f f' : Framer} {buffer rest : Bytes} {v : Value}
    (h : f.next buffer = (.ok (some v), f', rest)) : rest.length < buffer.length := by
  unfold next at h
  split at h
  · simp at h
  · simp at h
  · simp at h
  next w _ =>
    simp only [Prod.mk.injEq] at h
    obtain ⟨hread, -, rfl⟩ := h
    have hne := readMessage_ne_nil hread
    simp only [ne_eq, List.take_eq_nil_iff, not_or] at hne
    have := List.length_pos_iff.2 hne.2
    simp only [List.length_drop]
    omega

end Framer

end BoardLink.MessagePack
