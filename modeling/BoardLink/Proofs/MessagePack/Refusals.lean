import BoardLink.Proofs.MessagePack.Agreement

/-!
# What a refusal leaves behind

A framer refuses a message in two places. The walk refuses a marker, and then nothing has been taken:
the message stays in the buffer and the walk in front of the marker, so it is refused again however
often one asks and whatever arrives behind it. The reader refuses a message that the walk has settled
on, and then this message has been taken, and the framer is new in front of the next one.

* `Framer.next_again` — the crux: the walk that was refused stands further on than the one that was
  resumed, but it is resumed on a marker that the other one comes to as well (`Walk.scan_resume`), so
  both are refused alike;
* `Framer.Reached` — the framers that a growing buffer can be found with;
* `Framer.next_leaves` — what is left of the buffer, and of the framer, by what it says.
-/

namespace BoardLink.MessagePack

/-- The fault is one that a walk meets. -/
def FrameFault.IsOfWalk (limit : Nat) (why : FrameFault) : Prop :=
  why = .malformed .reservedMarker ∨ ∃ got, why = .tooLarge limit got

namespace Framer

variable {f f' : Framer} {buffer rest : Bytes} {why : FrameFault}

/-! ### Framers of a growing buffer -/

/-- The framers that a buffer can be found with, and what is then in the buffer: a new one in front
of nothing, one whose buffer has grown, and one that has been asked, whatever it said. -/
inductive Reached (limit : Nat) : Framer → (buffer : Bytes) → Prop
  | new : Reached limit { limit := limit } []
  | grown {f : Framer} {buffer : Bytes} (more : Bytes) (h : Reached limit f buffer) :
      Reached limit f (buffer ++ more)
  | asked {f : Framer} {buffer : Bytes} (h : Reached limit f buffer) :
      Reached limit (f.next buffer).2.1 (f.next buffer).2.2

/-- Their walks are those that are resumed where they stopped. A message that is taken off leaves a
walk that has not begun. -/
theorem Reached.walk {limit : Nat} (h : Reached limit f buffer) :
    f.limit = limit ∧ Walk.Reached limit buffer f.walk := by
  induction h with
  -- a new framer has not begun its walk
  | new => exact ⟨rfl, .start []⟩
  | grown more h ih => exact ⟨ih.1, .grown more ih.2⟩
  | @asked f buffer h ih =>
    obtain ⟨rfl, hwalk⟩ := ih
    refine ⟨limit_next f buffer, ?_⟩
    have hresumed := hwalk.resumed
    unfold next
    rcases hw : f.walk.resume f.limit buffer with ⟨w, stop⟩
    rw [hw] at hresumed
    cases stop with
    -- whatever stops it in front of the end, the walk is resumed where it stopped
    | incomplete | reserved | tooLarge => exact hresumed
    | complete =>
      -- what is left is another buffer, in front of which nothing has been walked over
      exact .start _

/-! ### The two refusals -/

/-- A refusal is one of the walk, or one of the reader behind a walk that is complete. -/
theorem next_error (h : f.next buffer = (.error why, f', rest)) :
    (why.IsOfWalk f.limit ∧ f' = { f with walk := (f.walk.resume f.limit buffer).1 } ∧
      rest = buffer) ∨
    ∃ w, f.walk.resume f.limit buffer = (w, .complete) ∧ f' = { f with walk := .start } ∧
      rest = buffer.drop w.pos ∧ readMessage (buffer.take w.pos) = .error why := by
  unfold next at h
  rcases hw : f.walk.resume f.limit buffer with ⟨w, stop⟩
  rw [hw] at h
  cases stop with
  | incomplete => cases h
  | reserved =>
    -- a walk that refuses takes nothing, and the framer keeps it
    cases h
    exact .inl ⟨.inl rfl, rfl, rfl⟩
  | tooLarge needed =>
    cases h
    exact .inl ⟨.inr ⟨needed, rfl⟩, rfl, rfl⟩
  | complete =>
    -- the message is whole, so it is taken off whatever the reader says of it
    obtain ⟨hread, rfl, rfl⟩ : _ ∧ _ ∧ _ := by simpa only [Prod.mk.injEq] using h
    exact .inr ⟨w, rfl, rfl, rfl, hread⟩

/-- **What a walk refuses is refused again**, with whatever arrives behind it, and again nothing is
taken and the framer stays as it is. -/
theorem next_again (hx : Walk.Exact f.limit buffer.length)
    (h : f.next buffer = (.error why, f', buffer))
    (hwalk : f' = { f with walk := (f.walk.resume f.limit buffer).1 }) (more : Bytes) :
    f'.next (buffer ++ more) = (.error why, f', buffer ++ more) := by
  subst hwalk
  have hresume : (f.walk.resume f.limit buffer).1.resume f.limit (buffer ++ more) =
      f.walk.resume f.limit (buffer ++ more) :=
    (Walk.scan_resume 0 more rfl (by simpa using hx) rfl).2
  -- the framer that was asked first would have refused the longer buffer in the same way
  have hfirst := next_append_of_settled more h (by simp)
  rw [← hfirst]
  simp only [next, hresume]

/-- **The reader refuses whole messages**, and only those that are nested too deeply. -/
theorem message_of_readMessage_error {limit : Nat} {w : Walk} (hreached : Reached limit f buffer)
    (hx : Walk.Exact limit buffer.length) (hw : f.walk.resume f.limit buffer = (w, .complete))
    (hread : readMessage (buffer.take w.pos) = .error why) :
    Spans 1 (buffer.take w.pos) ∧ why = .malformed .tooDeep := by
  obtain ⟨rfl, hwalk⟩ := hreached.walk
  refine ⟨(Walk.spans_of_settled hwalk hx hw).2, ?_⟩
  -- the reader takes the bytes as a value, if it can go as deep
  obtain ⟨-, v, hv⟩ := Walk.readValue_of_complete hwalk hx hw
  rw [readMessage, hv] at hread
  split at hread
  next hsome => cases hread
  next why' hnone =>
    have hdeep : why' = .tooDeep := by
      split at hnone
      · cases hnone
      · exact (Except.error.inj hnone).symm
    rw [← Except.error.inj hread, hdeep]

/-! ### Asking on -/

/-- What a framer says that is asked behind each of some pieces, and how it and its buffer are
then. -/
def askOn (f : Framer) (buffer : Bytes) :
    (pieces : List Bytes) → List (Except FrameFault (Option Value)) × Framer × Bytes
  | [] => ([], f, buffer)
  | piece :: pieces =>
    let (result, f', rest) := f.next (buffer ++ piece)
    let (results, last) := f'.askOn rest pieces
    (result :: results, last)

/-- A framer that says the same and stays as it is, whatever arrives, goes on to do so. -/
theorem askOn_of_next {result : Except FrameFault (Option Value)}
    (h : ∀ more, f.next (buffer ++ more) = (result, f, buffer ++ more)) (pieces : List Bytes) :
    f.askOn buffer pieces =
      (List.replicate pieces.length result, f, buffer ++ pieces.flatten) := by
  induction pieces generalizing buffer with
  | nil => rw [List.flatten_nil, List.append_nil]; rfl
  | cons piece pieces ih =>
    -- the buffer with the next piece is one that it says the same of
    have hlater : ∀ more,
        f.next (buffer ++ piece ++ more) = (result, f, buffer ++ piece ++ more) := by
      intro more
      rw [List.append_assoc]
      exact h (piece ++ more)
    rw [askOn, h piece]
    simp only [ih hlater, List.flatten_cons, List.append_assoc]
    rfl

/-- **What a framer leaves behind.** Let a framer be reached by asking for the messages of a growing
buffer, and ask it once more.

* If it waits, the buffer is as it was.
* If it refuses a marker, or the size that the markers tell, the buffer is as it was, too. However
  many pieces arrive, and however often it is asked, it refuses this message with the same fault, and
  takes nothing.
* If it refuses anything else, this is the depth of a message. Then it has taken exactly the bytes of
  this one message off the front of the buffer, and it is as new. -/
theorem next_leaves {limit : Nat} {result : Except FrameFault (Option Value)}
    (hreached : Reached limit f buffer) (hx : Walk.Exact limit buffer.length)
    (h : f.next buffer = (result, f', rest)) :
    (result = .ok none → rest = buffer) ∧
    ∀ why, result = .error why →
      (why.IsOfWalk limit ∧ rest = buffer ∧ ∀ pieces, f'.askOn rest pieces =
        (List.replicate pieces.length (.error why), f', rest ++ pieces.flatten)) ∨
      (why = .malformed .tooDeep ∧ f' = { limit := limit } ∧
        ∃ message, buffer = message ++ rest ∧ Spans 1 message) := by
  have hlimit := hreached.walk.1
  refine ⟨?_, ?_⟩
  · -- a framer that waits takes nothing
    rintro rfl
    obtain ⟨-, -, -, hrest⟩ := next_eq_none h
    exact hrest
  · rintro why rfl
    rcases next_error h with ⟨hof, hwalk, rfl⟩ | ⟨w, hw, hnew, rfl, hread⟩
    · -- the walk refused, and refuses the same with all that arrives
      rw [hlimit] at hof
      exact .inl ⟨hof, rfl, askOn_of_next (next_again (hlimit ▸ hx) h hwalk)⟩
    · -- the reader refused, and the walk has told where the message ends
      obtain ⟨hspans, hdeep⟩ := message_of_readMessage_error hreached hx hw hread
      refine .inr ⟨hdeep, ?_, buffer.take w.pos, (List.take_append_drop _ _).symm, hspans⟩
      rw [hnew, hlimit]

/-- A framer has waited behind the first value of an array, and then meets a marker that begins no
value. -/
theorem next_leaves_reserved :
    let f : Framer := (next { limit := 16 } [0x92, 0x01]).2.1
    let buffer : Bytes := [0x92, 0x01] ++ [0xc1, 0x05]
    Reached 16 f buffer ∧ Walk.Exact 16 buffer.length ∧
      f.next buffer = (.error (.malformed .reservedMarker), f, buffer) ∧
      f.askOn buffer [[], [0x00], [0x01, 0x02]] =
        (List.replicate 3 (.error (.malformed .reservedMarker)), f,
          [0x92, 0x01, 0xc1, 0x05, 0x00, 0x01, 0x02]) := by
  intro f buffer
  have hreached : Reached 16 f buffer := .grown [0xc1, 0x05] (.asked (.grown [0x92, 0x01] .new))
  have hx : Walk.Exact 16 buffer.length := .inl (by decide)
  have h : f.next buffer = (.error (.malformed .reservedMarker), f, buffer) := rfl
  refine ⟨hreached, hx, h, ?_⟩
  -- the general theorem says one of two things, and this fault is not the depth
  rcases (next_leaves hreached hx h).2 _ rfl with ⟨-, -, hagain⟩ | ⟨hdeep, -⟩
  · exact hagain [[], [0x00], [0x01, 0x02]]
  · cases hdeep

end Framer

end BoardLink.MessagePack
