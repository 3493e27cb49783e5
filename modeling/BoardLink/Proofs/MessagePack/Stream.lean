import BoardLink.MessagePack.Framer
import BoardLink.Proofs.MessagePack.Spans

/-!
# Streams of messages in pieces

A framer keeps the walk over the message at the front of its buffer, so it is suspended and resumed
wherever a piece of the stream ends: in front of a marker, inside a length field, inside a payload,
between containers. None of these places shows in what is taken off the stream.

* `Walk.scan_resume` — the crux: a walk resumed from where it stopped ends as the walk that was
  never interrupted;
* `Framer.takeAll_append` — what was taken before more bytes arrived is taken again in front of
  what they complete, and a fault stays the first one;
* `Framer.takePieces_eq_takeAll` — so a stream in pieces yields what the whole stream yields.

What a message means is a parameter, a `Reading`: values as they are, packets, requests.
-/

namespace BoardLink.MessagePack

namespace Walk

/-- **A resumed walk ends as one that was never interrupted.** `offset` bytes of the message lie in
front of `bytes`, so the walk still has to pass over `skip` of them. The induction follows the scan;
it carries that a walk does not go back, since the resumed walk has to pass over at least what the
first one did. -/
theorem scan_resume {limit skip : Nat} (offset : Nat) {w last : Walk} {bytes : Bytes} {stop : Stop}
    (more : Bytes) (hskip : skip + offset = w.pos) (hx : Exact limit (offset + bytes.length))
    (h : scan limit w skip bytes = (last, stop)) :
    w.pos ≤ last.pos ∧
      scan limit last (last.pos - offset) (bytes ++ more) = scan limit w skip (bytes ++ more) := by
  induction bytes generalizing w skip offset with
  | nil =>
    -- the walk stays where it is, with `skip` bytes still to pass over
    obtain rfl : last = w := by
      cases skip <;> simp only [scan, Prod.mk.injEq] at h <;> exact h.1.symm
    rw [show last.pos - offset = skip by omega]
    exact ⟨Nat.le_refl _, rfl⟩
  | cons marker rest ih =>
    have hx' : Exact limit (offset + 1 + rest.length) :=
      hx.mono (by rw [List.length_cons]; omega)
    cases skip with
    | succ skip =>
      -- inside of a value neither of the walks looks at the bytes
      obtain ⟨hle, heq⟩ := ih (offset + 1) (by omega) hx' h
      refine ⟨hle, ?_⟩
      rw [show last.pos - offset = (last.pos - (offset + 1)) + 1 by omega, List.cons_append, scan,
        scan]
      exact heq
    | zero =>
      -- wherever the walk stays, it is resumed in front of the same marker
      have stays : last = w → w.pos ≤ last.pos ∧ scan limit last (last.pos - offset)
          (marker :: rest ++ more) = scan limit w 0 (marker :: rest ++ more) := by
        rintro rfl
        rw [show last.pos - offset = 0 by omega]
        exact ⟨Nat.le_refl _, rfl⟩
      by_cases hp : w.pending = 0
      · simp only [scan, hp, if_true, Prod.mk.injEq] at h
        exact stays h.1.symm
      · simp only [scan, hp, if_false] at h
        cases hs : w.step limit marker rest with
        | partialHeader | reserved | tooLarge =>
          simp only [hs, Prod.mk.injEq] at h
          exact stays h.1.symm
        | moved next =>
          simp only [hs] at h
          have hlt : w.pos < next.pos :=
            pos_lt_of_moved hs (hx.mono (by rw [List.length_cons]; omega))
          obtain ⟨hle, heq⟩ := ih (offset + 1) (by omega) hx' h
          refine ⟨by omega, ?_⟩
          -- what the marker announces was there, so both walks follow it in the same way
          have hstep : w.step limit marker (rest ++ more) = .moved next := by
            rw [step_append more (by simp [hs]), hs]
          rw [show last.pos - offset = (last.pos - (offset + 1)) + 1 by omega, List.cons_append,
            scan, scan, if_neg hp, hstep]
          exact heq

/-- A completed walk stands within the bytes at hand. -/
theorem pos_le_of_complete {limit skip : Nat} (offset : Nat) {w last : Walk} {bytes : Bytes}
    (hpos : w.pos ≤ skip + offset) (h : scan limit w skip bytes = (last, .complete)) :
    last.pos ≤ offset + bytes.length := by
  induction bytes generalizing w skip offset with
  | nil =>
    -- without bytes a walk is complete only where it stands
    obtain ⟨rfl, -, rfl⟩ := scan_nil_complete h
    rw [List.length_nil]
    omega
  | cons marker rest ih =>
    rw [List.length_cons]
    cases skip with
    | succ skip =>
      have := ih (offset + 1) (by omega) h
      omega
    | zero =>
      -- the value ends here, or the walk has moved on and ends within what is left
      rcases scan_cons_complete h with ⟨-, rfl⟩ | ⟨-, next, -, hnext⟩
      · omega
      · have := ih (offset + 1) (by omega) hnext
        omega

/-- **A walk waits for the whole message.** One that settled on a part of it would settle there on
the whole message, too. -/
theorem resume_of_proper {limit : Nat} {message front : Bytes} (hmessage : Spans 1 message)
    (hlimit : limit ≤ maxSize) (hle : message.length ≤ limit) (hfront : front <+: message)
    (hproper : front ≠ message) : (start.resume limit front).2 = .incomplete := by
  obtain ⟨more, rfl⟩ := hfront
  have hwhole :=
    complete_of_spans (w := start) hmessage rfl hlimit (by rwa [start, Nat.zero_add]) []
  rw [List.append_nil] at hwhole
  -- suppose it stopped on the part; then it stops in the same place on the whole
  cases hpart : start.resume limit front with
  | mk w stop =>
  by_cases hstop : stop = .incomplete
  · exact hstop
  exfalso
  have hsame := scan_append_of_settled more hpart hstop
  -- so it would settle on the end of the message, and there is nothing behind the part
  have heq : (w, stop) = (⟨start.pos + (front ++ more).length, 0⟩, .complete) :=
    calc (w, stop)
        = start.resume limit (front ++ more) := hsame.symm
      _ = (⟨start.pos + (front ++ more).length, 0⟩, .complete) := hwhole
  obtain ⟨rfl, rfl⟩ := Prod.mk.inj heq
  have hwithin := pos_le_of_complete 0 (Nat.le_refl _) hpart
  have hempty : more = [] := by
    rw [← List.length_eq_zero_iff]
    simp only [start, List.length_append] at hwithin
    omega
  exact hproper (by rw [hempty, List.append_nil])

/-- The walks that a buffer can be found with: one that has not begun, one that was resumed on the
buffer, and one from before the buffer grew. -/
inductive Reached (limit : Nat) : (buffer : Bytes) → (w : Walk) → Prop
  | start (buffer : Bytes) : Reached limit buffer .start
  | resumed {buffer : Bytes} {w : Walk} (h : Reached limit buffer w) :
      Reached limit buffer (w.resume limit buffer).1
  | grown {buffer : Bytes} {w : Walk} (more : Bytes) (h : Reached limit buffer w) :
      Reached limit (buffer ++ more) w

/-- However often it was suspended, a walk ends as one that begins now. -/
theorem Reached.resume_eq {limit : Nat} {buffer : Bytes} {w : Walk} (h : Reached limit buffer w)
    (hx : Exact limit buffer.length) (more : Bytes) :
    w.resume limit (buffer ++ more) = Walk.start.resume limit (buffer ++ more) := by
  induction h generalizing more with
  | start buffer => rfl
  | @resumed buffer w h ih =>
    -- that it was resumed before does not show in what it makes of the longer buffer
    calc (w.resume limit buffer).1.resume limit (buffer ++ more)
        = w.resume limit (buffer ++ more) := (scan_resume 0 more rfl (by simpa using hx) rfl).2
      _ = Walk.start.resume limit (buffer ++ more) := ih hx more
  | @grown buffer w more' h ih =>
    rw [List.append_assoc]
    exact ih (hx.mono (by rw [List.length_append]; omega)) (more' ++ more)

end Walk

namespace Framer

/-! ### One message -/

/-- A whole message is cut off and read, whatever stands behind. -/
theorem next_of_spans {limit : Nat} {message : Bytes} (hmessage : Spans 1 message)
    (hlimit : limit ≤ maxSize) (hle : message.length ≤ limit) (rest : Bytes) :
    next { limit := limit } (message ++ rest) =
      (readMessage message, { limit := limit }, rest) := by
  -- the walk over the message ends behind it, whatever follows
  have hwhole : Walk.start.resume limit (message ++ rest) = (⟨message.length, 0⟩, .complete) := by
    have hscan := Walk.complete_of_spans (w := Walk.start) hmessage rfl hlimit
      (by rwa [Walk.start, Nat.zero_add]) rest
    rwa [Walk.start, Nat.zero_add] at hscan
  unfold next
  simp only [hwhole, List.take_left, List.drop_left]

/-- **What there is of a message waits.** -/
theorem next_of_part {limit : Nat} {message part : Bytes} (hmessage : Spans 1 message)
    (hlimit : limit ≤ maxSize) (hle : message.length ≤ limit) (hpart : part <+: message)
    (hproper : part ≠ message) :
    ∃ w, next { limit := limit } part = (.ok none, ⟨limit, w⟩, part) := by
  have hstop := Walk.resume_of_proper hmessage hlimit hle hpart hproper
  cases hresume : Walk.start.resume limit part with
  | mk w stop =>
  obtain rfl : stop = .incomplete := by rwa [hresume] at hstop
  refine ⟨w, ?_⟩
  unfold next
  simp only [hresume]

theorem readMessage_ne_none (message : Bytes) : readMessage message ≠ .ok none := by
  unfold readMessage
  split <;> simp

/-- The framer only waits where the walk is not complete. Then it has taken nothing. -/
theorem next_eq_none {f f' : Framer} {buffer rest : Bytes}
    (h : f.next buffer = (.ok none, f', rest)) :
    ∃ w, f.walk.resume f.limit buffer = (w, .incomplete) ∧ f' = { f with walk := w } ∧
      rest = buffer := by
  unfold next at h
  split at h
  next w hw =>
    simp only [Prod.mk.injEq] at h
    exact ⟨w, hw, h.2.1.symm, h.2.2.symm⟩
  · -- a fault is not taken for waiting
    simp at h
  · simp at h
  next w hw =>
    simp only [Prod.mk.injEq] at h
    exact absurd h.1 (readMessage_ne_none _)

theorem limit_next (f : Framer) (buffer : Bytes) : (f.next buffer).2.1.limit = f.limit := by
  unfold next
  split <;> rfl

theorem length_next_le (f : Framer) (buffer : Bytes) :
    (f.next buffer).2.2.length ≤ buffer.length := by
  unfold next
  split <;> simp

/-- More bytes behind a message, or behind a fault, do not change it. -/
theorem next_append_of_settled {f f' : Framer} {buffer rest : Bytes}
    {result : Except FrameFault (Option Value)} (more : Bytes)
    (h : f.next buffer = (result, f', rest)) (hresult : result ≠ .ok none) :
    f.next (buffer ++ more) = (result, f', rest ++ more) := by
  -- the walk decides, and a walk that has settled does not look at what comes later
  unfold next at h ⊢
  cases hw : f.walk.resume f.limit buffer with
  | mk w stop =>
  have hmore : stop ≠ .incomplete → f.walk.resume f.limit (buffer ++ more) = (w, stop) :=
    Walk.scan_append_of_settled more hw
  cases stop with
  | incomplete =>
    simp only [hw, Prod.mk.injEq] at h
    exact absurd h.1.symm hresult
  | reserved | tooLarge =>
    -- a walk that refuses leaves the buffer as it is, and what comes later stays behind it
    simp only [hw, Prod.mk.injEq] at h
    obtain ⟨rfl, rfl, rfl⟩ := h
    simp [hmore (by simp)]
  | complete =>
    -- the message lies within the buffer, so it is cut off as before
    have hle : w.pos ≤ buffer.length := by
      simpa using Walk.pos_le_of_complete 0 (Nat.le_refl _) hw
    simp only [hw, Prod.mk.injEq] at h
    obtain ⟨rfl, rfl, rfl⟩ := h
    rw [hmore (by simp)]
    simp only [List.take_append_of_le_length hle, List.drop_append_of_le_length hle]

/-- A framer that has waited goes on as the one that has not been asked. -/
theorem next_append_of_wait {f f' : Framer} {buffer rest : Bytes} (more : Bytes)
    (hx : Walk.Exact f.limit buffer.length) (h : f.next buffer = (.ok none, f', rest)) :
    rest = buffer ∧ f'.next (buffer ++ more) = f.next (buffer ++ more) := by
  obtain ⟨w, hw, rfl, rfl⟩ := next_eq_none h
  refine ⟨rfl, ?_⟩
  -- the walk that is resumed passes over what the first one has seen
  have hresume : w.resume f.limit (rest ++ more) = f.walk.resume f.limit (rest ++ more) :=
    (Walk.scan_resume 0 more rfl (by simpa using hx) hw).2
  simp only [next, hresume]

end Framer

/-! ### All messages -/

/-- How messages are understood: what a value stands for, and how a refused message is told. -/
structure Reading (ε α : Type) where
  ofValue : Value → Except ε α
  ofFrame : FrameFault → ε

/-- Values as they are. -/
def Reading.values : Reading FrameFault Value := ⟨.ok, id⟩

namespace Framer

variable {ε α : Type}

/-- Takes one message off the front of the buffer and understands it. -/
def nextAs (r : Reading ε α) (f : Framer) (buffer : Bytes) :
    Except ε (Option α) × Framer × Bytes :=
  match f.next buffer with
  | (.error why, f', rest) => (.error (r.ofFrame why), f', rest)
  | (.ok none, f', rest) => (.ok none, f', rest)
  | (.ok (some v), f', rest) => (some <$> r.ofValue v, f', rest)

theorem nextAs_eq_some {r : Reading ε α} {f f' : Framer} {buffer rest : Bytes} {a : α}
    (h : f.nextAs r buffer = (.ok (some a), f', rest)) :
    ∃ v, f.next buffer = (.ok (some v), f', rest) ∧ r.ofValue v = .ok a := by
  unfold nextAs at h
  split at h
  · simp at h
  · simp at h
  next v f₁ rest₁ hnext =>
    simp only [Prod.mk.injEq] at h
    obtain ⟨hv, rfl, rfl⟩ := h
    refine ⟨v, hnext, ?_⟩
    -- a value that stands for nothing would have been a fault
    cases hread : r.ofValue v with
    | error e => simp [hread, Functor.map, Except.map] at hv
    | ok b => simpa [hread, Functor.map, Except.map] using hv

theorem nextAs_eq_none {r : Reading ε α} {f f' : Framer} {buffer rest : Bytes}
    (h : f.nextAs r buffer = (.ok none, f', rest)) : f.next buffer = (.ok none, f', rest) := by
  unfold nextAs at h
  split at h
  · simp at h
  next f₁ rest₁ hnext => simpa [hnext] using h
  next v f₁ rest₁ hnext =>
    simp only [Prod.mk.injEq] at h
    cases hread : r.ofValue v <;> simp [hread, Functor.map, Except.map] at h

/-- More bytes behind a message, or behind a fault, do not change how it is understood. -/
theorem nextAs_append_of_settled {r : Reading ε α} {f f' : Framer} {buffer rest : Bytes}
    {result : Except ε (Option α)} (more : Bytes) (h : f.nextAs r buffer = (result, f', rest))
    (hresult : result ≠ .ok none) :
    f.nextAs r (buffer ++ more) = (result, f', rest ++ more) := by
  unfold nextAs at h ⊢
  cases hnext : f.next buffer with
  | mk cut left =>
  -- what was cut off was a message or a fault, for a framer that waits yields nothing
  have hne : cut ≠ .ok none := by
    rintro rfl
    simp only [hnext, Prod.mk.injEq] at h
    exact hresult h.1.symm
  rw [next_append_of_settled more hnext hne]
  rw [hnext] at h
  match cut with
  | .error why | .ok none | .ok (some v) =>
    simp only [Prod.mk.injEq] at h ⊢
    obtain ⟨rfl, rfl, rfl⟩ := h
    exact ⟨rfl, rfl, rfl⟩

theorem length_nextAs_lt {r : Reading ε α} {f f' : Framer} {buffer rest : Bytes} {a : α}
    (h : f.nextAs r buffer = (.ok (some a), f', rest)) : rest.length < buffer.length := by
  obtain ⟨v, hnext, -⟩ := nextAs_eq_some h
  exact length_next_lt hnext

theorem limit_nextAs (r : Reading ε α) (f : Framer) (buffer : Bytes) :
    (f.nextAs r buffer).2.1.limit = f.limit := by
  have hlimit := limit_next f buffer
  unfold nextAs
  split <;> simp_all

theorem length_nextAs_le (r : Reading ε α) (f : Framer) (buffer : Bytes) :
    (f.nextAs r buffer).2.2.length ≤ buffer.length := by
  have hle := length_next_le f buffer
  unfold nextAs
  split <;> simp_all

/-- What taking messages until there is none or a fault yields: what they stand for, the fault
behind them, if any, and the framer with the bytes that it has left. -/
structure Taken (ε α : Type) where
  items : List α
  fault : Option ε
  framer : Framer
  rest : Bytes

/-- Takes messages until there is none or a fault. -/
def takeAll (r : Reading ε α) (f : Framer) (buffer : Bytes) : Taken ε α :=
  match h : f.nextAs r buffer with
  | (.ok none, f', rest) => ⟨[], none, f', rest⟩
  | (.error e, f', rest) => ⟨[], some e, f', rest⟩
  | (.ok (some a), f', rest) =>
    have := length_nextAs_lt h
    let more := takeAll r f' rest
    { more with items := a :: more.items }
termination_by buffer.length

theorem takeAll_eq (r : Reading ε α) (f : Framer) (buffer : Bytes) : f.takeAll r buffer =
    match f.nextAs r buffer with
    | (.ok none, f', rest) => ⟨[], none, f', rest⟩
    | (.error e, f', rest) => ⟨[], some e, f', rest⟩
    | (.ok (some a), f', rest) =>
      { f'.takeAll r rest with items := a :: (f'.takeAll r rest).items } := by
  rw [takeAll]
  split <;> rename_i h <;> simp [h]

/-- Goes on taking messages when more bytes have arrived, unless there was a fault. -/
def Taken.extend (r : Reading ε α) (t : Taken ε α) (more : Bytes) : Taken ε α :=
  match t.fault with
  | some _ => { t with rest := t.rest ++ more }
  | none =>
    let later := t.framer.takeAll r (t.rest ++ more)
    { later with items := t.items ++ later.items }

theorem length_takeAll_le (r : Reading ε α) (f : Framer) (buffer : Bytes) :
    (f.takeAll r buffer).rest.length ≤ buffer.length := by
  fun_induction takeAll r f buffer with
  | case1 f buffer f' rest hnext | case2 f buffer e f' rest hnext =>
    -- nothing is taken but what the last request takes off
    have hle := length_nextAs_le r f buffer
    rwa [hnext] at hle
  | case3 f buffer a f' rest hnext hlt more ih => exact Nat.le_of_lt (Nat.lt_of_le_of_lt ih hlt)

theorem limit_takeAll (r : Reading ε α) (f : Framer) (buffer : Bytes) :
    (f.takeAll r buffer).framer.limit = f.limit := by
  fun_induction takeAll r f buffer with
  | case1 f buffer f' rest hnext | case2 f buffer e f' rest hnext =>
    have hlimit := limit_nextAs r f buffer
    rwa [hnext] at hlimit
  | case3 f buffer a f' rest hnext hlt more ih =>
    have hlimit := limit_nextAs r f buffer
    rw [hnext] at hlimit
    exact ih.trans hlimit

/-- **Taking is not disturbed by where a piece ends.** The induction is on the buffer: a message in
front of it is taken either way, and where the framer waits it resumes its walk. -/
theorem takeAll_append {r : Reading ε α} {f : Framer} {buffer : Bytes} (more : Bytes)
    (hx : Walk.Exact f.limit (f.takeAll r buffer).rest.length) :
    f.takeAll r (buffer ++ more) = (f.takeAll r buffer).extend r more := by
  induction hn : buffer.length using Nat.strongRecOn generalizing f buffer with
  | _ n ih =>
  rw [takeAll_eq r f buffer] at hx ⊢
  match hnext : f.nextAs r buffer with
  | (.error e, f', rest) =>
    -- the fault is met again in the same place, and what comes later is kept
    rw [takeAll_eq, nextAs_append_of_settled more hnext (by simp)]
    rfl
  | (.ok none, f', rest) =>
    rw [hnext] at hx
    have hnone := nextAs_eq_none hnext
    obtain ⟨w, -, -, rfl⟩ := next_eq_none hnone
    -- the framer that waited and the one that was not asked take the same from here on
    have hwait := (next_append_of_wait more hx hnone).2
    have hwaitAs : f'.nextAs r (rest ++ more) = f.nextAs r (rest ++ more) := by
      rw [nextAs, hwait, ← nextAs]
    have hwaitAll : f.takeAll r (rest ++ more) = f'.takeAll r (rest ++ more) := by
      rw [takeAll_eq r f, takeAll_eq r f', hwaitAs]
    simp [Taken.extend, hwaitAll]
  | (.ok (some a), f', rest) =>
    rw [hnext] at hx
    have hlt := length_nextAs_lt hnext
    have hlimit := limit_nextAs r f buffer
    rw [hnext] at hlimit
    -- the message is taken either way, and the induction speaks of what is behind it
    rw [takeAll_eq, nextAs_append_of_settled more hnext (by simp)]
    simp only
    rw [ih rest.length (by omega) (hlimit ▸ hx) rfl]
    cases hfault : (f'.takeAll r rest).fault <;> simp [Taken.extend, hfault]

/-- What has arrived is taken after each piece. -/
def takePieces (r : Reading ε α) (f : Framer) (pieces : List Bytes) : Taken ε α :=
  pieces.foldl (Taken.extend r) ⟨[], none, f, []⟩

/-- A stream of which at no time more is left to take than can be counted. -/
def Fits (r : Reading ε α) (f : Framer) (stream : Bytes) : Prop :=
  ∀ front, front <+: stream → Walk.Exact f.limit (f.takeAll r front).rest.length

theorem Fits.of_exact {r : Reading ε α} {f : Framer} {stream : Bytes}
    (hx : Walk.Exact f.limit stream.length) : Fits r f stream := by
  intro front hfront
  exact hx.mono (Nat.le_trans (length_takeAll_le r f front) hfront.length_le)

/-- A stream in pieces yields what the whole stream yields, behind what was there. -/
theorem foldl_extend {r : Reading ε α} {f : Framer} {buffer : Bytes} (pieces : List Bytes)
    (hfits : Fits r f (buffer ++ pieces.flatten)) :
    pieces.foldl (Taken.extend r) (f.takeAll r buffer) =
      f.takeAll r (buffer ++ pieces.flatten) := by
  induction pieces generalizing buffer with
  | nil => rw [List.foldl_nil, List.flatten_nil, List.append_nil]
  | cons piece pieces ih =>
    -- the pieces up to here fit, as a front of the stream
    have hbuffer := hfits buffer (List.prefix_append _ _)
    rw [List.flatten_cons, ← List.append_assoc] at hfits ⊢
    calc (piece :: pieces).foldl (Taken.extend r) (f.takeAll r buffer)
        = pieces.foldl (Taken.extend r) ((f.takeAll r buffer).extend r piece) := rfl
      _ = pieces.foldl (Taken.extend r) (f.takeAll r (buffer ++ piece)) := by
        rw [takeAll_append piece hbuffer]
      _ = f.takeAll r (buffer ++ piece ++ pieces.flatten) := ih hfits

theorem takeAll_nil (r : Reading ε α) (limit : Nat) :
    takeAll r { limit := limit } [] = ⟨[], none, { limit := limit }, []⟩ := by
  rw [takeAll_eq]
  rfl

/-- **A stream in pieces yields what the whole stream yields.** -/
theorem takePieces_eq_takeAll {r : Reading ε α} {limit : Nat} {pieces : List Bytes}
    (hfits : Fits r { limit := limit } pieces.flatten) :
    takePieces r { limit := limit } pieces = takeAll r { limit := limit } pieces.flatten := by
  rw [takePieces, ← takeAll_nil r limit]
  exact foldl_extend pieces hfits

end Framer

end BoardLink.MessagePack
