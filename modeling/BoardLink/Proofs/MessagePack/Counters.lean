import BoardLink.Proofs.MessagePack.LeastSize

/-!
# The counters of a walk

A walk counts bytes and values in machine words. Three of its sums and its one product of lengths
stop at the largest word. All others must not overflow, and nothing looks after them but the limit,
which is compared with the counters before each move. Here the walk is taken once more on machine
words (`Words`), where a plain operation that overflows comes to nothing, and one that stops is
remembered.

* `Walk.Bounded` — the invariant: position and debt together keep within the limit, which is what
  makes room for the next header;
* `Walk.stepWords_run` — one marker: in front of it a bounded walk has room for every announcement;
* `Walk.stopped_of_stepWords` — a sum that stops makes the move too large, for every limit that can
  be exceeded;
* `Framer.nextWords_run` — a call, by induction on the bytes that the walk is taken over;
* `Framer.counters_bounded` — all of it for the framers of a growing buffer.
-/

namespace BoardLink.MessagePack

/-! ### Machine words -/

/-- A computation on machine words. It comes to nothing where a plain operation overflows, and
remembers whether a sum or a product has stopped at the largest word. -/
abbrev Words := StateT Bool Option

namespace Words

/-- The result of a plain addition or multiplication. -/
def plain (n : Nat) : Words Nat := if n ≤ maxSize then pure n else failure

/-- The result of a plain subtraction. -/
def minus (a b : Nat) : Words Nat := if b ≤ a then pure (a - b) else failure

/-- The result of an addition or multiplication that stops at the largest word. -/
def stopping (n : Nat) : Words Nat := do
  if maxSize < n then set true
  return min n maxSize

/-- Where the computation comes to something, it is this, and nothing has stopped on the way. -/
def Yields {α : Type} (x : Words α) (a : α) : Prop :=
  ∀ stopped r, x.run stopped = some r → r = (a, stopped)

variable {α β : Type} {stopped between : Bool} {x : Words α} {later : α → Words β} {a : α}

theorem bind_run (h : x.run stopped = some (a, between)) :
    (x >>= later).run stopped = (later a).run between := by
  rw [StateT.run_bind, h]
  rfl

theorem bind_inv {r : β × Bool} (h : (x >>= later).run stopped = some r) :
    ∃ a between, x.run stopped = some (a, between) ∧ (later a).run between = some r := by
  rw [StateT.run_bind] at h
  obtain ⟨⟨a, between⟩, hfirst, hlater⟩ := Option.bind_eq_some_iff.1 h
  exact ⟨a, between, hfirst, hlater⟩

/-- What is left of a computation that has come to something. -/
theorem Yields.next {r : β × Bool} (hx : Yields x a) (h : (x >>= later).run stopped = some r) :
    (later a).run stopped = some r := by
  obtain ⟨a', between, hfirst, hlater⟩ := bind_inv h
  obtain ⟨rfl, rfl⟩ := Prod.mk.inj (hx stopped _ hfirst)
  exact hlater

theorem yields_pure (a : α) : Yields (pure a : Words α) a := by
  intro stopped r h
  exact (Option.some.inj h).symm

theorem plain_run {n : Nat} (h : n ≤ maxSize) : (plain n).run stopped = some (n, stopped) := by
  rw [plain, if_pos h]
  rfl

theorem yields_plain (n : Nat) : Yields (plain n) n := by
  intro stopped r h
  unfold plain at h
  split at h
  · exact yields_pure n stopped r h
  · cases h

theorem minus_run {m n : Nat} (h : n ≤ m) : (minus m n).run stopped = some (m - n, stopped) := by
  rw [minus, if_pos h]
  rfl

theorem yields_minus (m n : Nat) : Yields (minus m n) (m - n) := by
  intro stopped r h
  unfold minus at h
  split at h
  · exact yields_pure _ stopped r h
  · cases h

theorem stopping_run (n : Nat) :
    (stopping n).run stopped = some (min n maxSize, stopped || decide (maxSize < n)) := by
  unfold stopping
  by_cases h : maxSize < n <;> simp [h]

theorem stopping_run_of_le {n : Nat} (h : n ≤ maxSize) :
    (stopping n).run stopped = some (n, stopped) := by
  simp [stopping_run, Nat.not_lt.2 h, Nat.min_eq_left h]

end Words

open Words

/-! ### The walk on machine words -/

/-- The announcement of each marker byte; all others than the short containers and strings are
constants. -/
def Announcement.ofMarkerWords (marker : UInt8) : Words Announcement :=
  if 0x80 ≤ marker ∧ marker < 0x90 then do
    return .container (← plain (2 * (marker &&& 0x0f).toNat))
  else if 0xa0 ≤ marker ∧ marker < 0xc0 then do
    return .fixed (← plain (1 + (marker &&& 0x1f).toNat))
  else
    return .ofMarker marker

/-- The number that a byte string stands for, the most significant byte first. -/
def ofBigEndianWords (bytes : Bytes) : Words Nat :=
  bytes.foldlM (fun n b => do plain ((← plain (n * 256)) + b.toNat)) 0

namespace Walk

/-- The number in the `width` bytes behind the marker, `none` if they are not all there. -/
def lengthFieldWords (w : Walk) (width : Nat) (rest : Bytes) : Words (Option Nat) := do
  let _ ← plain ((← plain (w.pos + 1)) + width)
  let field := rest.take width
  if field.length = width then some <$> ofBigEndianWords field else return none

/-- Accepts a move that keeps within the limit. -/
def checkedWords (limit : Nat) (next : Walk) : Words Step := do
  let needed ← stopping (next.pos + next.pending)
  return if limit < needed then .tooLarge needed else .moved next

/-- Follows one marker, with `rest` behind it. -/
def stepWords (limit : Nat) (w : Walk) (marker : UInt8) (rest : Bytes) : Words Step := do
  let others ← minus w.pending 1
  match ← Announcement.ofMarkerWords marker with
  | .reserved => return .reserved
  | .fixed length => checkedWords limit ⟨← plain (w.pos + length), others⟩
  | .container count => checkedWords limit ⟨← plain (w.pos + 1), ← plain (others + count)⟩
  | .sized header width =>
    match ← w.lengthFieldWords width rest with
    | none => return .partialHeader
    | some length =>
      let front ← plain (w.pos + header)
      checkedWords limit ⟨← stopping (front + length), others⟩
  | .sizedContainer width perEntry =>
    match ← w.lengthFieldWords width rest with
    | none => return .partialHeader
    | some count =>
      let entries ← stopping (count * perEntry)
      let behind ← plain ((← plain (w.pos + 1)) + width)
      checkedWords limit ⟨behind, ← stopping (others + entries)⟩

/-- Follows the markers of a message as far as they are there. Only what is computed is on machine
words, `skip` stands for the place where the next marker is looked up. -/
def scanWords (limit : Nat) (w : Walk) : (skip : Nat) → Bytes → Words (Walk × Stop)
  | 0, [] => return (w, if w.pending = 0 then .complete else .incomplete)
  | _ + 1, [] => return (w, .incomplete)
  | skip + 1, _ :: rest => scanWords limit w skip rest
  | 0, marker :: rest =>
    if w.pending = 0 then return (w, .complete)
    else do
      match ← w.stepWords limit marker rest with
      | .partialHeader => return (w, .incomplete)
      | .reserved => return (w, .reserved)
      | .tooLarge needed => return (w, .tooLarge needed)
      | .moved next => scanWords limit next (next.pos - w.pos - 1) rest

/-- The least size of a message that begins as the walk has seen. -/
def neededWords (w : Walk) : Words Nat := plain (w.pos + w.pending)

/-- The walks in front of the markers that a scan reads. -/
def readers (limit : Nat) (w : Walk) : (skip : Nat) → Bytes → List Walk
  | _, [] => []
  | skip + 1, _ :: rest => readers limit w skip rest
  | 0, marker :: rest =>
    if w.pending = 0 then []
    else w :: match w.step limit marker rest with
      | .moved next => readers limit next (next.pos - w.pos - 1) rest
      | .partialHeader | .reserved | .tooLarge _ => []

end Walk

/-- Takes one value off the front of the buffer. -/
def Framer.nextWords (f : Framer) (buffer : Bytes) :
    Words (Except FrameFault (Option Value) × Framer × Bytes) := do
  match ← f.walk.scanWords f.limit f.walk.pos buffer with
  | (w, .incomplete) => return (.ok none, { f with walk := w }, buffer)
  | (w, .reserved) => return (.error (.malformed .reservedMarker), { f with walk := w }, buffer)
  | (w, .tooLarge needed) =>
    return (.error (.tooLarge f.limit needed), { f with walk := w }, buffer)
  | (w, .complete) =>
    return (readMessage (buffer.take w.pos), { f with walk := .start }, buffer.drop w.pos)

/-! ### Announcements and length fields -/

variable {stopped : Bool}

theorem Announcement.ofMarkerWords_run (marker : UInt8) :
    (ofMarkerWords marker).run stopped = some (ofMarker marker, stopped) :=
  -- each of the 256 markers is evaluated, since the arithmetic is on four or five bits
  forall_byte (P := fun m => ∀ stopped, (ofMarkerWords m).run stopped = some (ofMarker m, stopped))
    (by decide +kernel) marker stopped

/-- No number of at most four bytes overflows. -/
theorem ofBigEndianWords_run {bytes : Bytes} (h : fieldValues bytes.length ≤ 0x100000000) :
    (ofBigEndianWords bytes).run stopped = some (ofBigEndian bytes, stopped) := by
  induction bytes using List.reverseRecOn with
  | nil => rfl
  | append_singleton bytes b ih =>
    -- what is read before the last byte is shorter by a field of one byte, so it can be shifted
    rw [List.length_append, List.length_singleton, fieldValues] at h
    have hn := ofBigEndian_lt bytes
    have hb := b.toNat_lt
    have hmax : maxSize = 0xffffffffffffffff := rfl
    have hfront := ih (by omega)
    rw [ofBigEndianWords] at hfront
    rw [ofBigEndianWords, List.foldlM_append, bind_run hfront, ofBigEndian_append_byte]
    simp only [List.foldlM_cons, List.foldlM_nil, bind_pure]
    rw [bind_run (plain_run (by omega)), plain_run (by omega)]

namespace Walk

variable {limit : Nat} {w : Walk} {marker : UInt8} {rest : Bytes}

/-- A field is read as it is where its bounds do not overflow. -/
theorem lengthFieldWords_eq {width : Nat} (h : width ≤ 4) :
    w.lengthFieldWords width rest =
      plain (w.pos + 1) >>= fun first => plain (first + width) >>= fun _ =>
        pure (lengthField? width rest) := by
  unfold lengthFieldWords lengthField?
  by_cases hfield : (rest.take width).length = width
  · have hrange : ∀ n : Fin 5, fieldValues n ≤ 0x100000000 := by decide
    have hvalues : fieldValues (rest.take width).length ≤ 0x100000000 := by
      rw [hfield]
      exact hrange ⟨width, by omega⟩
    have hread : some <$> ofBigEndianWords (rest.take width) =
        (pure (some (ofBigEndian (rest.take width))) : Words (Option Nat)) := by
      funext stopped
      show (some <$> ofBigEndianWords (rest.take width)).run stopped = _
      rw [StateT.run_map, ofBigEndianWords_run hvalues]
      rfl
    simp only [if_pos hfield, hread]
  · simp only [if_neg hfield]

theorem yields_lengthFieldWords {width : Nat} (h : width ≤ 4) :
    Yields (w.lengthFieldWords width rest) (lengthField? width rest) := by
  intro stopped r hr
  rw [lengthFieldWords_eq h] at hr
  exact yields_pure _ _ _ ((yields_plain _).next ((yields_plain _).next hr))

theorem lengthFieldWords_run {width : Nat} (h : width ≤ 4) (hroom : w.pos + 1 + width ≤ maxSize) :
    (w.lengthFieldWords width rest).run stopped = some (lengthField? width rest, stopped) := by
  rw [lengthFieldWords_eq h, bind_run (plain_run (by omega)), bind_run (plain_run hroom)]
  rfl

/-! ### One marker -/

theorem checkedWords_run (limit : Nat) (next : Walk) :
    (checkedWords limit next).run stopped =
      some (checked limit next, stopped || decide (maxSize < next.pos + next.pending)) := by
  rw [checkedWords, bind_run (stopping_run _)]
  rfl

theorem checkedWords_run_of_le {next : Walk} (h : next.pos + next.pending ≤ maxSize) :
    (checkedWords limit next).run stopped = some (checked limit next, stopped) := by
  simp [checkedWords_run, Nat.not_lt.2 h]

/-- Counters that have come to the largest word are over every limit that can be exceeded. -/
theorem checked_of_stopped {next : Walk} (hlimit : limit < maxSize)
    (h : maxSize ≤ next.pos + next.pending) : checked limit next = .tooLarge maxSize := by
  rw [checked, addSizes, Nat.min_eq_right h, if_pos hlimit]

/-- A sum that has stopped by the end of a move makes it too large. `before` is whether one has
stopped up to the comparison. -/
theorem stopped_of_checkedWords {next : Walk} {before : Bool} {r : Step × Bool}
    (hlimit : limit < maxSize)
    (hbefore : before = stopped ∨ maxSize ≤ next.pos + next.pending)
    (h : (checkedWords limit next).run before = some r) :
    r.1 = checked limit next ∧ (r.2 = stopped ∨ ∃ got, r.1 = .tooLarge got) := by
  rw [checkedWords_run] at h
  obtain rfl := (Option.some.inj h).symm
  refine ⟨rfl, ?_⟩
  -- below the largest word nothing has stopped, neither before nor in the last sum
  by_cases hlarge : maxSize ≤ next.pos + next.pending
  · exact .inr ⟨maxSize, checked_of_stopped hlimit hlarge⟩
  · obtain rfl := hbefore.resolve_right hlarge
    simp [show ¬ maxSize < next.pos + next.pending by omega]

/-- **A sum stops only where the move is too large.** -/
theorem stopped_of_stepWords {r : Step × Bool} (hlimit : limit < maxSize)
    (h : (w.stepWords limit marker rest).run stopped = some r) :
    r.1 = w.step limit marker rest ∧ (r.2 = stopped ∨ ∃ got, r.1 = .tooLarge got) := by
  have hnarrow := isNarrow_ofMarker marker
  unfold stepWords at h
  unfold step
  -- the plain operations are taken off one by one; if they overflow nothing is claimed
  replace h := (yields_minus _ _).next h
  rw [bind_run (Announcement.ofMarkerWords_run marker)] at h
  cases hm : Announcement.ofMarker marker with
  | reserved =>
    simp only [hm] at h
    obtain rfl := yields_pure _ _ _ h
    exact ⟨rfl, .inl rfl⟩
  | fixed length =>
    simp only [hm] at h
    exact stopped_of_checkedWords hlimit (.inl rfl) ((yields_plain _).next h)
  | container count =>
    simp only [hm] at h
    exact stopped_of_checkedWords hlimit (.inl rfl)
      ((yields_plain _).next ((yields_plain _).next h))
  | sized header width =>
    rw [hm] at hnarrow
    obtain ⟨-, hwidth⟩ : header ≤ 6 ∧ width ≤ 4 := hnarrow
    simp only [hm] at h
    replace h := (yields_lengthFieldWords hwidth).next h
    cases hf : lengthField? width rest with
    | none =>
      simp only [hf] at h ⊢
      obtain rfl := yields_pure _ _ _ h
      exact ⟨rfl, .inl rfl⟩
    | some length =>
      simp only [hf] at h ⊢
      replace h := (yields_plain _).next h
      rw [bind_run (stopping_run _)] at h
      refine stopped_of_checkedWords hlimit ?_ h
      -- an end that has stopped is the largest word itself
      by_cases hlarge : maxSize < w.pos + header + length
      · right
        simp only [addSizes]
        omega
      · left
        simp [hlarge]
  | sizedContainer width perEntry =>
    rw [hm] at hnarrow
    obtain ⟨hwidth, -⟩ : width ≤ 4 ∧ perEntry ≤ 2 := hnarrow
    simp only [hm] at h
    replace h := (yields_lengthFieldWords hwidth).next h
    cases hf : lengthField? width rest with
    | none =>
      simp only [hf] at h ⊢
      obtain rfl := yields_pure _ _ _ h
      exact ⟨rfl, .inl rfl⟩
    | some count =>
      simp only [hf] at h ⊢
      rw [bind_run (stopping_run _)] at h
      replace h := (yields_plain _).next ((yields_plain _).next h)
      rw [bind_run (stopping_run _)] at h
      refine stopped_of_checkedWords hlimit ?_ h
      -- and so is the debt, if either the number of entries or the sum has stopped
      by_cases hlarge : maxSize ≤ w.pending - 1 + min (count * perEntry) maxSize
      · right
        simp only [addSizes, mulSizes]
        omega
      · left
        simp [show ¬ maxSize < count * perEntry by omega,
          show ¬ maxSize < w.pending - 1 + min (count * perEntry) maxSize by omega]

/-- Close to the largest word the length of a string stops the sum, and the string is refused. -/
example : (stepWords (maxSize - 1) ⟨maxSize - 8, 1⟩ 0xdb [0xff, 0xff, 0xff, 0xff]).run false =
    some (.tooLarge maxSize, true) := by cbv

theorem yields_stepWords {s : Step} (hlimit : limit < maxSize)
    (hstep : w.step limit marker rest = s) (hs : ∀ got, s ≠ .tooLarge got) :
    Yields (w.stepWords limit marker rest) s := by
  intro stopped r h
  -- no refusal names a size, so no sum has stopped
  obtain ⟨hr, hstopped⟩ := stopped_of_stepWords hlimit h
  rw [hstep] at hr
  rcases hstopped with hsame | ⟨got, hgot⟩
  · exact Prod.ext hr hsame
  · exact absurd (hr.symm.trans hgot) (hs got)

/-- The position of a walk and what it owes keep within the limit. A new walk owes one value, also
under a limit of nothing. -/
def Bounded (limit : Nat) (w : Walk) : Prop := w.pos + w.pending ≤ max limit 1

/-- **One marker.** In front of a marker, a bounded walk has room for what it may announce: nothing
overflows and nothing stops. -/
theorem stepWords_run (hlimit : limit ≤ 0x8000000000000000) (hw : w.Bounded limit)
    (howes : w.pending ≠ 0) :
    (w.stepWords limit marker rest).run stopped = some (w.step limit marker rest, stopped) := by
  have hmax : maxSize = 0xffffffffffffffff := rfl
  have hroom : w.pos + w.pending ≤ 0x8000000000000000 := by
    unfold Bounded at hw
    omega
  -- a header adds less than `3 * 2 ^ 32` to either counter, and there is room for half of the words
  have hnarrow := isNarrow_ofMarker marker
  unfold stepWords step
  rw [bind_run (minus_run (by omega)), bind_run (Announcement.ofMarkerWords_run marker)]
  cases hm : Announcement.ofMarker marker with
  | reserved => rfl
  | fixed length =>
    -- what a marker announces by itself is small
    rw [hm] at hnarrow
    have hlength : length ≤ 32 := hnarrow
    rw [bind_run (plain_run (by omega)), checkedWords_run_of_le (by simp only; omega)]
  | container count =>
    rw [hm] at hnarrow
    have hcount : count ≤ 30 := hnarrow
    rw [bind_run (plain_run (by omega)), bind_run (plain_run (by omega)),
      checkedWords_run_of_le (by simp only; omega)]
  | sized header width =>
    rw [hm] at hnarrow
    obtain ⟨hheader, hwidth⟩ : header ≤ 6 ∧ width ≤ 4 := hnarrow
    -- a field has four bytes at most, so its place can be computed
    rw [bind_run (lengthFieldWords_run hwidth (by omega))]
    -- a length that is there is below `2 ^ 32`, and so is each sum with it
    cases hf : lengthField? width rest with
    | none =>
      simp only [hf]
      rfl
    | some length =>
      have hlength := lengthField?_lt hwidth hf
      simp only [hf]
      rw [bind_run (plain_run (by omega)), bind_run (stopping_run_of_le (by omega)),
        checkedWords_run_of_le (by simp only; omega), addSizes, Nat.min_eq_left (by omega)]
  | sizedContainer width perEntry =>
    rw [hm] at hnarrow
    obtain ⟨hwidth, hentry⟩ : width ≤ 4 ∧ perEntry ≤ 2 := hnarrow
    rw [bind_run (lengthFieldWords_run hwidth (by omega))]
    cases hf : lengthField? width rest with
    | none =>
      simp only [hf]
      rfl
    | some count =>
      have hcount := lengthField?_lt hwidth hf
      have hentries : count * perEntry ≤ count * 2 := Nat.mul_le_mul_left count hentry
      simp only [hf]
      rw [bind_run (stopping_run_of_le (by omega)), bind_run (plain_run (by omega)),
        bind_run (plain_run (by omega)), bind_run (stopping_run_of_le (by omega)),
        checkedWords_run_of_le (by simp only; omega), mulSizes, addSizes,
        Nat.min_eq_left (by omega), Nat.min_eq_left (by omega)]

/-! ### A run -/

theorem Bounded.start (limit : Nat) : Walk.start.Bounded limit := Nat.le_max_right limit 1

/-- A move is compared with the limit before it is made. -/
theorem bounded_of_moved {next : Walk} (hlimit : limit < maxSize)
    (h : w.step limit marker rest = .moved next) : next.Bounded limit := by
  -- the sum is compared when it has been cut off, which below the largest word is no difference
  have hle := (moved_inv h).1
  unfold addSizes at hle
  unfold Bounded
  omega

/-- **A walk is bounded wherever a scan takes it**, and owes a value in front of every marker it
reads. -/
theorem Bounded.scan {bytes : Bytes} {skip : Nat} (hlimit : limit < maxSize)
    (hw : w.Bounded limit) :
    (w.scan limit skip bytes).1.Bounded limit ∧
      ∀ r ∈ w.readers limit skip bytes, r.Bounded limit ∧ 1 ≤ r.pending := by
  -- by the recursion of the scan, which goes on from another walk only if it has moved there
  fun_induction Walk.scan limit w skip bytes with
  | case1 w | case2 w skip => exact ⟨hw, by simp [readers]⟩
  | case3 w skip b rest ih => exact ih hw
  | case4 w marker rest howes => exact ⟨hw, by simp [readers, howes]⟩
  | case5 w marker rest howes hstep | case6 w marker rest howes hstep
  | case7 w marker rest howes needed hstep =>
    -- the marker is read, and the walk stays where it is
    refine ⟨hw, ?_⟩
    simp only [readers, if_neg howes, hstep, List.mem_singleton, forall_eq]
    exact ⟨hw, Nat.one_le_iff_ne_zero.2 howes⟩
  | case8 w marker rest howes next hstep ih =>
    -- the walk moves on, within the limit, and reads on from there
    obtain ⟨hlast, hlater⟩ := ih (bounded_of_moved hlimit hstep)
    refine ⟨hlast, ?_⟩
    simp only [readers, if_neg howes, hstep, List.forall_mem_cons]
    exact ⟨⟨hw, Nat.one_le_iff_ne_zero.2 howes⟩, hlater⟩

/-- **A scan of a bounded walk** is the same on machine words. -/
theorem scanWords_run {bytes : Bytes} {skip : Nat} (hlimit : limit ≤ 0x8000000000000000)
    (hw : w.Bounded limit) :
    (w.scanWords limit skip bytes).run stopped = some (w.scan limit skip bytes, stopped) := by
  fun_induction Walk.scan limit w skip bytes with
  | case1 w | case2 w skip => rfl
  | case3 w skip b rest ih => exact ih hw
  | case4 w marker rest howes =>
    -- no value is owed, so nothing is computed
    rw [scanWords, if_pos howes]
    rfl
  | case5 w marker rest howes hstep | case6 w marker rest howes hstep
  | case7 w marker rest howes needed hstep =>
    rw [scanWords, if_neg howes, bind_run (stepWords_run hlimit hw howes), hstep]
    rfl
  | case8 w marker rest howes next hstep ih =>
    have hmax : limit < maxSize := Nat.lt_of_le_of_lt hlimit (by decide)
    rw [scanWords, if_neg howes, bind_run (stepWords_run hlimit hw howes), hstep]
    exact ih (bounded_of_moved hmax hstep)

/-- **A sum stops only where a scan is refused.** -/
theorem stopped_of_scanWords {bytes : Bytes} {skip : Nat} {r : (Walk × Stop) × Bool}
    (hlimit : limit < maxSize) (h : (w.scanWords limit skip bytes).run stopped = some r) :
    r.1 = w.scan limit skip bytes ∧ (r.2 = stopped ∨ ∃ got, r.1.2 = .tooLarge got) := by
  -- where nothing is computed nothing stops
  have hpure : ∀ {r₀ : Walk × Stop}, (pure r₀ : Words (Walk × Stop)).run stopped = some r →
      r.1 = r₀ ∧ (r.2 = stopped ∨ ∃ got, r.1.2 = .tooLarge got) := by
    intro r₀ hr
    obtain rfl := yields_pure _ _ _ hr
    exact ⟨rfl, .inl rfl⟩
  fun_induction Walk.scan limit w skip bytes with
  | case1 w | case2 w skip => exact hpure h
  | case3 w skip b rest ih => exact ih h
  | case4 w marker rest howes =>
    rw [scanWords, if_pos howes] at h
    exact hpure h
  | case5 w marker rest howes hstep | case6 w marker rest howes hstep =>
    rw [scanWords, if_neg howes] at h
    exact hpure ((yields_stepWords hlimit hstep (by simp)).next h)
  | case7 w marker rest howes needed hstep =>
    -- the one case where a sum may have stopped
    rw [scanWords, if_neg howes] at h
    obtain ⟨s, between, hfirst, h⟩ := bind_inv h
    obtain rfl : s = .tooLarge needed := (stopped_of_stepWords hlimit hfirst).1.trans hstep
    obtain rfl := yields_pure _ _ _ h
    exact ⟨rfl, .inr ⟨needed, rfl⟩⟩
  | case8 w marker rest howes next hstep ih =>
    -- a step that moves has not stopped, so the rest decides
    rw [scanWords, if_neg howes] at h
    exact ih ((yields_stepWords hlimit hstep (by simp)).next h)

end Walk

/-! ### A framer -/

namespace Framer

variable {limit : Nat} {f f' : Framer} {buffer rest : Bytes} {stopped : Bool}

/-- The walk of a framer is bounded, however the buffer has grown and whatever was asked. -/
theorem Reached.bounded (hlimit : limit < maxSize) (h : Reached limit f buffer) :
    f.walk.Bounded limit := by
  induction h with
  | new => exact .start limit
  | grown more _ ih => exact ih
  | @asked f buffer hreached ih =>
    -- what was asked before has left a walk of a scan, or a new one behind a message
    obtain rfl := hreached.walk.1
    have hlast : (f.walk.resume f.limit buffer).1.Bounded f.limit := (ih.scan hlimit).1
    unfold next
    rcases hw : f.walk.resume f.limit buffer with ⟨w, stop⟩
    rw [hw] at hlast
    cases stop with
    | incomplete | reserved | tooLarge => exact hlast
    | complete => exact .start _

/-- **A call of a bounded framer** is the same on machine words. -/
theorem nextWords_run (hlimit : f.limit ≤ 0x8000000000000000) (hf : f.walk.Bounded f.limit) :
    (f.nextWords buffer).run stopped = some (f.next buffer, stopped) := by
  rw [nextWords, bind_run (Walk.scanWords_run hlimit hf), next, Walk.resume]
  -- behind the scan both only look at where it has stopped
  rcases Walk.scan f.limit f.walk f.walk.pos buffer with ⟨w, stop⟩
  cases stop <;> rfl

/-- **A sum stops only where a message is refused as too large.** -/
theorem stopped_of_nextWords {r : (Except FrameFault (Option Value) × Framer × Bytes) × Bool}
    (hlimit : f.limit < maxSize) (h : (f.nextWords buffer).run stopped = some r) :
    r.1 = f.next buffer ∧
      (r.2 = stopped ∨ ∃ got, r.1.1 = .error (.tooLarge f.limit got)) := by
  obtain ⟨⟨w, stop⟩, between, hscan, h⟩ := bind_inv h
  obtain ⟨hsame, hstopped⟩ := Walk.stopped_of_scanWords hlimit hscan
  rw [next, Walk.resume, ← hsame]
  simp only at hstopped
  cases stop with
  | tooLarge needed =>
    obtain rfl := yields_pure _ _ _ h
    exact ⟨rfl, .inr ⟨needed, rfl⟩⟩
  | incomplete | reserved | complete =>
    obtain rfl := yields_pure _ _ _ h
    exact ⟨rfl, .inl (by simpa using hstopped)⟩

/-- What is taken off the buffer is one whole message. -/
theorem Reached.takes_message {result : Except FrameFault (Option Value)} (hlimit : limit < maxSize)
    (hreached : Reached limit f buffer) (h : f.next buffer = (result, f', rest))
    (htaken : rest ≠ buffer) : ∃ message, buffer = message ++ rest ∧ Spans 1 message := by
  obtain ⟨rfl, hwalk⟩ := hreached.walk
  unfold next at h
  rcases hw : f.walk.resume f.limit buffer with ⟨w, stop⟩
  rw [hw] at h
  cases stop with
  | incomplete | reserved | tooLarge =>
    -- the message is not whole and stays in the buffer
    obtain ⟨-, -, rfl⟩ : _ ∧ _ ∧ _ := by simpa only [Prod.mk.injEq] using h
    exact absurd rfl htaken
  | complete =>
    obtain ⟨-, -, rfl⟩ : _ ∧ _ ∧ _ := by simpa only [Prod.mk.injEq] using h
    exact ⟨buffer.take w.pos, (List.take_append_drop _ _).symm,
      (Walk.spans_of_settled hwalk (.inl hlimit) hw).2⟩

/-- **The counters of a framer.** Let a framer be reached by asking for the messages of a growing
buffer, with a limit below the largest word, and ask it once more.

* Before, at every marker that is read, and after, position and debt together are at most the limit,
  or one for a new walk under a limit of nothing; and a value is owed at every marker that is read.
* On machine words the call comes to the same as without bounds, or to an overflow; and if a sum
  stops at the largest word the message is refused as too large.
* What is taken off the buffer is one whole message.
* If the limit is at most half of what a word can hold, nothing overflows and no sum stops, neither
  in the call nor in the size that the framer needs. -/
theorem counters_bounded (hlimit : limit < maxSize) (hreached : Reached limit f buffer) :
    (f.walk.Bounded limit ∧ (f.walk.resume limit buffer).1.Bounded limit ∧
      ∀ w ∈ f.walk.readers limit f.walk.pos buffer, w.Bounded limit ∧ 1 ≤ w.pending) ∧
    (∀ result stopped, (f.nextWords buffer).run false = some (result, stopped) →
      result = f.next buffer ∧
        (stopped = true → ∃ got, result.1 = .error (.tooLarge limit got))) ∧
    (∀ result f' rest, f.next buffer = (result, f', rest) → rest ≠ buffer →
      ∃ message, buffer = message ++ rest ∧ Spans 1 message) ∧
    (limit ≤ 0x8000000000000000 →
      (f.nextWords buffer).run false = some (f.next buffer, false) ∧
        f.walk.neededWords.run false = some (f.needed, false)) := by
  have hbounded := hreached.bounded hlimit
  obtain ⟨hlast, hreads⟩ := hbounded.scan hlimit
  have hown := hreached.walk.1
  refine ⟨⟨hbounded, hlast, hreads⟩, ?_, ?_, ?_⟩
  -- what a call on words comes to, it comes to without bounds as well
  · intro result stopped hrun
    obtain ⟨hsame, hstopped⟩ := stopped_of_nextWords (hown ▸ hlimit) hrun
    refine ⟨hsame, fun hyes => ?_⟩
    rw [hown] at hstopped
    exact hstopped.resolve_left (by simp [hyes])
  · intro result f' rest hnext htaken
    exact hreached.takes_message hlimit hnext htaken
  -- the needed size is within the bound that the walk keeps, so its plain sum does not overflow
  · intro hhalf
    refine ⟨nextWords_run (hown ▸ hhalf) (hown ▸ hbounded), plain_run ?_⟩
    unfold Walk.Bounded at hbounded
    have hmax : maxSize = 0xffffffffffffffff := rfl
    omega

/-- A pair arrives in pieces: its first value is an array of one entry, which is a map. The length
of the map is not there yet. -/
theorem counters_bounded_nested :
    let f : Framer := (next { limit := 64 } [0x92, 0xdd, 0x00, 0x00]).2.1
    let buffer : Bytes := [0x92, 0xdd, 0x00, 0x00] ++ [0x00, 0x01, 0xde, 0x00]
    64 < maxSize ∧ Reached 64 f buffer ∧
      f.walk.readers 64 f.walk.pos buffer = [⟨1, 2⟩, ⟨6, 2⟩] ∧
      (∀ w ∈ ([⟨1, 2⟩, ⟨6, 2⟩] : List Walk), w.Bounded 64 ∧ 1 ≤ w.pending) ∧
      64 ≤ 0x8000000000000000 ∧
      (f.nextWords buffer).run false = some ((.ok none, ⟨64, ⟨6, 2⟩⟩, buffer), false) := by
  intro f buffer
  have hlimit : 64 < maxSize := by decide
  have hreached : Reached 64 f buffer :=
    .grown [0x00, 0x01, 0xde, 0x00] (.asked (.grown [0x92, 0xdd, 0x00, 0x00] .new))
  have hreaders : f.walk.readers 64 f.walk.pos buffer = [⟨1, 2⟩, ⟨6, 2⟩] := by cbv
  have hnext : f.next buffer = (.ok none, ⟨64, ⟨6, 2⟩⟩, buffer) := by cbv
  have hhalf : 64 ≤ 0x8000000000000000 := by decide
  obtain ⟨⟨-, -, hreads⟩, -, -, hwords⟩ := counters_bounded hlimit hreached
  refine ⟨hlimit, hreached, hreaders, hreaders ▸ hreads, hhalf, ?_⟩
  rw [← hnext]
  exact (hwords hhalf).1

end Framer

end BoardLink.MessagePack
