import BoardLink.Proofs.Faout.FirstFailure
import Mathlib

/-!
# The bounds of the sample memory

Samples are written behind the write pointer and read from the read pointer on. The pointers are two
words each, which the board can have at anything, even beyond the memory or in the wrong order. So the
room behind the write pointer and the number of samples between the pointers are differences that stop
at zero, and a pointer takes the whole of 32 bits.

* `toNat_pointer`, `toNat_saturatingSub` — a pointer and a difference within 32 bits are the numbers
  that they are meant to be;
* `Operation.exchanges_sdramWrite`, `Operation.exchanges_sdramRead` — what passes once the halves of the
  pointers were read;
* `Operation.sdram_bounds` — when samples are written, read, and refused.
-/

namespace BoardLink.Faout

/-! ### 32 bits -/

/-- The high half of a pointer loses no bit when it is moved to its place. -/
theorem toNat_shiftLeft_high (high : UInt16) : (high.toUInt32 <<< 16).toNat = high.toNat * 2 ^ 16 := by
  have hhigh := high.toNat_lt
  rw [UInt32.toNat_shiftLeft, UInt16.toNat_toUInt32]
  -- the shifted half is below `2 ^ 32`, so the word does not wrap
  show (high.toNat <<< 16) % 2 ^ 32 = _
  rw [Nat.shiftLeft_eq, Nat.mod_eq_of_lt (by omega)]

/-- A pointer is the number that its halves make. -/
theorem toNat_pointer (high low : UInt16) :
    (pointer high low).toNat = high.toNat * 2 ^ 16 + low.toNat := by
  -- the low half fills the bits that the shift has left empty, and there an `or` adds
  have hlow := low.toNat_lt
  rw [pointer, UInt32.toNat_or, toNat_shiftLeft_high, UInt16.toNat_toUInt32, ← Nat.shiftLeft_eq,
    Nat.shiftLeft_add_eq_or_of_lt hlow]

/-- The difference of two words, or zero if it is negative. -/
def saturatingSub (a b : UInt32) : UInt32 := if b ≤ a then a - b else 0

theorem toNat_saturatingSub (a b : UInt32) : (saturatingSub a b).toNat = a.toNat - b.toNat := by
  rw [saturatingSub]
  split
  next hle => exact UInt32.toNat_sub_of_le a b hle
  next hlt =>
    -- the second word is the larger one, and then the difference of the numbers is zero, too
    rw [UInt32.le_iff_toNat_le] at hlt
    show 0 = _
    omega

/-! ### One board -/

namespace Operation

variable {σ : Type} [RegisterAccess σ] {s : σ} {readHigh readLow writeHigh writeLow : UInt16}

/-- If the four halves were read, then the pointers are made of them. -/
theorem sdramPointers_of_exchanges
    (h : sdramPointers.exchanges s = pointerReads readHigh readLow writeHigh writeLow) :
    ∃ s', Faout.sdramPointers (⟨s, []⟩ : Recorded σ) =
      (.ok (pointer readHigh readLow, pointer writeHigh writeLow),
        ⟨s', pointerReads readHigh readLow writeHigh writeLow⟩) := by
  -- a record of the operation is kept, so the exchanges are those of a run on a recorded board
  have hrun : Faout.sdramPointers (⟨s, []⟩ : Recorded σ) = _ := sdramPointers.run_recorded s
  obtain ⟨-, hresult⟩ | ⟨front, access, e, words, hmade, -, -⟩ :=
    sdramPointers.exchanges_obliging s []
  · rw [h] at hrun hresult
    rw [hrun, hresult]
    exact ⟨_, rfl⟩
  · -- none of the four reads failed
    have hfailed : (⟨access, .error e⟩ : Exchange) ∈ sdramPointers.exchanges s := by simp [hmade]
    rw [h] at hfailed
    simp [pointerReads] at hfailed

/-- What passes if an operation is refused at some point, or else ends with one more access. -/
theorem exchanges_of_guarded (op : Operation) {s' : σ} {front : List Exchange} {refused : Prop}
    [Decidable refused] {e : SessionError} {access : LogEntry} {words : op.Result → List UInt16}
    {x : Access σ op.Result} (h : op.run (⟨s, []⟩ : Recorded σ) =
      if refused then (.error e, ⟨s', front⟩) else Recorded.keep access words x ⟨s', front⟩) :
    if refused then op.exchanges s = front ∧ op.result s = .error e
    else op.exchanges s = front ++ [⟨access, (op.result s).map words⟩] := by
  have hresult : op.result s = _ := (congrArg Prod.fst (op.run_recorded s)).symm
  rw [hresult, exchanges, h]
  split
  · exact ⟨rfl, rfl⟩
  · rfl

theorem exchanges_sdramWrite
    (h : sdramPointers.exchanges s = pointerReads readHigh readLow writeHigh writeLow)
    (data : List UInt16) :
    let free := sdramMaxAddr - (pointer writeHigh writeLow).toNat
    if free < data.length then
      (sdramWrite data).exchanges s = pointerReads readHigh readLow writeHigh writeLow ∧
        (sdramWrite data).result s = .error (.invalidArgument (.noRoom data.length free))
    else
      (sdramWrite data).exchanges s = pointerReads readHigh readLow writeHigh writeLow ++
        [⟨.writeBlock sdramAddr sdramDataPort data,
          ((sdramWrite data).result s).map fun _ => []⟩] := by
  obtain ⟨s', hpointers⟩ := sdramPointers_of_exchanges h
  exact exchanges_of_guarded (sdramWrite data) (sdramWrite_of_pointers hpointers data)

theorem exchanges_sdramRead
    (h : sdramPointers.exchanges s = pointerReads readHigh readLow writeHigh writeLow)
    (count : Option Nat) :
    let available := (pointer writeHigh writeLow).toNat - (pointer readHigh readLow).toNat
    if available < count.getD available then
      (sdramRead count).exchanges s = pointerReads readHigh readLow writeHigh writeLow ∧
        (sdramRead count).result s =
          .error (.invalidArgument (.notEnough (count.getD available) available))
    else
      (sdramRead count).exchanges s = pointerReads readHigh readLow writeHigh writeLow ++
        [⟨.readBlock sdramAddr sdramDataPort (count.getD available), (sdramRead count).result s⟩] := by
  intro available
  obtain ⟨s', hpointers⟩ := sdramPointers_of_exchanges h
  have hguarded := exchanges_of_guarded (sdramRead count) (sdramRead_of_pointers hpointers count)
  have hid : ((sdramRead count).result s).map id = (sdramRead count).result s :=
    congrFun Except.map_id _
  rwa [hid] at hguarded

/-- **The bounds of the sample memory.** Let the halves of the two pointers be read from a board of any
kind, whatever they are. Then

* samples are written by one block write, of exactly these samples to register 1, 4, if there are none
  or they end below the highest address; otherwise they are refused, and nothing is written;
* a number of samples is read by one block read of that many words, if there are that many between the
  pointers, of which there are none if the write pointer is the lower one; otherwise it is refused, and
  no block is read;
* without a number, the samples between the pointers are read by one block read of exactly that many
  words, always;
* the outcome of the block is that of the operation;
* all this is computed within 32 bits: no bit is lost when a half is moved to its place, a pointer is
  the number that its halves make, and the room and the number of samples are differences of words, or
  zero where these would be negative. -/
theorem sdram_bounds (s : σ) (readHigh readLow writeHigh writeLow : UInt16)
    (h : sdramPointers.exchanges s = pointerReads readHigh readLow writeHigh writeLow) :
    let halves := pointerReads readHigh readLow writeHigh writeLow
    let read : Nat := readHigh.toNat * 2 ^ 16 + readLow.toNat
    let write : Nat := writeHigh.toNat * 2 ^ 16 + writeLow.toNat
    let available := (max ((write : Int) - read) 0).toNat
    (∀ data : List UInt16,
      if data = [] ∨ write + data.length ≤ 2 ^ 23 - 1 then
        (sdramWrite data).exchanges s =
          halves ++ [⟨.writeBlock 1 4 data, ((sdramWrite data).result s).map fun _ => []⟩]
      else
        (sdramWrite data).exchanges s = halves ∧ (sdramWrite data).result s =
          .error (.invalidArgument (.noRoom data.length (2 ^ 23 - 1 - write)))) ∧
    (∀ n : Nat,
      if n ≤ available then
        (sdramRead (some n)).exchanges s =
          halves ++ [⟨.readBlock 1 4 n, (sdramRead (some n)).result s⟩]
      else
        (sdramRead (some n)).exchanges s = halves ∧ (sdramRead (some n)).result s =
          .error (.invalidArgument (.notEnough n available))) ∧
    (sdramRead none).exchanges s =
      halves ++ [⟨.readBlock 1 4 available, (sdramRead none).result s⟩] ∧
    (∀ high low : UInt16, (high.toUInt32 <<< 16).toNat = high.toNat * 2 ^ 16 ∧
      (pointer high low).toNat = high.toNat * 2 ^ 16 + low.toNat) ∧
    (saturatingSub (UInt32.ofNat sdramMaxAddr) (pointer writeHigh writeLow)).toNat =
      2 ^ 23 - 1 - write ∧
    (saturatingSub (pointer writeHigh writeLow) (pointer readHigh readLow)).toNat = available := by
  intro halves read write available
  have hread : (pointer readHigh readLow).toNat = read := toNat_pointer readHigh readLow
  have hwrite : (pointer writeHigh writeLow).toNat = write := toNat_pointer writeHigh writeLow
  -- as an integer the difference may be negative, which is where the natural one is cut off
  have havailable : write - read = available := by omega
  have hmax : sdramMaxAddr = 2 ^ 23 - 1 := rfl
  refine ⟨fun data => ?_, fun n => ?_, ?_,
    fun high low => ⟨toNat_shiftLeft_high high, toNat_pointer high low⟩, ?_, ?_⟩
  -- samples to write: none are always fit, since no room is ever less than zero
  · have hdata := exchanges_sdramWrite h data
    dsimp only at hdata
    rw [hwrite, hmax] at hdata
    split
    next hfits =>
      have hroom : ¬ 2 ^ 23 - 1 - write < data.length := by
        rcases hfits with rfl | hfits
        · exact Nat.not_lt_zero _
        · omega
      rwa [if_neg hroom] at hdata
    next hfits =>
      have hnonempty : 0 < data.length := List.length_pos_iff.2 fun hnil => hfits (.inl hnil)
      have hroom : 2 ^ 23 - 1 - write < data.length := by
        -- there is a sample, so this holds also where the room is cut off at zero
        have hlong := fun hle => hfits (.inr hle)
        omega
      rwa [if_pos hroom] at hdata
  -- a number of samples to read: the test is the one of the operation, the other way around
  · have hcount := exchanges_sdramRead h (some n)
    dsimp only at hcount
    rw [Option.getD_some, hread, hwrite, havailable] at hcount
    split
    next henough => rwa [if_neg (Nat.not_lt.2 henough)] at hcount
    next henough => rwa [if_pos (Nat.not_le.1 henough)] at hcount
  -- without a number just what is available is read, which is never refused
  · have hall := exchanges_sdramRead h none
    dsimp only at hall
    rwa [Option.getD_none, hread, hwrite, havailable, if_neg (Nat.lt_irrefl available)] at hall
  -- the differences of words are those of the numbers that the halves make
  · rw [toNat_saturatingSub, hwrite]
    rfl
  · rw [toNat_saturatingSub, hwrite, hread, havailable]

/-- The read pointer is beyond the memory, and there is room for two samples behind the write
pointer. -/
theorem sdram_bounds_reversed :
    let board : MemoryBoard := { registers :=
      (((RegisterMap.all 0).set 1 0 0xffff).set 1 1 0xffff |>.set 1 2 0xfffd).set 1 3 0x007f }
    let halves := pointerReads 0xffff 0xffff 0x007f 0xfffd
    sdramPointers.exchanges board = halves ∧
      (sdramWrite [1, 2]).exchanges board = halves ++ [⟨.writeBlock 1 4 [1, 2], .ok []⟩] ∧
      (sdramWrite [1, 2, 3]).exchanges board = halves ∧
      (sdramRead (some 1)).exchanges board = halves ∧
      (sdramRead none).exchanges board = halves ++ [⟨.readBlock 1 4 0, .ok []⟩] := by
  intro board halves
  -- the halves do not fit the memory, and no operation looks at that
  have hhalves : sdramPointers.exchanges board = halves := rfl
  obtain ⟨hwrite, hread, hall, -⟩ := sdram_bounds board 0xffff 0xffff 0x007f 0xfffd hhalves
  have hfits := (if_pos (by decide)).mp (hwrite [1, 2])
  rw [show (sdramWrite [1, 2]).result board = .ok () by cbv] at hfits
  have hlarge := (if_neg (by decide)).mp (hwrite [1, 2, 3])
  have hmissing := (if_neg (by decide)).mp (hread 1)
  rw [show (sdramRead none).result board = .ok [] by cbv] at hall
  exact ⟨hhalves, hfits, hlarge.1, hmissing.1, hall.trans (by cbv)⟩

end Operation

end BoardLink.Faout
