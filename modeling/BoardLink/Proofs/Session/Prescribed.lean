import BoardLink.Proofs.DeviceServer.Serving
import BoardLink.Proofs.Session.Runs

/-!
# What a server prescribes

What a call is to return can be told from the boards of a server, without a byte on the wire
(`Call.prescribed`). It is what the call makes of the server's answer (`Call.outcome_answer`).

`DeviceServer.prescribes` is the same for calls one after the other: in front of each answer the
events of the schedule take effect, and each request is carried out before the next one. A call that
refuses its arguments sends nothing, so it is not counted as a request.
-/

namespace BoardLink

open BoardLink.MessagePack BoardLink.Wire

/-- What a call on a device is to return: the server's refusal if the device is not attached, else
what its board says. -/
def DeviceServer.onBoard {α : Type} (s : DeviceServer) (serial : String)
    (f : Board → Except SessionError α) : Except SessionError α :=
  match s.board? serial with
  | none => .error (.server (-1) "Unknown device")
  | some b => f b

/-- **What a call is to return**, as the boards of a server have it. -/
def Call.prescribed (s : DeviceServer) : Call → Except SessionError Reply
  | .deviceList => .ok (.serials s.serials)
  | .reprogram serial => s.onBoard serial fun _ => .ok (.flag true)
  | .readReg serial addr port => s.onBoard serial fun b => .ok (.word (b.registers addr port))
  | .writeReg serial addr port _ => s.onBoard serial fun b =>
    match b.refused addr port with
    | some message => .error (.server (-1) message)
    | none => .ok .done
  | .writeRegN serial .. | .writeRaw serial _ => s.onBoard serial fun _ => .ok .done
  | .readRegN serial addr port count => s.onBoard serial fun b =>
    let pipe := b.pipes addr port
    if 2 * count ≤ pipe.length then .ok (.words (bytesToWords (pipe.take (2 * count))))
    else .error (.lengthMismatch (2 * count) pipe.length)
  | .readRaw serial count => s.onBoard serial fun b =>
    if count ≤ b.raw.length then .ok (.bytes (b.raw.take count))
    else .error (.lengthMismatch count b.raw.length)

/-! ### What a call makes of an answer -/

namespace Call

theorem outcome_failure (c : Call) (message : String) :
    c.outcome (.failure message) = .error (.server (-1) message) := by
  have hnegative : (Answer.failure message).rcode < 0 := by
    show (-1 : Int64) < 0
    decide
  exact c.outcome_of_negative hnegative

theorem outcome_success (c : Call) (v : Value) :
    c.outcome (.success v) = c.read (.success v) := by
  have hzero : ¬ (Answer.success v).rcode < 0 := by
    show ¬ (0 : Int64) < 0
    decide
  exact c.outcome_of_not_negative hzero

end Call

theorem Wire.Answer.serials_success (serials : List String) :
    (Answer.success (.array (serials.map .str))).serials = .ok serials := by
  show (serials.map Value.str).mapM _ = _
  induction serials with
  | nil => rfl
  | cons serial serials ih =>
    rw [List.map_cons, List.mapM_cons, ih]
    rfl

theorem Wire.Answer.word_success (w : UInt16) :
    (Answer.success (.ofNat64 w.toUInt64)).word = .ok w := by
  have hnat : (Answer.success (.ofNat64 w.toUInt64)).value?.bind Value.asNat? = some w.toNat :=
    (asNat?_ofNat64 w.toUInt64).trans (by simp)
  -- a word is below `2 ^ 64`, so it is written unchanged and is read as the same number
  rw [Answer.word, hnat]
  simp only
  rw [if_pos w.toNat_lt, UInt16.ofNat_toNat]

/-- A block of a pipe that has enough bytes is the front of the pipe, and else all of it. -/
theorem length_take_eq_iff {pipe : Bytes} {n : Nat} : (pipe.take n).length = n ↔ n ≤ pipe.length := by
  rw [List.length_take]
  exact min_eq_left_iff

theorem wordsOfBlock_take (pipe : Bytes) (count : Nat) :
    wordsOfBlock (pipe.take (2 * count)) count =
      if 2 * count ≤ pipe.length then .ok (bytesToWords (pipe.take (2 * count)))
      else .error (.lengthMismatch (2 * count) pipe.length) := by
  unfold wordsOfBlock
  simp only [length_take_eq_iff]
  split
  · rfl
  -- a short pipe is given whole, so what arrived is what the pipe holds
  next hshort => rw [List.take_of_length_le (Nat.le_of_not_le hshort)]

theorem bytesOfBlock_take (pipe : Bytes) (count : Nat) :
    bytesOfBlock (pipe.take count) count =
      if count ≤ pipe.length then .ok (pipe.take count)
      else .error (.lengthMismatch count pipe.length) := by
  unfold bytesOfBlock
  simp only [length_take_eq_iff]
  split
  · rfl
  next hshort => rw [List.take_of_length_le (Nat.le_of_not_le hshort)]

theorem wireCount_ok {count : Nat} {wire : UInt32} (h : wireCount count = .ok wire) :
    wire.toNat = count := by
  unfold wireCount at h
  split at h
  next hfits =>
    cases h
    exact UInt32.toNat_ofNat_of_lt' hfits
  · cases h

namespace Call

/-- The answer to a call on a device is the refusal of the server or what the board answers. -/
theorem outcome_answer_onBoard (c : Call) (s : DeviceServer) {r : Request} {serial : String}
    (hserial : r.serial? = some serial) :
    c.outcome (s.answer r).1 = s.onBoard serial fun b => c.outcome (b.answer r).1 := by
  rw [DeviceServer.answer, DeviceServer.onBoard, hserial]
  simp only
  cases s.board? serial with
  | none => exact c.outcome_failure "Unknown device"
  | some b => rfl

/-- **What a call makes of the server's answer is what the server prescribes.** -/
theorem outcome_answer {c : Call} {r : Request} (hr : c.request = .ok r) (s : DeviceServer) :
    c.outcome (s.answer r).1 = c.prescribed s := by
  cases c with
  | deviceList =>
    -- no board is asked: the list is of the server itself
    cases hr
    have hanswer : (s.answer .deviceList).1 = .success (.array (s.serials.map .str)) :=
      congrArg (Answer.success ∘ Value.array) (List.map_map ..).symm
    rw [hanswer, outcome_success, read, Answer.serials_success]
    rfl
  | reprogram serial =>
    -- a call that carries no block has an answer which its board alone settles
    cases hr
    exact outcome_answer_onBoard _ s rfl
  | readReg serial addr port =>
    cases hr
    rw [outcome_answer_onBoard _ s rfl, prescribed]
    congr 1
    funext b
    rw [Board.answer, outcome_success, read, Answer.word_success]
    rfl
  | writeReg serial addr port value =>
    cases hr
    rw [outcome_answer_onBoard _ s rfl, prescribed]
    congr 1
    funext b
    simp only [Board.answer]
    -- the board may refuse the register, and then this is the message of the call
    cases b.refused addr port with
    | some message => rfl
    | none => rfl
  | writeRegN serial addr port values | writeRaw serial data =>
    cases hr
    exact outcome_answer_onBoard _ s rfl
  | readRegN serial addr port count =>
    rw [request] at hr
    -- the count must fit the wire; one that does not makes no request, against `hr`
    cases hwire : wireCount count with
    | error e => rw [hwire] at hr; cases hr
    | ok wire =>
      rw [hwire] at hr
      cases hr
      rw [outcome_answer_onBoard _ s rfl, prescribed]
      congr 1
      funext b
      -- the count is sent doubled, and the client checks what comes against the same count
      have hread : (readRegN serial addr port count).outcome
          (b.answer (.readRegN serial addr port wire)).1 =
            .words <$> wordsOfBlock ((b.pipes addr port).take (2 * wire.toNat)) count := rfl
      rw [hread, wireCount_ok hwire, wordsOfBlock_take]
      simp only
      split <;> rfl
  | readRaw serial count =>
    rw [request] at hr
    cases hwire : wireCount count with
    | error e => rw [hwire] at hr; cases hr
    | ok wire =>
      rw [hwire] at hr
      cases hr
      rw [outcome_answer_onBoard _ s rfl, prescribed]
      congr 1
      funext b
      have hread : (readRaw serial count).outcome (b.answer (.readRaw serial wire)).1 =
          .bytes <$> bytesOfBlock (b.raw.take wire.toNat) count := rfl
      rw [hread, wireCount_ok hwire, bytesOfBlock_take]
      split <;> rfl

/-- Only a device list is to return serials. -/
theorem prescribed_ne_serials {c : Call} (hc : c ≠ .deviceList) (s : DeviceServer)
    (serials : List String) : c.prescribed s ≠ .ok (.serials serials) := by
  -- what a board prescribes is one answer for all boards, and a server without it refuses
  have hboard : ∀ {serial : String} {f : Board → Except SessionError Reply},
      (∀ b, f b ≠ .ok (.serials serials)) → s.onBoard serial f ≠ .ok (.serials serials) := by
    intro serial f hf
    unfold DeviceServer.onBoard
    split
    · simp
    · exact hf _
  cases c with
  | deviceList => exact absurd rfl hc
  | reprogram | readReg | writeRegN | writeRaw => exact hboard fun b => by simp
  | writeReg serial addr port value =>
    refine hboard fun b => ?_
    cases b.refused addr port <;> simp
  | readRegN serial addr port count =>
    refine hboard fun b => ?_
    by_cases hlong : 2 * count ≤ (b.pipes addr port).length <;> simp [hlong]
  | readRaw serial count =>
    refine hboard fun b => ?_
    by_cases hlong : count ≤ b.raw.length <;> simp [hlong]

end Call

end BoardLink
