import BoardLink.Faout.Operations
import BoardLink.Proofs.Faout.Exchanges
import Mathlib.Tactic.Choose

/-!
# Operations stop at the first failure

No operation acts on a board after an access to it has failed. An operation reaches the board through
its registers alone, so it follows a plan (`Operation.planned`, one case for each operation), and plans
are followed up to the first access that fails (`Plan.exchanges_obliging`). What an operation does on
a board that fails somewhere is therefore read off what it does on one that never fails: an access that
stands behind others there has them in front of it here, all of them successful.

* `Operation.front_obliging` — that comparison, for a single access;
* `Operation.front_of_setConfigBit`, `Operation.front_of_writeInterp`, `Operation.front_of_samples` —
  what precedes the accesses that change a board or take samples from it;
* `Operation.run_of_channel_le` — a channel that does not exist is refused in front of all accesses;
* `Operation.stops_at_first_failure` — all of this together.
-/

namespace BoardLink.Faout

variable {α β : Type}

/-! ### Operations as plans -/

/-- An operation that can be done on any board follows a plan. -/
def Planned (op : ∀ (σ : Type) [RegisterAccess σ], Access σ α) : Prop :=
  ∃ p : Plan α, ∀ (σ : Type) [RegisterAccess σ], op σ = p.run

namespace Planned

theorem pure (a : α) : Planned fun _ _ => pure a := ⟨.done a, fun _ _ => rfl⟩

theorem throw (e : SessionError) : Planned (α := α) fun _ _ => throw e := ⟨.refuse e, fun _ _ => rfl⟩

theorem bind {x : ∀ (σ : Type) [RegisterAccess σ], Access σ α}
    {f : α → ∀ (σ : Type) [RegisterAccess σ], Access σ β} (hx : Planned x) (hf : ∀ a, Planned (f a)) :
    Planned fun σ _ => x σ >>= fun a => f a σ := by
  obtain ⟨p, hp⟩ := hx
  choose q hq using hf
  refine ⟨p.bind q, fun σ _ => ?_⟩
  show (x σ >>= fun a => f a σ) = _
  rw [Plan.run_bind, hp]
  exact bind_congr fun a => hq a σ

theorem ite {c : Prop} [Decidable c] {x y : ∀ (σ : Type) [RegisterAccess σ], Access σ α}
    (hx : Planned x) (hy : Planned y) : Planned fun σ _ => if c then x σ else y σ := by
  split
  · exact hx
  · exact hy

theorem readReg (addr port : UInt8) : Planned fun _ _ => readReg addr port := by
  refine ⟨.ask (.read addr port) fun words => .done (words.headD 0), fun σ _ => ?_⟩
  show _ = ((fun word => [word]) <$> RegisterAccess.readReg addr port) >>= fun words =>
    Pure.pure (words.headD 0)
  rw [bind_pure_comp, Functor.map_map]
  exact (id_map _).symm

theorem writeReg (addr port : UInt8) (value : UInt16) : Planned fun _ _ => writeReg addr port value := by
  refine ⟨.ask (.write addr port value) fun _ => .done (), fun σ _ => ?_⟩
  -- a write gives no words, so that the words given are mapped away before the plan goes on
  show _ = ((fun _ => []) <$> RegisterAccess.writeReg addr port value) >>= fun _ => Pure.pure ()
  rw [bind_pure_comp, Functor.map_map]
  exact (id_map _).symm

theorem readRegN (addr port : UInt8) (count : Nat) : Planned fun _ _ => readRegN addr port count :=
  ⟨.ask (.readBlock addr port count) .done, fun _ _ => (bind_pure _).symm⟩

theorem writeRegN (addr port : UInt8) (values : List UInt16) :
    Planned fun _ _ => writeRegN addr port values := by
  refine ⟨.ask (.writeBlock addr port values) fun _ => .done (), fun σ _ => ?_⟩
  show _ = ((fun _ => []) <$> RegisterAccess.writeRegN addr port values) >>= fun _ => Pure.pure ()
  rw [bind_pure_comp, Functor.map_map]
  exact (id_map _).symm

end Planned

/-- The operations of a board. -/
inductive Operation where
  | deviceStatus
  | version
  | configBit (bit : UInt8)
  | setConfigBit (bit : UInt8) (enabled : Bool)
  | clockExtern
  | setClockExtern (enabled : Bool)
  | command (c : Command)
  | sdramPointers
  | sdramWrite (data : List UInt16)
  | sdramRead (count : Option Nat)
  | writeDac (index : UInt8) (value : UInt16)
  | readDac (index : UInt8)
  | writeInterp (index : UInt8) (value steps : UInt16)
  | readInterp (index : UInt8)
  deriving DecidableEq, Repr

namespace Operation

/-- What an operation gives. -/
@[reducible] def Result : Operation → Type
  | deviceStatus => Status
  | version | readDac _ => UInt16
  | configBit _ | clockExtern => Bool
  | sdramPointers => UInt32 × UInt32
  | sdramRead _ => List UInt16
  | readInterp _ => UInt16 × UInt16
  | setConfigBit _ _ | setClockExtern _ | command _ | sdramWrite _ | writeDac _ _
  | writeInterp _ _ _ => Unit

/-- Does an operation. -/
def run {σ : Type} [RegisterAccess σ] : (op : Operation) → Access σ op.Result
  | deviceStatus => Faout.deviceStatus
  | version => Faout.version
  | configBit bit => Faout.configBit bit
  | setConfigBit bit enabled => Faout.setConfigBit bit enabled
  | clockExtern => Faout.clockExtern
  | setClockExtern enabled => Faout.setClockExtern enabled
  | command c => Faout.command c
  | sdramPointers => Faout.sdramPointers
  | sdramWrite data => Faout.sdramWrite data
  | sdramRead count => Faout.sdramRead count
  | writeDac index value => Faout.writeDac index value
  | readDac index => Faout.readDac index
  | writeInterp index value steps => Faout.writeInterp index value steps
  | readInterp index => Faout.readInterp index

theorem planned_sdramPointers : Planned fun σ _ => Faout.sdramPointers (σ := σ) :=
  (Planned.readReg sdramAddr 1).bind fun _ => (Planned.readReg sdramAddr 0).bind fun _ =>
    (Planned.readReg sdramAddr 3).bind fun _ => (Planned.readReg sdramAddr 2).bind fun _ => .pure _

theorem planned_checkChannel (index : UInt8) : Planned fun σ _ => Faout.checkChannel (σ := σ) index :=
  .ite (.pure ()) (.throw _)

/-- **Every operation follows a plan.** -/
theorem planned (op : Operation) : Planned fun σ _ => op.run (σ := σ) := by
  cases op with
  | deviceStatus => exact (Planned.readReg registersAddr statusPort).bind fun _ => .pure _
  | version => exact .readReg registersAddr versionPort
  | configBit bit => exact (Planned.readReg registersAddr configPort).bind fun _ => .pure _
  | setConfigBit bit enabled =>
    exact (Planned.readReg registersAddr configPort).bind fun _ => .writeReg _ _ _
  | clockExtern => exact (Planned.readReg registersAddr configPort).bind fun _ => .pure _
  | setClockExtern enabled =>
    exact (Planned.readReg registersAddr configPort).bind fun _ => .writeReg _ _ _
  | command c => exact .writeReg registersAddr commandPort c.word
  | sdramPointers => exact planned_sdramPointers
  | sdramWrite data =>
    -- the refusal stands in a branch of its own behind the pointers, as it does in the operation
    exact planned_sdramPointers.bind fun _ => .ite ((Planned.throw _).bind fun _ => .writeRegN _ _ _)
      (.writeRegN _ _ _)
  | sdramRead count =>
    exact planned_sdramPointers.bind fun _ => .ite ((Planned.throw _).bind fun _ => .readRegN _ _ _)
      (.readRegN _ _ _)
  | writeDac index value => exact (planned_checkChannel index).bind fun _ => .writeReg _ _ _
  | readDac index => exact (planned_checkChannel index).bind fun _ => .readReg _ _
  | writeInterp index value steps =>
    exact (planned_checkChannel index).bind fun _ =>
      (Planned.writeReg interpAddr (index + channels) steps).bind fun _ => .writeReg _ _ _
  | readInterp index =>
    exact (planned_checkChannel index).bind fun _ =>
      -- both words of a channel are read, the steps first, and nothing is put together before that
      (Planned.readReg interpAddr (index + channels)).bind fun _ =>
        (Planned.readReg interpAddr index).bind fun _ => .pure _

/-! ### What passes during an operation -/

variable {σ : Type} [RegisterAccess σ]

/-- What passes between an operation and a board. -/
def exchanges (op : Operation) (s : σ) : List Exchange := (op.run (⟨s, []⟩ : Recorded σ)).2.exchanges

/-- The accesses that an operation makes to a board. -/
def accesses (op : Operation) (s : σ) : List LogEntry := (op.exchanges s).map (·.access)

/-- What an operation comes to on a board. -/
def result (op : Operation) (s : σ) : Except SessionError op.Result := (op.run s).1

/-- What an operation does is what its plan does. -/
theorem exists_plan (op : Operation) : ∃ p : Plan op.Result,
    (∀ {σ : Type} [RegisterAccess σ] (s : σ), op.run s = p.run s) ∧
    ∀ {σ : Type} [RegisterAccess σ] (s : σ), op.exchanges s = p.exchanges s := by
  obtain ⟨p, hp⟩ := op.planned
  refine ⟨p, fun s => congrFun (hp _) s, fun s => ?_⟩
  -- a plan keeps no record of its own: on a recorded board its record is what the board has kept
  rw [exchanges, show op.run _ = p.run _ from congrFun (hp _) _, p.run_recorded]
  rfl

/-- A record of an operation changes nothing. -/
theorem run_recorded (op : Operation) (s : σ) :
    op.run (⟨s, []⟩ : Recorded σ) = (op.result s, ⟨(op.run s).2, op.exchanges s⟩) := by
  obtain ⟨p, hrun, hexchanges⟩ := op.exists_plan
  rw [result, hexchanges, hrun, hrun, p.run_recorded]
  rfl

theorem succeeded_obliging (op : Operation) (b : ObligingBoard) :
    ∀ x ∈ op.exchanges b, x.succeeded := by
  obtain ⟨p, -, hexchanges⟩ := op.exists_plan
  rw [hexchanges]
  exact p.succeeded_obliging b

theorem exchanges_obliging (op : Operation) (s : σ) (further : List (List UInt16)) :
    let board : ObligingBoard := ⟨given (op.exchanges s) ++ further⟩
    (op.exchanges s = op.exchanges board ∧ op.result s = op.result board) ∨
    ∃ front access e words, op.exchanges s = front ++ [⟨access, .error e⟩] ∧
      front ++ [⟨access, .ok words⟩] <+: op.exchanges board ∧ op.result s = .error e := by
  obtain ⟨p, hrun, hexchanges⟩ := op.exists_plan
  simp only [hexchanges, result, hrun]
  exact p.exchanges_obliging s further

/-- What stands in front of an access also stands in front of it when nothing fails. -/
theorem front_obliging {op : Operation} {s : σ} {front back : List Exchange} {x : Exchange}
    (h : op.exchanges s = front ++ x :: back) (further : List (List UInt16)) :
    ∃ words, front ++ [⟨x.access, .ok words⟩] <+:
      op.exchanges (⟨given (op.exchanges s) ++ further⟩ : ObligingBoard) := by
  -- an exchange that passes on the obliging board, too, is a success
  have hwhole : ∀ {rest}, front ++ x :: rest <+:
      op.exchanges (⟨given (op.exchanges s) ++ further⟩ : ObligingBoard) → ∃ words,
        front ++ [⟨x.access, .ok words⟩] <+:
          op.exchanges (⟨given (op.exchanges s) ++ further⟩ : ObligingBoard) := by
    intro rest hprefix
    obtain ⟨words, hwords⟩ := op.succeeded_obliging _ x (List.IsPrefix.subset hprefix (by simp))
    refine ⟨words, ?_⟩
    rw [← hwords]
    refine List.IsPrefix.trans ⟨rest, ?_⟩ hprefix
    rw [List.append_assoc]
    rfl
  -- the two boards part only at a failure, and then the record ends with it
  obtain ⟨hsame, -⟩ | ⟨front', access, e, words, hmade, hfront, -⟩ := op.exchanges_obliging s further
  · rw [h] at hsame hwhole ⊢
    exact hwhole ⟨[], by rw [List.append_nil]; exact hsame⟩
  · rw [hmade] at h
    rcases back.eq_nil_or_concat with rfl | ⟨back', last, rfl⟩
    · obtain ⟨rfl, hx⟩ := List.append_inj' h rfl
      -- `x` is the access that failed, and the obliging board gives words for it
      obtain rfl := List.singleton_inj.1 hx
      exact ⟨words, hfront⟩
    · rw [List.concat_eq_append, ← List.cons_append, ← List.append_assoc] at h
      -- `x` stands in front of the failure, where both boards still agree
      obtain ⟨rfl, -⟩ := List.append_inj' h rfl
      exact hwhole ((List.prefix_append _ _).trans hfront)

/-! ### Whole runs -/

/-- The exchanges in which the two pointers of the sample memory are read. -/
def pointerReads (readHigh readLow writeHigh writeLow : UInt16) : List Exchange :=
  [⟨.read sdramAddr 1, .ok [readHigh]⟩, ⟨.read sdramAddr 0, .ok [readLow]⟩,
    ⟨.read sdramAddr 3, .ok [writeHigh]⟩, ⟨.read sdramAddr 2, .ok [writeLow]⟩]

/-- Samples are written if there is room for all of them behind the pointer that was read. -/
theorem sdramWrite_of_pointers {s s' : σ} {read write : UInt32}
    (h : Faout.sdramPointers s = (.ok (read, write), s')) (data : List UInt16) :
    Faout.sdramWrite data s =
      if sdramMaxAddr - write.toNat < data.length then
        (.error (.invalidArgument (.noRoom data.length (sdramMaxAddr - write.toNat))), s')
      else writeRegN sdramAddr sdramDataPort data s' := by
  rw [Faout.sdramWrite, Access.bind_apply, h]
  dsimp only
  split <;> rfl

/-- Samples are read if that many are between the pointers that were read. -/
theorem sdramRead_of_pointers {s s' : σ} {read write : UInt32}
    (h : Faout.sdramPointers s = (.ok (read, write), s')) (count : Option Nat) :
    let available := write.toNat - read.toNat
    Faout.sdramRead count s =
      if available < count.getD available then
        (.error (.invalidArgument (.notEnough (count.getD available) available)), s')
      else readRegN sdramAddr sdramDataPort (count.getD available) s' := by
  intro available
  rw [Faout.sdramRead, Access.bind_apply, h]
  dsimp only
  split <;> rfl

/-- When nothing fails, the pointers are put together from the four halves. -/
theorem sdramPointers_obliging (b : ObligingBoard) :
    ∃ readHigh readLow writeHigh writeLow b',
      Faout.sdramPointers (⟨b, []⟩ : Recorded ObligingBoard) =
        (.ok (pointer readHigh readLow, pointer writeHigh writeLow),
          ⟨b', pointerReads readHigh readLow writeHigh writeLow⟩) :=
  ⟨_, _, _, _, _, rfl⟩

/-- When nothing fails, the samples come behind the four halves of the pointers. -/
theorem exists_pointerReads_obliging {op : Operation}
    (hop : (∃ data, op = sdramWrite data) ∨ ∃ count, op = sdramRead count) (b : ObligingBoard) :
    ∃ readHigh readLow writeHigh writeLow last, last.length ≤ 1 ∧
      op.exchanges b = pointerReads readHigh readLow writeHigh writeLow ++ last := by
  obtain ⟨readHigh, readLow, writeHigh, writeLow, b', hpointers⟩ := sdramPointers_obliging b
  refine ⟨readHigh, readLow, writeHigh, writeLow, ?_⟩
  obtain ⟨data, rfl⟩ | ⟨count, rfl⟩ := hop
  -- at most one exchange follows: a refusal makes none, and a block is one access of many words
  · show ∃ last, _ ∧ (Faout.sdramWrite data (⟨b, []⟩ : Recorded ObligingBoard)).2.exchanges = _
    rw [sdramWrite_of_pointers hpointers]
    split
    · exact ⟨[], Nat.zero_le _, (List.append_nil _).symm⟩
    · exact ⟨[_], Nat.le_refl _, rfl⟩
  · show ∃ last, _ ∧ (Faout.sdramRead count (⟨b, []⟩ : Recorded ObligingBoard)).2.exchanges = _
    rw [sdramRead_of_pointers hpointers]
    split
    · exact ⟨[], Nat.zero_le _, (List.append_nil _).symm⟩
    · exact ⟨[_], Nat.le_refl _, rfl⟩

/-! ### The first failure -/

/-- An exchange that is not among the first ones, with at most one behind them, stands right behind
them. -/
theorem front_eq_of_prefix {front first last : List Exchange} {y : Exchange}
    (h : front ++ [y] <+: first ++ last) (hlast : last.length ≤ 1)
    (hy : ∀ x ∈ first, x.access ≠ y.access) : front = first := by
  rcases List.prefix_or_prefix_of_prefix ((List.prefix_append _ _).trans h)
    (List.prefix_append first last) with ⟨rest, rfl⟩ | ⟨rest, rfl⟩
  -- the first ones go on behind `front`: then the exchange would be one of them
  · rw [List.append_assoc, List.prefix_append_right_inj] at h
    cases rest with
    | nil => rw [List.append_nil]
    | cons x rest =>
      obtain ⟨rfl, -⟩ := List.cons_prefix_cons.1 h
      exact absurd rfl (hy y (List.mem_append_right _ List.mem_cons_self))
  · rw [List.append_assoc, List.prefix_append_right_inj] at h
    -- `front` goes on behind the first ones: with room for one more exchange, that is the exchange
    -- itself
    have hlength := h.length_le
    rw [List.length_append, List.length_singleton] at hlength
    obtain rfl : rest = [] := List.eq_nil_of_length_eq_zero (by omega)
    rw [List.append_nil]

/-- The register that an access is to. -/
def registerOf : LogEntry → UInt8 × UInt8
  | .read addr port | .write addr port _ | .readBlock addr port _ | .writeBlock addr port _ =>
    (addr, port)

/-- Whether an access writes. -/
def writes : LogEntry → Bool
  | .write _ _ _ | .writeBlock _ _ _ => true
  | .read _ _ | .readBlock _ _ _ => false

/-- The channel that an operation is about, if it is about one. -/
def channel? : Operation → Option UInt8
  | writeDac index _ | readDac index | writeInterp index _ _ | readInterp index => some index
  | _ => none

omit [RegisterAccess σ] in
theorem checkChannel_bind {index : UInt8} (h : index < channels) (f : Unit → Access σ β) (s : σ) :
    (checkChannel index >>= f) s = f () s := by
  rw [checkChannel, if_pos h]
  rfl

omit [RegisterAccess σ] in
theorem checkChannel_bind_of_le {index : UInt8} (h : channels ≤ index) (f : Unit → Access σ β)
    (s : σ) : (checkChannel index >>= f) s =
      (.error (.invalidArgument (.channelOutOfRange index.toNat channels.toNat)), s) := by
  rw [checkChannel, if_neg (UInt8.not_lt.2 h)]
  rfl

/-- A channel that the board does not have is refused without an access. -/
theorem run_of_channel_le {op : Operation} {index : UInt8} (hop : op.channel? = some index)
    (h : channels ≤ index) (s : σ) :
    op.run s = (.error (.invalidArgument (.channelOutOfRange index.toNat channels.toNat)), s) := by
  cases op with
  | writeDac i value | readDac i | writeInterp i value steps | readInterp i =>
    obtain rfl := Option.some.inj hop
    exact checkChannel_bind_of_le h _ s
  | _ => cases hop

/-- A configuration bit is written behind a read of the register that succeeded. -/
theorem front_of_setConfigBit {bit : UInt8} {enabled : Bool} {s : σ} {front back : List Exchange}
    {x : Exchange} (h : (setConfigBit bit enabled).exchanges s = front ++ x :: back)
    (hx : writes x.access) : ∃ config, front = [⟨.read registersAddr configPort, .ok [config]⟩] := by
  obtain ⟨words, hprefix⟩ := front_obliging h []
  have hwhole : front ++ [⟨x.access, .ok words⟩] <+: [_] ++ [_] := hprefix
  refine ⟨_, front_eq_of_prefix hwhole (Nat.le_refl _) fun y hy => ?_⟩
  -- the exchange in front is the read, and a read does not write
  obtain rfl := List.mem_singleton.1 hy
  intro hsame
  rw [← hsame] at hx
  cases hx

/-- The target of an interpolation is written behind the steps. -/
theorem front_of_writeInterp {index : UInt8} {value steps : UInt16} {s : σ}
    {front back : List Exchange} {x : Exchange}
    (h : (writeInterp index value steps).exchanges s = front ++ x :: back)
    (hx : registerOf x.access = (interpAddr, index)) :
    front = [⟨.write interpAddr (index + channels) steps, .ok []⟩] := by
  obtain ⟨words, hprefix⟩ := front_obliging h []
  -- a channel that the board has: the steps and then the target, when nothing fails
  by_cases hindex : index < channels
  · have hwhole : ∀ b : ObligingBoard, (writeInterp index value steps).exchanges b =
        [⟨.write interpAddr (index + channels) steps, .ok []⟩] ++
          [⟨.write interpAddr index value, .ok []⟩] := by
      intro b
      show (Faout.writeInterp index value steps (⟨b, []⟩ : Recorded ObligingBoard)).2.exchanges = _
      rw [Faout.writeInterp, checkChannel_bind hindex]
      rfl
    rw [hwhole] at hprefix
    refine front_eq_of_prefix hprefix (Nat.le_refl _) fun y hy => ?_
    obtain rfl := List.mem_singleton.1 hy
    intro hsame
    rw [← hsame] at hx
    -- the words of the steps are as many registers behind, so their register is another one
    have : index + channels = index := congrArg Prod.snd hx
    simp [channels] at this
  -- any other channel is refused before an access, so there is no exchange at all
  · have hnone : (writeInterp index value steps).exchanges s = [] := by
      rw [exchanges, run_of_channel_le rfl (UInt8.not_lt.1 hindex)]
    rw [hnone] at h
    simp at h

/-- Samples are written and read behind the four halves of the pointers. -/
theorem front_of_samples {op : Operation}
    (hop : (∃ data, op = sdramWrite data) ∨ ∃ count, op = sdramRead count) {s : σ}
    {front back : List Exchange} {x : Exchange} (h : op.exchanges s = front ++ x :: back)
    (hx : registerOf x.access = (sdramAddr, sdramDataPort)) :
    ∃ readHigh readLow writeHigh writeLow,
      front = pointerReads readHigh readLow writeHigh writeLow := by
  obtain ⟨words, hprefix⟩ := front_obliging h []
  obtain ⟨readHigh, readLow, writeHigh, writeLow, last, hlast, hwhole⟩ :=
    exists_pointerReads_obliging hop ⟨given (op.exchanges s) ++ []⟩
  rw [hwhole] at hprefix
  -- no half of a pointer is read at the port of the samples
  have hports : ∀ y ∈ pointerReads readHigh readLow writeHigh writeLow,
      registerOf y.access ≠ (sdramAddr, sdramDataPort) := by
    simp only [pointerReads, List.forall_mem_cons, registerOf]
    decide
  refine ⟨readHigh, readLow, writeHigh, writeLow, front_eq_of_prefix hprefix hlast fun y hy => ?_⟩
  exact fun hsame => hports y hy (hsame ▸ hx)

/-- **Operations stop at the first access that fails.** Let a board be of any kind, and fail at any
accesses. What an operation does on it is seen by keeping a record, which changes nothing, and by
comparing with a board that obliges and gives the same words, and then any further ones. Then

* the operation makes the accesses that it makes on the obliging board, up to the first one that
  fails, and its result is the error of that access; if none fails, then the accesses and the result
  are those on the obliging board;
* so a configuration bit is written only behind a read of the register that succeeded;
* the target of an interpolation is written only behind the steps, if they were written successfully;
* samples are written and read only behind successful reads of all four halves of the pointers;
* a channel that the board does not have is refused without any access. -/
theorem stops_at_first_failure (s : σ) :
    (∀ (op : Operation) (further : List (List UInt16)),
      let board : ObligingBoard := ⟨given (op.exchanges s) ++ further⟩
      op.run (⟨s, []⟩ : Recorded σ) = (op.result s, ⟨(op.run s).2, op.exchanges s⟩) ∧
      (∀ x ∈ op.exchanges board, x.succeeded) ∧
      op.accesses s <+: op.accesses board ∧
      ((op.exchanges s = op.exchanges board ∧ op.result s = op.result board) ∨
        ∃ front access e, op.exchanges s = front ++ [⟨access, .error e⟩] ∧
          front <+: op.exchanges board ∧ op.result s = .error e)) ∧
    (∀ bit enabled front x back, (setConfigBit bit enabled).exchanges s = front ++ x :: back →
      writes x.access → ∃ config, front = [⟨.read registersAddr configPort, .ok [config]⟩]) ∧
    (∀ index value steps front x back,
      (writeInterp index value steps).exchanges s = front ++ x :: back →
      registerOf x.access = (interpAddr, index) →
      front = [⟨.write interpAddr (index + channels) steps, .ok []⟩]) ∧
    (∀ op : Operation, (∃ data, op = sdramWrite data) ∨ (∃ count, op = sdramRead count) →
      ∀ front x back, op.exchanges s = front ++ x :: back →
      registerOf x.access = (sdramAddr, sdramDataPort) →
      ∃ readHigh readLow writeHigh writeLow,
        front = pointerReads readHigh readLow writeHigh writeLow) ∧
    ∀ (op : Operation) (index : UInt8), op.channel? = some index → channels ≤ index →
      op.exchanges s = [] ∧
      op.result s = .error (.invalidArgument (.channelOutOfRange index.toNat channels.toNat)) := by
  refine ⟨fun op further => ?_, fun bit enabled front x back => front_of_setConfigBit,
    fun index value steps front x back => front_of_writeInterp,
    fun op hop front x back => front_of_samples hop, fun op index hop h => ?_⟩
  -- the comparison with an obliging board, split by whether an access has failed
  · intro board
    refine ⟨op.run_recorded s, op.succeeded_obliging board, ?_⟩
    obtain ⟨hsame, hresult⟩ | ⟨front, access, e, words, hmade, hfront, hresult⟩ :=
      op.exchanges_obliging s further
    · refine ⟨?_, .inl ⟨hsame, hresult⟩⟩
      rw [accesses, hsame]
      exact List.prefix_rfl
    · refine ⟨?_, .inr ⟨front, access, e, hmade, (List.prefix_append _ _).trans hfront, hresult⟩⟩
      -- on both boards the failing access comes next
      have hnext := hfront.map (·.access)
      rw [accesses, hmade]
      rwa [List.map_append] at hnext ⊢
  · exact ⟨by rw [exchanges, run_of_channel_le hop h], by rw [result, run_of_channel_le hop h]⟩

/-- An interpolation ends when its steps cannot be written, so the target is not written. -/
example :
    let board : MemoryBoard := { failingWrites := (RegisterMap.all none).set 3 8 (some "busy") }
    (writeInterp 2 300 40).exchanges board = [⟨.write 3 8 40, .error (.server (-1) "busy")⟩] :=
  rfl

end Operation

end BoardLink.Faout
