import BoardLink.Proofs.DeviceServer.Transcript

/-!
# Pipes are queues of bytes

A board has a pipe for each register and one more for raw data. What is written to a pipe is read from
it in the same order, whatever the sizes of the blocks, and whatever else the server is asked for and
does in between: nothing is lost and nothing is told twice, as long as the board stays attached. If it
is taken away and attached again, its pipes are empty.

The two kinds of pipes differ in the requests that they are reached with, and in that words are
counted or bytes. So `Request.transfer?` tells once which pipe a request is about, and all that
follows is about any pipe.

* `Board.answer_of_transfer` — what a board does with a request for one of its pipes;
* `Occurrence.conserves` — the step: what was in a pipe and what is written to it is what is read from
  it and what is in it afterwards;
* `DeviceServer.pipes_fifo` — the same over a history, with what a single read is answered, what it
  leaves alone, and what becomes of a board that is taken away.
-/

namespace BoardLink

open BoardLink.MessagePack BoardLink.Wire

/-! ### Pipes and what is done with them -/

/-- A pipe of a board: that of a register, or the one for raw data. -/
inductive Pipe where
  | register (addr port : UInt8)
  | raw
  deriving DecidableEq, Repr

/-- What a request does with a pipe. -/
inductive Transfer where
  /-- Bytes go in at the end. -/
  | write (bytes : Bytes)
  /-- As many bytes come off the front, if there are so many. -/
  | read (count : Nat)
  deriving DecidableEq, Repr

/-- What is in a pipe behind a transfer. -/
def Transfer.leaves : Transfer → (stored : Bytes) → Bytes
  | .write bytes, stored => stored ++ bytes
  | .read count, stored => stored.drop count

/-- What a transfer is answered. -/
def Transfer.answer : Transfer → (stored : Bytes) → Answer
  | .write _, _ => .success .nil
  | .read count, stored => .success (.bin (stored.take count))

/-- The pipe that a request is about, with the serial of its board, and what it does with it. A word
takes two bytes. -/
def Wire.Request.transfer? : Request → Option (String × Pipe × Transfer)
  | .writeRegN serial addr port data => some (serial, .register addr port, .write data)
  | .readRegN serial addr port count =>
    some (serial, .register addr port, .read (2 * count.toNat))
  | .writeRaw serial data => some (serial, .raw, .write data)
  | .readRaw serial count => some (serial, .raw, .read count.toNat)
  | .deviceList | .reprogram _ | .readReg .. | .writeReg .. => none

theorem Wire.Request.serial?_of_transfer {r : Request} {x : String} {p : Pipe} {t : Transfer}
    (h : r.transfer? = some (x, p, t)) : r.serial? = some x := by
  cases r with
  | deviceList | reprogram | readReg | writeReg => cases h
  | writeRegN | readRegN | writeRaw | readRaw =>
    cases h
    rfl

namespace Board

/-- What is stored in a pipe. -/
def stored (b : Board) : Pipe → Bytes
  | .register addr port => b.pipes addr port
  | .raw => b.raw

/-- The board with other bytes in a pipe. -/
def withStored (b : Board) (bytes : Bytes) : Pipe → Board
  | .register addr port => { b with pipes := b.pipes.set addr port bytes }
  | .raw => { b with raw := bytes }

@[simp] theorem stored_withStored (b : Board) (bytes : Bytes) (p : Pipe) :
    (b.withStored bytes p).stored p = bytes := by
  cases p with
  | register addr port => exact b.pipes.set_self addr port bytes
  | raw => rfl

/-- The other pipes hold what they held. -/
theorem stored_withStored_of_ne (b : Board) (bytes : Bytes) {p q : Pipe} (h : q ≠ p) :
    (b.withStored bytes p).stored q = b.stored q := by
  cases p with
  | raw =>
    cases q with
    | register => rfl
    | raw => exact absurd rfl h
  | register addr port =>
    cases q with
    | raw => rfl
    | register addr' port' =>
      -- two registers are apart by their address or by their port
      refine b.pipes.set_of_ne bytes ?_
      rintro ⟨rfl, rfl⟩
      exact h rfl

@[simp] theorem registers_withStored (b : Board) (bytes : Bytes) (p : Pipe) :
    (b.withStored bytes p).registers = b.registers := by
  cases p <;> rfl

@[simp] theorem refused_withStored (b : Board) (bytes : Bytes) (p : Pipe) :
    (b.withStored bytes p).refused = b.refused := by
  cases p <;> rfl

/-- **What a board does with a request for one of its pipes.** -/
theorem answer_of_transfer (b : Board) {r : Request} {x : String} {p : Pipe} {t : Transfer}
    (h : r.transfer? = some (x, p, t)) :
    b.answer r = (t.answer (b.stored p), b.withStored (t.leaves (b.stored p)) p) := by
  cases r with
  | deviceList | reprogram | readReg | writeReg => cases h
  | writeRegN | readRegN | writeRaw | readRaw =>
    cases h
    rfl

/-- A request for no pipe leaves them all alone. -/
theorem stored_answer_of_none (b : Board) {r : Request} (h : r.transfer? = none) (p : Pipe) :
    (b.answer r).2.stored p = b.stored p := by
  cases r with
  | writeRegN | readRegN | writeRaw | readRaw => cases h
  | deviceList | reprogram | readReg => rfl
  | writeReg serial addr port value =>
    -- the only request for no pipe that changes the board, and it changes a register
    rw [answer]
    split
    · rfl
    · cases p <;> rfl

end Board

/-! ### The boards of a server -/

theorem lookup_cons_eq_ite (x serial : String) (b : Board) (boards : List (String × Board)) :
    ((serial, b) :: boards).lookup x = if x = serial then some b else boards.lookup x := by
  rw [List.lookup_cons]
  by_cases hx : x = serial
  · rw [if_pos hx, beq_iff_eq.2 hx]
  · rw [if_neg hx, beq_false_of_ne hx]

theorem lookup_putBoard (x serial : String) (b : Board) (boards : List (String × Board)) :
    (putBoard serial b boards).lookup x = if x = serial then some b else boards.lookup x := by
  induction boards with
  | nil => exact lookup_cons_eq_ite x serial b []
  | cons entry rest ih =>
    obtain ⟨s, old⟩ := entry
    rw [putBoard]
    split
    -- boards are put in the order of their serials: here, in front of this entry, or further on
    next hsame =>
      -- the board that was there is hidden behind the new one
      subst hsame
      rw [lookup_cons_eq_ite, lookup_cons_eq_ite]
      exact ite_congr rfl (fun _ => rfl) fun hx => (if_neg hx).symm
    next hother =>
      split
      · exact lookup_cons_eq_ite x serial b _
      · rw [lookup_cons_eq_ite, lookup_cons_eq_ite, ih]
        by_cases hx : x = s
        · rw [if_pos hx, if_pos hx, if_neg fun h => hother (h.symm.trans hx)]
        · rw [if_neg hx, if_neg hx]

theorem lookup_filter_ne (x serial : String) (boards : List (String × Board)) :
    (boards.filter (·.1 ≠ serial)).lookup x = if x = serial then none else boards.lookup x := by
  induction boards with
  | nil => exact (ite_self none).symm
  | cons entry rest ih =>
    obtain ⟨s, b⟩ := entry
    rw [List.filter_cons, lookup_cons_eq_ite]
    -- the entries of this serial are filtered out, so only another one can be found here
    by_cases hs : s = serial
    · rw [if_neg (by simpa using hs), ih, hs]
      exact ite_congr rfl (fun _ => rfl) fun hx => (if_neg hx).symm
    · rw [if_pos (by simpa using hs), lookup_cons_eq_ite, ih]
      by_cases hx : x = s
      · rw [if_pos hx, if_pos hx, if_neg fun h => hs (hx.symm.trans h)]
      · rw [if_neg hx, if_neg hx]

namespace DeviceServer

variable {s : DeviceServer} {x y : String} {b : Board}

theorem board?_put : (s.put y b).board? x = if x = y then some b else s.board? x :=
  lookup_putBoard x y b s.boards

/-- A board that is attached again is as it was, and a new one is empty. -/
theorem board?_attach : (s.attach y).board? x =
    if x = y then some ((s.board? x).getD {}) else s.board? x := by
  unfold attach
  split
  next hpresent =>
    -- nothing happens to a board that is attached already
    split
    next hx =>
      subst hx
      obtain ⟨b, hb⟩ := Option.isSome_iff_exists.1 hpresent
      rw [hb, Option.getD_some]
    · rfl
  next habsent =>
    rw [board?_put]
    split
    next hx =>
      subst hx
      rw [Option.not_isSome_iff_eq_none.1 habsent, Option.getD_none]
    · rfl

theorem board?_detach : (s.detach y).board? x = if x = y then none else s.board? x :=
  lookup_filter_ne x y s.boards

/-- A request changes the board that it is for, if that is attached, and no other. -/
theorem board?_answer (r : Request) : (s.answer r).2.board? x =
    if r.serial? = some x then (s.board? x).map fun b => (b.answer r).2 else s.board? x := by
  unfold answer
  -- a request that names no board is for none
  cases hserial : r.serial? with
  | none => rw [if_neg nofun]
  | some y =>
    simp only
    cases hy : s.board? y with
    | none =>
      -- a board that is not attached is not there behind the request either
      simp only
      split
      next hx => rw [← Option.some.inj hx, hy, Option.map_none]
      · rfl
    | some b =>
      simp only
      -- what is answered is put in the place of the board, and hides no other one
      rw [board?_put]
      by_cases hx : x = y
      · subst hx
        rw [if_pos rfl, if_pos rfl, hy, Option.map_some]
      · rw [if_neg hx, if_neg fun h => hx (Option.some.inj h).symm]

theorem answer_of_board {r : Request} (hserial : r.serial? = some x) (hb : s.board? x = some b) :
    (s.answer r).1 = (b.answer r).1 := by
  unfold answer
  rw [hserial]
  simp only [hb]

/-- **Two servers are alike but for one pipe**: the same boards are attached, with the same registers,
and each other pipe holds the same in both. -/
def AlikeBut (x : String) (p : Pipe) (s s' : DeviceServer) : Prop :=
  ∀ y, (s'.board? y).map (·.registers) = (s.board? y).map (·.registers) ∧
    (s'.board? y).map (·.refused) = (s.board? y).map (·.refused) ∧
    ∀ q, (y, q) ≠ (x, p) → (s'.board? y).map (·.stored q) = (s.board? y).map (·.stored q)

/-- **A request for a pipe leaves all else alone.** -/
theorem alikeBut_answer {r : Request} {p : Pipe} {t : Transfer} (s : DeviceServer)
    (h : r.transfer? = some (x, p, t)) : AlikeBut x p s (s.answer r).2 := by
  intro y
  rw [board?_answer, Request.serial?_of_transfer h]
  split
  next hy =>
    obtain rfl := Option.some.inj hy
    -- a request for a board that is not attached is refused and nothing is done
    cases s.board? x with
    | none => exact ⟨rfl, rfl, fun _ _ => rfl⟩
    | some b =>
      -- the board is the one of the pipe, and of its pipes that one alone is written
      simp only [Option.map_some, b.answer_of_transfer h]
      refine ⟨congrArg some (b.registers_withStored _ p), congrArg some (b.refused_withStored _ p),
        fun q hq => congrArg some (b.stored_withStored_of_ne _ ?_)⟩
      rintro rfl
      exact hq rfl
  · exact ⟨rfl, rfl, fun _ _ => rfl⟩

end DeviceServer

/-! ### Histories -/

/-- What can happen to a server. -/
inductive Occurrence where
  /-- It sends a packet, and follows it if it is an event. -/
  | sends (p : Packet)
  /-- It answers a request. -/
  | answers (r : Request)

/-- A board is taken away. -/
def Occurrence.removal (x : String) : Occurrence := .sends (.event (.removed x))

/-- A board is attached. -/
def Occurrence.addition (x : String) : Occurrence := .sends (.event (.added x))

/-- The byte block of an answer, or nothing if it has none. -/
def Wire.Answer.blockBytes (a : Answer) : Bytes :=
  match a.value? with
  | some (.bin bytes) => bytes
  | _ => []

/-- The server behind an occurrence. -/
def DeviceServer.undergo (s : DeviceServer) : Occurrence → DeviceServer
  | .sends p => s.follow p
  | .answers r => (s.answer r).2

/-- The server behind a history. -/
def DeviceServer.undergoAll (s : DeviceServer) (history : List Occurrence) : DeviceServer :=
  history.foldl undergo s

namespace Occurrence

/-- What an occurrence writes to a pipe of board `x`. -/
def writes (x : String) (p : Pipe) : Occurrence → Bytes
  | .sends _ => []
  | .answers r =>
    match r.transfer? with
    | some (y, q, .write bytes) => if (y, q) = (x, p) then bytes else []
    | _ => []

/-- What is answered if an occurrence is a request that reads a pipe of board `x`. -/
def reads (x : String) (p : Pipe) (s : DeviceServer) : Occurrence → Bytes
  | .sends _ => []
  | .answers r =>
    match r.transfer? with
    | some (y, q, .read _) => if (y, q) = (x, p) then (s.answer r).1.blockBytes else []
    | _ => []

/-- What happens to a board by a packet that the server sends: nothing, unless it is taken away. -/
theorem stored_sends {s : DeviceServer} {x : String} {b : Board} (hattached : s.board? x = some b)
    {packet : Packet} (hstays : .sends packet ≠ removal x) : (s.follow packet).board? x = some b := by
  match packet with
  | .answer a | .unknown rcode fields | .event (.changed y addr port value) => exact hattached
  | .event (.added y) =>
    -- it is attached already, so that changes nothing
    show (s.attach y).board? x = _
    rw [DeviceServer.board?_attach, hattached]
    exact ite_self _
  | .event (.removed y) =>
    -- only other boards can be taken away here
    show (s.detach y).board? x = _
    rw [DeviceServer.board?_detach, hattached, if_neg]
    rintro rfl
    exact hstays rfl

/-- **A pipe loses nothing.** Whatever happens to a server that keeps the board, what was in the pipe
and what is written is what is read and what is in the pipe then. -/
theorem conserves {s : DeviceServer} {x : String} {b : Board} {o : Occurrence}
    (hattached : s.board? x = some b) (hstays : o ≠ removal x) :
    ∃ b', (s.undergo o).board? x = some b' ∧
      ∀ p, b.stored p ++ o.writes x p = o.reads x p s ++ b'.stored p := by
  cases o with
  | sends packet =>
    exact ⟨b, stored_sends hattached hstays, fun p => List.append_nil _⟩
  | answers r =>
    have hboard : (s.answer r).2.board? x = some (if r.serial? = some x then (b.answer r).2 else b) := by
      rw [DeviceServer.board?_answer, hattached]
      split <;> rfl
    refine ⟨_, hboard, fun p => ?_⟩
    -- the bytes that the pipe held are split by what the request does with it
    cases htransfer : r.transfer? with
    | none =>
      simp only [writes, reads, htransfer, List.append_nil, List.nil_append]
      split
      · exact (b.stored_answer_of_none htransfer p).symm
      · rfl
    | some transfer =>
      obtain ⟨y, q, t⟩ := transfer
      have hserial := Request.serial?_of_transfer htransfer
      have hanswer := b.answer_of_transfer htransfer
      by_cases hsame : (y, q) = (x, p)
      · -- the request is for this pipe
        obtain ⟨rfl, rfl⟩ := Prod.mk.inj hsame
        rw [if_pos hserial, hanswer, Board.stored_withStored]
        cases t with
        | write bytes =>
          -- written bytes go to the end
          simp only [writes, reads, htransfer, if_true, List.nil_append]
          rfl
        | read count =>
          -- the bytes that are read come off the front, so the answer and the rest are what was
          -- there
          simp only [writes, reads, htransfer, if_true]
          rw [DeviceServer.answer_of_board hserial hattached, hanswer, List.append_nil]
          exact (List.take_append_drop count (b.stored q)).symm
      · -- it is for another pipe, of this board or of another one
        have hother : (if r.serial? = some x then (b.answer r).2 else b).stored p = b.stored p := by
          split
          next hx =>
            obtain rfl := Option.some.inj (hserial.symm.trans hx)
            rw [hanswer]
            refine b.stored_withStored_of_ne _ ?_
            rintro rfl
            exact hsame rfl
          · rfl
        rw [hother]
        cases t with
        | write bytes | read count =>
          simp only [writes, reads, htransfer, if_neg hsame, List.append_nil, List.nil_append]

end Occurrence

namespace DeviceServer

variable {s : DeviceServer} {x : String}

/-- What is written to a pipe in a history, one block behind the other. -/
def written (x : String) (p : Pipe) (history : List Occurrence) : Bytes :=
  history.flatMap (·.writes x p)

/-- What is read from a pipe in a history, one answer behind the other. -/
def readFrom (s : DeviceServer) (x : String) (p : Pipe) : List Occurrence → Bytes
  | [] => []
  | o :: later => o.reads x p s ++ (s.undergo o).readFrom x p later

theorem undergoAll_append (s : DeviceServer) (history later : List Occurrence) :
    s.undergoAll (history ++ later) = (s.undergoAll history).undergoAll later :=
  List.foldl_append

/-- **A pipe loses nothing in a history** in which its board stays attached. -/
theorem conserves_undergoAll {b : Board} {history : List Occurrence}
    (hattached : s.board? x = some b) (hstays : .removal x ∉ history) :
    ∃ b', (s.undergoAll history).board? x = some b' ∧
      ∀ p, b.stored p ++ written x p history = s.readFrom x p history ++ b'.stored p := by
  induction history generalizing s b with
  | nil => exact ⟨b, hattached, fun p => List.append_nil _⟩
  | cons o later ih =>
    -- what the first occurrence leaves in the pipe is what the rest of the history finds there
    obtain ⟨hfirst, hlater⟩ := not_or.1 (mt List.mem_cons.2 hstays)
    obtain ⟨b₁, hb₁, hstep⟩ := Occurrence.conserves hattached (Ne.symm hfirst)
    obtain ⟨b', hb', hrun⟩ := ih hb₁ hlater
    refine ⟨b', hb', fun p => ?_⟩
    calc b.stored p ++ written x p (o :: later)
        = (b.stored p ++ o.writes x p) ++ written x p later := (List.append_assoc ..).symm
      _ = o.reads x p s ++ (b₁.stored p ++ written x p later) := by rw [hstep, List.append_assoc]
      _ = s.readFrom x p (o :: later) ++ b'.stored p := by
        rw [hrun, readFrom, List.append_assoc]

/-- As long as a board is away nothing brings it back but that it is attached. -/
theorem board?_undergoAll_of_absent {absent : List Occurrence} (haway : s.board? x = none)
    (hstays : .addition x ∉ absent) : (s.undergoAll absent).board? x = none := by
  induction absent generalizing s with
  | nil => exact haway
  | cons o later ih =>
    obtain ⟨hfirst, hlater⟩ := not_or.1 (mt List.mem_cons.2 hstays)
    refine ih ?_ hlater
    -- only the packet that attaches this board has it attached
    match o with
    | .sends (.answer a) | .sends (.unknown rcode fields)
    | .sends (.event (.changed y addr port value)) => exact haway
    | .sends (.event (.added y)) =>
      show (s.attach y).board? x = _
      rw [board?_attach, if_neg, haway]
      rintro rfl
      exact hfirst rfl
    | .sends (.event (.removed y)) =>
      show (s.detach y).board? x = _
      rw [board?_detach, haway]
      exact ite_self _
    | .answers r =>
      -- a request is refused as long as the board is away
      show (s.answer r).2.board? x = _
      rw [board?_answer, haway]
      exact ite_self _

/-- **A board that is taken away and attached again is empty.** -/
theorem board?_readded {absent : List Occurrence} (s : DeviceServer)
    (haway : .addition x ∉ absent) :
    (s.undergoAll (.removal x :: absent ++ [.addition x])).board? x = some {} := by
  -- from the removal on the board is away until the last occurrence
  have hremoved : (s.undergo (.removal x)).board? x = none := by
    show (s.detach x).board? x = none
    rw [board?_detach, if_pos rfl]
  have habsent := board?_undergoAll_of_absent hremoved haway
  rw [undergoAll_append]
  show (((s.undergo (.removal x)).undergoAll absent).attach x).board? x = _
  rw [board?_attach, if_pos rfl, habsent, Option.getD_none]

/-! ### On a connection -/

/-- What happens to a server that is asked for some things on a connection: the events that are
scheduled in front of each answer, and the answer. -/
def history (s : DeviceServer) (requests : List Request) : List Occurrence :=
  requests.zipIdx.flatMap fun e =>
    (s.eventsAt e.2).map (fun event => .sends (.event event)) ++ [.answers e.1]

/-- **What a server does on a connection is a history**, so what is true of histories is true of it. -/
theorem served_eq_undergoAll (requests : List Request) :
    s.served requests = s.undergoAll (s.history requests) := by
  -- events are scheduled by the number of requests in front of them, so requests join at the end
  induction requests using List.reverseRecOn with
  | nil => rfl
  | append_singleton requests r ih =>
    -- serving follows the schedule of the server but does not change it
    have hevents : (s.served requests).eventsAt requests.length = s.eventsAt requests.length := by
      rw [eventsAt, actionsAt_served, ← eventsAt]
    have hhistory : s.history (requests ++ [r]) = s.history requests ++
        ((s.eventsAt requests.length).map (fun event => .sends (.event event)) ++ [.answers r]) := by
      rw [history, List.zipIdx_append, List.flatMap_append, Nat.zero_add]
      exact congrArg (s.history requests ++ ·) (List.append_nil _)
    rw [served_concat, serve, hevents, hhistory, undergoAll_append, ← ih, undergoAll_append]
    show _ = ((s.served requests).undergoAll _).undergo (.answers r)
    rw [undergoAll, List.foldl_map]
    rfl

/-- **The pipes of a board are queues.** Take any history of a server, of events and of requests for
any boards, in which board `x` stays attached. For each pipe of it, what was stored at first and then
all blocks that were written are, byte for byte, all blocks that were answered and then what is still
stored. A read is answered by as many bytes off the front as it asks for, or by all if there are
fewer. A write or a read of one pipe leaves the registers and all other pipes alone, those of its
board and those of others. If the board is then taken away, it is attached again with empty pipes,
whatever happens meanwhile. -/
theorem pipes_fifo {b : Board} {history : List Occurrence} (hattached : s.board? x = some b)
    (hstays : .removal x ∉ history) :
    (∃ b', (s.undergoAll history).board? x = some b' ∧
      ∀ p, b.stored p ++ written x p history = s.readFrom x p history ++ b'.stored p) ∧
    (∀ before r later p n, history = before ++ .answers r :: later →
      r.transfer? = some (x, p, .read n) →
        ∃ b₁, (s.undergoAll before).board? x = some b₁ ∧
          ((s.undergoAll before).answer r).1 = .success (.bin ((b₁.stored p).take n)) ∧
          ((b₁.stored p).take n).length = min n (b₁.stored p).length) ∧
    (∀ before r later y p t, history = before ++ .answers r :: later →
      r.transfer? = some (y, p, t) →
        AlikeBut y p (s.undergoAll before) (s.undergoAll (before ++ [.answers r]))) ∧
    ∀ absent, .addition x ∉ absent →
      ∃ empty, (s.undergoAll (history ++ (.removal x :: absent ++ [.addition x]))).board? x =
        some empty ∧ ∀ p, empty.stored p = [] := by
  refine ⟨conserves_undergoAll hattached hstays, ?_, ?_, ?_⟩
  · rintro before r later p n rfl htransfer
    -- the board is still there when it is read
    have hbefore : .removal x ∉ before := fun h => hstays (List.mem_append_left _ h)
    obtain ⟨b₁, hb₁, -⟩ := conserves_undergoAll hattached hbefore
    refine ⟨b₁, hb₁, ?_, List.length_take⟩
    rw [answer_of_board (Request.serial?_of_transfer htransfer) hb₁,
      b₁.answer_of_transfer htransfer]
    rfl
  · rintro before r later y p t - htransfer
    rw [undergoAll_append]
    exact alikeBut_answer _ htransfer
  · intro absent haway
    refine ⟨{}, ?_, fun p => by cases p <;> rfl⟩
    rw [undergoAll_append]
    exact board?_readded _ haway

/-- Three bytes and then one are written to a register of one of two boards, the other board is taken
away in between, and two words are read that do not end where the blocks do; a third is not there. -/
theorem pipes_fifo_odd_blocks :
    let s := (({} : DeviceServer).attach "FAOUT-01").attach "DIGI-7"
    let history : List Occurrence :=
      [.answers (.writeRegN "FAOUT-01" 4 1 [10, 11, 12]), .removal "DIGI-7",
        .answers (.writeRegN "FAOUT-01" 4 1 [13]), .answers (.readRegN "FAOUT-01" 4 1 1),
        .answers (.readRegN "FAOUT-01" 4 1 2)]
    (∃ b, (s.undergoAll history).board? "FAOUT-01" = some b ∧
      [10, 11, 12, 13] = [10, 11] ++ [12, 13] ++ b.stored (.register 4 1)) ∧
    ∃ empty, (s.undergoAll (history ++
      (.removal "FAOUT-01" :: [.answers .deviceList] ++ [.addition "FAOUT-01"]))).board? "FAOUT-01" =
        some empty ∧ ∀ p, empty.stored p = [] := by
  intro s history
  have hattached : s.board? "FAOUT-01" = some {} := by
    rw [board?_attach, if_neg (by decide), board?_attach, if_pos rfl]
    rfl
  have hstays : .removal "FAOUT-01" ∉ history := by
    simp [history, Occurrence.removal]
  obtain ⟨⟨b, hb, hconserves⟩, -, -, hreadded⟩ := pipes_fifo hattached hstays
  refine ⟨⟨b, hb, ?_⟩, hreadded [.answers .deviceList] (by simp [Occurrence.addition])⟩
  exact hconserves (.register 4 1)

end DeviceServer

end BoardLink
