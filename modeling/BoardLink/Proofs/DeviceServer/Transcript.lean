import Mathlib.Data.List.Induction
import Mathlib.Data.List.TakeWhile
import BoardLink.Proofs.DeviceServer.Serving

/-!
# What a device server writes

All that a server writes on a connection is told by the requests that it has decoded: for each of them
what is scheduled in front of its answer, and then the answer (`DeviceServer.exchange`). The first
action that ends the connection cuts this off. It does not matter how many requests arrive at once, nor
where they are cut.

The connection is followed through two invariants:

* `Connection.Stands` — the requests that have reached it were answered one after the other, or one of
  them was the last, because the schedule ends the connection in front of its answer;
* `Connection.Hears` — the same of the bytes that have arrived: all requests that can be decoded from
  them have reached it, and it holds what is left of the bytes, or it has ended.

What they come to once the client has finished sending is `Connection.output_clientDone`.
-/

namespace BoardLink

open BoardLink.MessagePack BoardLink.Wire

/-! ### By the number of a request -/

/-- Whether an action is the end of the connection. -/
def Action.ends : Action → Bool
  | .close => true
  | _ => false

/-- What is scheduled, up to the first end of the connection and behind it. -/
theorem exists_takeWhile_close {actions : List Action} (h : .close ∈ actions) : ∃ behind,
    actions = (actions.takeWhile fun action => !action.ends) ++ .close :: behind := by
  induction actions with
  | nil => cases h
  | cons action actions ih =>
    cases action with
    | close => exact ⟨actions, rfl⟩
    | send p | garbage bytes =>
      -- this one does not end the connection, so the first end is among the later ones
      obtain ⟨behind, hbehind⟩ := ih ((List.mem_cons.1 h).resolve_left nofun)
      exact ⟨behind, congrArg (_ :: ·) hbehind⟩

namespace DeviceServer

/-- The server once it has answered requests, which are numbered from zero. -/
def served (s : DeviceServer) (requests : List Request) : DeviceServer :=
  requests.zipIdx.foldl (fun s e => (s.serve e.2 e.1).2) s

/-- The answer to the request of a number: by then the server has answered the requests in front of it
and has followed the events that are scheduled up to this answer. -/
def answerTo (s : DeviceServer) (requests : List Request) (index : Nat) (r : Request) : Answer :=
  ((s.served (requests.take index)).serve index r).1

/-- What is written because of the request of a number: what is scheduled in front of the answer, and
the answer. -/
def exchange (s : DeviceServer) (requests : List Request) (index : Nat) : Bytes :=
  match requests[index]? with
  | some r => (s.actionsAt index).flatMap Action.written ++
      (Packet.answer (s.answerTo requests index r)).encode
  | none => []

/-- What is written because of the first requests, one behind the other. -/
def exchanges (s : DeviceServer) (requests : List Request) (count : Nat) : Bytes :=
  (List.range count).flatMap (s.exchange requests)

/-- What is written in front of an answer until the schedule ends the connection. -/
def writtenUntilEnd (s : DeviceServer) (index : Nat) : Bytes :=
  ((s.actionsAt index).takeWhile fun action => !action.ends).flatMap Action.written

variable {s : DeviceServer}

theorem served_concat (requests : List Request) (r : Request) :
    s.served (requests ++ [r]) = ((s.served requests).serve requests.length r).2 := by
  rw [served, List.zipIdx_append, List.foldl_append, Nat.zero_add]
  rfl

/-- What is scheduled stays scheduled. -/
theorem actionsAt_served (requests : List Request) (index : Nat) :
    (s.served requests).actionsAt index = s.actionsAt index := by
  -- only the boards of a server are ever changed
  have hschedule : (s.served requests).schedule = s.schedule := by
    induction requests using List.reverseRecOn with
    | nil => rfl
    | append_singleton requests r ih => rw [served_concat, schedule_serve, ih]
  rw [actionsAt, actionsAt, hschedule]

/-- What is written because of the first requests does not depend on the later ones. -/
theorem exchanges_append {requests : List Request} (later : List Request) {count : Nat}
    (h : count ≤ requests.length) :
    s.exchanges (requests ++ later) count = s.exchanges requests count := by
  refine List.flatMap_congr fun index hindex => ?_
  -- each exchange looks at the requests up to its own, and these are the same
  have hlt : index < requests.length := lt_of_lt_of_le (List.mem_range.1 hindex) h
  rw [exchange, exchange, List.getElem?_append_left hlt]
  simp only [answerTo, List.take_append_of_le_length hlt.le]

theorem exchanges_concat (requests : List Request) (r : Request) :
    s.exchanges (requests ++ [r]) (requests.length + 1) =
      s.exchanges requests requests.length ++ (s.actionsAt requests.length).flatMap Action.written ++
        (Packet.answer ((s.served requests).serve requests.length r).1).encode := by
  have hlast : (requests ++ [r])[requests.length]? = some r := List.getElem?_concat_length
  have hfront : (requests ++ [r]).take requests.length = requests := List.take_left
  calc s.exchanges (requests ++ [r]) (requests.length + 1)
      = s.exchanges (requests ++ [r]) requests.length ++
          s.exchange (requests ++ [r]) requests.length := by
        rw [exchanges, List.range_succ, List.flatMap_append, List.flatMap_singleton, ← exchanges]
    _ = s.exchanges requests requests.length ++
          s.exchange (requests ++ [r]) requests.length := by rw [exchanges_append _ le_rfl]
    _ = _ := by
        -- the last request is answered by the server that has answered all others
        rw [exchange, hlast]
        simp only [answerTo, hfront, List.append_assoc]

end DeviceServer

namespace Connection

variable {s : DeviceServer}

/-! ### Requests that have reached a connection -/

/-- **All requests were answered**, one behind the other, and none of them was cut off. -/
structure Answered (s : DeviceServer) (requests : List Request) (c : Connection) : Prop where
  server : c.server = s.served requests
  received : c.received = requests
  output : c.output = s.exchanges requests requests.length
  open_ : ∀ index < requests.length, .close ∉ s.actionsAt index

/-- **The schedule has ended the connection** in front of the answer to a request. -/
structure CutOff (s : DeviceServer) (requests : List Request) (index : Nat) (c : Connection) :
    Prop where
  lt : index < requests.length
  ends : .close ∈ s.actionsAt index
  open_ : ∀ earlier < index, .close ∉ s.actionsAt earlier
  received : c.received = requests.take (index + 1)
  output : c.output = s.exchanges requests index ++ s.writtenUntilEnd index
  ending : c.ending = some (.ok ())

/-- What a connection is once requests have reached it. -/
inductive Stands (s : DeviceServer) (requests : List Request) (c : Connection) : Prop
  | live (hlive : c.ending = none) (h : Answered s requests c)
  | ended (index : Nat) (h : CutOff s requests index c)

/-- What the reader has left does not matter to this. -/
theorem Answered.withReader {requests : List Request} {c : Connection} (h : Answered s requests c)
    (reader : ServerEnd) (undecoded : Bytes) : Answered s requests (c.withReader reader undecoded) :=
  ⟨h.server, h.received, h.output, h.open_⟩

theorem CutOff.withReader {requests : List Request} {index : Nat} {c : Connection}
    (h : CutOff s requests index c) (reader : ServerEnd) (undecoded : Bytes) :
    CutOff s requests index (c.withReader reader undecoded) :=
  ⟨h.lt, h.ends, h.open_, h.received, h.output, h.ending⟩

/-- What reaches a connection behind its end does not matter. -/
theorem CutOff.append {requests : List Request} {index : Nat} {c : Connection}
    (h : CutOff s requests index c) (later : List Request) :
    CutOff s (requests ++ later) index c where
  lt := by
    rw [List.length_append]
    exact Nat.lt_add_right _ h.lt
  ends := h.ends
  open_ := h.open_
  received := by rw [h.received, List.take_append_of_le_length h.lt]
  output := by rw [h.output, DeviceServer.exchanges_append later h.lt.le]
  ending := h.ending

theorem finish_of_live {c : Connection} (h : c.ending = none) (ending : Except Fault Unit) :
    c.finish ending = { c with ending := some ending } := by
  unfold finish
  rw [h]

theorem finish_of_ended {c : Connection} {earlier : Except Fault Unit} (h : c.ending = some earlier)
    (ending : Except Fault Unit) : c.finish ending = c := by
  unfold finish
  rw [h]

theorem handle_of_ended {c : Connection} {ending : Except Fault Unit} (h : c.ending = some ending)
    (r : Request) : c.handle r = c := by
  unfold handle
  rw [h]

/-- Nothing is done behind the end of a connection. -/
theorem foldl_act_of_ended {c : Connection} {ending : Except Fault Unit}
    (h : c.ending = some ending) (actions : List Action) : actions.foldl act c = c := by
  -- each action leaves the connection as it was, so all of them do
  have hact : ∀ action, c.act action = c := by
    intro action
    unfold act
    rw [h]
  induction actions with
  | nil => rfl
  | cons action actions ih => rw [List.foldl_cons, hact, ih]

/-- A request is received and not answered if the schedule ends the connection in front of its
answer. -/
theorem handle_of_close {c : Connection} (hlive : c.ending = none)
    (hclose : .close ∈ c.server.actionsAt c.received.length) (r : Request) :
    (c.handle r).received = c.received ++ [r] ∧
      (c.handle r).output = c.output ++ c.server.writtenUntilEnd c.received.length ∧
      (c.handle r).ending = some (.ok ()) := by
  obtain ⟨server, reader, undecoded, received, output, ending⟩ := c
  obtain rfl : ending = none := hlive
  let counted : Connection := ⟨server, reader, undecoded, received ++ [r], output, none⟩
  let front := (server.actionsAt received.length).takeWhile fun action => !action.ends
  -- what is taken up to the first end does not end the connection
  have hopen : .close ∉ front := fun h => absurd (List.mem_takeWhile_imp h) Bool.false_ne_true
  obtain ⟨behind, hsplit⟩ : ∃ behind, server.actionsAt received.length = front ++ .close :: behind :=
    exists_takeWhile_close hclose
  have hfront := foldl_act_of_open (c := counted) rfl hopen
  have hhandle : Connection.handle ⟨server, reader, undecoded, received, output, none⟩ r =
      ((.close :: behind).foldl act (front.foldl act counted)).reply r := by
    rw [← List.foldl_append, ← hsplit]
    rfl
  -- what is scheduled behind the end is not done, and there is no answer
  rw [hhandle, hfront, List.foldl_cons, foldl_act_of_ended rfl]
  exact ⟨rfl, rfl, rfl⟩

/-- **A request that reaches a connection is answered, or it is the last one.** -/
theorem Stands.handle {requests : List Request} {c : Connection} (h : Stands s requests c)
    (r : Request) : Stands s (requests ++ [r]) (c.handle r) := by
  cases h with
  | ended index h =>
    -- nothing is received behind the end
    rw [handle_of_ended h.ending]
    exact .ended index (h.append [r])
  | live hlive h =>
    -- the server counts requests as the transcript does, so both look up the same actions
    have hactions : c.server.actionsAt c.received.length = s.actionsAt requests.length := by
      rw [h.server, h.received, DeviceServer.actionsAt_served]
    -- the schedule decides whether this request is the last one
    by_cases hclose : .close ∈ s.actionsAt requests.length
    · obtain ⟨hreceived, houtput, hending⟩ := handle_of_close hlive (hactions ▸ hclose) r
      refine .ended requests.length ⟨?_, hclose, h.open_, ?_, ?_, hending⟩
      · rw [List.length_append]
        exact Nat.lt_succ_self _
      · rw [hreceived, h.received, List.take_of_length_le (by simp)]
      · rw [houtput, h.output, DeviceServer.writtenUntilEnd, hactions,
          DeviceServer.exchanges_append _ le_rfl]
        rfl
    · have hhandle := handle_of_open hlive (hactions ▸ hclose) r
      rw [hactions, h.server, h.received] at hhandle
      rw [hhandle]
      refine .live hlive ⟨?_, rfl, ?_, ?_⟩
      · exact (DeviceServer.served_concat requests r).symm
      · rw [List.length_append, List.length_singleton, DeviceServer.exchanges_concat, ← h.output]
      -- an earlier answer was not cut off before, and this one is not now
      · intro index hindex
        rw [List.length_append, List.length_singleton] at hindex
        rcases Nat.lt_succ_iff_lt_or_eq.1 hindex with hearlier | rfl
        · exact h.open_ index hearlier
        · exact hclose

/-- So are requests that reach it at once. -/
theorem Stands.foldl_handle {requests : List Request} {c : Connection} (h : Stands s requests c)
    (later : List Request) : Stands s (requests ++ later) (later.foldl Connection.handle c) := by
  induction later generalizing requests c with
  | nil =>
    rw [List.append_nil]
    exact h
  | cons r later ih =>
    have hlater := ih (h.handle r)
    rwa [List.append_assoc] at hlater

/-! ### Bytes that have arrived -/

/-- **What a connection is once bytes have arrived**, from which its reader has decoded `d`. -/
inductive Hears (s : DeviceServer) (d : Requests) (c : Connection) : Prop
  /-- All requests were answered, and more can come. -/
  | live (hlive : c.ending = none) (h : Answered s d.requests c) (hfault : d.fault = none)
    (hreader : c.reader = d.last) (hundecoded : c.undecoded = d.rest)
  /-- The schedule has ended the connection. -/
  | ended (index : Nat) (h : CutOff s d.requests index c)
  /-- All requests were answered, and behind them came what is no request. -/
  | failed (fault : Fault) (hfault : d.fault = some fault) (h : Answered s d.requests c)
    (hending : c.ending = some (.error fault))

theorem exists_requests_extend (d : Requests) (piece : Bytes) :
    ∃ later, (d.extend piece).requests = d.requests ++ later := by
  unfold Requests.extend
  split
  · exact ⟨[], (List.append_nil _).symm⟩
  · exact ⟨_, rfl⟩

/-- **A piece that arrives** is decoded behind what has arrived before. -/
theorem Hears.accept {d : Requests} {c : Connection} (h : Hears s d c) (piece : Bytes) :
    Hears s (d.extend piece) (c.accept piece) := by
  cases h with
  | ended index h =>
    -- requests that come behind the end add nothing to what was received
    rw [accept_of_ended h.ending]
    obtain ⟨later, hlater⟩ := exists_requests_extend d piece
    exact .ended index (hlater ▸ h.append later)
  | failed fault hfault h hending =>
    -- behind a fault bytes are neither decoded nor received
    rw [accept_of_ended hending]
    have hextend : d.extend piece = { d with rest := d.rest ++ piece } := by
      unfold Requests.extend
      rw [hfault]
    rw [hextend]
    exact .failed fault hfault h hending
  | live hlive h hfault hreader hundecoded =>
    -- decode behind what is left, and handle what can be decoded
    have hextend : d.extend piece = { d.last.drain (d.rest ++ piece) with
        requests := d.requests ++ (d.last.drain (d.rest ++ piece)).requests } := by
      unfold Requests.extend
      rw [hfault]
    have haccept := accept_of_live hlive piece
    rw [hreader, hundecoded] at haccept
    rw [hextend, haccept]
    -- the requests are handled one after the other, and the fault behind them comes last
    generalize d.last.drain (d.rest ++ piece) = cut
    have hstands := (Stands.live hlive h).foldl_handle cut.requests
    simp only
    generalize cut.requests.foldl handle c = handled at hstands
    cases hstands with
    | ended index h =>
      have hcutOff := h.withReader cut.last cut.rest
      refine .ended index ?_
      split
      · exact hcutOff
      next fault hfault =>
        -- the connection has ended before the fault
        rw [finish_of_ended hcutOff.ending]
        exact hcutOff
    | live hlive h =>
      have hanswered := h.withReader cut.last cut.rest
      split
      next hnofault => exact .live hlive hanswered hnofault rfl rfl
      next fault hfault =>
        -- all requests of the piece were answered, and then the connection fails
        rw [finish_of_live (c := handled.withReader cut.last cut.rest) hlive]
        exact .failed fault hfault ⟨hanswered.server, hanswered.received, hanswered.output, h.open_⟩ rfl

/-- **Bytes that arrive in any pieces.** -/
theorem hears_accept (s : DeviceServer) (pieces : List Bytes) :
    Hears s (({} : ServerEnd).drainPieces pieces) (pieces.foldl Connection.accept { server := s }) := by
  induction pieces using List.reverseRecOn with
  | nil => exact .live rfl ⟨rfl, rfl, rfl, fun _ h => absurd h (Nat.not_lt_zero _)⟩ rfl rfl rfl
  | append_singleton pieces piece ih =>
    -- the pieces are decoded one by one, as they arrive
    rw [ServerEnd.drainPieces, List.foldl_append, List.foldl_append]
    exact ih.accept piece

/-! ### The whole stream -/

/-- **Every request is answered once, in order.** Bytes arrive at a server in any pieces, and then the
client has finished sending; `d` is what can be decoded from all of them at once. If the schedule ends
the connection in front of an answer, then the requests before that were answered, each behind what is
scheduled in front of its answer; what comes in front of the end was written as well, and the requests
up to this one are reported. Otherwise all requests were answered, and they are reported, unless there
are bytes behind them: what they fail with is reported then, or that they are incomplete. -/
theorem output_clientDone (s : DeviceServer) (pieces : List Bytes) :
    let c := (pieces.foldl Connection.accept { server := s }).clientDone
    let d := ({} : ServerEnd).drain pieces.flatten
    (∃ last < d.requests.length,
        .close ∈ s.actionsAt last ∧ (∀ index < last, .close ∉ s.actionsAt index) ∧
        c.output = s.exchanges d.requests last ++ s.writtenUntilEnd last ∧
        c.outcome = .ok (d.requests.take (last + 1))) ∨
      (∀ index < d.requests.length, .close ∉ s.actionsAt index) ∧
        c.output = s.exchanges d.requests d.requests.length ∧
        c.outcome = match d.fault with
          | some fault => .error fault
          | none => if d.rest = [] then .ok d.requests else .error bytesRemaining := by
  have hears := hears_accept s pieces
  -- where the pieces end does not show in what is decoded
  have hpieces : ({} : ServerEnd).drainPieces pieces = ({} : ServerEnd).drain pieces.flatten := by
    have hlimit : defaultMessageLimit < maxSize := by decide
    calc ({} : ServerEnd).drainPieces pieces
        = .ofTaken (Framer.takePieces readRequests {} pieces) :=
          ServerEnd.drainPieces_eq_takePieces {} pieces
      _ = .ofTaken (Framer.takeAll readRequests {} pieces.flatten) :=
          congrArg Requests.ofTaken (Framer.takePieces_eq_takeAll (.of_exact (.inl hlimit)))
      _ = ({} : ServerEnd).drain pieces.flatten := (ServerEnd.drain_eq_takeAll {} _).symm
  rw [hpieces] at hears
  intro c d
  -- the client's end is looked at only if the connection is still alive
  cases hears with
  | ended last h =>
    have hdone : c = _ := finish_of_ended h.ending _
    refine .inl ⟨last, h.lt, h.ends, h.open_, ?_, ?_⟩
    · rw [hdone, h.output]
    · rw [hdone, outcome, h.ending, h.received]
  | failed fault hfault h hending =>
    have hdone : c = _ := finish_of_ended hending _
    refine .inr ⟨h.open_, ?_, ?_⟩
    · rw [hdone, h.output]
    · rw [hdone, outcome, hending, hfault]
  | live hlive h hfault hreader hundecoded =>
    have hdone : c = _ := finish_of_live hlive _
    refine .inr ⟨h.open_, ?_, ?_⟩
    · rw [hdone, h.output]
    · rw [hdone, outcome, hfault, hundecoded]
      -- bytes that are left are no whole request
      cases hrest : d.rest with
      | nil => exact congrArg Except.ok h.received
      | cons byte rest => rfl

end Connection

end BoardLink
