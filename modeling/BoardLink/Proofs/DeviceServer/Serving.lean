import BoardLink.Proofs.DeviceServer.Requests
import BoardLink.Proofs.Registry.Told

/-!
# A device server that follows a script of events

A server on whose schedule there are only events answers every request. What it does with a request
is told by its boards alone (`DeviceServer.serve`): the events that are scheduled in front of the
answer attach and detach boards, and then the request is answered.

* `DeviceServer.mem_serials_follow` — a server follows events as a registry does;
* `Connection.handle_of_open` — on a connection what is scheduled and the answer are written one
  behind the other, and nothing else happens.
-/

namespace BoardLink

open BoardLink.MessagePack BoardLink.Wire

/-! ### Boards in ascending order -/

theorem mem_map_putBoard {serial x : String} {b : Board} {boards : List (String × Board)} :
    x ∈ (putBoard serial b boards).map (·.1) ↔ x = serial ∨ x ∈ boards.map (·.1) := by
  induction boards with
  | nil => simp [putBoard]
  | cons entry rest ih =>
    obtain ⟨s, old⟩ := entry
    rw [putBoard]
    split
    next heq =>
      subst heq
      simp
    · split
      -- in front of all others, or behind the ones before it, by induction
      · simp
      · rw [List.map_cons, List.mem_cons, ih, List.map_cons, List.mem_cons]
        exact or_left_comm

theorem pairwise_putBoard {serial : String} {b : Board} {boards : List (String × Board)}
    (h : (boards.map (·.1)).Pairwise (· < ·)) :
    ((putBoard serial b boards).map (·.1)).Pairwise (· < ·) := by
  induction boards with
  | nil => exact List.pairwise_singleton _ _
  | cons entry rest ih =>
    obtain ⟨s, old⟩ := entry
    obtain ⟨hfirst, hrest⟩ := List.pairwise_cons.1 h
    rw [putBoard]
    split
    next heq =>
      subst heq
      exact h
    next hne =>
      split
      next hlt =>
        -- the new board comes first, and all others behind the old first one
        refine List.pairwise_cons.2 ⟨?_, h⟩
        intro x hx
        rcases List.mem_cons.1 hx with rfl | hx
        · exact hlt
        · exact lt_trans hlt (hfirst x hx)
      next hge =>
        -- the old first board stays, and the new one is put behind it
        refine List.pairwise_cons.2 ⟨?_, ih hrest⟩
        intro x hx
        rcases mem_map_putBoard.1 hx with rfl | hx
        · exact lt_of_le_of_ne (not_lt.1 hge) (Ne.symm hne)
        · exact hfirst x hx

namespace DeviceServer

/-- The serials of the attached boards. -/
def serials (s : DeviceServer) : List String := s.boards.map (·.1)

/-- The boards are kept in ascending order of their serials, one for each. -/
def Ascending (s : DeviceServer) : Prop := s.serials.Pairwise (· < ·)

theorem isSome_board?_iff {s : DeviceServer} {x : String} :
    (s.board? x).isSome ↔ x ∈ s.serials := by
  unfold board? serials
  induction s.boards with
  | nil => simp
  | cons entry rest ih =>
    rw [List.lookup_cons, List.map_cons, List.mem_cons, ← ih]
    -- the look-up stops at the first board with the serial
    cases hfirst : x == entry.1 with
    | true =>
      have heq : x = entry.1 := by simpa using hfirst
      simp [heq]
    | false =>
      have hne : ¬ x = entry.1 := by simpa using hfirst
      simp [hne]

theorem mem_serials_put {s : DeviceServer} {serial x : String} {b : Board} :
    x ∈ (s.put serial b).serials ↔ x = serial ∨ x ∈ s.serials := mem_map_putBoard

theorem Ascending.put {s : DeviceServer} (h : s.Ascending) (serial : String) (b : Board) :
    (s.put serial b).Ascending := pairwise_putBoard h

/-! ### Events -/

/-- The server after events in their order. -/
def followAll (s : DeviceServer) (events : List Event) : DeviceServer :=
  events.foldl (fun s e => s.follow (.event e)) s

/-- **A server follows an event as a set of serials does.** -/
theorem mem_serials_follow {s : DeviceServer} {e : Event} {x : String} :
    x ∈ (s.follow (.event e)).serials ↔ x ∈ e.follow s.serials := by
  cases e with
  | added serial =>
    show x ∈ (s.attach serial).serials ↔ x ∈ serial :: s.serials
    rw [attach, List.mem_cons]
    split
    next hpresent =>
      -- it is there already
      have hmem := isSome_board?_iff.1 hpresent
      constructor
      · exact .inr
      · rintro (rfl | hx)
        · exact hmem
        · exact hx
    · exact mem_serials_put
  | removed serial =>
    show x ∈ (s.boards.filter _).map (·.1) ↔ x ∈ (s.boards.map (·.1)).filter _
    rw [List.filter_map]
    exact Iff.rfl
  | changed serial addr port value => exact Iff.rfl

theorem Ascending.follow {s : DeviceServer} (h : s.Ascending) (e : Event) :
    (s.follow (.event e)).Ascending := by
  cases e with
  | added serial =>
    show (s.attach serial).Ascending
    rw [attach]
    split
    · exact h
    · exact h.put serial {}
  | removed serial => exact List.Pairwise.sublist (List.filter_sublist.map _) h
  | changed serial addr port value => exact h

theorem Ascending.followAll {s : DeviceServer} (h : s.Ascending) (events : List Event) :
    (s.followAll events).Ascending := by
  induction events generalizing s with
  | nil => exact h
  | cons e events ih => exact ih (h.follow e)

theorem mem_serials_followAll {s : DeviceServer} {events : List Event} {x : String} :
    x ∈ (s.followAll events).serials ↔ x ∈ Event.followAll s.serials events := by
  induction events generalizing s with
  | nil => exact Iff.rfl
  | cons e events ih =>
    have hcons : s.followAll (e :: events) = (s.follow (.event e)).followAll events := rfl
    rw [hcons, ih]
    exact Event.mem_followAll_congr events mem_serials_follow

/-! ### Requests -/

/-- A request leaves it alone which boards are attached. -/
theorem serials_answer {s : DeviceServer} (h : s.Ascending) (r : Request) :
    (s.answer r).2.serials = s.serials := by
  -- the device list only reads, and a board that is not there is refused
  unfold answer
  split
  · rfl
  next serial hserial =>
    split
    · rfl
    next b hb =>
      have hmem : serial ∈ s.serials := isSome_board?_iff.1 (by rw [hb]; rfl)
      -- the board that is put back was there before
      refine eq_of_ascending (h.put serial _) h fun x => ?_
      rw [mem_serials_put]
      exact or_iff_right_of_imp fun hx => hx ▸ hmem

theorem Ascending.answer {s : DeviceServer} (h : s.Ascending) (r : Request) :
    (s.answer r).2.Ascending := by
  have hserials := serials_answer h r
  unfold Ascending
  rwa [hserials]

/-- An answer of a server: success or failure, with a payload that has no depth. -/
theorem answer_flat (s : DeviceServer) (r : Request) :
    (s.answer r).1.rcode ≤ 0 ∧ ∀ v ∈ (s.answer r).1.payload, v.Flat 5 := by
  -- each payload is one value without depth, but for the list, whose serials have one more
  have hscalar : ∀ {v : Value}, v.Flat 3 → ∀ w ∈ [v], w.Flat 5 := by
    intro v hv w hw
    obtain rfl := List.mem_singleton.1 hw
    exact hv.mono (by decide)
  have hzero : (0 : Int64) ≤ 0 := by decide
  have hnegative : (-1 : Int64) ≤ 0 := by decide
  have hsuccess : ∀ {v : Value}, v.Flat 3 →
      (Answer.success v).rcode ≤ 0 ∧ ∀ w ∈ (Answer.success v).payload, w.Flat 5 :=
    fun hv => ⟨hzero, hscalar hv⟩
  have hfailure : ∀ message : String,
      (Answer.failure message).rcode ≤ 0 ∧ ∀ w ∈ (Answer.failure message).payload, w.Flat 5 :=
    fun message => ⟨hnegative, hscalar (Value.flat_str message)⟩
  unfold answer
  split
  -- the list of serials: an array of texts
  · refine ⟨hzero, fun w hw => ?_⟩
    obtain rfl := List.mem_singleton.1 hw
    refine Value.Flat.array fun v hv => ?_
    obtain ⟨entry, -, rfl⟩ := List.mem_map.1 hv
    exact Value.flat_str entry.1
  · split
    · exact hfailure "Unknown device"
    next b hb =>
      cases r with
      | deviceList => exact hfailure "Unknown device"
      | reprogram => exact hsuccess (Value.flat_bool true)
      | readReg => exact hsuccess (Value.flat_ofNat64 _)
      | writeReg serial addr port value =>
        -- the one request that a board may refuse
        show (Board.answer b _).1.rcode ≤ 0 ∧ _
        simp only [Board.answer]
        split
        next message hrefused => exact hfailure message
        · exact hsuccess Value.flat_nil
      | writeRegN | writeRaw => exact hsuccess Value.flat_nil
      | readRegN | readRaw => exact hsuccess (Value.flat_bin _)

/-! ### Scripts of events -/

/-- On the schedule there are only events. -/
def OnlyEvents (s : DeviceServer) : Prop := ∀ entry ∈ s.schedule, ∃ e, entry.2 = .send (.event e)

/-- The events that are scheduled in front of an answer. -/
def eventsAt (s : DeviceServer) (index : Nat) : List Event :=
  (s.actionsAt index).filterMap fun
    | .send (.event e) => some e
    | _ => none

/-- What the server does with the request of a number: the events in front of its answer, and then
the answer. -/
def serve (s : DeviceServer) (index : Nat) (r : Request) : Answer × DeviceServer :=
  (s.followAll (s.eventsAt index)).answer r

theorem OnlyEvents.actionsAt_eq {s : DeviceServer} (h : s.OnlyEvents) (index : Nat) :
    s.actionsAt index = (s.eventsAt index).map fun e => .send (.event e) := by
  have hactions : ∀ action ∈ s.actionsAt index, ∃ e, action = .send (.event e) := by
    intro action haction
    obtain ⟨entry, hentry, hat⟩ := List.mem_filterMap.1 haction
    obtain ⟨e, he⟩ := h entry hentry
    split at hat
    · exact ⟨e, (Option.some.inj hat).symm.trans he⟩
    · cases hat
  -- on the schedule every action sends an event, so none is left out
  unfold eventsAt
  generalize s.actionsAt index = actions at hactions
  induction actions with
  | nil => rfl
  | cons action actions ih =>
    obtain ⟨e, rfl⟩ := hactions action List.mem_cons_self
    exact congrArg (_ :: ·) (ih fun other hother => hactions other (List.mem_cons_of_mem _ hother))

theorem schedule_follow (s : DeviceServer) (e : Event) :
    (s.follow (.event e)).schedule = s.schedule := by
  cases e with
  | added serial =>
    show (s.attach serial).schedule = _
    rw [attach]
    split <;> rfl
  | removed serial | changed serial addr port value => rfl

theorem schedule_followAll (s : DeviceServer) (events : List Event) :
    (s.followAll events).schedule = s.schedule := by
  induction events generalizing s with
  | nil => rfl
  | cons e events ih => exact (ih _).trans (schedule_follow s e)

theorem schedule_answer (s : DeviceServer) (r : Request) : (s.answer r).2.schedule = s.schedule := by
  unfold answer
  split
  · rfl
  · split <;> rfl

/-- The schedule stays as it is. -/
theorem schedule_serve (s : DeviceServer) (index : Nat) (r : Request) :
    (s.serve index r).2.schedule = s.schedule :=
  (schedule_answer _ r).trans (schedule_followAll s _)

end DeviceServer

/-! ### On a connection -/

/-- What a server writes because of a request: events, and then the answer. -/
def Wire.replyPackets (events : List Event) (a : Answer) : List Packet :=
  events.map .event ++ [.answer a]

/-- What an action writes. -/
def Action.written : Action → Bytes
  | .send p => p.encode
  | .garbage bytes => bytes
  | .close => []

/-- The event that an action sends, if it sends one. -/
def Action.event? : Action → Option Event
  | .send (.event e) => some e
  | _ => none

theorem DeviceServer.eventsAt_eq (s : DeviceServer) (index : Nat) :
    s.eventsAt index = (s.actionsAt index).filterMap Action.event? := by
  refine List.filterMap_congr fun action _ => ?_
  match action with
  | .send (.event e) | .send (.answer a) | .send (.unknown rcode fields) | .garbage bytes | .close =>
    rfl

namespace Connection

/-- **Actions are done one behind the other**, as long as none of them ends the connection: the events
among them are followed, and all that they write is written. -/
theorem foldl_act_of_open {c : Connection} (hlive : c.ending = none) {actions : List Action}
    (hopen : .close ∉ actions) : actions.foldl act c =
      { c with
        server := c.server.followAll (actions.filterMap Action.event?)
        output := c.output ++ actions.flatMap Action.written } := by
  induction actions generalizing c with
  | nil =>
    show c = { c with server := c.server, output := c.output ++ [] }
    rw [List.append_nil]
  | cons action actions ih =>
    -- none of the actions closes, so the connection is live behind the first one
    obtain ⟨hfirst, hothers⟩ := not_or.1 (mt List.mem_cons.2 hopen)
    have hact : c.act action =
        { c with
          server := c.server.followAll ([action].filterMap Action.event?)
          output := c.output ++ action.written } := by
      unfold act
      rw [hlive]
      match action with
      | .send (.event e) | .send (.answer a) | .send (.unknown rcode fields) | .garbage bytes => rfl
      | .close => exact absurd rfl hfirst
    have hlater : (c.act action).ending = none := by rw [hact, hlive]
    -- what the first action does comes in front of what the others do
    rw [List.foldl_cons, ih hlater hothers, hact]
    simp only [List.flatMap_cons, List.append_assoc, DeviceServer.followAll, ← List.foldl_append,
      ← List.filterMap_append, List.singleton_append]

/-- **A request is answered** behind what is scheduled in front of its answer, unless that ends the
connection. -/
theorem handle_of_open {c : Connection} (hlive : c.ending = none)
    (hopen : .close ∉ c.server.actionsAt c.received.length) (r : Request) : c.handle r =
      { c with
        server := (c.server.serve c.received.length r).2
        received := c.received ++ [r]
        output := c.output ++ (c.server.actionsAt c.received.length).flatMap Action.written ++
          (Packet.answer (c.server.serve c.received.length r).1).encode } := by
  obtain ⟨server, reader, undecoded, received, output, ending⟩ := c
  obtain rfl : ending = none := hlive
  let counted : Connection := ⟨server, reader, undecoded, received ++ [r], output, none⟩
  -- the request is counted first, which the actions and the answer do not see
  show ((server.actionsAt received.length).foldl act counted).reply r = _
  rw [foldl_act_of_open rfl hopen, ← DeviceServer.eventsAt_eq]
  rfl

/-- If only events are scheduled, all that is written is packets. -/
theorem handle_of_onlyEvents {c : Connection} (hlive : c.ending = none) (h : c.server.OnlyEvents)
    (r : Request) : c.handle r =
      { c with
        server := (c.server.serve c.received.length r).2
        received := c.received ++ [r]
        output := c.output ++ encodePackets (replyPackets (c.server.eventsAt c.received.length)
          (c.server.serve c.received.length r).1) } := by
  have hactions := h.actionsAt_eq c.received.length
  have hopen : .close ∉ c.server.actionsAt c.received.length := by
    rw [hactions]
    simp
  have hencode : encodePackets (replyPackets (c.server.eventsAt c.received.length)
      (c.server.serve c.received.length r).1) =
        (c.server.actionsAt c.received.length).flatMap Action.written ++
          (Packet.answer (c.server.serve c.received.length r).1).encode := by
    rw [hactions, encodePackets, replyPackets, List.flatMap_append, List.flatMap_singleton,
      List.flatMap_map, List.flatMap_map]
    rfl
  rw [handle_of_open hlive hopen, hencode, List.append_assoc]

end Connection

end BoardLink
