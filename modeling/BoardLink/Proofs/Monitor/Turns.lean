import BoardLink.Proofs.Monitor.Boards
import BoardLink.Proofs.Session.Closing

/-!
# The turns of a monitor

A monitor works in turns. In the first one it lists the devices, and with that it may ask each board
for its state; then it takes what has arrived meanwhile. Each later turn is one poll. At the end of a
turn it prints a line for each notification that the turn has handed out, and describes it as the
session is by then.

So a run of a monitor is a run of operations, cut into turns (`Monitor.turns`), and what is known of
operations holds of it.

* `Monitor.run_of_connect` — what a monitor prints, turn by turn;
* `Monitor.error_run` — how a run ends: with the first poll that fails;
* `Monitor.nothing_queued` — a turn that hands out anything has begun with nothing queued, so what it
  hands out is told in this turn.
-/

namespace BoardLink

open BoardLink.Wire

namespace Monitor

open BoardLink.Faout Session

variable {τ : Type} [Transport τ]

/-- What a monitor prints, turn by turn: a line for each notification that it is handed in a turn, as
it is described at the end of the turn. -/
def linesIn : List (List Operation) → MonitorSession τ → List String
  | [], _ => []
  | turn :: turns, s =>
    (gather Operation.handed turn s).map (describe (after turn s)) ++ linesIn turns (after turn s)

/-- The reading of a status while one device is listed. -/
def reading (status : Bool) (serial : String) (s : MonitorSession τ) : List Operation :=
  if status && ((s.device? serial).bind (·.capability)).isSome then
    [.call (.readReg serial registersAddr statusPort)]
  else []

/-- The readings while devices are listed. -/
def readings (status : Bool) : List String → MonitorSession τ → List Operation
  | [], _ => []
  | serial :: others, s =>
    reading status serial s ++ readings status others (after (reading status serial s) s)

/-- Devices are listed without their states if they are not asked for. -/
theorem readings_false (serials : List String) (s : MonitorSession τ) :
    readings false serials s = [] := by
  induction serials with
  | nil => rfl
  | cons serial serials ih =>
    rw [readings]
    exact ih

/-- The turns of a monitor: one to list the devices, and then one for each poll. -/
def turns (status : Bool) (polls : Nat) (s : MonitorSession τ) : List (List Operation) :=
  (readings status s.devices s ++ [.take]) :: List.replicate polls [.poll]

/-! ### The first turn -/

/-- To read the status of a board is to read its status register. -/
theorem readStatus_snd {s : MonitorSession τ} {serial : String}
    (hpresent : s.registry.contains serial) :
    (readStatus serial s).2 =
      ((Operation.call (.readReg serial registersAddr statusPort)).run s).2 := by
  show (withDevice serial deviceStatus s).2 =
    ((Reply.word <$> Session.readReg serial registersAddr statusPort) s).2
  -- the handle passes the read on to its session, and decodes what it gets
  have hread : (deviceStatus : Access (DeviceHandle τ Tracker) Status) ⟨s, serial⟩ =
      match Session.readReg serial registersAddr statusPort s with
      | (.ok word, s') => (.ok (Status.ofWord word), ⟨s', serial⟩)
      | (.error e, s') => (.error e, ⟨s', serial⟩) := by
    let decode (word : UInt16) : Access (DeviceHandle τ Tracker) Status := pure (Status.ofWord word)
    show (ExceptT.bindCont decode (Session.readReg serial registersAddr statusPort s).1)
      ⟨(Session.readReg serial registersAddr statusPort s).2, serial⟩ = _
    rcases Session.readReg serial registersAddr statusPort s with ⟨e | word, s'⟩ <;> rfl
  rw [withDevice, if_pos hpresent, SessionM.map_apply, hread]
  rcases Session.readReg serial registersAddr statusPort s with ⟨e | word, s'⟩ <;> rfl

theorem listDevice_snd (status : Bool) (s : MonitorSession τ) (serial : String) :
    (listDevice status s serial).2 = after (reading status serial s) s := by
  unfold listDevice reading
  simp only
  split
  next hreads =>
    -- a device with a tracker is attached
    have hpresent : s.registry.contains serial := by
      by_contra habsent
      rw [device?, Registry.get?_eq_none_of_absent habsent] at hreads
      simp at hreads
    have hread := readStatus_snd hpresent
    -- a read that fails is printed as such, so the session behind it is the same either way
    generalize readStatus serial s = outcome at hread
    rcases outcome with ⟨e | word, s'⟩ <;> exact hread
  · rfl

theorem listDevices_snd (status : Bool) (s : MonitorSession τ) (serials : List String) :
    (listDevices status s serials).2 = after (readings status serials s) s := by
  induction serials generalizing s with
  | nil => rfl
  | cons serial serials ih =>
    -- each device is listed by the session that the readings in front of it have left
    rw [readings, after_append, ← ih, ← listDevice_snd]
    rfl

theorem printDevices_snd (status : Bool) (s : MonitorSession τ) :
    (printDevices status s).2 = after (readings status s.devices s) s := by
  unfold printDevices
  split
  next hnone =>
    rw [hnone]
    rfl
  -- with devices or without, a listing is the readings and nothing else
  · exact listDevices_snd status s s.devices

/-- While devices are listed nothing is handed out. -/
theorem handed_reading (status : Bool) (serial : String) (s : MonitorSession τ) :
    gather Operation.handed (reading status serial s) s = [] := by
  unfold reading
  split
  · -- a word is no notification, and neither is an error
    have hword : Operation.handed (.call (.readReg serial registersAddr statusPort)) s = [] := by
      show handedBy ((Reply.word <$> Session.readReg serial registersAddr statusPort) s).1 = []
      rw [SessionM.map_apply]
      rcases Session.readReg serial registersAddr statusPort s with ⟨e | word, s'⟩ <;> rfl
    rw [gather, gather, hword, List.append_nil]
  · rfl

theorem handed_readings (status : Bool) (serials : List String) (s : MonitorSession τ) :
    gather Operation.handed (readings status serials s) s = [] := by
  induction serials generalizing s with
  | nil => rfl
  | cons serial serials ih =>
    rw [readings, gather_append, handed_reading, ih, List.nil_append]

/-! ### Polls -/

theorem poll_snd (s : MonitorSession τ) : (Operation.poll.run s).2 = (pollEvents s).2 :=
  congrArg Prod.snd (SessionM.map_apply Reply.notifications pollEvents s)

theorem linesIn_polls_of_closed {s : MonitorSession τ} (hclosed : s.closed = true) (polls : Nat) :
    linesIn (List.replicate polls [.poll]) s = [] := by
  obtain ⟨hhanded, hafter⟩ := poll_of_closed hclosed
  induction polls with
  | zero => rfl
  | succ polls ih =>
    -- a poll of a session that has ended hands out nothing and changes nothing
    rw [List.replicate_succ, linesIn, hhanded, hafter, ih, List.map_nil, List.nil_append]

theorem after_polls_of_closed {s : MonitorSession τ} (hclosed : s.closed = true) (polls : Nat) :
    after (List.replicate polls .poll) s = s := by
  induction polls with
  | zero => rfl
  | succ polls ih =>
    show after (List.replicate polls .poll) (after [.poll] s) = s
    rw [(poll_of_closed hclosed).2, ih]

theorem follow_lines (polls : Nat) (s : MonitorSession τ) :
    (follow s polls).1.lines = linesIn (List.replicate polls [.poll]) s := by
  induction polls generalizing s with
  | zero => rfl
  | succ polls ih =>
    have hrun : Operation.poll.run s =
        (Reply.notifications <$> (pollEvents s).1, (pollEvents s).2) :=
      SessionM.map_apply Reply.notifications pollEvents s
    rw [List.replicate_succ, linesIn, gather, gather, List.append_nil, Operation.handed]
    show _ = _ ++ linesIn _ (Operation.poll.run s).2
    rw [follow, show after [.poll] s = (Operation.poll.run s).2 from rfl, hrun]
    rcases hpoll : (pollEvents : SessionM τ Tracker (List Notification)) s with
      ⟨e | notifications, s'⟩
    · -- the session has ended, so nothing would be printed in the turns that are left
      exact (linesIn_polls_of_closed (closed_of_pollEvents_error hpoll) polls).symm
    · simp only
      rw [ih]
      rfl

/-- What a monitor makes of its session by polling is what the polls make of it. -/
theorem follow_snd (polls : Nat) (s : MonitorSession τ) :
    (follow s polls).2 = after (List.replicate polls .poll) s := by
  induction polls generalizing s with
  | zero => rfl
  | succ polls ih =>
    show _ = after (List.replicate polls .poll) (Operation.poll.run s).2
    rw [follow, poll_snd]
    rcases hpoll : (pollEvents : SessionM τ Tracker (List Notification)) s with
      ⟨e | notifications, s'⟩
    · -- the polls that are left find the session ended
      exact (after_polls_of_closed (closed_of_pollEvents_error hpoll) polls).symm
    · exact ih s'

/-- **A monitor polls until a poll fails**, and before each poll it has taken all that was queued. -/
theorem follow_error {s : MonitorSession τ} (hnone : s.registry.notifications = []) (polls : Nat) :
    match (follow s polls).1.error with
    | none => (follow s polls).2.registry.notifications = []
    | some e => ∃ done < polls, (after (List.replicate done .poll) s).registry.notifications = [] ∧
        pollEvents (after (List.replicate done .poll) s) = (.error e, (follow s polls).2) := by
  induction polls generalizing s with
  | zero => exact hnone
  | succ polls ih =>
    rw [follow]
    rcases hpoll : (pollEvents : SessionM τ Tracker (List Notification)) s with
      ⟨e | notifications, s'⟩
    · -- the first poll fails, in front of which nothing was queued
      exact ⟨0, Nat.succ_pos polls, hnone, hpoll⟩
    -- a poll that goes on has handed out all that was queued, so the next one begins with nothing
    · have hrun : (Operation.poll.run s).2 = s' := by rw [poll_snd, hpoll]
      have hlater := ih (notifications_of_pollEvents_ok hpoll)
      simp only
      cases herror : (follow s' polls).1.error with
      | none => simpa only [herror] using hlater
      | some e =>
        simp only [herror] at hlater
        obtain ⟨done, hdone, htaken, hfails⟩ := hlater
        -- one poll was made before those
        refine ⟨done + 1, Nat.succ_lt_succ hdone, ?_⟩
        rw [List.replicate_succ, show after (.poll :: List.replicate done .poll) s =
          after (List.replicate done .poll) (Operation.poll.run s).2 from rfl, hrun]
        exact ⟨htaken, hfails⟩

/-! ### A run -/

/-- The devices that are there on connection are not reported. -/
theorem takeNotifications_connected {transport : τ} {config : Config} {serials : List String}
    {connected : MonitorSession τ}
    (h : connect transport config none capabilities = (.ok serials, connected)) :
    connected.takeNotifications.2 =
      after [.call .deviceList, .take] (create transport config none capabilities) := by
  rw [connect_ok h]
  rfl

/-- **What a monitor does once it is connected.** -/
theorem run_of_connect {transport : τ} {config : Config} {serials : List String}
    {connected : MonitorSession τ}
    (h : connect transport config none capabilities = (.ok serials, connected))
    (status : Bool) (polls : Nat) :
    let s := after [.call .deviceList, .take] (create transport config none capabilities)
    let listed := after (readings status s.devices s ++ [.take]) s
    run transport config status polls =
      (⟨(printDevices status s).1 ++ linesIn (turns status polls s) s, (follow listed polls).1.error⟩,
        (follow listed polls).2) := by
  intro s listed
  have hs : connected.takeNotifications.2 = s := takeNotifications_connected h
  have hlisted := printDevices_snd status s
  -- the first turn ends with what has arrived while the devices were listed
  have hfirst : gather Operation.handed (readings status s.devices s ++ [.take]) s =
      (printDevices status s).2.takeNotifications.1 := by
    rw [gather_concat, handed_readings, ← hlisted]
    rfl
  have hthen : listed = (printDevices status s).2.takeNotifications.2 := by
    show after (readings status s.devices s ++ [.take]) s = _
    rw [after_append, ← hlisted]
    rfl
  have hlines : linesIn (turns status polls s) s =
      (printDevices status s).2.takeNotifications.1.map (describe listed) ++
        (follow listed polls).1.lines := by
    rw [turns, linesIn, hfirst, ← follow_lines]
  rw [run, h, hlines, hthen, ← List.append_assoc, ← hs]
  rfl

/-- Without a connection a monitor prints nothing. -/
theorem lines_eq (transport : τ) (config : Config) (status : Bool) (polls : Nat) :
    let s := after [.call .deviceList, .take] (create transport config none capabilities)
    (run transport config status polls).1.lines =
      match (connect transport config none capabilities).1 with
      | .error _ => []
      | .ok _ => (printDevices status s).1 ++ linesIn (turns status polls s) s := by
  -- a monitor that cannot connect prints nothing, and one that is connected prints turn by turn
  intro s
  rcases hconnect : connect transport config none capabilities with ⟨e | serials, connected⟩
  · rw [run, hconnect]
  · rw [run_of_connect hconnect]

/-- The turns are made one behind the other. -/
theorem after_turns (status : Bool) (polls : Nat) (s : MonitorSession τ) :
    after (turns status polls s).flatten s =
      after (List.replicate polls .poll) (after (readings status s.devices s ++ [.take]) s) := by
  rw [turns, List.flatten_cons, List.flatten_replicate_singleton, after_append]

/-- **How a run ends.** A monitor that is still running has nothing queued, and one that has ended
has done so with the first poll that failed. -/
theorem error_run {transport : τ} {config : Config} {serials : List String}
    {connected : MonitorSession τ}
    (h : connect transport config none capabilities = (.ok serials, connected))
    (status : Bool) (polls : Nat) :
    let s₁ := after [.call .deviceList, .take] (create transport config none capabilities)
    let last := (run transport config status polls).2
    last = after (turns status polls s₁).flatten s₁ ∧
      match (run transport config status polls).1.error with
      | none => last.registry.notifications = []
      | some e => ∃ done < polls,
        let s := after (turns status done s₁).flatten s₁
        s.registry.notifications = [] ∧ pollEvents s = (.error e, last) := by
  intro s₁ last
  -- the first turn hands out what has arrived while the devices were listed
  have hnone : (after (readings status s₁.devices s₁ ++ [.take]) s₁).registry.notifications = [] := by
    rw [after_append]
    rfl
  have hends := follow_error hnone polls
  simp only [last, run_of_connect h, after_turns]
  exact ⟨follow_snd polls _, hends⟩

/-- A turn ends by handing out all that is queued, unless the connection ends. -/
theorem closed_or_handed {op : Operation} (hop : op = .take ∨ op = .poll) (s : MonitorSession τ) :
    (op.run s).2.closed = true ∨ (op.run s).2.registry.notifications = [] := by
  rcases hop with rfl | rfl
  · exact .inr rfl
  · -- a poll that returns has handed out its queue, and one that fails has ended the session
    rw [poll_snd]
    rcases hpoll : (pollEvents : SessionM τ Tracker (List Notification)) s with
      ⟨e | notifications, s'⟩
    · exact .inl (closed_of_pollEvents_error hpoll)
    · exact .inr (notifications_of_pollEvents_ok hpoll)

/-- Behind the first turn there are only polls. -/
theorem eq_poll_of_turns {status : Bool} {polls : Nat} {s : MonitorSession τ}
    {done later : List (List Operation)} {turn : List Operation} (hdone : done ≠ [])
    (hturns : turns status polls s = done ++ turn :: later) : turn = [.poll] := by
  cases done with
  | nil => exact absurd rfl hdone
  | cons first done =>
    have hpolls : List.replicate polls [Operation.poll] = done ++ turn :: later :=
      (List.cons.inj hturns).2
    exact List.eq_of_mem_replicate (hpolls ▸ List.mem_append_right _ List.mem_cons_self)

/-- So a turn that hands out notifications has begun with none. -/
theorem nothing_queued {status : Bool} {polls : Nat} {s₁ : MonitorSession τ}
    (hnone : s₁.registry.notifications = []) {done later : List (List Operation)}
    {turn : List Operation} (hturns : turns status polls s₁ = done ++ turn :: later)
    (hsome : gather Operation.handed turn (after done.flatten s₁) ≠ []) :
    (after done.flatten s₁).registry.notifications = [] := by
  rcases done.eq_nil_or_concat with rfl | ⟨done, last, rfl⟩
  · -- in front of the first turn nothing is queued
    exact hnone
  · obtain rfl := eq_poll_of_turns (by simp) hturns
    -- the turn before ends with the operation that hands out
    obtain ⟨ops, op, rfl, hop⟩ : ∃ ops op, last = ops ++ [op] ∧ (op = .take ∨ op = .poll) := by
      have hmem : last ∈ turns status polls s₁ := by
        rw [hturns]
        simp
      rcases List.mem_cons.1 hmem with rfl | hlast
      · exact ⟨_, _, rfl, .inl rfl⟩
      · exact ⟨[], .poll, List.eq_of_mem_replicate hlast, .inr rfl⟩
    have hlast : after (done.concat (ops ++ [op])).flatten s₁ =
        (op.run (after (done.flatten ++ ops) s₁)).2 := by
      rw [List.concat_eq_append, List.flatten_append, List.flatten_singleton, ← List.append_assoc,
        after_append]
      rfl
    rw [hlast] at hsome ⊢
    rcases closed_or_handed hop (after (done.flatten ++ ops) s₁) with hclosed | hhanded
    · exact absurd (poll_of_closed hclosed).1 hsome
    · exact hhanded

end Monitor

end BoardLink
