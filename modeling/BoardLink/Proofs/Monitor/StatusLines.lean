import BoardLink.Proofs.Monitor.Turns
import BoardLink.Proofs.Session.Exchanges
import BoardLink.Proofs.Session.Scripted
import BoardLink.Proofs.Wire.Packets

/-!
# The status lines of a monitor

Below the line of a status change a monitor shows the status of the board, and for that it asks the
board as it is at the end of the turn. So what is shown is not what this change has reported, but
what is known of the board once the turn is over: the last status that it has reported in this turn,
or nothing if it has disappeared since. The two are the same where a turn brings no other status of
the board and does not end without it.

* `Monitor.describe_handed` — what is shown below one status change;
* `Monitor.lines_run` — what is shown below each status change of a run.
-/

namespace BoardLink

open BoardLink.Wire

namespace Monitor

open BoardLink.Faout Session

variable {τ : Type}

/-- What is shown below the line of a status change. -/
def below : Option Status → String
  | some status => "\n" ++ statusLine status
  | none => ""

theorem below_eq_below_some_iff {shown : Option Status} {status : Status} :
    below shown = below (some status) ↔ shown.map Status.text = some status.text := by
  cases shown with
  | none =>
    -- a status is shown on a line of its own, so it is never nothing
    have hne : "" ≠ "\n" ++ statusLine status := by
      intro h
      have hlist := congrArg String.toList h
      simp at hlist
    exact ⟨fun h => absurd h hne, fun h => by cases h⟩
  | some other =>
    show "\n" ++ ("    " ++ other.text) = "\n" ++ ("    " ++ status.text) ↔ _
    rw [String.append_right_inj, String.append_right_inj, Option.map_some, Option.some_inj]

/-- Below a status change the status is shown that is known of the board. -/
theorem describe_status (s : MonitorSession τ) (x : String) (v : UInt16) :
    let n : Notification := .registerChanged x registersAddr statusPort v
    describe s n = n.text ++ below (known? s.registry x).join := by
  -- the status below the line is looked up in the device, and is what is known of the board
  have hknown : ((s.device? x).bind (·.capability)).bind (·.lastStatus) =
      (known? s.registry x).join := by
    rw [device?, known?]
    cases s.registry.get? x <;> rfl
  intro n
  show (match ((s.device? x).bind (·.capability)).bind (·.lastStatus) with
    | some status => n.text ++ "\n" ++ statusLine status
    | none => n.text) = _
  rw [hknown]
  cases (known? s.registry x).join with
  | none => exact String.append_empty.symm
  | some status => exact String.append_assoc

variable [Transport τ]

/-- A monitor's session has a registry of boards. -/
theorem boards_after (transport : τ) (config : Config) (operations : List Operation) :
    Boards (after operations (create transport config none capabilities)).registry := by
  have hfresh : Boards (create transport config none capabilities).registry :=
    ⟨rfl, fun d hd => absurd hd List.not_mem_nil⟩
  rw [(registry_after operations (create transport config none capabilities)).registry]
  exact ⟨(hfresh.applyAll _).table, (hfresh.applyAll _).tracked⟩

/-- **What is shown below a status change** that is handed out in a turn is what is known of the
board at the end of the turn: from the status that was reported on, what the later events of the turn
make of it. -/
theorem describe_handed {s : MonitorSession τ} (hboards : Boards s.registry)
    (hnone : s.registry.notifications = []) {turn : List Operation}
    {before behind : List Notification} {x : String} {v : UInt16}
    (h : gather Operation.handed turn s =
      before ++ .registerChanged x registersAddr statusPort v :: behind) :
    ∃ earlier rest, gather Operation.events turn s =
        earlier ++ .changed x registersAddr statusPort v :: rest ∧
      s.registry.told earlier = before ∧
      ((((s.registry.applyAll earlier).get? x).bind (·.capability)).isSome →
        describe (after turn s) (.registerChanged x registersAddr statusPort v) =
          (Notification.registerChanged x registersAddr statusPort v).text ++
            below (rest.foldl (restate x) (some (some (Status.ofWord v)))).join) := by
  have hfollows := registry_after turn s
  -- what is handed out is the front of what the registry tells in this turn
  have htold : s.registry.told (gather Operation.events turn s) =
      before ++ .registerChanged x registersAddr statusPort v ::
        (behind ++ (after turn s).registry.notifications) := by
    have hlog := hfollows.log
    rw [Registry.notifications_applyAll, hnone, List.nil_append, h, List.append_assoc] at hlog
    exact hlog.symm
  obtain ⟨earlier, e, rest, hevents, hbefore, htells⟩ := Registry.told_eq_append_cons htold
  obtain rfl := Registry.tells_eq_registerChanged htells
  refine ⟨earlier, rest, hevents, hbefore, fun htracked => ?_⟩
  have hthen := hboards.applyAll earlier
  -- a device with a tracker is a board, so what is known of it follows the events
  obtain ⟨t, ht⟩ := Option.isSome_iff_exists.1 htracked
  obtain ⟨hx, hknown⟩ := hthen.of_tracker ht
  have hlast : known? (after turn s).registry x =
      rest.foldl (restate x) (some (some (Status.ofWord v))) := by
    have hregistry : known? (after turn s).registry x =
        known? (s.registry.applyAll (gather Operation.events turn s)) x := by
      rw [hfollows.registry]
      rfl
    have hreports : restate x (some t.lastStatus) (.changed x registersAddr statusPort v) =
        some (some (Status.ofWord v)) := if_pos ⟨rfl, rfl, rfl⟩
    rw [hregistry, hevents, Registry.applyAll_append, hthen.known?_applyAll hx, List.foldl_cons,
      hknown, hreports]
  rw [describe_status, hlast]

/-- Where nothing else is reported about a board, what was known of it is still known. -/
theorem foldl_restate {x : String} {known : Option Status} {events : List Event}
    (h : ∀ e ∈ events, e ≠ .removed x ∧ ∀ w, e ≠ .changed x registersAddr statusPort w) :
    events.foldl (restate x) (some known) = some known := by
  induction events with
  | nil => rfl
  | cons e events ih =>
    obtain ⟨⟨hremoved, hchanged⟩, hothers⟩ := List.forall_mem_cons.1 h
    -- the event is about another device, or about no status
    have hsame : restate x (some known) e = some known := by
      cases e with
      | added y => exact ite_self _
      | removed y => exact if_neg fun hy => hremoved (by rw [hy])
      | changed y addr port w =>
        refine if_neg ?_
        rintro ⟨rfl, rfl, rfl⟩
        exact hchanged w rfl
    rw [List.foldl_cons, hsame, ih hothers]

section Script

/-! ### A script that begins with a list of devices -/

variable {listed : Answer} {b : UInt8} {block : Bytes}

theorem accepts_scripted {t : Scripted} (heager : Eager t) (bytes : Bytes) :
    ∃ t', Accepts t bytes t' ∧ t'.arrivals = t.arrivals ∧ Eager t' := by
  cases bytes with
  | nil => exact ⟨t, .all t, rfl, heager⟩
  | cons c rest =>
    let sent : Scripted := { t with sender.accepted := t.sender.accepted ++ c :: rest }
    have hsend : Transport.send t (c :: rest) = (.ok (rest.length + 1), sent) := by
      show ((t.sender.send (c :: rest)).1, { t with sender := (t.sender.send (c :: rest)).2 }) = _
      rw [Sender.send_all heager.1 heager.2]
      rfl
    exact ⟨sent, .some hsend (by simpa using Accepts.all sent), rfl, heager⟩

/-- What a session over a script does with an exchange whose reply arrives in one block. -/
theorem call_of_script {s : MonitorSession Scripted} {events : List Event} {a : Answer}
    {arrivals : List Arrival} (r : Request) (hopen : s.closed = false)
    (hinbox : s.inbox = .withLimit MessagePack.defaultMessageLimit) (hnone : s.answers = [])
    (heager : Eager s.transport) (harrivals : s.transport.arrivals = .data (b :: block) :: arrivals)
    (hbytes : encodePackets (replyPackets events a) = b :: block)
    (hsize : block.length < s.config.bufferSize)
    (hgets : ∀ p ∈ replyPackets events a,
      readPackets.Gets MessagePack.defaultMessageLimit p.toValue p) :
    ∃ transport s', call r s = (answerOutcome a, s') ∧ s.Exchanged events transport s' ∧
      transport.arrivals = arrivals ∧ Eager transport := by
  obtain ⟨sent, haccepts, hsent, heager'⟩ := accepts_scripted heager r.encode
  let received : Scripted := { sent with arrivals, receives := sent.receives + 1 }
  -- the reply arrives in one receive, as it fits
  have hdelivers : Delivers s.config.bufferSize sent (encodePackets (replyPackets events a))
      received := by
    have hreceive :=
      receive_scripted (s := { s with transport := sent }) (hsent.trans harrivals) hsize
    rw [hbytes, ← List.append_nil (b :: block)]
    exact .some rfl hreceive (.all _)
  obtain ⟨s', hcall, hexchanged⟩ :=
    call_of_delivers (by decide) hopen hinbox hnone hgets haccepts hdelivers
  exact ⟨received, s', hcall, hexchanged, rfl, heager'⟩

/-- A session over such a script gets the list and adopts it, and nothing else is left of the
exchange. -/
theorem run_deviceList_scripted {serials : List String} (arrivals : List Arrival)
    (hbytes : encodePackets [.answer listed] = b :: block) (hsize : block.length < 8192)
    (hread : listed.serials = .ok serials) (hrcode : ¬ listed.rcode < 0)
    (hgets : readPackets.Gets MessagePack.defaultMessageLimit (Packet.answer listed).toValue
      (.answer listed)) :
    let s₀ : MonitorSession Scripted :=
      create { arrivals := .data (b :: block) :: arrivals } {} none capabilities
    ∃ s, Call.deviceList.run s₀ = (.ok (.serials serials), s) ∧ s.closed = false ∧
      s.inbox = .withLimit MessagePack.defaultMessageLimit ∧ s.config = {} ∧ s.answers = [] ∧
      s.transport.arrivals = arrivals ∧ Eager s.transport ∧
      s.registry = s₀.registry.reconcile serials := by
  intro s₀
  have halone : replyPackets [] listed = [.answer listed] := rfl
  rw [← halone] at hbytes
  have hreply : ∀ p ∈ replyPackets [] listed,
      readPackets.Gets MessagePack.defaultMessageLimit p.toValue p := by
    simpa [halone] using hgets
  obtain ⟨transport, s', hcall, hexchanged, harrivals, heager⟩ :=
    call_of_script (s := s₀) .deviceList rfl rfl rfl ⟨rfl, rfl⟩ rfl hbytes hsize hreply
  rw [answerOutcome, if_neg hrcode] at hcall
  have hrun := Call.run_of_answer (c := .deviceList) rfl hcall
  have hlist : Call.deviceList.read listed = .ok (.serials serials) := by
    rw [Call.read, hread]
    rfl
  -- the list settles the registry, and leaves the rest as the exchange has left it
  obtain ⟨hook, queued, hadopt⟩ := adopt_eq s' (s'.registry.reconcile serials)
  have hsettle : s'.settle (.ok (.serials serials)) =
      { s' with registry := s'.registry.reconcile serials, hook, queued } := hadopt
  rw [hlist, hsettle] at hrun
  obtain rfl : s'.transport = transport := hexchanged.transport
  exact ⟨_, hrun, hexchanged.closed, hexchanged.inbox, hexchanged.config, hexchanged.answers,
    harrivals, heager, congrArg (·.reconcile serials) hexchanged.registry⟩

/-- So a monitor gets its connection, -/
theorem connect_scripted {serials : List String} (arrivals : List Arrival)
    (hbytes : encodePackets [.answer listed] = b :: block) (hsize : block.length < 8192)
    (hread : listed.serials = .ok serials) (hrcode : ¬ listed.rcode < 0)
    (hgets : readPackets.Gets MessagePack.defaultMessageLimit (Packet.answer listed).toValue
      (.answer listed)) :
    ∃ s, connect (τ := Scripted) { arrivals := .data (b :: block) :: arrivals } {} none capabilities =
      (.ok serials, s) := by
  obtain ⟨s, hrun, -⟩ := run_deviceList_scripted arrivals hbytes hsize hread hrcode hgets
  let s₀ : MonitorSession Scripted :=
    create { arrivals := .data (b :: block) :: arrivals } {} none capabilities
  have hlist : (Reply.serials <$> getDeviceList) s₀ = (.ok (.serials serials), s) := hrun
  rw [SessionM.map_apply] at hlist
  obtain ⟨hreply, -⟩ := Prod.mk.inj hlist
  -- the reply is a list of serials, and these are the ones found
  obtain ⟨found, hfound, hsame⟩ := map_eq_ok_iff.1 hreply
  obtain rfl : found = serials := Reply.serials.inj hsame
  exact ⟨_, Prod.ext hfound rfl⟩

/-- and has discarded by then that the devices have appeared. -/
theorem after_listing_scripted {serials : List String} (arrivals : List Arrival)
    (hbytes : encodePackets [.answer listed] = b :: block) (hsize : block.length < 8192)
    (hread : listed.serials = .ok serials) (hrcode : ¬ listed.rcode < 0)
    (hgets : readPackets.Gets MessagePack.defaultMessageLimit (Packet.answer listed).toValue
      (.answer listed)) :
    let s₀ : MonitorSession Scripted :=
      create { arrivals := .data (b :: block) :: arrivals } {} none capabilities
    let s := after [.call .deviceList, .take] s₀
    s.closed = false ∧ s.inbox = .withLimit MessagePack.defaultMessageLimit ∧ s.config = {} ∧
      s.answers = [] ∧ s.transport.arrivals = arrivals ∧ Eager s.transport ∧
      s.registry = (s₀.registry.reconcile serials).takeNotifications.2 := by
  obtain ⟨s, hrun, hopen, hinbox, hconfig, hanswers, harrivals, heager, hregistry⟩ :=
    run_deviceList_scripted arrivals hbytes hsize hread hrcode hgets
  intro s₀
  -- the notifications are taken, and nothing else of the session
  have hafter : after [.call .deviceList, .take] s₀ = s.takeNotifications.2 := by
    show (Call.deviceList.run s₀).2.takeNotifications.2 = _
    rw [hrun]
  show (after [.call .deviceList, .take] s₀).closed = false ∧ _
  rw [hafter]
  refine ⟨hopen, hinbox, hconfig, hanswers, harrivals, heager, ?_⟩
  exact congrArg (·.takeNotifications.2) hregistry

/-- If one device is listed, it is attached then. -/
theorem after_deviceList_scripted {x : String} (arrivals : List Arrival)
    (hbytes : encodePackets [.answer listed] = b :: block) (hsize : block.length < 8192)
    (hread : listed.serials = .ok [x]) (hrcode : ¬ listed.rcode < 0)
    (hgets : readPackets.Gets MessagePack.defaultMessageLimit (Packet.answer listed).toValue
      (.answer listed)) :
    let s := after [.call .deviceList, .take]
      (create (τ := Scripted) { arrivals := .data (b :: block) :: arrivals } {} none capabilities)
    s.closed = false ∧ s.inbox = .withLimit MessagePack.defaultMessageLimit ∧ s.config = {} ∧
      s.transport.arrivals = arrivals ∧
      s.registry = ⟨[⟨x, capabilities.instantiate? x⟩], none, capabilities, [], 0⟩ := by
  obtain ⟨hopen, hinbox, hconfig, -, harrivals, -, hregistry⟩ :=
    after_listing_scripted arrivals hbytes hsize hread hrcode hgets
  refine ⟨hopen, hinbox, hconfig, harrivals, ?_⟩
  rw [show Session.registry _ = _ from hregistry]
  simp [create, Registry.takeNotifications, Registry.reconcile, Registry.addAll, Registry.add,
    Registry.contains, Registry.notify, Registry.removeAll, Registry.table, sortSerials]

end Script

/-- **What a monitor shows below a status change.** A monitor prints the devices, and then, turn by
turn, a line for each notification that it is handed. Take a notification of status `v` of board `x`
that is handed out in any turn of any run, and the event that it tells, with the events of the same
turn in front of it and behind it. If the device had a tracker when the event was applied, then below
the notification stands the status that is known of the board at the end of the turn: the last one
that it has reported by then, or none if it has disappeared since and has not reported again.

It is the status that the line itself shows exactly if these two are written alike. They are the same
if no later event of the turn reports another status of the board or that it has disappeared. -/
theorem lines_run (transport : τ) (config : Config) (status : Bool) (polls : Nat) :
    let s₁ := after [.call .deviceList, .take] (create transport config none capabilities)
    ((run transport config status polls).1.lines =
      match (connect transport config none capabilities).1 with
      | .error _ => []
      | .ok _ => (printDevices status s₁).1 ++ linesIn (turns status polls s₁) s₁) ∧
    ∀ done turn later, turns status polls s₁ = done ++ turn :: later →
      let s := after done.flatten s₁
      ∀ before behind (x : String) (v : UInt16),
        let n : Notification := .registerChanged x registersAddr statusPort v
        gather Operation.handed turn s = before ++ n :: behind →
          ∃ earlier rest,
            gather Operation.events turn s =
              earlier ++ .changed x registersAddr statusPort v :: rest ∧
            s.registry.told earlier = before ∧
            ((((s.registry.applyAll earlier).get? x).bind (·.capability)).isSome →
              let shown := (rest.foldl (restate x) (some (some (Status.ofWord v)))).join
              let line := describe (after turn s) n
              line = n.text ++ below shown ∧
              (line = n.text ++ below (some (Status.ofWord v)) ↔
                shown.map Status.text = some (Status.ofWord v).text) ∧
              ((∀ e ∈ rest, e ≠ .removed x ∧ ∀ w, e ≠ .changed x registersAddr statusPort w) →
                shown = some (Status.ofWord v))) := by
  intro s₁
  refine ⟨lines_eq transport config status polls, ?_⟩
  intro done turn later hturns s before behind x v n hhanded
  have hsome : gather Operation.handed turn s ≠ [] := by
    rw [hhanded]
    simp
  -- a run of a monitor is one of its session, and keeps a registry of boards
  have hboards : Boards s.registry := by
    have hwhole : s = after ([.call .deviceList, .take] ++ done.flatten)
        (create transport config none capabilities) := by
      rw [after_append]
    rw [hwhole]
    exact boards_after transport config _
  obtain ⟨earlier, rest, hevents, hbefore, hline⟩ :=
    describe_handed hboards (nothing_queued rfl hturns hsome) hhanded
  refine ⟨earlier, rest, hevents, hbefore, fun htracked => ⟨hline htracked, ?_, fun hquiet => ?_⟩⟩
  · rw [hline htracked, String.append_right_inj]
    exact below_eq_below_some_iff
  -- no later event of the turn concerns what is known of the board
  · rw [foldl_restate hquiet]
    rfl

/-- A board reports two states in one piece. Below both of them the monitor shows the second one. -/
theorem lines_run_twoReports :
    let x := "FAOUT-01"
    let listed : Answer := .success (.array [.str x])
    let reports : List Event := [.changed x 0 1 8, .changed x 0 1 16]
    let transport : Scripted := { arrivals := [.data (encodePackets [.answer listed]),
      .data (encodePackets (reports.map .event))] }
    let s := after [.call .deviceList, .take, .take] (create transport {} none capabilities)
    let n : Notification := .registerChanged x 0 1 8
    gather Operation.handed [.poll] s = [n, .registerChanged x 0 1 16] ∧
      describe (after [.poll] s) n = n.text ++ below (some (Status.ofWord 16)) ∧
      describe (after [.poll] s) n ≠ n.text ++ below (some (Status.ofWord 8)) := by
  intro x listed reports transport s n
  have hlisted : encodePackets [.answer listed] = 0x92 :: (encodePackets [.answer listed]).tail := by
    decide
  have hreports : encodePackets (reports.map .event) =
      0x95 :: (encodePackets (reports.map .event)).tail := by decide
  -- the device is attached, and the reports are the next that arrives
  have hgets : readPackets.Gets MessagePack.defaultMessageLimit (Packet.answer listed).toValue
      (.answer listed) :=
    Packet.gets_of_length (by decide : (0 : Int64) ≤ 0) rfl (by decide) (by decide) (by decide)
  obtain ⟨hopen, hinbox, hconfig, harrivals, hregistry⟩ :=
    after_deviceList_scripted [.data (encodePackets (reports.map .event))] hlisted (by decide) rfl
      (by decide) hgets
  rw [← hlisted] at hopen hinbox hconfig harrivals hregistry
  let s₁ : MonitorSession Scripted :=
    after [.call .deviceList, .take] (create transport {} none capabilities)
  have hturns : turns false 1 s₁ = [[.take]] ++ [.poll] :: [] := by
    rw [turns, readings_false]
    rfl
  have hattached : s.registry = ⟨[⟨x, capabilities.instantiate? x⟩], none, capabilities, [], 0⟩ :=
    congrArg (fun r : Registry Tracker => { r with notifications := [] }) hregistry
  -- one poll receives both reports
  have hchanges : ∀ p ∈ reports.map Packet.event,
      readPackets.Gets MessagePack.defaultMessageLimit p.toValue p := by
    simp only [reports, List.map_cons, List.map_nil, List.forall_mem_cons]
    refine ⟨Packet.gets_of_length trivial rfl (by decide) (by decide) (by decide),
      Packet.gets_of_length trivial rfl (by decide) (by decide) (by decide), ?_⟩
    exact fun p hp => absurd hp List.not_mem_nil
  have hdrain : (s.inbox.feed (0x95 :: (encodePackets (reports.map .event)).tail)).drain =
      (⟨reports.map .event, none⟩, .withLimit MessagePack.defaultMessageLimit) := by
    rw [← hreports, show s.inbox = _ from hinbox]
    exact Inbox.drain_encodePackets (by decide) hchanges
  have hnext : s.transport.arrivals =
      [.data (0x95 :: (encodePackets (reports.map .event)).tail)] := by
    rw [← hreports]
    exact harrivals
  have hsize : (encodePackets (reports.map .event)).tail.length < s.config.bufferSize := by
    rw [show s.config = {} from hconfig]
    decide
  have hreceive := receive_scripted hnext hsize
  obtain ⟨hpoll, hevents⟩ := poll_of_receive (s := s) hopen rfl hreceive hdrain
  have hhanded : gather Operation.handed [.poll] s = [n, .registerChanged x 0 1 16] := by
    rw [gather, gather, List.append_nil, hpoll, hattached]
    rfl
  have hreported : gather Operation.events [.poll] s = reports := by
    rw [gather, gather, List.append_nil, hevents]
    rfl
  obtain ⟨-, hlines⟩ := lines_run transport {} false 1
  obtain ⟨earlier, rest, hsplit, -, hline⟩ :=
    hlines [[.take]] [.poll] [] hturns [] [.registerChanged x 0 1 16] x 8 hhanded
  -- the notification tells the first report, and the second one is behind it
  obtain ⟨rfl, rfl⟩ : earlier = [] ∧ rest = [.changed x 0 1 16] := by
    have hparts : reports = earlier ++ .changed x 0 1 8 :: rest := hreported.symm.trans hsplit
    rcases earlier with - | ⟨e, - | ⟨e', earlier⟩⟩
    · exact ⟨rfl, (List.cons.inj hparts).2.symm⟩
    · exact absurd (List.cons.inj (List.cons.inj hparts).2).1 (by decide)
    · exact absurd (congrArg List.length hparts) (by simp [reports])
  -- the board is attached from the list on, so it has a tracker
  have htracked : (((s.registry.applyAll []).get? x).bind (·.capability)).isSome := by
    show ((s.registry.get? x).bind (·.capability)).isSome
    rw [hattached, Registry.get?, List.find?_singleton, if_pos (decide_eq_true rfl),
      Option.bind_some, instantiate?_capabilities]
    decide
  obtain ⟨hdescribed, halike, -⟩ := hline htracked
  exact ⟨hhanded, hdescribed, fun hsame => absurd (halike.1 hsame) (by decide)⟩

end Monitor

end BoardLink
