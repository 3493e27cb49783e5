import BoardLink.Capability.Known
import BoardLink.Proofs.Session.Exchanges
import BoardLink.Proofs.Session.Prescribed

/-!
# A session and its server in step

A session that calls a device server, whose schedule holds nothing but events, sees the server's
boards as they are. Each call returns what the server prescribes for it, and then the session holds
the devices that the server has, whichever devices come and go in between, and in whatever pieces the
line carries the bytes in either direction.

It is proved by a relation between the session and a server that is not connected to anything
(`Session.Mirrors`). An exchange keeps it (`Session.Linked.exchange`): what the session sends is
handled once, and what the server writes is decoded before the call returns. So does a call
(`Session.Mirrors.run`), and from there it is an induction over the calls.

* `Session.calls_prescribed` — calls over a line return what the server prescribes.
-/

namespace BoardLink

open BoardLink.MessagePack BoardLink.Wire

/-! ### Calls on a server -/

/-- The requests that calls send. -/
def requestsOf (calls : List Call) : List Request :=
  calls.filterMap (·.request.toOption)

namespace DeviceServer

/-- **What calls are to return**, one after the other, and the serials that are attached behind each
of them, if `index` requests came before. The events in front of an answer take effect first. A call
that refuses its arguments is no request. -/
def prescribes (s : DeviceServer) (index : Nat) :
    List Call → List (Except SessionError Reply × List String)
  | [] => []
  | c :: calls =>
    match c.request with
    | .error e => (.error e, s.serials) :: s.prescribes index calls
    | .ok r =>
      let served := (s.serve index r).2
      (c.prescribed (s.followAll (s.eventsAt index)), served.serials) ::
        served.prescribes (index + 1) calls

/-- The messages of an exchange are short enough, for the server and for a client with a limit. -/
structure Exchangeable (s : DeviceServer) (limit index : Nat) (r : Request) : Prop where
  request : r.encode.length ≤ defaultMessageLimit
  packets : ∀ p ∈ replyPackets (s.eventsAt index) (s.serve index r).1,
    p.encode.length ≤ min limit defaultMessageLimit

/-- The messages of all exchanges of some calls are short enough. -/
def AllExchangeable (s : DeviceServer) (limit index : Nat) : List Call → Prop
  | [] => True
  | c :: calls =>
    match c.request with
    | .error _ => s.AllExchangeable limit index calls
    | .ok r => s.Exchangeable limit index r ∧
      (s.serve index r).2.AllExchangeable limit (index + 1) calls

/-- A client gets what the server writes because of a request. -/
theorem Exchangeable.gets {s : DeviceServer} {limit index : Nat} {r : Request}
    (h : s.Exchangeable limit index r) :
    ∀ p ∈ replyPackets (s.eventsAt index) (s.serve index r).1,
      readPackets.Gets limit p.toValue p := by
  intro p hp
  -- the limits of both ends are kept, and the server's is below what a length field can say
  have hlength := h.packets p hp
  have hlimit : p.encode.length ≤ limit := hlength.trans (min_le_left _ _)
  have hshort : p.encode.length < 0x100000000 :=
    calc p.encode.length
        ≤ defaultMessageLimit := hlength.trans (min_le_right _ _)
      _ < 0x100000000 := by decide
  rcases List.mem_append.1 hp with hp | hp
  · obtain ⟨e, -, rfl⟩ := List.mem_map.1 hp
    exact Packet.gets_event hlimit hshort
  · obtain rfl := List.mem_singleton.1 hp
    -- what the server answers is flat, whatever it is asked
    obtain ⟨hrcode, hpayload⟩ := answer_flat (s.followAll (s.eventsAt index)) r
    exact Packet.gets_answer hrcode hpayload hlimit hshort

/-- The script of a server stays as it is. -/
theorem OnlyEvents.serve {s : DeviceServer} (h : s.OnlyEvents) (index : Nat) (r : Request) :
    (s.serve index r).2.OnlyEvents := by
  intro entry hentry
  -- serving changes boards, and the schedule is only read
  rw [schedule_serve] at hentry
  exact h entry hentry

theorem serials_serve {s : DeviceServer} (h : s.Ascending) (index : Nat) (r : Request) :
    (s.serve index r).2.serials = (s.followAll (s.eventsAt index)).serials :=
  serials_answer (h.followAll _) r

end DeviceServer

theorem Wire.encodePackets_replyPackets_ne_nil (events : List Event) (a : Answer) :
    encodePackets (replyPackets events a) ≠ [] := by
  have hanswer : (Packet.answer a).encode ≠ [] :=
    List.ne_nil_of_length_pos (Packet.answer a).toValue.length_encode_pos
  -- already the answer alone takes bytes
  rw [encodePackets, replyPackets, List.flatMap_append, List.flatMap_singleton]
  exact List.append_ne_nil_of_right_ne_nil _ hanswer

namespace Session

variable {κ : Type} [Capability κ]

/-! ### The relation -/

/-- **A session that is linked to a server** over an idle line: it is open and waits for nothing, and
the server at the other end is `server`, which has received `received`. -/
structure Linked (config : Config) (server : DeviceServer) (received : List Request)
    (s : Session Line κ) : Prop where
  configured : s.config = config
  limit_le : config.messageLimit ≤ maxSize
  opened : s.closed = false
  inbox : s.inbox = .withLimit config.messageLimit
  answers : s.answers = []
  onePerSerial : s.registry.OnePerSerial
  line : s.transport.Idle
  serving : s.transport.connection.server = server
  heard : s.transport.connection.received = received
  script : server.OnlyEvents
  ascending : server.Ascending

/-- **A session that mirrors a server**: it is linked to it, and holds the same devices. -/
structure Mirrors (config : Config) (server : DeviceServer) (received : List Request)
    (s : Session Line κ) : Prop extends Linked config server received s where
  attached : ∀ x, s.registry.contains x ↔ x ∈ server.serials

variable {config : Config} {server : DeviceServer} {received : List Request} {s : Session Line κ}

omit [Capability κ] in
/-- A session lists the serials of the server that it mirrors. -/
theorem Mirrors.devices_eq (h : Mirrors config server received s) : s.devices = server.serials := by
  -- both are in ascending order, so it is enough that they hold the same serials
  refine eq_of_ascending h.onePerSerial.pairwise_serials h.ascending fun x => ?_
  exact Registry.mem_serials_iff.trans (h.attached x)

/-- **An exchange keeps a session linked.** The server has served the request, the call returns what
the answer means, and the registry has followed the events in front of it. -/
theorem Linked.exchange (h : Linked config server received s) {r : Request}
    (hfits : server.Exchangeable config.messageLimit received.length r) :
    ∃ s', call r s = (answerOutcome (server.serve received.length r).1, s') ∧
      Linked config (server.serve received.length r).2 (received ++ [r]) s' ∧
      s'.registry = s.registry.applyAll (server.eventsAt received.length) := by
  -- what the server does with the request, and that it writes something
  have hscript : s.transport.connection.server.OnlyEvents := h.serving ▸ h.script
  have hhandle := Connection.handle_of_onlyEvents h.line.between.live hscript r
  rw [h.serving, h.heard, h.line.output, List.nil_append] at hhandle
  have hlive : (s.transport.connection.handle r).ending = none := by
    rw [hhandle]
    exact h.line.between.live
  have hreply : (s.transport.connection.handle r).output ≠ [] := by
    rw [hhandle]
    exact encodePackets_replyPackets_ne_nil _ _
  -- the line carries the request there and the answer back
  have hsize : 0 < s.config.bufferSize := Nat.lt_of_lt_of_le Nat.one_pos (Nat.le_max_right _ 1)
  obtain ⟨line₁, line', haccepts, hdelivers, hconnection, hinFlight⟩ :=
    h.line.exchange hsize hfits.request hlive hreply
  rw [hhandle] at hdelivers hconnection
  obtain ⟨s', hcall, hexchanged⟩ :=
    call_of_delivers h.limit_le h.opened h.inbox h.answers hfits.gets haccepts hdelivers
  have htransport := hexchanged.transport
  subst htransport
  refine ⟨s', hcall, ?_, hexchanged.registry⟩
  exact {
    configured := hexchanged.config.trans h.configured
    limit_le := h.limit_le
    opened := hexchanged.closed.trans h.opened
    inbox := hexchanged.inbox.trans h.inbox
    answers := hexchanged.answers
    onePerSerial := hexchanged.registry ▸ h.onePerSerial.applyAll _
    line := by
      refine ⟨?_, hinFlight, ?_⟩
      · rw [hconnection]
        exact ⟨h.line.between.reader, h.line.between.undecoded, h.line.between.live⟩
      · rw [hconnection]
    serving := by rw [hconnection]
    heard := by rw [hconnection]
    script := h.script.serve _ _
    ascending := (h.ascending.followAll _).answer r }

omit [Capability κ] in
/-- Another registry does not matter to the link. -/
theorem Linked.withRegistry (h : Linked config server received s) {registry : Registry κ}
    (hone : registry.OnePerSerial) (hook : ReadyHook) (queued : Nat) :
    Linked config server received { s with registry, hook, queued } :=
  { h with onePerSerial := hone }

/-- **A call keeps a session in step with its server.** A device list brings it into step. -/
theorem Linked.run (h : Linked config server received s) {c : Call} {r : Request}
    (hr : c.request = .ok r)
    (hfits : server.Exchangeable config.messageLimit received.length r)
    (hattached : c = .deviceList ∨ ∀ x, s.registry.contains x ↔ x ∈ server.serials) :
    ∃ s', c.run s = (c.prescribed (server.followAll (server.eventsAt received.length)), s') ∧
      Mirrors config (server.serve received.length r).2 (received ++ [r]) s' := by
  -- the link is kept by the exchange; what is left to see are the devices
  obtain ⟨s₁, hcall, hlinked, hregistry⟩ := h.exchange hfits
  have hrun := Call.run_of_call hr hcall
  rw [DeviceServer.serve, Call.outcome_answer hr] at hrun
  refine ⟨_, hrun, ?_⟩
  have hserials := DeviceServer.serials_serve h.ascending received.length r
  by_cases hc : c = .deviceList
  · -- the registry is made to match the list
    subst hc
    let serials := (server.followAll (server.eventsAt received.length)).serials
    obtain ⟨hook, queued, hadopt⟩ := adopt_eq s₁ (s₁.registry.reconcile serials)
    have hsettle : s₁.settle (Call.deviceList.prescribed
        (server.followAll (server.eventsAt received.length))) =
          s₁.adopt (s₁.registry.reconcile serials) := rfl
    rw [hsettle, hadopt]
    refine ⟨hlinked.withRegistry (hlinked.onePerSerial.reconcile serials) hook queued, fun x => ?_⟩
    rw [hserials]
    exact Registry.contains_reconcile
  · -- the registry has followed the events that the server has followed
    have hsettle : s₁.settle (c.prescribed (server.followAll (server.eventsAt received.length))) =
        s₁ := by
      unfold settle
      split
      next serials hlisted => exact absurd hlisted (Call.prescribed_ne_serials hc _ serials)
      · rfl
    rw [hsettle]
    refine ⟨hlinked, fun x => ?_⟩
    have hsame := hattached.resolve_left hc x
    -- what the events do to a device depends on whether it was there, which both agree on
    rw [hregistry, Registry.contains_applyAll, hserials, DeviceServer.mem_serials_followAll]
    exact Event.mem_followAll_congr _ (Registry.mem_serials_iff.trans hsame)

/-! ### Runs -/

/-- What a call returns, and the devices of the session behind it. -/
def witnessed (op : Operation) (s : Session Line κ) :
    List (Except SessionError Reply × List String) :=
  [((op.run s).1, (op.run s).2.devices)]

/-- **Calls return what the server prescribes**, one after the other. -/
theorem Mirrors.calls (h : Mirrors config server received s) {calls : List Call}
    (hfits : server.AllExchangeable config.messageLimit received.length calls) :
    gather witnessed (calls.map .call) s = server.prescribes received.length calls ∧
      ∃ last, Mirrors config last (received ++ requestsOf calls)
        (after (calls.map .call) s) := by
  induction calls generalizing s server received with
  | nil =>
    refine ⟨rfl, server, ?_⟩
    rw [requestsOf, List.filterMap_nil, List.append_nil]
    exact h
  | cons c calls ih =>
    rw [List.map_cons, gather, witnessed, DeviceServer.prescribes]
    rw [DeviceServer.AllExchangeable] at hfits
    cases hr : c.request with
    | error e =>
      -- nothing is sent
      have hrun : (Operation.call c).run s = (.error e, s) := by
        show c.run s = _
        rw [c.run_eq, hr]
      rw [hr] at hfits
      obtain ⟨hlater, last, hlast⟩ := ih h hfits
      refine ⟨?_, last, ?_⟩
      · rw [hrun, h.devices_eq, hlater]
        rfl
      · rw [requestsOf, List.filterMap_cons, hr]
        show Mirrors _ _ _ (after (calls.map .call) ((Operation.call c).run s).2)
        rw [hrun]
        exact hlast
    | ok r =>
      rw [hr] at hfits
      -- the request is served, and the other calls go on from there
      obtain ⟨s', hrun, hmirrors⟩ := h.run hr hfits.1 (.inr h.attached)
      have hrest := hfits.2
      have hcount : received.length + 1 = (received ++ [r]).length := by simp
      rw [hcount] at hrest
      obtain ⟨hlater, last, hlast⟩ := ih hmirrors hrest
      have hop : (Operation.call c).run s = _ := hrun
      refine ⟨?_, last, ?_⟩
      · rw [hop, hmirrors.devices_eq, hlater, hcount]
        rfl
      · rw [requestsOf, List.filterMap_cons, hr]
        show Mirrors _ _ (received ++ ([r] ++ requestsOf calls))
          (after (calls.map .call) ((Operation.call c).run s).2)
        rw [hop, ← List.append_assoc]
        exact hlast

omit [Capability κ] in
/-- A session is linked to a server as soon as it is made. -/
theorem Linked.create (cuts : Nat → Cut) (own : Option (CapabilityTable κ))
    (shared : CapabilityTable κ) (hlimit : config.messageLimit ≤ maxSize)
    (hscript : server.OnlyEvents) (hascending : server.Ascending) :
    Linked config server []
      (create ({ connection := { server }, cuts } : Line) config own shared) where
  configured := rfl
  limit_le := hlimit
  opened := rfl
  inbox := rfl
  answers := rfl
  onePerSerial := List.nodup_nil
  line := ⟨⟨rfl, rfl, rfl⟩, rfl, rfl⟩
  serving := rfl
  heard := rfl
  script := hscript
  ascending := hascending

omit [Capability κ] in
/-- If the client then finishes sending, the server reports the requests that it has received. -/
theorem Linked.outcome_eq (h : Linked config server received s) :
    s.transport.settled.clientDone.outcome = .ok received := by
  -- the line is idle, so there is nothing left for the server to receive
  have hsettled : s.transport.settled = s.transport.connection := by
    rw [Line.settled, h.line.inFlight, Line.settle_nil]
  rw [hsettled, Connection.clientDone, h.line.between.undecoded, Connection.finish,
    h.line.between.live]
  exact congrArg Except.ok h.heard

theorem getDeviceList_of_run {s s' : Session Line κ} {serials : List String}
    (h : Call.deviceList.run s = (.ok (.serials serials), s')) :
    getDeviceList s = (.ok serials, s') := by
  have hmap : (Reply.serials <$> getDeviceList) s = (.ok (.serials serials), s') := h
  rw [SessionM.map_apply] at hmap
  generalize getDeviceList s = outcome at hmap ⊢
  -- an error or another reply is no list of serials
  rcases outcome with ⟨e | listed, s₁⟩
  · cases hmap
  · cases hmap
    rfl

/-- **Calls over a line return what the server prescribes**, whatever events are on its schedule and
however the line cuts what it carries. The first request of a session is the one for the device list
when it connects; then the calls return, one after the other, what the server prescribes for them,
and behind each of them the session holds the devices of the server. The server has received the
requests that were sent, and nothing else.

The boards of the server are in ascending order, its schedule holds nothing but events, and the
messages are short enough for both ends. -/
theorem calls_prescribed {calls : List Call} (cuts : Nat → Cut) (own : Option (CapabilityTable κ))
    (shared : CapabilityTable κ) (hboards : server.Ascending) (hscript : server.OnlyEvents)
    (htimeouts : config.checkTimeouts = .ok ()) (hlimit : config.messageLimit ≤ maxSize)
    (hfits : server.AllExchangeable config.messageLimit 0 (.deviceList :: calls)) :
    let listed := (server.serve 0 .deviceList).2
    ∃ s : Session Line κ,
      connect { connection := { server }, cuts } config own shared = (.ok listed.serials, s) ∧
      s.devices = listed.serials ∧
      gather witnessed (calls.map .call) s = listed.prescribes 1 calls ∧
      (after (calls.map .call) s).transport.settled.clientDone.outcome =
        .ok (.deviceList :: requestsOf calls) := by
  intro listed
  have hlinked := Linked.create cuts own shared hlimit hscript hboards
  -- connecting is a call, too, and it brings the session into step
  obtain ⟨s, hrun, hmirrors⟩ := hlinked.run (c := .deviceList) rfl hfits.1 (.inl rfl)
  have hserials := DeviceServer.serials_serve hboards 0 .deviceList
  have hconnect : connect { connection := { server }, cuts } config own shared =
      (.ok listed.serials, s) := by
    rw [connect, htimeouts, hserials]
    exact getDeviceList_of_run hrun
  -- the other calls begin where the connection has left both ends
  obtain ⟨hcalls, last, hlast⟩ := hmirrors.calls hfits.2
  exact ⟨s, hconnect, hmirrors.devices_eq, hcalls, hlast.toLinked.outcome_eq⟩

/-- A server whose board is taken away and attached again while calls are made on it. -/
def reattaching : DeviceServer where
  boards := [("FAOUT-01", { registers := (RegisterMap.all 0).set 0 1 7, raw := [1, 2] })]
  schedule := [(2, .send (.event (.removed "FAOUT-01"))), (3, .send (.event (.added "FAOUT-01")))]

/-- Calls in front of the removal, between the removal and the attachment, and behind both. -/
def reattachingCalls : List Call :=
  [.readReg "FAOUT-01" 0 1, .readReg "FAOUT-01" 0 1, .readRaw "FAOUT-01" 2, .deviceList]

/-- The board that is attached again has forgotten what it held. -/
theorem calls_prescribed_reattaching :
    reattaching.Ascending ∧ reattaching.OnlyEvents ∧ ({} : Config).checkTimeouts = .ok () ∧
      ({} : Config).messageLimit ≤ maxSize ∧
      reattaching.AllExchangeable ({} : Config).messageLimit 0 (.deviceList :: reattachingCalls) ∧
      ∃ s : Session Line Known,
        connect { connection := { server := reattaching }, cuts := fun n => ⟨n % 2, [0, 3], 1⟩ } {}
          none {} = (.ok ["FAOUT-01"], s) ∧
        gather witnessed (reattachingCalls.map .call) s =
          [(.ok (.word 7), ["FAOUT-01"]), (.error (.server (-1) "Unknown device"), []),
            (.error (.lengthMismatch 2 0), ["FAOUT-01"]),
            (.ok (.serials ["FAOUT-01"]), ["FAOUT-01"])] ∧
        (after (reattachingCalls.map .call) s).transport.settled.clientDone.outcome =
          .ok [.deviceList, .readReg "FAOUT-01" 0 1, .readReg "FAOUT-01" 0 1,
            .readRaw "FAOUT-01" 2, .deviceList] := by
  have hboards : reattaching.Ascending := List.pairwise_singleton _ _
  have hscript : reattaching.OnlyEvents := by
    intro entry hentry
    rcases List.mem_cons.1 hentry with rfl | hentry
    · exact ⟨_, rfl⟩
    · obtain rfl := List.mem_singleton.1 hentry
      exact ⟨_, rfl⟩
  have hfits : reattaching.AllExchangeable ({} : Config).messageLimit 0
      (.deviceList :: reattachingCalls) := by
    refine ⟨⟨by decide, by decide⟩, ⟨by decide, by decide⟩, ⟨by decide, by decide⟩,
      ⟨by decide, by decide⟩, ⟨by decide, by decide⟩, trivial⟩
  obtain ⟨s, hconnect, -, hcalls, houtcome⟩ := calls_prescribed (fun n => ⟨n % 2, [0, 3], 1⟩)
    (none : Option (CapabilityTable Known)) {} hboards hscript rfl (by decide) hfits
  exact ⟨hboards, hscript, rfl, by decide, hfits, s, hconnect, hcalls, houtcome⟩

end Session

end BoardLink
