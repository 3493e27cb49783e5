import BoardLink.Proofs.DeviceServer.Serving
import BoardLink.Proofs.Session.Notifications
import BoardLink.Proofs.Transport.Line

/-!
# An exchange that succeeds

A session that is idle has nothing on its way: its inbox is empty and no answer is queued. If its
transport accepts a request and then delivers some events and an answer, the call returns what the
answer means, the registry has applied the events, and the session is idle again. In how many sends
and receives that happens does not matter.

* `Inbox.packetsIn_of_proper` — as long as the stream has not come to its end the answer is still
  missing, so the session goes on receiving (the crux: it neither stops too early nor waits for more
  than there is);
* `Inbox.Brings` — what a session needs to know of the stream that it waits for;
* `Session.call_of_brings`, `Session.call_of_delivers` — the exchange as a whole.
-/

namespace BoardLink

open BoardLink.MessagePack BoardLink.Wire

/-! ### As far as a stream has come -/

namespace Wire.Inbox

variable {limit : Nat} {packets : List Packet} {pieces : List Bytes}

theorem packetsIn_of_takePieces {t : Framer.Taken Fault Packet}
    (h : Framer.takePieces readPackets { limit := limit } pieces = t) :
    (withLimit limit).packetsIn pieces = t.items ∧
      ((withLimit limit).drainPieces pieces).2 = ofTaken t := by
  obtain ⟨hitems, -, hlast⟩ := drainPieces_ofTaken ⟨[], none, { limit := limit }, []⟩ pieces
  -- both readings take the same packets, so they end in the same inbox
  rw [← h]
  exact ⟨hitems, hlast⟩

/-- Of a stream that has not come to its end some packets are missing, and there is no fault. -/
theorem packetsIn_of_proper (hlimit : limit ≤ maxSize)
    (hgets : ∀ p ∈ packets, readPackets.Gets limit p.toValue p)
    (hfront : pieces.flatten <+: encodePackets packets)
    (hproper : pieces.flatten ≠ encodePackets packets) :
    ∃ before p after, packets = before ++ p :: after ∧ (withLimit limit).packetsIn pieces = before ∧
      ((withLimit limit).drainPieces pieces).2.failure = none := by
  obtain ⟨before, p, after, tail, rfl, hpieces, htail, hne⟩ :=
    Framer.exists_of_prefix_encodeSent hfront hproper
  have hbefore : ∀ q ∈ before, readPackets.Gets limit q.toValue q :=
    fun q hq => hgets q (List.mem_append_left _ hq)
  have hnext := hgets p (List.mem_append_right before List.mem_cons_self)
  -- the packets in front of the cut come out, and the rest of the next one gives no fault
  obtain ⟨f, htaken, -⟩ :=
    Framer.takePieces_encodeSent hlimit hbefore hnext.passes htail hne hpieces
  obtain ⟨hpackets, hlast⟩ := packetsIn_of_takePieces htaken
  rw [List.map_id'] at hpackets
  refine ⟨before, p, after, rfl, hpackets, ?_⟩
  rw [hlast]
  rfl

/-- A stream that has come to its end leaves the inbox as it was before. -/
theorem packetsIn_of_whole (hlimit : limit ≤ maxSize)
    (hgets : ∀ p ∈ packets, readPackets.Gets limit p.toValue p)
    (hwhole : pieces.flatten = encodePackets packets) :
    (withLimit limit).packetsIn pieces = packets ∧
      ((withLimit limit).drainPieces pieces).2 = withLimit limit := by
  have htaken := Framer.takePieces_encodeSent_whole hlimit hgets hwhole
  rw [List.map_id'] at htaken
  exact packetsIn_of_takePieces htaken

/-- There is no fault in a stream of packets, wherever it is cut. -/
theorem failure_of_prefix (hlimit : limit ≤ maxSize)
    (hgets : ∀ p ∈ packets, readPackets.Gets limit p.toValue p)
    (hfront : pieces.flatten <+: encodePackets packets) :
    ((withLimit limit).drainPieces pieces).2.failure = none := by
  -- only a stream that is cut inside a packet has to be looked at
  by_cases hwhole : pieces.flatten = encodePackets packets
  · rw [(packetsIn_of_whole hlimit hgets hwhole).2]
    rfl
  · obtain ⟨-, -, -, -, -, hnone⟩ := packetsIn_of_proper hlimit hgets hfront hwhole
    exact hnone

/-- **A stream brings an answer** behind events. Wherever it is cut there is no fault in front of the
cut, and the answer is still missing; the whole stream is the events and the answer, and leaves the
inbox as it was before. -/
structure Brings (limit : Nat) (stream : Bytes) (events : List Event) (a : Answer) : Prop where
  sound {pieces : List Bytes} (hfront : pieces.flatten <+: stream) :
    ((withLimit limit).drainPieces pieces).2.failure = none
  misses {pieces : List Bytes} (hfront : pieces.flatten <+: stream)
    (hproper : pieces.flatten ≠ stream) : answersIn ((withLimit limit).packetsIn pieces) = []
  whole {pieces : List Bytes} (hwhole : pieces.flatten = stream) :
    (withLimit limit).packetsIn pieces = replyPackets events a ∧
      ((withLimit limit).drainPieces pieces).2 = withLimit limit

variable {events : List Event} {a : Answer}

theorem answersIn_of_replyPackets {before after : List Packet} {p : Packet}
    (h : replyPackets events a = before ++ p :: after) : answersIn before = [] := by
  obtain ⟨others, last, hlast⟩ := (p :: after).eq_nil_or_concat.resolve_left (List.cons_ne_nil p after)
  rw [hlast, List.concat_eq_append, ← List.append_assoc, replyPackets] at h
  -- the answer is the last packet, so in front of it there are only events
  have hevents := congrArg answersIn (List.append_inj_left' h rfl)
  rw [answersIn_map_event, answersIn_append] at hevents
  exact (List.append_eq_nil_iff.1 hevents.symm).1

/-- What a server sends brings its answer, if each packet gets through. -/
theorem brings_encodePackets (hlimit : limit ≤ maxSize)
    (hgets : ∀ p ∈ replyPackets events a, readPackets.Gets limit p.toValue p) :
    Brings limit (encodePackets (replyPackets events a)) events a where
  sound := failure_of_prefix hlimit hgets
  misses hfront hproper := by
    obtain ⟨before, p, after, hcut, hpackets, -⟩ :=
      packetsIn_of_proper hlimit hgets hfront hproper
    -- what has come out are packets in front of the last one, so it is not the answer
    rw [hpackets]
    exact answersIn_of_replyPackets hcut
  whole := packetsIn_of_whole hlimit hgets

theorem Brings.fault {stream piece : Bytes} (h : Brings limit stream events a)
    (hfront : (pieces ++ [piece]).flatten <+: stream) :
    ((((withLimit limit).drainPieces pieces).2).feed piece).drain.1.fault = none := by
  -- neither the pieces in front nor those with this one bring a fault, so its own drain has none
  have hboth := h.sound hfront
  rw [List.flatten_append] at hfront
  have hbefore := h.sound ((List.prefix_append _ _).trans hfront)
  have hfed : ((((withLimit limit).drainPieces pieces).2).feed piece).failure = none := hbefore
  rw [← failure_drain hfed]
  rw [drainPieces_append] at hboth
  exact hboth

end Wire.Inbox

namespace Session

variable {τ κ : Type} [Transport τ]

/-! ### Sending -/

/-- A request is sent if the transport accepts it. -/
theorem sendAll_of_accepts {transport transport' : τ} {bytes : Bytes}
    (h : Accepts transport bytes transport') {s : Session τ κ} (hs : s.transport = transport) :
    sendAll bytes s = (.ok (), { s with transport := transport' }) := by
  induction h generalizing s with
  | all t =>
    subst hs
    rw [sendAll]
  | @some t t₁ t' b rest n hsend later ih =>
    subst hs
    rw [sendAll_cons, hsend]
    exact ih rfl

variable [Capability κ]

/-! ### Waiting -/

theorem awaitAnswer_of_receive {s s' : Session τ κ} {n : Nat} (hnone : s.answers = [])
    (hcan : Transport.canReceive s.transport = true) (hmore : receiveMore false s = (.ok n, s')) :
    awaitAnswer s = awaitAnswer s' := by
  rw [awaitAnswer_of_none hnone, if_pos hcan, hmore]

/-- A receive takes what the transport delivers, if it brings no fault. -/
theorem receiveMore_of_receive {s : Session τ κ} {b : UInt8} {data : Bytes} {transport : τ}
    (tolerate : Bool)
    (hreceive : Transport.receive s.transport s.config.bufferSize = (.ok (b :: data), transport))
    (hfault : (s.inbox.feed (b :: data)).drain.1.fault = none) :
    ∃ s', receiveMore tolerate s = (.ok (data.length + 1), s') ∧ s.Takes [b :: data] s' ∧
      s'.transport = transport := by
  have htakes := (Takes.none s transport).trans (Takes.of_hear { s with transport } (b :: data))
  -- without a fault the receive ends where the packets have been dispatched
  refine ⟨_, ?_, htakes, dispatchAll_transport _ _⟩
  rw [receiveMore, hreceive]
  simp only [deliver_eq, hfault]

/-- A poll that receives a piece takes it, if it brings no fault, and hands out all that is queued. -/
theorem pollEvents_of_receive {s : Session τ κ} {b : UInt8} {data : Bytes} {transport : τ}
    (hopen : s.closed = false) (hcan : Transport.canReceive s.transport = true)
    (hreceive : Transport.receive s.transport s.config.bufferSize = (.ok (b :: data), transport))
    (hfault : (s.inbox.feed (b :: data)).drain.1.fault = none) :
    ∃ s', s.Takes [b :: data] s' ∧
      pollEvents s = (.ok s'.takeNotifications.1, s'.takeNotifications.2) := by
  obtain ⟨s', hmore, htakes, -⟩ := receiveMore_of_receive true hreceive hfault
  refine ⟨s', htakes, ?_⟩
  rw [pollEvents_apply hopen, if_pos hcan, SessionM.bind_apply, hmore]
  rfl

/-- What it hands out is what was queued and what is told about the piece. -/
theorem poll_of_receive {s : Session τ κ} {b : UInt8} {data : Bytes} {transport : τ}
    {packets : List Packet} {i : Inbox} (hopen : s.closed = false)
    (hcan : Transport.canReceive s.transport = true)
    (hreceive : Transport.receive s.transport s.config.bufferSize = (.ok (b :: data), transport))
    (hdrain : (s.inbox.feed (b :: data)).drain = (⟨packets, none⟩, i)) :
    Operation.poll.handed s = s.registry.notifications ++ s.registry.told (eventsIn packets) ∧
      Operation.poll.events s = eventsIn packets := by
  obtain ⟨s₁, htakes, hpoll⟩ := pollEvents_of_receive hopen hcan hreceive (by rw [hdrain])
  -- the one piece brings exactly these packets
  have hpackets : s.inbox.packetsIn [b :: data] = packets := by
    rw [Inbox.packetsIn_singleton, hdrain]
  have hrun : Operation.poll.run s =
      (.ok (.notifications s₁.takeNotifications.1), s₁.takeNotifications.2) := by
    show (Reply.notifications <$> pollEvents) s = _
    rw [SessionM.map_apply, hpoll]
    rfl
  have hpieces : Operation.poll.pieces s = [b :: data] := by
    rw [Operation.pieces, if_neg (ne_true_of_eq_false hopen)]
    show s.piece = _
    rw [piece, arriving, if_pos hcan, hreceive]
  -- the poll brought no fault, so it did not end the session
  have hends : s₁.takeNotifications.2.closed = false := htakes.closed.trans hopen
  constructor
  · rw [Operation.handed, hrun]
    show s₁.registry.notifications = _
    rw [htakes.registry, Registry.notifications_applyAll, hpackets]
  · rw [Operation.events, hrun, hpieces, hpackets, hends, hopen]
    -- the session is open before and behind it, so no device was cleared
    exact List.append_nil _

/-- **`s'` is `s` behind an exchange** in which `events` arrived: its registry has applied them, and
nothing else is left of the exchange but the state of the transport. -/
structure Exchanged (s : Session τ κ) (events : List Event) (transport : τ) (s' : Session τ κ) :
    Prop where
  config : s'.config = s.config
  closed : s'.closed = s.closed
  inbox : s'.inbox = s.inbox
  answers : s'.answers = []
  registry : s'.registry = s.registry.applyAll events
  transport : s'.transport = transport

variable {s₀ : Session τ κ} {limit : Nat} {events : List Event} {a : Answer}

omit [Transport τ] in
/-- As long as the stream has not come to its end no answer is queued. -/
theorem Takes.answers_of_proper {s : Session τ κ} {pieces : List Bytes} {stream : Bytes}
    (htakes : s₀.Takes pieces s) (hinbox : s₀.inbox = .withLimit limit) (hnone : s₀.answers = [])
    (hbrings : Inbox.Brings limit stream events a) (hfront : pieces.flatten <+: stream)
    (hproper : pieces.flatten ≠ stream) : s.answers = [] := by
  have hqueue := htakes.answers
  rw [hinbox, hbrings.misses hfront hproper, hnone] at hqueue
  exact hqueue

/-- **A session that waits receives all that the transport delivers**, and then returns the answer
behind the events. The induction is on the deliveries that are still to come; as long as there is one
the answer has not been decoded. -/
theorem awaitAnswer_of_brings {stream : Bytes} (hinbox : s₀.inbox = .withLimit limit)
    (hnone : s₀.answers = []) (hbrings : Inbox.Brings limit stream events a)
    {transport transport' : τ} {out : Bytes}
    (hdelivers : Delivers s₀.config.bufferSize transport out transport') {s : Session τ κ}
    {pieces : List Bytes} (htakes : s₀.Takes pieces s) (hs : s.transport = transport)
    (hstream : pieces.flatten ++ out = stream) :
    ∃ s', awaitAnswer s = (answerOutcome a, s') ∧ s₀.Exchanged events transport' s' := by
  have hinboxes := htakes.inbox
  have hqueue := htakes.answers
  have hregistry := htakes.registry
  induction hdelivers generalizing s pieces with
  | all t =>
    -- all has arrived, so the answer is the one in the queue
    rw [List.append_nil] at hstream
    obtain ⟨hpackets, hlast⟩ := hbrings.whole hstream
    rw [hinbox] at hinboxes
    rw [hinbox, hpackets, replyPackets, answersIn_append, answersIn_map_event, hnone] at hqueue
    rw [hinbox, hpackets, replyPackets, eventsIn_append, eventsIn_map_event] at hregistry
    refine ⟨_, awaitAnswer_of_answers hqueue, htakes.config, htakes.closed, ?_, rfl, ?_, hs⟩
    · show s.inbox = s₀.inbox
      rw [hinboxes, hlast, hinbox]
    · exact hregistry.trans (congrArg _ (List.append_nil events))
  | @some t t₁ t' b piece later hcan hreceive hlater ih =>
    -- the stream has not come to its end, so the answer is not there yet
    have hfront : pieces.flatten <+: stream := hstream ▸ List.prefix_append _ _
    have hproper : pieces.flatten ≠ stream := by
      intro hsame
      rw [hsame] at hstream
      exact List.cons_ne_nil b _ (List.append_right_eq_self.1 hstream)
    have hwaiting := htakes.answers_of_proper hinbox hnone hbrings hfront hproper
    subst hs
    have hreceive' : Transport.receive s.transport s.config.bufferSize =
        (.ok (b :: piece), t₁) := by rw [htakes.config, hreceive]
    have hrest : (pieces ++ [b :: piece]).flatten ++ later = stream := by
      rw [List.flatten_append, List.flatten_singleton, List.append_assoc, hstream]
    have hfault : (s.inbox.feed (b :: piece)).drain.1.fault = none := by
      rw [hinboxes, hinbox]
      exact hbrings.fault (hrest ▸ List.prefix_append _ _)
    -- the next piece is taken, and the wait goes on behind it
    obtain ⟨s₁, hmore, htaken, htransport⟩ := receiveMore_of_receive false hreceive' hfault
    rw [awaitAnswer_of_receive hwaiting hcan hmore]
    have hboth := htakes.trans htaken
    exact ih hboth htransport hrest hboth.inbox hboth.answers hboth.registry

/-- **An exchange over any transport**: the request is accepted, and then a stream is delivered that
brings an answer. -/
theorem call_of_brings {s : Session τ κ} {stream : Bytes} (hopen : s.closed = false)
    (hinbox : s.inbox = .withLimit limit) (hnone : s.answers = [])
    (hbrings : Inbox.Brings limit stream events a) {r : Request} {transport transport' : τ}
    (haccepts : Accepts s.transport r.encode transport)
    (hdelivers : Delivers s.config.bufferSize transport stream transport') :
    ∃ s', call r s = (answerOutcome a, s') ∧ s.Exchanged events transport' s' := by
  have hopen' : ({ s with transport } : Session τ κ).closed = false := hopen
  have hsend : sendRequest r s = (.ok (), { s with transport }) := by
    rw [sendRequest_of_open hopen]
    exact sendAll_of_accepts haccepts rfl
  rw [call, SessionM.bind_apply, hsend]
  simp only [waitForAnswer_of_open hopen']
  exact awaitAnswer_of_brings hinbox hnone hbrings hdelivers (Takes.none s transport) rfl rfl

/-- The same of a server that sends some events and then the answer. -/
theorem call_of_delivers {s : Session τ κ} (hlimit : limit ≤ maxSize) (hopen : s.closed = false)
    (hinbox : s.inbox = .withLimit limit) (hnone : s.answers = [])
    (hgets : ∀ p ∈ replyPackets events a, readPackets.Gets limit p.toValue p) {r : Request}
    {transport transport' : τ} (haccepts : Accepts s.transport r.encode transport)
    (hdelivers : Delivers s.config.bufferSize transport (encodePackets (replyPackets events a))
      transport') :
    ∃ s', call r s = (answerOutcome a, s') ∧ s.Exchanged events transport' s' :=
  call_of_brings hopen hinbox hnone (Inbox.brings_encodePackets hlimit hgets) haccepts hdelivers

end Session

end BoardLink
