import BoardLink.Capability.Known
import BoardLink.Proofs.Session.Scripted

/-!
# Device lists and later events

A device list tells the devices of one moment, the moment at which the server wrote the answer, and
the events behind the answer tell what has changed since. A session applies events when it decodes
them, but it makes its registry match the list only when the waiting call comes back to it. So the
events that arrive in the receive that brought the answer take effect first, and are undone by the
list although they are newer.

* `Session.getDeviceList_listen` — what the devices are once the stream has been received: the list
  with the events of later receives alone; and when that is what list and events say (the crux: the
  packets of the stream fall apart at the end of the receive that brought the answer, which is where
  the session had drained its inbox).
-/

namespace BoardLink

open BoardLink.Wire

namespace Session

variable {τ κ : Type} [Capability κ] [Transport τ]

/-! ### Listening -/

/-- **`s'` is `s` once it has listened to `bytes`**, be it that it polled its transport for them or
that they were fed to it. -/
inductive Listens : Session τ κ → Bytes → Session τ κ → Prop
  | done (s : Session τ κ) : Listens s [] s
  | poll {s s₁ s' : Session τ κ} {bytes : Bytes} {notifications : List Notification}
      (h : pollEvents s = (.ok notifications, s₁)) (others : Listens s₁ bytes s') :
      Listens s (s.arriving ++ bytes) s'
  | feed {s s₁ s' : Session τ κ} {data bytes : Bytes} (h : feed data s = (.ok (), s₁))
      (others : Listens s₁ bytes s') : Listens s (data ++ bytes) s'

theorem absorbs_of_pollEvents {s s' : Session τ κ} {notifications : List Notification}
    (hfits : s.inbox.Fits s.arriving) (h : pollEvents s = (.ok notifications, s')) :
    ∃ packets, Absorbs s s.arriving packets s' ∧ (s.inbox.Settled → s'.inbox.Settled) := by
  obtain ⟨u, s₁, hopen, hpoll⟩ := SessionM.bind_ok h
  obtain ⟨-, rfl⟩ := ensureOpen_ok hopen
  obtain ⟨s₂, s₃, hget, hpoll⟩ := SessionM.bind_ok hpoll
  cases hget
  split at hpoll
  next hcan =>
    obtain ⟨n, s₄, hmore, htake⟩ := SessionM.bind_ok hpoll
    obtain ⟨packets, habsorbs, hsettled⟩ := absorbs_of_receiveMore hcan hfits hmore
    cases htake
    refine ⟨packets, ⟨habsorbs.limit, habsorbs.drain, habsorbs.answers, habsorbs.devices⟩, ?_⟩
    intro hs
    rcases hsettled with ⟨-, hinbox⟩ | hsettled
    · exact hinbox ▸ hs
    · exact hsettled
  next hcannot =>
    -- a transport that cannot receive brings nothing
    cases hpoll
    have harriving : s₁.arriving = [] := by rw [arriving, if_neg hcannot]
    rw [harriving]
    have hidle := Absorbs.refl s₁
    exact ⟨[], ⟨hidle.limit, hidle.drain, hidle.answers, hidle.devices⟩, id⟩

omit [Transport τ] in
theorem absorbs_of_feed {s s' : Session τ κ} {data : Bytes} (hfits : s.inbox.Fits data)
    (h : feed data s = (.ok (), s')) : ∃ packets, Absorbs s data packets s' ∧ s'.inbox.Settled := by
  obtain ⟨u, s₁, hopen, hdeliver⟩ := SessionM.bind_ok h
  obtain ⟨-, rfl⟩ := ensureOpen_ok hopen
  obtain ⟨habsorbs, hsettled⟩ := Absorbs.of_deliver hfits hdeliver
  exact ⟨_, habsorbs, hsettled⟩

/-- Listening absorbs what is heard, and leaves no complete packet behind. -/
theorem Listens.absorbs {s s' : Session τ κ} {bytes : Bytes} (h : Listens s bytes s')
    (hfits : s.inbox.Fits bytes) :
    ∃ packets, Absorbs s bytes packets s' ∧ (s.inbox.Settled → s'.inbox.Settled) := by
  induction h with
  | done s => exact ⟨[], Absorbs.refl s, id⟩
  | poll h others ih =>
    obtain ⟨first, hfirst, hsettled⟩ := absorbs_of_pollEvents hfits.of_append h
    obtain ⟨packets, habsorbs, hlast⟩ := ih (hfirst.fits hfits)
    exact ⟨first ++ packets, hfirst.trans habsorbs, hlast ∘ hsettled⟩
  | feed h others ih =>
    obtain ⟨first, hfirst, hsettled⟩ := absorbs_of_feed hfits.of_append h
    obtain ⟨packets, habsorbs, hlast⟩ := ih (hfirst.fits hfits)
    exact ⟨first ++ packets, hfirst.trans habsorbs, fun _ => hlast hsettled⟩

/-! ### Fetching a device list -/

/-- What the transport delivers while the session fetches the device list. -/
def heardFetching (s : Session τ κ) : Bytes :=
  (sendRequest .deviceList s).2.awaited

/-- A session that has fetched a device list has absorbed what it heard and taken the answer. Its
registry holds the list, whatever events came with the answer. -/
theorem absorbs_of_getDeviceList {s s' : Session τ κ} {serials : List String}
    (hanswers : s.answers = []) (hfits : s.inbox.Fits s.heardFetching)
    (h : getDeviceList s = (.ok serials, s')) :
    ∃ packets s'' a others, Absorbs s s.heardFetching packets s'' ∧
      answersIn packets = a :: others ∧ a.serials = .ok serials ∧
      s'.inbox = s''.inbox ∧ s'.inbox.Settled ∧ ∀ x, x ∈ s'.devices ↔ x ∈ serials := by
  obtain ⟨a, s₁, hcall, hserials, rfl⟩ := getDeviceList_ok h
  obtain ⟨-, transport, hsend, hawait⟩ := call_ok hcall
  -- sending leaves the inbox and the queue alone, so all is heard while waiting
  have hheard : s.heardFetching = ({ s with transport } : Session τ κ).awaited := by
    rw [heardFetching, hsend]
  rw [hheard] at hfits
  obtain ⟨packets, s₂, habsorbs, hqueue, hs₁, hsettled⟩ := absorbs_of_awaitAnswer hfits hawait
  obtain ⟨hook, queued, hadopt⟩ := adopt_eq s₁ (s₁.registry.reconcile serials)
  have hinbox : s₁.inbox = s₂.inbox := by rw [hs₁]
  -- nothing was queued before, so the answer is the first one that was heard
  have hin : answersIn packets = a :: s₁.answers := by
    have := habsorbs.answers
    rw [hqueue] at this
    simpa [hanswers] using this.symm
  rw [hadopt, hheard]
  refine ⟨packets, s₂, a, s₁.answers,
    ⟨habsorbs.limit, habsorbs.drain, habsorbs.answers, habsorbs.devices⟩, hin, hserials, hinbox,
    ?_, ?_⟩
  · show s₁.inbox.Settled
    rw [hinbox]
    exact hsettled (.inl hanswers)
  · intro x
    exact Registry.mem_serials_iff.trans Registry.contains_reconcile

omit [Capability κ] [Transport τ] in
/-- Packets that hold the one answer of a stream end behind it, among the events that follow it. -/
theorem split_at_answer {packets packets' : List Packet} {before after : List Event}
    {a a' : Answer} {others : List Answer}
    (hstream : packets ++ packets' = before.map .event ++ .answer a :: after.map .event)
    (hin : answersIn packets = a' :: others) :
    ∃ early late, after = early ++ late ∧
      packets = before.map .event ++ .answer a :: early.map .event ∧
      packets' = late.map .event ∧ a' = a := by
  rcases List.append_eq_append_iff.1 hstream with ⟨cut, hbefore, -⟩ | ⟨cut, hpackets, hcut⟩
  · -- the packets would be some of the events in front of the answer
    obtain ⟨front, back, -, rfl, -⟩ := List.map_eq_append_iff.1 hbefore
    rw [answersIn_map_event] at hin
    cases hin
  · cases cut with
    | nil =>
      rw [hpackets, List.append_nil, answersIn_map_event] at hin
      cases hin
    | cons p cut =>
      obtain ⟨rfl, hafter⟩ := List.cons.inj hcut
      obtain ⟨early, late, rfl, rfl, rfl⟩ := List.map_eq_append_iff.1 hafter
      have hfirst : answersIn packets = [a] := by
        rw [hpackets, answersIn, List.filterMap_append, ← answersIn, answersIn_map_event,
          List.nil_append]
        exact congrArg (a :: ·) (answersIn_map_event early)
      rw [hfirst] at hin
      exact ⟨early, late, rfl, hpackets, rfl, (List.cons.inj hin).1.symm⟩

/-- **A device list forgets the events that arrive with it.** The stream holds any events, the
answer to the call, and any events behind it. `early` are those that were received together with the
answer. Once the whole stream has been received the devices are those of the list with the later
events alone; and they are those of the list with all events behind it exactly if every serial that
the early events take to another state than the list is moved by a later event again. -/
theorem getDeviceList_listen {s s₁ s₂ : Session τ κ} {serials : List String} {rest : Bytes}
    {before after : List Event} {a : Answer} (hanswers : s.answers = [])
    (hfetch : getDeviceList s = (.ok serials, s₁)) (hlisten : Listens s₁ rest s₂)
    (hstream : (s.inbox.feed (s.heardFetching ++ rest)).drain.1 =
      ⟨before.map .event ++ .answer a :: after.map .event, none⟩)
    (hfits : s.inbox.Fits (s.heardFetching ++ rest)) :
    a.serials = .ok serials ∧ ∃ early late, after = early ++ late ∧
      (s.inbox.feed s.heardFetching).drain.1.packets =
        before.map .event ++ .answer a :: early.map .event ∧
      (∀ x, x ∈ s₂.devices ↔ x ∈ Event.followAll serials late) ∧
      ((∀ x, x ∈ s₂.devices ↔ x ∈ Event.followAll serials after) ↔
        ∀ x, (∀ e ∈ late, ¬ e.Moves x) → (x ∈ serials ↔ x ∈ Event.followAll serials early)) := by
  have hheard := hfits.of_append
  obtain ⟨packets, s', a', others, habsorbs, hin, hserials, hinbox, hsettled, hlisted⟩ :=
    absorbs_of_getDeviceList hanswers hheard hfetch
  have hrest : s₁.inbox.Fits rest := hinbox ▸ habsorbs.fits hfits
  obtain ⟨packets', habsorbs', hlast⟩ := hlisten.absorbs hrest
  -- the packets of the stream are those heard with the fetch and those listened to
  have hfirst := habsorbs.packets_eq hheard (hinbox ▸ hsettled)
  have hsecond := habsorbs'.packets_eq hrest (hlast hsettled)
  have hpackets : packets ++ packets' = before.map .event ++ .answer a :: after.map .event := by
    have hwhole := congrArg (·.1.packets) (habsorbs.drain rest hfits)
    simp only [hstream, ← hinbox, hsecond] at hwhole
    exact hwhole.symm
  obtain ⟨early, late, rfl, rfl, rfl, rfl⟩ := split_at_answer hpackets hin
  -- the registry was made to match the list behind the early events, and followed the late ones
  have hdevices : ∀ x, x ∈ s₂.devices ↔ x ∈ Event.followAll serials late := by
    intro x
    rw [habsorbs'.devices, eventsIn_map_event]
    exact Event.mem_followAll_congr late (hlisted x)
  refine ⟨hserials, early, late, rfl, hfirst, hdevices, ?_⟩
  have happend : Event.followAll serials (early ++ late) =
      Event.followAll (Event.followAll serials early) late := List.foldl_append
  -- the late events begin from the list in the session, and from the list and `early` on the wire
  refine forall_congr' fun x => ?_
  rw [happend, hdevices x]
  exact Event.mem_followAll_iff_mem_followAll

/-- An empty device list, and a device that appears behind it. -/
def lateStream : List Packet := [.answer (.success (.array [])), .event (.added "FAOUT-01")]

theorem lateStream_gets :
    ∀ p ∈ lateStream, readPackets.Gets MessagePack.defaultMessageLimit p.toValue p := by
  intro p hp
  rcases List.mem_cons.1 hp with rfl | hp
  · refine ⟨⟨?_, by decide⟩, by decide, rfl⟩
    simp [Packet.toValue, Packet.fields, Answer.success, MessagePack.Value.Sized,
      MessagePack.AllSized]
  · obtain rfl := List.mem_singleton.1 hp
    refine ⟨⟨⟨by decide, trivial, ?_, trivial⟩, by decide⟩, by decide, rfl⟩
    show (utf8 _).length < _
    decide

/-- A session to which the stream arrives in one block. -/
def lateSession : Session Scripted Known :=
  create { arrivals := [.data (encodePackets lateStream)] } {} none {}

/-- The device that appears behind the list is forgotten when both arrive at once. -/
theorem getDeviceList_listen_lateSession :
    ∃ s₁, lateSession.answers = [] ∧ getDeviceList lateSession = (.ok [], s₁) ∧
      Listens s₁ [] s₁ ∧
      (lateSession.inbox.feed (lateSession.heardFetching ++ [])).drain.1 =
        ⟨[].map .event ++ .answer (.success (.array [])) :: [.added "FAOUT-01"].map .event, none⟩ ∧
      lateSession.inbox.Fits (lateSession.heardFetching ++ []) ∧ (∀ x, x ∉ s₁.devices) ∧
      ¬ ∀ x, x ∈ s₁.devices ↔ x ∈ Event.followAll [] [.added "FAOUT-01"] := by
  have hdrain : (lateSession.inbox.feed (encodePackets lateStream)).drain =
      (⟨lateStream, none⟩, lateSession.inbox) :=
    Inbox.drain_encodePackets (by decide) lateStream_gets
  obtain ⟨b, block, hblock, hsize⟩ : ∃ b block, encodePackets lateStream = b :: block ∧
      block.length < lateSession.config.bufferSize := ⟨_, _, rfl, by decide⟩
  have harrivals : lateSession.transport.arrivals = [.data (b :: block)] := by
    rw [← hblock]
    rfl
  rw [hblock] at hdrain
  obtain ⟨⟨s', hcall⟩, hheard⟩ := call_scripted (r := .deviceList) rfl rfl ⟨rfl, rfl⟩ harrivals
    hsize (by rw [hdrain]) (by rw [hdrain]; rfl) (by decide)
  have hfetch := getDeviceList_of_call hcall rfl
  have hheardAll : lateSession.heardFetching ++ [] = b :: block := by
    rw [List.append_nil, heardFetching, hheard]
  have hstream : (lateSession.inbox.feed (lateSession.heardFetching ++ [])).drain.1 =
      ⟨[].map .event ++ .answer (.success (.array [])) :: [.added "FAOUT-01"].map .event,
        none⟩ := by
    rw [hheardAll, hdrain]
    rfl
  have hfits : lateSession.inbox.Fits (lateSession.heardFetching ++ []) :=
    fun _ _ => .inl (by decide)
  obtain ⟨-, early, late, hafter, hearly, hdevices, hiff⟩ :=
    getDeviceList_listen rfl hfetch (.done _) hstream hfits
  -- the block brought the event, too
  obtain ⟨rfl, rfl⟩ : early = [.added "FAOUT-01"] ∧ late = [] := by
    have hwhole : lateSession.heardFetching = b :: block := by rwa [List.append_nil] at hheardAll
    rw [hwhole, hdrain] at hearly
    cases early with
    | nil => cases hearly
    | cons e early =>
      obtain ⟨rfl, hnone⟩ := List.cons.inj hafter
      obtain ⟨rfl, rfl⟩ := List.append_eq_nil_iff.1 hnone.symm
      exact ⟨rfl, rfl⟩
  refine ⟨_, rfl, hfetch, .done _, hstream, hfits, ?_, ?_⟩
  · intro x hx
    cases (hdevices x).1 hx
  · intro hall
    have hkept := hiff.1 hall "FAOUT-01" (by simp)
    exact absurd (hkept.2 (by decide)) (by simp)

end Session

end BoardLink
