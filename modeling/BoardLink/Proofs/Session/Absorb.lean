import BoardLink.Proofs.Registry.Told
import BoardLink.Proofs.Wire.Pieces
import BoardLink.Session.Exchange

/-!
# What a session takes over from its stream

A session decodes what has arrived at once: answers go into a queue, events act on the registry. So
what it has heard so far, however it arrived, comes to a list of packets, and the parts of its state
each follow that list (`Session.Absorbs`).

* `Session.Absorbs.trans` — what was heard one after the other adds up;
* `Session.Absorbs.of_deliver` — one delivery absorbs the packets that it completes (the crux: they
  are those that the stream has at this place, however it is cut, by `Inbox.drain_feed`);
* `Session.absorbs_of_awaitAnswer` — a session that waits for an answer absorbs what arrives up to
  the receive that brought the answer, and what else that receive brought.
-/

namespace BoardLink

open BoardLink.Wire

namespace Wire

/-- The answers among packets. -/
def answersIn (packets : List Packet) : List Answer :=
  packets.filterMap fun
    | .answer a => some a
    | _ => none

/-- The events among packets. -/
def eventsIn (packets : List Packet) : List Event :=
  packets.filterMap fun
    | .event e => some e
    | _ => none

theorem answersIn_map_event (events : List Event) : answersIn (events.map .event) = [] := by
  induction events with
  | nil => rfl
  | cons e events ih => exact ih

theorem eventsIn_map_event (events : List Event) : eventsIn (events.map .event) = events := by
  induction events with
  | nil => rfl
  | cons e events ih => exact congrArg (e :: ·) ih

end Wire

namespace Session

variable {τ κ : Type}

/-! ### What the application's hook leaves alone -/

theorem wake_eq (s : Session τ κ) : ∃ hook, s.wake = { s with hook := hook } := by
  unfold wake
  split
  · exact ⟨_, rfl⟩
  · exact ⟨s.hook, rfl⟩

theorem adopt_eq (s : Session τ κ) (r : Registry κ) :
    ∃ hook queued, s.adopt r = { s with registry := r, hook := hook, queued := queued } := by
  unfold adopt
  simp only
  split
  · obtain ⟨hook, hwake⟩ := wake_eq { s with
      registry := r, queued := s.queued + (r.pending - s.registry.pending) }
    exact ⟨hook, _, hwake⟩
  · exact ⟨s.hook, _, rfl⟩

/-! ### Absorbing packets -/

/-- **`s'` is `s` once it has heard `bytes`, which came to `packets`.** From then on its inbox
decodes the stream as the first one would have gone on to decode it; the answers have been queued in
their order, and the devices have followed the events. -/
structure Absorbs (s : Session τ κ) (bytes : Bytes) (packets : List Packet) (s' : Session τ κ) :
    Prop where
  limit : s'.inbox.framer.limit = s.inbox.framer.limit
  drain : ∀ more, s.inbox.Fits (bytes ++ more) →
    (s.inbox.feed (bytes ++ more)).drain =
      (⟨packets ++ (s'.inbox.feed more).drain.1.packets, (s'.inbox.feed more).drain.1.fault⟩,
        (s'.inbox.feed more).drain.2)
  answers : s'.answers = s.answers ++ answersIn packets
  devices : ∀ x, x ∈ s'.devices ↔ x ∈ Event.followAll s.devices (eventsIn packets)

namespace Absorbs

variable {s s' s'' : Session τ κ} {bytes bytes' : Bytes} {packets packets' : List Packet}

theorem refl (s : Session τ κ) : Absorbs s [] [] s where
  limit := rfl
  drain _ _ := rfl
  answers := (List.append_nil _).symm
  devices _ := Iff.rfl

/-- What is still to come fits if the whole stream does. -/
theorem fits (h : Absorbs s bytes packets s') {more : Bytes}
    (hfits : s.inbox.Fits (bytes ++ more)) : s'.inbox.Fits more := by
  intro front hfront
  -- a cut of what is still to come is a cut of the whole stream
  have hwhole : bytes ++ front <+: bytes ++ more := (List.prefix_append_right_inj bytes).2 hfront
  have hdrain := h.drain front (fun _ hpart => hfits _ (hpart.trans hwhole))
  have hx := hfits (bytes ++ front) hwhole
  rw [hdrain] at hx
  rw [h.limit]
  exact hx

theorem trans (h : Absorbs s bytes packets s') (h' : Absorbs s' bytes' packets' s'') :
    Absorbs s (bytes ++ bytes') (packets ++ packets') s'' where
  limit := h'.limit.trans h.limit
  drain more hfits := by
    -- what is heard first is decoded in front of the rest, and the rest as if it came alone
    rw [List.append_assoc] at hfits ⊢
    rw [h.drain (bytes' ++ more) hfits, h'.drain more (h.fits hfits), List.append_assoc]
  answers := by
    rw [h'.answers, h.answers, answersIn, answersIn, answersIn, List.filterMap_append,
      List.append_assoc]
  devices x := by
    rw [h'.devices x, eventsIn, eventsIn, List.filterMap_append, Event.followAll, Event.followAll,
      List.foldl_append]
    -- the events of the second part follow on devices that are the same
    exact Event.mem_followAll_congr _ (h.devices x)

/-- What was absorbed up to a settled inbox is what the stream decodes to. -/
theorem packets_eq (h : Absorbs s bytes packets s') (hfits : s.inbox.Fits bytes)
    (hsettled : s'.inbox.Settled) : (s.inbox.feed bytes).drain.1.packets = packets := by
  have hdrain := h.drain [] (by rwa [List.append_nil])
  rw [List.append_nil, Inbox.feed_nil] at hdrain
  calc (s.inbox.feed bytes).drain.1.packets
      = packets ++ s'.inbox.drain.1.packets := by rw [hdrain]
    _ = packets := by rw [hsettled, List.append_nil]

end Absorbs

variable [Capability κ]

/-- The queue grows by the answers, and the registry applies the events, packet after packet. -/
theorem foldl_dispatch (s : Session τ κ) (packets : List Packet) :
    (packets.foldl dispatch s).config = s.config ∧ (packets.foldl dispatch s).closed = s.closed ∧
      (packets.foldl dispatch s).inbox = s.inbox ∧
      (packets.foldl dispatch s).answers = s.answers ++ answersIn packets ∧
      (packets.foldl dispatch s).registry = s.registry.applyAll (eventsIn packets) := by
  induction packets generalizing s with
  | nil => exact ⟨rfl, rfl, rfl, (List.append_nil _).symm, rfl⟩
  | cons p packets ih =>
    -- each packet touches one part of the session
    obtain ⟨hconfig, hclosed, hinbox, hanswers, hregistry⟩ := ih (s.dispatch p)
    rw [List.foldl_cons]
    cases p with
    | answer a =>
      refine ⟨hconfig, hclosed, hinbox, ?_, hregistry⟩
      rw [hanswers]
      exact List.append_assoc s.answers [a] _
    | event e | unknown rcode fields => exact ⟨hconfig, hclosed, hinbox, hanswers, hregistry⟩

theorem dispatchAll_eq (s : Session τ κ) (packets : List Packet) :
    ∃ hook, s.dispatchAll packets = { packets.foldl dispatch s with hook := hook } := by
  unfold dispatchAll
  simp only
  split
  · exact wake_eq _
  · exact ⟨_, rfl⟩

theorem dispatchAll_parts (s : Session τ κ) (packets : List Packet) :
    (s.dispatchAll packets).inbox = s.inbox ∧
      (s.dispatchAll packets).answers = s.answers ++ answersIn packets ∧
      ∀ x, x ∈ (s.dispatchAll packets).devices ↔
        x ∈ Event.followAll s.devices (eventsIn packets) := by
  -- only the hook is not what packet after packet has made of the session
  obtain ⟨hook, hall⟩ := dispatchAll_eq s packets
  obtain ⟨-, -, hinbox, hanswers, hregistry⟩ := foldl_dispatch s packets
  rw [hall]
  refine ⟨hinbox, hanswers, fun x => ?_⟩
  show x ∈ (packets.foldl dispatch s).registry.serials ↔ _
  rw [Registry.mem_serials_iff, hregistry]
  exact Registry.contains_applyAll

/-- The session once it has taken over the packets that a piece completes. -/
def hear (data : Bytes) (s : Session τ κ) : Session τ κ :=
  { s with inbox := (s.inbox.feed data).drain.2 }.dispatchAll (s.inbox.feed data).drain.1.packets

/-- A delivery takes over what it completes, and then fails if the stream has a fault there. -/
theorem deliver_eq (data : Bytes) (s : Session τ κ) : deliver data s =
    match (s.inbox.feed data).drain.1.fault with
    | none => (.ok (), s.hear data)
    | some fault => fail (.ofFault fault) (s.hear data) := rfl

theorem hear_parts (data : Bytes) (s : Session τ κ) :
    (s.hear data).inbox = (s.inbox.feed data).drain.2 ∧
      (s.hear data).answers = s.answers ++ answersIn (s.inbox.feed data).drain.1.packets ∧
      ∀ x, x ∈ (s.hear data).devices ↔
        x ∈ Event.followAll s.devices (eventsIn (s.inbox.feed data).drain.1.packets) :=
  dispatchAll_parts { s with inbox := (s.inbox.feed data).drain.2 } _

theorem deliver_ok {s s' : Session τ κ} {data : Bytes} (h : deliver data s = (.ok (), s')) :
    (s.inbox.feed data).drain.1.fault = none ∧ s' = s.hear data := by
  -- a fault would have made the delivery fail
  rw [deliver_eq] at h
  split at h
  next hfault => exact ⟨hfault, (Prod.mk.inj h).2.symm⟩
  next fault hfault => simp [fail] at h

/-- **A delivery absorbs the packets that it completes**, and leaves no complete one behind. -/
theorem Absorbs.of_deliver {s s' : Session τ κ} {data : Bytes} (hfits : s.inbox.Fits data)
    (h : deliver data s = (.ok (), s')) :
    Absorbs s data (s.inbox.feed data).drain.1.packets s' ∧ s'.inbox.Settled := by
  obtain ⟨hfault, rfl⟩ := deliver_ok h
  obtain ⟨hinbox, hanswers, hdevices⟩ := hear_parts data s
  have hx : MessagePack.Walk.Exact s.inbox.framer.limit (s.inbox.feed data).drain.2.buffered :=
    hfits data (List.prefix_refl _)
  rw [hinbox]
  refine ⟨⟨?_, ?_, hanswers, hdevices⟩, Inbox.settled_drain hfault hx⟩
  · rw [hinbox]
    exact Inbox.limit_drain _
  · -- what comes later is decoded as if it had come together with this
    intro more _
    rw [hinbox, ← Inbox.feed_feed]
    exact Inbox.drain_feed more hfault hx

/-! ### Receiving and waiting -/

variable [Transport τ]

/-- What the transport delivers if the session receives now. -/
def arriving (s : Session τ κ) : Bytes :=
  if Transport.canReceive s.transport then
    match (Transport.receive s.transport s.config.bufferSize).1 with
    | .ok data => data
    | .error _ => []
  else []

/-- What the transport delivers until the session has an answer, or fails to get one. -/
def awaited (s : Session τ κ) : Bytes :=
  match s.answers with
  | _ :: _ => []
  | [] =>
    if Transport.canReceive s.transport then
      match h : receiveMore false s with
      | (.error _, _) => s.arriving
      | (.ok _, s') =>
        have := receivePatience_receiveMore h
        s.arriving ++ awaited s'
    else []
termination_by Transport.receivePatience s.transport

theorem awaited_of_answer {s : Session τ κ} {a : Answer} {answers : List Answer}
    (h : s.answers = a :: answers) : s.awaited = [] := by
  rw [awaited]
  split
  · rfl
  next hnone => rw [h] at hnone; cases hnone

theorem awaited_of_receive {s s' : Session τ κ} {n : Nat} (h : s.answers = [])
    (hcan : Transport.canReceive s.transport = true) (hmore : receiveMore false s = (.ok n, s')) :
    s.awaited = s.arriving ++ s'.awaited := by
  rw [awaited]
  split
  next hsome => rw [h] at hsome; cases hsome
  · rw [if_pos hcan]
    split
    next hfail => rw [hmore] at hfail; cases hfail
    next hok =>
      rw [hmore] at hok
      cases hok
      rfl

/-- **A receive absorbs what arrives.** If something has arrived the inbox is settled. -/
theorem absorbs_of_receiveMore {s s' : Session τ κ} {tolerate : Bool} {n : Nat}
    (hcan : Transport.canReceive s.transport = true) (hfits : s.inbox.Fits s.arriving)
    (h : receiveMore tolerate s = (.ok n, s')) :
    ∃ packets, Absorbs s s.arriving packets s' ∧
      ((packets = [] ∧ s'.inbox = s.inbox) ∨ s'.inbox.Settled) := by
  unfold receiveMore at h
  unfold arriving at hfits ⊢
  rw [if_pos hcan] at hfits ⊢
  split at h
  next transport hreceive => simp [fail] at h
  next b data transport hreceive =>
    rw [hreceive] at hfits ⊢
    split at h
    next s₁ hdeliver =>
      obtain ⟨-, rfl⟩ := Prod.mk.inj h
      have hfits' : ({ s with transport } : Session τ κ).inbox.Fits (b :: data) := hfits
      obtain ⟨habsorbs, hsettled⟩ := Absorbs.of_deliver hfits' hdeliver
      exact ⟨_, ⟨habsorbs.limit, habsorbs.drain, habsorbs.answers, habsorbs.devices⟩,
        .inr hsettled⟩
    · cases h
  next fault transport hreceive =>
    -- a fault that is tolerated brings nothing
    rw [hreceive]
    have hidle : Absorbs s [] [] { s with transport } :=
      ⟨rfl, fun _ _ => rfl, (List.append_nil _).symm, fun _ => Iff.rfl⟩
    split at h
    · obtain ⟨-, rfl⟩ := Prod.mk.inj h
      exact ⟨[], hidle, .inl ⟨rfl, rfl⟩⟩
    · split at h
      · obtain ⟨-, rfl⟩ := Prod.mk.inj h
        exact ⟨[], hidle, .inl ⟨rfl, rfl⟩⟩
      · simp [fail] at h

/-- **A session that waits absorbs what arrives until there is an answer**, and takes that answer
off its queue. If it had to receive, its inbox is settled. -/
theorem absorbs_of_awaitAnswer {s s' : Session τ κ} {a : Answer} (hfits : s.inbox.Fits s.awaited)
    (h : awaitAnswer s = (.ok a, s')) :
    ∃ packets s'', Absorbs s s.awaited packets s'' ∧ s''.answers = a :: s'.answers ∧
      s' = { s'' with answers := s'.answers } ∧
      (s.answers = [] ∨ s.inbox.Settled → s''.inbox.Settled) := by
  induction hn : Transport.receivePatience s.transport using Nat.strongRecOn generalizing s with
  | _ n ih =>
  rw [awaitAnswer] at h
  split at h
  next first answers hanswers =>
    -- an answer is there already
    obtain ⟨houtcome, rfl⟩ := Prod.mk.inj h
    obtain rfl : first = a := by
      unfold answerOutcome at houtcome
      split at houtcome
      · cases houtcome
      · exact Except.ok.inj houtcome
    refine ⟨[], s, ?_, hanswers, rfl, ?_⟩
    · rw [awaited_of_answer hanswers]
      exact Absorbs.refl s
    · rintro (hnone | hsettled)
      · rw [hanswers] at hnone
        cases hnone
      · exact hsettled
  next hnone =>
    split at h
    next hcan =>
      split at h
      · cases h
      next s₁ hmore =>
        rw [awaited_of_receive hnone hcan hmore] at hfits ⊢
        -- one receive, and then the wait goes on with less to wait for
        obtain ⟨first, hfirst, hsettled⟩ := absorbs_of_receiveMore hcan hfits.of_append hmore
        have hpatience := receivePatience_receiveMore hmore
        obtain ⟨packets, s'', habsorbs, hanswers, hs', hlast⟩ :=
          ih _ (by omega) (hfirst.fits hfits) h rfl
        refine ⟨first ++ packets, s'', hfirst.trans habsorbs, hanswers, hs', ?_⟩
        · intro _
          refine hlast ?_
          rcases hsettled with ⟨rfl, -⟩ | hsettled
          · -- nothing was queued, so there is still no answer
            left
            rw [hfirst.answers, hnone]
            rfl
          · exact .inr hsettled
    · cases h

end Session

end BoardLink
