import BoardLink.Proofs.Session.Absorb

/-!
# What is queued, and the hook

A session queues items for the application: the answers that arrive, and what its registry tells. It
counts them as it queues them, and its hook remembers how many it had been told of when it ran last.
So an item that the application was not woken for would show: the hook would be behind the count.

`Session.Queues` says what a part of a session's life does to the two, and composes
(`Session.Queues.trans`). There are two ways in which items are queued. Packets are taken over all
together, and the hook runs once behind them (`Session.queues_dispatchAll`); and a registry is
adopted that has told something (`Session.queues_adopt`).
-/

namespace BoardLink

open BoardLink.Wire

/-- Whether a packet has an rcode that the protocol does not know. -/
def Wire.Packet.isUnknown : Packet → Bool
  | .unknown _ _ => true
  | _ => false

namespace Session

variable {τ κ : Type}

/-- **Between `s` and `s'` `n` items were queued.** If a hook is installed it was run behind the last
of them, and it was not run if there were none. -/
structure Queues (s : Session τ κ) (n : Nat) (s' : Session τ κ) : Prop where
  queued : s'.queued = s.queued + n
  installed : s.hook.installed → s'.hook.installed
  woken : s.hook.installed → 0 < n →
    s.hook.runs < s'.hook.runs ∧ s'.hook.covered = s'.queued
  idle : n = 0 → s'.hook = s.hook

namespace Queues

variable {s s' s'' : Session τ κ} {n m : Nat}

/-- Nothing was queued. -/
theorem none (hqueued : s'.queued = s.queued) (hhook : s'.hook = s.hook) : s.Queues 0 s' where
  queued := hqueued
  installed h := by rwa [hhook]
  woken _ hsome := absurd hsome (Nat.lt_irrefl 0)
  idle _ := hhook

theorem trans (h : s.Queues n s') (h' : s'.Queues m s'') : s.Queues (n + m) s'' where
  queued := by rw [h'.queued, h.queued, Nat.add_assoc]
  installed hhook := h'.installed (h.installed hhook)
  woken hhook hsome := by
    rcases Nat.eq_zero_or_pos m with rfl | hm
    · -- all was queued in the first part
      obtain ⟨hruns, hcovered⟩ := h.woken hhook hsome
      rw [h'.idle rfl, h'.queued]
      exact ⟨hruns, hcovered⟩
    · -- something was queued in the second part, and the hook ran behind that too
      obtain ⟨hruns, hcovered⟩ := h'.woken (h.installed hhook) hm
      refine ⟨?_, hcovered⟩
      rcases Nat.eq_zero_or_pos n with rfl | hn
      · rwa [h.idle rfl] at hruns
      · exact (h.woken hhook hn).1.trans hruns
  idle hnone := by
    obtain ⟨rfl, rfl⟩ := Nat.add_eq_zero_iff.1 hnone
    rw [h'.idle rfl, h.idle rfl]

/-- **Counting items and waking the application behind them.** -/
theorem of_wake (hqueued : s'.queued = s.queued + n) (hhook : s'.hook = s.hook) :
    s.Queues n (if 0 < n then s'.wake else s') := by
  rcases Nat.eq_zero_or_pos n with rfl | hn
  · -- a hook that did not run is as it was
    exact .none hqueued hhook
  · rw [if_pos hn, wake]
    split
    next hinstalled =>
      refine ⟨hqueued, fun _ => hinstalled, fun _ _ => ⟨?_, rfl⟩, fun h => absurd h hn.ne'⟩
      rw [hhook]
      exact Nat.lt_succ_self _
    next habsent =>
      -- without a hook there is nothing to run
      rw [hhook] at habsent
      exact ⟨hqueued, fun h => absurd h habsent, fun h => absurd h habsent, fun h => absurd h hn.ne'⟩

end Queues

variable [Capability κ]

/-- A registry that has applied events is adopted with what it told about them. -/
theorem queues_adopt (s : Session τ κ) (events : List Event) :
    s.Queues (s.registry.told events).length (s.adopt (s.registry.applyAll events)) := by
  -- what the registry has told is what its queue has grown by
  have hgrown : (s.registry.applyAll events).pending - s.registry.pending =
      (s.registry.told events).length := by
    rw [Registry.pending, Registry.pending, Registry.notifications_applyAll, List.length_append,
      Nat.add_sub_cancel_left]
  unfold adopt
  simp only [hgrown]
  exact .of_wake rfl rfl

/-- The end of an open session queues the removals of its devices. -/
theorem queues_close {s : Session τ κ} (hopen : s.closed = false) :
    s.Queues (s.registry.told s.registry.clearing).length s.close := by
  have hends := queues_adopt { s with closed := true, answers := [] } s.registry.clearing
  rw [close, if_neg (ne_true_of_eq_false hopen), shutDown, Registry.clear_eq_applyAll]
  exact ⟨hends.queued, hends.installed, hends.woken, hends.idle⟩

/-- What packets queue, in a registry that has to tell of their events. -/
def itemsIn (r : Registry κ) (packets : List Packet) : Nat :=
  (answersIn packets).length + (r.told (eventsIn packets)).length

theorem itemsIn_answer (r : Registry κ) (a : Answer) (packets : List Packet) :
    itemsIn r (.answer a :: packets) = 1 + itemsIn r packets := by
  show (answersIn packets).length + 1 + _ = 1 + ((answersIn packets).length + _)
  rw [Nat.add_comm _ 1, Nat.add_assoc]
  rfl

theorem itemsIn_event (r : Registry κ) (e : Event) (packets : List Packet) :
    itemsIn r (.event e :: packets) =
      (r.apply e).1.toNat + itemsIn (r.apply e).2 packets := by
  show (answersIn packets).length + (r.told (e :: eventsIn packets)).length = _
  rw [Registry.told, List.length_append, Registry.length_tells, itemsIn]
  omega

/-- Each packet is counted, as an item or as one with an unknown rcode. -/
theorem foldl_dispatch_counts (s : Session τ κ) (packets : List Packet) :
    (packets.foldl dispatch s).queued = s.queued + itemsIn s.registry packets ∧
      (packets.foldl dispatch s).unknownRcodes =
        s.unknownRcodes + packets.countP (·.isUnknown) ∧
      (packets.foldl dispatch s).hook = s.hook := by
  -- the items of a packet are told by the registry that it meets, so the registry changes along the
  -- way
  induction packets generalizing s with
  | nil => exact ⟨rfl, rfl, rfl⟩
  | cons p packets ih =>
    obtain ⟨hqueued, hunknown, hhook⟩ := ih (s.dispatch p)
    rw [List.foldl_cons, List.countP_cons, hqueued, hunknown, hhook]
    cases p with
    | answer a =>
      rw [itemsIn_answer, ← Nat.add_assoc]
      exact ⟨rfl, rfl, rfl⟩
    | event e =>
      rw [itemsIn_event, ← Nat.add_assoc]
      exact ⟨rfl, rfl, rfl⟩
    | unknown rcode fields =>
      rw [Nat.add_comm (packets.countP _), ← Nat.add_assoc]
      exact ⟨rfl, rfl, rfl⟩

/-- **Packets that are taken over together wake the application once**, behind the last of them. -/
theorem queues_dispatchAll (s : Session τ κ) (packets : List Packet) :
    s.Queues (itemsIn s.registry packets) (s.dispatchAll packets) := by
  obtain ⟨hqueued, -, hhook⟩ := foldl_dispatch_counts s packets
  -- the hook is decided by the count, which grows if and only if there are items
  have hgrows : s.queued < (packets.foldl dispatch s).queued ↔ 0 < itemsIn s.registry packets := by
    rw [hqueued]
    omega
  unfold dispatchAll
  simp only [hgrows]
  exact .of_wake hqueued hhook

end Session

end BoardLink
