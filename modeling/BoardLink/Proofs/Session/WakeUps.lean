import BoardLink.Proofs.Session.Feeding
import BoardLink.Proofs.Session.ReadyHook
import BoardLink.Proofs.Session.Violations

/-!
# How often the application is woken

A pass over what was fed queues its items all together, and the hook runs behind them. But a pass
that meets a fault has two ends: the hook runs behind the packets in front of the fault, and then the
session ends, which queues the removals of its devices, and the hook runs behind them, too. So one
pass can wake the application twice.

* `Session.length_items_feed` — what a pass queues is what its packets queue, and the removals if it
  ends the session;
* `Session.runs_feed_eq` — the hook runs once for each of the two that is not empty;
* `Session.runs_feed` — so a pass wakes the application once if it queues anything, but for those
  that do both.
-/

namespace BoardLink

open BoardLink.Wire

namespace Registry

variable {κ : Type} [Capability κ]

/-- Clearing tells nothing only where there is no device. -/
theorem told_clearing_eq_nil_iff {r : Registry κ} : r.told r.clearing = [] ↔ r.serials = [] := by
  rw [clearing]
  cases hserials : r.serials with
  | nil => exact ⟨fun _ => rfl, fun _ => rfl⟩
  | cons serial serials =>
    -- the first serial has a device, so the first removal is already told
    have hpresent : r.contains serial := mem_serials_iff.1 (hserials ▸ List.mem_cons_self)
    rw [List.map_cons, told, tells, if_pos hpresent]
    simp

end Registry

namespace Session

variable {τ κ : Type}

/-- Waking behind `n` items runs the hook once, unless there are none. -/
theorem runs_wake_behind {s : Session τ κ} (hhook : s.hook.installed = true) (n : Nat) :
    (if 0 < n then s.wake else s).hook.runs = s.hook.runs + if 0 < n then 1 else 0 := by
  split
  · rw [wake, if_pos hhook]
  · rfl

variable [Capability κ]

/-- Packets that are taken over together wake the application once. -/
theorem runs_dispatchAll {s : Session τ κ} (hhook : s.hook.installed = true)
    (packets : List Packet) : (s.dispatchAll packets).hook.runs =
      s.hook.runs + if 0 < itemsIn s.registry packets then 1 else 0 := by
  obtain ⟨hqueued, -, hsame⟩ := foldl_dispatch_counts s packets
  -- the counter has grown exactly if items were queued, which is what decides on waking
  have hgrows : s.queued < (packets.foldl dispatch s).queued ↔ 0 < itemsIn s.registry packets := by
    rw [hqueued]
    omega
  have hruns := runs_wake_behind (hsame ▸ hhook) (itemsIn s.registry packets)
  rw [hsame] at hruns
  unfold dispatchAll
  simp only [hgrows]
  exact hruns

/-- The end of a session wakes the application once if there are devices to remove. -/
theorem runs_close {s : Session τ κ} (hopen : s.closed = false)
    (hhook : s.hook.installed = true) : s.close.hook.runs =
      s.hook.runs + if 0 < (s.registry.told s.registry.clearing).length then 1 else 0 := by
  -- the end wakes by what it has added to the queue, and these are the removals
  have hgrown : s.registry.clear.pending - s.registry.pending =
      (s.registry.told s.registry.clearing).length := by
    rw [Registry.clear_eq_applyAll, Registry.pending, Registry.pending,
      Registry.notifications_applyAll, List.length_append, Nat.add_sub_cancel_left]
  rw [close, if_neg (ne_true_of_eq_false hopen), shutDown, adopt]
  simp only [hgrown]
  let ended : Session τ κ := { s with
    closed := true, answers := [], registry := s.registry.clear,
    queued := s.queued + (s.registry.told s.registry.clearing).length }
  exact runs_wake_behind (s := ended) hhook _

/-! ### One pass -/

/-- What the packets queue that a piece completes. -/
def queuedBy (data : Bytes) (s : Session τ κ) : Nat :=
  itemsIn s.registry (s.inbox.packetsIn [data])

/-- The removals that a piece leads to: those of all devices that are there behind its packets, if
the session then ends. -/
def removedBy (data : Bytes) (s : Session τ κ) : Nat :=
  if (s.inbox.feed data).drain.1.fault.isSome then
    ((s.hear data).registry.told (s.hear data).registry.clearing).length
  else 0

/-- What is fed to an open session is taken over, and a fault ends the session. -/
theorem feed_eq {s : Session τ κ} (hopen : s.closed = false) (data : Bytes) : feed data s =
    match (s.inbox.feed data).drain.1.fault with
    | none => (.ok (), s.hear data)
    | some fault => (.error (.ofFault fault), (s.hear data).close) := by
  rw [feed_of_open hopen, deliver_eq]
  cases (s.inbox.feed data).drain.1.fault with
  | none => rfl
  | some fault => exact Prod.ext rfl (if_pos (isFatal_ofFault fault))

theorem closed_feed {s : Session τ κ} (hopen : s.closed = false) (data : Bytes) :
    (feed data s).2.closed = (s.inbox.feed data).drain.1.fault.isSome := by
  rw [feed_eq hopen]
  cases (s.inbox.feed data).drain.1.fault with
  | none => exact (closed_hear data s).trans hopen
  | some fault => exact closed_close _

/-- The hook runs behind the packets, and again behind the removals, if there are any. -/
theorem runs_feed_eq {s : Session τ κ} (hopen : s.closed = false)
    (hhook : s.hook.installed = true) (data : Bytes) : (feed data s).2.hook.runs =
      s.hook.runs + (if 0 < s.queuedBy data then 1 else 0) +
        if 0 < s.removedBy data then 1 else 0 := by
  -- the packets are taken over first, fault or not
  have hheard : (s.hear data).hook.runs =
      s.hook.runs + if 0 < s.queuedBy data then 1 else 0 := by
    rw [queuedBy, s.inbox.packetsIn_singleton data, hear]
    exact runs_dispatchAll (s := { s with inbox := (s.inbox.feed data).drain.2 }) hhook _
  rw [feed_eq hopen, removedBy]
  cases hfault : (s.inbox.feed data).drain.1.fault with
  | none => exact hheard
  | some fault =>
    -- a fault: the packets have left the session open and its hook installed, so the end wakes as
    -- well
    have hhook' := (Takes.of_hear s data).queues.installed hhook
    have hopen' := (closed_hear data s).trans hopen
    rw [Option.isSome_some, if_pos rfl, ← hheard]
    exact runs_close hopen' hhook'

variable [Transport τ]

/-- The events of a pass are those of its packets, and the removals if it ends the session. -/
theorem events_feed {s : Session τ κ} (hopen : s.closed = false) (data : Bytes) :
    (Operation.feed data).events s = eventsIn (s.inbox.packetsIn [data]) ++
      if (s.inbox.feed data).drain.1.fault.isSome then (s.hear data).registry.clearing else [] := by
  -- an open session takes in the whole piece at once
  have hpieces : (Operation.feed data).pieces s = [data] :=
    if_neg (ne_true_of_eq_false hopen)
  have hrun : (Operation.feed data).run s =
      ((feed data s).1.map fun _ => Reply.done, (feed data s).2) :=
    SessionM.map_apply (fun _ => Reply.done) (feed data) s
  rw [Operation.events, hpieces, (Takes.of_hear s data).registry, hopen, hrun,
    closed_feed hopen, feed_eq hopen]
  -- without a fault no events follow, and with one those of the removals
  cases (s.inbox.feed data).drain.1.fault <;> rfl

/-- What a pass queues is what its packets queue, and the removals. -/
theorem length_items_feed {s : Session τ κ} (hopen : s.closed = false) (data : Bytes) :
    ((Operation.feed data).items s).length = s.queuedBy data + s.removedBy data := by
  have hpieces : (Operation.feed data).pieces s = [data] :=
    if_neg (ne_true_of_eq_false hopen)
  have hregistry : s.registry.applyAll (eventsIn (s.inbox.packetsIn [data])) =
      (s.hear data).registry := (Takes.of_hear s data).registry.symm
  rw [Operation.length_items, hpieces, events_feed hopen, Registry.told_append, hregistry,
    List.length_append, queuedBy, itemsIn, removedBy, Nat.add_assoc]
  cases (s.inbox.feed data).drain.1.fault <;> rfl

/-- **A pass wakes twice** if its packets queue something, and it ends the session while devices are
attached. -/
def WakesTwice (data : Bytes) (s : Session τ κ) : Prop :=
  0 < s.queuedBy data ∧ (feed data s).2.closed = true ∧ (s.hear data).devices ≠ []

/-- **The hook is run once for a pass, but not always.** Let a piece be fed to an open session that
has a hook. Exactly if the pass does not wake twice, the hook

* runs once if the pass queues anything, be it answers, notifications of events, or the removals of a
  session that ends;
* does not run if it queues nothing.

If it wakes twice, the hook runs twice. -/
theorem runs_feed {s : Session τ κ} (hopen : s.closed = false) (hhook : s.hook.installed = true)
    (data : Bytes) :
    let s' := (feed data s).2
    let items := (Operation.feed data).items s
    (s'.hook.runs = s.hook.runs + (if items.isEmpty then 0 else 1) ↔ ¬ WakesTwice data s) ∧
      (WakesTwice data s → s'.hook.runs = s.hook.runs + 2) := by
  intro s' items
  have hruns : s'.hook.runs = _ := runs_feed_eq hopen hhook data
  have hlength : items.length = _ := length_items_feed hopen data
  -- removals are told exactly if the session ends with devices in it
  have hremoved : 0 < s.removedBy data ↔
      (feed data s).2.closed = true ∧ (s.hear data).devices ≠ [] := by
    rw [closed_feed hopen, removedBy, devices, ne_eq, ← Registry.told_clearing_eq_nil_iff]
    cases (s.inbox.feed data).drain.1.fault with
    | none => simp
    | some fault => simp [List.length_pos_iff]
  -- so waking twice is to queue something on both sides of the fault
  have htwice : WakesTwice data s ↔ 0 < s.queuedBy data ∧ 0 < s.removedBy data := by
    rw [WakesTwice, hremoved]
  have hempty : items.isEmpty = true ↔ s.queuedBy data + s.removedBy data = 0 := by
    rw [List.isEmpty_iff_length_eq_zero, hlength]
  -- two ends that both wake are one more than a pass that queues something
  have hends : ∀ m n : Nat, (if 0 < m then 1 else 0) + (if 0 < n then 1 else 0) =
      (if m + n = 0 then 0 else 1) + if 0 < m ∧ 0 < n then 1 else 0 := by
    intro m n
    split_ifs <;> omega
  rw [hruns, if_congr hempty rfl rfl, Nat.add_assoc, hends]
  -- waking twice is one run too many, and else the two ends never add up to more than one
  by_cases hboth : WakesTwice data s
  · have hsome : s.queuedBy data + s.removedBy data ≠ 0 :=
      (Nat.add_pos_left (htwice.1 hboth).1 _).ne'
    rw [if_pos (htwice.1 hboth), if_neg hsome]
    exact ⟨⟨fun honce => by omega, absurd hboth⟩, fun _ => rfl⟩
  · rw [if_neg (mt htwice.2 hboth)]
    exact ⟨iff_of_true rfl hboth, fun h => absurd h hboth⟩

/-- A device appears, and behind the event comes a byte that begins no packet. The application is
woken for the device, and again for its removal. -/
theorem runs_feed_violation :
    let s : Session SendOnly Known := { transport := {}, hook := { installed := true } }
    let data := encodePackets [.event (.added "FAOUT-01")] ++ [0xc1]
    (Operation.feed data).items s =
        [.inr (.deviceAdded "FAOUT-01" none), .inr (.deviceRemoved "FAOUT-01")] ∧
      (feed data s).2.hook.runs = 2 := by
  intro s data
  have hgets : readPackets.Gets MessagePack.defaultMessageLimit
      (Packet.event (.added "FAOUT-01")).toValue (.event (.added "FAOUT-01")) :=
    Packet.gets_event (by decide) (by decide)
  have hdrain : (s.inbox.feed data).drain.1 = _ := drain_event_reserved hgets
  have hpackets : s.inbox.packetsIn [data] = [.event (.added "FAOUT-01")] := by
    rw [Inbox.packetsIn_singleton, hdrain]
  have hserials : (s.hear data).registry.serials = ["FAOUT-01"] := by
    rw [(Takes.of_hear s data).registry, hpackets]
    exact List.mergeSort_singleton _
  -- the device appears, the pass ends the session, and the device is still there when it does
  have htwice : WakesTwice data s := by
    refine ⟨?_, ?_, ?_⟩
    · rw [queuedBy, hpackets]
      decide
    · rw [closed_feed rfl, hdrain]
      rfl
    · rw [devices, hserials]
      exact List.cons_ne_nil _ _
  refine ⟨?_, (runs_feed rfl rfl data).2 htwice⟩
  have hpieces : (Operation.feed data).pieces s = [data] := rfl
  rw [Operation.items, events_feed rfl, hpieces, hdrain, hpackets, Registry.clearing, hserials]
  rfl

end Session

end BoardLink
