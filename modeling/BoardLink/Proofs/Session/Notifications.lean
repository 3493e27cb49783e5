import BoardLink.Proofs.Session.Steps

/-!
# Notifications as a log

The registry of a session changes in four ways: by the events that are decoded, by a device list,
and, when the session ends, by a fatal error or because it is closed. Each of them is a sequence of
events (`Operation.events`), so that over a run the registry is one that has applied events, and the
notifications are what it has told about them.

Handing notifications out does not show in this: a registry tells the same about later events,
whatever was taken of the earlier ones (`Registry.applyAll_withPending`).

* `Operation.registry_run` — one operation applies its events, and hands out the notifications from
  the front of the queue;
* `Session.registry_after` — the same of a run;
* `Session.replayAll_handed` — whoever follows the notifications of a session, those handed out and
  those that are still queued, knows its devices.
-/

namespace BoardLink

open BoardLink.Wire

namespace Registry

variable {κ : Type}

/-- A registry with other notifications in its queue. -/
def withPending (r : Registry κ) (pending : List Notification) : Registry κ :=
  { r with notifications := pending }

variable [Capability κ]

/-- What is queued does not matter to an event. -/
theorem apply_withPending (r : Registry κ) (pending : List Notification) (e : Event) :
    ((r.withPending pending).apply e).2 = (r.apply e).2.withPending (pending ++ r.tells e) := by
  -- what an event tells depends on the devices, which are the same; where it tells nothing, nothing
  -- is
  cases e with
  | added serial =>
    simp only [Registry.apply, Registry.add, tells]
    show Prod.snd (if r.contains serial then _ else _) = _
    split
    · exact congrArg r.withPending (List.append_nil pending).symm
    · rfl
  | removed serial =>
    simp only [Registry.apply, Registry.remove, tells]
    show Prod.snd (if r.contains serial then _ else _) = _
    split
    · rfl
    · exact congrArg r.withPending (List.append_nil pending).symm
  | changed serial addr port value =>
    simp only [Registry.apply, Registry.change, tells]
    show Prod.snd (if r.contains serial then _ else _) = _
    split
    · rfl
    · show _ = withPending _ (pending ++ [])
      rw [List.append_nil]
      rfl

theorem tells_withPending (r : Registry κ) (pending : List Notification) (e : Event) :
    (r.withPending pending).tells e = r.tells e := by
  cases e <;> rfl

/-- **What is queued does not matter to events.** They queue what they tell behind it. -/
theorem applyAll_withPending (r : Registry κ) (pending : List Notification) (events : List Event) :
    (r.withPending pending).applyAll events =
      (r.applyAll events).withPending (pending ++ r.told events) := by
  induction events generalizing r pending with
  | nil => exact congrArg r.withPending (List.append_nil pending).symm
  | cons e events ih =>
    -- the first event works on the other queue, and leaves the devices the same for the rest
    have hcons : (r.withPending pending).applyAll (e :: events) =
        ((r.withPending pending).apply e).2.applyAll events := rfl
    rw [hcons, apply_withPending, ih, told, List.append_assoc]
    rfl

theorem told_withPending (r : Registry κ) (pending : List Notification) (events : List Event) :
    (r.withPending pending).told events = r.told events := by
  induction events generalizing r pending with
  | nil => rfl
  | cons e events ih => rw [told, told, tells_withPending, apply_withPending, ih]

/-- **`r'` is `r` once it has applied events**, and `handed` was taken off the front of what was
queued by then. -/
structure Follows (r : Registry κ) (events : List Event) (handed : List Notification)
    (r' : Registry κ) : Prop where
  registry : r' = (r.applyAll events).withPending r'.notifications
  log : handed ++ r'.notifications = (r.applyAll events).notifications

namespace Follows

variable {r r' r'' : Registry κ} {events later : List Event} {handed others : List Notification}

theorem applyAll (r : Registry κ) (events : List Event) :
    Follows r events [] (r.applyAll events) := ⟨rfl, rfl⟩

theorem take (r : Registry κ) (events : List Event) :
    Follows r events (r.applyAll events).notifications (r.applyAll events).takeNotifications.2 :=
  ⟨rfl, List.append_nil _⟩

/-- One after the other: what the second part tells comes behind what the first part has left in
the queue. -/
theorem trans (h : Follows r events handed r') (h' : Follows r' later others r'') :
    Follows r (events ++ later) (handed ++ others) r'' where
  registry := by
    have hlater := applyAll_withPending (r.applyAll events) r'.notifications later
    rw [← h.registry] at hlater
    rw [h'.registry, hlater, applyAll_append]
    rfl
  log := by
    -- the queue does not change what later events tell
    have htold : r'.told later = (r.applyAll events).told later := by
      rw [h.registry]
      exact told_withPending _ _ later
    calc handed ++ others ++ r''.notifications
        = handed ++ (r'.applyAll later).notifications := by rw [List.append_assoc, h'.log]
      _ = handed ++ r'.notifications ++ (r.applyAll events).told later := by
        rw [notifications_applyAll, htold, List.append_assoc]
      _ = (r.applyAll (events ++ later)).notifications := by
        rw [h.log, applyAll_append, notifications_applyAll (r.applyAll events)]

theorem roster_eq (h : Follows r events handed r') : r'.roster = (r.applyAll events).roster := by
  rw [h.registry]
  rfl

end Follows

end Registry

/-! ### What an operation does to the registry -/

theorem Session.close_of_open {τ κ : Type} {s : Session τ κ} (hopen : s.closed = false) :
    s.close.closed = true ∧ s.close.answers = [] ∧ s.close.registry = s.registry.clear := by
  obtain ⟨hook, queued, hadopt⟩ :=
    Session.adopt_eq { s with closed := true, answers := [] } s.registry.clear
  rw [Session.close, if_neg (ne_true_of_eq_false hopen), Session.shutDown, hadopt]
  exact ⟨rfl, rfl, rfl⟩

/-- No call hands out notifications. -/
theorem Call.outcome_ne_notifications (c : Call) (a : Answer) (notifications : List Notification) :
    c.outcome a ≠ .ok (.notifications notifications) := by
  intro h
  obtain ⟨b, -, hread⟩ := bind_eq_ok_iff.1 h
  -- writing gives no reply of its own, and the other calls give what they read
  cases c with
  | writeReg | writeRegN | writeRaw => cases hread
  | _ =>
    obtain ⟨x, -, hx⟩ := map_eq_ok_iff.1 hread
    cases hx

/-- The notifications that a result hands out. -/
def handedBy : Except SessionError Reply → List Notification
  | .ok (.notifications notifications) => notifications
  | _ => []

/-- The events that a result stands for: a device list is adopted, and all devices disappear if the
session ends. -/
def Registry.concluding {κ : Type} [Capability κ] (r : Registry κ)
    (result : Except SessionError Reply) (ends : Bool) : List Event :=
  (match result with
    | .ok (.serials serials) => r.listing serials
    | _ => []) ++ if ends then r.clearing else []

namespace Operation

variable {τ κ : Type} [Transport τ] [Capability κ]

/-- The events that an operation comes to: those that are decoded while it runs, and those that its
result stands for. -/
def events (op : Operation) (s : Session τ κ) : List Event :=
  let decoded := eventsIn (s.inbox.packetsIn (op.pieces s))
  decoded ++ (s.registry.applyAll decoded).concluding (op.run s).1
    (!s.closed && (op.run s).2.closed)

/-- The notifications that an operation hands out. -/
def handed (op : Operation) (s : Session τ κ) : List Notification := handedBy (op.run s).1

/-- Whatever an operation does with the session that it has got, the registry follows. -/
theorem Makes.follows {op : Operation} {s₁ : Session τ κ}
    {outcome : Except SessionError Reply × Session τ κ} (hopen : s₁.closed = false)
    (h : op.Makes s₁ outcome) :
    s₁.registry.Follows (s₁.registry.concluding outcome.1 outcome.2.closed) (handedBy outcome.1)
      outcome.2.registry := by
  have hidle := Registry.Follows.applyAll s₁.registry []
  have htake := Registry.Follows.take s₁.registry []
  have hends : s₁.registry.Follows (s₁.registry.concluding (.ok .done) true) [] s₁.close.registry := by
    rw [(Session.close_of_open hopen).2.2, Registry.clear_eq_applyAll]
    exact .applyAll s₁.registry s₁.registry.clearing
  -- what the result stands for: closing removes all devices, taking hands out the queue
  cases h with
  | fatal he | close => rwa [(Session.close_of_open hopen).1]
  | poll | take => rwa [show s₁.takeNotifications.2.closed = false from hopen]
  | refused he | starved hnone hcan | send | feed => rwa [hopen]
  | setHook => rwa [show s₁.setHook.closed = false from hopen]
  | @exchange r a answers ha | @await a answers ha =>
    -- an answer as such is given back, and no device is concerned
    rw [show ({ s₁ with answers } : Session τ κ).closed = false from hopen]
    cases Session.answerOutcome a with
    | error e => exact hidle
    | ok b => exact hidle
  | @call c r a answers hr ha =>
    -- a result with notifications is impossible for a call, which leaves the device list
    have hnone := c.outcome_ne_notifications a
    generalize c.outcome a = result at hnone ⊢
    match result with
    | .error e =>
      rw [show (({ s₁ with answers } : Session τ κ).settle (.error e)).closed = false from hopen]
      exact hidle
    | .ok (.serials serials) =>
      -- the one call that changes the registry
      obtain ⟨hook, queued, hadopt⟩ := Session.adopt_eq ({ s₁ with answers } : Session τ κ)
        (s₁.registry.reconcile serials)
      have hsettle : ({ s₁ with answers } : Session τ κ).settle (.ok (.serials serials)) = _ := hadopt
      rw [hsettle, hopen, Registry.concluding, Registry.reconcile_eq_applyAll]
      simp only [Bool.false_eq_true, if_false, List.append_nil]
      exact .applyAll s₁.registry _
    | .ok (.notifications notifications) => exact absurd rfl (hnone notifications)
    | .ok .done | .ok (.flag _) | .ok (.word _) | .ok (.words _) | .ok (.bytes _)
    | .ok (.answer _) =>
      simp only [Session.settle, hopen]
      exact hidle

/-- **An operation applies its events**, and hands out notifications from the front of the queue. -/
theorem registry_run (op : Operation) (s : Session τ κ) :
    s.registry.Follows (op.events s) (op.handed s) (op.run s).2.registry := by
  unfold events handed
  cases hclosed : s.closed with
  | true =>
    -- nothing arrives, and nothing is changed
    have hpieces : op.pieces s = [] := if_pos hclosed
    have hidles := op.run_idles hclosed
    rw [hpieces]
    generalize op.run s = outcome at hidles ⊢
    cases hidles with
    | closed | refused | close | setHook => exact .applyAll s.registry []
    | take => exact .take s.registry []
  | false =>
    -- what is decoded comes first, and what the result stands for is applied behind it
    obtain ⟨s₁, htakes, hmakes⟩ := op.run_makes hclosed
    have hdecoded := Registry.Follows.applyAll s.registry
      (eventsIn (s.inbox.packetsIn (op.pieces s)))
    rw [← htakes.registry] at hdecoded
    have hfollows := hdecoded.trans (hmakes.follows (htakes.closed.trans hclosed))
    rw [List.nil_append, htakes.registry] at hfollows
    exact hfollows

end Operation

/-! ### Runs -/

namespace Session

variable {τ κ : Type} [Transport τ] [Capability κ]

/-- **Over a run a registry applies the events of the operations**, in their order, and the
notifications are handed out in theirs. -/
theorem registry_after (operations : List Operation) (s : Session τ κ) :
    s.registry.Follows (gather Operation.events operations s)
      (gather Operation.handed operations s) (after operations s).registry := by
  induction operations generalizing s with
  | nil => exact .applyAll s.registry []
  | cons op operations ih => exact (op.registry_run s).trans (ih (op.run s).2)

/-- **The notifications of a session are a log of its devices.** Those handed out in a run and those
that are still queued are, one behind the other, what the events of the run tell: none is lost, told
twice or moved. They can be followed from no devices on, and lead to the devices that the session
has, with the names of their capabilities. -/
theorem replayAll_handed (transport : τ) (config : Config) (own : Option (CapabilityTable κ))
    (shared : CapabilityTable κ) (operations : List Operation) :
    let s₀ := create transport config own shared
    let s := after operations s₀
    let log := gather Operation.handed operations s₀ ++ s.registry.notifications
    log = s₀.registry.told (gather Operation.events operations s₀) ∧
      Notification.replayAll [] log = some s.registry.roster ∧
      s.devices = sortSerials (s.registry.roster.map (·.1)) := by
  intro s₀ s log
  have hfollows := registry_after operations s₀
  have hlog : log = s₀.registry.told (gather Operation.events operations s₀) := by
    -- the log begins with an empty queue, so all of it was told in the run
    rw [← List.nil_append (s₀.registry.told _)]
    exact hfollows.log.trans (Registry.notifications_applyAll s₀.registry _)
  refine ⟨hlog, ?_, ?_⟩
  · rw [hlog, hfollows.roster_eq]
    exact Registry.replay_told s₀.registry _
  · rw [Registry.roster, List.map_map]
    rfl

end Session

end BoardLink
