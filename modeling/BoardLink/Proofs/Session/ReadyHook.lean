import BoardLink.Capability.Known
import BoardLink.Proofs.Session.Notifications
import BoardLink.Transport.Scripted

/-!
# Waking the application

An application that has nothing to do sleeps until its ready hook runs, and then takes all that is
there. This is safe if the hook runs behind whatever is queued, and cheap if it does not run for
nothing.

What an operation queues are the answers that are decoded while it runs and the notifications of all
its events (`Operation.items`), the events that its result stands for among them: a device list that
is adopted, and the devices that disappear when the session ends. Some of these items are gone again
when the operation returns, because a call takes its answer and a session that ends forgets those
that are left. They are counted all the same.

* `Operation.queues_run` — one operation;
* `Session.hook_after` — a run.
-/

namespace BoardLink

open BoardLink.Wire

/-- A new hook takes the place of the one that there is, and has run as often. -/
theorem Session.hook_setHook {τ κ : Type} {s : Session τ κ} (hhook : s.hook.installed = true) :
    s.setHook.hook = s.hook := by
  rw [Session.setHook, ← hhook]

namespace Operation

variable {τ κ : Type} [Transport τ] [Capability κ]

/-- The answers and notifications that an operation queues, even if it takes or forgets them. -/
def items (op : Operation) (s : Session τ κ) : List (Answer ⊕ Notification) :=
  (answersIn (s.inbox.packetsIn (op.pieces s))).map .inl ++
    (s.registry.told (op.events s)).map .inr

theorem length_items (op : Operation) (s : Session τ κ) : (op.items s).length =
    (answersIn (s.inbox.packetsIn (op.pieces s))).length +
      (s.registry.told (op.events s)).length := by
  rw [items, List.length_append, List.length_map, List.length_map]

/-- Whatever an operation does with the session that it has got, the hook covers it. -/
theorem Makes.queues {op : Operation} {s₁ : Session τ κ}
    {outcome : Except SessionError Reply × Session τ κ} (hopen : s₁.closed = false)
    (hhook : s₁.hook.installed = true) (h : op.Makes s₁ outcome) :
    s₁.Queues (s₁.registry.told (s₁.registry.concluding outcome.1 outcome.2.closed)).length
      outcome.2 := by
  -- the end queues its removals and then wakes, as one step
  have hends : s₁.Queues (s₁.registry.told (s₁.registry.concluding (.ok .done) true)).length
      s₁.close := Session.queues_close hopen
  cases h with
  | fatal he | close => rwa [(Session.close_of_open hopen).1]
  | poll | take =>
    rw [show s₁.takeNotifications.2.closed = false from hopen]
    exact .none rfl rfl
  | refused he | starved hnone hcan | send | feed =>
    rw [hopen]
    exact .none rfl rfl
  | setHook =>
    rw [show s₁.setHook.closed = false from hopen]
    exact .none rfl (Session.hook_setHook hhook)
  | @exchange r a answers ha | @await a answers ha =>
    -- an answer that is given back queues nothing, whatever it says
    rw [show ({ s₁ with answers } : Session τ κ).closed = false from hopen]
    cases Session.answerOutcome a with
    | error e => exact .none rfl rfl
    | ok b => exact .none rfl rfl
  | @call c r a answers hr ha =>
    generalize c.outcome a = result
    match result with
    | .ok (.serials serials) =>
      -- the list is adopted with what the registry tells about it
      obtain ⟨hook, queued, hsettle⟩ := Session.adopt_eq ({ s₁ with answers } : Session τ κ)
        (s₁.registry.reconcile serials)
      have hadopt := Session.queues_adopt ({ s₁ with answers } : Session τ κ)
        (s₁.registry.listing serials)
      have hclosed : (({ s₁ with answers } : Session τ κ).settle (.ok (.serials serials))).closed =
          false := by
        rw [Session.settle, hsettle]
        exact hopen
      rw [hclosed, Registry.concluding]
      simp only [Bool.false_eq_true, if_false, List.append_nil, Session.settle,
        Registry.reconcile_eq_applyAll]
      exact ⟨hadopt.queued, hadopt.installed, hadopt.woken, hadopt.idle⟩
    | .error _ | .ok .done | .ok (.flag _) | .ok (.word _) | .ok (.words _) | .ok (.bytes _)
    | .ok (.answer _) | .ok (.notifications _) =>
      -- no other result of a call concerns the registry
      simp only [Session.settle, hopen]
      exact .none rfl rfl

/-- **The hook runs behind all that an operation queues**, and does not run if it queues nothing. -/
theorem queues_run (op : Operation) {s : Session τ κ} (hhook : s.hook.installed = true) :
    s.Queues (op.items s).length (op.run s).2 := by
  rw [length_items]
  unfold events
  cases hclosed : s.closed with
  | true =>
    -- nothing arrives, and nothing is changed
    have hpieces : op.pieces s = [] := if_pos hclosed
    have hidles := op.run_idles hclosed
    rw [hpieces]
    generalize op.run s = outcome at hidles ⊢
    cases hidles with
    | closed | refused | close | take => exact .none rfl rfl
    | setHook => exact .none rfl (Session.hook_setHook hhook)
  | false =>
    -- first what is decoded is queued and covered, and then what the operation makes of it
    obtain ⟨s₁, htakes, hmakes⟩ := op.run_makes hclosed
    have hlater := hmakes.queues (htakes.closed.trans hclosed) (htakes.queues.installed hhook)
    have hall := htakes.queues.trans hlater
    rw [htakes.registry, Session.itemsIn, Nat.add_assoc, ← List.length_append,
      ← Registry.told_append] at hall
    exact hall

end Operation

namespace Session

variable {τ κ : Type} [Transport τ] [Capability κ]

theorem queues_after (operations : List Operation) {s : Session τ κ}
    (hhook : s.hook.installed = true) :
    s.Queues (gather Operation.items operations s).length (after operations s) := by
  induction operations generalizing s with
  | nil => exact .none rfl rfl
  | cons op operations ih =>
    -- the hook stays installed, so the rest of the run is covered, too
    have hfirst := op.queues_run hhook
    rw [gather, List.length_append]
    exact hfirst.trans (ih (hfirst.installed hhook))

/-- **No wake-up is lost, and none is spurious.** What an application does in one go with a session
that has a hook, be it one operation or the several that an operation of a board comes to,

* counts what it queues;
* if it queues anything, runs the hook, for the last time behind the last item;
* if it queues nothing, does not run the hook.

It does not matter how it ends, nor what becomes of the items. -/
theorem hook_after (operations : List Operation) {s : Session τ κ}
    (hhook : s.hook.installed = true) :
    let s' := after operations s
    let items := gather Operation.items operations s
    s'.queued = s.queued + items.length ∧
      (items ≠ [] → s.hook.runs < s'.hook.runs ∧ s'.hook.covered = s.queued + items.length) ∧
      (items = [] → s'.hook = s.hook) := by
  intro s' items
  have hqueues : s.Queues items.length s' := queues_after operations hhook
  -- the last run of the hook is behind the last item, since each operation wakes behind what it
  -- queues
  refine ⟨hqueues.queued, fun hsome => ?_, fun hnone => hqueues.idle ?_⟩
  · obtain ⟨hruns, hcovered⟩ := hqueues.woken hhook (List.length_pos_of_ne_nil hsome)
    exact ⟨hruns, hcovered.trans hqueues.queued⟩
  · rw [hnone, List.length_nil]

/-- A request that cannot be sent ends the session. The device that is there disappears with it, and
the application is woken for that. -/
theorem hook_after_brokenPipe :
    let fault : IoFault := { kind := .brokenPipe, message := "gone" }
    let s : Session SendOnly Known :=
      { transport := ⟨{ script := [.fail fault] }⟩, hook := { installed := true },
        registry := { devices := [⟨"FAOUT-01", none⟩] } }
    let s' := after [.send .deviceList] s
    s'.closed = true ∧
      gather Operation.items [.send .deviceList] s = [.inr (.deviceRemoved "FAOUT-01")] ∧
      s.hook.runs < s'.hook.runs ∧ s'.hook.covered = 1 := by
  intro fault s s'
  -- the first send fails, and all that is left of the session is its end
  have hsend : sendRequest .deviceList s = fail (.io fault) { s with transport := ⟨{}⟩ } := by
    rw [sendRequest_of_open rfl, show Request.deviceList.encode = 0x91 :: _ from rfl, sendAll_cons]
    rfl
  have hfails : (Operation.send .deviceList).run s =
      (.error (.io fault), ({ s with transport := ⟨{}⟩ } : Session SendOnly Known).close) := by
    show ((fun _ => Reply.done) <$> sendRequest .deviceList) s = _
    rw [SessionM.map_apply, hsend]
    rfl
  have hends : s'.closed = true := by
    show ((Operation.send .deviceList).run s).2.closed = true
    rw [hfails]
    exact (close_of_open rfl).1
  have hclearing : s.registry.clearing = [.removed "FAOUT-01"] := by
    rw [Registry.clearing, Registry.serials, sortSerials, List.map_singleton,
      List.mergeSort_singleton]
    rfl
  have hevents : (Operation.send .deviceList).events s = s.registry.clearing := by
    rw [Operation.events, show ((Operation.send .deviceList).run s).2.closed = true from hends,
      hfails]
    rfl
  have hitems : gather Operation.items [.send .deviceList] s =
      [.inr (.deviceRemoved "FAOUT-01")] := by
    rw [gather, gather, List.append_nil, Operation.items, hevents, hclearing]
    rfl
  obtain ⟨-, hwoken, -⟩ := hook_after [.send .deviceList] (s := s) rfl
  rw [hitems] at hwoken
  exact ⟨hends, hitems, hwoken (List.cons_ne_nil _ _)⟩

end Session

end BoardLink
