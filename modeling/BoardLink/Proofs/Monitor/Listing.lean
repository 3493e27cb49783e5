import BoardLink.Proofs.Monitor.Tracking
import BoardLink.Proofs.Registry.Reconcile

/-!
# The kinds in a listing

A monitor lists the devices that are there when it begins, but it looks up the kind of each one only
when its line is printed. Before that it may have read the states of the boards further up, and what
has arrived meanwhile has changed its session: a board may have disappeared, and all of them have if
the connection has ended. Such a board is still listed, as a generic device.

* `Monitor.kindOf_eq` — the kind of a device is told by its serial as long as the device is attached;
* `Monitor.labels_run` — which lines of a listing name the kind that the device had at first.
-/

namespace BoardLink

open BoardLink.Wire

namespace Monitor

open BoardLink.Faout Session

variable {τ : Type}

/-- The kind that a device would be listed with now. -/
def kindOf (s : MonitorSession τ) (x : String) : String :=
  ((s.device? x).bind (·.capabilityName?)).getD "generic"

/-- **A board has its kind as long as it is attached.** Everything else is generic. -/
theorem kindOf_eq {s : MonitorSession τ} (h : Boards s.registry) (x : String) : kindOf s x =
    if CapabilityTable.matchesLead serialLead x ∧ s.registry.contains x then serialLead
    else "generic" := by
  rw [kindOf, device?]
  by_cases hpresent : s.registry.contains x
  · obtain ⟨d, hd⟩ := Registry.exists_get?_of_contains hpresent
    have htracked := h.tracked d (List.mem_of_find?_eq_some hd)
    rw [Registry.serial_of_get? hd] at htracked
    rw [hd, ← htracked, Option.bind_some, Device.capabilityName?]
    cases d.capability with
    | none => exact (if_neg fun hboth => absurd hboth.1 Bool.false_ne_true).symm
    | some t => exact (if_pos ⟨rfl, hpresent⟩).symm
  -- a device that is not attached has no kind of its own
  · rw [Registry.get?_eq_none_of_absent hpresent, if_neg fun hboth => hpresent hboth.2]
    rfl

/-- A session that has ended has no board left. -/
theorem kindOf_of_closed {s : MonitorSession τ} (h : Boards s.registry) (hempty : s.EmptyIfClosed)
    (hclosed : s.closed = true) (x : String) : kindOf s x = "generic" := by
  rw [kindOf_eq h, if_neg]
  -- it holds no devices any more
  rintro ⟨-, hpresent⟩
  obtain ⟨d, hd, -⟩ := Registry.contains_iff.1 hpresent
  rw [(hempty hclosed).1] at hd
  exact absurd hd List.not_mem_nil

variable [Transport τ]

/-- Behind some operations the boards have their kind that the events have left attached. -/
theorem kindOf_after {s : MonitorSession τ} {ops : List Operation}
    (h : Boards (after ops s).registry) (x : String) : kindOf (after ops s) x =
    if CapabilityTable.matchesLead serialLead x ∧
      x ∈ Event.followAll s.devices (gather Operation.events ops s) then serialLead
    else "generic" := by
  -- the devices that are left are those that the events have left
  have hattached : (after ops s).registry.contains x ↔
      x ∈ Event.followAll s.devices (gather Operation.events ops s) := by
    rw [(registry_after ops s).registry]
    exact Registry.contains_applyAll
  rw [kindOf_eq h]
  simp only [hattached]

/-- The listing of one device: its line, and then maybe its status. -/
theorem listDevice_fst (status : Bool) (s : MonitorSession τ) (x : String) :
    ∃ below, (listDevice status s x).1 = (x ++ " [" ++ kindOf s x ++ "]") :: below ∧
      (below = [] ∨ ∃ word, below = [statusLine word]) := by
  unfold listDevice
  simp only
  split
  · rcases readStatus x s with ⟨e | word, s'⟩
    · exact ⟨[], rfl, .inl rfl⟩
    · exact ⟨[statusLine word], rfl, .inr ⟨word, rfl⟩⟩
  · exact ⟨[], rfl, .inl rfl⟩

/-- What is listed later is listed from the session as the readings before have left it. -/
theorem listDevices_append (status : Bool) (s : MonitorSession τ) (before behind : List String) :
    (listDevices status s (before ++ behind)).1 = (listDevices status s before).1 ++
      -- what is listed first leaves a session, and the rest is listed from it
      (listDevices status (after (readings status before s) s) behind).1 := by
  induction before generalizing s with
  | nil => rfl
  | cons x before ih =>
    let s' := (listDevice status s x).2
    rw [readings, after_append, ← listDevice_snd]
    calc (listDevice status s x).1 ++ (listDevices status s' (before ++ behind)).1
        = (listDevice status s x).1 ++ ((listDevices status s' before).1 ++
            (listDevices status (after (readings status before s') s') behind).1) := by rw [ih]
      _ = _ := (List.append_assoc ..).symm

/-- The block of one device in a listing. -/
theorem printDevices_split {status : Bool} {s : MonitorSession τ} {before behind : List String}
    {x : String} (h : s.devices = before ++ x :: behind) :
    ∃ front below rest, (printDevices status s).1 = front.flatten ++
        (x ++ " [" ++ kindOf (after (readings status before s) s) x ++ "]") :: below ++
          rest.flatten ∧
      List.Forall₂ ListsDevice before front ∧ (below = [] ∨ ∃ word, below = [statusLine word]) ∧
      List.Forall₂ ListsDevice behind rest := by
  let s' := after (readings status before s) s
  obtain ⟨front, hfront, hfronts⟩ := forall₂_listDevices status s before
  obtain ⟨below, hblock, hbelow⟩ := listDevice_fst status s' x
  obtain ⟨rest, hrest, hrests⟩ := forall₂_listDevices status (listDevice status s' x).2 behind
  refine ⟨front, below, rest, ?_, hfront, hbelow, hrest⟩
  -- there is this device, so the listing is that of the devices
  have hsome : s.devices ≠ [] := by simp [h]
  have hprint : printDevices status s = listDevices status s s.devices := by
    unfold printDevices
    split
    next hnone => exact absurd hnone hsome
    · rfl
  rw [hprint, h, listDevices_append, hfronts, ← hrests, ← hblock, List.append_assoc]
  rfl

/-- **Which kinds a listing names.** Take any run of a monitor and any device of its listing. The
devices before it have been listed, maybe with readings of their states, and events have arrived by
then. The line names the kind that the device had when the listing began, unless it is that of a
board which the events have removed; the end of the connection removes all. The line of such a board
names it generic. So without states no kind is wrong. -/
theorem labels_run (transport : τ) (config : Config) (status : Bool) (polls : Nat) :
    let s₁ := after [.call .deviceList, .take] (create transport config none capabilities)
    ((run transport config status polls).1.lines =
      match (connect transport config none capabilities).1 with
      | .error _ => []
      | .ok _ => (printDevices status s₁).1 ++ linesIn (turns status polls s₁) s₁) ∧
    ∀ before x behind, s₁.devices = before ++ x :: behind →
      let s := after (readings status before s₁) s₁
      let arrived := gather Operation.events (readings status before s₁) s₁
      (∃ front below rest, (printDevices status s₁).1 =
          front.flatten ++ (x ++ " [" ++ kindOf s x ++ "]") :: below ++ rest.flatten ∧
        List.Forall₂ ListsDevice before front ∧ (below = [] ∨ ∃ word, below = [statusLine word]) ∧
        List.Forall₂ ListsDevice behind rest) ∧
      (kindOf s x = kindOf s₁ x ↔
        (CapabilityTable.matchesLead serialLead x → x ∈ Event.followAll s₁.devices arrived)) ∧
      (kindOf s x ≠ kindOf s₁ x → kindOf s x = "generic" ∧ kindOf s₁ x = serialLead) ∧
      (s.closed = true → kindOf s x = "generic") ∧
      (status = false → kindOf s x = kindOf s₁ x) := by
  intro s₁
  refine ⟨lines_eq transport config status polls, ?_⟩
  intro before x behind hdevices s arrived
  let s₀ : MonitorSession τ := create transport config none capabilities
  have hwhole : s = after ([.call .deviceList, .take] ++ readings status before s₁) s₀ := by
    rw [after_append]
  have hboards₁ : Boards s₁.registry := boards_after transport config _
  have hboards : Boards s.registry := hwhole ▸ boards_after transport config _
  -- the device is attached at first, and then if the events leave it attached
  have hfirst : s₁.registry.contains x := by
    rw [← Registry.mem_serials_iff]
    show x ∈ s₁.devices
    simp [hdevices]
  have hkind₁ : kindOf s₁ x =
      if CapabilityTable.matchesLead serialLead x then serialLead else "generic" := by
    rw [kindOf_eq hboards₁]
    simp only [hfirst, and_true]
  have hkind : kindOf s x = if CapabilityTable.matchesLead serialLead x ∧
      x ∈ Event.followAll s₁.devices arrived then serialLead else "generic" :=
    kindOf_after hboards x
  have hne : "generic" ≠ serialLead := by decide
  refine ⟨printDevices_split hdevices, ?_, ?_, fun hclosed => ?_, ?_⟩
  -- a board has its kind as long as it stays; what is no board is generic before and behind
  · rw [hkind, hkind₁]
    by_cases hboard : CapabilityTable.matchesLead serialLead x
    · by_cases hstays : x ∈ Event.followAll s₁.devices arrived
      · rw [if_pos ⟨hboard, hstays⟩, if_pos hboard]
        exact ⟨fun _ _ => hstays, fun _ => rfl⟩
      · rw [if_neg fun h => hstays h.2, if_pos hboard]
        exact ⟨fun h => absurd h hne, fun h => absurd (h hboard) hstays⟩
    · rw [if_neg fun h => hboard h.1, if_neg hboard]
      exact ⟨fun _ h => absurd h hboard, fun _ => rfl⟩
  -- only what was a board and has gone can differ
  · rw [hkind, hkind₁]
    intro hwrong
    by_cases hboard : CapabilityTable.matchesLead serialLead x
    · rw [if_pos hboard] at hwrong ⊢
      exact ⟨if_neg fun h => hwrong (if_pos h), rfl⟩
    · exact absurd (by rw [if_neg fun h => hboard h.1, if_neg hboard]) hwrong
  · have hempty : s.EmptyIfClosed := hwhole ▸ EmptyIfClosed.after (s := s₀) nofun _
    exact kindOf_of_closed hboards hempty hclosed x
  -- without states nothing is read while the devices are listed
  · rintro rfl
    show kindOf (after (readings false before s₁) s₁) x = _
    rw [readings_false]
    rfl

/-- Two boards are listed, and the second one disappears while the state of the first one is read. -/
theorem labels_run_removed :
    let listed : Answer := .success (.array [.str "FAOUT-01", .str "FAOUT-02"])
    let reply := replyPackets [.removed "FAOUT-02"] (.success (.ofNat64 0))
    let transport : Scripted :=
      { arrivals := [.data (encodePackets [.answer listed]), .data (encodePackets reply)] }
    let s₁ := after [.call .deviceList, .take] (create transport {} none capabilities)
    s₁.devices = ["FAOUT-01"] ++ "FAOUT-02" :: [] ∧ kindOf s₁ "FAOUT-02" = "FAOUT" ∧
      ∃ front later,
        (run transport {} true 0).1.lines = front.flatten ++ "FAOUT-02 [generic]" :: later ∧
          List.Forall₂ ListsDevice ["FAOUT-01"] front := by
  intro listed reply transport s₁
  have hlisted : encodePackets [.answer listed] = 0x92 :: (encodePackets [.answer listed]).tail := by
    decide
  have hreply : encodePackets reply = 0x92 :: (encodePackets reply).tail := by decide
  have hgets : readPackets.Gets MessagePack.defaultMessageLimit (Packet.answer listed).toValue
      (.answer listed) :=
    Packet.gets_of_length (by decide : (0 : Int64) ≤ 0) rfl (by decide) (by decide) (by decide)
  have hserials : listed.serials = .ok ["FAOUT-01", "FAOUT-02"] := rfl
  -- both boards are attached when the listing begins
  obtain ⟨connected, hconnect⟩ :=
    connect_scripted [.data (encodePackets reply)] hlisted (by decide) hserials (by decide) hgets
  obtain ⟨hopen, hinbox, hconfig, hanswers, harrivals, heager, hregistry⟩ :=
    after_listing_scripted [.data (encodePackets reply)] hlisted (by decide) hserials (by decide) hgets
  rw [← hlisted] at hconnect hopen hinbox hconfig hanswers harrivals heager hregistry
  have hattached : ∀ x ∈ ["FAOUT-01", "FAOUT-02"], s₁.device? x = some ⟨x, some {}⟩ := by
    intro x hx
    have hboard : capabilities.instantiate? x = some {} := by
      rw [instantiate?_capabilities]
      rcases List.mem_pair.1 hx with rfl | rfl <;> decide
    rw [device?, show s₁.registry = _ from hregistry, ← hboard]
    exact Registry.get?_reconcile hx
  have hdevices : s₁.devices = ["FAOUT-01"] ++ "FAOUT-02" :: [] := by
    refine eq_of_ascending
      (onePerSerial_after transport {} none capabilities _).pairwise_serials (by decide) fun x => ?_
    show x ∈ s₁.registry.serials ↔ _
    rw [Registry.mem_serials_iff, show s₁.registry = _ from hregistry]
    exact Registry.contains_reconcile
  -- the reply to the reading takes the second one away
  have hreading : readings true ["FAOUT-01"] s₁ =
      [.call (.readReg "FAOUT-01" registersAddr statusPort)] := by
    rw [readings, reading, hattached _ (by decide)]
    rfl
  have hreplies : ∀ p ∈ reply, readPackets.Gets MessagePack.defaultMessageLimit p.toValue p := by
    simp only [reply, replyPackets, List.map_singleton, List.singleton_append, List.forall_mem_cons]
    refine ⟨Packet.gets_of_length trivial rfl (by decide) (by decide) (by decide),
      Packet.gets_of_length (by decide : (0 : Int64) ≤ 0) rfl (by decide) (by decide) (by decide), ?_⟩
    exact fun p hp => absurd hp List.not_mem_nil
  have hsize : (encodePackets reply).tail.length < s₁.config.bufferSize := by
    rw [show s₁.config = _ from hconfig]
    decide
  obtain ⟨_, s', hcall, hexchanged, -⟩ := call_of_script (.readReg "FAOUT-01" registersAddr statusPort)
    hopen hinbox hanswers heager (harrivals.trans (by rw [← hreply])) hreply hsize hreplies
  have hrun := Call.run_of_call (c := .readReg "FAOUT-01" registersAddr statusPort) rfl hcall
  have hgeneric : kindOf (after (readings true ["FAOUT-01"] s₁) s₁) "FAOUT-02" = "generic" := by
    rw [hreading]
    show kindOf ((Call.readReg "FAOUT-01" registersAddr statusPort).run s₁).2 _ = _
    rw [hrun]
    show kindOf s' _ = _
    rw [kindOf, device?, hexchanged.registry]
    show (((s₁.registry.remove "FAOUT-02").2.get? "FAOUT-02").bind _).getD "generic" = _
    rw [Registry.get?_remove, if_pos rfl]
    rfl
  -- the second board is listed from the session that the reading of the first one has left
  obtain ⟨hlines, hlabels⟩ := labels_run transport {} true 0
  obtain ⟨⟨front, below, rest, hprinted, hfront, -⟩, -⟩ :=
    hlabels ["FAOUT-01"] "FAOUT-02" [] hdevices
  refine ⟨hdevices, ?_, front, below ++ (rest.flatten ++ linesIn (turns true 0 s₁) s₁), ?_, hfront⟩
  · rw [kindOf, hattached _ (by decide)]
    rfl
  · rw [hlines, hconnect, hprinted, hgeneric]
    simp only [List.append_assoc, List.cons_append]
    rfl

end Monitor

end BoardLink
