import Mathlib.Data.Finset.Basic
import Mathlib.Data.List.Forall2
import BoardLink.Proofs.Monitor.StatusLines

/-!
# The devices behind the lines of a monitor

Whoever reads what a monitor prints can keep track of the devices: the listing names those that are
there at first, and each line that tells of a device that has appeared or disappeared changes the set
of them. A line can be read in one way only (`Monitor.Shows.track_eq`), because the kind that is named
behind a serial is told by the serial.

* `Monitor.forall₂_linesIn` — each line shows one of the notifications that the monitor was handed;
* `Monitor.lines_track` — the set that is read off the lines is that of the devices of the session,
  whenever the monitor is about to poll.

The listing is that of the devices which are there when it begins. What comes and goes while it is
printed is told in the lines behind it, and if the connection ends meanwhile, so is that all devices
have disappeared.
-/

namespace BoardLink

open BoardLink.Wire

/-! ### Sets of serials -/

/-- The devices known after a notification, by their serials. There is none if the notification does
not change them although it tells of a device that has appeared or disappeared. -/
def Notification.track (known : Finset String) : Notification → Option (Finset String)
  | .deviceAdded serial _ => if serial ∈ known then none else some (insert serial known)
  | .deviceRemoved serial => if serial ∈ known then some (known.erase serial) else none
  | .registerChanged .. => some known

/-- The devices known after notifications in their order. -/
def Notification.trackAll (known : Finset String) (told : List Notification) :
    Option (Finset String) :=
  told.foldlM track known

/-- The serials of the devices that an application knows of. -/
def serialsOf (known : Roster) : Finset String := (known.map (·.1)).toFinset

theorem mem_serialsOf {known : Roster} {x : String} : x ∈ serialsOf known ↔ x ∈ known.map (·.1) :=
  List.mem_toFinset

/-- To follow the devices is to follow their serials. -/
theorem track_of_replay {known known' : Roster} {n : Notification}
    (h : n.replay known = some known') : n.track (serialsOf known) = some (serialsOf known') := by
  cases n with
  | deviceAdded serial capability =>
    rw [Notification.replay] at h
    split at h
    · cases h
    next hunknown =>
      cases h
      rw [Notification.track, if_neg (mt mem_serialsOf.1 hunknown)]
      -- the order in which devices are known does not show in the set
      congr 1
      ext x
      simp only [Finset.mem_insert, mem_serialsOf, List.map_append, List.map_singleton,
        List.mem_append, List.mem_singleton]
      exact or_comm
  | deviceRemoved serial =>
    rw [Notification.replay] at h
    split at h
    next hknown =>
      cases h
      rw [Notification.track, if_pos (mem_serialsOf.2 hknown)]
      -- a serial stays exactly if some device with it is kept
      congr 1
      ext x
      simp only [Finset.mem_erase, mem_serialsOf, List.mem_map, List.mem_filter, decide_eq_true_eq]
      constructor
      · rintro ⟨hne, entry, hentry, rfl⟩
        exact ⟨entry, ⟨hentry, hne⟩, rfl⟩
      · rintro ⟨entry, ⟨hentry, hne⟩, rfl⟩
        exact ⟨hne, entry, hentry, rfl⟩
    · cases h
  | registerChanged serial addr port value =>
    -- register changes leave the devices as they are, on both sides
    rw [Notification.replay] at h
    split at h
    · cases h
      rfl
    · cases h

theorem trackAll_of_replayAll {known known' : Roster} {told : List Notification}
    (h : Notification.replayAll known told = some known') :
    Notification.trackAll (serialsOf known) told = some (serialsOf known') := by
  induction told generalizing known with
  | nil =>
    cases h
    rfl
  | cons n told ih =>
    obtain ⟨next, hfirst, hothers⟩ := Option.bind_eq_some_iff.1 h
    show (n.track (serialsOf known) >>= fun next => Notification.trackAll next told) = _
    rw [track_of_replay hfirst]
    exact ih hothers

namespace Monitor

open BoardLink.Faout Session

/-! ### Lines -/

/-- What a monitor prints for a notification: its line, and below a register change maybe a
status. -/
inductive Shows (n : Notification) (line : String) : Prop
  | plain (h : line = n.text)
  | status {serial : String} {addr port : UInt8} {value : UInt16}
    (hn : n = .registerChanged serial addr port value) (status : Status)
    (h : line = n.text ++ "\n" ++ statusLine status)

/-- What a monitor prints to list a device: its serial with its kind, and maybe its status. -/
inductive ListsDevice (serial : String) : List String → Prop
  | line {kind : String} (hkind : kind = "generic" ∨ kind = serialLead) :
    ListsDevice serial [serial ++ " [" ++ kind ++ "]"]
  | status {kind : String} (hkind : kind = "generic" ∨ kind = serialLead) (status : Status) :
    ListsDevice serial [serial ++ " [" ++ kind ++ "]", statusLine status]

/-- What a monitor prints to list devices. -/
inductive Lists : List String → List String → Prop
  | none : Lists [] ["No devices attached"]
  | some {serials : List String} {blocks : List (List String)} (hsome : serials ≠ [])
    (h : List.Forall₂ ListsDevice serials blocks) : Lists serials blocks.flatten

/-- A listing has a line. -/
theorem Lists.length_pos {serials listing : List String} (h : Lists serials listing) :
    0 < listing.length := by
  cases h with
  | none => exact Nat.one_pos
  | some hsome h =>
    cases h with
    | nil => exact absurd rfl hsome
    | cons hfirst hothers =>
      rw [List.flatten_cons, List.length_append]
      -- a first line is there for any kind
      cases hfirst with
      | line | status => exact Nat.lt_add_right _ (Nat.succ_pos _)

variable {τ : Type}

theorem shows_describe (s : MonitorSession τ) (n : Notification) : Shows n (describe s n) := by
  cases n with
  | deviceAdded | deviceRemoved => exact .plain rfl
  | registerChanged serial addr port value =>
    -- only below a change of a known status there is a second line
    rw [describe]
    split
    · split
      next status hstatus => exact .status rfl status rfl
      · exact .plain rfl
    · exact .plain rfl

theorem listsDevice_deviceLine (s : MonitorSession τ) (serial : String) :
    ListsDevice serial [deviceLine s serial] ∧
      ∀ status, ListsDevice serial [deviceLine s serial, statusLine status] := by
  -- devices of a monitor are boards or have no capability
  have hkind : ((s.device? serial).bind (·.capabilityName?)).getD "generic" = "generic" ∨
      ((s.device? serial).bind (·.capabilityName?)).getD "generic" = serialLead := by
    rcases s.device? serial with _ | ⟨x, _ | t⟩
    · exact .inl rfl
    · exact .inl rfl
    · exact .inr rfl
  exact ⟨.line hkind, .status hkind⟩

variable [Transport τ]

theorem listsDevice_listDevice (status : Bool) (s : MonitorSession τ) (serial : String) :
    ListsDevice serial (listDevice status s serial).1 := by
  obtain ⟨hline, hstatus⟩ := listsDevice_deviceLine s serial
  unfold listDevice
  simp only
  split
  · rcases readStatus serial s with ⟨e | word, s'⟩
    · exact hline
    · exact hstatus word
  · exact hline

theorem forall₂_listDevices (status : Bool) (s : MonitorSession τ) (serials : List String) :
    ∃ blocks, List.Forall₂ ListsDevice serials blocks ∧
      (listDevices status s serials).1 = blocks.flatten := by
  induction serials generalizing s with
  | nil => exact ⟨[], .nil, rfl⟩
  | cons serial serials ih =>
    obtain ⟨blocks, hblocks, hlines⟩ := ih (listDevice status s serial).2
    refine ⟨_ :: blocks, .cons (listsDevice_listDevice status s serial) hblocks, ?_⟩
    rw [List.flatten_cons, ← hlines]
    rfl

/-- **The listing names the devices** that are there when it begins. -/
theorem lists_printDevices (status : Bool) (s : MonitorSession τ) :
    Lists s.devices (printDevices status s).1 := by
  unfold printDevices
  split
  next hnone =>
    rw [hnone]
    exact .none
  next serials hsome =>
    -- while statuses are read devices may go, but the list was taken before that
    obtain ⟨blocks, hblocks, hlines⟩ := forall₂_listDevices status s s.devices
    rw [hlines]
    exact .some hsome hblocks

/-- **Each line shows one notification** that the monitor was handed, in their order. -/
theorem forall₂_linesIn (turns : List (List Operation)) (s : MonitorSession τ) :
    List.Forall₂ Shows (gather Operation.handed turns.flatten s) (linesIn turns s) := by
  induction turns generalizing s with
  | nil => exact .nil
  | cons turn turns ih =>
    rw [List.flatten_cons, gather_append, linesIn]
    refine List.rel_append ?_ (ih (after turn s))
    rw [List.forall₂_map_right_iff, List.forall₂_same]
    -- the lines of a turn are made one by one from what the turn has handed out
    exact fun n _ => shows_describe (after turn s) n

/-! ### Reading the lines -/

/-- A notification names the kind of a device that has appeared as a monitor does: boards have one,
and other devices have none. -/
def NamesKind : Notification → Prop
  | .deviceAdded serial capability =>
    capability = if CapabilityTable.matchesLead serialLead serial then some serialLead else none
  | .deviceRemoved _ | .registerChanged .. => True

omit [Transport τ] in
theorem namesKind_tells {r : Registry Tracker} (h : Boards r) (e : Event) :
    ∀ n ∈ r.tells e, NamesKind n := by
  intro n hn
  cases e with
  | added serial =>
    rw [Registry.tells] at hn
    split at hn
    · exact absurd hn List.not_mem_nil
    · obtain rfl := List.mem_singleton.1 hn
      -- what appears is named by the table, which knows one prefix
      rw [NamesKind, h.table, instantiate?_capabilities]
      split <;> rfl
  | removed serial | changed serial addr port value =>
    rw [Registry.tells] at hn
    split at hn
    · obtain rfl := List.mem_singleton.1 hn
      trivial
    · exact absurd hn List.not_mem_nil

omit [Transport τ] in
/-- A registry of boards tells the kinds as the monitor does. -/
theorem namesKind_told {r : Registry Tracker} (h : Boards r) (events : List Event) :
    ∀ n ∈ r.told events, NamesKind n := by
  induction events generalizing r with
  | nil => exact fun n hn => absurd hn List.not_mem_nil
  | cons e events ih =>
    intro n hn
    rcases List.mem_append.1 hn with hfirst | hothers
    · exact namesKind_tells h e n hfirst
    · exact ih (h.apply e) n hothers

/-- What a line begins with. -/
def lead : Notification → String
  | .deviceAdded .. => "Device added: "
  | .deviceRemoved .. => "Device removed: "
  | .registerChanged .. => "Register changed: "

theorem text_deviceRemoved (serial : String) :
    (Notification.deviceRemoved serial).text = "Device removed: " ++ serial := rfl

theorem exists_text_eq (n : Notification) : ∃ rest, n.text = lead n ++ rest := by
  match n with
  | .deviceAdded serial none => exact ⟨serial, (rfl : _ = "Device added: " ++ serial)⟩
  | .deviceAdded serial (some capability) =>
    refine ⟨serial ++ (" (" ++ (capability ++ ")")), ?_⟩
    show "Device added: " ++ serial ++ " (" ++ capability ++ ")" = "Device added: " ++ _
    simp only [String.append_assoc]
  | .deviceRemoved serial => exact ⟨serial, text_deviceRemoved serial⟩
  | .registerChanged serial addr port value =>
    refine ⟨serial ++ (" addr=" ++ (toString addr.toNat ++ (" port=" ++ (toString port.toNat ++
      (" value=0x" ++ Notification.hexWord value))))), ?_⟩
    show "Register changed: " ++ serial ++ " addr=" ++ toString addr.toNat ++ " port=" ++
      toString port.toNat ++ " value=0x" ++ Notification.hexWord value = "Register changed: " ++ _
    simp only [String.append_assoc]

theorem Shows.lead_isPrefix {n : Notification} {line : String} (h : Shows n line) :
    (lead n).toList <+: line.toList := by
  obtain ⟨rest, hrest⟩ := exists_text_eq n
  -- a status is added behind the line, so the beginning is the same
  have hline : ∃ behind, line = lead n ++ behind := by
    cases h with
    | plain h => exact ⟨rest, h.trans hrest⟩
    | status hn status h =>
      refine ⟨rest ++ ("\n" ++ statusLine status), ?_⟩
      rw [h, hrest, String.append_assoc, String.append_assoc]
  obtain ⟨behind, rfl⟩ := hline
  rw [String.toList_append]
  exact List.prefix_append _ _

/-- So two notifications that a line shows are of one kind. -/
theorem Shows.lead_eq {n n' : Notification} {line : String} (h : Shows n line)
    (h' : Shows n' line) : lead n = lead n' := by
  let leads := ["Device added: ", "Device removed: ", "Register changed: "]
  have hleads : ∀ n, lead n ∈ leads := by
    intro n
    cases n <;> simp [leads, lead]
  -- none of the three beginnings is the beginning of another one
  have hone : ∀ l ∈ leads, ∀ l' ∈ leads, l.toList <+: l'.toList → l = l' := by decide
  rcases List.prefix_or_prefix_of_prefix h.lead_isPrefix h'.lead_isPrefix with hprefix | hprefix
  · exact hone _ (hleads n) _ (hleads n') hprefix
  · exact (hone _ (hleads n') _ (hleads n) hprefix).symm

/-- How the line of a device that has appeared goes on. -/
theorem text_deviceAdded {serial : String} {capability : Option String}
    (hkind : NamesKind (.deviceAdded serial capability)) :
    (Notification.deviceAdded serial capability).text = "Device added: " ++
      if CapabilityTable.matchesLead serialLead serial then serial ++ (" (" ++ (serialLead ++ ")"))
      else serial := by
  obtain rfl : capability = _ := hkind
  -- the kind depends on the serial alone
  split
  · rw [← String.append_assoc, ← String.append_assoc, ← String.append_assoc]
    rfl
  · rfl

theorem matchesLead_append {x : String} (h : CapabilityTable.matchesLead serialLead x = true)
    (rest : String) : CapabilityTable.matchesLead serialLead (x ++ rest) = true := by
  rw [CapabilityTable.matchesLead, List.isPrefixOf_iff_prefix] at h ⊢
  rw [String.toList_append]
  exact h.trans (List.prefix_append _ _)

/-- The kind behind a serial is told by the serial, so a serial can be read off its line. -/
theorem serial_eq_of_text_eq {x x' : String} {capability capability' : Option String}
    (hkind : NamesKind (.deviceAdded x capability)) (hkind' : NamesKind (.deviceAdded x' capability'))
    (h : (Notification.deviceAdded x capability).text =
      (Notification.deviceAdded x' capability').text) : x = x' := by
  rw [text_deviceAdded hkind, text_deviceAdded hkind', String.append_right_inj] at h
  -- a serial that goes on with a kind begins like a board, so it does not stand without one
  split at h
  next hboard =>
    split at h
    · exact (String.append_left_inj _).1 h
    next hother => exact absurd (h ▸ matchesLead_append hboard _) hother
  next hother =>
    split at h
    next hboard => exact absurd (h ▸ matchesLead_append hboard _) hother
    · exact h

/-- Only below a register change there is more than its line. -/
theorem Shows.eq_text {n : Notification} {line : String} (h : Shows n line)
    (hn : lead n ≠ "Register changed: ") : line = n.text := by
  cases h with
  | plain h => exact h
  | status hchanged status h =>
    subst hchanged
    exact absurd rfl hn

/-- **A line is read in one way.** Two notifications that it shows make the same of the devices. -/
theorem Shows.track_eq {n n' : Notification} {line : String} (h : Shows n line) (h' : Shows n' line)
    (hkind : NamesKind n) (hkind' : NamesKind n') (known : Finset String) :
    n.track known = n'.track known := by
  -- the two are of one kind, as they begin alike
  have hlead := h.lead_eq h'
  cases n with
  | registerChanged serial addr port value =>
    cases n' with
    | registerChanged => rfl
    | deviceAdded | deviceRemoved => simp [lead] at hlead
  | deviceAdded x capability =>
    cases n' with
    | deviceAdded x' capability' =>
      have htext := (h.eq_text (by simp [lead])).symm.trans (h'.eq_text (by simp [lead]))
      obtain rfl := serial_eq_of_text_eq hkind hkind' htext
      rfl
    | deviceRemoved | registerChanged => simp [lead] at hlead
  | deviceRemoved x =>
    cases n' with
    | deviceRemoved x' =>
      have htext := (h.eq_text (by simp [lead])).symm.trans (h'.eq_text (by simp [lead]))
      rw [text_deviceRemoved, text_deviceRemoved, String.append_right_inj] at htext
      rw [htext]
    -- no other notification has such a line
    | deviceAdded | registerChanged => simp [lead] at hlead

/-- **A way to read lines**: the notifications that they show, one each. -/
structure Reads (lines : List String) (log : List Notification) : Prop where
  lines : List.Forall₂ Shows log lines
  kinds : ∀ n ∈ log, NamesKind n

/-- So it does not matter how lines are read. -/
theorem Reads.trackAll_eq {lines : List String} {log log' : List Notification} (h : Reads lines log)
    (h' : Reads lines log') (known : Finset String) :
    Notification.trackAll known log = Notification.trackAll known log' := by
  obtain ⟨hlines, hkinds⟩ := h
  obtain ⟨hlines', hkinds'⟩ := h'
  induction hlines generalizing log' known with
  | nil =>
    cases hlines'
    rfl
  | @cons n line log lines hfirst hothers ih =>
    -- one line behind the other: both ways to read it make the same step
    cases hlines' with
    | @cons n' _ log' _ hfirst' hothers' =>
      obtain ⟨hkind, hkinds⟩ := List.forall_mem_cons.1 hkinds
      obtain ⟨hkind', hkinds'⟩ := List.forall_mem_cons.1 hkinds'
      show (n.track known >>= fun next => Notification.trackAll next log) =
        (n'.track known >>= fun next => Notification.trackAll next log')
      rw [hfirst.track_eq hfirst' hkind hkind']
      congr 1
      funext next
      exact ih next hkinds hothers' hkinds'

/-! ### Runs -/

omit [Transport τ] in
theorem serialsOf_roster (s : MonitorSession τ) :
    serialsOf s.registry.roster = s.devices.toFinset := by
  ext x
  rw [mem_serialsOf, Registry.mem_roster_serials_iff, List.mem_toFinset]
  exact Registry.mem_serials_iff.symm

/-- **What is read off a run.** The lines behind the listing are read as the notifications that the
monitor was handed, and these are the front of what its registry has told since it is connected. -/
theorem reads_run {transport : τ} {config : Config} {serials : List String}
    {connected : MonitorSession τ}
    (h : connect transport config none capabilities = (.ok serials, connected))
    (status : Bool) (polls : Nat) :
    let s₁ := after [.call .deviceList, .take] (create transport config none capabilities)
    let lines := linesIn (turns status polls s₁) s₁
    let log := gather Operation.handed (turns status polls s₁).flatten s₁
    let events := gather Operation.events (turns status polls s₁).flatten s₁
    let last := (run transport config status polls).2
    (run transport config status polls).1.lines = (printDevices status s₁).1 ++ lines ∧
      Reads lines log ∧ s₁.registry.Follows events log last.registry ∧
      log ++ last.registry.notifications = s₁.registry.told events := by
  intro s₁ lines log events last
  have hlines : (run transport config status polls).1.lines = (printDevices status s₁).1 ++ lines := by
    rw [run_of_connect h]
  have hfollows : s₁.registry.Follows events log last.registry := by
    have hafter := registry_after (turns status polls s₁).flatten s₁
    rwa [← (error_run h status polls).1] at hafter
  have htold : log ++ last.registry.notifications = s₁.registry.told events :=
    hfollows.log.trans (Registry.notifications_applyAll s₁.registry events)
  have hboards := boards_after transport config [.call .deviceList, .take]
  -- what was handed out is the front of what was told, so its kinds are right
  refine ⟨hlines, ⟨forall₂_linesIn _ s₁, fun n hn => ?_⟩, hfollows, htold⟩
  exact namesKind_told hboards events n (htold ▸ List.mem_append_left _ hn)

/-- **Who reads the lines of a monitor knows the devices.** A monitor that gets a connection lists the
devices that are there, and what it prints then can be read as notifications in one way, up to what
they say of registers. Begin with the devices listed: in each run each line that tells of a device
that has appeared or disappeared changes the set, and whenever the monitor is about to poll (it is
still running), the set is that of the devices of its session. -/
theorem lines_track (transport : τ) (config : Config) (status : Bool) (polls : Nat) :
    let s₁ := after [.call .deviceList, .take] (create transport config none capabilities)
    let report := (run transport config status polls).1
    let last := (run transport config status polls).2
    match (connect transport config none capabilities).1 with
    | .error e => report = ⟨[], some e⟩
    | .ok _ => ∃ listing lines known,
      report.lines = listing ++ lines ∧ Lists s₁.devices listing ∧
      (∃ log, Reads lines log) ∧
      (∀ log, Reads lines log → Notification.trackAll s₁.devices.toFinset log = some known) ∧
      (report.error = none → known = last.devices.toFinset) := by
  intro s₁ report last
  rcases hconnect : connect transport config none capabilities with ⟨e | serials, connected⟩
  -- without a connection nothing is printed
  · show (run transport config status polls).1 = _
    rw [run, hconnect]
  · obtain ⟨hlines, hreads, hfollows, htold⟩ := reads_run hconnect status polls
    obtain ⟨-, hends⟩ := error_run hconnect status polls
    -- what was told leads to the devices of the session: first what was printed, then what is queued
    have htrack := trackAll_of_replayAll (Registry.replay_told s₁.registry
      (gather Operation.events (turns status polls s₁).flatten s₁))
    rw [← hfollows.roster_eq, serialsOf_roster, serialsOf_roster, ← htold, Notification.trackAll,
      List.foldlM_append] at htrack
    obtain ⟨known, hknown, hqueued⟩ := Option.bind_eq_some_iff.1 htrack
    refine ⟨_, _, known, hlines, lists_printDevices status s₁, ⟨_, hreads⟩, fun log hlog => ?_,
      fun herror => ?_⟩
    · rw [hlog.trackAll_eq hreads]
      exact hknown
    · -- nothing is queued when the monitor is about to poll
      rw [show (run transport config status polls).1.error = none from herror] at hends
      rw [show last.registry.notifications = [] from hends] at hqueued
      exact Option.some.inj hqueued

/-! ### A run over a script -/

/-- A script that lists one board, and then brings a block. -/
def listingBoard (block : Bytes) : Scripted :=
  { arrivals := [.data (encodePackets [.answer (.success (.array [.str "FAOUT-01"]))]), .data block] }

/-- A monitor over this script lists the board, and then polls with nothing queued. -/
theorem run_listingBoard (block : Bytes) :
    let transport := listingBoard block
    let s₁ := after [.call .deviceList, .take] (create transport {} none capabilities)
    let s := s₁.takeNotifications.2
    (∃ connected, connect transport {} none capabilities = (.ok ["FAOUT-01"], connected)) ∧
      s₁.devices = ["FAOUT-01"] ∧
      run transport {} false 1 =
        (⟨"FAOUT-01 [FAOUT]" :: (follow s 1).1.lines, (follow s 1).1.error⟩, (follow s 1).2) ∧
      s.closed = false ∧ s.inbox = .withLimit MessagePack.defaultMessageLimit ∧ s.config = {} ∧
      s.transport.arrivals = [.data block] ∧
      s.registry = ⟨[⟨"FAOUT-01", some {}⟩], none, capabilities, [], 0⟩ := by
  intro transport s₁ s
  -- the answer that lists the board fits one receive
  let listed : Answer := .success (.array [.str "FAOUT-01"])
  have hbytes : encodePackets [.answer listed] = 0x92 :: (encodePackets [.answer listed]).tail := by
    decide
  have hgets : readPackets.Gets MessagePack.defaultMessageLimit (Packet.answer listed).toValue
      (.answer listed) :=
    Packet.gets_of_length (by decide : (0 : Int64) ≤ 0) rfl (by decide) (by decide) (by decide)
  obtain ⟨connected, hconnect⟩ :=
    connect_scripted [.data block] hbytes (by decide) rfl (by decide) hgets
  obtain ⟨hopen, hinbox, hconfig, harrivals, hregistry⟩ :=
    after_deviceList_scripted [.data block] hbytes (by decide) rfl (by decide) hgets
  rw [← hbytes] at hconnect hopen hinbox hconfig harrivals hregistry
  have hboard : capabilities.instantiate? "FAOUT-01" = some {} := by
    rw [instantiate?_capabilities]
    decide
  rw [hboard] at hregistry
  -- the one board is listed without a status, and nothing was told behind the list
  have hdevices : s₁.devices = ["FAOUT-01"] := by
    show sortSerials (s₁.registry.devices.map (·.serial)) = _
    rw [show s₁.registry.devices = _ from congrArg Registry.devices hregistry]
    exact List.mergeSort_singleton _
  have hlisted : printDevices false s₁ = (["FAOUT-01 [FAOUT]"], s₁) := by
    have hkind : s₁.device? "FAOUT-01" = some ⟨"FAOUT-01", some {}⟩ := by
      rw [device?, show s₁.registry = _ from hregistry]
      rfl
    rw [printDevices, hdevices]
    show ([deviceLine s₁ "FAOUT-01"], s₁) = _
    rw [deviceLine, hkind]
    rfl
  refine ⟨⟨connected, hconnect⟩, hdevices, ?_, hopen, hinbox, hconfig, harrivals, ?_⟩
  · have hs₁ : connected.takeNotifications.2 = s₁ := takeNotifications_connected hconnect
    have hqueued : queuedEvents s₁ = ([], s) := rfl
    rw [run, show connect transport {} none capabilities = _ from hconnect]
    simp only [hs₁, hlisted, hqueued]
    rfl
  · show s₁.registry.takeNotifications.2 = _
    rw [show s₁.registry = _ from hregistry]
    rfl

/-- A device appears while the monitor polls. Who reads the lines then knows both devices, as the
session does. -/
theorem lines_track_added :
    let transport := listingBoard (encodePackets [.event (.added "DIGI-01")])
    let report := (run transport {} false 1).1
    let last := (run transport {} false 1).2
    report.error = none ∧ last.devices.toFinset = {"FAOUT-01", "DIGI-01"} ∧
      ∃ listing lines log, report.lines = listing ++ lines ∧ Lists ["FAOUT-01"] listing ∧
        Reads lines log ∧
        Notification.trackAll {"FAOUT-01"} log = some {"FAOUT-01", "DIGI-01"} := by
  intro transport report last
  obtain ⟨⟨connected, hconnect⟩, hdevices, hrun, hopen, hinbox, hconfig, harrivals, hregistry⟩ :=
    run_listingBoard (encodePackets [.event (.added "DIGI-01")])
  generalize hs : (after [.call .deviceList, .take]
    (create transport {} none capabilities)).takeNotifications.2 = s at *
  -- the poll receives the event
  have hbytes : encodePackets [.event (.added "DIGI-01")] =
      0x92 :: (encodePackets [.event (.added "DIGI-01")]).tail := by decide
  have hgets : ∀ p ∈ [Packet.event (.added "DIGI-01")],
      readPackets.Gets MessagePack.defaultMessageLimit p.toValue p := by
    intro p hp
    obtain rfl := List.mem_singleton.1 hp
    exact Packet.gets_of_length trivial rfl (by decide) (by decide) (by decide)
  have hdrain := Inbox.drain_encodePackets (by decide) hgets
  rw [hbytes] at harrivals hdrain
  have hsize : (encodePackets [.event (.added "DIGI-01")]).tail.length < s.config.bufferSize := by
    rw [hconfig]
    decide
  obtain ⟨s', htakes, hpoll⟩ := pollEvents_of_receive hopen rfl (receive_scripted harrivals hsize)
    (by rw [hinbox, hdrain])
  have hfollow : follow s 1 =
      (⟨s'.takeNotifications.1.map (describe s'.takeNotifications.2), none⟩, s'.takeNotifications.2) := by
    rw [follow, hpoll]
    simp only [follow, List.append_nil]
  have hpackets : s.inbox.packetsIn [0x92 :: (encodePackets [.event (.added "DIGI-01")]).tail] =
      [.event (.added "DIGI-01")] := by
    rw [Inbox.packetsIn_singleton, hinbox, hdrain]
  have hlast : last = s'.takeNotifications.2 := by
    show (run transport {} false 1).2 = _
    rw [hrun, hfollow]
  have herror : report.error = none := by
    show (run transport {} false 1).1.error = _
    rw [hrun, hfollow]
  have hboth : last.devices.toFinset = {"FAOUT-01", "DIGI-01"} := by
    rw [hlast]
    show (sortSerials (s'.registry.devices.map (·.serial))).toFinset = _
    rw [htakes.registry, hpackets, hregistry]
    ext x
    rw [List.mem_toFinset, sortSerials, List.mem_mergeSort]
    simp [eventsIn, Registry.applyAll, Registry.apply, Registry.add, Registry.contains, Registry.notify]
  have htrack := lines_track transport {} false 1
  rw [show connect transport {} none capabilities = _ from hconnect] at htrack
  obtain ⟨listing, lines, known, hlines, hlists, ⟨log, hlog⟩, hall, hknown⟩ := htrack
  rw [show Session.devices _ = _ from hdevices] at hlists hall
  refine ⟨herror, hboth, listing, lines, log, hlines, hlists, hlog, ?_⟩
  -- both readings of the devices meet in the set that the session has
  calc Notification.trackAll {"FAOUT-01"} log = some known := hall log hlog
    _ = some last.devices.toFinset := congrArg some (hknown herror)
    _ = some {"FAOUT-01", "DIGI-01"} := congrArg some hboth

end Monitor

end BoardLink
