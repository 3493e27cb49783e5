import BoardLink.Capability.Known
import BoardLink.Proofs.MessagePack.Views
import BoardLink.Proofs.Session.Correlation
import BoardLink.Proofs.Session.Scripted
import BoardLink.Proofs.Wire.RoundTrip

/-!
# A device list is adopted as a whole, or not at all

While a session waits for a device list it applies the events that arrive, whatever comes of the
list. The list itself is read as a whole before the registry hears of it, so an item that is no text
refuses the list, wherever in it the item stands, and then the registry is what the events alone have
made of it.

* `Wire.Answer.Lists`, `Wire.Answer.Refuses` — which answers list devices, and why others do not;
* `Wire.Answer.listing_outcome` — an answer does the one or the other (the crux: the first item that
  is no text is found behind items that are texts, `mapM_eq_error_iff`);
* `Session.getDeviceList_adopts` — what becomes of the registry.
-/

namespace BoardLink

open BoardLink.MessagePack BoardLink.Wire

/-! ### Reading a list -/

section Traversal

variable {ε α β : Type} {f : α → Except ε β}

/-- A list is read if each item is. -/
theorem mapM_eq_ok_iff {items : List α} {results : List β} :
    items.mapM f = .ok results ↔ List.Forall₂ (fun a b => f a = .ok b) items results := by
  induction items generalizing results with
  | nil =>
    rw [List.mapM_nil, List.forall₂_nil_left_iff]
    exact ⟨fun h => (Except.ok.inj h).symm, fun h => congrArg Except.ok h.symm⟩
  | cons a items ih =>
    simp only [List.mapM_cons, bind_eq_ok_iff, List.forall₂_cons_left_iff, ih]
    constructor
    · rintro ⟨b, hb, bs, hbs, h⟩
      exact ⟨b, bs, hb, hbs, (Except.ok.inj h).symm⟩
    · rintro ⟨b, bs, hb, hbs, rfl⟩
      exact ⟨b, hb, bs, hbs, rfl⟩

/-- A list is refused for the first item that is. -/
theorem exists_of_mapM_eq_error {items : List α} {e : ε} (h : items.mapM f = .error e) :
    ∃ good item others results, items = good ++ item :: others ∧
      List.Forall₂ (fun a b => f a = .ok b) good results ∧ f item = .error e := by
  induction items with
  | nil => cases h
  | cons a items ih =>
    rw [List.mapM_cons] at h
    -- only the first item is looked at; either it is refused or the list behind it decides
    cases ha : f a with
    | error e' =>
      -- the items behind it are not looked at
      rw [ha] at h
      obtain rfl := Except.error.inj h
      exact ⟨[], a, items, [], rfl, .nil, ha⟩
    | ok b =>
      rw [ha] at h
      cases hitems : items.mapM f with
      | error e' =>
        -- the items up to here are right, so the first that is refused stands further on
        have hsame : e' = e := by
          simp only [hitems] at h
          exact Except.error.inj h
        obtain ⟨good, item, others, results, rfl, hgood, hitem⟩ := ih (hsame ▸ hitems)
        exact ⟨a :: good, item, others, b :: results, rfl, .cons ha hgood, hitem⟩
      | ok bs =>
        simp only [hitems] at h
        cases h

end Traversal

namespace Wire.Answer

/-- **The answer lists these devices**: it reports no failure, and its first field is an array of
their serials, item by item. -/
def Lists (a : Answer) (serials : List String) : Prop :=
  ¬ a.rcode < 0 ∧ ∃ items, a.value? = some (.array items) ∧
    List.Forall₂ Value.IsText items serials

/-- **The answer lists no devices**, and this is why: the server has failed, the first field is no
array or not there, or the item behind some texts is no text. -/
inductive Refuses : Answer → SessionError → Prop
  | negative {a : Answer} (h : a.rcode < 0) : Refuses a (.server a.rcode a.errorMessage)
  | noArray {a : Answer} (h : ¬ a.rcode < 0) (hvalue : ∀ items, a.value? ≠ some (.array items)) :
      Refuses a (.unexpectedPayload (.deviceList a.value?))
  | badItem {a : Answer} {good others : List Value} {item : Value} {serials : List String}
      (h : ¬ a.rcode < 0) (hvalue : a.value? = some (.array (good ++ item :: others)))
      (hgood : List.Forall₂ Value.IsText good serials) (hbad : ∀ s, ¬ item.IsText s) :
      Refuses a (.unexpectedPayload (.deviceSerial item))

/-- What a session makes of an answer in which it expects a device list. -/
def listing (a : Answer) : Except SessionError (List String) :=
  Session.answerOutcome a >>= serials

/-- The serial that an item is. -/
def serialOf (item : Value) : Except SessionError String :=
  match item.asText? with
  | some serial => .ok serial
  | none => .error (.unexpectedPayload (.deviceSerial item))

theorem serialOf_eq_ok_iff {item : Value} {s : String} : serialOf item = .ok s ↔ item.IsText s := by
  rw [← Value.asText?_eq_some_iff, serialOf]
  cases item.asText? <;> simp

/-- **Each answer lists devices or is refused.** -/
theorem listing_outcome (a : Answer) : (∃ serials, a.listing = .ok serials ∧ a.Lists serials) ∨
    ∃ e, a.listing = .error e ∧ a.Refuses e := by
  rw [listing, Session.answerOutcome]
  by_cases hrcode : a.rcode < 0
  · rw [if_pos hrcode]
    exact .inr ⟨_, rfl, .negative hrcode⟩
  · rw [if_neg hrcode]
    show (∃ serials, a.serials = _ ∧ _) ∨ ∃ e, a.serials = _ ∧ _
    unfold serials
    split
    next items hvalue =>
      -- the first field is an array, and it lists devices if each of its items is a text
      show (∃ serials, items.mapM serialOf = _ ∧ _) ∨ ∃ e, items.mapM serialOf = _ ∧ _
      cases hitems : items.mapM serialOf with
      | ok serials =>
        have htexts := (mapM_eq_ok_iff.1 hitems).imp fun _ _ => serialOf_eq_ok_iff.1
        exact .inl ⟨serials, rfl, hrcode, items, hvalue, htexts⟩
      | error e =>
        obtain ⟨good, item, others, serials, rfl, hgood, hitem⟩ := exists_of_mapM_eq_error hitems
        have htexts := hgood.imp fun _ _ => serialOf_eq_ok_iff.1
        cases htext : item.asText? with
        | some s =>
          -- a text would not have been refused
          simp [serialOf, htext] at hitem
        | none =>
          obtain rfl : SessionError.unexpectedPayload (.deviceSerial item) = e := by
            simpa [serialOf, htext] using hitem
          have hbad := Value.asText?_eq_none_iff.1 htext
          exact .inr ⟨_, rfl, .badItem hrcode hvalue htexts hbad⟩
    next hother =>
      -- a value of another shape, or no value at all
      exact .inr ⟨_, rfl, .noArray hrcode fun items => hother items⟩

end Wire.Answer

namespace Session

variable {τ κ : Type} [Transport τ] [Capability κ]

/-- What is done with the answer that a call took: the session is left alone, unless the answer lists
devices. -/
theorem getDeviceList_of_answer {s s₁ : Session τ κ} {a : Answer}
    (h : call .deviceList s = (answerOutcome a, s₁)) : getDeviceList s =
      match a.listing with
      | .ok serials => (.ok serials, s₁.adopt (s₁.registry.reconcile serials))
      | .error e => (.error e, s₁) := by
  rw [getDeviceList, SessionM.bind_apply, h, Answer.listing]
  -- an answer that reports a failure is an error of the call, and one that is no list is one behind
  -- it
  cases answerOutcome a with
  | error e => rfl
  | ok b =>
    have hread : (Except.ok b >>= Answer.serials) = b.serials := rfl
    have hlift : (liftM b.serials : SessionM τ κ (List String)) s₁ = (b.serials, s₁) := rfl
    simp only [SessionM.bind_apply, hlift, hread]
    cases b.serials <;> rfl

/-- Nothing is done if there is no answer. -/
theorem getDeviceList_of_error {s s₁ : Session τ κ} {e : SessionError}
    (h : call .deviceList s = (.error e, s₁)) : getDeviceList s = (.error e, s₁) := by
  rw [getDeviceList, SessionM.bind_apply, h]

/-- **A device list is adopted as a whole, or not at all.** An open session fetches the device list.
`packets` is what it decodes during the call, and `heard` is its registry with the events among them
applied, and nothing else.

* If the call returns serials, the oldest answer lists exactly these, item by item. The registry is
  `heard` once it is made to match the list, and so it holds the serials of the list and no others.
* If the call fails and that is not fatal, the registry is `heard`: no device, no notification and no
  capability owes anything to the answer. The answer has been refused for what the error tells, or
  there was none.

In both cases it is the answer that is taken, and those behind it stay queued. -/
theorem getDeviceList_adopts {s : Session τ κ} (hopen : s.closed = false) :
    let packets := s.inbox.packetsIn (s.exchangePieces .deviceList)
    let heard := s.registry.applyAll (eventsIn packets)
    let result := (getDeviceList s).1
    let s' := (getDeviceList s).2
    (∀ serials, result = .ok serials →
      (∃ a, s.answers ++ answersIn packets = a :: s'.answers ∧ a.Lists serials) ∧
        s'.registry = heard.reconcile serials ∧ ∀ x, x ∈ s'.devices ↔ x ∈ serials) ∧
    ∀ e, result = .error e → e.isFatal = false → s'.registry = heard ∧
      ((∃ a, s.answers ++ answersIn packets = a :: s'.answers ∧ a.Refuses e) ∨
        e = .noDataSource ∧ s.answers ++ answersIn packets = []) := by
  intro packets heard
  obtain ⟨s₁, htakes, hawaits⟩ := awaits_call hopen .deviceList
  have hqueue : s₁.answers = s.answers ++ answersIn packets := htakes.answers
  have hregistry : s₁.registry = heard := htakes.registry
  generalize hcall : call .deviceList s = outcome at hawaits
  cases hawaits with
  | @answer a answers ha =>
    -- the registry hears of the answer only if it lists devices
    rw [getDeviceList_of_answer hcall, ← hqueue, ha]
    rcases a.listing_outcome with ⟨serials, hlisting, hlists⟩ | ⟨e, hlisting, hrefuses⟩
    · -- the list is adopted, and only the registry and the hook are touched by that
      rw [hlisting]
      refine ⟨fun serials' hresult => ?_, nofun⟩
      obtain rfl := Except.ok.inj hresult
      obtain ⟨hook, queued, hadopt⟩ :=
        adopt_eq ({ s₁ with answers } : Session τ κ) (s₁.registry.reconcile serials)
      simp only [hadopt]
      refine ⟨⟨a, rfl, hlists⟩, congrArg (Registry.reconcile · serials) hregistry, fun x => ?_⟩
      exact Registry.mem_serials_iff.trans Registry.contains_reconcile
    · -- the answer is taken, and the registry is what the events made of it
      rw [hlisting]
      refine ⟨nofun, fun e' hresult _ => ?_⟩
      obtain rfl := Except.error.inj hresult
      exact ⟨hregistry, .inl ⟨a, rfl, hrefuses⟩⟩
  | starved hnone hcan =>
    -- no answer has come, and none can come
    rw [getDeviceList_of_error hcall]
    refine ⟨nofun, fun e hresult _ => ?_⟩
    obtain rfl := Except.error.inj hresult
    exact ⟨hregistry, .inr ⟨rfl, hqueue.symm.trans hnone⟩⟩
  | @fatal e he =>
    -- neither a list nor an error that leaves the session open
    rw [getDeviceList_of_error hcall]
    refine ⟨nofun, fun e' hresult hstays => ?_⟩
    obtain rfl := Except.error.inj hresult
    rw [he] at hstays
    cases hstays

/-- A device appears, and behind it comes a list of two, of which the second is no text. -/
def spoiltStream : List Packet :=
  [.event (.added "FAOUT-01"), .answer (.success (.array [.str "FAOUT-02", .ofNat64 7]))]

theorem spoiltStream_gets :
    ∀ p ∈ spoiltStream, readPackets.Gets defaultMessageLimit p.toValue p := by
  intro p hp
  rcases List.mem_cons.1 hp with rfl | hp
  · exact Packet.gets_event (by decide) (by decide)
  · obtain rfl := List.mem_singleton.1 hp
    refine Packet.gets_answer (by decide) ?_ (by decide) (by decide)
    intro v hv
    obtain rfl := List.mem_singleton.1 hv
    exact .array (by simp)

/-- The list is refused for the item, and the registry holds the device that appeared, and not the
one that was listed. -/
theorem getDeviceList_adopts_spoilt :
    let s : Session Scripted Known :=
      create { arrivals := [.data (encodePackets spoiltStream)] } {} none {}
    s.closed = false ∧
      (getDeviceList s).1 = .error (.unexpectedPayload (.deviceSerial (.ofNat64 7))) ∧
      (getDeviceList s).2.registry = s.registry.applyAll [.added "FAOUT-01"] := by
  intro s
  -- the stream arrives in one block, and each of its packets gets through
  have hdrain : (s.inbox.feed (encodePackets spoiltStream)).drain = (⟨spoiltStream, none⟩, s.inbox) :=
    Inbox.drain_encodePackets (by decide) spoiltStream_gets
  obtain ⟨b, block, hblock, hsize⟩ : ∃ b block, encodePackets spoiltStream = b :: block ∧
      block.length < s.config.bufferSize := ⟨_, _, rfl, by decide⟩
  have harrivals : s.transport.arrivals = [.data (b :: block)] := by
    rw [← hblock]
    rfl
  rw [hblock] at hdrain
  obtain ⟨⟨s₁, hcall⟩, hheard⟩ := call_scripted (r := .deviceList) rfl rfl ⟨rfl, rfl⟩ harrivals
    hsize (by rw [hdrain]) (by rw [hdrain]; rfl) (by decide)
  have hanswer : call .deviceList s =
      (answerOutcome (.success (.array [.str "FAOUT-02", .ofNat64 7])), s₁) := hcall
  have hresult : (getDeviceList s).1 =
      .error (.unexpectedPayload (.deviceSerial (.ofNat64 7))) := by
    rw [getDeviceList_of_answer hanswer]
    rfl
  -- what the call decodes is the stream
  obtain ⟨-, transport, hsend, -⟩ := call_ok hcall
  have hpieces : (s.exchangePieces .deviceList).flatten = b :: block := by
    rw [exchangePieces, hsend]
    rw [hsend] at hheard
    exact (flatten_awaitedPieces _).trans hheard
  have hpackets : s.inbox.packetsIn (s.exchangePieces .deviceList) = spoiltStream := by
    have hx : Walk.Exact s.config.messageLimit (s.exchangePieces .deviceList).flatten.length :=
      .inl (by decide)
    exact (Inbox.packetsIn_withLimit hx).trans (by rw [hpieces]; exact congrArg (·.1.packets) hdrain)
  have hadopts := getDeviceList_adopts (s := s) rfl
  rw [hpackets] at hadopts
  exact ⟨rfl, hresult, (hadopts.2 _ hresult rfl).1⟩

end Session

end BoardLink
