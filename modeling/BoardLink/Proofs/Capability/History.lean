import BoardLink.Capability.Table
import Mathlib.Data.Finset.Card
import Mathlib.Data.Finset.Dedup

/-!
# Capability tables and their histories

A table is made by registrations, one after the other, and two of them count for a prefix: the first
one gives it its place, and the last one its maker.

* `CapabilityTable.leads_register`, `CapabilityTable.maker?_register` — what one registration does to
  the places, and to the makers;
* `CapabilityTable.find?_leads_ofHistory`, `CapabilityTable.maker?_ofHistory` — so a table looks up
  prefixes as its history does from the front, and makers as its history does from the back;
* `CapabilityTable.resolve?_ofHistory` — which prefix and which maker a serial gets.
-/

namespace BoardLink

namespace CapabilityTable

variable {κ : Type}

/-- The prefixes of a table, in their order. -/
def leads (t : CapabilityTable κ) : List String := t.entries.map (·.1)

/-- The maker of a prefix. -/
def maker? (t : CapabilityTable κ) (lead : String) : Option (String → κ) :=
  (t.entries.find? (·.1 = lead)).map (·.2)

theorem matchesLead_iff {lead serial : String} :
    matchesLead lead serial = true ↔ lead.toList <+: serial.toList :=
  List.isPrefixOf_iff_prefix

/-- A serial gets the first prefix that it begins with, -/
theorem lead_resolve? (t : CapabilityTable κ) (serial : String) :
    (t.resolve? serial).map (·.1) = t.leads.find? (matchesLead · serial) := by
  rw [leads, List.find?_map]
  rfl

/-- and its maker. -/
theorem maker?_of_resolve? {t : CapabilityTable κ} {serial lead : String} {make : String → κ}
    (h : t.resolve? serial = some (lead, make)) : t.maker? lead = some make := by
  obtain ⟨hmatches, before, after, hentries, hbefore⟩ := List.find?_eq_some_iff_append.1 h
  -- an entry in front of it with the same prefix would match, too
  have hfirst : t.entries.find? (·.1 = lead) = some (lead, make) := by
    -- the entry that the serial gets is the first that matches, so it is the first of its prefix
    refine List.find?_eq_some_iff_append.2 ⟨decide_eq_true rfl, before, after, hentries, ?_⟩
    intro e he
    have hnot := hbefore e he
    by_contra hsame
    obtain rfl : e.1 = lead := by simpa using hsame
    rw [hmatches] at hnot
    cases hnot
  rw [maker?, hfirst, Option.map_some]

theorem resolve?_eq_some_iff {t : CapabilityTable κ} {serial lead : String} {make : String → κ} :
    t.resolve? serial = some (lead, make) ↔
      t.leads.find? (matchesLead · serial) = some lead ∧ t.maker? lead = some make := by
  rw [← lead_resolve?]
  constructor
  · intro h
    exact ⟨congrArg (Option.map (·.1)) h, maker?_of_resolve? h⟩
  · rintro ⟨hlead, hmaker⟩
    -- a prefix has one maker, so it is the one that the serial gets
    obtain ⟨⟨lead, made⟩, hresolve, rfl⟩ := Option.map_eq_some_iff.1 hlead
    rw [hresolve, Option.some.inj ((maker?_of_resolve? hresolve).symm.trans hmaker)]

theorem resolve?_eq_none_iff {t : CapabilityTable κ} {serial : String} :
    t.resolve? serial = none ↔ t.leads.find? (matchesLead · serial) = none := by
  rw [← lead_resolve?, Option.map_eq_none_iff]

/-! ### One registration -/

theorem any_entries_iff {t : CapabilityTable κ} {lead : String} :
    t.entries.any (·.1 = lead) = true ↔ lead ∈ t.leads := by
  simp [leads]

/-- A prefix is registered behind the others, unless it has its place. -/
theorem leads_register (t : CapabilityTable κ) (lead : String) (make : String → κ) :
    (t.register lead make).leads = if lead ∈ t.leads then t.leads else t.leads ++ [lead] := by
  rw [register, if_congr any_entries_iff rfl rfl, apply_ite leads]
  congr 1
  · -- it is there: the entry is replaced where it stands
    rw [leads, leads, List.map_map]
    refine List.map_congr_left fun e he => ?_
    by_cases hsame : e.1 = lead <;> simp [hsame]
  · -- it is new: the entry is put behind the others
    rw [leads, leads, List.map_append]
    rfl

/-- A prefix has the maker that it is registered with, and the others keep theirs. -/
theorem maker?_register (t : CapabilityTable κ) (lead : String) (make : String → κ)
    (other : String) : (t.register lead make).maker? other =
      if lead = other then some make else t.maker? other := by
  have hnone : other ∉ t.leads ↔ t.entries.find? (·.1 = other) = none := by
    simp only [leads, List.mem_map, not_exists, not_and, List.find?_eq_none, decide_eq_true_eq]
  rw [register, if_congr any_entries_iff rfl rfl]
  split
  next hplaced =>
    -- the entries keep their prefixes
    have hsame : ((fun e : String × (String → κ) => decide (e.1 = other)) ∘
        fun e => if e.1 = lead then (lead, make) else e) = fun e => decide (e.1 = other) := by
      funext e
      by_cases he : e.1 = lead <;> simp [he]
    rw [maker?, maker?, List.find?_map, hsame]
    cases hfind : t.entries.find? (·.1 = other) with
    | none =>
      -- the prefix that is registered is in the table, so it is not the one that was not found
      have hne : lead ≠ other := fun heq => hnone.2 hfind (heq ▸ hplaced)
      rw [if_neg hne]
      rfl
    | some e =>
      obtain rfl : e.1 = other := by simpa using List.find?_some hfind
      by_cases he : e.1 = lead
      · simp [he]
      · simp [he, Ne.symm he]
  next hnew =>
    -- the entries that were there come first
    rw [maker?, maker?, List.find?_append]
    by_cases heq : lead = other
    · rw [hnone.1 (heq ▸ hnew)]
      simp [heq]
    · simp [heq]

/-- A prefix that is registered again does not change which prefix a serial gets. -/
theorem lead_resolve?_register {t : CapabilityTable κ} {lead : String} (h : lead ∈ t.leads)
    (make : String → κ) (serial : String) :
    ((t.register lead make).resolve? serial).map (·.1) = (t.resolve? serial).map (·.1) := by
  rw [lead_resolve?, lead_resolve?, leads_register, if_pos h]

/-! ### All registrations -/

/-- The table that registrations make, one after the other. -/
def ofHistory (history : List (String × (String → κ))) : CapabilityTable κ :=
  history.foldl (fun t e => t.register e.1 e.2) {}

/-- The prefixes that were registered, as often and in the order as they were. -/
def leadsOf (history : List (String × (String → κ))) : List String := history.map (·.1)

theorem ofHistory_concat (history : List (String × (String → κ))) (e : String × (String → κ)) :
    ofHistory (history ++ [e]) = (ofHistory history).register e.1 e.2 := by
  rw [ofHistory, List.foldl_concat]
  rfl

/-- **A table finds prefixes as its history does**, and each of them at its first registration. The
induction is on the end of the history. -/
theorem find?_leads_ofHistory (history : List (String × (String → κ))) (p : String → Bool) :
    (ofHistory history).leads.find? p = (leadsOf history).find? p := by
  induction history using List.reverseRecOn with
  | nil => rfl
  | append_singleton history e ih =>
    -- the last registration either repeats a prefix that has been found, or is one more to look at
    rw [ofHistory_concat, leads_register, leadsOf, List.map_append, List.find?_append,
      ← leadsOf, ← ih]
    split
    next hplaced =>
      -- what is there already is found there, if at all
      cases hfind : (ofHistory history).leads.find? p with
      | some lead => rfl
      | none =>
        have hnot := List.find?_eq_none.1 hfind e.1 hplaced
        simp [hnot]
    next hnew => rw [List.find?_append]; rfl

theorem mem_leads_ofHistory {history : List (String × (String → κ))} {lead : String} :
    lead ∈ (ofHistory history).leads ↔ lead ∈ leadsOf history := by
  -- to be in a list is to be found in it
  have hfinds : ∀ l : List String, lead ∈ l ↔ (l.find? (· = lead)).isSome := by simp
  rw [hfinds, hfinds, find?_leads_ofHistory]

/-- No prefix has two places. -/
theorem nodup_leads_ofHistory (history : List (String × (String → κ))) :
    (ofHistory history).leads.Nodup := by
  induction history using List.reverseRecOn with
  | nil => exact List.nodup_nil
  | append_singleton history e ih =>
    rw [ofHistory_concat, leads_register]
    split
    next => exact ih
    next hnew => exact List.concat_eq_append ▸ ih.concat hnew

/-- **A table has the makers of the last registrations.** -/
theorem maker?_ofHistory (history : List (String × (String → κ))) (lead : String) :
    (ofHistory history).maker? lead = (history.reverse.find? (·.1 = lead)).map (·.2) := by
  induction history using List.reverseRecOn with
  | nil => rfl
  | append_singleton history e ih =>
    -- the last registration is the first one from behind
    rw [ofHistory_concat, maker?_register, List.reverse_concat, List.find?_cons]
    by_cases heq : e.1 = lead <;> simp [heq, ih]

/-- There are as many prefixes in a table as were ever registered. -/
theorem size_ofHistory (history : List (String × (String → κ))) :
    (ofHistory history).size = (leadsOf history).toFinset.card := by
  -- as sets they are the same, and the table has each prefix once
  have hsame : (leadsOf history).toFinset = (ofHistory history).leads.toFinset := by
    ext lead
    rw [List.mem_toFinset, List.mem_toFinset, mem_leads_ofHistory]
  rw [hsame, List.toFinset_card_of_nodup (nodup_leads_ofHistory history), leads, List.length_map,
    size]

/-! ### What a serial gets -/

/-- **The prefix that a serial is to get**: of those registered that it begins with, the one whose
first registration is the earliest. -/
structure EarliestMatch (history : List (String × (String → κ))) (serial lead : String) : Prop where
  registered : lead ∈ leadsOf history
  begins : lead.toList <+: serial.toList
  earliest : ∀ other ∈ leadsOf history, other.toList <+: serial.toList →
    (leadsOf history).idxOf lead ≤ (leadsOf history).idxOf other

/-- The maker in the last registration of a prefix. -/
def LatestMaker (history : List (String × (String → κ))) (lead : String) (make : String → κ) :
    Prop :=
  ∃ before after, history = before ++ (lead, make) :: after ∧ lead ∉ leadsOf after

theorem EarliestMatch.of_find? {history : List (String × (String → κ))} {serial lead : String}
    (h : (leadsOf history).find? (matchesLead · serial) = some lead) :
    EarliestMatch history serial lead := by
  -- a serial gets the first prefix that it begins with, as the list has it
  have hregistered := List.mem_of_find?_eq_some h
  obtain ⟨hmatches, before, after, hleads, hbefore⟩ := List.find?_eq_some_iff_append.1 h
  -- none that the serial begins with is registered in front
  have hbehind : ∀ other : String, other.toList <+: serial.toList → other ∉ before := by
    intro other hbegins hmem
    have hnot := hbefore other hmem
    rw [matchesLead_iff.2 hbegins] at hnot
    cases hnot
  have hbegins := matchesLead_iff.1 hmatches
  refine ⟨hregistered, hbegins, fun other _ hother => ?_⟩
  rw [hleads, List.idxOf_append_of_notMem (hbehind lead hbegins),
    List.idxOf_append_of_notMem (hbehind other hother), List.idxOf_cons_self]
  exact Nat.add_le_add_left (Nat.zero_le _) _

theorem earliestMatch_iff {history : List (String × (String → κ))} {serial lead : String} :
    EarliestMatch history serial lead ↔
      (leadsOf history).find? (matchesLead · serial) = some lead := by
  refine ⟨fun h => ?_, .of_find?⟩
  have hsome : ((leadsOf history).find? (matchesLead · serial)).isSome :=
    List.find?_isSome.2 ⟨lead, h.registered, matchesLead_iff.2 h.begins⟩
  obtain ⟨found, hfound⟩ := Option.isSome_iff_exists.1 hsome
  have hfirst := EarliestMatch.of_find? hfound
  -- both are the earliest
  have hsame := (hfirst.earliest lead h.registered h.begins).antisymm
    (h.earliest found hfirst.registered hfirst.begins)
  rw [hfound, (List.idxOf_inj hfirst.registered).1 hsame]

theorem latestMaker_iff {history : List (String × (String → κ))} {lead : String}
    {make : String → κ} : LatestMaker history lead make ↔
      (history.reverse.find? (·.1 = lead)).map (·.2) = some make := by
  constructor
  · rintro ⟨before, after, rfl, hafter⟩
    have hlater : after.reverse.find? (·.1 = lead) = none := by
      refine List.find?_eq_none.2 fun e he hsame => hafter ?_
      exact List.mem_map.2 ⟨e, List.mem_reverse.1 he, of_decide_eq_true hsame⟩
    -- from behind, none of the later ones is of this prefix, so this registration is found first
    rw [List.reverse_append, List.reverse_cons, List.append_assoc, List.find?_append, hlater]
    simp
  · intro h
    obtain ⟨e, hfind, rfl⟩ := Option.map_eq_some_iff.1 h
    -- what was looked at first, from behind, are the registrations after it
    obtain ⟨hsame, after, before, hsplit, hafter⟩ := List.find?_eq_some_iff_append.1 hfind
    obtain rfl : e.1 = lead := of_decide_eq_true hsame
    refine ⟨before.reverse, after.reverse, ?_, fun hmem => ?_⟩
    · rw [← List.reverse_reverse history, hsplit, List.reverse_append, List.reverse_cons,
        List.append_assoc]
      rfl
    · obtain ⟨d, hd, heq⟩ := List.mem_map.1 hmem
      have hnot := hafter d (List.mem_reverse.1 hd)
      simp [heq] at hnot

/-- **The first registration of a prefix decides its place, and the last one its maker.** Let a
table be made by registrations, of prefixes that may begin with each other. Then

* a serial gets nothing if it begins with no prefix that was registered, and otherwise the one of
  them that was registered earliest, with the maker that this prefix was registered with last;
* no prefix is in the table twice, and there are as many as were registered;
* to register one of them again does not change which prefix any serial gets. -/
theorem resolve?_ofHistory (history : List (String × (String → κ))) :
    (∀ serial, (ofHistory history).resolve? serial = none ↔
        ∀ lead ∈ leadsOf history, ¬ lead.toList <+: serial.toList) ∧
      (∀ serial lead make, (ofHistory history).resolve? serial = some (lead, make) ↔
        EarliestMatch history serial lead ∧ LatestMaker history lead make) ∧
      (ofHistory history).leads.Nodup ∧
      (ofHistory history).size = (leadsOf history).toFinset.card ∧
      ∀ lead ∈ leadsOf history, ∀ make serial,
        (((ofHistory history).register lead make).resolve? serial).map (·.1) =
          ((ofHistory history).resolve? serial).map (·.1) := by
  refine ⟨fun serial => ?_, fun serial lead make => ?_, nodup_leads_ofHistory history,
    size_ofHistory history, fun lead hlead make serial => ?_⟩
  · rw [resolve?_eq_none_iff, find?_leads_ofHistory, List.find?_eq_none]
    simp only [matchesLead_iff]
  · rw [resolve?_eq_some_iff, find?_leads_ofHistory, maker?_ofHistory, ← earliestMatch_iff,
      ← latestMaker_iff]
  · exact lead_resolve?_register (mem_leads_ofHistory.2 hlead) make serial

/-- A short prefix is registered, then a longer one, then the short one again. It keeps its place in
front of the longer one, and has the new maker. -/
theorem resolve?_ofHistory_again :
    let history : List (String × (String → String)) :=
      [("FA", fun _ => "short"), ("FAOUT", fun _ => "long"), ("FA", fun _ => "new")]
    let t := ofHistory history
    t.resolve? "FAOUT-01" = some ("FA", history[2].2) ∧ t.resolve? "DIGI-01" = none ∧
      t.size = 2 := by
  intro history t
  obtain ⟨hnone, hsome, -, hsize, -⟩ := resolve?_ofHistory history
  refine ⟨(hsome _ _ _).2 ⟨⟨?_, ?_, ?_⟩, ?_⟩, (hnone _).2 ?_, hsize.trans ?_⟩
  · decide
  · decide
  · decide
  · exact ⟨[("FA", fun _ => "short"), ("FAOUT", fun _ => "long")], [], rfl, List.not_mem_nil⟩
  · decide
  · decide

end CapabilityTable

end BoardLink
