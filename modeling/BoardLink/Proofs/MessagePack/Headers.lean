import BoardLink.Proofs.MessagePack.Agreement

/-!
# Headers and integers

Each length is written into the shortest header that can hold it, so every header comes in classes
that meet at fixed bounds. The classes are looked at once, here: a header of `n` is a marker whose
format takes its length from a field that holds `n` (`Extent.Heads`), and nothing else about it
matters to a reader or a walk.

* `heads_stringHeader` and its companions — every header holds its length, below `2 ^ 32`;
* `Integer.reads_encode` — an integer is read back, at every width and sign.
-/

namespace BoardLink.MessagePack

/-- A header of `n`: a marker of a format that takes its length from a field, and a field with
`n`. -/
def Extent.Heads (format : Extent → Format) (header : Bytes) (n : Nat) : Prop :=
  ∃ marker e field, header = marker :: field ∧ Format.ofMarker marker = format e ∧ e.Holds field n

theorem Extent.Heads.stored {format : Extent → Format} {marker : UInt8} {width n : Nat}
    (hf : Format.ofMarker marker = format (.stored width)) (hn : n < fieldValues width) :
    Extent.Heads format (marker :: bigEndian width n) n :=
  ⟨marker, .stored width, bigEndian width n, rfl, hf, length_bigEndian width n,
    ofBigEndian_bigEndian hn⟩

theorem Extent.Heads.immediate {format : Extent → Format} {marker : UInt8} {n : Nat}
    (hf : Format.ofMarker marker = format (.immediate n)) : Extent.Heads format [marker] n :=
  ⟨marker, .immediate n, [], rfl, hf, rfl, rfl⟩

/-! ### Each header holds its length -/

theorem heads_stringHeader {n : Nat} (hn : n < 0x100000000) :
    Extent.Heads .string (stringHeader n) n := by
  unfold stringHeader
  split
  next hsmall =>
    -- a short length is part of the marker
    have hmarkers : ∀ m : Fin 32,
        Format.ofMarker (0xa0 ||| UInt8.ofNat m) = .string (.immediate m) := by decide
    exact .immediate (hmarkers ⟨n, hsmall⟩)
  split
  next h1 => exact .stored rfl h1
  split
  next h2 => exact .stored rfl h2
  · exact .stored rfl hn

theorem heads_binaryHeader {n : Nat} (hn : n < 0x100000000) :
    Extent.Heads .binary (binaryHeader n) n := by
  unfold binaryHeader
  split
  next h1 => exact .stored rfl h1
  split
  next h2 => exact .stored rfl h2
  · exact .stored rfl hn

theorem heads_arrayHeader {n : Nat} (hn : n < 0x100000000) :
    Extent.Heads .array (arrayHeader n) n := by
  unfold arrayHeader
  split
  next hsmall =>
    have hmarkers : ∀ m : Fin 16,
        Format.ofMarker (0x90 ||| UInt8.ofNat m) = .array (.immediate m) := by decide
    exact .immediate (hmarkers ⟨n, hsmall⟩)
  split
  next h2 => exact .stored rfl h2
  · exact .stored rfl hn

theorem heads_mapHeader {n : Nat} (hn : n < 0x100000000) : Extent.Heads .map (mapHeader n) n := by
  unfold mapHeader
  split
  next hsmall =>
    have hmarkers : ∀ m : Fin 16,
        Format.ofMarker (0x80 ||| UInt8.ofNat m) = .map (.immediate m) := by decide
    exact .immediate (hmarkers ⟨n, hsmall⟩)
  split
  next h2 => exact .stored rfl h2
  · exact .stored rfl hn

theorem heads_extHeader {n : Nat} (hn : n < 0x100000000) : Extent.Heads .ext (extHeader n) n := by
  unfold extHeader
  -- five lengths have markers of their own
  iterate 5
    split
    next hn => exact hn ▸ .immediate rfl
  split
  next h1 => exact .stored rfl h1
  split
  next h2 => exact .stored rfl h2
  · exact .stored rfl hn

/-! ### Headers and walks -/

namespace Extent.Heads

variable {format : Extent → Format} {header : Bytes} {n : Nat}

/-- A header with the bytes that it announces is one value. -/
theorem spans_bytes {extra : Nat} {payload : Bytes}
    (hformat : ∀ e, (format e).announcement = e.announceBytes extra)
    (h : Extent.Heads format header n) (hpayload : payload.length = extra + n) :
    Spans 1 (header ++ payload) := by
  obtain ⟨marker, e, field, rfl, hf, he⟩ := h
  have hextent : (Format.ofMarker marker).announcement.extent? (field ++ payload) =
      some ((field ++ payload).length, 0) := by
    rw [hf, hformat]
    exact Extent.extent?_announceBytes_iff.2 ⟨rfl, field, payload, n, rfl, hpayload, he⟩
  have hone := Spans.one hextent .nil
  rwa [List.append_nil] at hone

/-- A header with the entries that it announces is one value. -/
theorem spans_entries {perEntry : Nat} {body : Bytes}
    (hformat : ∀ e, (format e).announcement = e.announceEntries perEntry)
    (h : Extent.Heads format header n) (hbody : Spans (n * perEntry) body) :
    Spans 1 (header ++ body) := by
  obtain ⟨marker, e, field, rfl, hf, he⟩ := h
  have hextent : (Format.ofMarker marker).announcement.extent? field =
      some (field.length, n * perEntry) := by
    rw [hf, hformat]
    exact Extent.extent?_announceEntries_iff.2 ⟨n, rfl, he⟩
  exact Spans.one hextent hbody

end Extent.Heads

/-- A marker and a field of fixed width are one value. -/
theorem Spans.field {marker : UInt8} {field : Bytes}
    (hf : (Format.ofMarker marker).announcement = .fixed (1 + field.length)) :
    Spans 1 (marker :: field) := by
  have hextent : (Format.ofMarker marker).announcement.extent? field = some (field.length, 0) := by
    rw [hf, Announcement.extent?, Nat.add_sub_cancel_left]
  have hone := Spans.one hextent .nil
  rwa [List.append_nil] at hone

/-! ### Integers -/

namespace Integer

/-- The encoding of an integer is one value, and read back as the integer. -/
def ReadsBack (n : Integer) (bytes : Bytes) : Prop :=
  Spans 1 bytes ∧ Reads readValue bytes (.int n) 1

theorem ReadsBack.small {n : Integer} {marker : UInt8} {k : Int8}
    (hf : Format.ofMarker marker = .small k) (hk : k.toInt = n.val) : n.ReadsBack [marker] := by
  have hn : .ofInt64 k.toInt64 = n := by
    apply ext_val
    rw [← hk]
    exact Int8.toInt_toInt64 k
  refine ⟨.field (by rw [hf]; rfl), ?_⟩
  have hread := Reads.small hf
  rwa [hn] at hread

theorem ReadsBack.unsigned {n : Integer} {marker : UInt8} {width m : Nat}
    (hf : Format.ofMarker marker = .unsigned width) (hm : m < fieldValues width)
    (hn : n.val = m) : n.ReadsBack (marker :: bigEndian width m) := by
  have hf' : Format.ofMarker marker = .unsigned (bigEndian width m).length := by
    rw [hf, length_bigEndian]
  have hint : .ofUInt64 (UInt64.ofNat (ofBigEndian (bigEndian width m))) = n := by
    have htop := n.lt_top
    apply ext_val
    rw [ofBigEndian_bigEndian hm, hn]
    show ((UInt64.ofNat m).toNat : Int) = m
    rw [UInt64.toNat_ofNat_of_lt' (by rw [hn] at htop; exact Int.ofNat_lt.1 htop)]
  refine ⟨.field (by rw [hf']; rfl), ?_⟩
  have hread := Reads.unsigned hf'
  rwa [hint] at hread

/-- The complement of a negative number has the upper half of a field. -/
theorem ReadsBack.signed {n : Integer} {marker : UInt8} {width : Nat}
    (hf : Format.ofMarker marker = .signed width) (hneg : n.val < 0)
    (hn : -fieldValues width ≤ 2 * n.val) :
    n.ReadsBack (marker :: bigEndian width (n.val + fieldValues width).toNat) := by
  have hlt : (n.val + fieldValues width).toNat < fieldValues width := by omega
  -- the sign is read off the half of the field's values that the complement lies in
  have hcomplement :
      twosComplement (bigEndian width (n.val + fieldValues width).toNat) = n.val := by
    unfold twosComplement
    rw [ofBigEndian_bigEndian hlt, length_bigEndian]
    split <;> omega
  have hf' : Format.ofMarker marker =
      .signed (bigEndian width (n.val + fieldValues width).toNat).length := by
    rw [hf, length_bigEndian]
  have hint : .ofInt64 (Int64.ofInt n.val) = n := by
    have hle := n.neg_le
    apply ext_val
    exact Int64.toInt_ofInt_of_le hle (by omega)
  refine ⟨.field (by rw [hf']; rfl), ?_⟩
  have hread := Reads.signed hf'
  rwa [hcomplement, hint] at hread

/-- **Integers are read back** in whichever format is the narrowest. -/
theorem readsBack_encode (n : Integer) : n.ReadsBack n.encode := by
  have hle := n.neg_le
  have htop := n.lt_top
  unfold encode
  split
  next hpos =>
    have hm : n.val = n.val.toNat := by omega
    simp only
    split
    next hsmall =>
      -- the smallest numbers are markers themselves
      have hmarkers : ∀ m : Fin 128, Format.ofMarker (UInt8.ofNat m) = .small (Int8.ofNat m) ∧
          (Int8.ofNat m).toInt = m := by decide
      obtain ⟨hf, hk⟩ := hmarkers ⟨n.val.toNat, hsmall⟩
      exact .small hf (hk.trans hm.symm)
    split
    next h1 => exact .unsigned rfl h1 hm
    split
    next h2 => exact .unsigned rfl h2 hm
    split
    next h4 => exact .unsigned rfl h4 hm
    · exact .unsigned rfl (show _ < 0x10000000000000000 by omega) hm
  next hneg =>
    simp only
    split
    next hsmall =>
      -- the smallest negative numbers are written as their complement in one byte, which is a
      -- marker
      have hmarkers : ∀ m : Fin 32,
          Format.ofMarker (UInt8.ofNat (0xe0 + m)) = .small (Int8.ofInt (m - 32)) ∧
            (Int8.ofInt (m - 32)).toInt = m - 32 := by decide
      obtain ⟨hf, hk⟩ := hmarkers ⟨(n.val + 32).toNat, by omega⟩
      have hfield : bigEndian 1 (n.val + fieldValues 1).toNat =
          [UInt8.ofNat (0xe0 + (n.val + 32).toNat)] := by
        have : (n.val + fieldValues 1).toNat = 0xe0 + (n.val + 32).toNat := by
          show (n.val + 256).toNat = _
          omega
        rw [this]
        rfl
      rw [hfield]
      refine .small hf (hk.trans ?_)
      show ((n.val + 32).toNat : Int) - 32 = n.val
      omega
    split
    next h1 => exact .signed rfl (by omega) (show -0x100 ≤ _ by omega)
    split
    next h2 => exact .signed rfl (by omega) (show -0x10000 ≤ _ by omega)
    split
    next h4 => exact .signed rfl (by omega) (show -0x100000000 ≤ _ by omega)
    · exact .signed rfl (by omega) (show -0x10000000000000000 ≤ _ by omega)

end Integer

end BoardLink.MessagePack
