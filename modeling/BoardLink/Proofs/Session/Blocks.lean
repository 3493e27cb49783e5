import BoardLink.Capability.Known
import BoardLink.Proofs.MessagePack.LeastSize
import BoardLink.Proofs.Session.Exchanges
import BoardLink.Proofs.Wire.ReadingOn
import BoardLink.Transport.Scripted

/-!
# Blocks of words

A block of words travels as bytes, two for each word, and the words come back from the bytes. A client
that reads a block knows how many words it has asked for, and takes no other number of bytes.

Servers differ in whether they send the bytes as a byte block or as a string. The two have headers of
their own, in several lengths, and the bytes of a string need not be text. None of this matters to a
client, as it looks at the bytes behind the header (`Packet.ofMessage_blockMessage`). Such an answer
may be one that no packet of this library is encoded as, so what a session needs to know of it is told
of its bytes (`Inbox.brings_message`).

* `bytesToWords_wordsToBytes`, `wordsToBytes_bytesToWords` — both ways of words and bytes;
* `wordsOfBlock_eq_ok_iff` — which bytes are a block of words;
* `Session.blocks_round_trip` — what is read is what was written.
-/

namespace BoardLink

open BoardLink.MessagePack BoardLink.Wire

/-! ### Words and bytes -/

/-- The word of two bytes as a number. -/
theorem toNat_word (high low : UInt8) :
    (high.toUInt16 <<< 8 ||| low.toUInt16).toNat = high.toNat * 256 + low.toNat := by
  have hhigh := high.toNat_lt
  have hshift : (high.toUInt16 <<< 8).toNat = high.toNat <<< 8 := by
    rw [UInt16.toNat_shiftLeft, UInt8.toNat_toUInt16]
    show high.toNat <<< 8 % 2 ^ 16 = _
    rw [Nat.shiftLeft_eq, Nat.mod_eq_of_lt (by omega)]
  -- the low byte fills the bits that the shift has left empty
  rw [UInt16.toNat_or, hshift, UInt8.toNat_toUInt16, ← Nat.shiftLeft_add_eq_or_of_lt low.toNat_lt,
    Nat.shiftLeft_eq]

/-- The bytes of a word as numbers. -/
theorem wordBytes_eq (w : UInt16) :
    wordBytes w = [UInt8.ofNat (w.toNat / 256), UInt8.ofNat (w.toNat % 256)] := by
  have hlt := w.toNat_lt
  have hhigh : (w >>> 8).toUInt8.toNat = w.toNat / 256 := by
    rw [UInt16.toNat_toUInt8, UInt16.toNat_shiftRight]
    -- cutting to eight bits loses nothing, since a word divided by 256 is below 256
    show w.toNat >>> 8 % 2 ^ 8 = _
    rw [Nat.shiftRight_eq_div_pow, Nat.mod_eq_of_lt (by omega)]
  rw [wordBytes, ← hhigh, ← UInt16.toNat_toUInt8, UInt8.ofNat_toNat, UInt8.ofNat_toNat]

theorem bytesToWords_wordsToBytes (words : List UInt16) :
    bytesToWords (wordsToBytes words) = words := by
  induction words with
  | nil => rfl
  | cons w words ih =>
    have hlt := w.toNat_lt
    have hw : (UInt8.ofNat (w.toNat / 256)).toUInt16 <<< 8 ||| (UInt8.ofNat (w.toNat % 256)).toUInt16 =
        w := by
      rw [← UInt16.toNat_inj, toNat_word, UInt8.toNat_ofNat', UInt8.toNat_ofNat']
      omega
    -- the high byte and the low byte of the first word are in front
    show bytesToWords (wordBytes w ++ wordsToBytes words) = _
    rw [wordBytes_eq]
    show _ :: bytesToWords (wordsToBytes words) = _
    rw [hw, ih]

/-- Bytes in pairs are the bytes of their words. The induction takes two bytes at a time, as
`bytesToWords` does. -/
theorem wordsToBytes_bytesToWords {bytes : Bytes} (heven : 2 ∣ bytes.length) :
    wordsToBytes (bytesToWords bytes) = bytes := by
  fun_induction bytesToWords bytes with
  | case1 high low rest ih =>
    have hlow := low.toNat_lt
    -- the word of two bytes is taken apart into the same two
    have hpair : wordBytes (high.toUInt16 <<< 8 ||| low.toUInt16) = [high, low] := by
      have hdiv : (high.toNat * 256 + low.toNat) / 256 = high.toNat := by omega
      have hmod : (high.toNat * 256 + low.toNat) % 256 = low.toNat := by omega
      rw [wordBytes_eq, toNat_word, hdiv, hmod, UInt8.ofNat_toNat, UInt8.ofNat_toNat]
    have hrest : 2 ∣ rest.length := by
      simp only [List.length_cons] at heven
      omega
    show wordBytes _ ++ wordsToBytes (bytesToWords rest) = _
    rw [hpair, ih hrest]
    rfl
  | case2 bytes hshort =>
    -- one byte alone is not a pair
    match bytes with
    | [] => rfl
    | [b] => simp at heven
    | high :: low :: rest => exact absurd rfl (hshort high low rest)

/-- **The blocks of `count` words** are the bytes of lists of that length, and nothing else. -/
theorem wordsOfBlock_eq_ok_iff {bytes : Bytes} {count : Nat} {words : List UInt16} :
    wordsOfBlock bytes count = .ok words ↔ words.length = count ∧ wordsToBytes words = bytes := by
  unfold wordsOfBlock
  constructor
  · intro h
    split at h
    next hlength =>
      -- what is read is as long as the block, since it encodes back to it
      obtain rfl := Except.ok.inj h
      have hsame := wordsToBytes_bytesToWords ⟨count, hlength⟩
      have htwice := length_wordsToBytes (bytesToWords bytes)
      rw [hsame] at htwice
      exact ⟨by omega, hsame⟩
    · -- a block of another length is refused
      cases h
  · rintro ⟨rfl, rfl⟩
    rw [if_pos (length_wordsToBytes words), bytesToWords_wordsToBytes]

/-! ### Answers with a block -/

namespace MessagePack

/-- A header for a block of `n` bytes: one of a byte block or one of a string, of any class that can
hold the length. -/
def HeadsBlock (header : Bytes) (n : Nat) : Prop :=
  Extent.Heads .binary header n ∨ Extent.Heads .string header n

variable {header block : Bytes}

/-- No header is longer than a marker and a length of 32 bits. -/
theorem HeadsBlock.length_le {n : Nat} (h : HeadsBlock header n) : header.length ≤ 5 := by
  have hfield : ∀ (marker : UInt8) {e : Extent} {field : Bytes}, e.Holds field n →
      Announcement.ofMarker marker = e.announceBytes 0 → field.length ≤ 4 := by
    intro marker e field he hannounces
    -- only a length that is stored takes a field, and markers store it in four bytes at most
    cases e with
    | immediate m =>
      rw [he.1]
      exact Nat.zero_le 4
    | stored width =>
      have hnarrow := isNarrow_ofMarker marker
      rw [hannounces] at hnarrow
      rw [he.1]
      exact hnarrow.2
  rcases h with ⟨marker, e, field, rfl, hf, he⟩ | ⟨marker, e, field, rfl, hf, he⟩
  all_goals
    refine Nat.succ_le_succ (hfield marker he ?_)
    rw [← announcement_ofMarker, hf]
    rfl

/-- Behind either header the bytes are one value, which shows them as they are. -/
theorem HeadsBlock.reads (h : HeadsBlock header block.length) : Spans 1 (header ++ block) ∧
    ∃ v cost, Reads readValue (header ++ block) v cost ∧ cost ≤ 3 ∧ v.asBytes? = some block := by
  -- a byte block is kept as it is; of a string it depends on its bytes
  rcases h with h | h
  · refine ⟨h.spans_bytes (fun _ => rfl) (Nat.zero_add _).symm, .bin block, 2, ?_, by decide, rfl⟩
    obtain ⟨marker, e, field, rfl, hf, he⟩ := h
    exact Reads.binary hf he
  · refine ⟨h.spans_bytes (fun _ => rfl) (Nat.zero_add _).symm, .ofStringBytes block, 3, ?_,
      Nat.le_refl 3, ?_⟩
    · obtain ⟨marker, e, field, rfl, hf, he⟩ := h
      exact Reads.string hf he
    · -- the string is text, or it is kept as bytes
      unfold Value.ofStringBytes
      cases htext : text? block with
      | none => rfl
      | some text => exact congrArg some (text?_eq_some_iff.1 htext).symm

end MessagePack

/-- The message of an answer that reports success with a block: an array of two, the rcode, and the
block behind a header of its own. -/
def blockMessage (header block : Bytes) : Bytes :=
  0x92 :: 0x00 :: (header ++ block)

theorem encode_success (v : Value) :
    -- both the header of the pair and the rcode are one byte
    (Packet.answer (.success v)).encode = 0x92 :: 0x00 :: v.encode := by
  have harray : arrayHeader 2 = [0x92] := by decide
  have hrcode : (Integer.ofInt64 0).encode = [0x00] := by decide
  show (Value.array [.int (.ofInt64 0), v]).encode = _
  rw [Value.encode, encodeAll, encodeAll, encodeAll, Value.encode, List.append_nil, hrcode]
  show arrayHeader 2 ++ _ = _
  rw [harray]
  rfl

/-- So a server may answer with a byte block, -/
theorem blockMessage_eq_encode_bin (block : Bytes) :
    blockMessage (binaryHeader block.length) block = (Packet.answer (.success (.bin block))).encode := by
  rw [encode_success, Value.encode]
  rfl

/-- or with a string. -/
theorem blockMessage_eq_encode_str (text : String) :
    blockMessage (stringHeader (utf8 text).length) (utf8 text) =
      (Packet.answer (.success (.str text))).encode := by
  rw [encode_success, Value.encode]
  rfl

variable {header block : Bytes}

theorem spans_blockMessage (h : HeadsBlock header block.length) :
    Spans 1 (blockMessage header block) := by
  have hrcode : Spans 1 [0x00] := (Integer.ofInt64 0).readsBack_encode.1
  exact (heads_arrayHeader (n := 2) (by decide)).spans_entries (fun _ => rfl) (hrcode.append h.reads.1)

/-- **A block is received as its bytes**, however it is sent. -/
theorem Wire.Packet.ofMessage_blockMessage (h : HeadsBlock header block.length) :
    ∃ v : Value, Packet.ofMessage (blockMessage header block) = .ok (.answer (.success v)) ∧
      v.asBytes? = some block := by
  obtain ⟨-, v, cost, hv, hcost, hbytes⟩ := h.reads
  have hrcode : Reads readValue [0x00] (.int (.ofInt64 0)) 1 :=
    (Integer.ofInt64 0).readsBack_encode.2
  -- the rcode and the block are the entries of the pair
  have hitems := hrcode.many_cons (hv.many_cons (Reads.many_nil readValue))
  have hpair : Format.ofMarker 0x92 = .array (.immediate 2) := rfl
  have hcount : (Extent.immediate 2).Holds [] 2 := ⟨rfl, rfl⟩
  have hread := Reads.array hpair hcount hitems readBudget []
  -- the pair of the rcode and a flat value is not deep
  have hdepth : max 1 (max cost 0) + 2 ≤ readBudget := by
    rw [Nat.max_zero]
    exact (Nat.add_le_add_right (Nat.max_le.2 ⟨by decide, hcost⟩) 2).trans (by decide)
  rw [if_pos hdepth, List.append_nil] at hread
  refine ⟨v, ?_, hbytes⟩
  have hmessage : blockMessage header block = 0x92 :: ([] ++ ([0x00] ++ (header ++ block ++ []))) := by
    rw [List.append_nil]
    rfl
  rw [Packet.ofMessage, hmessage, hread]
  exact Packet.ofFields_of_nonpos (Int64.le_refl 0)

/-! ### What a message brings -/

/-- A new framer takes a whole message, and reads it as a packet. -/
theorem MessagePack.Framer.nextAs_of_message {limit : Nat} {message : Bytes} {p : Packet}
    (hlimit : limit ≤ maxSize) (hmessage : Spans 1 message) (hle : message.length ≤ limit)
    (hread : Packet.ofMessage message = .ok p) :
    Framer.nextAs readPackets { limit := limit } message =
      (.ok (some p), { limit := limit }, []) := by
  have hnext := Framer.next_of_spans hmessage hlimit hle []
  rw [List.append_nil] at hnext
  rw [Packet.ofMessage] at hread
  rw [Framer.nextAs, hnext, Framer.readMessage]
  -- the framer and the packet read the same value of the message
  cases hvalue : readValue readBudget message with
  | error why =>
    rw [hvalue] at hread
    cases hread
  | ok read =>
    rw [hvalue] at hread
    have hpacket : Packet.ofValue read.1 = .ok p := hread
    show (some <$> Packet.ofValue read.1, _, _) = _
    rw [hpacket]
    rfl

/-- **The message of an answer brings it**, whatever it is encoded from. -/
theorem Wire.Inbox.brings_message {limit : Nat} {message : Bytes} {a : Answer}
    (hlimit : limit < maxSize) (hmessage : Spans 1 message) (hle : message.length ≤ limit)
    (hread : Packet.ofMessage message = .ok (.answer a)) : Brings limit message [] a := by
  have htaken : ∀ pieces, Framer.takePieces readPackets { limit := limit } pieces =
      Framer.takeAll readPackets { limit := limit } pieces.flatten :=
    fun pieces => Framer.takePieces_eq_takeAll (.of_exact (.inl hlimit))
  -- a part of the message waits, and the whole of it is taken
  have hpart : ∀ {pieces : List Bytes}, pieces.flatten <+: message → pieces.flatten ≠ message →
      ∃ w, Framer.takePieces readPackets { limit := limit } pieces =
        ⟨[], none, ⟨limit, w⟩, pieces.flatten⟩ := by
    intro pieces hfront hproper
    obtain ⟨w, hwait⟩ := Framer.next_of_part hmessage hlimit.le hle hfront hproper
    exact ⟨w, (htaken pieces).trans (Framer.takeAll_of_wait hwait)⟩
  have hwhole : ∀ {pieces : List Bytes}, pieces.flatten = message →
      Framer.takePieces readPackets { limit := limit } pieces =
        ⟨[.answer a], none, { limit := limit }, []⟩ := by
    intro pieces h
    have hnone : Framer.takeAll readPackets { limit := limit } [] = ⟨[], none, { limit := limit }, []⟩ :=
      Framer.takeAll_of_wait rfl
    rw [htaken, h, Framer.takeAll_eq, Framer.nextAs_of_message hlimit.le hmessage hle hread]
    simp only [hnone]
  -- in each case it is known what the framer has taken, and the inbox has taken the same
  refine ⟨fun {pieces} hfront => ?_, fun hfront hproper => ?_, fun h => ?_⟩
  · by_cases hall : pieces.flatten = message
    · rw [(packetsIn_of_takePieces (hwhole hall)).2]
      rfl
    · obtain ⟨w, hw⟩ := hpart hfront hall
      rw [(packetsIn_of_takePieces hw).2]
      rfl
  · obtain ⟨w, hw⟩ := hpart hfront hproper
    rw [(packetsIn_of_takePieces hw).1]
    rfl
  · exact packetsIn_of_takePieces (hwhole h)

namespace Session

variable {τ κ : Type} [Transport τ] [Capability κ]

/-- So few words can be asked for. -/
theorem wireCount_of_le {count : Nat} (h : count ≤ 2 ^ 23 - 1) :
    wireCount count = .ok (UInt32.ofNat count) :=
  if_pos (Nat.lt_of_le_of_lt h (by decide))

/-- A client that is answered with a block of words returns them. -/
theorem readRegN_of_block {s : Session τ κ} {words : List UInt16} {header : Bytes}
    {transport transport' : τ} (serial : String) (addr port : UInt8)
    (hwords : words.length ≤ 2 ^ 23 - 1) (hopen : s.closed = false)
    (hinbox : s.inbox = .withLimit defaultMessageLimit) (hnone : s.answers = [])
    (hheader : HeadsBlock header (wordsToBytes words).length)
    (haccepts : Accepts s.transport
      (Request.readRegN serial addr port (UInt32.ofNat words.length)).encode transport)
    (hdelivers : Delivers s.config.bufferSize transport (blockMessage header (wordsToBytes words))
      transport') :
    ∃ s', readRegN serial addr port words.length s = (.ok words, s') ∧
      s.Exchanged [] transport' s' := by
  obtain ⟨v, hread, hbytes⟩ := Packet.ofMessage_blockMessage hheader
  have hlength : (blockMessage header (wordsToBytes words)).length ≤ defaultMessageLimit := by
    -- twice as many bytes as words, and a few in front of them
    have hshort := hheader.length_le
    simp only [blockMessage, List.length_cons, List.length_append, length_wordsToBytes]
    show _ ≤ 64 * 1024 * 1024
    omega
  have hbrings := Inbox.brings_message (by decide) (spans_blockMessage hheader) hlength hread
  obtain ⟨s', hcall, hexchanged⟩ := call_of_brings hopen hinbox hnone hbrings haccepts hdelivers
  -- the block shows the bytes, whether it came as a byte block or as a string
  have hblock : (Answer.success v).block = .ok (wordsToBytes words) := by
    rw [Answer.block, show (Answer.success v).value? = some v from rfl, Option.bind_some, hbytes]
  have hback : wordsOfBlock (wordsToBytes words) words.length = .ok words :=
    wordsOfBlock_eq_ok_iff.2 ⟨rfl, rfl⟩
  refine ⟨s', ?_, hexchanged⟩
  have hsuccess : answerOutcome (.success v) = .ok (.success v) :=
    if_neg (show ¬ (0 : Int64) < 0 by decide)
  rw [hsuccess] at hcall
  rw [readRegN, wireCount_of_le hwords]
  show (call (.readRegN serial addr port _) >>= fun answer => liftM answer.block >>= fun bytes =>
    liftM (wordsOfBlock bytes words.length)) s = _
  rw [SessionM.bind_apply, hcall]
  simp only [hblock]
  show (liftM (wordsOfBlock (wordsToBytes words) words.length) : SessionM τ κ (List UInt16)) s' = _
  rw [hback]
  rfl

/-- **Blocks of words come back.** The bytes of any words are read as these words. Bytes are read as
`count` words exactly if there are `2 * count` of them, and the words are those that have these bytes;
with any other number it is said which one was expected. So a client with the usual limit that reads
as many words as were written, and is answered with the block that was written, returns the words. It
does not matter whether the block is sent as a byte block or as a string, nor in which pieces it
arrives. -/
theorem blocks_round_trip :
    (∀ words : List UInt16, wordsOfBlock (wordsToBytes words) words.length = .ok words) ∧
    (∀ (bytes : Bytes) (count : Nat),
      if bytes.length = 2 * count then
        ∃ words, wordsOfBlock bytes count = .ok words ∧ wordsToBytes words = bytes
      else wordsOfBlock bytes count = .error (.lengthMismatch (2 * count) bytes.length)) ∧
    ∀ (s : Session τ κ) (serial : String) (addr port : UInt8) (words : List UInt16) (block : Bytes),
      words.length ≤ 2 ^ 23 - 1 → s.closed = false →
      s.inbox = .withLimit defaultMessageLimit → s.answers = [] →
      (Call.writeRegN serial addr port words).request = .ok (.writeRegN serial addr port block) →
      ∃ r, (Call.readRegN serial addr port words.length).request = .ok r ∧
        ∀ header transport transport', HeadsBlock header block.length →
          Accepts s.transport r.encode transport →
          Delivers s.config.bufferSize transport (blockMessage header block) transport' →
            ∃ s', readRegN serial addr port words.length s = (.ok words, s') ∧
              s.Exchanged [] transport' s' := by
  refine ⟨fun words => wordsOfBlock_eq_ok_iff.2 ⟨rfl, rfl⟩, fun bytes count => ?_, ?_⟩
  · split
    next hlength =>
      -- the bytes of a block of the right length are those of their words
      exact ⟨bytesToWords bytes, if_pos hlength, wordsToBytes_bytesToWords ⟨count, hlength⟩⟩
    next hlength => exact if_neg hlength
  · intro s serial addr port words block hwords hopen hinbox hnone hwritten
    obtain rfl : wordsToBytes words = block := (Request.writeRegN.inj (Except.ok.inj hwritten)).2.2.2
    refine ⟨.readRegN serial addr port (UInt32.ofNat words.length), ?_, ?_⟩
    · rw [Call.request, wireCount_of_le hwords]
      rfl
    · -- the answer is delivered, and the read returns the words that its block holds
      intro header transport transport' hheader haccepts hdelivers
      exact readRegN_of_block serial addr port hwords hopen hinbox hnone hheader haccepts hdelivers

/-- Two words are read that were sent as a string, though their bytes are not text, and arrive in two
pieces. -/
theorem blocks_round_trip_string :
    let s : Session Scripted Known :=
      create { arrivals := [.data [0x92, 0x00, 0xa4, 0xff], .data [0xfe, 0x00, 0x01]] } {} none {}
    text? [0xff, 0xfe, 0x00, 0x01] = none ∧
      ∃ s', readRegN "FAOUT-01" 4 1 2 s = (.ok [0xfffe, 0x0001], s') ∧ s'.answers = [] := by
  intro s
  let r : Request := .readRegN "FAOUT-01" 4 1 2
  let sent : Scripted := { s.transport with sender.accepted := r.encode }
  have haccepts : Accepts s.transport r.encode sent := .some rfl (.all _)
  have hdelivers : Delivers s.config.bufferSize sent (blockMessage [0xa4] [0xff, 0xfe, 0x00, 0x01])
      { sent with arrivals := [], receives := 2 } := by
    show Delivers _ _ ([0x92, 0x00, 0xa4, 0xff] ++ ([0xfe, 0x00, 0x01] ++ [])) _
    exact .some rfl rfl (.some rfl rfl (.all _))
  have hwritten : (Call.writeRegN "FAOUT-01" 4 1 [0xfffe, 0x0001]).request =
      .ok (.writeRegN "FAOUT-01" 4 1 [0xff, 0xfe, 0x00, 0x01]) := by
    have hblock : wordsToBytes [0xfffe, 0x0001] = [0xff, 0xfe, 0x00, 0x01] := by decide
    rw [Call.request, hblock]
  have hheader : HeadsBlock [0xa4] 4 := .inr (heads_stringHeader (n := 4) (by decide))
  obtain ⟨-, -, hreads⟩ := blocks_round_trip (τ := Scripted) (κ := Known)
  obtain ⟨r', hr', hanswered⟩ :=
    -- the request is the one that was accepted, so what is delivered is its answer
    hreads s "FAOUT-01" 4 1 [0xfffe, 0x0001] _ (by decide) rfl rfl rfl hwritten
  obtain rfl : r = r' := Except.ok.inj hr'
  obtain ⟨s', hread, hexchanged⟩ := hanswered [0xa4] sent _ hheader haccepts hdelivers
  exact ⟨by decide, s', hread, hexchanged.answers⟩

end Session

end BoardLink
