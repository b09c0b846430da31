-- The layouts of messages. A payload is read as a message exactly if it is the layout of that
-- message with at most three bytes behind it, and no reading goes past its end. A message to a
-- device can be told from its bytes.
import ZigbeeGateway.Proofs.Payload.ReaderRuns
import ZigbeeGateway.Radio.Message
namespace ZigbeeGateway.Radio

/-! ## Numbers in fields -/

theorem bytes16_inj {x y : UInt16} (h : bytes16 x = bytes16 y) : x = y := by
  rw [← LittleEndian.value_bytes16 x, ← LittleEndian.value_bytes16 y]
  exact congrArg (UInt16.ofNat ∘ LittleEndian.value) h

theorem value_bytes32 (n : UInt32) :
    UInt32.ofNat (LittleEndian.value (LittleEndian.bytes 4 n.toNat)) = n := by
  have hlt : n.toNat < LittleEndian.limit 4 := n.toNat_lt
  rw [LittleEndian.value_bytes, Nat.mod_eq_of_lt hlt, UInt32.ofNat_toNat]

theorem bytes32_value (b₀ b₁ b₂ b₃ : UInt8) :
    LittleEndian.bytes 4 (UInt32.ofNat (LittleEndian.value [b₀, b₁, b₂, b₃])).toNat =
      [b₀, b₁, b₂, b₃] := by
  have hlt : LittleEndian.value [b₀, b₁, b₂, b₃] < LittleEndian.limit 4 := LittleEndian.value_lt _
  rw [UInt32.toNat_ofNat_of_lt' hlt]
  exact LittleEndian.bytes_value [b₀, b₁, b₂, b₃]

/-! ## Fields in front of other bytes -/

section Fields

variable {n : Nat} {bs : Bytes}

theorem exists_byte (h : n + 1 ≤ bs.length) : ∃ b rest, bs = b :: rest ∧ n ≤ rest.length := by
  obtain _ | ⟨b, rest⟩ := bs
  · cases h
  · exact ⟨b, rest, rfl, Nat.le_of_succ_le_succ h⟩

theorem exists_bytes16 (h : n + 2 ≤ bs.length) :
    ∃ x rest, bs = bytes16 x ++ rest ∧ n ≤ rest.length := by
  obtain ⟨low, _, rfl, hlow⟩ := exists_byte h
  obtain ⟨high, rest, rfl, hhigh⟩ := exists_byte hlow
  refine ⟨number16 low high, rest, ?_, hhigh⟩
  rw [bytes16, number16, LittleEndian.bytes_value16]
  rfl

theorem exists_bytes32 (h : n + 4 ≤ bs.length) :
    ∃ (x : UInt32) (rest : Bytes), bs = LittleEndian.bytes 4 x.toNat ++ rest ∧ n ≤ rest.length := by
  obtain ⟨b₀, _, rfl, h₀⟩ := exists_byte h
  obtain ⟨b₁, _, rfl, h₁⟩ := exists_byte h₀
  obtain ⟨b₂, _, rfl, h₂⟩ := exists_byte h₁
  obtain ⟨b₃, rest, rfl, h₃⟩ := exists_byte h₂
  refine ⟨.ofNat (LittleEndian.value [b₀, b₁, b₂, b₃]), rest, ?_, h₃⟩
  rw [bytes32_value]
  rfl

end Fields

namespace IncomingMessage

/-! ## Messages of devices -/

/-- The bytes in front of the data: the fields of a message, with the bytes that stand for its two
flags and the length of the data. -/
def front (m : IncomingMessage) (broadcast secured length : UInt8) : Bytes :=
  bytes16 m.group ++ bytes16 m.cluster ++ bytes16 m.source ++
    [m.sourceEndpoint, m.endpoint, broadcast, m.linkQuality, secured] ++
    LittleEndian.bytes 4 m.timestamp.toNat ++ [m.transaction, length]

theorem length_front (m : IncomingMessage) (broadcast secured length : UInt8) :
    (m.front broadcast secured length).length = headerSize := rfl

/-- What is read behind the front of a payload. -/
theorem decode_front (m : IncomingMessage) (broadcast secured length : UInt8) (rest : Bytes) :
    decode (m.front broadcast secured length ++ rest) =
      if rest.length < length.toNat then
        .error (.tooShort title (headerSize + length.toNat) (rest.length + headerSize))
      else if rest.length - length.toNat > maxTrailing then
        .error (.trailingBytes title (rest.length - length.toNat))
      else .ok { m with
        broadcast := broadcast ≠ 0
        secured := secured ≠ 0
        data := rest.take length.toNat } := by
  have hgroup := LittleEndian.value_bytes16 m.group
  have hcluster := LittleEndian.value_bytes16 m.cluster
  have hsource := LittleEndian.value_bytes16 m.source
  have htime := value_bytes32 m.timestamp
  simp only [LittleEndian.bytes] at hgroup hcluster hsource htime
  simp only [front, bytes16, LittleEndian.bytes, List.cons_append, List.nil_append, decode,
    number16, hgroup, hcluster, hsource, htime]
  rfl

/-- Enough bytes are the front of some message and what stands behind it. -/
theorem exists_front {payload : Bytes} (h : headerSize ≤ payload.length) :
    ∃ (m : IncomingMessage) (broadcast secured length : UInt8) (rest : Bytes),
      payload = m.front broadcast secured length ++ rest := by
  obtain ⟨group, _, rfl, hgroup⟩ := exists_bytes16 h
  obtain ⟨cluster, _, rfl, hcluster⟩ := exists_bytes16 hgroup
  obtain ⟨source, _, rfl, hsource⟩ := exists_bytes16 hcluster
  obtain ⟨sourceEndpoint, _, rfl, hsourceEndpoint⟩ := exists_byte hsource
  obtain ⟨endpoint, _, rfl, hendpoint⟩ := exists_byte hsourceEndpoint
  obtain ⟨broadcast, _, rfl, hbroadcast⟩ := exists_byte hendpoint
  obtain ⟨linkQuality, _, rfl, hlinkQuality⟩ := exists_byte hbroadcast
  obtain ⟨secured, _, rfl, hsecured⟩ := exists_byte hlinkQuality
  obtain ⟨timestamp, _, rfl, htimestamp⟩ := exists_bytes32 hsecured
  obtain ⟨transaction, _, rfl, htransaction⟩ := exists_byte htimestamp
  obtain ⟨length, rest, rfl, -⟩ := exists_byte htransaction
  exact ⟨⟨group, cluster, source, sourceEndpoint, endpoint, broadcast ≠ 0, linkQuality, secured ≠ 0,
    timestamp, transaction, []⟩, broadcast, secured, length, rest, rfl⟩

theorem decode_of_short {payload : Bytes} (h : payload.length < headerSize) :
    decode payload = .error (.tooShort title headerSize payload.length) := by
  unfold decode
  split
  · simp only [List.length_cons, headerSize] at h
    omega
  · rfl

/-- A message lies in a payload that is the front of the message, its data, and at most three bytes
more. A flag is set if its byte is not zero. -/
def LiesIn (m : IncomingMessage) (payload : Bytes) : Prop :=
  ∃ broadcast secured trailing,
    payload = m.front broadcast secured (UInt8.ofNat m.data.length) ++ m.data ++ trailing ∧
      m.broadcast = decide (broadcast ≠ 0) ∧ m.secured = decide (secured ≠ 0) ∧
      m.data.length ≤ 255 ∧ trailing.length ≤ 3

theorem decode_of_liesIn {m : IncomingMessage} {payload : Bytes} (h : m.LiesIn payload) :
    decode payload = .ok m := by
  obtain ⟨broadcast, secured, trailing, rfl, hbroadcast, hsecured, hdata, htrailing⟩ := h
  have hlength : (UInt8.ofNat m.data.length).toNat = m.data.length :=
    UInt8.toNat_ofNat_of_lt' (Nat.lt_succ_of_le hdata)
  have hbehind : (m.data ++ trailing).length - m.data.length ≤ maxTrailing := by
    rwa [List.length_append, Nat.add_sub_cancel_left]
  rw [List.append_assoc, decode_front, hlength, if_neg (by simp), if_neg (Nat.not_lt.mpr hbehind),
    ← hbroadcast, ← hsecured, List.take_left]

theorem liesIn_of_decode {m : IncomingMessage} {payload : Bytes} (h : decode payload = .ok m) :
    m.LiesIn payload := by
  rcases Nat.lt_or_ge payload.length headerSize with hshort | hlong
  · rw [decode_of_short hshort] at h
    cases h
  · obtain ⟨m', broadcast, secured, length, rest, rfl⟩ := exists_front hlong
    rw [decode_front] at h
    split at h
    · cases h
    · rename_i hdata
      split at h
      · cases h
      · rename_i hbehind
        cases h
        have hlength : (rest.take length.toNat).length = length.toNat :=
          List.length_take_of_le (Nat.not_lt.mp hdata)
        refine ⟨broadcast, secured, rest.drop length.toNat, ?_, rfl, rfl, ?_, ?_⟩
        · rw [hlength, UInt8.ofNat_toNat, List.append_assoc, List.take_append_drop]
          rfl
        · rw [hlength]
          exact Nat.le_of_lt_succ length.toNat_lt
        · rw [List.length_drop]
          exact Nat.not_lt.mp hbehind

/-- Whether a payload is a message shows in its length and the byte that tells the length of the
data. -/
theorem decode_isOk_iff {payload : Bytes} :
    (∃ m, decode payload = .ok m) ↔ ∃ length, payload[16]? = some length ∧
      17 + length.toNat ≤ payload.length ∧ payload.length ≤ 20 + length.toNat := by
  constructor
  · rintro ⟨m, hm⟩
    obtain ⟨broadcast, secured, trailing, rfl, -, -, hdata, htrailing⟩ := liesIn_of_decode hm
    have hlength : (UInt8.ofNat m.data.length).toNat = m.data.length :=
      UInt8.toNat_ofNat_of_lt' (Nat.lt_succ_of_le hdata)
    refine ⟨UInt8.ofNat m.data.length, rfl, ?_⟩
    rw [hlength, List.length_append, List.length_append, length_front, headerSize]
    omega
  · rintro ⟨length, hbyte, hlow, hhigh⟩
    have hlong : headerSize ≤ payload.length := Nat.le_trans (Nat.le_add_right _ _) hlow
    obtain ⟨m, broadcast, secured, length', rest, rfl⟩ := exists_front hlong
    obtain rfl : length' = length := Option.some.inj hbyte
    rw [List.length_append, length_front, headerSize] at hlow hhigh
    rw [decode_front, if_neg (by omega), if_neg (by unfold maxTrailing; omega)]
    exact ⟨_, rfl⟩

/-! ## Field by field -/

/-- Reads a message field by field. Taking more bytes than are left is refused. -/
def readFields (size : Nat) : Reader (Except LinkError IncomingMessage) := do
  let group ← Reader.number 2
  let cluster ← Reader.number 2
  let source ← Reader.number 2
  let sourceEndpoint ← Reader.byte
  let endpoint ← Reader.byte
  let broadcast ← Reader.byte
  let linkQuality ← Reader.byte
  let secured ← Reader.byte
  let timestamp ← Reader.number 4
  let transaction ← Reader.byte
  let length ← Reader.byte
  let left ← get
  if left.length < length.toNat then
    return .error (.tooShort title (headerSize + length.toNat) size)
  let data ← Reader.take length.toNat
  if left.length - length.toNat > maxTrailing then
    return .error (.trailingBytes title (left.length - length.toNat))
  return .ok {
    group := .ofNat group
    cluster := .ofNat cluster
    source := .ofNat source
    sourceEndpoint, endpoint
    broadcast := broadcast ≠ 0
    linkQuality
    secured := secured ≠ 0
    timestamp := .ofNat timestamp
    transaction, data }

/-- The message that a payload is, read field by field, if nothing is read that is not there. -/
def decodeByFields (payload : Bytes) : Except ReadError (Except LinkError IncomingMessage) :=
  if payload.length < headerSize then .ok (.error (.tooShort title headerSize payload.length))
  else (readFields payload.length payload).map Prod.fst

theorem readFields_front (size : Nat) (m : IncomingMessage) (broadcast secured length : UInt8)
    (rest : Bytes) :
    (readFields size (m.front broadcast secured length ++ rest)).map Prod.fst =
      .ok (if rest.length < length.toNat then
        .error (.tooShort title (headerSize + length.toNat) size)
      else if rest.length - length.toNat > maxTrailing then
        .error (.trailingBytes title (rest.length - length.toNat))
      else .ok { m with
        broadcast := broadcast ≠ 0
        secured := secured ≠ 0
        data := rest.take length.toNat }) := by
  have hgroup : m.group.toNat < LittleEndian.limit 2 := m.group.toNat_lt
  have hcluster : m.cluster.toNat < LittleEndian.limit 2 := m.cluster.toNat_lt
  have hsource : m.source.toNat < LittleEndian.limit 2 := m.source.toNat_lt
  have htime : m.timestamp.toNat < LittleEndian.limit 4 := m.timestamp.toNat_lt
  unfold readFields front
  simp only [bytes16, List.append_assoc, List.cons_append, List.nil_append]
  rw [Reader.bind_run (Reader.number_run hgroup _), Reader.bind_run (Reader.number_run hcluster _),
    Reader.bind_run (Reader.number_run hsource _), Reader.bind_run (Reader.byte_run _ _),
    Reader.bind_run (Reader.byte_run _ _), Reader.bind_run (Reader.byte_run _ _),
    Reader.bind_run (Reader.byte_run _ _), Reader.bind_run (Reader.byte_run _ _),
    Reader.bind_run (Reader.number_run htime _), Reader.bind_run (Reader.byte_run _ _),
    Reader.bind_run (Reader.byte_run _ _), Reader.bind_run rfl]
  split
  · rfl
  · rename_i hdata
    have hlength : (rest.take length.toNat).length = length.toNat :=
      List.length_take_of_le (Nat.not_lt.mp hdata)
    have htake : Reader.take length.toNat rest =
        .ok (rest.take length.toNat, rest.drop length.toNat) := by
      simpa only [List.take_append_drop] using Reader.take_run hlength (rest.drop length.toNat)
    rw [Reader.bind_run htake]
    split
    · rfl
    · simp only [UInt16.ofNat_toNat, UInt32.ofNat_toNat]
      rfl

/-- No field is read that is not there, and a payload is the same message read field by field. -/
theorem decodeByFields_eq (payload : Bytes) : decodeByFields payload = .ok (decode payload) := by
  unfold decodeByFields
  split
  · rename_i hshort
    rw [decode_of_short hshort]
  · rename_i hlong
    obtain ⟨m, broadcast, secured, length, rest, rfl⟩ := exists_front (Nat.not_lt.mp hlong)
    rw [readFields_front, decode_front, List.length_append, length_front,
      Nat.add_comm headerSize rest.length]

end IncomingMessage

namespace DataRequest

/-! ## Messages to devices -/

theorem encode_eq_ok {r : DataRequest} {bs : Bytes} :
    r.encode = .ok bs ↔ r.data.length ≤ 255 ∧
      bytes16 r.destination ++ [r.endpoint, r.sourceEndpoint] ++ bytes16 r.cluster ++
        [r.transaction, r.options, r.radius, UInt8.ofNat r.data.length] ++ r.data = bs := by
  unfold encode
  split
  · rename_i hsmall
    simp only [hsmall, true_and, Except.ok.injEq]
  · rename_i hlarge
    simp only [hlarge, false_and, reduceCtorEq]

/-- The bytes of a message to a device tell all of its fields. -/
theorem encode_inj {r r' : DataRequest} {bs : Bytes} (h : r.encode = .ok bs)
    (h' : r'.encode = .ok bs) : r = r' := by
  obtain ⟨-, hbs⟩ := encode_eq_ok.mp h
  obtain ⟨-, hbs'⟩ := encode_eq_ok.mp h'
  have hsame := hbs.trans hbs'.symm
  simp only [List.append_assoc, List.cons_append, List.nil_append] at hsame
  obtain ⟨hdestination, hsame⟩ := List.append_inj hsame rfl
  obtain ⟨hendpoint, hsame⟩ := List.cons.inj hsame
  obtain ⟨hsource, hsame⟩ := List.cons.inj hsame
  obtain ⟨hcluster, hsame⟩ := List.append_inj hsame rfl
  obtain ⟨htransaction, hsame⟩ := List.cons.inj hsame
  obtain ⟨hoptions, hsame⟩ := List.cons.inj hsame
  obtain ⟨hradius, hsame⟩ := List.cons.inj hsame
  obtain ⟨-, hdata⟩ := List.cons.inj hsame
  cases r
  cases r'
  rw [mk.injEq]
  exact ⟨bytes16_inj hdestination, hendpoint, hsource, bytes16_inj hcluster, htransaction, hoptions,
    hradius, hdata⟩

end DataRequest

/-! ## The law -/

/-- A payload is a message if it has 17 bytes, the data that the last of them announces, and at most
three bytes more. Reading it, which takes no byte that is not there, gives just the message whose
fields, flags and data lie in it. A message to a device has bytes if its data has at most 255, and
no other message has the same bytes. -/
theorem exactly_the_layouts_of_messages_are_read :
    (∀ payload, (∃ m, IncomingMessage.decode payload = .ok m) ↔ ∃ length,
      payload[16]? = some length ∧ 17 + length.toNat ≤ payload.length ∧
        payload.length ≤ 20 + length.toNat) ∧
      (∀ payload, IncomingMessage.decodeByFields payload = .ok (IncomingMessage.decode payload)) ∧
      (∀ payload m, IncomingMessage.decode payload = .ok m ↔ m.LiesIn payload) ∧
      (∀ r : DataRequest, (∃ bs, r.encode = .ok bs) ↔ r.data.length ≤ 255) ∧
      ∀ (r r' : DataRequest) (bs : Bytes), r.encode = .ok bs → r'.encode = .ok bs → r = r' := by
  refine ⟨fun payload => IncomingMessage.decode_isOk_iff, IncomingMessage.decodeByFields_eq,
    fun payload m => ⟨IncomingMessage.liesIn_of_decode, IncomingMessage.decode_of_liesIn⟩,
    fun r => ?_, fun r r' bs => DataRequest.encode_inj⟩
  simp only [DataRequest.encode_eq_ok, exists_and_left, exists_eq', and_true]

/-- A flag whose byte is not one, and three bytes behind the data. -/
theorem a_message_with_three_bytes_behind_it :
    let payload : Bytes := [0x00, 0x00, 0x06, 0x00, 0x4f, 0x7a, 0x01, 0x01, 0x02, 0x6e, 0x00, 0x10,
      0x20, 0x30, 0x00, 0x05, 0x02, 0xab, 0xcd, 0xaa, 0xaa, 0xaa]
    let m : IncomingMessage :=
      ⟨0, 6, 0x7a4f, 1, 1, true, 0x6e, false, 0x00302010, 5, [0xab, 0xcd]⟩
    let r : DataRequest := ⟨0x7a4f, 1, 1, 6, 9, 0, 30, [0x01, 0x00, 0x02]⟩
    let r' : DataRequest := { r with data := 0x01 :: LittleEndian.bytes 2 0x0200 }
    let bs : Bytes := [0x4f, 0x7a, 0x01, 0x01, 0x06, 0x00, 0x09, 0x00, 0x1e, 0x03, 0x01, 0x00, 0x02]
    m.LiesIn payload ∧ IncomingMessage.decode payload = .ok m ∧
      r.encode = .ok bs ∧ r'.encode = .ok bs ∧ r = r' := by
  intro payload m r r' bs
  have hlies : m.LiesIn payload := ⟨2, 0, [0xaa, 0xaa, 0xaa], by decide, by decide, by decide,
    by decide, by decide⟩
  have hr : r.encode = .ok bs := DataRequest.encode_eq_ok.mpr ⟨by decide, by decide⟩
  have hr' : r'.encode = .ok bs := DataRequest.encode_eq_ok.mpr ⟨by decide, by decide⟩
  obtain ⟨-, -, hdecode, -, hinj⟩ := exactly_the_layouts_of_messages_are_read
  exact ⟨hlies, (hdecode payload m).mpr hlies, hr, hr', hinj r r' bs hr hr'⟩

end ZigbeeGateway.Radio
