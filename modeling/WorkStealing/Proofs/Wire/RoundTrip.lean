import WorkStealing.Proofs.Text.Timestamp
import WorkStealing.Proofs.Wire.Message

/-!
# What the wire changes

A message whose lengths fit their fields is read as it was written, also from the older form of the
envelope without a version, but for a leap second that its timestamp cannot spell. Every take
request comes out of a message as it went in, and so does every answer whose bytes are fewer than
`2 ^ 32` (`Message.reads_back`). Both exceptions exist (`Message.reads_back_fails`): an answer that
is too long for its message is lost as a whole (`Message.takeResponse?_of_oversize`).
-/

namespace WorkStealing

open Wire.MessagePack

/-! ### Lengths -/

theorem Text.length_flatMap_utf8EncodeChar_le (cs : List Char) :
    (cs.flatMap String.utf8EncodeChar).length ≤ 4 * cs.length := by
  induction cs with
  | nil => exact Nat.le_refl 0
  | cons c rest ih =>
      have hchar := c.utf8Size_le_four
      rw [List.flatMap_cons, List.length_append, String.length_utf8EncodeChar, List.length_cons]
      omega

/-- A text has at most four bytes for each of its characters. -/
theorem Text.length_toUTF8_le (s : String) : s.toUTF8.toList.length ≤ 4 * s.toList.length := by
  have hbytes : s.toByteArray = (s.toList.flatMap String.utf8EncodeChar).toByteArray :=
    String.utf8Encode_toList.symm
  have hsize : s.toUTF8.toList.length = s.toByteArray.size := by
    rw [Wire.toList_eq]
    rfl
  rw [hsize, hbytes, List.size_toByteArray]
  exact Text.length_flatMap_utf8EncodeChar_le s.toList

theorem Timestamp.length_toUTF8_text {t : Timestamp} (h : t.isValid = true) :
    t.text.toUTF8.toList.length < 0x100000000 := by
  have hbytes := Text.length_toUTF8_le t.text
  have hchars := Timestamp.length_text_le h
  omega

namespace Wire.MessagePack

theorem length_encodeNat_le (n : Nat) : (encodeNat n).length ≤ 9 := by
  rw [encodeNat]
  split
  · exact (by decide : 1 ≤ 9)
  split
  · rw [List.length_cons, length_bigEndian]
    decide
  split
  · rw [List.length_cons, length_bigEndian]
    decide
  split
  · rw [List.length_cons, length_bigEndian]
    decide
  · exact Nat.succ_le_succ (Nat.le_of_eq (length_bigEndian 8 n))

theorem length_listHead_le (n : Nat) : (listHead n).length ≤ 5 := by
  rw [listHead]
  split
  · exact (by decide : 1 ≤ 5)
  split
  · rw [List.length_cons, length_bigEndian]
    decide
  · exact Nat.succ_le_succ (Nat.le_of_eq (length_bigEndian 4 n))

theorem encodeItems_append (items more : List Datum) :
    encodeItems (items ++ more) = encodeItems items ++ encodeItems more := by
  induction items with
  | nil => rfl
  | cons d rest ih => rw [List.cons_append, encodeItems, encodeItems, ih, List.append_assoc]

end Wire.MessagePack

/-! ### Requests -/

namespace TakeRequest

theorem ofDatum?_parts (r : TakeRequest) : ofDatum? .messagePack (.list r.parts) = some r := by
  have hle : r.maxTasks.toNat ≤ UInt32.size - 1 := Nat.le_sub_one_of_lt r.maxTasks.toNat_lt
  have hmax : (Datum.nat r.maxTasks.toNat).readWord32 = some r.maxTasks := by
    rw [Datum.readWord32, Datum.readNat_nat hle, Option.map_some, UInt32.ofNat_toNat]
  simp [ofDatum?, parts, Parts.read, Parts.required, List.lookup_cons, hmax, Format.allowsSurplus]

/-- A request is read as it was written. -/
theorem decode_toBytes (r : TakeRequest) : decode r.toBytes = some (.list r.parts) := by
  have hexact : Exact (.list r.parts) :=
    ⟨(by decide : (2 : Nat) < 0x100000000), Location.exact_toDatum _,
      Nat.lt_trans r.maxTasks.toNat_lt (by decide), trivial⟩
  have hdepth : (Datum.list r.parts).depth ≤ depthLimit := (by decide : 1 ≤ 1023)
  exact decode_encode hexact hdepth

theorem length_toBytes_lt (r : TakeRequest) : r.toBytes.length < 0x100000000 := by
  have hrequester := length_encodeNat_le r.requester.id.toNat
  have hmax := length_encodeNat_le r.maxTasks.toNat
  have hlength : r.toBytes.length =
      1 + ((encodeNat r.requester.id.toNat).length + ((encodeNat r.maxTasks.toNat).length + 0)) := by
    rw [toBytes, encode, List.length_append]
    congr 1
    rw [parts, encodeItems, encodeItems, encodeItems, List.length_append, List.length_append]
    rfl
  omega

end TakeRequest

/-! ### Answers -/

namespace TakeResponse

/-- A row of tasks takes nine bytes for each at most. -/
theorem length_encodeItems_le (ts : List TaskHandle) :
    (encodeItems (ts.map TaskHandle.toDatum)).length ≤ 9 * ts.length := by
  induction ts with
  | nil => exact Nat.le_refl 0
  | cons t rest ih =>
      have hfirst : (encode t.toDatum).length ≤ 9 := length_encodeNat_le _
      rw [List.map_cons, encodeItems, List.length_append, List.length_cons]
      omega

/-- The head of three parts, the responder, the tasks behind their number, and the flag. -/
theorem toBytes_eq (r : TakeResponse) :
    r.toBytes = 0x93 :: (encodeNat r.responder.id.toNat ++ (listHead r.tasks.length ++
      (encodeItems (r.tasks.map TaskHandle.toDatum) ++ encode (.bool r.shuttingDown)))) := by
  rw [toBytes, encode.eq_def (.list _)]
  dsimp only
  rw [parts, encodeItems, encodeItems, encodeItems, encode.eq_def (.list _)]
  dsimp only
  rw [List.length_map, List.append_assoc (listHead _)]
  rfl

theorem length_toBytes (r : TakeResponse) :
    r.toBytes.length = 1 + ((encodeNat r.responder.id.toNat).length +
      ((listHead r.tasks.length).length +
        ((encodeItems (r.tasks.map TaskHandle.toDatum)).length + 1))) := by
  rw [toBytes_eq, List.length_cons, List.length_append, List.length_append, List.length_append,
    Nat.add_comm]
  rfl

theorem length_toBytes_le (r : TakeResponse) : r.toBytes.length ≤ 9 * r.tasks.length + 16 := by
  have hresponder := length_encodeNat_le r.responder.id.toNat
  have hhead := length_listHead_le r.tasks.length
  have htasks := length_encodeItems_le r.tasks
  have hlength := r.length_toBytes
  omega

/-! ### Answers with long handles -/

/-- An answer with so many tasks that take up nine bytes each. -/
def wide (responder : Location) (count : Nat) : TakeResponse :=
  { responder := responder, tasks := List.replicate count ⟨0xffffffffffffffff⟩ }

theorem length_tasks_wide (responder : Location) (count : Nat) :
    (wide responder count).tasks.length = count := List.length_replicate

/-- The tasks of such an answer, which are the same nine bytes again and again. -/
theorem encodeItems_wide (responder : Location) (count : Nat) :
    encodeItems ((wide responder count).tasks.map TaskHandle.toDatum) =
      (List.replicate count (0xcf :: List.replicate 8 (0xff : UInt8))).flatten := by
  rw [wide, List.map_replicate]
  induction count with
  | zero => rfl
  | succ count ih =>
      have hfirst : encode (TaskHandle.toDatum ⟨0xffffffffffffffff⟩) =
          0xcf :: List.replicate 8 0xff := by
        decide
      rw [List.replicate_succ, encodeItems, ih, List.replicate_succ (n := count),
        List.flatten_cons, hfirst]

theorem length_encodeItems_wide (responder : Location) (count : Nat) :
    (encodeItems ((wide responder count).tasks.map TaskHandle.toDatum)).length = 9 * count := by
  have hitem : (0xcf :: List.replicate 8 (0xff : UInt8)).length = 9 := rfl
  rw [encodeItems_wide, List.length_flatten, List.map_replicate, List.sum_replicate_nat, hitem,
    Nat.mul_comm]

/-- A short name, and a number of tasks that takes five bytes to say. -/
theorem length_front_wide {responder : Location} {count : Nat} (hid : responder.id.toNat < 0x80)
    (hcount : 0x10000 ≤ count) :
    (encodeNat responder.id.toNat).length = 1 ∧ (listHead count).length = 5 := by
  rw [encodeNat, if_pos hid, listHead, if_neg (by omega), if_neg (by omega)]
  exact ⟨rfl, congrArg Nat.succ (Wire.length_bigEndian 4 count)⟩

theorem length_toBytes_wide {responder : Location} {count : Nat} (hid : responder.id.toNat < 0x80)
    (hcount : 0x10000 ≤ count) : (wide responder count).toBytes.length = 9 * count + 8 := by
  obtain ⟨hname, hhead⟩ := length_front_wide hid hcount
  have hlength := (wide responder count).length_toBytes
  rw [length_tasks_wide, length_encodeItems_wide, hhead] at hlength
  change _ = 1 + ((encodeNat responder.id.toNat).length + _) at hlength
  omega

/-- Thirteen bytes take up the front, the marker of the first task and five of its eight bytes. -/
theorem drop_toBytes_wide {responder : Location} {count : Nat} (hid : responder.id.toNat < 0x80)
    (hcount : 0x10000 ≤ count) : ∃ row, (wide responder count).toBytes.drop 13 = 0xff :: row := by
  obtain ⟨hname, hhead⟩ := length_front_wide hid hcount
  have hcount' : (wide responder count).tasks.length = count := length_tasks_wide responder count
  have hitems := encodeItems_wide responder count
  obtain ⟨rest, hrest⟩ : ∃ rest, count = rest + 1 := ⟨count - 1, by omega⟩
  rw [hrest, List.replicate_succ, List.flatten_cons, ← hrest] at hitems
  -- the bytes are split behind the thirteenth
  have hsplit : (wide responder count).toBytes =
      (0x93 :: (encodeNat responder.id.toNat ++ (listHead count ++
        (0xcf :: List.replicate 5 0xff)))) ++
      (0xff :: (List.replicate 2 0xff ++
        ((List.replicate rest (0xcf :: List.replicate 8 (0xff : UInt8))).flatten ++
          encode (.bool false)))) := by
    rw [toBytes_eq, hcount', hitems]
    simp only [List.cons_append, List.append_assoc]
    rfl
  have hfront : (0x93 :: (encodeNat responder.id.toNat ++ (listHead count ++
      (0xcf :: List.replicate 5 0xff)))).length = 13 := by
    simp only [List.length_cons, List.length_append, hname, hhead, List.length_replicate]
  rw [hsplit]
  exact ⟨_, List.drop_left' hfront⟩

end TakeResponse

/-! ### Envelopes -/

namespace Message

variable {m : Message}

theorem takeRequest?_of_payload {r : TakeRequest} (hm : m.payload = r.toBytes) :
    m.takeRequest? = some r := by
  rw [takeRequest?, payloadDatum?, hm, TakeRequest.decode_toBytes, Option.bind_some,
    TakeRequest.ofDatum?_parts]

/-- The length of a topic and of a payload fit their fields, and the timestamp is one that there can
be, with a leap second anywhere. Whether the timestamp can be written down is not asked for: that is
`Timestamp.isWritable`. -/
structure Sendable (m : Message) : Prop where
  topic_length : m.topic.toUTF8.toList.length < 0x100000000
  payload_length : m.payload.length < 0x100000000
  timestamp_isValid : m.timestamp.isValid = true

/-- The message with the point in time that its timestamp spells. -/
def written (m : Message) : Message := { m with timestamp := m.timestamp.written }

/-- Writing a message down changes nothing exactly if it changes nothing about its timestamp. -/
theorem written_eq_self_iff : m.written = m ↔ m.timestamp.isWritable = true := by
  rw [← Timestamp.written_eq_self_iff]
  constructor
  · intro hsame
    exact congrArg Message.timestamp hsame
  · intro hsame
    rw [written, hsame]

namespace Sendable

/-- A sendable message stays one with another payload that fits. -/
theorem withPayload (h : m.Sendable) {payload : List UInt8}
    (hpayload : payload.length < 0x100000000) : { m with payload := payload }.Sendable where
  topic_length := h.topic_length
  payload_length := hpayload
  timestamp_isValid := h.timestamp_isValid

/-- A sendable message is read as it was written down. -/
theorem ofBytes?_toBytes (h : m.Sendable) : ofBytes? m.toBytes = some m.written :=
  Message.ofBytes?_toBytes h.topic_length h.payload_length
    (Timestamp.length_toUTF8_text h.timestamp_isValid) (Timestamp.parse?_text h.timestamp_isValid)

/-- An answer comes out of a message that can hold it, and out of no other. -/
theorem takeResponse?_iff (h : m.Sendable) {r : TakeResponse} (hr : r.tasks.length < 0x100000000) :
    (ofBytes? { m with payload := r.toBytes }.toBytes).bind takeResponse? = some r ↔
      r.toBytes.length < 0x100000000 := by
  constructor
  · intro hread
    apply Nat.lt_of_not_le
    intro hlong
    obtain ⟨m', hm', hresponse⟩ := Option.bind_eq_some_iff.1 hread
    rw [takeResponse?_of_oversize (m := { m with payload := r.toBytes }) h.topic_length hr rfl
      hlong hm'] at hresponse
    cases hresponse
  · intro hbytes
    rw [(h.withPayload hbytes).ofBytes?_toBytes, Option.bind_some]
    exact takeResponse?_of_payload hr rfl

end Sendable

/-! ### Envelopes without a version -/

theorem parts_eq_append (m : Message) : m.parts = m.parts.dropLast ++ [.nat m.version.toNat] := rfl

/-- The version stands last, behind the parts that an older envelope has too. -/
theorem toBytes_eq (m : Message) :
    m.toBytes = 0x96 :: (encodeItems m.parts.dropLast ++ encodeNat m.version.toNat) := by
  have hitems : encodeItems m.parts = encodeItems m.parts.dropLast ++ encodeNat m.version.toNat :=
    calc encodeItems m.parts
      _ = encodeItems (m.parts.dropLast ++ [.nat m.version.toNat]) := by rw [← parts_eq_append]
      _ = encodeItems m.parts.dropLast ++ (encodeNat m.version.toNat ++ []) :=
          encodeItems_append _ _
      _ = encodeItems m.parts.dropLast ++ encodeNat m.version.toNat := by rw [List.append_nil]
  rw [toBytes, encode, hitems]
  rfl

theorem encode_dropLast (m : Message) :
    encode (.list m.parts.dropLast) = 0x95 :: encodeItems m.parts.dropLast := by
  rw [encode]
  rfl

theorem ofDatum?_dropLast {time : Timestamp}
    (htime : Timestamp.parse? m.timestamp.text = some time) :
    ofDatum? .messagePack (.list m.parts.dropLast) =
      some { m with timestamp := time, version := 1 } := by
  simp [ofDatum?, parts, partNames, Parts.read, Parts.required, Parts.defaulted, List.lookup_cons,
    Datum.str, Datum.readText, Datum.readBytes, readTimestamp, htime, readUuid, Format.isBinary,
    Uuid.ofBytes?, m.correlationId.length_eq, Format.allowsSurplus]

/-- A sendable message is read with version 1 when the version is left out of its bytes and their
first says so. -/
theorem Sendable.ofBytes?_unversioned (h : m.Sendable) :
    ofBytes? (0x95 :: encodeItems m.parts.dropLast) = some { m.written with version := 1 } := by
  have hexact : Exact (.list m.parts.dropLast) := by
    refine ⟨(by decide : (5 : Nat) < 0x100000000), ⟨rfl, h.topic_length⟩,
      Location.exact_toDatum _, h.payload_length,
      ⟨rfl, Timestamp.length_toUTF8_text h.timestamp_isValid⟩, ?_, trivial⟩
    show m.correlationId.bytes.length < 0x100000000
    rw [m.correlationId.length_eq]
    decide
  have hdepth : (Datum.list m.parts.dropLast).depth ≤ depthLimit := (by decide : 1 ≤ 1023)
  rw [ofBytes?, ← encode_dropLast, decode_encode hexact hdepth, Option.bind_some,
    ofDatum?_dropLast (Timestamp.parse?_text h.timestamp_isValid)]
  rfl

/-- The older envelope brings back all but the version exactly if the timestamp can be written. -/
theorem unversioned_eq_iff (m : Message) :
    ({ m.written with version := 1 } : Message) = { m with version := 1 } ↔
      m.timestamp.isWritable = true :=
  written_eq_self_iff (m := { m with version := 1 })

/-! ### What comes back -/

/-- From its bytes a sendable message comes back as it was written down, and so it does with version
1 from the bytes of the older envelope without the version: unchanged exactly if its timestamp is in
no leap second before the last second of a minute. A take request comes out of any such message as
it was put in. So does an answer with fewer than `2 ^ 32` tasks out of its payload, and out of the
bytes of the message exactly if the payload has fewer than `2 ^ 32` bytes. -/
theorem reads_back (m : Message) (h : m.Sendable) :
    ofBytes? m.toBytes = some m.written ∧
      (ofBytes? m.toBytes = some m ↔ m.timestamp.isWritable = true) ∧
      (∃ body, m.toBytes = 0x96 :: (body ++ encodeNat m.version.toNat) ∧
        ofBytes? (0x95 :: body) = some { m.written with version := 1 } ∧
        (ofBytes? (0x95 :: body) = some { m with version := 1 } ↔
          m.timestamp.isWritable = true)) ∧
      (∀ r : TakeRequest,
        (ofBytes? { m with payload := r.toBytes }.toBytes).bind takeRequest? = some r) ∧
      ∀ r : TakeResponse, r.tasks.length < 0x100000000 →
        { m with payload := r.toBytes }.takeResponse? = some r ∧
          ((ofBytes? { m with payload := r.toBytes }.toBytes).bind takeResponse? = some r ↔
            r.toBytes.length < 0x100000000) := by
  refine ⟨h.ofBytes?_toBytes, ?_, ⟨encodeItems m.parts.dropLast, toBytes_eq m,
    h.ofBytes?_unversioned, ?_⟩, ?_, ?_⟩
  · rw [h.ofBytes?_toBytes, Option.some_inj, written_eq_self_iff]
  · rw [h.ofBytes?_unversioned, Option.some_inj, unversioned_eq_iff]
  · intro r
    rw [(h.withPayload r.length_toBytes_lt).ofBytes?_toBytes, Option.bind_some,
      takeRequest?_of_payload rfl]
  · intro r hr
    exact ⟨takeResponse?_of_payload (m := { m with payload := r.toBytes }) hr rfl,
      h.takeResponse?_iff hr⟩

/-- A message sent half a second into a leap second of a year of five digits. -/
def atLeapSecond : Message where
  topic := TakeResponse.topic
  sender := { id := 7 }
  payload := [0xc0]
  timestamp := {
    date := { year := 12345, month := 6, day := 30 }
    second := 86399
    nanos := 1500000000 }
  correlationId := Uuid.nil
  version := 65535

theorem sendable_atLeapSecond : atLeapSecond.Sendable :=
  ⟨Nat.lt_of_le_of_lt (Text.length_toUTF8_le _) (by decide), by decide, by decide⟩

/-- The sign of its year and its second 60 are read back too, and so is an answer put into it. -/
theorem reads_back_atLeapSecond :
    let r : TakeResponse := { responder := { id := 7 }, tasks := [⟨5⟩, ⟨300⟩], shuttingDown := true }
    atLeapSecond.Sendable ∧ atLeapSecond.timestamp.text = "+12345-06-30T23:59:60.500Z" ∧
      ofBytes? atLeapSecond.toBytes = some atLeapSecond ∧ r.tasks.length < 0x100000000 ∧
      (ofBytes? { atLeapSecond with payload := r.toBytes }.toBytes).bind takeResponse? = some r := by
  intro r
  obtain ⟨-, hsame, -, -, hresponse⟩ := reads_back atLeapSecond sendable_atLeapSecond
  have htasks : r.tasks.length < 0x100000000 := by decide
  have hbytes : r.toBytes.length < 0x100000000 := by decide
  exact ⟨sendable_atLeapSecond, by decide, hsame.2 (by decide), htasks,
    (hresponse r htasks).2.2 hbytes⟩

/-- The same message half a minute earlier. -/
def beforeLeapSecond : Message :=
  { atLeapSecond with timestamp := { atLeapSecond.timestamp with second := 86369 } }

theorem sendable_beforeLeapSecond : beforeLeapSecond.Sendable :=
  ⟨sendable_atLeapSecond.topic_length, by decide, by decide⟩

/-- Not every message comes back unchanged: a leap second half a minute before the last second of a
minute does not. And an answer of `2 ^ 30` tasks does not come out of any message that it is sent
in. -/
theorem reads_back_fails :
    (beforeLeapSecond.Sendable ∧
        beforeLeapSecond.timestamp.text = "+12345-06-30T23:59:30.500Z" ∧
        ofBytes? beforeLeapSecond.toBytes ≠ some beforeLeapSecond) ∧
      (TakeResponse.wide ⟨7⟩ 0x40000000).tasks.length < 0x100000000 ∧
      (ofBytes? { atLeapSecond with
        payload := (TakeResponse.wide ⟨7⟩ 0x40000000).toBytes }.toBytes).bind takeResponse? ≠
          some (.wide ⟨7⟩ 0x40000000) := by
  refine ⟨⟨sendable_beforeLeapSecond, by decide, ?_⟩, ?_, ?_⟩
  · rw [sendable_beforeLeapSecond.ofBytes?_toBytes, ne_eq, Option.some_inj, written_eq_self_iff]
    decide
  · rw [TakeResponse.length_tasks_wide]
    decide
  · have hcount := TakeResponse.length_tasks_wide ⟨7⟩ 0x40000000
    have htasks := TakeResponse.length_encodeItems_wide ⟨7⟩ 0x40000000
    have hlength := (TakeResponse.wide ⟨7⟩ 0x40000000).length_toBytes
    have hfits : (TakeResponse.wide ⟨7⟩ 0x40000000).tasks.length < 0x100000000 := by omega
    rw [ne_eq, sendable_atLeapSecond.takeResponse?_iff hfits]
    omega

end Message

end WorkStealing
