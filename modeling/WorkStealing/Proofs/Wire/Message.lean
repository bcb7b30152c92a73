import WorkStealing.Proofs.Wire.MessagePack
import WorkStealing.Wire.Take

/-!
# Messages on the wire

An envelope whose topic and payload have lengths below `2 ^ 32` is read as it was written, with the
point in time that its timestamp spells (`ofBytes?_toBytes`), and so is an answer to a take request
with fewer than `2 ^ 32` tasks (`takeResponse?_of_payload`). The length of a longer payload does not fit its field, and the answer
in it is lost (`takeResponse?_of_oversize`).
-/

namespace WorkStealing

open Wire.MessagePack

/-! ### Words -/

namespace Datum

theorem readNat_nat {n bound : Nat} (h : n ≤ bound) : (Datum.nat n).readNat bound = some n :=
  if_pos h

end Datum

theorem Parts.found_of_list {f : Format} {names : List String} {items : List Datum} {p : Parts}
    (h : Parts.read f names (.list items) = some p) : p.found = names.zip items := by
  rw [Parts.read] at h
  split at h
  next => cases h
  next =>
    cases h
    rfl

@[simp] theorem Location.ofDatum?_toDatum (l : Location) :
    Location.ofDatum? l.toDatum = some l := by
  have hle : l.id.toNat ≤ UInt32.size - 1 := Nat.le_sub_one_of_lt l.id.toNat_lt
  rw [Location.ofDatum?, Location.toDatum, Datum.readWord32, Datum.readNat_nat hle, Option.map_some,
    Option.map_some, UInt32.ofNat_toNat]

@[simp] theorem TaskHandle.ofDatum?_toDatum (t : TaskHandle) :
    TaskHandle.ofDatum? t.toDatum = some t := by
  have hle : t.raw.toNat ≤ UInt64.size - 1 := Nat.le_sub_one_of_lt t.raw.toNat_lt
  rw [TaskHandle.ofDatum?, TaskHandle.toDatum, Datum.readWord64, Datum.readNat_nat hle,
    Option.map_some, Option.map_some, UInt64.ofNat_toNat]

theorem TaskHandle.mapM_ofDatum? (ts : List TaskHandle) :
    (ts.map TaskHandle.toDatum).mapM TaskHandle.ofDatum? = some ts := by
  induction ts with
  | nil => rfl
  | cons t rest ih =>
      rw [List.map_cons, List.mapM_cons, TaskHandle.ofDatum?_toDatum, ih]
      rfl

theorem Location.exact_toDatum (l : Location) : Exact l.toDatum :=
  Nat.lt_trans l.id.toNat_lt (by decide)

theorem TaskHandle.exact_toDatum (ts : List TaskHandle) :
    ExactItems (ts.map TaskHandle.toDatum) ∧ Datum.depthItems (ts.map TaskHandle.toDatum) = 0 := by
  induction ts with
  | nil => exact ⟨trivial, rfl⟩
  | cons t rest ih => exact ⟨⟨t.raw.toNat_lt, ih.1⟩, (Nat.zero_max _).trans ih.2⟩

/-! ### Answers -/

namespace TakeResponse

variable {r : TakeResponse}

theorem ofDatum?_parts (r : TakeResponse) : ofDatum? .messagePack (.list r.parts) = some r := by
  have htasks := TaskHandle.mapM_ofDatum? r.tasks
  simp only [List.mapM_map] at htasks
  -- the parts stand in the order in which they are looked up
  simp [ofDatum?, parts, Parts.read, Parts.required, Parts.defaulted, List.lookup_cons,
    Datum.readList, htasks, Datum.readBool, Format.allowsSurplus]

theorem exact_parts (h : r.tasks.length < 0x100000000) :
    Exact (.list r.parts) ∧ (Datum.list r.parts).depth ≤ depthLimit := by
  obtain ⟨hexact, hdepth⟩ := TaskHandle.exact_toDatum r.tasks
  have hlength : (r.tasks.map TaskHandle.toDatum).length < 0x100000000 := by
    rw [List.length_map]
    exact h
  refine ⟨⟨(by decide : (3 : Nat) < 0x100000000), Location.exact_toDatum _, ⟨hlength, hexact⟩,
    trivial, trivial⟩, ?_⟩
  -- two levels in all: the row of parts and, in it, the row of tasks
  show max 0 (max (Datum.depthItems (r.tasks.map TaskHandle.toDatum) + 1) (max 0 0)) + 1 ≤
    depthLimit
  rw [hdepth]
  decide

/-- An answer is read as it was written. -/
theorem decode_toBytes (h : r.tasks.length < 0x100000000) :
    decode r.toBytes = some (.list r.parts) :=
  decode_encode (exact_parts h).1 (exact_parts h).2

end TakeResponse

/-! ### Envelopes -/

namespace Message

variable {m m' : Message} {r : TakeResponse} {time : Timestamp}

theorem takeResponse?_of_payload (h : r.tasks.length < 0x100000000) (hm : m.payload = r.toBytes) :
    m.takeResponse? = some r := by
  rw [takeResponse?, payloadDatum?, hm, TakeResponse.decode_toBytes h, Option.bind_some,
    TakeResponse.ofDatum?_parts]

theorem ofDatum?_parts (htime : Timestamp.parse? m.timestamp.text = some time) :
    ofDatum? .messagePack (.list m.parts) = some { m with timestamp := time } := by
  have hle : m.version.toNat ≤ UInt16.size - 1 := Nat.le_sub_one_of_lt m.version.toNat_lt
  have hversion : (Datum.nat m.version.toNat).readWord16 = some m.version := by
    rw [Datum.readWord16, Datum.readNat_nat hle, Option.map_some, UInt16.ofNat_toNat]
  simp [ofDatum?, parts, partNames, Parts.read, Parts.required, Parts.defaulted, List.lookup_cons,
    Datum.str, Datum.readText, Datum.readBytes, readTimestamp, htime, readUuid, Format.isBinary,
    Uuid.ofBytes?, m.correlationId.length_eq, hversion, Format.allowsSurplus]

/-- An envelope is read as it was written, if its lengths fit their fields, with the point in time
that its timestamp spells. -/
theorem ofBytes?_toBytes (htopic : m.topic.toUTF8.toList.length < 0x100000000)
    (hpayload : m.payload.length < 0x100000000)
    (htext : m.timestamp.text.toUTF8.toList.length < 0x100000000)
    (htime : Timestamp.parse? m.timestamp.text = some time) :
    ofBytes? m.toBytes = some { m with timestamp := time } := by
  have hexact : Exact (.list m.parts) := by
    refine ⟨(by decide : (6 : Nat) < 0x100000000), ⟨rfl, htopic⟩, Location.exact_toDatum _,
      hpayload, ⟨rfl, htext⟩, ?_, Nat.lt_trans m.version.toNat_lt (by decide), trivial⟩
    -- a correlation id has its 16 bytes by its type
    show m.correlationId.bytes.length < 0x100000000
    rw [m.correlationId.length_eq]
    decide
  have hdepth : (Datum.list m.parts).depth ≤ depthLimit := (by decide : 1 ≤ 1023)
  rw [ofBytes?, toBytes, decode_encode hexact hdepth, Option.bind_some, ofDatum?_parts htime]

/-! ### Payloads that are too long -/

theorem parts_of_ofDatum? {f : Format} {d : Datum} (h : ofDatum? f d = some m) :
    ∃ p, Parts.read f partNames d = some p ∧
      p.required "payload" Datum.readBytes = some m.payload ∧
      p.required "timestamp" readTimestamp = some m.timestamp := by
  -- a message is read only if each of its parts is, in this order
  obtain ⟨p, hp, h⟩ := Option.bind_eq_some_iff.1 h
  obtain ⟨topic, -, h⟩ := Option.bind_eq_some_iff.1 h
  obtain ⟨sender, -, h⟩ := Option.bind_eq_some_iff.1 h
  obtain ⟨payload, hpayload, h⟩ := Option.bind_eq_some_iff.1 h
  obtain ⟨timestamp, htimestamp, h⟩ := Option.bind_eq_some_iff.1 h
  obtain ⟨correlationId, -, h⟩ := Option.bind_eq_some_iff.1 h
  obtain ⟨version, -, h⟩ := Option.bind_eq_some_iff.1 h
  cases h
  exact ⟨p, hp, hpayload, htimestamp⟩

/-- How many bytes of a payload that is too long are read as the payload. -/
def cut (m : Message) : Nat := m.payload.length % 0x100000000

/-- The bytes in which the reader looks for the parts behind a payload that is too long: the rest of
the payload stands in front of them. -/
def spill (m : Message) : List UInt8 :=
  m.payload.drop m.cut ++ encodeItems
    [.str m.timestamp.text, .bytes m.correlationId.bytes, .nat m.version.toNat]

/-- Of an envelope with too long a payload, the topic and the sender are read as they were written,
a beginning of the payload as the payload, and the spill as the other parts. -/
theorem decode_of_oversize (htopic : m.topic.toUTF8.toList.length < 0x100000000)
    (hlong : 0x100000000 ≤ m.payload.length) {d : Datum} (h : decode m.toBytes = some d) :
    ∃ items rest, readMany (decodeWithin 1022) 3 m.spill = some (items, rest) ∧
      d = .list (.str m.topic :: m.sender.toDatum :: .bytes (m.payload.take m.cut) :: items) := by
  obtain ⟨⟨d, rest⟩, hread, rfl⟩ := Option.map_eq_some_iff.1 h
  -- the first three parts are read whatever follows them
  let behind := encodeItems
    [.str m.timestamp.text, .bytes m.correlationId.bytes, .nat m.version.toNat]
  have hpayload : decodeWithin 1022 (encode (.bytes m.payload) ++ behind) =
      some (.bytes (m.payload.take m.cut), m.spill) :=
    decodeWithin_leaf (head_encodeBytes_oversize hlong behind)
  have hsender := decodeWithin_encode m.sender.toDatum 1022 (encode (.bytes m.payload) ++ behind)
    (Location.exact_toDatum _) (Nat.zero_le _)
  have htopic := decodeWithin_encode (.str m.topic) 1022
    (encode m.sender.toDatum ++ (encode (.bytes m.payload) ++ behind)) ⟨rfl, htopic⟩ (Nat.zero_le _)
  have hhead := head_listHead (n := 6) (by decide)
    (encode (.str m.topic) ++ (encode m.sender.toDatum ++ (encode (.bytes m.payload) ++ behind)))
  have hlist : decodeWithin (1022 + 1) _ = _ := decodeWithin_list hhead
  rw [readMany_cons htopic, readMany_cons hsender, readMany_cons hpayload] at hlist
  have hwhole := hlist.symm.trans hread
  simp only [Option.map_map] at hwhole
  obtain ⟨⟨items, r⟩, hitems, heq⟩ := Option.map_eq_some_iff.1 hwhole
  cases heq
  exact ⟨items, _, hitems, rfl⟩

/-- An envelope with too long a payload is not read at all, or with a proper beginning of its
payload. -/
theorem payload_of_oversize (htopic : m.topic.toUTF8.toList.length < 0x100000000)
    (hlong : 0x100000000 ≤ m.payload.length) (h : ofBytes? m.toBytes = some m') :
    ∃ k, k < m.payload.length ∧ m'.payload = m.payload.take k := by
  obtain ⟨d, hd, hm'⟩ := Option.bind_eq_some_iff.1 h
  obtain ⟨items, rest, -, rfl⟩ := decode_of_oversize htopic hlong hd
  -- the reader of messages finds the payload third, as it was read here
  obtain ⟨p, hp, hbytes, -⟩ := parts_of_ofDatum? hm'
  rw [Parts.required, Parts.found_of_list hp] at hbytes
  have hcut : m.cut < m.payload.length := by
    rw [cut]
    omega
  exact ⟨m.cut, hcut, (Option.some.inj hbytes).symm⟩

/-- An envelope with too long a payload is not read at all if its spill begins with anything else
than a point in time. -/
theorem ofBytes?_of_spill (htopic : m.topic.toUTF8.toList.length < 0x100000000)
    (hlong : 0x100000000 ≤ m.payload.length) {d : Datum} {row : List UInt8}
    (hspill : decodeWithin 1022 m.spill = some (d, row)) (hd : readTimestamp d = none) :
    ofBytes? m.toBytes = none := by
  cases hread : ofBytes? m.toBytes with
  | none => rfl
  | some m' =>
      obtain ⟨whole, hwhole, hm'⟩ := Option.bind_eq_some_iff.1 hread
      obtain ⟨items, rest, hitems, rfl⟩ := decode_of_oversize htopic hlong hwhole
      obtain ⟨first, row', others, hfirst, -, rfl⟩ := readMany_succ_eq_some hitems
      cases hspill.symm.trans hfirst
      -- the timestamp is looked for where the spill begins
      obtain ⟨p, hp, -, htime⟩ := parts_of_ofDatum? hm'
      rw [Parts.required, Parts.found_of_list hp] at htime
      cases hd.symm.trans htime

/-- No answer is read from an envelope with too long a payload. -/
theorem takeResponse?_of_oversize (htopic : m.topic.toUTF8.toList.length < 0x100000000)
    (hr : r.tasks.length < 0x100000000) (hm : m.payload = r.toBytes)
    (hlong : 0x100000000 ≤ m.payload.length) (h : ofBytes? m.toBytes = some m') :
    m'.takeResponse? = none := by
  obtain ⟨k, hk, hm'⟩ := payload_of_oversize htopic hlong h
  obtain ⟨hexact, hdepth⟩ := TakeResponse.exact_parts hr
  rw [hm] at hk
  -- what is left of the payload is a proper beginning of a written answer
  rw [takeResponse?, payloadDatum?, hm', hm, TakeResponse.toBytes,
    decode_take_encode hexact hdepth hk, Option.bind_none]

end Message

end WorkStealing
