import WorkStealing.Wire.MessagePack

/-!
# Reading what was written

The reader inverts the writer on all data that messages are made of (`decodeWithin_encode`), with
any bytes behind them. What it has once read it reads again when more bytes follow
(`steady_decodeWithin`), so that no written datum can be read from a proper beginning of its bytes
(`decode_take_encode`).
-/

namespace WorkStealing.Wire

/-! ### Texts as bytes -/

theorem toList_loop (bs : ByteArray) (i : Nat) (r : List UInt8) :
    ByteArray.toList.loop bs i r = r.reverse ++ bs.data.toList.drop i := by
  -- induction on what is left to read; `r` holds what was read so far, last byte first
  induction h : bs.size - i generalizing i r with
  | zero =>
      have hle : bs.data.toList.length ≤ i := by
        show bs.size ≤ i
        omega
      rw [ByteArray.toList.loop, if_neg (by omega), List.drop_eq_nil_of_le hle, List.append_nil]
  | succ n ih =>
      have hlt : i < bs.size := by omega
      have hget : bs.get! i = bs.data.toList.get ⟨i, hlt⟩ := getElem!_pos bs.data i hlt
      rw [ByteArray.toList.loop, if_pos hlt, ih (i + 1) _ (by omega), List.reverse_cons, hget,
        List.append_assoc, List.singleton_append]
      exact congrArg (r.reverse ++ ·) (List.drop_eq_getElem_cons hlt).symm

theorem toList_eq (bs : ByteArray) : bs.toList = bs.data.toList := toList_loop bs 0 []

/-- The bytes of a text spell that text. -/
theorem textOfBytes?_toUTF8 (s : String) : Datum.textOfBytes? s.toUTF8.toList = some s := by
  have hbytes : (⟨s.toUTF8.toList.toArray⟩ : ByteArray) = s.toByteArray := by
    rw [toList_eq, Array.toArray_toList]
    rfl
  rw [Datum.textOfBytes?, String.fromUTF8?, hbytes, dif_pos s.isValidUTF8]
  rfl

namespace MessagePack

variable {n w depth : Nat} {bs rest more : List UInt8} {d : Datum}

/-! ### Rows of bytes -/

theorem takeBytes_append (bs rest : List UInt8) :
    takeBytes bs.length (bs ++ rest) = some (bs, rest) := by
  rw [takeBytes, List.take_left, List.drop_left]
  exact if_pos rfl

/-- A number too large for its width comes back without the part that does not fit. -/
theorem takeNat_bigEndian_mod (w n : Nat) (rest : List UInt8) :
    takeNat w (bigEndian w n ++ rest) = some (n % Nat.pow 256 w, rest) := by
  have hrow := takeBytes_append (bigEndian w n) rest
  rw [length_bigEndian] at hrow
  rw [takeNat, hrow, Option.map_some, ofBigEndian_bigEndian]

theorem takeNat_bigEndian (h : n < Nat.pow 256 w) (rest : List UInt8) :
    takeNat w (bigEndian w n ++ rest) = some (n, rest) := by
  rw [takeNat_bigEndian_mod, Nat.mod_eq_of_lt h]

theorem leafOfNat_bigEndian (make : Nat → Datum) (h : n < Nat.pow 256 w)
    (rest : List UInt8) :
    leafOfNat w make (bigEndian w n ++ rest) = some (.leaf (make n), rest) := by
  rw [leafOfNat, takeNat_bigEndian h, Option.map_some]

theorem leafOfBytes_append (make : List UInt8 → Datum) (bs rest : List UInt8) :
    leafOfBytes make bs.length (bs ++ rest) = some (.leaf (make bs), rest) := by
  rw [leafOfBytes, takeBytes_append, Option.map_some]

theorem leafOfSized_bigEndian (make : List UInt8 → Datum) (h : bs.length < Nat.pow 256 w)
    (rest : List UInt8) :
    leafOfSized w make (bigEndian w bs.length ++ (bs ++ rest)) =
      some (.leaf (make bs), rest) := by
  rw [leafOfSized, takeNat_bigEndian h, Option.bind_some, leafOfBytes_append]

theorem toNat_ofNat (h : n < 0x100) : (UInt8.ofNat n).toNat = n := by
  rw [UInt8.toNat_ofNat']
  exact Nat.mod_eq_of_lt h

/-! ### Heads -/

/-- Each written number is read back, in whichever of the five forms it was written. -/
theorem head_encodeNat (h : n < 0x10000000000000000) (rest : List UInt8) :
    head (encodeNat n ++ rest) = some (.leaf (.nat n), rest) := by
  rw [encodeNat]
  -- the writer takes the shortest form that holds `n`: one case per form
  by_cases h7 : n < 0x80
  · rw [if_pos h7, List.singleton_append, head, toNat_ofNat (by omega), if_pos h7]
  rw [if_neg h7]
  by_cases h8 : n < 0x100
  · rw [if_pos h8]
    exact leafOfNat_bigEndian (w := 1) .nat h8 rest
  rw [if_neg h8]
  by_cases h16 : n < 0x10000
  · rw [if_pos h16]
    exact leafOfNat_bigEndian (w := 2) .nat h16 rest
  rw [if_neg h16]
  by_cases h32 : n < 0x100000000
  · rw [if_pos h32]
    exact leafOfNat_bigEndian (w := 4) .nat h32 rest
  rw [if_neg h32]
  exact leafOfNat_bigEndian (w := 8) .nat h rest

theorem head_encodeText (h : bs.length < 0x100000000) (rest : List UInt8) :
    head (encodeText bs ++ rest) = some (.leaf (textDatum bs), rest) := by
  rw [encodeText, List.append_assoc]
  by_cases h5 : bs.length < 32
  · -- the tag itself carries a length below 32
    have hbyte := toNat_ofNat (n := 0xa0 + bs.length) (by omega)
    rw [if_pos h5, List.singleton_append, head, hbyte, if_neg (by omega), if_neg (by omega),
      if_neg (by omega), if_pos (by omega), Nat.add_sub_cancel_left]
    exact leafOfBytes_append textDatum bs rest
  rw [if_neg h5]
  by_cases h8 : bs.length < 0x100
  · rw [if_pos h8]
    exact leafOfSized_bigEndian (w := 1) textDatum h8 rest
  rw [if_neg h8]
  by_cases h16 : bs.length < 0x10000
  · rw [if_pos h16]
    exact leafOfSized_bigEndian (w := 2) textDatum h16 rest
  rw [if_neg h16]
  exact leafOfSized_bigEndian (w := 4) textDatum h rest

theorem head_encodeBytes (h : bs.length < 0x100000000) (rest : List UInt8) :
    head (encodeBytes bs ++ rest) = some (.leaf (.bytes bs), rest) := by
  rw [encodeBytes, List.append_assoc]
  by_cases h8 : bs.length < 0x100
  · rw [if_pos h8]
    exact leafOfSized_bigEndian (w := 1) .bytes h8 rest
  rw [if_neg h8]
  by_cases h16 : bs.length < 0x10000
  · rw [if_pos h16]
    exact leafOfSized_bigEndian (w := 2) .bytes h16 rest
  rw [if_neg h16]
  exact leafOfSized_bigEndian (w := 4) .bytes h rest

/-- Of bytes whose number does not fit the widest form, only so many are read as the part of the
number that fits says. The others are left in front of what follows. -/
theorem head_encodeBytes_oversize (h : 0x100000000 ≤ bs.length) (rest : List UInt8) :
    head (encodeBytes bs ++ rest) =
      some (.leaf (.bytes (bs.take (bs.length % 0x100000000))),
        bs.drop (bs.length % 0x100000000) ++ rest) := by
  have hk : bs.length % 0x100000000 ≤ bs.length := Nat.mod_le _ _
  have htaken := leafOfBytes_append .bytes (bs.take (bs.length % 0x100000000))
    (bs.drop (bs.length % 0x100000000) ++ rest)
  rw [List.length_take, Nat.min_eq_left hk, ← List.append_assoc, List.take_append_drop] at htaken
  rw [encodeBytes, List.append_assoc, if_neg (by omega), if_neg (by omega)]
  -- the length field keeps a remainder, and the reader trusts it
  show leafOfSized 4 .bytes (bigEndian 4 bs.length ++ (bs ++ rest)) = _
  rw [leafOfSized, takeNat_bigEndian_mod, Option.bind_some]
  exact htaken

theorem head_listHead (h : n < 0x100000000) (rest : List UInt8) :
    head (listHead n ++ rest) = some (.list n, rest) := by
  rw [listHead]
  by_cases h4 : n < 16
  · -- a short row has its length in the tag, as a short text has
    have hbyte := toNat_ofNat (n := 0x90 + n) (by omega)
    rw [if_pos h4, List.singleton_append, head, hbyte, if_neg (by omega), if_neg (by omega),
      if_pos (by omega), Nat.add_sub_cancel_left]
  rw [if_neg h4]
  by_cases h16 : n < 0x10000
  · rw [if_pos h16]
    exact congrArg (Option.map fun r => (Head.list r.1, r.2)) (takeNat_bigEndian (w := 2) h16 rest)
  rw [if_neg h16]
  exact congrArg (Option.map fun r => (Head.list r.1, r.2)) (takeNat_bigEndian (w := 4) h rest)

theorem head_tableHead (h : n < 0x100000000) (rest : List UInt8) :
    head (tableHead n ++ rest) = some (.table n, rest) := by
  rw [tableHead]
  by_cases h4 : n < 16
  · have hbyte := toNat_ofNat (n := 0x80 + n) (by omega)
    rw [if_pos h4, List.singleton_append, head, hbyte, if_neg (by omega), if_pos (by omega),
      Nat.add_sub_cancel_left]
  rw [if_neg h4]
  by_cases h16 : n < 0x10000
  · rw [if_pos h16]
    exact congrArg (Option.map fun r => (Head.table r.1, r.2)) (takeNat_bigEndian (w := 2) h16 rest)
  rw [if_neg h16]
  exact congrArg (Option.map fun r => (Head.table r.1, r.2)) (takeNat_bigEndian (w := 4) h rest)

/-! ### The reader by heads -/

theorem decodeWithin_leaf (h : head bs = some (.leaf d, rest)) :
    decodeWithin depth bs = some (d, rest) := by
  unfold decodeWithin
  rw [h]

theorem decodeWithin_list (h : head bs = some (.list n, rest)) :
    decodeWithin (depth + 1) bs =
      (readMany (decodeWithin depth) n rest).map fun r => (.list r.1, r.2) := by
  unfold decodeWithin
  rw [h]

theorem decodeWithin_table (h : head bs = some (.table n, rest)) :
    decodeWithin (depth + 1) bs =
      (readMany (readPair (decodeWithin depth)) n rest).map fun r => (.table r.1, r.2) := by
  unfold decodeWithin
  rw [h]

/-- A datum is read by its head: as a leaf, or by its parts one level further down. -/
theorem decodeWithin_cases (h : decodeWithin depth bs = some (d, rest)) :
    head bs = some (.leaf d, rest) ∨
      (∃ inner n items row, depth = inner + 1 ∧ d = .list items ∧ head bs = some (.list n, row) ∧
        readMany (decodeWithin inner) n row = some (items, rest)) ∨
      ∃ inner n entries row, depth = inner + 1 ∧ d = .table entries ∧
        head bs = some (.table n, row) ∧
        readMany (readPair (decodeWithin inner)) n row = some (entries, rest) := by
  unfold decodeWithin at h
  -- one case per kind of head; lists and tables need a level below this one
  split at h
  next => cases h
  next hhead =>
    cases h
    exact .inl hhead
  next => cases h
  next n row inner hhead =>
    obtain ⟨⟨items, r⟩, hmany, hr⟩ := Option.map_eq_some_iff.1 h
    cases hr
    exact .inr (.inl ⟨inner, n, items, row, rfl, rfl, hhead, hmany⟩)
  next n row inner hhead =>
    obtain ⟨⟨entries, r⟩, hmany, hr⟩ := Option.map_eq_some_iff.1 h
    cases hr
    exact .inr (.inr ⟨inner, n, entries, row, rfl, rfl, hhead, hmany⟩)

theorem readMany_cons {α : Type} {read : List UInt8 → Option (α × List UInt8)} {a : α}
    (h : read bs = some (a, rest)) (n : Nat) :
    readMany read (n + 1) bs = (readMany read n rest).map fun r => (a :: r.1, r.2) := by
  rw [readMany, h]

theorem readMany_succ_eq_some {α : Type} {read : List UInt8 → Option (α × List UInt8)}
    {as : List α} (h : readMany read (n + 1) bs = some (as, rest)) :
    ∃ a row as', read bs = some (a, row) ∧ readMany read n row = some (as', rest) ∧
      as = a :: as' := by
  rw [readMany] at h
  -- if the first part is not read, neither is the row
  cases hread : read bs with
  | none =>
      rw [hread] at h
      cases h
  | some r =>
      rw [hread] at h
      obtain ⟨⟨as', r'⟩, hmany, hr⟩ := Option.map_eq_some_iff.1 h
      cases hr
      exact ⟨r.1, r.2, as', rfl, hmany, rfl⟩

theorem readPair_eq {read : List UInt8 → Option (Datum × List UInt8)} {key : Datum}
    {row : List UInt8} (hkey : read bs = some (key, row)) (hvalue : read row = some (d, rest)) :
    readPair read bs = some ((key, d), rest) := by
  rw [readPair, hkey]
  exact congrArg (Option.map fun r => ((key, r.1), r.2)) hvalue

theorem readPair_eq_some {read : List UInt8 → Option (Datum × List UInt8)} {entry : Datum × Datum}
    (h : readPair read bs = some (entry, rest)) :
    ∃ row, read bs = some (entry.1, row) ∧ read row = some (entry.2, rest) := by
  rw [readPair] at h
  cases hread : read bs with
  | none =>
      rw [hread] at h
      cases h
  | some r =>
      rw [hread] at h
      obtain ⟨r', hvalue, hr⟩ := Option.map_eq_some_iff.1 h
      cases hr
      exact ⟨r.2, rfl, hvalue⟩

/-! ### The reader inverts the writer -/

mutual

/-- Data that are read as they were written: texts without escapes, numbers without a sign, and
lengths that fit the widest form. -/
def Exact : Datum → Prop
  | .null | .bool _ | .float _ => True
  | .nat n => n < 0x10000000000000000
  | .text s plain => plain = true ∧ s.toUTF8.toList.length < 0x100000000
  | .bytes bs => bs.length < 0x100000000
  | .list items => items.length < 0x100000000 ∧ ExactItems items
  | .table entries => entries.length < 0x100000000 ∧ ExactEntries entries
  | .int _ | .rawText _ | .unreadable => False

def ExactItems : List Datum → Prop
  | [] => True
  | d :: rest => Exact d ∧ ExactItems rest

def ExactEntries : List (Datum × Datum) → Prop
  | [] => True
  | (key, d) :: rest => Exact key ∧ Exact d ∧ ExactEntries rest

end

mutual

/-- The reader gives back each datum that was written, and the bytes behind it. -/
theorem decodeWithin_encode : ∀ (d : Datum) (depth : Nat) (rest : List UInt8), Exact d →
    d.depth ≤ depth → decodeWithin depth (encode d ++ rest) = some (d, rest)
  | .null, _, _, _, _ => decodeWithin_leaf rfl
  | .bool false, _, _, _, _ => decodeWithin_leaf rfl
  | .bool true, _, _, _, _ => decodeWithin_leaf rfl
  | .nat _, _, rest, h, _ => decodeWithin_leaf (head_encodeNat h rest)
  | .float bits, _, rest, _, _ => by
      -- the eight bytes of a double are those of the number with its bits
      have hread :=
        leafOfNat_bigEndian (w := 8) (fun n => .float (UInt64.ofNat n)) bits.toNat_lt rest
      rw [UInt64.ofNat_toNat] at hread
      exact decodeWithin_leaf hread
  | .text s _, _, rest, h, _ => by
      have hread := head_encodeText h.2 rest
      rw [textDatum, textOfBytes?_toUTF8] at hread
      rw [h.1]
      exact decodeWithin_leaf hread
  | .bytes _, _, rest, h, _ => decodeWithin_leaf (head_encodeBytes h rest)
  | .list _, 0, _, _, hdepth => absurd hdepth (Nat.not_succ_le_zero _)
  | .list items, depth + 1, rest, h, hdepth => by
      -- the head says how many parts follow, each one level further down
      have hitems := readMany_encodeItems items depth rest h.2 (Nat.le_of_succ_le_succ hdepth)
      rw [encode, List.append_assoc, decodeWithin_list (head_listHead h.1 _), hitems,
        Option.map_some]
  | .table _, 0, _, _, hdepth => absurd hdepth (Nat.not_succ_le_zero _)
  | .table entries, depth + 1, rest, h, hdepth => by
      have hentries := readMany_encodeEntries entries depth rest h.2 (Nat.le_of_succ_le_succ hdepth)
      rw [encode, List.append_assoc, decodeWithin_table (head_tableHead h.1 _), hentries,
        Option.map_some]

theorem readMany_encodeItems : ∀ (items : List Datum) (depth : Nat) (rest : List UInt8),
    ExactItems items → Datum.depthItems items ≤ depth →
    readMany (decodeWithin depth) items.length (encodeItems items ++ rest) = some (items, rest)
  | [], _, _, _, _ => rfl
  | d :: items, depth, rest, h, hdepth => by
      obtain ⟨hd, hitems⟩ := Nat.max_le.1 hdepth
      -- what stands behind the first item is the rest of the row
      have hfirst := decodeWithin_encode d depth (encodeItems items ++ rest) h.1 hd
      have hrest := readMany_encodeItems items depth rest h.2 hitems
      rw [encodeItems, List.append_assoc, List.length_cons, readMany_cons hfirst, hrest,
        Option.map_some]

theorem readMany_encodeEntries : ∀ (entries : List (Datum × Datum)) (depth : Nat)
    (rest : List UInt8), ExactEntries entries → Datum.depthEntries entries ≤ depth →
    readMany (readPair (decodeWithin depth)) entries.length (encodeEntries entries ++ rest) =
      some (entries, rest)
  | [], _, _, _, _ => rfl
  | (key, d) :: entries, depth, rest, h, hdepth => by
      obtain ⟨hpair, hentries⟩ := Nat.max_le.1 hdepth
      obtain ⟨hkey, hd⟩ := Nat.max_le.1 hpair
      -- a key is read with its value still behind it, a value with the later entries
      have hfirst :=
        decodeWithin_encode key depth (encode d ++ (encodeEntries entries ++ rest)) h.1 hkey
      have hsecond := decodeWithin_encode d depth (encodeEntries entries ++ rest) h.2.1 hd
      have hrest := readMany_encodeEntries entries depth rest h.2.2 hentries
      rw [encodeEntries, List.append_assoc, List.append_assoc, List.length_cons,
        readMany_cons (readPair_eq hfirst hsecond), hrest, Option.map_some]

end

theorem decode_encode (h : Exact d) (hdepth : d.depth ≤ depthLimit) :
    decode (encode d) = some d := by
  have hread := decodeWithin_encode d depthLimit [] h hdepth
  rw [List.append_nil] at hread
  rw [decode, hread, Option.map_some]

/-! ### What has been read stays read -/

/-- A reader that gives the same answer when more bytes follow. -/
structure Steady {α : Type} (read : List UInt8 → Option (α × List UInt8)) : Prop where
  append : ∀ {bs a rest}, read bs = some (a, rest) → ∀ more,
    read (bs ++ more) = some (a, rest ++ more)

namespace Steady

variable {α β : Type} {read : List UInt8 → Option (α × List UInt8)}

theorem map (h : Steady read) (f : α → β) :
    Steady fun bs => (read bs).map fun r => (f r.1, r.2) := by
  constructor
  intro bs b rest hread more
  obtain ⟨⟨a, r⟩, hr, hb⟩ := Option.map_eq_some_iff.1 hread
  cases hb
  exact congrArg (Option.map fun r => (f r.1, r.2)) (h.append hr more)

theorem bind (h : Steady read) {next : α → List UInt8 → Option (β × List UInt8)}
    (hnext : ∀ a, Steady (next a)) : Steady fun bs => (read bs).bind fun r => next r.1 r.2 := by
  constructor
  intro bs b rest hread more
  obtain ⟨⟨a, row⟩, hr, hb⟩ := Option.bind_eq_some_iff.1 hread
  have hfirst := congrArg (Option.bind · fun r => next r.1 r.2) (h.append hr more)
  exact hfirst.trans ((hnext a).append hb more)

theorem readMany (h : Steady read) (n : Nat) : Steady (readMany read n) := by
  constructor
  intro bs as rest hread more
  induction n generalizing bs as with
  | zero =>
      cases hread
      rfl
  | succ n ih =>
      obtain ⟨a, row, as', hfirst, hrest, rfl⟩ := readMany_succ_eq_some hread
      rw [readMany_cons (h.append hfirst more), ih hrest]
      rfl

theorem readPair {read : List UInt8 → Option (Datum × List UInt8)} (h : Steady read) :
    Steady (readPair read) := by
  constructor
  intro bs entry rest hread more
  obtain ⟨row, hkey, hvalue⟩ := readPair_eq_some hread
  exact readPair_eq (h.append hkey more) (h.append hvalue more)

end Steady

theorem steady_takeBytes (n : Nat) : Steady (takeBytes n) := by
  constructor
  intro bs taken rest h more
  unfold takeBytes at h
  dsimp only at h
  split at h
  next hlen =>
    cases h
    -- there were enough bytes, so those that follow are not touched
    have hle : n ≤ bs.length := by
      rw [List.length_take] at hlen
      omega
    rw [takeBytes, List.take_append_of_le_length hle, List.drop_append_of_le_length hle]
    exact if_pos hlen
  next => cases h

theorem steady_takeNat (w : Nat) : Steady (takeNat w) := (steady_takeBytes w).map ofBigEndian

theorem steady_leafOfNat (w : Nat) (make : Nat → Datum) : Steady (leafOfNat w make) :=
  (steady_takeNat w).map fun n => Head.leaf (make n)

theorem steady_leafOfBytes (make : List UInt8 → Datum) (n : Nat) : Steady (leafOfBytes make n) :=
  (steady_takeBytes n).map fun taken => Head.leaf (make taken)

theorem steady_leafOfSized (w : Nat) (make : List UInt8 → Datum) : Steady (leafOfSized w make) :=
  (steady_takeNat w).bind (steady_leafOfBytes make)

theorem steady_skipOther (n : Nat) : Steady (skipOther n) := steady_leafOfBytes _ (n + 1)

theorem steady_head : Steady head := by
  constructor
  intro bs a rest h more
  cases bs with
  | nil => cases h
  | cons b row =>
      rw [List.cons_append]
      unfold head at h ⊢
      -- the branch depends on the first byte alone, so both sides are in the same one
      dsimp only at h ⊢
      generalize b.toNat = m at h ⊢
      by_cases hfix : m < 0x80
      · rw [if_pos hfix] at h ⊢
        cases h
        rfl
      rw [if_neg hfix] at h ⊢
      by_cases htable : m < 0x90
      · rw [if_pos htable] at h ⊢
        cases h
        rfl
      rw [if_neg htable] at h ⊢
      by_cases hlist : m < 0xa0
      · rw [if_pos hlist] at h ⊢
        cases h
        rfl
      rw [if_neg hlist] at h ⊢
      by_cases htext : m < 0xc0
      · rw [if_pos htext] at h ⊢
        exact (steady_leafOfBytes _ _).append h more
      rw [if_neg htext] at h ⊢
      by_cases hneg : 0xe0 ≤ m
      · rw [if_pos hneg] at h ⊢
        cases h
        rfl
      rw [if_neg hneg] at h ⊢
      split at h
      -- each remaining tag leads to one of the readers above
      all_goals first
        | exact (steady_leafOfSized _ _).append h more
        | exact (steady_leafOfNat _ _).append h more
        | exact (steady_skipOther _).append h more
        | exact ((steady_takeNat _).bind steady_skipOther).append h more
        | exact ((steady_takeNat _).map Head.list).append h more
        | exact ((steady_takeNat _).map Head.table).append h more
        | cases h <;> rfl

theorem steady_decodeWithin (depth : Nat) : Steady (decodeWithin depth) := by
  -- level by level: the readers of the parts are steady by the level below
  induction depth with
  | zero =>
      constructor
      intro bs d rest h more
      rcases decodeWithin_cases h with hleaf | ⟨_, _, _, _, hdepth, -⟩ | ⟨_, _, _, _, hdepth, -⟩
      · exact decodeWithin_leaf (steady_head.append hleaf more)
      · -- at the last level nothing but a leaf was read
        cases hdepth
      · cases hdepth
  | succ inner ih =>
      constructor
      intro bs d rest h more
      rcases decodeWithin_cases h with hleaf | ⟨_, n, items, row, hdepth, rfl, hhead, hmany⟩ |
        ⟨_, n, entries, row, hdepth, rfl, hhead, hmany⟩
      · exact decodeWithin_leaf (steady_head.append hleaf more)
      · cases hdepth
        rw [decodeWithin_list (steady_head.append hhead more), (ih.readMany n).append hmany more,
          Option.map_some]
      · cases hdepth
        rw [decodeWithin_table (steady_head.append hhead more),
          (ih.readPair.readMany n).append hmany more, Option.map_some]

/-- No written datum can be read from a proper beginning of its bytes. -/
theorem decode_take_encode (h : Exact d) (hdepth : d.depth ≤ depthLimit)
    (hn : n < (encode d).length) : decode ((encode d).take n) = none := by
  rw [decode]
  cases hread : decodeWithin depthLimit ((encode d).take n) with
  | none => rfl
  | some r =>
      have hmore := (steady_decodeWithin depthLimit).append hread ((encode d).drop n)
      have hwhole := decodeWithin_encode d depthLimit [] h hdepth
      rw [List.append_nil] at hwhole
      rw [List.take_append_drop, hwhole] at hmore
      -- the whole leaves nothing behind, while here the part cut off would be left
      have hnil : [] = r.2 ++ (encode d).drop n := congrArg Prod.snd (Option.some.inj hmore)
      have hdrop := congrArg List.length (List.append_eq_nil_iff.1 hnil.symm).2
      rw [List.length_drop, List.length_nil] at hdrop
      omega

end MessagePack

end WorkStealing.Wire
