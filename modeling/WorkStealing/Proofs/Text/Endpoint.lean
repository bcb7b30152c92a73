import WorkStealing.Endpoint
import WorkStealing.Proofs.Text.Timestamp

/-!
# Reading endpoints as they were written

The reader of endpoints accepts many texts for one endpoint, but what it reads is always an endpoint
that its written form names (`Endpoint.IsNamed`), and the written form of such an endpoint reads back
(`Endpoint.parse_text_iff`). A socket is found by splitting its path at every slash and its file name
at the last dot, a port by splitting an address at the last colon; so a name may have dots and a host
colons, and both come back whole, as what is written behind them has neither.
-/

namespace WorkStealing

/-- A number up to the bound is read as it was written. -/
theorem Text.parseNat?_repr {bound n : Nat} (h : n ≤ bound) :
    Text.parseNat? bound (Nat.repr n) = some n := by
  have hnumeral : Numeral (Nat.repr n).toList n := by
    have hpadded := numeral_padded 0 n
    rw [toList_padded, Nat.zero_sub, List.replicate_zero, List.nil_append, ← Nat.toList_repr]
      at hpadded
    exact hpadded
  have hdecimal : (Nat.repr n).toList.all isDecimal = true := List.all_eq_true.2 hnumeral.decimal
  rw [parseNat?]
  generalize (Nat.repr n).toList = cs at hnumeral hdecimal
  cases cs with
  | nil => exact absurd rfl hnumeral.ne_nil
  | cons c rest =>
      -- a digit in front is no sign
      have hc : isDecimal c = true := hnumeral.decimal c List.mem_cons_self
      have hsign : c ≠ '+' := by
        rintro rfl
        exact absurd hc (by decide)
      simp [hsign, hdecimal, hnumeral.value, h]

namespace Endpoint

/-- An endpoint that a text can name: a socket has a name without slashes, a host has a name. -/
def IsNamed : Endpoint → Prop
  | .ipc name => name ≠ "" ∧ '/' ∉ name.toList
  | .tcp host _ => host ≠ ""

instance : DecidablePred IsNamed
  | .ipc name => inferInstanceAs (Decidable (name ≠ "" ∧ '/' ∉ name.toList))
  | .tcp host _ => inferInstanceAs (Decidable (host ≠ ""))

variable {mark : Char} {cs before after path name stem : List Char} {s : String}

/-! ### Splitting -/

/-- What stands before and after the last of a character. -/
theorem splitLast?_eq_some_iff :
    splitLast? mark cs = some (before, after) ↔ cs = before ++ mark :: after ∧ mark ∉ after := by
  constructor
  · intro h
    have hcut := List.takeWhile_append_dropWhile (p := fun c => decide (c ≠ mark)) (l := cs.reverse)
    have hstop := List.head?_dropWhile_not (fun c => decide (c ≠ mark)) cs.reverse
    have hwhile := List.all_takeWhile (p := fun c => decide (c ≠ mark)) (l := cs.reverse)
    rw [splitLast?] at h
    generalize cs.reverse.takeWhile (fun c => decide (c ≠ mark)) = front at h hcut hwhile
    generalize cs.reverse.dropWhile (fun c => decide (c ≠ mark)) = back at h hcut hstop
    cases back with
    | nil => cases h
    | cons c back =>
        cases h
        have hc : c = mark := by simpa using hstop
        subst hc
        refine ⟨?_, ?_⟩
        · rw [← List.reverse_reverse cs, ← hcut]
          simp
        · intro hmem
          simpa using List.all_eq_true.1 hwhile c (List.mem_reverse.1 hmem)
  · rintro ⟨rfl, hafter⟩
    have hfree : ∀ c ∈ after.reverse, decide (c ≠ mark) = true := by
      intro c hc
      rw [decide_eq_true_eq]
      rintro rfl
      exact hafter (List.mem_reverse.1 hc)
    have hreverse : (before ++ mark :: after).reverse = after.reverse ++ mark :: before.reverse := by
      simp
    rw [splitLast?, hreverse, List.takeWhile_append_of_pos hfree, List.dropWhile_append_of_pos hfree]
    simp

theorem pathParts_eq_splitOn (path : List Char) : pathParts path = path.splitOn '/' := by
  induction path with
  | nil => rfl
  | cons c rest ih =>
      rw [List.splitOn_cons_eq_if_modifyHead, ← ih]
      by_cases hc : c = '/'
      · subst hc
        rfl
      · rw [if_neg (by simpa using hc)]
        cases hparts : pathParts rest with
        | nil => exact absurd (ih.symm.trans hparts) (List.splitOn_ne_nil '/' rest)
        | cons part parts => simp [pathParts, hparts]

theorem not_mem_of_mem_pathParts (h : name ∈ pathParts path) : '/' ∉ name := by
  rw [pathParts_eq_splitOn] at h
  induction path generalizing name with
  | nil =>
      rw [List.splitOn_nil, List.mem_singleton] at h
      rw [h]
      exact List.not_mem_nil
  | cons c rest ih =>
      rw [List.splitOn_cons_eq_if_modifyHead] at h
      split at h
      next =>
        rcases List.mem_cons.1 h with rfl | h
        · exact List.not_mem_nil
        · exact ih h
      next hc =>
        cases hparts : rest.splitOn '/' with
        | nil => exact absurd hparts (List.splitOn_ne_nil '/' rest)
        | cons part parts =>
            rw [hparts] at h ih
            rcases List.mem_cons.1 h with rfl | h
            · rw [List.mem_cons, not_or]
              exact ⟨fun hslash => hc (beq_iff_eq.2 hslash.symm), ih List.mem_cons_self⟩
            · exact ih (List.mem_cons_of_mem part h)

/-! ### Names of files -/

/-- The last part of a path names its file. -/
theorem fileName?_append (path : List Char) (hslash : '/' ∉ name) (hne : name ≠ [])
    (hdot : name ≠ ['.']) (hdots : name ≠ ['.', '.']) : fileName? (path ++ '/' :: name) = some name := by
  rw [fileName?, pathParts_eq_splitOn, List.splitOn_append_cons_self,
    List.splitOn_eq_singleton hslash, List.filter_append]
  simp [hne, hdot, hdots]

theorem fileName?_facts (h : fileName? path = some name) : name ≠ [] ∧ '/' ∉ name := by
  rw [fileName?, Option.filter_eq_some_iff] at h
  obtain ⟨hpart, hkept⟩ := List.mem_filter.1 (List.mem_of_getLast? h.1)
  rw [decide_eq_true_eq] at hkept
  exact ⟨hkept.1, not_mem_of_mem_pathParts hpart⟩

/-- An extension that is written behind a name is what the reader cuts off. -/
theorem fileStem?_append (path : List Char) {extension : List Char} (hname : name ≠ [])
    (hslash : '/' ∉ name) (hne : extension ≠ []) (hdot : '.' ∉ extension)
    (hslash' : '/' ∉ extension) :
    fileStem? (path ++ '/' :: (name ++ '.' :: extension)) = some name := by
  obtain ⟨c, rest, rfl⟩ := List.exists_cons_of_ne_nil hname
  obtain ⟨c', rest', rfl⟩ := List.exists_cons_of_ne_nil hne
  have hfile : fileName? (path ++ '/' :: (c :: rest ++ '.' :: c' :: rest')) =
      some (c :: rest ++ '.' :: c' :: rest') := by
    apply fileName?_append
    · simp only [List.mem_append, List.mem_cons (a := '/') (b := '.')]
      rintro (h | h | h)
      · exact hslash h
      · cases h
      · exact hslash' h
    · simp
    · simp
    · cases rest with
      | nil => simp
      | cons _ _ => simp
  have hsplit : splitLast? '.' (c :: rest ++ '.' :: c' :: rest') = some (c :: rest, c' :: rest') :=
    splitLast?_eq_some_iff.2 ⟨rfl, hdot⟩
  rw [fileStem?, hfile, Option.map_some, hsplit]

theorem fileStem?_facts (h : fileStem? path = some stem) : stem ≠ [] ∧ '/' ∉ stem := by
  obtain ⟨name, hname, rfl⟩ := Option.map_eq_some_iff.1 h
  have hfile := fileName?_facts hname
  -- what is cut off is never the whole name
  split
  next => exact hfile
  next stem extension hempty hsplit =>
    obtain ⟨rfl, -⟩ := splitLast?_eq_some_iff.1 hsplit
    refine ⟨?_, fun hslash => hfile.2 (List.mem_append_left _ hslash)⟩
    rintro rfl
    exact hempty rfl
  next => exact hfile

/-! ### Whole endpoints -/

theorem after?_of_append {lead : String} {rest : List Char} (h : s.toList = lead.toList ++ rest) :
    after? lead s = some rest := by
  rw [after?, h, if_pos (List.isPrefixOf_iff_prefix.2 (List.prefix_append _ _)),
    ← String.length_toList, List.drop_left]

theorem parse_ipc {name : String} (hne : name ≠ "") (hslash : '/' ∉ name.toList) :
    parse (ipc name).text = .ok (.ipc name) := by
  have htext : (ipc name).text.toList = "ipc://".toList ++
      (socketDirectory.toList ++ '/' :: (name.toList ++ '.' :: "sock".toList)) := by
    simp [text, String.toList_append]
  have hstem : fileStem? (socketDirectory.toList ++ '/' :: (name.toList ++ '.' :: "sock".toList)) =
      some name.toList :=
    fileStem?_append _ (by simpa using hne) hslash (by decide) (by decide) (by decide)
  rw [parse, after?_of_append htext]
  simp only [hstem, String.ofList_toList]

theorem parse_tcp {host : String} (hne : host ≠ "") (port : UInt16) :
    parse (tcp host port).text = .ok (.tcp host port) := by
  have htext : (tcp host port).text.toList =
      "tcp://".toList ++ (host.toList ++ ':' :: (Nat.repr port.toNat).toList) := by
    simp [text, String.toList_append]
  have hipc : after? "ipc://" (tcp host port).text = none := by
    rw [after?, htext]
    simp
  have hdigits : ':' ∉ (Nat.repr port.toNat).toList := by
    intro hmem
    rw [Nat.toList_repr] at hmem
    exact absurd (Nat.isDigit_of_mem_toDigits (by decide) (by decide) hmem) (by decide)
  have hsplit := splitLast?_eq_some_iff.2 ⟨(rfl : host.toList ++ ':' :: _ = _), hdigits⟩
  have hport : port.toNat ≤ 65535 := Nat.le_of_lt_succ port.toNat_lt
  rw [parse, hipc, after?_of_append htext]
  simp only [hsplit, String.ofList_toList, Text.parseNat?_repr hport, UInt16.ofNat_toNat]
  rw [if_neg (by simpa using hne)]

theorem isNamed_of_parse {e : Endpoint} (h : parse s = .ok e) : e.IsNamed := by
  rw [parse] at h
  split at h
  next path _ =>
    cases hstem : fileStem? path with
    | none => rw [hstem] at h; cases h
    | some stem =>
        rw [hstem] at h
        cases h
        obtain ⟨hne, hslash⟩ := fileStem?_facts hstem
        exact ⟨by simpa using hne, by simpa using hslash⟩
  next address _ _ =>
    cases hsplit : splitLast? ':' address with
    | none => rw [hsplit] at h; cases h
    | some parts =>
        obtain ⟨host, port⟩ := parts
        rw [hsplit] at h
        dsimp only at h
        cases hnumber : Text.parseNat? 65535 (String.ofList port) with
        | none => rw [hnumber] at h; cases h
        | some n =>
            rw [hnumber] at h
            dsimp only at h
            split at h
            next => cases h
            next hne => cases h; simpa [IsNamed] using hne
  next => cases h

/-- Endpoints round-trip. What a text can name, a socket of a name without slashes or any port of a
host, is what its own written form reads back as, and it is all that any text is ever read as; so to
write what was read and read it again changes nothing. -/
theorem parse_text_iff (e : Endpoint) :
    (parse e.text = .ok e ↔ e.IsNamed) ∧ ((∃ s, parse s = .ok e) ↔ e.IsNamed) ∧
      ∀ s, (parse s).map (fun e' => parse e'.text) = (parse s).map .ok := by
  have hback : ∀ e' : Endpoint, e'.IsNamed → parse e'.text = .ok e' := by
    intro e' hnamed
    cases e' with
    | ipc name => exact parse_ipc hnamed.1 hnamed.2
    | tcp host port => exact parse_tcp hnamed port
  refine ⟨⟨isNamed_of_parse, hback e⟩, ⟨?_, fun hnamed => ⟨e.text, hback e hnamed⟩⟩, ?_⟩
  · rintro ⟨s, h⟩
    exact isNamed_of_parse h
  · intro s
    cases h : parse s with
    | error fault => rfl
    | ok e' => exact congrArg Except.ok (hback e' (isNamed_of_parse h))

/-- A name keeps its dots, and only what stands behind the last of them is cut off. -/
example :
    (parse "ipc://../run/.a.b.sock/.").toOption = some (.ipc ".a.b") ∧
      (parse (ipc ".a.b").text).toOption = some (.ipc ".a.b") := by
  decide +kernel

end Endpoint

end WorkStealing
