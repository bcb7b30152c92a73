import WorkStealing.Proofs.Driver.Run
import WorkStealing.Proofs.Pool.References

/-!
# References of a driver to its groups

A context remembers for each task in flight where it came from, and a group counts the tasks that
were taken from it. `references_exact` says that the two agree after every run of calls: each group
counts as many tasks as contexts hold from it, so no task in flight came from a group that is gone,
and a group is retired exactly when it is new, empty and nothing of it is in flight.

`Driver.Referenced` is the agreement, kept by every call that leaves the contexts in memory
(`referenced_call`). What is said of keys needs slots that have numbers, as in
`WorkStealing.Proofs.Pool.Affinity`; a driver's pool goes through a run of pool calls
(`pool_call`), which carries that part over.
-/

namespace WorkStealing.Driver

/-- Entries in flight, at all contexts, whose task came from the group that an index names. -/
def naming (d : Driver) (i : ArenaIndex) : Nat :=
  (d.contexts.map fun x => x.inFlight.countP (Taken.names i)).sum

/-- Every group counts as many tasks as the contexts hold from it, and an index that names no group
is named by no task. -/
def Referenced (d : Driver) : Prop := ∀ i, d.pool.references i = d.naming i

variable {d d' : Driver} {c : ContextId} {ctx ctx' : Context} {t : TaskHandle} {i : ArenaIndex}

theorem naming_setContext (h : d.context? c = some ctx) (ctx' : Context) (i : ArenaIndex) :
    (d.setContext c ctx').naming i + ctx.inFlight.countP (Taken.names i) =
      d.naming i + ctx'.inFlight.countP (Taken.names i) :=
  sum_map_set (fun x : Context => x.inFlight.countP (Taken.names i)) h ctx'

/-- A context with the same tasks in flight may take the place of another. -/
theorem naming_setContext_same (h : d.context? c = some ctx)
    (hsame : ctx'.inFlight = ctx.inFlight) (i : ArenaIndex) :
    (d.setContext c ctx').naming i = d.naming i := by
  have hsum := naming_setContext h ctx' i
  rw [hsame] at hsum
  exact Nat.add_right_cancel hsum

namespace Referenced

theorem of_same (h : d.Referenced) (hpool : ∀ i, d'.pool.references i = d.pool.references i)
    (hnaming : ∀ i, d'.naming i = d.naming i) : d'.Referenced := by
  intro i
  rw [hpool, hnaming]
  exact h i

/-- Counters, listeners and flags are free. -/
theorem of_eq (h : d.Referenced) (hpool : d'.pool = d.pool) (hcontexts : d'.contexts = d.contexts) :
    d'.Referenced := by
  apply h.of_same
  · intro i
    rw [hpool]
  · intro i
    rw [naming, naming, hcontexts]

/-- A group that a task in flight came from is still there. -/
theorem exists_group (h : d.Referenced) {x : Context} (hx : x ∈ d.contexts) {taken : Taken}
    (htaken : taken ∈ x.inFlight) (hi : taken.source.group? = some i) :
    ∃ g, d.pool.groups.get? i = some g := by
  have hnames : taken.names i = true := decide_eq_true hi
  have hpos : 0 < x.inFlight.countP (Taken.names i) :=
    List.countP_pos_iff.2 ⟨taken, htaken, hnames⟩
  have hmem : x.inFlight.countP (Taken.names i) ∈
      d.contexts.map fun x => x.inFlight.countP (Taken.names i) := List.mem_map_of_mem hx
  cases hg : d.pool.groups.get? i with
  | some g => exact ⟨g, rfl⟩
  | none =>
      -- where no group is, none is counted, so nothing in flight names it
      have hzero : 0 = d.naming i := by
        rw [← h i, Pool.references, hg]
        rfl
      have hnone := List.sum_eq_zero_iff_forall_eq_nat.1 hzero.symm _ hmem
      omega

end Referenced

/-! ### Calls -/

theorem referenced_give (hs : d.Sound) (h : d.Referenced) (c : ContextId) (t : TaskHandle)
    (hint : Hint) : (d.give c t hint).1.Referenced := by
  rcases give_cases hs.linked c t hint with
    ⟨pool, ctx, placement, -, -, hmove, hctx, hgive⟩ | ⟨e, counters, -, -, -, hgive⟩
  · rw [hgive]
    apply h.of_same
    · exact hmove.references_entered
    · exact naming_setContext_same hctx rfl
  · rw [hgive]
    exact h.of_eq rfl rfl

theorem referenced_giveResolved (hs : d.Sound) (h : d.Referenced) (c : ContextId)
    (t : TaskHandle) : (d.giveResolved c t).1.Referenced := by
  rw [giveResolved]
  cases d.resolver with
  | none => exact h
  | some r => exact referenced_give hs h c t _

/-- A task that is taken is entered at its context and counted at its group. -/
theorem referenced_take (h : d.Referenced) (c : ContextId) : (d.take c).1.Referenced := by
  rw [take]
  cases hparty : d.party c with
  | error e => exact h
  | ok found =>
      obtain ⟨ctx, w⟩ := found
      obtain ⟨hctx, -⟩ := party_eq_ok hparty
      have hcredits := Pool.credits_take d.pool w ctx.cursor
      dsimp only
      cases htake : d.pool.take w ctx.cursor with
      | mk pool r =>
          obtain ⟨cursor, r⟩ := r
          rw [htake] at hcredits
          cases r with
          | none =>
              apply h.of_same
              · exact hcredits
              · exact naming_setContext_same hctx rfl
          | some taken =>
              intro i
              have hsum := naming_setContext hctx
                (({ ctx with cursor := cursor } : Context).track taken) i
              have htrack : (({ ctx with cursor := cursor } : Context).track taken).inFlight =
                  taken :: ctx.inFlight := rfl
              have hpool :
                  pool.references i = d.pool.references i + [taken].countP (Taken.names i) :=
                hcredits i
              rw [htrack, List.countP_cons] at hsum
              rw [List.countP_singleton] at hpool
              have hold := h i
              show pool.references i = (d.setContext c _).naming i
              omega

theorem referenced_takeBatch (c : ContextId) (most : Nat) (h : d.Referenced) :
    (takeBatch c most d).1.Referenced :=
  takeBatch_induction (P := Referenced) (fun _ hd => referenced_take hd c) most h

/-- A context lets go of the entry whose source it reports. -/
theorem countP_release {source : Source} (h : ctx.release t = .ok (source, ctx'))
    (i : ArenaIndex) :
    ctx.inFlight.countP (Taken.names i) =
      ctx'.inFlight.countP (Taken.names i) + if source.group? = some i then 1 else 0 := by
  obtain ⟨before, taken, after, hsplit, -, rfl, rfl⟩ := release_eq_ok h
  show _ = (before ++ after).countP (Taken.names i) + _
  rw [hsplit, List.countP_append, List.countP_append, List.countP_cons, Taken.names]
  simp only [decide_eq_true_eq]
  omega

/-- A report takes an entry from its context and one task from the count of the group it names. -/
theorem referenced_done (h : d.Referenced) (c : ContextId) (t : TaskHandle) :
    (d.done c t).1.Referenced := by
  rw [done]
  cases hctx : d.context? c with
  | none => exact h
  | some ctx =>
      dsimp only
      cases hrelease : ctx.release t with
      | error e => exact h
      | ok found =>
          obtain ⟨source, ctx'⟩ := found
          dsimp only
          intro j
          have hcount := countP_release hrelease j
          have hsum := naming_setContext hctx ctx' j
          have hold := h j
          cases hsource : source.group? with
          | none =>
              rw [hsource] at hcount
              simp only [reduceCtorEq, ite_false] at hcount
              show d.pool.references j = (d.setContext c ctx').naming j
              omega
          | some i =>
              rw [hsource] at hcount
              simp only [Option.some.injEq] at hcount
              show (d.pool.groupTaskDone i).references j = (d.setContext c ctx').naming j
              rw [Pool.references_groupTaskDone]
              by_cases hj : j = i
              · subst hj
                rw [if_pos rfl] at hcount ⊢
                omega
              · rw [if_neg (Ne.symm hj)] at hcount
                rw [if_neg hj]
                omega

theorem referenced_registerContext (h : d.Referenced) (c : ContextId) (l : Location) :
    (d.registerContext c l).1.Referenced := by
  rcases registerContext_cases d c l with ⟨ctx, ctx', hctx, hbind, hregister⟩ | ⟨e, he⟩
  · rw [hregister]
    obtain ⟨⟨cursor, rfl⟩, -⟩ := bind_eq_ok hbind
    exact h.of_same (fun _ => rfl) (naming_setContext_same hctx rfl)
  · rw [he]
    exact h

theorem referenced_openContext (h : d.Referenced) (l : Location) :
    (d.openContext l).1.Referenced := by
  rcases openContext_cases d l with ⟨ctx, id, -, hempty, hopen⟩ | ⟨e, he⟩
  · rw [hopen]
    apply h.of_same
    · intro i
      rfl
    · -- the new context has taken nothing yet
      intro i
      simp [naming, hempty]
  · rw [he]
    exact h

theorem referenced_switchRunlevel (h : d.Referenced) (level : RunLevel) (phase : Nat)
    (direction : Direction) (hkeep : ¬ (level = .memoryOk ∧ direction = .down)) :
    (switchRunlevel level phase direction d).1.Referenced := by
  simp only [switchRunlevel]
  split
  · -- contexts are made only where there are none, and new ones hold nothing
    rw [allocateContexts]
    split
    next hempty =>
      have hnil : d.contexts = [] := List.isEmpty_iff.1 hempty
      apply h.of_same
      · intro i
        rfl
      · intro i
        have hzero : ∀ n ∈ (List.range d.workerCount).map (fun k =>
            ({ id := ContextId.ofIndex k } : Context).inFlight.countP (Taken.names i)), n = 0 := by
          intro n hn
          obtain ⟨k, -, rfl⟩ := List.mem_map.1 hn
          rfl
        rw [naming, naming, hnil, List.map_map]
        exact List.sum_eq_zero hzero
    next => exact h
  · apply h.of_same
    · intro i
      rfl
    · intro i
      exact congrArg List.sum (map_bindFrom (fun _ _ _ => rfl) _ _ _)
  · exact h.of_eq rfl rfl
  · exact absurd ⟨rfl, rfl⟩ hkeep
  · exact h

/-- Every call that leaves the contexts in memory keeps counts and entries in agreement. -/
theorem referenced_call (hs : d.Sound) (h : d.Referenced) {call : Call}
    (hkeep : call.keepsContexts = true) : (d.call call).1.Referenced := by
  cases call with
  | give c t hint => exact referenced_give hs h c t hint
  | giveResolved c t => exact referenced_giveResolved hs h c t
  | take c => exact referenced_take h c
  | takeBatch c most => exact referenced_takeBatch c most h
  | done c t => exact referenced_done h c t
  | registerContext c l => exact referenced_registerContext h c l
  | openContext l => exact referenced_openContext h l
  | createGroup key =>
      refine h.of_same ?_ (fun _ => rfl)
      intro i
      rcases Pool.createGroup_cases d.pool key with hsame | hmove
      · exact Pool.references_of_groups (congrArg Pool.groups hsame) i
      · exact hmove.references_founded hs.linked i
  | retireGroup key => exact h.of_same (Pool.references_retireGroup d.pool key) fun _ => rfl
  | switchRunlevel level phase direction =>
      apply referenced_switchRunlevel h level phase direction
      rintro ⟨rfl, rfl⟩
      cases hkeep
  | resolve resolver => exact h.of_eq rfl rfl
  | park doorkeeper => exact h.of_eq rfl rfl

theorem referenced_run {h : History} (hs : h.driver.Sound) (hr : h.driver.Referenced)
    {calls : List Call} (hkeep : ∀ call ∈ calls, call.keepsContexts = true) :
    (h.run calls).driver.Referenced := by
  -- induction on the calls still to come; a driver that keeps its books goes along
  induction calls generalizing h with
  | nil => exact hr
  | cons call rest ih =>
      have hcall := hkeep call List.mem_cons_self
      have hbooks := books_call hs hcall
      apply ih (h := h.step call) hbooks.sound
      · exact referenced_call hs hr hcall
      · intro x hx
        exact hkeep x (List.mem_cons_of_mem call hx)

/-! ### The pool of a driver -/

/-- A pool that calls have led to, with the keys of the groups that they may have made. -/
def Led (p : Pool) (keys : List AffinityKey) (q : Pool) : Prop :=
  ∃ row : List Pool.Call, q = p.run row ∧ row.filterMap Pool.Call.foundedKey? = keys

namespace Led

variable {p q m : Pool} {keys keys' : List AffinityKey}

theorem refl (p : Pool) : Led p [] p := ⟨[], rfl, rfl⟩

theorem of_call (p : Pool) (call : Pool.Call) :
    Led p call.foundedKey?.toList (p.perform call) := by
  refine ⟨[call], rfl, ?_⟩
  cases hkey : call.foundedKey? with
  | none => simp [hkey]
  | some key => simp [hkey]

theorem trans (h : Led p keys m) (h' : Led m keys' q) : Led p (keys ++ keys') q := by
  obtain ⟨row, rfl, rfl⟩ := h
  obtain ⟨row', rfl, rfl⟩ := h'
  refine ⟨row ++ row', ?_, ?_⟩
  · rw [Pool.run, Pool.run, Pool.run, List.foldl_append]
  · rw [List.filterMap_append]

end Led

/-- The key of the group that a call may make. -/
def Call.foundedKey? : Call → Option AffinityKey
  | .createGroup key => some key
  | _ => none

theorem led_give (d : Driver) (c : ContextId) (t : TaskHandle) (hint : Hint) :
    Led d.pool [] (d.give c t hint).1.pool := by
  rw [give]
  split
  · exact .refl _
  · split
    · exact .refl _
    · -- a task that passes the gates is placed by one call of the pool, if it is placed at all
      have hplace : Led d.pool []
          (place { d with counters := d.counters.entered } c t hint).1.pool := by
        rw [place]
        split
        · exact .refl _
        · next ctx source hparty =>
            dsimp only
            generalize (if ctx.id.index < _ then Giver.owner source
              else Giver.service source) = giver
            have hcall := Led.of_call d.pool (.give giver t hint)
            rw [Pool.perform] at hcall
            cases hgive : d.pool.give giver t hint with
            | mk pool r =>
                rw [hgive] at hcall
                cases r with
                | ok placement => exact hcall
                | error e => exact hcall
      cases hr : place { d with counters := d.counters.entered } c t hint with
      | mk d' r =>
          rw [hr] at hplace
          cases r with
          | ok placement => exact hplace
          | error e => exact hplace

theorem led_take (d : Driver) (c : ContextId) : Led d.pool [] (d.take c).1.pool := by
  rw [take]
  split
  · exact .refl _
  · next ctx w hparty =>
      have hcall := Led.of_call d.pool (.take w ctx.cursor)
      rw [Pool.perform] at hcall
      cases htake : d.pool.take w ctx.cursor with
      | mk pool r =>
          obtain ⟨cursor, r⟩ := r
          rw [htake] at hcall
          cases r with
          | none => exact hcall
          | some taken => exact hcall

theorem led_takeBatch (c : ContextId) (most : Nat) (d : Driver) :
    Led d.pool [] (takeBatch c most d).1.pool :=
  takeBatch_induction (P := fun x => Led d.pool [] x.pool) (fun x hx => hx.trans (led_take x c))
    most (.refl _)

theorem led_done (d : Driver) (c : ContextId) (t : TaskHandle) :
    Led d.pool [] (d.done c t).1.pool := by
  rw [done]
  split
  · exact .refl _
  · split
    · exact .refl _
    · next source ctx' hrelease =>
        dsimp only
        cases source.group? with
        | none => exact .refl _
        | some i => exact .of_call d.pool (.groupTaskDone i)

/-- A call of a driver is a row of calls of its pool. -/
theorem led_call (d : Driver) (call : Call) :
    Led d.pool call.foundedKey?.toList (d.call call).1.pool := by
  cases call with
  | give c t hint => exact led_give d c t hint
  | giveResolved c t =>
      show Led d.pool [] (d.giveResolved c t).1.pool
      rw [giveResolved]
      cases d.resolver with
      | none => exact .refl _
      | some r => exact led_give d c t _
  | take c => exact led_take d c
  | takeBatch c most => exact led_takeBatch c most d
  | done c t => exact led_done d c t
  | registerContext c l =>
      show Led d.pool [] (d.registerContext c l).1.pool
      rcases registerContext_cases d c l with ⟨ctx, ctx', -, -, hregister⟩ | ⟨e, he⟩
      · rw [hregister]
        exact .refl _
      · rw [he]
        exact .refl _
  | openContext l =>
      show Led d.pool [] (d.openContext l).1.pool
      rcases openContext_cases d l with ⟨ctx, id, -, -, hopen⟩ | ⟨e, he⟩
      · rw [hopen]
        exact .refl _
      · rw [he]
        exact .refl _
  | createGroup key => exact .of_call d.pool (.createGroup key)
  | retireGroup key => exact .of_call d.pool (.retireGroup key)
  | switchRunlevel level phase direction =>
      show Led d.pool [] (switchRunlevel level phase direction d).1.pool
      simp only [switchRunlevel]
      split
      · rw [allocateContexts]
        split
        · exact .refl _
        · exact .refl _
      · exact .refl _
      · exact .refl _
      · exact .refl _
      · exact .refl _
  | resolve resolver => exact .refl _
  | park doorkeeper => exact .refl _

theorem led_run (h : History) (calls : List Call) :
    Led h.driver.pool (calls.filterMap Call.foundedKey?) (h.run calls).driver.pool := by
  induction calls generalizing h with
  | nil => exact .refl _
  | cons call rest ih =>
      have hrun := (led_call h.driver call).trans (ih (h.step call))
      have hkeys : (call :: rest).filterMap Call.foundedKey? =
          call.foundedKey?.toList ++ rest.filterMap Call.foundedKey? := by
        cases hkey : call.foundedKey? with
        | none => simp [hkey]
        | some key => simp [hkey]
      rw [hkeys]
      exact hrun

/-! ### Retiring -/

/-- What the retirement of a key's group does at a driver. -/
structure Retires (d : Driver) (key : AffinityKey) : Prop where
  ok_iff : (d.retireGroup key).2 = .ok () ↔
    ∃ i g, d.pool.indexOf? key = some i ∧ d.pool.groups.get? i = some g ∧ g.stage = .new ∧
      g.tasks = [] ∧ d.naming i = 0
  refused : (d.retireGroup key).2 ≠ .ok () → (d.retireGroup key).1 = d
  gone : (d.retireGroup key).2 = .ok () → (d.retireGroup key).1.pool.group? key = none
  others : ∀ j, d.pool.indexOf? key ≠ some j →
    (d.retireGroup key).1.pool.groups.get? j = d.pool.groups.get? j
  keys : ∀ other, other ≠ key →
    (d.retireGroup key).1.pool.indexOf? other = d.pool.indexOf? other
  rest : ∃ groups directory, (d.retireGroup key).1 =
    { d with pool := { d.pool with groups := groups, directory := directory } }
  falls_back : (d.retireGroup key).2 = .ok () → ∀ more : List Call,
    key ∉ more.filterMap Call.foundedKey? → ∀ c t (hint : Hint), hint.affinity = some key →
      let after := (({ driver := (d.retireGroup key).1 } : History).run more).driver
      after.give c t hint = after.give c t { hint with affinity := none }

/-- A task whose hint names a key without a group is given as if the hint named none. -/
theorem give_of_unlisted {key : AffinityKey} (hnone : d.pool.indexOf? key = none) {hint : Hint}
    (hkey : hint.affinity = some key) (c : ContextId) (t : TaskHandle) :
    d.give c t hint = d.give c t { hint with affinity := none } := by
  have hplace : ({ d with counters := d.counters.entered } : Driver).place c t hint =
      ({ d with counters := d.counters.entered } : Driver).place c t
        { hint with affinity := none } := by
    rw [place, place]
    cases ({ d with counters := d.counters.entered } : Driver).party c with
    | error e => rfl
    | ok found =>
        obtain ⟨ctx, source⟩ := found
        dsimp only
        rw [Pool.give_of_unlisted hnone hkey]
  rw [give, give, hplace]

/-- Once a key's group is gone, the key counts for nothing until a group is founded for it. -/
theorem give_of_retired {key : AffinityKey} (hl : d.pool.Linked)
    (hgone : (d.retireGroup key).1.pool.indexOf? key = none) {more : List Call}
    (hmore : key ∉ more.filterMap Call.foundedKey?) (c : ContextId) (t : TaskHandle) {hint : Hint}
    (hkey : hint.affinity = some key) :
    let after := (({ driver := (d.retireGroup key).1 } : History).run more).driver
    after.give c t hint = after.give c t { hint with affinity := none } := by
  intro after
  apply give_of_unlisted _ hkey
  have hquiet := Pool.retireGroup_quiet d.pool key
  obtain ⟨row, hrow, hkeys⟩ := led_run { driver := (d.retireGroup key).1 } more
  rw [hrow]
  apply Pool.unlisted_run
  · exact hquiet.linked hl
  · rw [hkeys]
    exact hmore
  · exact hgone

/-- An idle group goes, and its key with it. -/
theorem retires_of_idle (hl : d.pool.Linked) (hr : d.Referenced) {key : AffinityKey} {i : ArenaIndex}
    {g : AffinityGroup} {groups : Arena AffinityGroup} (hindex : d.pool.indexOf? key = some i)
    (hg : d.pool.groups.get? i = some g) (hidle : g.isIdle = true)
    (hremove : d.pool.groups.remove i = some (g, groups))
    (hcall : d.retireGroup key = ({ d with pool := { d.pool with
      groups := groups, directory := d.pool.directory.filter fun e => e.1 ≠ key } }, .ok ())) :
    d.Retires key := by
  have hunlisted : (d.pool.directory.filter fun e => e.1 ≠ key).lookup key = none := by
    rw [Pool.lookup_filter_ne, if_pos rfl]
  obtain ⟨hnew, hempty, hcount⟩ := g.isIdle_iff.1 hidle
  have hnaming : d.naming i = 0 := by
    rw [← hr i, Pool.references_of_get? hg]
    exact hcount
  constructor
  · rw [hcall]
    exact ⟨fun _ => ⟨i, g, hindex, hg, hnew, hempty, hnaming⟩, fun _ => rfl⟩
  · intro hne
    rw [hcall] at hne
    exact absurd rfl hne
  · intro _
    rw [hcall]
    show ((d.pool.directory.filter fun e => e.1 ≠ key).lookup key).bind _ = none
    rw [hunlisted]
    rfl
  · intro j hj
    rw [hcall]
    show groups.get? j = d.pool.groups.get? j
    rw [Arena.get?_remove hremove, if_neg]
    rintro rfl
    exact hj hindex
  · intro other hother
    rw [hcall]
    show (d.pool.directory.filter fun e => e.1 ≠ key).lookup other = d.pool.directory.lookup other
    rw [Pool.lookup_filter_ne, if_neg hother]
  · rw [hcall]
    exact ⟨_, _, rfl⟩
  · intro _ more hmore c t hint hkey
    apply give_of_retired hl _ hmore c t hkey
    rw [hcall]
    exact hunlisted

/-- If the group is busy or there is none, nothing happens. -/
theorem retires_of_busy (hr : d.Referenced) {key : AffinityKey} {e : SchedError}
    (hbusy : ∀ i g, d.pool.indexOf? key = some i → d.pool.groups.get? i = some g → g.isIdle = false)
    (hcall : d.retireGroup key = (d, .error e)) : d.Retires key := by
  have hne : (d.retireGroup key).2 ≠ .ok () := by
    rw [hcall]
    exact nofun
  have hsame : (d.retireGroup key).1 = d := congrArg Prod.fst hcall
  constructor
  · constructor
    · intro hok
      exact absurd hok hne
    · rintro ⟨i, g, hindex, hg, hnew, hempty, hnaming⟩
      have hcount : g.inFlight = 0 := by
        rw [← Pool.references_of_get? hg, hr i]
        exact hnaming
      have hidle := g.isIdle_iff.2 ⟨hnew, hempty, hcount⟩
      rw [hbusy i g hindex hg] at hidle
      cases hidle
  · intro _
    exact hsame
  · intro hok
    exact absurd hok hne
  · intro j _
    rw [hsame]
  · intro other _
    rw [hsame]
  · exact ⟨d.pool.groups, d.pool.directory, hsame⟩
  · intro hok
    exact absurd hok hne

/-- Whether a group goes is decided by its count, which is what the contexts hold from it. -/
theorem retires_of_indexed (hl : d.pool.Linked) (hi : d.pool.Indexed) (hr : d.Referenced)
    (key : AffinityKey) : d.Retires key := by
  rcases Pool.retireGroup_cases hi key with
    ⟨i, g, groups, hindex, hg, hidle, hremove, hretire⟩ | ⟨hbusy, e, hretire⟩
  · apply retires_of_idle hl hr hindex hg hidle hremove
    rw [retireGroup, hretire]
  · apply retires_of_busy (e := e) hr hbusy
    rw [retireGroup, hretire]

/-! ### From the start -/

theorem pool_started (d : Driver) : d.started.1.pool = d.pool := by
  rw [started_eq]
  show d.allocateContexts.pool = d.pool
  rw [allocateContexts]
  split
  · rfl
  · rfl

/-- Bring-up makes contexts that hold nothing. -/
theorem referenced_started (h : d.Referenced) : d.started.1.Referenced := by
  have hmake := referenced_switchRunlevel h .memoryOk 0 .up nofun
  exact referenced_switchRunlevel hmake .computeOk 0 .up nofun

/-- Group references stay exact. After every run of calls on a started driver that leaves the
contexts in memory, each group counts as many tasks as contexts hold from it, and what a task in
flight came from is a group that is there. A key's group is retired exactly when it is new, empty
and nothing in flight came from it; then hints that name the key mean nothing until a group is made
for it again, and other groups stay as they are. -/
theorem references_exact {c : SchedulerConfig} {auto : Nat} (hnew : Driver.new c auto = .ok d)
    (resolver : Option Resolver) (doorkeeper : Option Doorkeeper) (calls : List Call)
    (hkeep : ∀ call ∈ calls, call.keepsContexts = true) :
    let start : History :=
      { driver := ({ d with resolver := resolver, doorkeeper := doorkeeper } : Driver).started.1 }
    let e := (start.run calls).driver
    (∀ i g, e.pool.groups.get? i = some g → g.inFlight = e.naming i) ∧
      (∀ ctx ∈ e.contexts, ∀ taken ∈ ctx.inFlight, ∀ i, taken.source.group? = some i →
        ∃ g, e.pool.groups.get? i = some g) ∧
      (e.pool.groups.Addressable → ∀ key, e.Retires key) ∧
      ((calls.filterMap Call.foundedKey?).length ≤ 2 ^ 32 → e.pool.groups.Addressable) := by
  intro start e
  obtain rfl := new_eq_ok hnew
  have hsound : start.driver.Sound := (books_started hnew resolver doorkeeper).sound
  have hfirst : start.driver.Referenced := by
    apply referenced_started
    intro i
    simp [Pool.references, Pool.new, Arena.get?, naming]
  have hr : e.Referenced := referenced_run hsound hfirst hkeep
  -- the pool has gone through a run of its own, with the same new groups
  obtain ⟨row, hrow, hkeys⟩ := led_run start calls
  have hpool : e.pool = (Pool.new c auto).run row := by
    rw [hrow]
    exact congrArg (Pool.run · row) (pool_started _)
  obtain ⟨hlinked, hindexed⟩ :=
    Pool.run_induction (P := fun q => q.groups.Addressable → q.Indexed)
      (Pool.linked_new c auto) (fun _ => Pool.indexed_new c auto)
      (fun _ _ _ hl hm hp ha => hm.indexed hl ha (hp (hm.addressable hl.arena ha))) row
  rw [← hpool] at hlinked hindexed
  refine ⟨?_, ?_, ?_, ?_⟩
  · intro i g hg
    rw [← hr i, Pool.references_of_get? hg]
  · intro ctx hctx taken htaken i hi
    exact hr.exists_group hctx htaken hi
  · intro ha key
    exact retires_of_indexed hlinked (hindexed ha) hr key
  · intro hle
    have hslots := Pool.length_slots_run (Pool.linked_new c auto) row
    rw [← hpool, Pool.countP_createsGroup, hkeys] at hslots
    show e.pool.groups.slots.length ≤ 2 ^ 32
    have hzero : (Pool.new c auto).groups.slots.length = 0 := rfl
    omega

/-- One worker drains a group, another steals from it, and both report. Between the reports the
group counts the stolen task and stays; then it goes, and a hint that names its key means nothing. -/
theorem references_exact_stolen :
    let d : Driver := { config := .withWorkers 2, pool := .new (.withWorkers 2) 1 }
    let key : AffinityKey := ⟨3⟩
    let hint : Hint := { affinity := some key }
    let calls : List Call :=
      [.createGroup key, .give ⟨0⟩ ⟨7⟩ hint, .give ⟨0⟩ ⟨7⟩ hint, .take ⟨0⟩, .take ⟨1⟩, .take ⟨0⟩,
        .done ⟨0⟩ ⟨7⟩, .done ⟨1⟩ ⟨7⟩]
    let start : History :=
      { driver := ({ d with resolver := none, doorkeeper := none } : Driver).started.1 }
    let between := (start.run (calls.take 7)).driver
    let e := (start.run calls).driver
    (Driver.new (.withWorkers 2) 1 = .ok d ∧ ∀ call ∈ calls, call.keepsContexts = true) ∧
      between.naming ⟨0, 0⟩ = 1 ∧ (between.retireGroup key).2.isOk = false ∧
      e.naming ⟨0, 0⟩ = 0 ∧ (e.retireGroup key).2 = .ok () ∧
      (e.retireGroup key).1.give ⟨1⟩ ⟨9⟩ hint = (e.retireGroup key).1.give ⟨1⟩ ⟨9⟩ {} := by
  intro d key hint calls start between e
  have hnew : Driver.new (.withWorkers 2) 1 = .ok d := by rfl
  have hkeep : ∀ call ∈ calls, call.keepsContexts = true := by decide
  have hretires : ∀ key, e.Retires key := by
    obtain ⟨-, -, hretires, hnumbered⟩ := references_exact hnew none none calls hkeep
    apply hretires
    apply hnumbered
    decide
  have hretired : (e.retireGroup key).2 = .ok () := by decide +kernel
  have hnaming : between.naming ⟨0, 0⟩ = 1 := by decide +kernel
  have hrefused : (between.retireGroup key).2.isOk = false := by decide +kernel
  have hlast : e.naming ⟨0, 0⟩ = 0 := by decide +kernel
  clear_value e between
  refine ⟨⟨hnew, hkeep⟩, hnaming, hrefused, hlast, hretired, ?_⟩
  exact (hretires key).falls_back hretired [] nofun ⟨1⟩ ⟨9⟩ hint rfl

end WorkStealing.Driver
