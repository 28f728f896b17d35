import TenantForest.Proofs.Refusals

/-!
# What a commit does, on any store

A commit applies a structural change: an edit of one unit, the head, and new places for units
below it, the cascade rows. On any store, however corrupt, and for every change whose rows name
distinct units other than the head, a commit is decided by its checks alone:

* it succeeds exactly when no active unit holds the claimed name and the head and every row name
  active units of the change's tenant at the versions they expect;
* it then returns the head with its edit applied and its version raised, and leaves every unit
  as `Change.written` says: a row's unit at the row's path and level, the head edited, each with
  its version raised, every other unit as it was, in the same order, with the same identifier
  counter;
* otherwise it fails with the fault of the first check that fails, the claim first and then the
  head and the rows in order (a unit that is no active unit of the tenant is missing, one at
  another version is stale), and leaves the store as it was.

An update is the commit of a change with no rows and no claim.

Main statement: `commit_decided_by_checks`.

  §1 The checks — a claim, a version check, and the rows, where the first failure decides.
  §2 What a commit writes, unit by unit.
  §3 The outcome of a commit.
-/

namespace TenantForest

namespace Store

variable {s : Store} {t : Ident}

/-! ## §1 The checks -/

/-- `id` is an active unit of tenant `t` at version `v`: what a version check asks for. -/
def Current (s : Store) (t id : Ident) (v : Int) : Prop :=
  ∃ e, s.active? id t = some e ∧ e.version = v

/-- The fault a version check refuses `id` with: missing when it is no active unit of the
tenant, stale when it is one at another version. -/
def versionFault (s : Store) (t id : Ident) : Fault :=
  if (s.active? id t).isSome then .staleVersion id else .unitMissing id

/-- A claim passes exactly when no active unit holds it. -/
theorem checkClaim_ok_iff {q : Option NameClaim} :
    s.checkClaim q = .ok () ↔
      ∀ q' ∈ q, ∀ e ∈ s.entities, e.isActive = true → q'.heldBy e = false := by
  cases q with
  | none => simp [checkClaim]
  | some q =>
    simp only [checkClaim, Option.mem_def, Option.some.injEq, forall_eq']
    cases h : s.nameInUse q with
    | true =>
      simp only [nameInUse, List.any_eq_true, Bool.and_eq_true] at h
      obtain ⟨e, he, hact, hheld⟩ := h
      simp only [if_true, reduceCtorEq, false_iff, not_forall]
      exact ⟨e, he, hact, by simp [hheld]⟩
    | false =>
      simp only [nameInUse, List.any_eq_false, Bool.and_eq_true, not_and] at h
      simp only [Bool.false_eq_true, if_false, true_iff]
      intro e he hact
      simpa using h e he hact

/-- A claim fails exactly when an active unit holds it, and the fault names the claimed name. -/
theorem checkClaim_error_iff {q : Option NameClaim} {f : Fault} :
    s.checkClaim q = .error f ↔
      ∃ q' ∈ q, (∃ e ∈ s.entities, e.isActive = true ∧ q'.heldBy e = true) ∧
        f = .claimTaken q'.name := by
  cases q with
  | none => simp [checkClaim]
  | some q =>
    simp only [checkClaim, Option.mem_def, Option.some.injEq, exists_eq_left']
    cases h : s.nameInUse q with
    | true =>
      simp only [nameInUse, List.any_eq_true, Bool.and_eq_true] at h
      simp only [if_true, Except.error.injEq]
      exact ⟨fun hf => ⟨h, hf.symm⟩, fun hf => hf.2.symm⟩
    | false =>
      simp only [nameInUse, List.any_eq_false, Bool.and_eq_true, not_and] at h
      simp only [Bool.false_eq_true, if_false, reduceCtorEq, false_iff, not_and]
      rintro ⟨e, he, hact, hheld⟩
      exact absurd hheld (h e he hact)

/-- A version check passes exactly for an active unit of the tenant at the expected version. -/
theorem checkVersion_ok_iff {id : Ident} {v : Int} :
    s.checkVersion id t v = .ok () ↔ s.Current t id v := by
  unfold checkVersion Current
  cases s.active? id t with
  | none => simp
  | some e => by_cases hv : e.version = v <;> simp [hv]

/-- A version check fails exactly when it does not pass, with the fault of the unit. -/
theorem checkVersion_error_iff {id : Ident} {v : Int} {f : Fault} :
    s.checkVersion id t v = .error f ↔ ¬ s.Current t id v ∧ f = s.versionFault t id := by
  constructor
  · intro h
    refine ⟨fun hc => ?_, ?_⟩
    · rw [checkVersion_ok_iff.2 hc] at h
      cases h
    · unfold checkVersion at h
      unfold versionFault
      cases ha : s.active? id t with
      | none =>
        rw [ha] at h
        cases h
        rfl
      | some e =>
        rw [ha] at h
        simp only at h
        split at h
        · cases h
        · cases h
          rfl
  · rintro ⟨hc, rfl⟩
    unfold checkVersion versionFault
    cases ha : s.active? id t with
    | none => rfl
    | some e =>
      have hv : e.version ≠ v := fun hv => hc ⟨e, ha, hv⟩
      simp [hv]

/-- The rows pass exactly when each names an active unit of the tenant at its version. -/
theorem checkRows_ok_iff {rows : List Placement} :
    s.checkRows t rows = .ok () ↔ ∀ r ∈ rows, s.Current t r.id r.expected := by
  induction rows with
  | nil => simp [checkRows]
  | cons r rs ih =>
    rw [List.forall_mem_cons, ← ih, ← checkVersion_ok_iff]
    simp only [checkRows]
    cases s.checkVersion r.id t r.expected with
    | error e => simp
    | ok u => simp

/-- The rows fail exactly at the first row that does not pass, with its fault: every row
before it passes, and no row after it is looked at. -/
theorem checkRows_error_iff {rows : List Placement} {f : Fault} :
    s.checkRows t rows = .error f ↔ ∃ pre r post, rows = pre ++ r :: post ∧
      (∀ r' ∈ pre, s.Current t r'.id r'.expected) ∧ ¬ s.Current t r.id r.expected ∧
      f = s.versionFault t r.id := by
  induction rows with
  | nil =>
    simp only [checkRows, reduceCtorEq, false_iff, not_exists, not_and]
    intro pre r post h
    cases pre <;> cases h
  | cons r rs ih =>
    simp only [checkRows, List.cons_eq_append_iff]
    cases h : s.checkVersion r.id t r.expected with
    | error e =>
      -- the first row fails, and decides
      obtain ⟨hcur, rfl⟩ := checkVersion_error_iff.1 h
      simp only [Except.error.injEq]
      constructor
      · rintro rfl
        exact ⟨[], r, rs, .inl ⟨rfl, rfl⟩, fun _ h => absurd h List.not_mem_nil, hcur, rfl⟩
      · rintro ⟨pre, x, post, ⟨rfl, hx⟩ | ⟨pre', rfl, -⟩, hpre, -, hf⟩
        · obtain ⟨rfl, -⟩ := List.cons.inj hx
          exact hf.symm
        · exact absurd (hpre r List.mem_cons_self) hcur
    | ok u =>
      -- the first row passes, and the rest decide
      have hcur := checkVersion_ok_iff.1 h
      simp only [ih]
      constructor
      · rintro ⟨pre, x, post, rfl, hpre, hx, hf⟩
        refine ⟨r :: pre, x, post, .inr ⟨pre, rfl, rfl⟩, ?_, hx, hf⟩
        intro r' hr'
        rcases List.mem_cons.1 hr' with rfl | hr'
        · exact hcur
        · exact hpre r' hr'
      · rintro ⟨pre, x, post, ⟨rfl, hx⟩ | ⟨pre', rfl, hrest⟩, hpre, hx', hf⟩
        · obtain ⟨rfl, -⟩ := List.cons.inj hx
          exact absurd hcur hx'
        · exact ⟨pre', x, post, hrest, fun r' hr' => hpre r' (List.mem_cons_of_mem _ hr'), hx',
            hf⟩

/-- The checks of a commit pass exactly when the claim is free and the head and every row
are current. -/
theorem vet_ok_iff {c : Change} {q : Option NameClaim} :
    s.vet c q = .ok () ↔ s.checkClaim q = .ok () ∧ s.Current c.tenant c.id c.expected ∧
      ∀ r ∈ c.cascade, s.Current c.tenant r.id r.expected := by
  rw [← checkVersion_ok_iff, ← checkRows_ok_iff]
  simp only [vet, bind, Except.bind]
  cases s.checkClaim q with
  | error e => simp
  | ok u =>
    cases s.checkVersion c.id c.tenant c.expected with
    | error e => simp
    | ok u' => simp

/-- The checks of a commit fail with the fault of the first check that fails: the claim, then
the head, then the rows in order. -/
theorem vet_error_iff {c : Change} {q : Option NameClaim} {f : Fault} :
    s.vet c q = .error f ↔ s.checkClaim q = .error f ∨
      (s.checkClaim q = .ok () ∧
        ((¬ s.Current c.tenant c.id c.expected ∧ f = s.versionFault c.tenant c.id) ∨
          (s.Current c.tenant c.id c.expected ∧ s.checkRows c.tenant c.cascade = .error f))) := by
  rw [← checkVersion_error_iff, ← checkVersion_ok_iff]
  simp only [vet, bind, Except.bind]
  cases s.checkClaim q with
  | error e => simp
  | ok u =>
    cases s.checkVersion c.id c.tenant c.expected with
    | error e => simp
    | ok u' => simp

end Store

/-! ## §2 What a commit writes -/

/-- What a commit of `c` makes of the unit `e`: the row naming it, if any, puts it at the row's
path and level, the head gets the edit, each with its version raised, and every other unit
stays as it is. -/
def Change.written (c : Change) (e : Entity) : Entity :=
  match c.cascade.find? (fun r => r.id == e.id) with
  | some r => r.apply e
  | none => if e.id = c.id then Store.stamp c.edit e else e

namespace Store

variable {c : Change}

/-- When rows name distinct units, the rows applied to a unit are the one row naming it. -/
theorem rowsApplied_eq_find? {rows : List Placement} (hn : (rows.map Placement.id).Nodup)
    (e : Entity) :
    rowsApplied rows e = match rows.find? (fun r => r.id == e.id) with
      | some r => r.apply e
      | none => e := by
  cases h : rows.find? (fun r => r.id == e.id) with
  | none =>
    refine rowsApplied_of_not_mem fun hm => ?_
    obtain ⟨r, hr, hre⟩ := List.mem_map.1 hm
    simpa [hre] using List.find?_eq_none.1 h r hr
  | some r =>
    exact rowsApplied_of_mem hn (List.mem_of_find?_eq_some h) (by simpa using List.find?_some h)

/-- Writing the rows of `c` and then editing its head, which no row names, writes every unit as
`c.written` says, in place. -/
theorem entities_written (hrows : (c.cascade.map Placement.id).Nodup)
    (hhead : c.id ∉ c.cascade.map Placement.id) (s : Store) :
    ((s.writeRows c.cascade).modify c.id (stamp c.edit)).entities = s.entities.map c.written := by
  rw [entities_commit]
  refine List.map_congr_left fun e _ => ?_
  rw [rowsApplied_eq_find? hrows, Change.written]
  by_cases hx : e.id = c.id
  · -- no row names the head
    have hnone : c.cascade.find? (fun r => r.id == c.id) = none := by
      refine List.find?_eq_none.2 fun r hr hre => hhead ?_
      rw [← (beq_iff_eq.1 hre)]
      exact List.mem_map_of_mem hr
    simp [hx, hnone]
  · have hne : (e.id == c.id) = false := by simpa using hx
    rw [hne]
    cases c.cascade.find? (fun r => r.id == e.id) <;> simp [hx]

/-- A store is `s` with other units when it hands out the same identifiers. -/
theorem eq_with_entities {s s' : Store} {l : List Entity} (he : s'.entities = l)
    (hi : s'.issued = s.issued) : s' = { s with entities := l } := by
  obtain ⟨es', is'⟩ := s'
  subst he hi
  rfl

/-- A commit whose checks pass, with the head stored as `h`, returns the head edited and writes
every unit as `c.written` says. -/
theorem commit_run_of_vet (hrows : (c.cascade.map Placement.id).Nodup)
    (hhead : c.id ∉ c.cascade.map Placement.id) {q : Option NameClaim}
    (hv : s.vet c q = .ok ()) {h : Entity} (hh : s.find? c.id = some h) :
    (Store.commit c q).run s = .ok (stamp c.edit h) { s with entities := s.entities.map c.written } := by
  have hid : h.id = c.id := by simpa using List.find?_some hh
  -- the rows leave the head where it was
  have found : (s.writeRows c.cascade).find? c.id = some h := by
    rw [find?_writeRows, hh, Option.map_some, rowsApplied_of_not_mem (hid ▸ hhead)]
  have written : (s.writeRows c.cascade).modify c.id (stamp c.edit) =
      { s with entities := s.entities.map c.written } :=
    eq_with_entities (entities_written hrows hhead s) (by simp)
  unfold Store.commit
  rw [InPlace.run_getThe_bind, hv, InPlace.check_ok_bind]
  simp [found, written]

/-- A commit whose checks fail fails with their fault, before any write. -/
theorem commit_run_of_vet_error {q : Option NameClaim} {f : Fault} (hv : s.vet c q = .error f) :
    (Store.commit c q).run s = .error f s := by
  unfold Store.commit
  rw [InPlace.run_getThe_bind, hv, InPlace.check_error_bind, InPlace.run_throw]

/-- A commit succeeds exactly when its checks pass; it then returns the head it found, edited,
and writes every unit as `c.written` says. -/
theorem commit_ok_iff (hrows : (c.cascade.map Placement.id).Nodup)
    (hhead : c.id ∉ c.cascade.map Placement.id) {q : Option NameClaim} {r : Entity}
    {s' : Store} :
    (Store.commit c q).run s = .ok r s' ↔ s.vet c q = .ok () ∧
      ∃ h, s.active? c.id c.tenant = some h ∧ r = stamp c.edit h ∧
        s' = { s with entities := s.entities.map c.written } := by
  constructor
  · intro h
    obtain ⟨hv, -⟩ := commit_ok h
    obtain ⟨h₀, hh₀, -⟩ := (vet_ok_iff.1 hv).2.1
    rw [commit_run_of_vet hrows hhead hv (Option.eq_some_of_filter_eq_some hh₀),
      EStateM.Result.ok.injEq] at h
    obtain ⟨rfl, rfl⟩ := h
    exact ⟨hv, h₀, hh₀, rfl, rfl⟩
  · rintro ⟨hv, h₀, hh₀, rfl, rfl⟩
    exact commit_run_of_vet hrows hhead hv (Option.eq_some_of_filter_eq_some hh₀)

/-- A commit fails exactly when its checks fail, with their fault, and leaves the store as it
was. -/
theorem commit_error_iff (hrows : (c.cascade.map Placement.id).Nodup)
    (hhead : c.id ∉ c.cascade.map Placement.id) {q : Option NameClaim} {f : Fault}
    {s' : Store} :
    (Store.commit c q).run s = .error f s' ↔ s' = s ∧ s.vet c q = .error f := by
  constructor
  · intro h
    cases hv : s.vet c q with
    | ok u =>
      -- checks that pass leave nothing to fail
      obtain ⟨h₀, hh₀, -⟩ := (vet_ok_iff.1 hv).2.1
      rw [commit_run_of_vet hrows hhead hv (Option.eq_some_of_filter_eq_some hh₀)] at h
      cases h
    | error e =>
      rw [commit_run_of_vet_error hv, EStateM.Result.error.injEq] at h
      obtain ⟨rfl, rfl⟩ := h
      exact ⟨rfl, rfl⟩
  · rintro ⟨rfl, hv⟩
    exact commit_run_of_vet_error hv

end Store

/-! ## §3 The outcome of a commit -/

namespace Store

/-- **A commit is decided by its checks.** On any store, for a change whose rows name distinct
units other than its head, and any claim:

* the commit succeeds exactly when no active unit holds the claim, and the head and every row
  name active units of the change's tenant at their expected versions; it then returns the head
  `h` with the edit applied and its version raised, and leaves every unit as `Change.written`
  says, in the same order, with the same identifier counter;
* it fails exactly otherwise, leaving the store as it was, with the fault of the first check
  that fails: the taken claim first, then the head and the rows in order, each missing when it
  is no active unit of the tenant and stale when it is one at another version.

An update is the commit of its one change with no claim. -/
theorem commit_decided_by_checks (s : Store) (c : Change) (q : Option NameClaim)
    (hrows : (c.cascade.map Placement.id).Nodup) (hhead : c.id ∉ c.cascade.map Placement.id) :
    (∀ r s', (Store.commit c q).run s = .ok r s' ↔
        (∀ q' ∈ q, ∀ e ∈ s.entities, e.isActive = true → q'.heldBy e = false) ∧
        s.Current c.tenant c.id c.expected ∧
        (∀ row ∈ c.cascade, s.Current c.tenant row.id row.expected) ∧
        ∃ h, s.active? c.id c.tenant = some h ∧ r = stamp c.edit h ∧
          s' = { s with entities := s.entities.map c.written }) ∧
      (∀ f s', (Store.commit c q).run s = .error f s' ↔ s' = s ∧
        ((∃ q' ∈ q, (∃ e ∈ s.entities, e.isActive = true ∧ q'.heldBy e = true) ∧
            f = .claimTaken q'.name) ∨
          ((∀ q' ∈ q, ∀ e ∈ s.entities, e.isActive = true → q'.heldBy e = false) ∧
            ((¬ s.Current c.tenant c.id c.expected ∧ f = s.versionFault c.tenant c.id) ∨
              (s.Current c.tenant c.id c.expected ∧ ∃ pre row post, c.cascade = pre ++ row :: post ∧
                (∀ r' ∈ pre, s.Current c.tenant r'.id r'.expected) ∧
                ¬ s.Current c.tenant row.id row.expected ∧
                f = s.versionFault c.tenant row.id))))) ∧
      ∀ t id v e, Store.update t id v e = Store.commit ⟨t, id, v, e, []⟩ none := by
  refine ⟨fun r s' => ?_, fun f s' => ?_, fun _ _ _ _ => rfl⟩
  · rw [commit_ok_iff hrows hhead, vet_ok_iff, checkClaim_ok_iff, and_assoc, and_assoc]
  · rw [commit_error_iff hrows hhead, vet_error_iff, checkClaim_error_iff, checkClaim_ok_iff,
      checkRows_error_iff]

/-- A rename of `Acme` that carries its child `Sales` along, with a cascade row for `Sales`. -/
def acmeCorpChange : Change :=
  { tenant := Ident.ofNat 7, id := Ident.serial 1, expected := 1,
    edit := { name := some "Acme Corp", path := some "Acme Corp" },
    cascade := [⟨Ident.serial 2, 1, "Acme Corp > Sales", 1⟩] }

/-- The commit of the rename of `Acme` on the forest of `Acme` and `Sales` is decided by its
checks. -/
theorem acme_corp_commit_decided_by_checks :
    (acmeCorpChange.cascade.map Placement.id).Nodup ∧
      acmeCorpChange.id ∉ acmeCorpChange.cascade.map Placement.id ∧
      (∀ r s', (Store.commit acmeCorpChange none).run Forest.acmeSalesForest.store = .ok r s' ↔
        (∀ q' ∈ (none : Option NameClaim), ∀ e ∈ Forest.acmeSalesForest.store.entities,
          e.isActive = true → q'.heldBy e = false) ∧
        Forest.acmeSalesForest.store.Current (Ident.ofNat 7) (Ident.serial 1) 1 ∧
        (∀ row ∈ acmeCorpChange.cascade,
          Forest.acmeSalesForest.store.Current (Ident.ofNat 7) row.id row.expected) ∧
        ∃ h, Forest.acmeSalesForest.store.active? (Ident.serial 1) (Ident.ofNat 7) = some h ∧
          r = stamp acmeCorpChange.edit h ∧
          s' = { Forest.acmeSalesForest.store with
            entities := Forest.acmeSalesForest.store.entities.map acmeCorpChange.written }) ∧
      (∀ f s', (Store.commit acmeCorpChange none).run Forest.acmeSalesForest.store = .error f s' ↔
        s' = Forest.acmeSalesForest.store ∧
        ((∃ q' ∈ (none : Option NameClaim),
            (∃ e ∈ Forest.acmeSalesForest.store.entities, e.isActive = true ∧
              q'.heldBy e = true) ∧ f = .claimTaken q'.name) ∨
          ((∀ q' ∈ (none : Option NameClaim), ∀ e ∈ Forest.acmeSalesForest.store.entities,
              e.isActive = true → q'.heldBy e = false) ∧
            ((¬ Forest.acmeSalesForest.store.Current (Ident.ofNat 7) (Ident.serial 1) 1 ∧
                f = Forest.acmeSalesForest.store.versionFault (Ident.ofNat 7) (Ident.serial 1)) ∨
              (Forest.acmeSalesForest.store.Current (Ident.ofNat 7) (Ident.serial 1) 1 ∧
                ∃ pre row post, acmeCorpChange.cascade = pre ++ row :: post ∧
                  (∀ r' ∈ pre, Forest.acmeSalesForest.store.Current (Ident.ofNat 7) r'.id
                    r'.expected) ∧
                  ¬ Forest.acmeSalesForest.store.Current (Ident.ofNat 7) row.id row.expected ∧
                  f = Forest.acmeSalesForest.store.versionFault (Ident.ofNat 7) row.id))))) ∧
      ∀ t id v e, Store.update t id v e = Store.commit ⟨t, id, v, e, []⟩ none :=
  have hrows : (acmeCorpChange.cascade.map Placement.id).Nodup := by decide
  have hhead : acmeCorpChange.id ∉ acmeCorpChange.cascade.map Placement.id := by decide
  ⟨hrows, hhead, commit_decided_by_checks Forest.acmeSalesForest.store acmeCorpChange none hrows hhead⟩

end Store

end TenantForest
