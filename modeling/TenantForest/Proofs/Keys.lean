import TenantForest.Proofs.Outcome

/-!
# Keyed stores

Every unit a store holds has an identifier of its own, and every identifier it holds was
drawn from its counter: the identifiers are distinct and below the next one to be issued.
Every store a run of calls reaches is keyed.

In a keyed store a unit is determined by its identifier. A lookup finds exactly the
stored unit with that identifier, wherever it stands, and the writes that keep
identifiers (`modify`, cascade rows) can be read unit by unit.

  §1 Lookups — in a keyed store `find?` and `active?` name the stored unit with the
     identifier.
  §2 Writes — placing a draft, mapping units and writing rows keep a store keyed, and so
     do a successful insert and a successful commit.
  §3 Runs — every call keeps the store keyed, so every reachable store is.
-/

namespace TenantForest

namespace Store

/-- Identifiers are distinct and were all drawn from the counter. -/
structure Keyed (s : Store) : Prop where
  /-- No two stored units share an identifier. -/
  nodup : (s.entities.map Entity.id).Nodup
  /-- Every stored identifier is below the next serial identifier. -/
  below : ∀ e ∈ s.entities, e.id.bits < (Ident.serial (s.issued + 1)).bits

variable {s s' : Store}

/-! ## §1 Lookups -/

/-- Among units with distinct identifiers, the search by identifier finds exactly the unit
with it. -/
theorem find?_id_eq_some_iff {l : List Entity} (hl : (l.map Entity.id).Nodup) {x : Ident}
    {e : Entity} : l.find? (fun e => e.id == x) = some e ↔ e ∈ l ∧ e.id = x := by
  constructor
  · intro h
    exact ⟨List.mem_of_find?_eq_some h, by simpa using List.find?_some h⟩
  · rintro ⟨he, rfl⟩
    cases hf : l.find? (fun a => a.id == e.id) with
    | none => exact absurd (List.find?_eq_none.1 hf e he) (by simp)
    | some a =>
      -- the unit found first carries `e`'s identifier, so it is `e`
      have hid : a.id = e.id := by simpa using List.find?_some hf
      rw [List.inj_on_of_nodup_map hl (List.mem_of_find?_eq_some hf) he hid]

namespace Keyed

/-- Two stored units with one identifier are the same unit. -/
theorem eq_of_id_eq (hk : s.Keyed) {a b : Entity} (ha : a ∈ s.entities) (hb : b ∈ s.entities)
    (h : a.id = b.id) : a = b :=
  List.inj_on_of_nodup_map hk.nodup ha hb h

/-- A lookup finds exactly the stored unit with the identifier. -/
theorem find?_eq_some_iff (hk : s.Keyed) {x : Ident} {e : Entity} :
    s.find? x = some e ↔ e ∈ s.entities ∧ e.id = x :=
  find?_id_eq_some_iff hk.nodup

/-- A stored unit is found by its identifier. -/
theorem find?_of_mem (hk : s.Keyed) {e : Entity} (he : e ∈ s.entities) :
    s.find? e.id = some e :=
  hk.find?_eq_some_iff.2 ⟨he, rfl⟩

/-- The active unit `x` of tenant `t` is the stored unit with that identifier, when it is
active in `t`. -/
theorem active?_eq_some_iff (hk : s.Keyed) {x t : Ident} {e : Entity} :
    s.active? x t = some e ↔ e ∈ s.entities ∧ e.id = x ∧ e.activeIn t = true := by
  simp only [active?, Option.filter_eq_some_iff, hk.find?_eq_some_iff, and_assoc]

/-- A stored unit active in `t` is the active unit of `t` with its identifier. -/
theorem active?_of_mem (hk : s.Keyed) {e : Entity} {t : Ident} (he : e ∈ s.entities)
    (ht : e.activeIn t = true) : s.active? e.id t = some e :=
  hk.active?_eq_some_iff.2 ⟨he, rfl, ht⟩

end Keyed

/-- The unit found active in `t` is stored, carries the identifier looked up, belongs to `t`
and is active; no keying is needed for this direction. -/
theorem mem_of_active? {x t : Ident} {e : Entity} (h : s.active? x t = some e) :
    e ∈ s.entities ∧ e.id = x ∧ e.tenant = t ∧ e.isActive = true := by
  simp only [active?, Option.filter_eq_some_iff, Entity.activeIn, Bool.and_eq_true,
    beq_iff_eq] at h
  obtain ⟨hf, ht, ha⟩ := h
  exact ⟨List.mem_of_find?_eq_some hf, by simpa using List.find?_some hf, ht, ha⟩

/-- The active units of a tenant are the stored units active in it. -/
theorem mem_activeOf {t : Ident} {e : Entity} :
    e ∈ s.activeOf t ↔ e ∈ s.entities ∧ e.activeIn t = true := by
  simp [activeOf]

/-! ## §2 Writes -/

/-- The empty store is keyed. -/
theorem keyed_empty : Store.empty.Keyed :=
  ⟨List.nodup_nil, fun _ h => absurd h List.not_mem_nil⟩

/-- A store whose units are those of a keyed store mapped by a function that keeps
identifiers, with the same counter, is keyed. -/
theorem Keyed.of_map (hk : s.Keyed) {g : Entity → Entity} (hg : ∀ e, (g e).id = e.id)
    (he : s'.entities = s.entities.map g) (hi : s'.issued = s.issued) : s'.Keyed := by
  have ids : s'.entities.map Entity.id = s.entities.map Entity.id := by
    rw [he, List.map_map]
    exact List.map_congr_left fun e _ => hg e
  refine ⟨ids ▸ hk.nodup, ?_⟩
  intro e' h'
  rw [he, List.mem_map] at h'
  obtain ⟨e, he, rfl⟩ := h'
  rw [hg, hi]
  exact hk.below e he

/-- Modifying a unit in a way that keeps identifiers keeps the store keyed. -/
theorem Keyed.modify (hk : s.Keyed) {id : Ident} {f : Entity → Entity}
    (hf : ∀ e, (f e).id = e.id) : (s.modify id f).Keyed :=
  hk.of_map (fun e => by split <;> simp [hf]) rfl rfl

/-- Writing cascade rows keeps the store keyed. -/
theorem Keyed.writeRows (hk : s.Keyed) (rows : List Placement) : (s.writeRows rows).Keyed :=
  hk.of_map (id_rowsApplied rows) (writeRows_entities s rows) (issued_writeRows s rows)

/-- Serial identifiers increase with the count. -/
theorem serial_bits_lt {m n : Nat} (h : m < n) : (Ident.serial m).bits < (Ident.serial n).bits := by
  simp only [Ident.serial]
  omega

/-- Placing a draft keeps the store keyed: the new identifier is above every stored one. -/
theorem Keyed.place (hk : s.Keyed) (d : Draft) : (s.place d).2.Keyed := by
  have fresh : ∀ e ∈ s.entities, e.id.bits < (Ident.serial (s.issued + 1)).bits := hk.below
  constructor
  · rw [entities_place, List.map_append, List.nodup_append]
    refine ⟨hk.nodup, List.nodup_singleton _, ?_⟩
    intro a ha b hb
    obtain ⟨e, he, rfl⟩ := List.mem_map.1 ha
    simp only [List.map_cons, List.map_nil, List.mem_singleton] at hb
    subst hb
    intro h
    have := fresh e he
    simp [Draft.settle, h] at this
  · intro e he
    rw [entities_place, List.mem_append, List.mem_singleton] at he
    rw [issued_place]
    rcases he with he | rfl
    · exact Nat.lt_trans (fresh e he) (serial_bits_lt (by omega))
    · exact serial_bits_lt (by omega)

/-- A successful insert keeps the store keyed. -/
theorem Keyed.insert (hk : s.Keyed) {d : Draft} {claim : Option NameClaim} {e : Entity}
    (h : (insert d claim).run s = .ok e s') : s'.Keyed := by
  obtain ⟨-, hp⟩ := insert_ok.1 h
  rw [show s' = (s.place d).2 from (congrArg Prod.snd hp).symm]
  exact hk.place d

/-- A successful commit keeps the store keyed. -/
theorem Keyed.commit (hk : s.Keyed) {c : Change} {claim : Option NameClaim} {e : Entity}
    (h : (commit c claim).run s = .ok e s') : s'.Keyed := by
  obtain ⟨-, -, -, -, rfl⟩ := commit_ok h
  exact (hk.writeRows c.cascade).modify (id_stamp c.edit)

end Store

/-! ## §3 Runs -/

namespace Forest

variable {f : Forest}

/-- Every call keeps the store keyed. -/
theorem keyed_after (hk : f.store.Keyed) (c : Call) : (f.after c).store.Keyed := by
  rcases store_after_cases f c with same | ⟨d, -, hd⟩ | ⟨ch, claim, e, -, h⟩
  · rw [same]
    exact hk
  · rw [hd]
    exact hk.place d
  · exact hk.commit h

/-- Every reachable forest has a keyed store. -/
theorem Reachable.keyed {st : Settings} (h : Reachable st f) : f.store.Keyed := by
  induction h with
  | empty => exact Store.keyed_empty
  | after c _ ih => exact keyed_after ih c

end Forest

end TenantForest
