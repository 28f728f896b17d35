import TenantForest.Proofs.Keys

/-!
# Renumbering one tenant's units

Identifiers come from one counter that every tenant draws from (`Ident.serial`), so the
identifier a unit gets depends on how many units other tenants created before it. This
module defines the renaming that takes the identifiers of a store to those that tenant
`t`'s calls, served alone, would have handed out, and proves the three facts the
isolation argument asks of it.

  §1 Stores along a run — a call stores one new unit of its own tenant, commits a change
     of its own tenant, or leaves the store as it is (`store_after_cases`). Hence the
     stored identifiers are exactly the serial identifiers handed out, oldest first
     (`Store.Serial`), and the stored (identifier, tenant) pairs only grow at the end
     (`keys_replay`).
  §2 The renumbering — `Store.renumberFor s t` numbers `t`'s units first, in creation
     order, then the units of the other tenants; identifiers no unit has keep their value.
     Over a serial store it is injective (`renumberFor_injective`), sends `t`'s units,
     oldest first, to the first serial identifiers (`renumberFor_idsOf`), keeps their order
     (`renumberFor_lt_iff`), and gives the unit stored at any point of a run the identifier
     that `t`'s own counter held then (`renumberFor_next`).
-/

namespace TenantForest

/-! ## §1 Stores along a run -/

namespace Store

variable {s s' : Store}

/-- The stored identifiers are the serial identifiers handed out so far, oldest first. -/
def Serial (s : Store) : Prop :=
  s.entities.map Entity.id = (List.range s.issued).map fun i => Ident.serial (i + 1)

/-- Each stored unit's identifier together with its tenant, oldest first. -/
def keys (s : Store) : List (Ident × Ident) :=
  s.entities.map fun e => (e.id, e.tenant)

theorem mem_keys {x u : Ident} :
    (x, u) ∈ s.keys ↔ ∃ e ∈ s.entities, e.id = x ∧ e.tenant = u := by
  simp [keys]

theorem serial_injective : Function.Injective Ident.serial := by
  intro m n h
  have h' := congrArg Ident.bits h
  simp only [Ident.serial] at h'
  omega

theorem serial_empty : Store.empty.Serial := rfl

theorem Serial.length (hs : s.Serial) : s.entities.length = s.issued := by
  unfold Serial at hs
  simpa using congrArg List.length hs

/-- A serial store is keyed: serial identifiers are distinct and below the next one. -/
theorem Serial.keyed (hs : s.Serial) : s.Keyed := by
  unfold Serial at hs
  constructor
  · rw [hs]
    exact List.nodup_range.map fun i j h => by simpa using serial_injective h
  · intro e he
    have hmem : e.id ∈ (List.range s.issued).map fun i => Ident.serial (i + 1) :=
      hs ▸ List.mem_map_of_mem he
    obtain ⟨i, hi, hid⟩ := List.mem_map.1 hmem
    rw [← hid]
    exact serial_bits_lt (by simpa using hi)

/-- The identifiers of a serial store rise in creation order. -/
theorem Serial.pairwise (hs : s.Serial) :
    (s.entities.map Entity.id).Pairwise fun a b => a.bits < b.bits := by
  unfold Serial at hs
  rw [hs, List.pairwise_map]
  exact List.pairwise_lt_range.imp fun h => serial_bits_lt (by omega)

theorem Serial.place (hs : s.Serial) (d : Draft) : (s.place d).2.Serial := by
  unfold Serial at hs ⊢
  rw [entities_place, issued_place, List.map_append, hs, List.range_succ, List.map_append]
  rfl

theorem Serial.of_map (hs : s.Serial) {g : Entity → Entity} (hg : ∀ e, (g e).id = e.id)
    (he : s'.entities = s.entities.map g) (hi : s'.issued = s.issued) : s'.Serial := by
  unfold Serial at hs ⊢
  rw [he, hi, List.map_map, ← hs]
  exact List.map_congr_left fun e _ => hg e

theorem Serial.commit (hs : s.Serial) {c : Change} {claim : Option NameClaim} {e : Entity}
    (h : (commit c claim).run s = .ok e s') : s'.Serial := by
  obtain ⟨-, -, -, -, rfl⟩ := commit_ok h
  refine hs.of_map (fun e => ?_) (entities_commit s c.cascade c.id (stamp c.edit)) (by simp)
  split <;> simp

theorem keys_place (s : Store) (d : Draft) :
    (s.place d).2.keys = s.keys ++ [(Ident.serial (s.issued + 1), d.tenant)] := by
  simp [keys, Draft.settle]

/-- A commit rewrites units but keeps who they are and whose they are. -/
theorem keys_commit {c : Change} {claim : Option NameClaim} {e : Entity}
    (h : (commit c claim).run s = .ok e s') : s'.keys = s.keys := by
  obtain ⟨-, -, -, -, rfl⟩ := commit_ok h
  simp only [keys, entities_commit, List.map_map]
  refine List.map_congr_left fun u _ => ?_
  have hr := relocated_rowsApplied c.cascade u
  simp only [Function.comp_apply]
  split <;> simp [hr.tenant_eq, stamp, Edit.apply]

end Store

namespace Forest

variable {f : Forest} {st : Settings}

theorem serial_after (hs : f.store.Serial) (c : Call) : (f.after c).store.Serial := by
  rcases store_after_cases f c with same | ⟨d, -, hd⟩ | ⟨ch, claim, e, -, h⟩
  · rw [same]
    exact hs
  · rw [hd]
    exact hs.place d
  · exact hs.commit h

/-- Every reachable forest has a serial store. -/
theorem Reachable.serial (h : Reachable st f) : f.store.Serial := by
  induction h with
  | empty => exact Store.serial_empty
  | after c _ ih => exact serial_after ih c

/-- A call only adds stored units, at the end. -/
theorem keys_after (f : Forest) (c : Call) : f.store.keys <+: (f.after c).store.keys := by
  rcases store_after_cases f c with same | ⟨d, -, hd⟩ | ⟨ch, claim, e, -, h⟩
  · simp only [same, List.prefix_refl]
  · rw [hd, Store.keys_place]
    exact List.prefix_append _ _
  · simp only [Store.keys_commit h, List.prefix_refl]

/-- A run only adds stored units, at the end. -/
theorem keys_replay (f : Forest) : ∀ cs, f.store.keys <+: (f.replay cs).store.keys
  | [] => List.prefix_refl _
  | c :: cs => (keys_after f c).trans (keys_replay (f.after c) cs)

end Forest

/-! ## §2 The renumbering -/

namespace Store

variable {s : Store} {t : Ident}

variable (s t) in
/-- The identifiers of `t`'s units, oldest first. -/
def idsOf : List Ident :=
  (s.keys.filter fun k => k.2 == t).map Prod.fst

variable (s t) in
/-- The stored identifiers in the order tenant `t`'s run alone would have handed them
out: `t`'s units first, in creation order, then the units of the other tenants. -/
def renumbering : List Ident :=
  s.idsOf t ++ (s.entities.filter fun e => e.tenant != t).map Entity.id

variable (s t) in
/-- The identifier a stored unit would have had if tenant `t`'s calls had been served
alone: the serial identifier of its place in `renumbering`. Identifiers that no stored
unit has keep their value. -/
def renumberFor (x : Ident) : Ident :=
  if x ∈ s.renumbering t then Ident.serial ((s.renumbering t).idxOf x + 1) else x

theorem idsOf_eq : s.idsOf t = (s.entities.filter fun e => e.tenant == t).map Entity.id := by
  simp [idsOf, keys, List.filter_map, Function.comp_def]

theorem mem_idsOf {x : Ident} : x ∈ s.idsOf t ↔ (x, t) ∈ s.keys := by
  simp [idsOf]

theorem mem_renumbering {x : Ident} : x ∈ s.renumbering t ↔ x ∈ s.entities.map Entity.id := by
  simp only [renumbering, idsOf_eq, List.mem_append, List.mem_map, List.mem_filter]
  constructor
  · rintro (⟨e, ⟨he, -⟩, rfl⟩ | ⟨e, ⟨he, -⟩, rfl⟩) <;> exact ⟨e, he, rfl⟩
  · rintro ⟨e, he, rfl⟩
    cases h : e.tenant == t
    · exact .inr ⟨e, ⟨he, by simp [bne, h]⟩, rfl⟩
    · exact .inl ⟨e, ⟨he, h⟩, rfl⟩

theorem length_renumbering : (s.renumbering t).length = s.entities.length := by
  rw [List.length_eq_length_filter_add (fun e => e.tenant == t) (l := s.entities)]
  simp [renumbering, idsOf_eq, bne]

/-- The renumbering sends stored identifiers to stored identifiers. -/
theorem renumberFor_mem (hs : s.Serial) {x : Ident} (hx : x ∈ s.renumbering t) :
    s.renumberFor t x ∈ s.renumbering t := by
  have hlt : (s.renumbering t).idxOf x < s.issued := by
    rw [← hs.length, ← length_renumbering]
    exact List.idxOf_lt_length_iff.2 hx
  unfold Serial at hs
  rw [renumberFor, if_pos hx, mem_renumbering, hs]
  exact List.mem_map.2 ⟨_, List.mem_range.2 hlt, rfl⟩

theorem renumberFor_injective (hs : s.Serial) : Function.Injective (s.renumberFor t) := by
  -- a stored identifier goes to a stored one, any other to itself
  have stored : ∀ {x y}, x ∈ s.renumbering t → y ∉ s.renumbering t →
      s.renumberFor t x ≠ s.renumberFor t y := by
    intro x y hx hy hxy
    have hmem := renumberFor_mem hs hx
    rw [hxy, renumberFor, if_neg hy] at hmem
    exact hy hmem
  intro x y hxy
  by_cases hx : x ∈ s.renumbering t <;> by_cases hy : y ∈ s.renumbering t
  · rw [renumberFor, renumberFor, if_pos hx, if_pos hy] at hxy
    have hidx := serial_injective hxy
    exact (List.idxOf_inj hx).1 (by omega)
  · exact absurd hxy (stored hx hy)
  · exact absurd hxy.symm (stored hy hx)
  · rwa [renumberFor, renumberFor, if_neg hx, if_neg hy] at hxy

/-- A unit of `t` is numbered by its place among `t`'s units. -/
theorem renumberFor_of_mem_idsOf {x : Ident} (hx : x ∈ s.idsOf t) :
    s.renumberFor t x = Ident.serial ((s.idsOf t).idxOf x + 1) := by
  have hin : x ∈ s.renumbering t := List.mem_append_left _ hx
  rw [renumberFor, if_pos hin, renumbering, List.idxOf_append_of_mem hx]

/-- The renumbering sends `t`'s units, oldest first, to the first serial identifiers. -/
theorem renumberFor_idsOf (hk : s.Keyed) :
    (s.idsOf t).map (s.renumberFor t) =
      (List.range (s.idsOf t).length).map fun i => Ident.serial (i + 1) := by
  have hnodup : (s.idsOf t).Nodup := by
    rw [idsOf_eq]
    exact hk.nodup.sublist (List.filter_sublist.map _)
  refine List.ext_getElem (by simp) fun i h₁ h₂ => ?_
  simp only [List.getElem_map, List.getElem_range]
  rw [renumberFor_of_mem_idsOf (List.getElem_mem _), hnodup.idxOf_getElem]

/-- In a list of identifiers rising in value, positions are in the order of values. -/
theorem idxOf_lt_idxOf_iff {l : List Ident} (hl : l.Pairwise fun a b => a.bits < b.bits)
    {a b : Ident} (ha : a ∈ l) (hb : b ∈ l) : l.idxOf a < l.idxOf b ↔ a.bits < b.bits := by
  have below : ∀ {a b}, a ∈ l → b ∈ l → l.idxOf a < l.idxOf b → a.bits < b.bits := by
    intro a b ha hb hab
    have hb' := List.idxOf_lt_length_iff.2 hb
    have h := List.pairwise_iff_getElem.1 hl _ _ (Nat.lt_trans hab hb') hb' hab
    rwa [List.getElem_idxOf, List.getElem_idxOf] at h
  refine ⟨below ha hb, fun hab => ?_⟩
  rcases Nat.lt_trichotomy (l.idxOf a) (l.idxOf b) with h | h | h
  · exact h
  · rw [(List.idxOf_inj ha).1 h] at hab
    exact absurd hab (Nat.lt_irrefl _)
  · exact absurd (below hb ha h) (Nat.lt_asymm hab)

/-- On the units of tenant `t` the renumbering keeps the order of identifiers. -/
theorem renumberFor_lt_iff (hs : s.Serial) {a b : Ident} (ha : a ∈ s.idsOf t)
    (hb : b ∈ s.idsOf t) :
    (s.renumberFor t a).bits < (s.renumberFor t b).bits ↔ a.bits < b.bits := by
  have hrise : (s.idsOf t).Pairwise fun a b => a.bits < b.bits := by
    rw [idsOf_eq]
    exact hs.pairwise.sublist (List.filter_sublist.map _)
  rw [renumberFor_of_mem_idsOf ha, renumberFor_of_mem_idsOf hb,
    ← idxOf_lt_idxOf_iff hrise ha hb]
  simp only [Ident.serial]
  omega

/-- The unit stored next after `s₀`, when it is `t`'s and the run goes on to `s`, gets the
identifier that `t`'s own counter holds at `s₀`: one past the number of `t`'s units there. -/
theorem renumberFor_next (hk : s.Keyed) {s₀ : Store}
    (hpre : s₀.keys ++ [(Ident.serial (s₀.issued + 1), t)] <+: s.keys) :
    s.renumberFor t (Ident.serial (s₀.issued + 1)) =
      Ident.serial ((s₀.entities.filter fun e => e.tenant == t).length + 1) := by
  obtain ⟨rest, hrest⟩ := hpre
  set x := Ident.serial (s₀.issued + 1)
  -- the stored identifiers are those of `s₀`, then `x`, then the rest, all distinct
  have hnodup : (s₀.keys.map Prod.fst ++ x :: rest.map Prod.fst).Nodup := by
    have h := hk.nodup
    rwa [show s.entities.map Entity.id = s.keys.map Prod.fst by simp [keys], ← hrest,
      List.append_assoc, List.map_append, List.singleton_append, List.map_cons] at h
  have hfresh : x ∉ s₀.idsOf t := fun h =>
    (List.nodup_append.1 hnodup).2.2 _ (List.filter_sublist.map _ |>.subset h) _
      (List.mem_cons_self ..) rfl
  have hown : s.idsOf t = s₀.idsOf t ++ x :: (rest.filter fun k => k.2 == t).map Prod.fst := by
    rw [idsOf, idsOf, ← hrest]
    simp [List.filter_append]
  have hcount : (s₀.idsOf t).length = (s₀.entities.filter fun e => e.tenant == t).length := by
    simp [idsOf_eq]
  rw [renumberFor_of_mem_idsOf (by simp [hown]), hown, List.idxOf_append_of_notMem hfresh,
    List.idxOf_cons_self, Nat.add_zero, hcount]

end Store

end TenantForest
