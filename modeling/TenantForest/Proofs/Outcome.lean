import TenantForest.Proofs.AllOrNothing

/-!
# What a write did

One inversion lemma per write: from a successful run, every check it passed and the state
it left behind. Later proofs about the forest cite these and never unfold a write again.

  §1 Running in place — a passed check hands on its value, a read hands on the state, a
     mapped computation succeeded underneath.
  §2 The store — an insert passed its checks and placed its draft; a commit passed its
     checks, wrote the rows and stamped the head. Cascade rows only relocate units: a
     written unit keeps everything but its path, its level and its version.
  §3 The forest — create, rename, move and remove, each with the checks it passed and the
     one store write it made; a rename to the current name and a move to the current
     parent return the forest unchanged.
  §4 Calls — a call leaves the store as it was or is one of the four writes, and no call
     changes the settings.
-/

namespace TenantForest

namespace InPlace

variable {σ α β : Type} {s s' : σ} {b : β}

/-- A check followed by more work succeeded: the check passed, and the rest succeeded from
the same state. -/
theorem run_check_bind_ok {r : Except Fault α} {g : α → InPlace σ β} :
    (check r >>= g).run s = .ok b s' ↔ ∃ a, r = .ok a ∧ (g a).run s = .ok b s' := by
  cases r <;> simp

/-- Reading the state by name hands it to the rest of the computation. -/
theorem run_getThe_bind {g : σ → InPlace σ β} : (getThe σ >>= g).run s = (g s).run s := rfl

/-- A mapped computation succeeded because the computation underneath did. -/
theorem run_map_ok {g : α → β} {m : InPlace σ α} (h : (g <$> m).run s = .ok b s') :
    ∃ a, m.run s = .ok a s' ∧ g a = b := by
  rw [run_map] at h
  split at h
  · rename_i a s₀ hm
    simp only [EStateM.Result.ok.injEq] at h
    exact ⟨a, h.2 ▸ hm, h.1⟩
  · cases h

end InPlace

open InPlace

/-! ## §2 The store -/

/-- `e'` is `e` relocated: only its path, its level and its version may differ. -/
def Entity.Relocated (e e' : Entity) : Prop :=
  e' = { e with path := e'.path, level := e'.level, version := e'.version }

/-- Every unit is a relocation of itself. -/
theorem Entity.Relocated.refl (e : Entity) : e.Relocated e := rfl

/-- Relocating twice is relocating. -/
theorem Entity.Relocated.trans {e₁ e₂ e₃ : Entity} (h₁₂ : e₁.Relocated e₂)
    (h₂₃ : e₂.Relocated e₃) : e₁.Relocated e₃ := by
  unfold Entity.Relocated at *
  rw [h₂₃, h₁₂]

namespace Entity.Relocated

variable {e e' : Entity} (h : e.Relocated e')
include h

/-- A relocated unit keeps its identifier. -/
theorem id_eq : e'.id = e.id := by
  unfold Entity.Relocated at h
  rw [h]

/-- A relocated unit keeps its tenant. -/
theorem tenant_eq : e'.tenant = e.tenant := by
  unfold Entity.Relocated at h
  rw [h]

/-- A relocated unit keeps its name. -/
theorem name_eq : e'.name = e.name := by
  unfold Entity.Relocated at h
  rw [h]

/-- A relocated unit keeps its parent. -/
theorem parent_eq : e'.parent = e.parent := by
  unfold Entity.Relocated at h
  rw [h]

/-- A relocated unit keeps its state. -/
theorem state_eq : e'.state = e.state := by
  unfold Entity.Relocated at h
  rw [h]

/-- A relocated unit is active in a tenant exactly when the unit was. -/
theorem activeIn_eq (t : Ident) : e'.activeIn t = e.activeIn t := by
  simp only [Entity.activeIn, Entity.isActive, h.tenant_eq, h.state_eq]

end Entity.Relocated

/-- A cascade row relocates the unit it is applied to. -/
theorem Placement.relocated_apply (r : Placement) (e : Entity) : e.Relocated (r.apply e) := rfl

namespace Store

/-- What writing cascade rows does to one unit: every row naming it, applied in order. -/
def rowsApplied (rows : List Placement) (e : Entity) : Entity :=
  rows.foldl (fun e r => if e.id == r.id then r.apply e else e) e

/-- Rows keep the unit's identifier. -/
@[simp] theorem id_rowsApplied (rows : List Placement) (e : Entity) :
    (rowsApplied rows e).id = e.id := by
  induction rows generalizing e with
  | nil => rfl
  | cons r rs ih =>
    simp only [rowsApplied, List.foldl_cons] at ih ⊢
    rw [ih]
    split <;> rfl

/-- Rows only relocate a unit. -/
theorem relocated_rowsApplied (rows : List Placement) (e : Entity) :
    e.Relocated (rowsApplied rows e) := by
  induction rows generalizing e with
  | nil => exact Entity.Relocated.refl e
  | cons r rs ih =>
    simp only [rowsApplied, List.foldl_cons] at ih ⊢
    split
    · exact (r.relocated_apply e).trans (ih _)
    · exact ih e

/-- A unit no row names is left as it is. -/
theorem rowsApplied_of_not_mem {rows : List Placement} {e : Entity}
    (h : e.id ∉ rows.map Placement.id) : rowsApplied rows e = e := by
  induction rows with
  | nil => rfl
  | cons r rs ih =>
    simp only [List.map_cons, List.mem_cons, not_or] at h
    simp only [rowsApplied, List.foldl_cons] at ih ⊢
    rw [if_neg (by simpa using h.1)]
    exact ih h.2

/-- When rows name distinct units, the one row naming a unit is the row applied to it. -/
theorem rowsApplied_of_mem {rows : List Placement} {r : Placement} {e : Entity}
    (hn : (rows.map Placement.id).Nodup) (hr : r ∈ rows) (he : r.id = e.id) :
    rowsApplied rows e = r.apply e := by
  induction rows generalizing e with
  | nil => cases hr
  | cons r₀ rs ih =>
    simp only [List.map_cons, List.nodup_cons] at hn
    simp only [rowsApplied, List.foldl_cons] at ih ⊢
    rcases List.mem_cons.1 hr with rfl | hr
    · rw [if_pos (by simp [he])]
      exact rowsApplied_of_not_mem (by simpa [he] using hn.1)
    · have hne : e.id ≠ r₀.id := by
        intro h
        exact hn.1 (by rw [← h, ← he]; exact List.mem_map_of_mem hr)
      rw [if_neg (by simpa using hne)]
      exact ih hn.2 hr he

/-- Writing cascade rows maps every unit to its relocation, in place. -/
theorem writeRows_entities (s : Store) (rows : List Placement) :
    (s.writeRows rows).entities = s.entities.map (rowsApplied rows) := by
  induction rows generalizing s with
  | nil => exact (List.map_id _).symm
  | cons r rs ih =>
    rw [writeRows, ih]
    simp only [modify, List.map_map]
    rfl

/-- Writing cascade rows hands out no identifier. -/
@[simp] theorem issued_writeRows (s : Store) (rows : List Placement) :
    (s.writeRows rows).issued = s.issued := by
  induction rows generalizing s with
  | nil => rfl
  | cons r rs ih => rw [writeRows, ih]; rfl

/-- After writing rows and then editing one unit, each unit is its rows applied, and the
edited unit gets its edit on top. -/
theorem entities_commit (s : Store) (rows : List Placement) (x : Ident) (g : Entity → Entity) :
    ((s.writeRows rows).modify x g).entities =
      s.entities.map (fun e => if e.id == x then g (rowsApplied rows e) else rowsApplied rows e) := by
  simp only [modify, writeRows_entities, List.map_map]
  refine List.map_congr_left fun e _ => ?_
  simp only [Function.comp, id_rowsApplied]

/-- A store whose units are those of `s` mapped by a function that keeps identifiers finds,
for every identifier, the image of what `s` finds. -/
theorem find?_of_map {s s' : Store} {g : Entity → Entity} (hg : ∀ e, (g e).id = e.id)
    (he : s'.entities = s.entities.map g) (x : Ident) : s'.find? x = (s.find? x).map g := by
  have keeps : ((fun e : Entity => e.id == x) ∘ g) = fun e => e.id == x := by
    funext e
    simp [hg]
  simp only [find?, he, List.find?_map, keeps]

/-- A lookup after writing rows finds the relocation of what it found before. -/
theorem find?_writeRows (s : Store) (rows : List Placement) (x : Ident) :
    (s.writeRows rows).find? x = (s.find? x).map (rowsApplied rows) :=
  find?_of_map (id_rowsApplied rows) (writeRows_entities s rows) x

/-- An insert succeeded: its checks passed and it placed its draft. -/
theorem insert_ok {d : Draft} {claim : Option NameClaim} {s s' : Store} {e : Entity} :
    (insert d claim).run s = .ok e s' ↔ s.allows d claim = .ok () ∧ s.place d = (e, s') := by
  unfold insert
  rw [run_getThe_bind, run_check_bind_ok]
  simp only [EStateM.run_modifyGet, EStateM.Result.ok.injEq, Prod.ext_iff]
  exact ⟨fun ⟨_, h, he, hs⟩ => ⟨h, he, hs⟩, fun ⟨h, he, hs⟩ => ⟨(), h, he, hs⟩⟩

/-- A commit succeeded: its checks passed, the rows were written and the head, found again,
was stamped. -/
theorem commit_ok {c : Change} {claim : Option NameClaim} {s s' : Store} {e : Entity}
    (h : (commit c claim).run s = .ok e s') :
    s.vet c claim = .ok () ∧ ∃ head, (s.writeRows c.cascade).find? c.id = some head ∧
      e = stamp c.edit head ∧ s' = (s.writeRows c.cascade).modify c.id (stamp c.edit) := by
  unfold commit at h
  rw [run_getThe_bind, run_check_bind_ok] at h
  obtain ⟨_, hv, h⟩ := h
  refine ⟨hv, ?_⟩
  simp only [EStateM.run_bind, run_modifyThe, run_getThe] at h
  split at h
  · rename_i head hh
    simp only [EStateM.run_bind, run_modifyThe, run_pure, EStateM.Result.ok.injEq] at h
    exact ⟨head, hh, h.1.symm, h.2.symm⟩
  · simp at h

end Store

/-! ## §3 The forest -/

namespace Forest

/-- A store write run on the forest succeeded because the store write did, and the forest
took its store. -/
theorem onStore_ok {α : Type} {m : InPlace Store α} {f f' : Forest} {a : α} :
    (onStore m).run f = .ok a f' ↔ ∃ s', m.run f.store = .ok a s' ∧ f' = f.withStore s' := by
  unfold onStore
  rw [run_getThe_bind]
  constructor
  · intro h
    split at h
    · rename_i a₀ s₀ hm
      simp only [EStateM.run_bind, run_set, run_pure, EStateM.Result.ok.injEq] at h
      exact ⟨s₀, h.1 ▸ hm, h.2.symm⟩
    · simp at h
  · rintro ⟨s', hm, rfl⟩
    simp [hm]

/-- A create succeeded: the request, its trimmed name, its parent, its depth and its name
claim all passed, and the store took the draft. -/
theorem create_ok {t : Ident} {actor : Option Ident} {r : CreateRequest} {f f' : Forest}
    {e : Entity} (h : (create t actor r).run f = .ok e f') :
    ∃ name parent path level, r.validate = .ok () ∧ f.settings.validateName r.name = .ok name ∧
      f.parentOf t r.parent = .ok parent ∧ f.settings.derive name parent = (path, level) ∧
      f.settings.checkDepth level = .ok () ∧
      f.ensureAvailable (f.claimFor name t r.parent none) = .ok () ∧
      ∃ s', (Store.insert ⟨t, name, r.kind, r.parent, path, level, r.metadata, actor⟩
        (f.claimFor name t r.parent none)).run f.store = .ok e s' ∧ f' = f.withStore s' := by
  unfold create at h
  rw [run_getThe_bind, run_check_bind_ok] at h
  obtain ⟨_, hv, h⟩ := h
  rw [run_check_bind_ok] at h
  obtain ⟨name, hn, h⟩ := h
  rw [run_check_bind_ok] at h
  obtain ⟨parent, hp, h⟩ := h
  split at h
  rename_i path level hd
  rw [run_check_bind_ok] at h
  obtain ⟨_, hdepth, h⟩ := h
  rw [run_check_bind_ok] at h
  obtain ⟨_, hfree, h⟩ := h
  exact ⟨name, parent, path, level, hv, hn, hp, hd, hdepth, hfree, onStore_ok.1 h⟩

/-- A rename succeeded: either the trimmed name was already the unit's and nothing changed,
or the claim and the parent passed, the cascade was planned, and one commit wrote it. -/
theorem rename_ok {t : Ident} {actor : Option Ident} {id : Ident} {newName : String}
    {f f' : Forest} {e : Entity} (h : (rename t actor id newName).run f = .ok e f') :
    ∃ name node, f.settings.validateName newName = .ok name ∧ f.store.getActive id t = .ok node ∧
      ((node.name = name ∧ e = node ∧ f' = f) ∨
       (node.name ≠ name ∧ f.ensureAvailable (f.claimFor name t node.parent (some id)) = .ok () ∧
        ∃ parent path level cascade, f.currentParent t node.parent = .ok parent ∧
          f.settings.derive name parent = (path, level) ∧
          f.planCascade node path level = .ok cascade ∧
          ∃ s', (Store.commit ⟨t, id, node.version,
              { name := some name, path := some path, level := some level, updatedBy := actor },
              cascade⟩ (f.claimFor name t node.parent (some id))).run f.store = .ok e s' ∧
            f' = f.withStore s')) := by
  unfold rename at h
  rw [run_getThe_bind, run_check_bind_ok] at h
  obtain ⟨name, hn, h⟩ := h
  rw [run_check_bind_ok] at h
  obtain ⟨node, hnode, h⟩ := h
  refine ⟨name, node, hn, hnode, ?_⟩
  split at h
  · rename_i hsame
    simp only [run_pure, EStateM.Result.ok.injEq] at h
    exact .inl ⟨by simpa using hsame, h.1.symm, h.2.symm⟩
  · rename_i hdiff
    rw [run_check_bind_ok] at h
    obtain ⟨_, hfree, h⟩ := h
    rw [run_check_bind_ok] at h
    obtain ⟨parent, hp, h⟩ := h
    split at h
    rename_i path level hd
    rw [run_check_bind_ok] at h
    obtain ⟨cascade, hc, h⟩ := h
    exact .inr ⟨by simpa using hdiff, hfree, parent, path, level, cascade, hp, hd, hc,
      onStore_ok.1 h⟩

/-- A move succeeded: the unit and its destination passed, and either the destination was
the current parent and nothing changed, or the depth and the claim passed, the cascade was
planned, and one commit wrote it. -/
theorem move_ok {t : Ident} {actor : Option Ident} {id : Ident} {target : Option Ident}
    {f f' : Forest} {e : Entity} (h : (move t actor id target).run f = .ok e f') :
    ∃ node parent, f.store.getActive id t = .ok node ∧ f.destination t id target = .ok parent ∧
      ((node.parent = target ∧ e = node ∧ f' = f) ∨
       (node.parent ≠ target ∧ ∃ path level cascade,
          f.settings.derive node.name parent = (path, level) ∧
          f.settings.checkDepth level = .ok () ∧
          f.ensureAvailable (f.claimFor node.name t target (some id)) = .ok () ∧
          f.planCascade node path level = .ok cascade ∧
          ∃ s', (Store.commit ⟨t, id, node.version,
              { parent := some target, path := some path, level := some level,
                updatedBy := actor }, cascade⟩
              (f.claimFor node.name t target (some id))).run f.store = .ok e s' ∧
            f' = f.withStore s')) := by
  unfold move at h
  rw [run_getThe_bind, run_check_bind_ok] at h
  obtain ⟨node, hnode, h⟩ := h
  rw [run_check_bind_ok] at h
  obtain ⟨parent, hp, h⟩ := h
  refine ⟨node, parent, hnode, hp, ?_⟩
  split at h
  · rename_i hsame
    simp only [run_pure, EStateM.Result.ok.injEq] at h
    exact .inl ⟨by simpa using hsame, h.1.symm, h.2.symm⟩
  · rename_i hdiff
    split at h
    rename_i path level hd
    rw [run_check_bind_ok] at h
    obtain ⟨_, hdepth, h⟩ := h
    rw [run_check_bind_ok] at h
    obtain ⟨_, hfree, h⟩ := h
    rw [run_check_bind_ok] at h
    obtain ⟨cascade, hc, h⟩ := h
    exact .inr ⟨by simpa using hdiff, path, level, cascade, hd, hdepth, hfree, hc, onStore_ok.1 h⟩

/-- A removal succeeded: the unit had no active children and no dependents, and one update
retired it. -/
theorem remove_ok {t : Ident} {actor : Option Ident} {id : Ident} {f f' : Forest} {e : Entity}
    (h : (remove t actor id).run f = .ok e f') :
    ∃ node, f.store.getActive id t = .ok node ∧ f.store.countChildren id t = 0 ∧
      f.dependents.count t id = 0 ∧ node.state.canBecome .inactive = true ∧
      ∃ s', (Store.update t id node.version { state := some .inactive, updatedBy := actor }).run
        f.store = .ok e s' ∧ f' = f.withStore s' := by
  unfold remove at h
  rw [run_getThe_bind, run_check_bind_ok] at h
  obtain ⟨node, hnode, h⟩ := h
  dsimp only at h
  split at h
  · simp at h
  split at h
  · simp at h
  split at h
  · simp at h
  rename_i hc hd hs
  exact ⟨node, hnode, by omega, by omega, by simpa using hs, onStore_ok.1 h⟩

/-- A read leaves the forest as it was. -/
theorem answer_ok {α : Type} {r : Forest → Except Fault α} {reply : α → Reply} {f f' : Forest}
    {x : Reply} (h : (answer r reply).run f = .ok x f') : f' = f := by
  unfold answer at h
  rw [run_getThe_bind, run_check_bind_ok] at h
  obtain ⟨_, _, h⟩ := h
  simp only [run_pure, EStateM.Result.ok.injEq] at h
  exact h.2.symm

/-! ## §4 Calls -/

/-- What a call did to the store: nothing (a read, a change of dependents, or a refusal), or
one successful create, rename, move or removal. Only a call setting a count of dependents
changes the counts, in its own tenant. -/
theorem after_cases (f : Forest) (c : Call) :
    ((f.after c).store = f.store ∧ (f.after c).settings = f.settings ∧
      ((f.after c).dependents = f.dependents ∨ ∃ x n, c.request = .setDependents x n ∧
        (f.after c).dependents = f.dependents.set c.tenant x n)) ∨
    (∃ r e, c.request = .create r ∧ (create c.tenant c.actor r).run f = .ok e (f.after c)) ∨
    (∃ id name e, c.request = .rename id name ∧
      (rename c.tenant c.actor id name).run f = .ok e (f.after c)) ∨
    (∃ id target e, c.request = .move id target ∧
      (move c.tenant c.actor id target).run f = .ok e (f.after c)) ∨
    (∃ id e, c.request = .remove id ∧ (remove c.tenant c.actor id).run f = .ok e (f.after c)) := by
  rcases hrun : (handle c).run f with ⟨x, f'⟩ | ⟨e, f'⟩
  · rw [after_of_ok hrun]
    unfold handle at hrun
    split at hrun
    · rename_i r hr
      obtain ⟨e, h, -⟩ := run_map_ok hrun
      exact .inr (.inl ⟨r, e, hr, h⟩)
    · exact .inl (by rw [answer_ok hrun]; simp)
    · exact .inl (by rw [answer_ok hrun]; simp)
    · exact .inl (by rw [answer_ok hrun]; simp)
    · rename_i id name hr
      obtain ⟨e, h, -⟩ := run_map_ok hrun
      exact .inr (.inr (.inl ⟨id, name, e, hr, h⟩))
    · rename_i id target hr
      obtain ⟨e, h, -⟩ := run_map_ok hrun
      exact .inr (.inr (.inr (.inl ⟨id, target, e, hr, h⟩)))
    · rename_i id hr
      obtain ⟨e, h, -⟩ := run_map_ok hrun
      exact .inr (.inr (.inr (.inr ⟨id, e, hr, h⟩)))
    · exact .inl (by rw [answer_ok hrun]; simp)
    · exact .inl (by rw [answer_ok hrun]; simp)
    · exact .inl (by rw [answer_ok hrun]; simp)
    · exact .inl (by rw [answer_ok hrun]; simp)
    · exact .inl (by rw [answer_ok hrun]; simp)
    · rename_i x n hr
      simp only [EStateM.run_bind, EStateM.run_modify, run_pure, EStateM.Result.ok.injEq] at hrun
      exact .inl (by rw [← hrun.2]; exact ⟨rfl, rfl, .inr ⟨x, n, hr, rfl⟩⟩)
  · exact .inl (by rw [after_of_error hrun]; simp)

/-- No call changes the settings. -/
theorem settings_after (f : Forest) (c : Call) : (f.after c).settings = f.settings := by
  rcases after_cases f c with ⟨-, h, -⟩ | ⟨r, e, -, h⟩ | ⟨id, name, e, -, h⟩ |
    ⟨id, target, e, -, h⟩ | ⟨id, e, -, h⟩
  · exact h
  · obtain ⟨_, _, _, _, _, _, _, _, _, _, s', -, hf⟩ := create_ok h
    rw [hf]; rfl
  · obtain ⟨_, _, _, _, ⟨-, -, hf⟩ | ⟨-, -, _, _, _, _, _, _, _, s', -, hf⟩⟩ := rename_ok h <;>
      simp [hf, withStore]
  · obtain ⟨_, _, _, _, ⟨-, -, hf⟩ | ⟨-, _, _, _, _, _, _, _, s', -, hf⟩⟩ := move_ok h <;>
      simp [hf, withStore]
  · obtain ⟨_, _, _, _, _, s', -, hf⟩ := remove_ok h
    rw [hf]; rfl

/-- Only a call that sets a count of dependents changes the counts, and it sets the count
in its own tenant. -/
theorem dependents_after (f : Forest) (c : Call) :
    (f.after c).dependents = f.dependents ∨
      ∃ x n, c.request = .setDependents x n ∧
        (f.after c).dependents = f.dependents.set c.tenant x n := by
  rcases after_cases f c with ⟨-, -, h⟩ | ⟨r, e, -, h⟩ | ⟨id, name, e, -, h⟩ |
    ⟨id, target, e, -, h⟩ | ⟨id, e, -, h⟩
  · exact h
  · obtain ⟨_, _, _, _, _, _, _, _, _, _, s', -, hf⟩ := create_ok h
    exact .inl (by rw [hf]; rfl)
  · obtain ⟨_, _, _, _, ⟨-, -, hf⟩ | ⟨-, -, _, _, _, _, _, _, _, s', -, hf⟩⟩ := rename_ok h <;>
      exact .inl (by simp [hf, withStore])
  · obtain ⟨_, _, _, _, ⟨-, -, hf⟩ | ⟨-, _, _, _, _, _, _, _, s', -, hf⟩⟩ := move_ok h <;>
      exact .inl (by simp [hf, withStore])
  · obtain ⟨_, _, _, _, _, s', -, hf⟩ := remove_ok h
    exact .inl (by rw [hf]; rfl)

/-- What a call does to the store alone: nothing, one new unit of the call's tenant, or a
commit of a change made in the call's tenant. -/
theorem store_after_cases (f : Forest) (c : Call) :
    (f.after c).store = f.store ∨
    (∃ d : Draft, d.tenant = c.tenant ∧ (f.after c).store = (f.store.place d).2) ∨
    (∃ (ch : Change) (claim : Option NameClaim) (e : Entity), ch.tenant = c.tenant ∧
      (Store.commit ch claim).run f.store = .ok e (f.after c).store) := by
  rcases after_cases f c with same | ⟨r, e, -, h⟩ | ⟨id, name, e, -, h⟩ | ⟨id, target, e, -, h⟩ |
    ⟨id, e, -, h⟩
  · exact .inl same.1
  · obtain ⟨_, _, _, _, -, -, -, -, -, -, s', hs, hf⟩ := create_ok h
    obtain ⟨-, hp⟩ := Store.insert_ok.1 hs
    refine .inr (.inl ⟨_, ?_, (congrArg Forest.store hf).trans (congrArg Prod.snd hp).symm⟩)
    rfl
  · obtain ⟨_, _, -, -, ⟨-, -, hf⟩ | ⟨-, -, _, _, _, _, -, -, -, s', hs, hf⟩⟩ := rename_ok h
    · exact .inl (by rw [hf])
    · exact .inr (.inr ⟨_, _, _, rfl, by rw [hf]; exact hs⟩)
  · obtain ⟨_, _, -, -, ⟨-, -, hf⟩ | ⟨-, _, _, _, -, -, -, -, s', hs, hf⟩⟩ := move_ok h
    · exact .inl (by rw [hf])
    · exact .inr (.inr ⟨_, _, _, rfl, by rw [hf]; exact hs⟩)
  · obtain ⟨_, -, -, -, -, s', hs, hf⟩ := remove_ok h
    exact .inr (.inr ⟨_, _, _, rfl, by rw [hf]; exact hs⟩)

/-- A reachable forest runs under the settings it started with. -/
theorem Reachable.settings_eq {st : Settings} {f : Forest} (h : Reachable st f) :
    f.settings = st := by
  induction h with
  | empty => rfl
  | after c _ ih => rw [settings_after, ih]

end Forest

end TenantForest
