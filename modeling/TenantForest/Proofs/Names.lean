import TenantForest.Proofs.Shape

/-!
# Names stay unique

The naming policy says where the names of active units must differ: across every tenant
(`global`), within a tenant (`tenant`), among the children of one parent of a tenant, the
roots counting as the children of none (`siblings`), or nowhere (`none`). Every write that
gives a unit a name or a parent first claims the name in the policy's scope, and the claim
is refused when an active unit other than the one written holds it. A create claims the
name at the requested parent, a rename at the unit's own parent, a move at its destination,
the last two excluding the unit itself; the shortcuts that change nothing claim nothing. So
no write makes two distinct active units clash, and in no reachable forest do two clash.

  §1 Clashes — what the policy forbids, read off tenant, parent and name.
  §2 Claims — a claim that passes leaves no active unit clashing with what it names.
  §3 Stores — unique names survive placing a unit whose claim passed, and a commit that
     renames, moves or retires one unit and relocates others.
  §4 Runs — every call keeps names unique, and so every reachable forest has them.
-/

namespace TenantForest

/-! ## §1 Clashes -/

/-- Two units that the policy forbids to be active together, whatever their identifiers. -/
def NamePolicy.Clash : NamePolicy → Entity → Entity → Prop
  | .global, a, b => a.name = b.name
  | .tenant, a, b => a.tenant = b.tenant ∧ a.name = b.name
  | .siblings, a, b => a.tenant = b.tenant ∧ a.parent = b.parent ∧ a.name = b.name
  | .none, _, _ => False

/-- Two units share tenant, parent and name: all that a clash reads. -/
def Entity.NamedAlike (a b : Entity) : Prop :=
  a.tenant = b.tenant ∧ a.parent = b.parent ∧ a.name = b.name

theorem Entity.NamedAlike.refl (e : Entity) : e.NamedAlike e := ⟨rfl, rfl, rfl⟩

/-- A relocated unit is named as before. -/
theorem Entity.Relocated.namedAlike {e e' : Entity} (h : e.Relocated e') : e'.NamedAlike e :=
  ⟨h.tenant_eq, h.parent_eq, h.name_eq⟩

namespace NamePolicy

variable {p : NamePolicy} {a b a' b' : Entity}

theorem Clash.symm (h : p.Clash a b) : p.Clash b a := by
  cases p <;> simp only [Clash] at h ⊢
  · exact h.symm
  · exact ⟨h.1.symm, h.2.symm⟩
  · exact ⟨h.1.symm, h.2.1.symm, h.2.2.symm⟩

/-- Whether two units clash depends on their tenants, parents and names only. -/
theorem clash_congr (ha : a'.NamedAlike a) (hb : b'.NamedAlike b) : p.Clash a' b' ↔ p.Clash a b := by
  obtain ⟨ht, hp, hn⟩ := ha
  obtain ⟨ht', hp', hn'⟩ := hb
  cases p <;> simp only [Clash, ht, hp, hn, ht', hp', hn']

end NamePolicy

namespace Store

/-- No two distinct active units of the store clash under the policy. -/
def NamesUnique (p : NamePolicy) (s : Store) : Prop :=
  ∀ a ∈ s.entities, ∀ b ∈ s.entities, a.isActive = true → b.isActive = true → a.id ≠ b.id →
    ¬ p.Clash a b

theorem namesUnique_empty (p : NamePolicy) : Store.empty.NamesUnique p :=
  fun _ h => absurd h List.not_mem_nil

end Store

/-! ## §2 Claims -/

namespace Forest

variable {f f' : Forest} {t : Ident} {actor : Option Ident} {e : Entity}

/-- A claim that passes is held by no active unit. -/
theorem not_heldBy_of_available {q : NameClaim} (h : f.ensureAvailable (some q) = .ok ())
    {b : Entity} (hb : b ∈ f.store.entities) (hact : b.isActive = true) : q.heldBy b = false := by
  simp only [ensureAvailable] at h
  split at h
  · cases h
  · rename_i hfree
    simp only [Store.nameInUse, List.any_eq_true, Bool.and_eq_true, not_exists, not_and] at hfree
    simpa using hfree b hb hact

/-- The claim a write makes for a unit of tenant `t` under `parent` named `name` passed: no
active unit but the excluded one clashes with such a unit under the forest's policy. -/
theorem not_clash_of_claim {name : String} {parent ex : Option Ident}
    (h : f.ensureAvailable (f.claimFor name t parent ex) = .ok ()) {b x : Entity}
    (hb : b ∈ f.store.entities) (hact : b.isActive = true) (hex : ex ≠ some b.id)
    (hx : x.tenant = t ∧ x.parent = parent ∧ x.name = name) : ¬ f.settings.policy.Clash b x := by
  obtain ⟨rfl, rfl, rfl⟩ := hx
  unfold claimFor at h
  -- each policy claims the name in the scope its clashes read
  cases hpol : f.settings.policy <;> simp only [hpol] at h <;> simp only [NamePolicy.Clash]
  · have held := not_heldBy_of_available h hb hact
    simp [NameClaim.heldBy, hex] at held
    exact held
  · have held := not_heldBy_of_available h hb hact
    simp [NameClaim.heldBy, hex] at held
    exact fun ⟨ht, hn⟩ => held hn ht
  · have held := not_heldBy_of_available h hb hact
    simp [NameClaim.heldBy, hex] at held
    exact fun ⟨ht, hp, hn⟩ => held hn ht hp
  · exact not_false

end Forest

/-! ## §3 Stores -/

namespace Store

variable {p : NamePolicy} {s s' : Store}

/-- Placing a unit that clashes with no active unit keeps names unique. -/
theorem NamesUnique.place (hu : s.NamesUnique p) (d : Draft)
    (hfree : ∀ b ∈ s.entities, b.isActive = true →
      ¬ p.Clash b (d.settle (Ident.serial (s.issued + 1)))) :
    (s.place d).2.NamesUnique p := by
  intro a ha b hb hact hbct hne hc
  rw [entities_place, List.mem_append, List.mem_singleton] at ha hb
  rcases ha with ha | rfl <;> rcases hb with hb | rfl
  · exact hu a ha b hb hact hbct hne hc
  · exact hfree a ha hact hc
  · exact hfree b hb hbct hc.symm
  · exact hne rfl

/-- A write that maps every unit keeps names unique when it keeps the naming and the state of
every unit but `x`, and leaves `x`, if active, clashing with no other active unit. -/
theorem NamesUnique.of_map (hu : s.NamesUnique p) {g : Entity → Entity} {x : Ident}
    (he : s'.entities = s.entities.map g) (hg : ∀ e, (g e).id = e.id)
    (hkeep : ∀ e ∈ s.entities, e.id ≠ x → (g e).NamedAlike e ∧ (g e).isActive = e.isActive)
    (hhead : ∀ e ∈ s.entities, e.id = x → (g e).isActive = true →
      ∀ b ∈ s.entities, b.isActive = true → b.id ≠ x → ¬ p.Clash b (g e)) :
    s'.NamesUnique p := by
  -- a pair of the head and another unit, from the head's side
  have head : ∀ a ∈ s.entities, ∀ b ∈ s.entities, a.id = x → b.id ≠ x →
      (g a).isActive = true → (g b).isActive = true → ¬ p.Clash (g a) (g b) := by
    intro a ha b hb hax hbx hact hbct hc
    obtain ⟨hbn, hbact⟩ := hkeep b hb hbx
    exact hhead a ha hax hact b hb (hbact ▸ hbct) hbx
      ((NamePolicy.clash_congr hbn (.refl _)).1 hc.symm)
  intro a' ha' b' hb' hact hbct hne hc
  rw [he] at ha' hb'
  obtain ⟨a, ha, rfl⟩ := List.mem_map.1 ha'
  obtain ⟨b, hb, rfl⟩ := List.mem_map.1 hb'
  rw [hg, hg] at hne
  by_cases hax : a.id = x <;> by_cases hbx : b.id = x
  · exact hne (hax.trans hbx.symm)
  · exact head a ha b hb hax hbx hact hbct hc
  · exact head b hb a ha hbx hax hbct hact hc.symm
  · obtain ⟨han, haact⟩ := hkeep a ha hax
    obtain ⟨hbn, hbact⟩ := hkeep b hb hbx
    exact hu a ha b hb (haact ▸ hact) (hbact ▸ hbct) hne ((NamePolicy.clash_congr han hbn).1 hc)

/-- A commit that edits the unit `x` of a keyed store and relocates others keeps names
unique when the edited unit, if still active, clashes with no other active unit. -/
theorem NamesUnique.commit (hu : s.NamesUnique p) (hk : s.Keyed) {x : Entity}
    (hx : x ∈ s.entities) (rows : List Placement) (c : Edit)
    (hhead : (stamp c (rowsApplied rows x)).isActive = true →
      ∀ b ∈ s.entities, b.isActive = true → b.id ≠ x.id →
        ¬ p.Clash b (stamp c (rowsApplied rows x))) :
    ((s.writeRows rows).modify x.id (stamp c)).NamesUnique p := by
  refine hu.of_map (entities_commit s rows x.id (stamp c)) (fun e => ?_)
    (fun e _ (hex : e.id ≠ x.id) => ?_) (fun e he (hex : e.id = x.id) => ?_)
  · by_cases hex : e.id = x.id <;> simp [hex, id_rowsApplied]
  · -- every other unit is only relocated
    have hrel := relocated_rowsApplied rows e
    simp only [beq_iff_eq, hex, if_false]
    exact ⟨hrel.namedAlike, by simp only [Entity.isActive, hrel.state_eq]⟩
  · rw [hk.eq_of_id_eq he hx hex]
    simpa using hhead

end Store

/-! ## §4 Runs -/

namespace Forest

open Store

variable {f f' : Forest} {t : Ident} {actor : Option Ident} {e : Entity}

/-- A create keeps names unique: the new unit's claim, at its requested parent, passed. -/
theorem namesUnique_create {r : CreateRequest} (hu : f.store.NamesUnique f.settings.policy)
    (h : (create t actor r).run f = .ok e f') : f'.store.NamesUnique f.settings.policy := by
  obtain ⟨name, _, _, _, -, -, -, -, -, hfree, s', hins, rfl⟩ := create_ok h
  obtain ⟨-, hplace⟩ := insert_ok.1 hins
  show s'.NamesUnique _
  rw [show s' = (f.store.place _).2 from (congrArg Prod.snd hplace).symm]
  exact hu.place _ fun b hb hact =>
    not_clash_of_claim hfree hb hact (by simp) ⟨rfl, rfl, rfl⟩

/-- A rename keeps names unique: the unit keeps its tenant and parent, and its new name's
claim, at that parent and excluding the unit, passed. -/
theorem namesUnique_rename {id : Ident} {newName : String} (hk : f.store.Keyed)
    (hu : f.store.NamesUnique f.settings.policy)
    (h : (rename t actor id newName).run f = .ok e f') : f'.store.NamesUnique f.settings.policy := by
  obtain ⟨name, node, -, hnode, ⟨-, -, rfl⟩ |
    ⟨-, hfree, _, _, _, cascade, -, -, -, s', hcommit, rfl⟩⟩ := rename_ok h
  · exact hu
  obtain ⟨-, -, -, -, rfl⟩ := commit_ok hcommit
  obtain ⟨hmem, rfl, hten, -⟩ := mem_of_active? (getActive_ok hnode)
  have hrel := relocated_rowsApplied cascade node
  refine hu.commit hk hmem cascade _ fun _ b hb hact hne =>
    not_clash_of_claim hfree hb hact (fun h => hne (Option.some.inj h).symm) ⟨?_, ?_, rfl⟩
  · simp [stamp, Edit.apply, hrel.tenant_eq, hten]
  · simp [stamp, Edit.apply, hrel.parent_eq]

/-- A move keeps names unique: the unit keeps its tenant and name, and its claim, at the
destination and excluding the unit, passed. -/
theorem namesUnique_move {id : Ident} {target : Option Ident} (hk : f.store.Keyed)
    (hu : f.store.NamesUnique f.settings.policy)
    (h : (move t actor id target).run f = .ok e f') : f'.store.NamesUnique f.settings.policy := by
  obtain ⟨node, _, hnode, -, ⟨-, -, rfl⟩ |
    ⟨-, _, _, cascade, -, -, hfree, -, s', hcommit, rfl⟩⟩ := move_ok h
  · exact hu
  obtain ⟨-, -, -, -, rfl⟩ := commit_ok hcommit
  obtain ⟨hmem, rfl, hten, -⟩ := mem_of_active? (getActive_ok hnode)
  have hrel := relocated_rowsApplied cascade node
  refine hu.commit hk hmem cascade _ fun _ b hb hact hne =>
    not_clash_of_claim hfree hb hact (fun h => hne (Option.some.inj h).symm) ⟨?_, rfl, ?_⟩
  · simp [stamp, Edit.apply, hrel.tenant_eq, hten]
  · simp [stamp, Edit.apply, hrel.name_eq]

/-- A removal keeps names unique: the retired unit is no longer active. -/
theorem namesUnique_remove {id : Ident} (hk : f.store.Keyed)
    (hu : f.store.NamesUnique f.settings.policy)
    (h : (remove t actor id).run f = .ok e f') : f'.store.NamesUnique f.settings.policy := by
  obtain ⟨node, hnode, -, -, -, s', hupd, rfl⟩ := remove_ok h
  obtain ⟨-, -, -, -, rfl⟩ := commit_ok hupd
  obtain ⟨hmem, rfl, -, -⟩ := mem_of_active? (getActive_ok hnode)
  refine hu.commit hk hmem [] _ fun hact => ?_
  simp [stamp, Edit.apply, Entity.isActive, Lifecycle.isActive] at hact

/-- Every call keeps names unique under the forest's policy. -/
theorem namesUnique_after (hk : f.store.Keyed) (hu : f.store.NamesUnique f.settings.policy)
    (c : Call) : (f.after c).store.NamesUnique f.settings.policy := by
  rcases after_cases f c with same | ⟨r, e, -, h⟩ | ⟨id, name, e, -, h⟩ |
    ⟨id, target, e, -, h⟩ | ⟨id, e, -, h⟩
  · rw [same.1]
    exact hu
  · exact namesUnique_create hu h
  · exact namesUnique_rename hk hu h
  · exact namesUnique_move hk hu h
  · exact namesUnique_remove hk hu h

/-- Every reachable forest has unique names under its policy. -/
theorem Reachable.namesUnique {st : Settings} (h : Reachable st f) :
    f.store.NamesUnique st.policy := by
  induction h with
  | empty => exact namesUnique_empty _
  | @after f c hr ih =>
    have hst : f.settings = st := hr.settings_eq
    have step := namesUnique_after hr.keyed (hst ▸ ih) c
    rwa [hst] at step

/-- In every reachable forest, two distinct active units never share what the policy keeps
apart: tenant, parent and name under `siblings`, tenant and name under `tenant`, and name
under `global`. -/
theorem reachable_names_follow_policy {st : Settings} (hf : Reachable st f) :
    ∀ a ∈ f.store.entities, ∀ b ∈ f.store.entities, a.isActive = true → b.isActive = true →
      a ≠ b →
      (st.policy = .siblings → ¬ (a.tenant = b.tenant ∧ a.parent = b.parent ∧ a.name = b.name)) ∧
      (st.policy = .tenant → ¬ (a.tenant = b.tenant ∧ a.name = b.name)) ∧
      (st.policy = .global → a.name ≠ b.name) := by
  intro a ha b hb hact hbct hne
  -- distinct units of a keyed store have distinct identifiers
  have hid : a.id ≠ b.id := fun h => hne (hf.keyed.eq_of_id_eq ha hb h)
  have hu := hf.namesUnique a ha b hb hact hbct hid
  refine ⟨fun hp => ?_, fun hp => ?_, fun hp => ?_⟩ <;> simpa [hp, NamePolicy.Clash] using hu

/-- Two roots of one tenant, created one after the other under the default settings. -/
def acmeBetaForest : Forest :=
  ((Forest.empty {}).after { tenant := Ident.ofNat 7, request := .create { name := "Acme" } }).after
    { tenant := Ident.ofNat 7, request := .create { name := "Beta" } }

theorem acme_beta_names_follow_policy :
    Reachable {} acmeBetaForest ∧ acmeBetaForest.store.entities.map Entity.name = ["Acme", "Beta"] ∧
      ∀ a ∈ acmeBetaForest.store.entities, ∀ b ∈ acmeBetaForest.store.entities,
        a.isActive = true → b.isActive = true → a ≠ b →
        (({} : Settings).policy = .siblings →
          ¬ (a.tenant = b.tenant ∧ a.parent = b.parent ∧ a.name = b.name)) ∧
        (({} : Settings).policy = .tenant → ¬ (a.tenant = b.tenant ∧ a.name = b.name)) ∧
        (({} : Settings).policy = .global → a.name ≠ b.name) :=
  ⟨.after _ (.after _ .empty), by decide,
    reachable_names_follow_policy (.after _ (.after _ .empty))⟩

end Forest

end TenantForest
