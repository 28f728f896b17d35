import TenantForest.Proofs.MoveDecision
import TenantForest.Proofs.Isolation

/-!
# How a create is decided

A create request for tenant `t` makes its checks in a fixed order, and the first that fails
decides the answer. On every forest, reachable or not, each check reads as a condition on the
request and the forest, and `CreateVerdict` lists them, first match first:

1. the request has no name at all, or its metadata is no object: a validation fault whose
   message starts `Invalid entity: `;
2. the trimmed name is blank, longer than the name length limit (in Unicode scalar values),
   or holds the trimmed separator: a validation fault;
3. the requested parent is no active unit of `t`: a cross-tenant fault when it is an active
   unit of another tenant, a not-found fault otherwise;
4. the level derived below the parent (one more than the parent's, 0 for a root) is beyond
   the maximum depth: a validation fault naming both;
5. an active unit clashes with the trimmed name at the requested parent under the naming
   policy: a conflict naming the name and the policy;
6. otherwise one unit is added at the end of the store, under the next serial identifier,
   with the trimmed name, the kind, parent and metadata of the request, the path and level
   derived below the parent, version 1, state active and the actor as creator and last
   writer; the identifier counter goes up by one and nothing else changes.

The store repeats two of the forest's checks when it takes the unit, the claim and the
parent, and both pass again, so a create that passes the forest's checks is never refused by
the store. A refused create leaves the forest as it was.

Main statement: `create_follows_decision_list`.

  §1 The checks — what each check of a create asks of the request and the forest.
  §2 The decision list.
-/

namespace TenantForest

/-! ## §1 The checks -/

namespace CreateRequest

variable {r : CreateRequest} {e : Fault}

/-- A request passes its own checks exactly when its name has a character and its metadata is
an object. -/
theorem validate_eq_ok_iff : r.validate = .ok () ↔ r.name ≠ "" ∧ r.metadata.isRecord = true := by
  unfold validate
  by_cases hn : r.name.isEmpty = true
  · simp [String.isEmpty_iff.1 hn]
  · have hne : r.name ≠ "" := fun h => hn (String.isEmpty_iff.2 h)
    by_cases hm : r.metadata.isRecord = true
    · simp [hn, hm, hne]
    · simp [hn, hm]

/-- A request its own checks refuse has no name or metadata that is no object, and the fault is
a validation fault whose message starts `Invalid entity: `. -/
theorem invalid_of_validate_error (h : r.validate = .error e) :
    (r.name = "" ∨ r.metadata.isRecord = false) ∧ e.category = .validation ∧
      ∃ detail, e.message = "Invalid entity: " ++ detail := by
  unfold validate at h
  split at h
  · rename_i hn
    cases h
    exact ⟨.inl (String.isEmpty_iff.1 hn), rfl, "name: Entity name is required", rfl⟩
  · split at h
    · rename_i hm
      cases h
      exact ⟨.inr (by simpa using hm), rfl, "metadata: Metadata must be a JSON object", rfl⟩
    · cases h

end CreateRequest

namespace Settings

variable {st : Settings} {name name' : String} {e : Fault}

/-- A name the settings accept: once trimmed it is not blank, has at most `maxNameLength`
characters and does not hold the trimmed separator. -/
def Accepts (st : Settings) (name : String) : Prop :=
  Text.trim name ≠ "" ∧ (Text.trim name).length ≤ st.maxNameLength ∧
    Text.contains (Text.trim name) (Text.trim st.separator) = false

/-- A name passes validation exactly when the settings accept it, and it is then trimmed. -/
theorem validateName_eq_ok_iff : st.validateName name = .ok name' ↔
    st.Accepts name ∧ name' = Text.trim name := by
  unfold validateName Accepts
  dsimp only
  split_ifs with hblank hlong hsep
  · simp [String.isEmpty_iff.1 hblank]
  · simp only [false_iff, not_and]
    intro _ hle
    omega
  · simp [hsep]
  · simp only [Except.ok.injEq, eq_comm, iff_and_self]
    intro _
    exact ⟨fun h => hblank (String.isEmpty_iff.2 h), by omega, by simpa using hsep⟩

/-- A name validation refuses only names the settings do not accept, with a validation
fault. -/
theorem not_accepts_of_validateName_error (h : st.validateName name = .error e) :
    ¬ st.Accepts name ∧ e.category = .validation := by
  refine ⟨fun hacc => ?_, ?_⟩
  · have hok := validateName_eq_ok_iff.2 ⟨hacc, rfl⟩
    rw [h] at hok
    cases hok
  · unfold validateName at h
    dsimp only at h
    split_ifs at h <;> cases h <;> rfl

end Settings

namespace Forest

open Store

variable {f : Forest} {t : Ident} {e : Fault}

/-- A requested parent that does not resolve is named, is no active unit of the tenant, and is
refused as belonging to another tenant when it is active in one, as missing otherwise. -/
theorem parentOf_error_cases {o : Option Ident} (h : f.parentOf t o = .error e) :
    ∃ p, o = some p ∧ f.store.active? p t = none ∧
      ((e = .parentElsewhere p ∧ ∃ u, u ≠ t ∧ (f.store.active? p u).isSome) ∨
        (e = .parentMissing p ∧ ∀ u, f.store.active? p u = none)) := by
  cases o with
  | none => cases h
  | some p =>
    simp only [parentOf] at h
    cases hP : f.store.active? p t with
    | some P =>
      have hr : f.resolveParent p t = .ok P := by simp [resolveParent, hP]
      simp [hr, Except.map] at h
    | none =>
      refine ⟨p, rfl, hP, ?_⟩
      rcases resolveParent_of_none hP with ⟨hr, hother⟩ | ⟨hr, hnone⟩
      · simp only [hr, Except.map, Except.error.injEq] at h
        exact .inl ⟨h.symm, hother⟩
      · simp only [hr, Except.map, Except.error.injEq] at h
        exact .inr ⟨h.symm, hnone⟩

/-- A create refused by a check is refused with that check's fault, and leaves the forest:
the request's own checks, then the name, the parent, the depth and the claim. -/
theorem create_run_of_validate_error {actor : Option Ident} {r : CreateRequest}
    (h : r.validate = .error e) : (create t actor r).run f = .error e f := by
  unfold create
  rw [InPlace.run_getThe_bind, h, InPlace.check_error_bind, InPlace.run_throw]

theorem create_run_of_validateName_error {actor : Option Ident} {r : CreateRequest}
    (hv : r.validate = .ok ()) (h : f.settings.validateName r.name = .error e) :
    (create t actor r).run f = .error e f := by
  unfold create
  rw [InPlace.run_getThe_bind, hv, InPlace.check_ok_bind, h, InPlace.check_error_bind,
    InPlace.run_throw]

theorem create_run_of_parentOf_error {actor : Option Ident} {r : CreateRequest} {name : String}
    (hv : r.validate = .ok ()) (hn : f.settings.validateName r.name = .ok name)
    (h : f.parentOf t r.parent = .error e) : (create t actor r).run f = .error e f := by
  unfold create
  rw [InPlace.run_getThe_bind, hv, InPlace.check_ok_bind, hn, InPlace.check_ok_bind, h,
    InPlace.check_error_bind, InPlace.run_throw]

theorem create_run_of_checkDepth_error {actor : Option Ident} {r : CreateRequest} {name : String}
    {parent : Option Entity} {path : String} {level : Int} (hv : r.validate = .ok ())
    (hn : f.settings.validateName r.name = .ok name) (hp : f.parentOf t r.parent = .ok parent)
    (hd : f.settings.derive name parent = (path, level))
    (h : f.settings.checkDepth level = .error e) : (create t actor r).run f = .error e f := by
  unfold create
  rw [InPlace.run_getThe_bind, hv, InPlace.check_ok_bind, hn, InPlace.check_ok_bind, hp,
    InPlace.check_ok_bind]
  simp only [hd, h, InPlace.check_error_bind, InPlace.run_throw]

theorem create_run_of_claim_error {actor : Option Ident} {r : CreateRequest} {name : String}
    {parent : Option Entity} {path : String} {level : Int} (hv : r.validate = .ok ())
    (hn : f.settings.validateName r.name = .ok name) (hp : f.parentOf t r.parent = .ok parent)
    (hd : f.settings.derive name parent = (path, level))
    (hdepth : f.settings.checkDepth level = .ok ())
    (h : f.ensureAvailable (f.claimFor name t r.parent none) = .error e) :
    (create t actor r).run f = .error e f := by
  unfold create
  rw [InPlace.run_getThe_bind, hv, InPlace.check_ok_bind, hn, InPlace.check_ok_bind, hp,
    InPlace.check_ok_bind]
  simp only [hd, hdepth, h, InPlace.check_ok_bind, InPlace.check_error_bind, InPlace.run_throw]

/-- The unit a create of `r` in tenant `t` on behalf of `actor` adds below `q`: the next serial
identifier, the trimmed name, the request's kind, parent and metadata, the path and level
derived below `q`, version 1, active, created and last written by the actor. -/
def createdUnit (f : Forest) (t : Ident) (actor : Option Ident) (r : CreateRequest)
    (q : Option Entity) : Entity :=
  { id := Ident.serial (f.store.issued + 1), tenant := t, name := Text.trim r.name,
    kind := r.kind, parent := r.parent, path := (f.settings.derive (Text.trim r.name) q).1,
    level := (f.settings.derive (Text.trim r.name) q).2, metadata := r.metadata,
    state := .active, version := 1, createdBy := actor, updatedBy := actor }

/-- A create whose checks all pass adds its unit at the end of the store and hands out one
identifier: the store takes the claim and the parent the forest has just checked. -/
theorem create_run_of_passed {actor : Option Ident} {r : CreateRequest} {q : Option Entity}
    (hv : r.validate = .ok ()) (hacc : f.settings.Accepts r.name)
    (hp : f.parentOf t r.parent = .ok q)
    (hdepth : f.settings.checkDepth (f.settings.derive (Text.trim r.name) q).2 = .ok ())
    (hfree : f.ensureAvailable (f.claimFor (Text.trim r.name) t r.parent none) = .ok ()) :
    (create t actor r).run f = .ok (f.createdUnit t actor r q)
      (f.withStore ⟨f.store.entities ++ [f.createdUnit t actor r q], f.store.issued + 1⟩) := by
  have hn : f.settings.validateName r.name = .ok (Text.trim r.name) :=
    Settings.validateName_eq_ok_iff.2 ⟨hacc, rfl⟩
  rw [create_run_of_checks hv hn hp rfl hdepth hfree]
  refine onStore_ok.2 ⟨_, Store.insert_ok.2 ⟨?_, rfl⟩, rfl⟩
  -- the store's checks: the claim the forest let pass, and the parent it resolved
  have hres := parentOf_ok hp
  simp only [Store.allows, checkClaim_of_ensureAvailable hfree, bind, Except.bind]
  cases hpar : r.parent with
  | none => rfl
  | some p =>
    rw [hpar] at hres
    cases q with
    | none => cases hres
    | some P =>
      have hP : f.store.active? p t = some P := hres
      simp [hP, pure, Except.pure]

/-! ## §2 The decision list -/

/-- What a create of `r` in tenant `t` on behalf of `actor` answers on forest `f`, rule by rule,
first match first. -/
inductive CreateVerdict (f : Forest) (t : Ident) (actor : Option Ident) (r : CreateRequest) :
    EStateM.Result Fault Forest Entity → Prop
  /-- The request has no name, or its metadata is no object. -/
  | invalid {e : Fault} : (r.name = "" ∨ r.metadata.isRecord = false) →
      e.category = .validation → (∃ detail, e.message = "Invalid entity: " ++ detail) →
      CreateVerdict f t actor r (.error e f)
  /-- The trimmed name is blank, too long or holds the trimmed separator. -/
  | badName {e : Fault} : r.name ≠ "" → r.metadata.isRecord = true →
      ¬ f.settings.Accepts r.name → e.category = .validation →
      CreateVerdict f t actor r (.error e f)
  /-- The requested parent is an active unit of another tenant. -/
  | parentElsewhere {p u : Ident} : r.name ≠ "" → r.metadata.isRecord = true →
      f.settings.Accepts r.name → r.parent = some p → f.store.active? p t = none → u ≠ t →
      (f.store.active? p u).isSome →
      CreateVerdict f t actor r (.error (.parentElsewhere p) f)
  /-- The requested parent is no active unit of any tenant. -/
  | parentMissing {p : Ident} : r.name ≠ "" → r.metadata.isRecord = true →
      f.settings.Accepts r.name → r.parent = some p → (∀ u, f.store.active? p u = none) →
      CreateVerdict f t actor r (.error (.parentMissing p) f)
  /-- The unit would sit deeper than the maximum depth. -/
  | tooDeep {q : Option Entity} : r.name ≠ "" → r.metadata.isRecord = true →
      f.settings.Accepts r.name → f.store.Resolves t r.parent q →
      f.settings.maxDepth < (f.createdUnit t actor r q).level →
      CreateVerdict f t actor r
        (.error (.tooDeep (f.createdUnit t actor r q).level f.settings.maxDepth) f)
  /-- An active unit clashes with the new unit's name under the policy. -/
  | nameTaken {q : Option Entity} : r.name ≠ "" → r.metadata.isRecord = true →
      f.settings.Accepts r.name → f.store.Resolves t r.parent q →
      (f.createdUnit t actor r q).level ≤ f.settings.maxDepth →
      (∃ b ∈ f.store.entities, b.isActive = true ∧
        f.settings.policy.Clash b (f.createdUnit t actor r q)) →
      CreateVerdict f t actor r
        (.error (.nameTaken (Text.trim r.name) f.settings.policy.name) f)
  /-- The unit is added at the end of the store under the next identifier. -/
  | created {q : Option Entity} : r.name ≠ "" → r.metadata.isRecord = true →
      f.settings.Accepts r.name → f.store.Resolves t r.parent q →
      (f.createdUnit t actor r q).level ≤ f.settings.maxDepth →
      ¬ (∃ b ∈ f.store.entities, b.isActive = true ∧
        f.settings.policy.Clash b (f.createdUnit t actor r q)) →
      CreateVerdict f t actor r (.ok (f.createdUnit t actor r q)
        (f.withStore ⟨f.store.entities ++ [f.createdUnit t actor r q], f.store.issued + 1⟩))

/-- **How a create is decided.** On every forest, a create of `r` in tenant `t` on behalf of
`actor` answers as the decision list says: a request without a name or with metadata that is
no object is refused as invalid; then a name the settings do not accept; then a parent that is
no active unit of the tenant, as belonging to another tenant or as missing; then a unit that
would sit too deep; then a name that clashes under the policy at the requested parent; and
otherwise exactly one unit is added, under the next identifier, with everything else left as
it was. -/
theorem create_follows_decision_list (f : Forest) (t : Ident) (actor : Option Ident)
    (r : CreateRequest) : CreateVerdict f t actor r ((create t actor r).run f) := by
  -- rule 1: the request's own checks
  cases hv : r.validate with
  | error e =>
    obtain ⟨hbad, hcat, hmsg⟩ := CreateRequest.invalid_of_validate_error hv
    exact create_run_of_validate_error hv ▸ .invalid hbad hcat hmsg
  | ok u =>
  obtain ⟨hname, hmeta⟩ := CreateRequest.validate_eq_ok_iff.1 hv
  -- rule 2: the trimmed name
  cases hn : f.settings.validateName r.name with
  | error e =>
    obtain ⟨hnacc, hcat⟩ := Settings.not_accepts_of_validateName_error hn
    exact create_run_of_validateName_error hv hn ▸ .badName hname hmeta hnacc hcat
  | ok name =>
  obtain ⟨hacc, rfl⟩ := Settings.validateName_eq_ok_iff.1 hn
  -- rule 3: the parent
  cases hp : f.parentOf t r.parent with
  | error e =>
    rw [create_run_of_parentOf_error hv hn hp]
    obtain ⟨p, hpar, hnot, ⟨rfl, u, hu, hsome⟩ | ⟨rfl, hnone⟩⟩ := parentOf_error_cases hp
    · exact .parentElsewhere hname hmeta hacc hpar hnot hu hsome
    · exact .parentMissing hname hmeta hacc hpar hnone
  | ok q =>
  have hres := parentOf_ok hp
  have hder : f.settings.derive (Text.trim r.name) q =
      ((f.createdUnit t actor r q).path, (f.createdUnit t actor r q).level) := rfl
  -- rule 4: the depth
  cases hd : f.settings.checkDepth (f.createdUnit t actor r q).level with
  | error e =>
    obtain ⟨rfl, hdeep⟩ := Settings.checkDepth_error_eq hd
    exact create_run_of_checkDepth_error hv hn hp hder hd ▸ .tooDeep hname hmeta hacc hres hdeep
  | ok u' =>
  have hlevel : (f.createdUnit t actor r q).level ≤ f.settings.maxDepth := checkDepth_ok hd
  -- rule 5: the name claim at the requested parent; then the unit is added
  cases hc : f.ensureAvailable (f.claimFor (Text.trim r.name) t r.parent none) with
  | error e =>
    obtain ⟨rfl, b, hb, hact, -, hclash⟩ :=
      claim_error_clash (x := f.createdUnit t actor r q) ⟨rfl, rfl, rfl⟩ hc
    rw [create_run_of_claim_error hv hn hp hder hd hc]
    exact .nameTaken hname hmeta hacc hres hlevel ⟨b, hb, hact, hclash⟩
  | ok u'' =>
    rw [create_run_of_passed hv hacc hp hd hc]
    refine .created hname hmeta hacc hres hlevel fun ⟨b, hb, hact, hclash⟩ => ?_
    exact not_clash_of_claim hc hb hact (by simp) ⟨rfl, rfl, rfl⟩ hclash

end Forest

end TenantForest
