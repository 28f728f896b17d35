import Mathlib
import TenantForest.Service.Run

/-!
# Refusals leave no trace

Every write of the forest runs in place: it reads the forest, makes its checks and writes,
and a refusal leaves the forest as it stands at that moment. A computation is
*all or nothing* from a state when every refusal from that state leaves the state exactly
as it was.

Main statement: `refused_action_leaves_forest`. Whatever the forest, corrupt or not, an
action that is refused (a call to the service, a store insert, a store commit, or an
update, which is a commit) leaves the forest as it was: its store, with every unit in every
field, their order and the identifier counter, and its dependents. In particular a refused
create draws no identifier.

The proof is compositional.

  §1 Combinators — a check reads nothing and writes nothing, and reading the state
     changes nothing, so a check or a read followed by an all-or-nothing computation is
     all or nothing; mapping the value changes nothing.
  §2 The store — `insert` writes only after its check. `commit` writes the cascade rows
     first and looks the head up again afterwards; that second lookup cannot fail, because
     the head passed its version check and writing rows keeps every unit in place
     (`find?_writeRows_isSome`). So the only refusals of a commit are its checks.
  §3 The forest — each service write is a chain of checks ending in one store write;
     `onStore` hands a refusal of the store back unchanged.
  §4 Calls and actions — case analysis on the request, and the consequence for `after`
     that the invariants of reachable forests rest on.
-/

namespace TenantForest

namespace InPlace

variable {σ α β : Type}

/-- Run from `s`, every refusal of `m` leaves the state `s`. -/
def AllOrNothingAt (s : σ) (m : InPlace σ α) : Prop :=
  ∀ e s', m.run s = .error e s' → s' = s

/-- From every state, every refusal of `m` leaves the state as it was. -/
def AllOrNothing (m : InPlace σ α) : Prop :=
  ∀ s, AllOrNothingAt s m

/-! ## §1 Combinators -/

namespace AllOrNothingAt

variable {s : σ}

/-- A computation that succeeds is never refused. -/
theorem of_ok {m : InPlace σ α} {a : α} {s' : σ} (h : m.run s = .ok a s') :
    AllOrNothingAt s m := by
  intro e s'' h'
  rw [h] at h'
  cases h'

/-- A bare refusal writes nothing. -/
theorem throw (e : Fault) : AllOrNothingAt s (throw e : InPlace σ α) := by
  intro e' s' h
  simp only [run_throw, EStateM.Result.error.injEq] at h
  exact h.2.symm

/-- A check, then a computation that is all or nothing whenever the check passes. -/
theorem check_bind {r : Except Fault α} {g : α → InPlace σ β}
    (hg : ∀ a, r = .ok a → AllOrNothingAt s (g a)) : AllOrNothingAt s (check r >>= g) := by
  intro e s' h
  cases r with
  | error e₀ =>
    simp only [EStateM.run_bind, run_check_error, EStateM.Result.error.injEq] at h
    exact h.2.symm
  | ok a => exact hg a rfl e s' (by simpa using h)

/-- Reading the state, then a computation that is all or nothing from it. -/
theorem get_bind {g : σ → InPlace σ β} (hg : AllOrNothingAt s (g s)) :
    AllOrNothingAt s (getThe σ >>= g) := by
  intro e s' h
  exact hg e s' (by simpa using h)

/-- Mapping the value keeps a computation all or nothing. -/
theorem map (f : α → β) {m : InPlace σ α} (hm : AllOrNothingAt s m) :
    AllOrNothingAt s (f <$> m) := by
  intro e s' h
  rw [run_map] at h
  split at h
  · cases h
  · rename_i e₀ s₀ hm₀
    simp only [EStateM.Result.error.injEq] at h
    exact h.2 ▸ hm e₀ s₀ hm₀

end AllOrNothingAt

end InPlace

open InPlace

/-! ## §2 The store -/

namespace Store

/-- Writing cascade rows keeps every unit in place: a unit is found after the rows are
written exactly when it was found before. -/
theorem find?_writeRows_isSome (s : Store) (rows : List Placement) (x : Ident) :
    ((s.writeRows rows).find? x).isSome = (s.find? x).isSome := by
  induction rows generalizing s with
  | nil => rfl
  | cons r rs ih =>
    rw [writeRows, ih, find?_modify (Placement.id_apply r)]
    cases s.find? x <;> rfl

/-- A version check that passes found the unit active in the tenant. -/
theorem active?_of_checkVersion {s : Store} {id t : Ident} {expected : Int}
    (h : s.checkVersion id t expected = .ok ()) : ∃ e, s.active? id t = some e := by
  unfold checkVersion at h
  split at h
  · cases h
  · exact ⟨_, by assumption⟩

/-- Rows that pass their checks name active units of the tenant they were checked in. -/
theorem active?_of_checkRows {s : Store} {t : Ident} {rows : List Placement}
    (h : s.checkRows t rows = .ok ()) : ∀ r ∈ rows, ∃ e, s.active? r.id t = some e := by
  induction rows with
  | nil => simp
  | cons r rs ih =>
    unfold checkRows at h
    split at h
    · cases h
    · rename_i hv
      intro r' hr'
      rcases List.mem_cons.1 hr' with rfl | hr'
      · exact active?_of_checkVersion hv
      · exact ih h r' hr'

/-- The checks of a commit that pass found the head active in the change's tenant, and
passed every row. -/
theorem vet_ok {s : Store} {c : Change} {claim : Option NameClaim} (h : s.vet c claim = .ok ()) :
    (∃ e, s.active? c.id c.tenant = some e) ∧ s.checkRows c.tenant c.cascade = .ok () := by
  simp only [vet, bind, Except.bind] at h
  split at h
  · cases h
  · split at h
    · cases h
    · rename_i hv
      exact ⟨active?_of_checkVersion hv, h⟩

/-- A change that passes the checks of a commit has its head stored. -/
theorem find?_isSome_of_vet {s : Store} {c : Change} {claim : Option NameClaim}
    (h : s.vet c claim = .ok ()) : (s.find? c.id).isSome := by
  obtain ⟨e, he⟩ := (vet_ok h).1
  simp only [active?] at he
  simp [Option.eq_some_of_filter_eq_some he]

/-- An insert writes only once its check has passed. -/
theorem allOrNothing_insert (d : Draft) (claim : Option NameClaim) :
    AllOrNothing (insert d claim) := by
  intro s
  unfold insert
  exact AllOrNothingAt.get_bind (AllOrNothingAt.check_bind fun _ _ => AllOrNothingAt.of_ok rfl)

/-- A commit that passes its checks is never refused afterwards: the head it looks up
again after writing the cascade rows is still there. -/
theorem allOrNothing_commit (c : Change) (claim : Option NameClaim) :
    AllOrNothing (commit c claim) := by
  intro s
  unfold commit
  refine AllOrNothingAt.get_bind (AllOrNothingAt.check_bind fun _ hv => ?_)
  obtain ⟨head, hh⟩ := Option.isSome_iff_exists.1
    ((find?_writeRows_isSome s c.cascade c.id).trans (find?_isSome_of_vet hv))
  intro e s' h
  simp [hh] at h

end Store

/-! ## §3 The forest -/

namespace Forest

/-- A store write run on the forest's store is all or nothing when the store write is. -/
theorem allOrNothing_onStore {α : Type} {m : InPlace Store α} {f : Forest}
    (hm : AllOrNothingAt f.store m) : AllOrNothingAt f (onStore m) := by
  unfold onStore
  refine AllOrNothingAt.get_bind ?_
  intro e f' h
  split at h
  · simp at h
  · rename_i e₀ s₀ hs
    simp only [EStateM.run_bind, EStateM.run_set, run_throw, EStateM.Result.error.injEq] at h
    rw [← h.2, hm e₀ s₀ hs]
    rfl

/-- A create makes its checks, then one store insert. -/
theorem allOrNothing_create (t : Ident) (actor : Option Ident) (r : CreateRequest) :
    AllOrNothing (create t actor r) := by
  intro f
  unfold create
  refine AllOrNothingAt.get_bind (AllOrNothingAt.check_bind fun _ _ =>
    AllOrNothingAt.check_bind fun name _ => AllOrNothingAt.check_bind fun parent _ => ?_)
  split
  exact AllOrNothingAt.check_bind fun _ _ => AllOrNothingAt.check_bind fun _ _ =>
    allOrNothing_onStore (Store.allOrNothing_insert _ _ _)

/-- A rename makes its checks and plans its cascade, then one store commit; renaming to
the current name writes nothing. -/
theorem allOrNothing_rename (t : Ident) (actor : Option Ident) (id : Ident) (name : String) :
    AllOrNothing (rename t actor id name) := by
  intro f
  unfold rename
  refine AllOrNothingAt.get_bind (AllOrNothingAt.check_bind fun name _ =>
    AllOrNothingAt.check_bind fun node _ => ?_)
  split
  · exact AllOrNothingAt.of_ok rfl
  · refine AllOrNothingAt.check_bind fun _ _ => AllOrNothingAt.check_bind fun parent _ => ?_
    split
    exact AllOrNothingAt.check_bind fun _ _ =>
      allOrNothing_onStore (Store.allOrNothing_commit _ _ _)

/-- A move makes its checks and plans its cascade, then one store commit; a move to the
current parent writes nothing. -/
theorem allOrNothing_move (t : Ident) (actor : Option Ident) (id : Ident)
    (target : Option Ident) : AllOrNothing (move t actor id target) := by
  intro f
  unfold move
  refine AllOrNothingAt.get_bind (AllOrNothingAt.check_bind fun node _ =>
    AllOrNothingAt.check_bind fun parent _ => ?_)
  split
  · exact AllOrNothingAt.of_ok rfl
  · split
    exact AllOrNothingAt.check_bind fun _ _ => AllOrNothingAt.check_bind fun _ _ =>
      AllOrNothingAt.check_bind fun _ _ => allOrNothing_onStore (Store.allOrNothing_commit _ _ _)

/-- A removal checks the unit, its children, its dependents and its state, then makes one
store update. -/
theorem allOrNothing_remove (t : Ident) (actor : Option Ident) (id : Ident) :
    AllOrNothing (remove t actor id) := by
  intro f
  unfold remove
  refine AllOrNothingAt.get_bind (AllOrNothingAt.check_bind fun node _ => ?_)
  dsimp only
  split
  · exact AllOrNothingAt.throw _
  split
  · exact AllOrNothingAt.throw _
  split
  · exact AllOrNothingAt.throw _
  · exact allOrNothing_onStore (Store.allOrNothing_commit _ _ _)

/-- A read writes nothing at all. -/
theorem allOrNothing_answer {α : Type} (r : Forest → Except Fault α) (reply : α → Reply) :
    AllOrNothing (answer r reply) := by
  intro f
  unfold answer
  exact AllOrNothingAt.get_bind (AllOrNothingAt.check_bind fun _ _ => AllOrNothingAt.of_ok rfl)

/-! ## §4 Calls and actions -/

/-- Every call is all or nothing. -/
theorem allOrNothing_handle (c : Call) : AllOrNothing (handle c) := by
  intro f
  unfold handle
  split
  · exact AllOrNothingAt.map _ (allOrNothing_create _ _ _ f)
  · exact allOrNothing_answer _ _ f
  · exact allOrNothing_answer _ _ f
  · exact allOrNothing_answer _ _ f
  · exact AllOrNothingAt.map _ (allOrNothing_rename _ _ _ _ f)
  · exact AllOrNothingAt.map _ (allOrNothing_move _ _ _ _ f)
  · exact AllOrNothingAt.map _ (allOrNothing_remove _ _ _ f)
  · exact allOrNothing_answer _ _ f
  · exact allOrNothing_answer _ _ f
  · exact allOrNothing_answer _ _ f
  · exact allOrNothing_answer _ _ f
  · exact allOrNothing_answer _ _ f
  · exact AllOrNothingAt.of_ok rfl

/-- A refused call leaves the forest as it was. -/
theorem after_of_error {f : Forest} {c : Call} {e : Fault} {f' : Forest}
    (h : (handle c).run f = .error e f') : f.after c = f := by
  have hf := allOrNothing_handle c f e f' h
  simp [after, h, hf]

/-- An answered call leaves the forest it answered with. -/
theorem after_of_ok {f f' : Forest} {c : Call} {r : Reply} (h : (handle c).run f = .ok r f') :
    f.after c = f' := by
  simp [after, h]

/-- **A refused action changes nothing.** From any forest, corrupt ones included, an action
that is refused leaves the forest exactly as it was: every unit in every field, the order
of the units, the identifier counter and the dependent counts. -/
theorem refused_action_leaves_forest (f : Forest) (a : Action) (e : Fault) (f' : Forest)
    (h : (act a).run f = .error e f') : f' = f := by
  cases a with
  | call c => exact allOrNothing_handle c f e f' h
  | insert d claim =>
    exact AllOrNothingAt.map _ (allOrNothing_onStore (Store.allOrNothing_insert d claim _)) e f' h
  | commit c claim =>
    exact AllOrNothingAt.map _ (allOrNothing_onStore (Store.allOrNothing_commit c claim _)) e f' h
  | forcePath id path level => cases h

/-- The root unit `Acme` of a tenant, as first stored. -/
def acme : Entity :=
  { id := Ident.serial 1, tenant := Ident.ofNat 1, name := "Acme", kind := .company,
    parent := none, path := "Acme", level := 0, metadata := .record [], state := .active,
    version := 1, createdBy := none, updatedBy := none }

/-- A rename of `Acme` whose cascade row carries a stale version. -/
def staleRename : Change :=
  { tenant := Ident.ofNat 1, id := Ident.serial 1, expected := 1,
    edit := { name := some "Acme Corp", path := some "Acme Corp" },
    cascade := [⟨Ident.serial 1, 8, "Acme Corp", 0⟩] }

/-- The forest holding `Acme` alone. -/
def acmeForest : Forest := { store := ⟨[acme], 1⟩ }

/-- A commit refused by its stale cascade row leaves the forest as it was. -/
theorem stale_cascade_commit_leaves_forest :
    ∃ e f', (act (.commit staleRename none)).run acmeForest = .error e f' ∧ f' = acmeForest := by
  have refused : (act (.commit staleRename none)).run acmeForest =
      .error (.staleVersion (Ident.serial 1)) acmeForest := rfl
  exact ⟨_, _, refused, refused_action_leaves_forest _ _ _ _ refused⟩

end Forest

end TenantForest
