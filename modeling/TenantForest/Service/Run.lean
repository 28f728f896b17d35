import TenantForest.Service.Request

/-!
# Runs

A run is a sequence of calls served one after the other, each against the forest the
previous one left. `Forest.replies` collects what a run answers and `Forest.replay` the
forest it ends with. A forest is `Reachable` under some settings when a run from the
empty forest with those settings ends in it; the laws every reachable forest obeys are
the guarantees of the service.

Below the service, the store can also be written directly: a store insert, a commit of
a change, or an overwrite of a unit's path and level. An `Action` is either a call or
one of those writes; `Forest.act` carries one out in place, `Forest.perform` answers
it as `Forest.serve` answers a call, and `Forest.replayActions` carries out a run of
actions as `Forest.replay` serves a run of calls.
-/

namespace TenantForest

namespace Forest

/-- The forest after serving the calls in order. -/
def replay (f : Forest) : List Call → Forest
  | [] => f
  | c :: cs => (f.after c).replay cs

/-- The replies to the calls served in order, each from the forest the previous calls
left. -/
def replies (f : Forest) : List Call → List (Except Fault Reply)
  | [] => []
  | c :: cs => f.reply c :: (f.after c).replies cs

/-- The forests a run of calls can reach from the empty forest with the given settings,
whether each call is answered or refused. -/
inductive Reachable (settings : Settings) : Forest → Prop
  /-- The empty forest. -/
  | empty : Reachable settings (Forest.empty settings)
  /-- The forest after one more call. -/
  | after {f : Forest} (c : Call) : Reachable settings f → Reachable settings (f.after c)

/-- A run from the empty forest ends in a reachable forest. -/
theorem Reachable.replay {settings : Settings} {f : Forest} (h : Reachable settings f) :
    ∀ cs, Reachable settings (f.replay cs)
  | [] => h
  | c :: cs => Reachable.replay (Reachable.after c h) cs

/-- Serving two runs one after the other is serving their concatenation. -/
theorem replay_append (f : Forest) (cs ds : List Call) :
    f.replay (cs ++ ds) = (f.replay cs).replay ds := by
  induction cs generalizing f with
  | nil => rfl
  | cons c cs ih => exact ih (f.after c)

/-- The reachable forests are exactly those some run from the empty forest ends in. -/
theorem reachable_iff_replay {settings : Settings} {f : Forest} :
    Reachable settings f ↔ ∃ cs, (Forest.empty settings).replay cs = f := by
  constructor
  · intro h
    induction h with
    | empty => exact ⟨[], rfl⟩
    | after c _ ih =>
      obtain ⟨cs, hcs⟩ := ih
      exact ⟨cs ++ [c], by rw [replay_append, hcs]; rfl⟩
  · rintro ⟨cs, rfl⟩
    exact Reachable.empty.replay cs

end Forest

/-- Anything that changes a forest: a call to the service, or a write made directly to
the store. -/
inductive Action where
  /-- A call to the service. -/
  | call (c : Call)
  /-- A store insert of a draft, with an optional name claim. -/
  | insert (d : Draft) (claim : Option NameClaim)
  /-- A store commit of a change, with an optional name claim. -/
  | commit (c : Change) (claim : Option NameClaim)
  /-- An overwrite of a unit's path and level. -/
  | forcePath (id : Ident) (path : String) (level : Int)

namespace Forest

/-- Carries out an action in place. -/
def act (a : Action) : InPlace Forest Reply :=
  match a with
  | .call c => handle c
  | .insert d claim => Reply.unit <$> onStore (Store.insert d claim)
  | .commit c claim => Reply.unit <$> onStore (Store.commit c claim)
  | .forcePath id path level => do
    modify fun f => f.withStore (f.store.forcePath id path level)
    pure .done

/-- Carries out an action: the reply and the forest afterwards, or the fault that refused
it. -/
def perform (f : Forest) (a : Action) : Except Fault (Reply × Forest) :=
  match (act a).run f with
  | .ok r f' => .ok (r, f')
  | .error e _ => .error e

/-- The forest after an action, carried out or refused. -/
def next (f : Forest) (a : Action) : Forest :=
  match (act a).run f with
  | .ok _ f' => f'
  | .error _ f' => f'

/-- The forest after carrying out the actions in order, each carried out or refused. -/
def replayActions (f : Forest) : List Action → Forest
  | [] => f
  | a :: as => (f.next a).replayActions as

end Forest

end TenantForest
