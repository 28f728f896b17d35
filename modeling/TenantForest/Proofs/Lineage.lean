import TenantForest.Proofs.Keys
import TenantForest.Store.Lineage
import TenantForest.Walk.Ancestry
import TenantForest.View.Integrity

/-!
# Climbing to a root

Two functions climb parent links: `Walk.climb`, behind `Store.ancestry`, which collects the
units passed, and `Integrity.names`, behind the integrity report, which collects their
names. Both are read here against `Store.RootPath`, the climb as a relation.

* Soundness: whatever chain the ancestor climb returns is the root path of its start. A
  unit therefore is in the chain returned for any unit that descends from it, which is
  what makes the chain a guard against cycles.
* Completeness: along a root path with distinct units, within the climb's bound and
  fuel, both climbs succeed and return that path (the names in root-first order).

  §1 Root paths — the units on a root path are active units of the tenant, the first one
     is the start, and a root path passes every unit its start descends from.
  §2 The ancestor climb — sound, and complete along a root path.
  §3 The names climb — complete along a root path.
-/

namespace TenantForest

namespace Store

variable {s : Store} {t : Ident}

/-! ## §1 Root paths -/

/-- The units on a root path are active units of the tenant, each found by its identifier. -/
theorem RootPath.active {x : Ident} {c : List Entity} (h : s.RootPath t x c) :
    ∀ e ∈ c, s.active? e.id t = some e := by
  induction h with
  | @root x e he _ =>
    intro e' he'
    rw [List.mem_singleton.1 he', (mem_of_active? he).2.1]
    exact he
  | @climb x p e c he _ _ ih =>
    intro e' he'
    rcases List.mem_cons.1 he' with rfl | he'
    · rw [(mem_of_active? he).2.1]
      exact he
    · exact ih e' he'

/-- A root path starts at its start: the first unit is the active unit `x`. -/
theorem RootPath.head {x : Ident} {c : List Entity} (h : s.RootPath t x c) :
    ∃ e rest, c = e :: rest ∧ s.active? x t = some e := by
  cases h with
  | root he _ => exact ⟨_, [], rfl, he⟩
  | climb he _ _ => exact ⟨_, _, rfl, he⟩

/-- A root path passes every unit its start descends from. -/
theorem RootPath.mem_of_descends {x a : Ident} {c : List Entity} (h : s.RootPath t x c)
    (hd : s.Descends t x a) : ∃ e ∈ c, e.id = a := by
  induction hd generalizing c with
  | @parent x a link =>
    obtain ⟨e', he', hpe'⟩ := link
    cases h with
    | root he hpe =>
      rw [he] at he'
      cases he'
      rw [hpe] at hpe'
      cases hpe'
    | climb he hpe hr =>
      rw [he] at he'
      cases he'
      rw [hpe] at hpe'
      cases hpe'
      -- the rest of the path starts at the parent, which is `a`
      obtain ⟨e, rest, rfl, ha⟩ := hr.head
      exact ⟨e, List.mem_cons_of_mem _ List.mem_cons_self, (mem_of_active? ha).2.1⟩
  | @climb x p a link _ ih =>
    obtain ⟨e', he', hpe'⟩ := link
    cases h with
    | root he hpe =>
      rw [he] at he'
      cases he'
      rw [hpe] at hpe'
      cases hpe'
    | climb he hpe hr =>
      rw [he] at he'
      cases he'
      rw [hpe] at hpe'
      cases hpe'
      obtain ⟨e, he, hid⟩ := ih hr
      exact ⟨e, List.mem_cons_of_mem _ he, hid⟩

end Store

/-! ## §2 The ancestor climb -/

namespace Walk

open Store

variable {s : Store} {t start : Ident} {limit : Nat}

/-- A climb that succeeds has followed a root path: it returns the chain so far, oldest
first, followed by the root path of the unit it stood on. -/
theorem climb_ok {fuel : Nat} {visited : List Ident} {chain : List Entity} {current : Ident}
    {res : List Entity} (h : climb s t start limit fuel visited chain current = .ok res) :
    ∃ c, s.RootPath t current c ∧ res = chain.reverse ++ c := by
  induction fuel generalizing visited chain current with
  | zero => simp [climb] at h
  | succ fuel ih =>
    simp only [climb] at h
    split at h
    · cases h
    · split at h
      · split at h <;> cases h
      · rename_i n hn
        split at h
        · rename_i hroot
          simp only [Except.ok.injEq] at h
          exact ⟨[n], .root hn hroot, by simp [← h]⟩
        · rename_i p hp
          obtain ⟨c, hc, rfl⟩ := ih h
          exact ⟨n :: c, .climb hn hp hc, by simp⟩

/-- What `ancestry` returns is the root path of the unit, nearest first. -/
theorem ancestry_ok {maxDepth : Int} {id : Ident} {res : List Entity}
    (h : s.ancestry maxDepth id t = .ok res) : s.RootPath t id res := by
  obtain ⟨c, hc, rfl⟩ := climb_ok h
  simpa using hc

/-- Along a root path of distinct units not yet visited, with room in the bound and enough
fuel, the climb succeeds and returns the chain so far followed by that path. -/
theorem climb_of_rootPath {current : Ident} {c : List Entity} (hr : s.RootPath t current c) :
    ∀ {fuel : Nat} {visited : List Ident} {chain : List Entity},
      (c.map Entity.id).Nodup → (∀ e ∈ c, e.id ∉ visited) → chain.length + c.length ≤ limit →
      c.length ≤ fuel →
      climb s t start limit fuel visited chain current = .ok (chain.reverse ++ c) := by
  induction hr with
  | @root x e he hroot =>
    intro fuel visited chain _ hv hlim hfuel
    obtain ⟨fuel, rfl⟩ : ∃ k, fuel = k + 1 := ⟨fuel - 1, by simp at hfuel; omega⟩
    have hid : e.id = x := (mem_of_active? he).2.1
    have fresh : x ∉ visited := hid ▸ hv e List.mem_cons_self
    have room : ¬ chain.length ≥ limit := by simp at hlim; omega
    simp [climb, fresh, room, he, hroot]
  | @climb x p e c he hp _ ih =>
    intro fuel visited chain hnd hv hlim hfuel
    obtain ⟨fuel, rfl⟩ : ∃ k, fuel = k + 1 := ⟨fuel - 1, by simp at hfuel; omega⟩
    have hid : e.id = x := (mem_of_active? he).2.1
    have fresh : x ∉ visited := hid ▸ hv e List.mem_cons_self
    have room : ¬ chain.length ≥ limit := by simp at hlim; omega
    simp only [List.map_cons, List.nodup_cons, List.mem_map, not_exists, not_and] at hnd
    -- the rest of the path is climbed with `x` visited and `e` on the chain
    have rest := @ih fuel (x :: visited) (e :: chain) hnd.2
      (fun e' he' h' => (List.mem_cons.1 h').elim (fun h'' => hnd.1 e' he' (h''.trans hid.symm))
        (hv e' (List.mem_cons_of_mem _ he')))
      (by simp at hlim ⊢; omega) (by simp at hfuel; omega)
    simp [climb, fresh, room, he, hp, rest]

end Walk

/-! ## §3 The names climb -/

namespace Integrity

open Store

variable {s : Store} {t : Ident} {units : List Entity}

/-- Along a root path of distinct units, each found among `units` and none seen yet, with
enough fuel, the names climb reaches the root and returns the names of the path root first,
in front of those collected so far. -/
theorem names_of_rootPath {p : Ident} {c : List Entity} (hr : s.RootPath t p c)
    (hu : ∀ e ∈ c, units.find? (fun u => u.id == e.id) = some e) :
    ∀ {fuel : Nat} {seen : List Ident} {acc : List String},
      (c.map Entity.id).Nodup → (∀ e ∈ c, e.id ∉ seen) → c.length ≤ fuel →
      names units fuel seen acc (some p) = .ok (some ((c.map Entity.name).reverse ++ acc)) := by
  induction hr with
  | @root x e he hroot =>
    intro fuel seen acc _ hv hfuel
    obtain ⟨fuel, rfl⟩ : ∃ k, fuel = k + 1 := ⟨fuel - 1, by simp at hfuel; omega⟩
    have hid : e.id = x := (mem_of_active? he).2.1
    have fresh : x ∉ seen := hid ▸ hv e List.mem_cons_self
    have found := hu e List.mem_cons_self
    rw [hid] at found
    simp [names, fresh, found, hroot]
  | @climb x p e c he hp _ ih =>
    intro fuel seen acc hnd hv hfuel
    obtain ⟨fuel, rfl⟩ : ∃ k, fuel = k + 1 := ⟨fuel - 1, by simp at hfuel; omega⟩
    have hid : e.id = x := (mem_of_active? he).2.1
    have fresh : x ∉ seen := hid ▸ hv e List.mem_cons_self
    have found := hu e List.mem_cons_self
    rw [hid] at found
    simp only [List.map_cons, List.nodup_cons, List.mem_map, not_exists, not_and] at hnd
    have rest := @ih (fun e' he' => hu e' (List.mem_cons_of_mem _ he')) fuel (x :: seen)
      (e.name :: acc) hnd.2
      (fun e' he' h' => (List.mem_cons.1 h').elim (fun h'' => hnd.1 e' he' (h''.trans hid.symm))
        (hv e' (List.mem_cons_of_mem _ he')))
      (by simp at hfuel; omega)
    simp [names, fresh, found, hp, rest]

end Integrity

end TenantForest
