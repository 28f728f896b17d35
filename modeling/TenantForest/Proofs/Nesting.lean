import Mathlib
import TenantForest.View.Outline

/-!
# Nesting units given in order

`Outline.build` nests a list of units with a stack of open units: before a unit is opened,
open units are closed until the top is its parent, and a closed unit joins the unit below it,
or the roots. This module says what the nesting keeps and what it rebuilds, for every list of
units, whatever their parent links.

* Nothing is lost, duplicated or moved: the outline read back in pre-order is the list
  (`flatten_build`). Closing a unit appends it to the children of the unit below, so the
  pre-order of what is closed, followed by the open units bottom first, never changes.
* A unit nested in another names it as its parent (`nests_build`). The open units always form
  a chain of parent links, top first, since a unit is opened only on top of its parent or on
  an empty stack.
* The pre-order of a forest is nested back into that forest (`build_flatten`), for a forest
  grown from roots (`Grows`) in which every child names its parent and identifiers are
  distinct: opening a child finds its parent on top, and closing a subtree stops at the unit
  it hangs from.

  §1 Reading back.
  §2 Parent links.
  §3 Grown forests.
-/

namespace TenantForest

namespace Outline

/-! ## §1 Reading back -/

@[simp] theorem flatten_nil : flatten [] = [] := flatten.eq_1

@[simp] theorem flatten_cons (u : Entity) (cs rest : List Outline) :
    flatten (.node u cs :: rest) = u :: flatten cs ++ flatten rest := flatten.eq_2 u cs rest

@[simp] theorem flatten_append (a b : List Outline) : flatten (a ++ b) = flatten a ++ flatten b := by
  induction a with
  | nil => simp
  | cons o a ih =>
    obtain ⟨u, cs⟩ := o
    simp [ih]

@[simp] theorem unit_adopt (o c : Outline) : (o.adopt c).unit = o.unit := by
  obtain ⟨u, cs⟩ := o
  rfl

/-- A closed unit is read after the unit it joins and everything already in it. -/
theorem flatten_adopt (o c : Outline) : flatten [o.adopt c] = flatten [o, c] := by
  obtain ⟨u, cs⟩ := o
  obtain ⟨v, ds⟩ := c
  simp [adopt]

/-- Closing every open unit reads them after the roots, bottom first. -/
theorem flatten_closeAll (openUnits roots : List Outline) :
    flatten (closeAll openUnits roots) = flatten roots ++ flatten openUnits.reverse := by
  induction openUnits, roots using closeAll.induct with
  | case1 roots => simp [closeAll]
  | case2 top roots => simp [closeAll]
  | case3 top below rest roots ih =>
    rw [closeAll.eq_3, ih]
    simp [flatten_adopt]

/-- Closing open units keeps the roots followed by the open units, bottom first. -/
theorem flatten_closeUntil (p : Option Ident) (openUnits roots : List Outline) :
    flatten (closeUntil p openUnits roots).2 ++ flatten (closeUntil p openUnits roots).1.reverse =
      flatten roots ++ flatten openUnits.reverse := by
  induction openUnits, roots using closeUntil.induct p with
  | case1 roots => simp [closeUntil]
  | case2 top roots h => simp [closeUntil.eq_2, h]
  | case3 top roots h => simp [closeUntil.eq_2, h]
  | case4 top below rest roots h => simp [closeUntil.eq_3, h]
  | case5 top below rest roots h ih =>
    rw [closeUntil.eq_3, if_neg h, ih]
    simp [flatten_adopt]

/-- Nesting what remains reads the roots, the open units bottom first, then the rest. -/
theorem flatten_build (openUnits roots : List Outline) (es : List Entity) :
    flatten (build openUnits roots es) = flatten roots ++ flatten openUnits.reverse ++ es := by
  induction openUnits, roots, es using build.induct with
  | case1 openUnits roots => simp [build, flatten_closeAll]
  | case2 openUnits roots e es openUnits' roots' h ih =>
    have hkeep := flatten_closeUntil e.parent openUnits roots
    rw [h] at hkeep
    dsimp only at hkeep
    simp only [build, h, ih]
    simp only [List.reverse_cons, flatten_append, flatten_cons, flatten_nil, List.append_nil]
    rw [← List.append_assoc, hkeep]
    simp

/-- **Nesting loses nothing.** The outline of a list of units, read in pre-order, is the
list. -/
theorem flatten_build_nil (es : List Entity) : flatten (build [] [] es) = es := by
  simp [flatten_build]

/-! ## §2 Parent links -/

/-- `o` is one of the outlines of `os`, at any depth. -/
inductive Within : Outline → List Outline → Prop
  /-- The first outline. -/
  | head {o : Outline} {rest : List Outline} : Within o (o :: rest)
  /-- An outline nested in the first. -/
  | nested {o : Outline} {u : Entity} {cs rest : List Outline} :
      Within o cs → Within o (.node u cs :: rest)
  /-- One of the later outlines. -/
  | tail {o o' : Outline} {rest : List Outline} : Within o rest → Within o (o' :: rest)

theorem within_append {o : Outline} {a b : List Outline} :
    Within o (a ++ b) ↔ Within o a ∨ Within o b := by
  induction a with
  | nil => simp [show ¬ Within o [] from fun h => by cases h]
  | cons o' a ih =>
    constructor
    · intro h
      cases h with
      | head => exact .inl .head
      | nested h => exact .inl (.nested h)
      | tail h => exact (ih.1 h).imp .tail id
    · rintro (h | h)
      · cases h with
        | head => exact .head
        | nested h => exact .nested h
        | tail h => exact .tail (ih.2 (.inl h))
      · exact .tail (ih.2 (.inr h))

theorem within_singleton {o : Outline} {u : Entity} {cs : List Outline} :
    Within o [.node u cs] ↔ o = .node u cs ∨ Within o cs := by
  constructor
  · intro h
    cases h with
    | head => exact .inl rfl
    | nested h => exact .inr h
    | tail h => cases h
  · rintro (rfl | h)
    · exact .head
    · exact .nested h

/-- Every unit nested in another in `os` names that unit as its parent. -/
def Nests (os : List Outline) : Prop :=
  ∀ u cs, Within (.node u cs) os → ∀ c ∈ cs, c.unit.parent = some u.id

theorem nests_nil : Nests [] := fun _ _ h => by cases h

theorem nests_append {a b : List Outline} : Nests (a ++ b) ↔ Nests a ∧ Nests b := by
  simp only [Nests, within_append]
  exact ⟨fun h => ⟨fun u cs hw => h u cs (.inl hw), fun u cs hw => h u cs (.inr hw)⟩,
    fun ⟨ha, hb⟩ u cs hw => hw.elim (ha u cs) (hb u cs)⟩

theorem nests_cons {o : Outline} {os : List Outline} : Nests (o :: os) ↔ Nests [o] ∧ Nests os :=
  nests_append (a := [o])

/-- Closing `c` into `o` keeps units nested in their parents when `c` names `o` as its
parent. -/
theorem nests_adopt {o c : Outline} (ho : Nests [o]) (hc : Nests [c])
    (hlink : c.unit.parent = some o.unit.id) : Nests [o.adopt c] := by
  obtain ⟨u, cs⟩ := o
  intro v ds hw
  rcases within_singleton.1 hw with h | hw
  · -- the unit that took `c`: its old children, then `c`
    obtain ⟨rfl, rfl⟩ := Outline.node.inj h
    intro d hd
    rcases List.mem_append.1 hd with hd | hd
    · exact ho v cs .head d hd
    · rw [List.mem_singleton.1 hd]
      exact hlink
  · rcases within_append.1 hw with hw | hw
    · exact ho v ds (.nested hw)
    · exact hc v ds hw

/-- The open units form a chain of parent links, top first. -/
def Linked : List Outline → Prop
  | top :: below :: rest => top.unit.parent = some below.unit.id ∧ Linked (below :: rest)
  | _ => True

/-- Closing the top into the unit below it keeps units nested in their parents and the open
units linked: the top names the unit below as its parent. -/
theorem nests_close_top {top below : Outline} {rest : List Outline}
    (hopen : Nests (top :: below :: rest)) (hlinked : Linked (top :: below :: rest)) :
    Nests (below.adopt top :: rest) ∧ Linked (below.adopt top :: rest) := by
  obtain ⟨hlink, hlinked'⟩ := hlinked
  obtain ⟨htop, hrest⟩ := nests_cons.1 hopen
  obtain ⟨hbelow, hrest⟩ := nests_cons.1 hrest
  refine ⟨nests_cons.2 ⟨nests_adopt hbelow htop hlink, hrest⟩, ?_⟩
  -- the unit that took the top keeps its own link
  cases rest with
  | nil => trivial
  | cons next rest => exact ⟨by simpa using hlinked'.1, hlinked'.2⟩

/-- Closing open units keeps units nested in their parents and the open units linked, and
stops with the unit `p` on top, or with nothing open. -/
theorem closeUntil_nests (p : Option Ident) (openUnits roots : List Outline)
    (hopen : Nests openUnits) (hroots : Nests roots) (hlinked : Linked openUnits) :
    Nests (closeUntil p openUnits roots).1 ∧ Nests (closeUntil p openUnits roots).2 ∧
      Linked (closeUntil p openUnits roots).1 ∧
      ((closeUntil p openUnits roots).1 = [] ∨
        ∃ top rest, (closeUntil p openUnits roots).1 = top :: rest ∧ some top.unit.id = p) := by
  induction openUnits, roots using closeUntil.induct p with
  | case1 roots =>
    rw [closeUntil.eq_1]
    exact ⟨nests_nil, hroots, trivial, .inl rfl⟩
  | case2 top roots h =>
    rw [closeUntil.eq_2, if_pos h]
    exact ⟨hopen, hroots, trivial, .inr ⟨top, [], rfl, by simpa using h⟩⟩
  | case3 top roots h =>
    rw [closeUntil.eq_2, if_neg h]
    exact ⟨nests_nil, nests_append.2 ⟨hroots, hopen⟩, trivial, .inl rfl⟩
  | case4 top below rest roots h =>
    rw [closeUntil.eq_3, if_pos h]
    exact ⟨hopen, hroots, hlinked, .inr ⟨top, below :: rest, rfl, by simpa using h⟩⟩
  | case5 top below rest roots h ih =>
    rw [closeUntil.eq_3, if_neg h]
    obtain ⟨hopen', hlinked'⟩ := nests_close_top hopen hlinked
    exact ih hopen' hroots hlinked'

/-- Closing every open unit keeps units nested in their parents. -/
theorem closeAll_nests (openUnits roots : List Outline) (hopen : Nests openUnits)
    (hroots : Nests roots) (hlinked : Linked openUnits) : Nests (closeAll openUnits roots) := by
  induction openUnits, roots using closeAll.induct with
  | case1 roots => simpa [closeAll] using hroots
  | case2 top roots => simpa [closeAll] using nests_append.2 ⟨hroots, hopen⟩
  | case3 top below rest roots ih =>
    rw [closeAll.eq_3]
    obtain ⟨hopen', hlinked'⟩ := nests_close_top hopen hlinked
    exact ih hopen' hroots hlinked'

/-- Nesting the rest keeps units nested in their parents: a unit is opened on top of its
parent, or alone. -/
theorem build_nests (openUnits roots : List Outline) (es : List Entity) (hopen : Nests openUnits)
    (hroots : Nests roots) (hlinked : Linked openUnits) : Nests (build openUnits roots es) := by
  induction openUnits, roots, es using build.induct with
  | case1 openUnits roots => exact closeAll_nests openUnits roots hopen hroots hlinked
  | case2 openUnits roots e es openUnits' roots' h ih =>
    obtain ⟨hopen', hroots', hlinked', htop⟩ := closeUntil_nests e.parent openUnits roots hopen
      hroots hlinked
    rw [h] at hopen' hroots' hlinked' htop
    simp only [build, h]
    refine ih (nests_cons.2 ⟨fun _ _ hw c hc => ?_, hopen'⟩) hroots' ?_
    · rcases within_singleton.1 hw with hw | hw
      · obtain ⟨-, rfl⟩ := Outline.node.inj hw
        cases hc
      · cases hw
    · rcases htop with rfl | ⟨top, rest, rfl, hp⟩
      · trivial
      · exact ⟨hp.symm, hlinked'⟩

/-- **Nesting follows parent links.** In the outline of any list of units, every unit nested
in another names it as its parent. -/
theorem nests_build (es : List Entity) : Nests (build [] [] es) :=
  build_nests [] [] es nests_nil nests_nil trivial

/-! ## §3 Grown forests -/

/-- `os` is the forest grown from the units `xs`: one outline for each, in order, each unit `x`
with the forest grown from `kids x` nested in it. -/
inductive Grows (kids : Entity → List Entity) : List Entity → List Outline → Prop
  /-- Nothing grows from no units. -/
  | nil : Grows kids [] []
  /-- The first unit with its kids' forest, then the forest of the others. -/
  | cons {x : Entity} {xs : List Entity} {cs os : List Outline} :
      Grows kids (kids x) cs → Grows kids xs os → Grows kids (x :: xs) (.node x cs :: os)

namespace Grows

variable {kids : Entity → List Entity}

/-- The outlines of a grown forest are its units, in order. -/
theorem map_unit {xs : List Entity} {os : List Outline} (h : Grows kids xs os) :
    os.map unit = xs := by
  induction h with
  | nil => rfl
  | cons _ _ _ ih => simp [unit, ih]

/-- Every outline within a grown forest has the forest of its unit's kids nested in it. -/
theorem within {xs : List Entity} {os : List Outline} (h : Grows kids xs os) {u : Entity}
    {cs : List Outline} (hw : Within (.node u cs) os) : Grows kids (kids u) cs := by
  induction h with
  | nil => cases hw
  | @cons x xs gs os hg _ ihg iho =>
    cases hw with
    | head => exact hg
    | nested hw => exact ihg hw
    | tail hw => exact iho hw

/-- The forest grown from two lists of units is the forest of the first, then of the
second. -/
theorem append_inv {a b : List Entity} {os : List Outline} (h : Grows kids (a ++ b) os) :
    ∃ os₁ os₂, os = os₁ ++ os₂ ∧ Grows kids a os₁ ∧ Grows kids b os₂ := by
  induction a generalizing os with
  | nil => exact ⟨[], os, rfl, .nil, h⟩
  | cons x a ih =>
    cases h with
    | @cons _ _ cs os' hg ho =>
      obtain ⟨os₁, os₂, rfl, h₁, h₂⟩ := ih ho
      exact ⟨.node x cs :: os₁, os₂, rfl, .cons hg h₁, h₂⟩

/-- The pre-order of a grown forest starts with its first unit. -/
theorem head?_flatten {xs : List Entity} {os : List Outline} (h : Grows kids xs os) :
    (flatten os).head? = xs.head? := by
  cases h with
  | nil => rw [flatten_nil]
  | cons => rw [flatten_cons]; rfl

section Prune

variable (keep : Entity → Bool)

/-- Nothing below a unit that is dropped is kept, when a unit is kept only if its parent is. -/
theorem filter_flatten_eq_nil {xs : List Entity} {os : List Outline} (h : Grows kids xs os)
    (hclosed : ∀ x ∈ flatten os, ∀ c ∈ kids x, keep c = true → keep x = true)
    (hdrop : ∀ x ∈ xs, keep x = false) : (flatten os).filter keep = [] := by
  induction h with
  | nil => simp
  | @cons x xs cs os _ _ ihg iho =>
    have hx : keep x = false := hdrop x List.mem_cons_self
    -- the kids of a dropped unit are dropped too
    have hkids : ∀ c ∈ kids x, keep c = false := fun c hc => by
      cases hkc : keep c
      · rfl
      · simpa [hx] using hclosed x (by simp) c hc hkc
    rw [flatten_cons, List.filter_append, List.filter_cons_of_neg (by simp [hx]),
      ihg (fun y hy => hclosed y (by simp [hy])) hkids,
      iho (fun y hy => hclosed y (by simp [hy])) fun y hy => hdrop y (List.mem_cons_of_mem x hy)]
    rfl

/-- **Pruning a grown forest.** Keeping the units that pass `keep`, where a unit is kept only if
its parent is, leaves the forest grown from the kept units with their kept kids, read in the same
pre-order. -/
theorem filter {xs : List Entity} {os : List Outline} (h : Grows kids xs os)
    (hclosed : ∀ x ∈ flatten os, ∀ c ∈ kids x, keep c = true → keep x = true) :
    ∃ os', Grows (fun x => (kids x).filter keep) (xs.filter keep) os' ∧
      flatten os' = (flatten os).filter keep := by
  induction h with
  | nil => exact ⟨[], .nil, by simp⟩
  | @cons x xs cs os hg _ ihg iho =>
    obtain ⟨os', hos, hflat⟩ := iho fun y hy => hclosed y (by simp [hy])
    by_cases hx : keep x = true
    · -- a kept unit keeps its kept kids nested in it
      obtain ⟨cs', hcs, hcflat⟩ := ihg fun y hy => hclosed y (by simp [hy])
      refine ⟨.node x cs' :: os', ?_, ?_⟩
      · rw [List.filter_cons_of_pos hx]
        exact .cons hcs hos
      · simp [hx, hcflat, hflat]
    · -- a dropped unit takes its whole subtree with it
      have hkids : ∀ c ∈ kids x, keep c = false := fun c hc => by
        cases hkc : keep c
        · rfl
        · exact absurd (hclosed x (by simp) c hc hkc) hx
      have hbelow := filter_flatten_eq_nil keep hg (fun y hy => hclosed y (by simp [hy])) hkids
      refine ⟨os', by rwa [List.filter_cons_of_neg hx], ?_⟩
      simp [hx, hbelow, hflat]

end Prune

end Grows

/-- With nothing to find, closing closes every open unit. -/
theorem closeUntil_none (openUnits roots : List Outline) :
    closeUntil none openUnits roots = ([], closeAll openUnits roots) := by
  induction openUnits, roots using closeAll.induct with
  | case1 roots => rw [closeUntil.eq_1, closeAll.eq_1]
  | case2 top roots => rw [closeUntil.eq_2, closeAll.eq_2]; simp
  | case3 top below rest roots ih => rw [closeUntil.eq_3, closeAll.eq_3, ← ih]; simp

/-- A unit opened on top of its parent finds it there. -/
theorem closeUntil_node (u : Entity) (cs openUnits roots : List Outline) :
    closeUntil (some u.id) (.node u cs :: openUnits) roots = (.node u cs :: openUnits, roots) := by
  cases openUnits with
  | nil => rw [closeUntil.eq_2]; simp [unit]
  | cons below rest => rw [closeUntil.eq_3]; simp [unit]

/-- Opening the next unit: close open units until its parent is on top, then open it. -/
theorem build_cons (openUnits roots : List Outline) (e : Entity) (es : List Entity) :
    build openUnits roots (e :: es) =
      build (.node e [] :: (closeUntil e.parent openUnits roots).1)
        (closeUntil e.parent openUnits roots).2 es := by
  rw [build]

/-- The top is closed into the unit below it before the next unit is opened, unless the next
unit is its child. -/
theorem build_pop (x o : Outline) (openUnits roots : List Outline) (es : List Entity)
    (hnext : ∀ z ∈ es.head?, z.parent ≠ some x.unit.id) :
    build (x :: o :: openUnits) roots es = build (o.adopt x :: openUnits) roots es := by
  cases es with
  | nil => simp [build, closeAll.eq_3]
  | cons z es =>
    have hz : ¬ (some x.unit.id == z.parent) = true := by
      rw [beq_iff_eq]
      exact fun h => hnext z rfl h.symm
    rw [build_cons, build_cons, closeUntil.eq_3, if_neg hz]

section Forest

variable {kids : Entity → List Entity}

/-- The unit after a grown forest and whatever follows it: the forest's second unit, or the
first of what follows. -/
theorem head?_flatten_tail {xs : List Entity} {os : List Outline}
    (ho : Grows kids xs os) (ys : List Entity) {z : Entity}
    (hz : z ∈ (flatten os ++ ys).head?) : z ∈ xs ∨ (xs = [] ∧ z ∈ ys.head?) := by
  rw [List.head?_append, ho.head?_flatten] at hz
  cases xs with
  | nil => exact .inr ⟨rfl, by simpa using hz⟩
  | cons y xs =>
    obtain rfl : y = z := by simpa using hz
    exact .inl List.mem_cons_self

/-- **A subtree is nested back.** With the unit `u` open on top, the pre-order of a forest
grown from children of `u` is nested into `u`, as its last children in order, provided every
child names its parent, identifiers are distinct and not `u`'s, and the unit after the forest
names none of its units as parent. -/
theorem build_forest (hkids : ∀ x, ∀ c ∈ kids x, c.parent = some x.id) {ks : List Entity}
    {cs : List Outline} (hg : Grows kids ks cs) {u : Entity} (hks : ∀ k ∈ ks, k.parent = some u.id)
    (hnd : ((flatten cs).map Entity.id).Nodup) (hu : u.id ∉ (flatten cs).map Entity.id)
    (acc openUnits roots : List Outline) (ys : List Entity)
    (hys : ∀ z ∈ ys.head?, ∀ c ∈ flatten cs, z.parent ≠ some c.id) :
    build (.node u acc :: openUnits) roots (flatten cs ++ ys) =
      build (.node u (acc ++ cs) :: openUnits) roots ys := by
  induction hg generalizing u acc openUnits ys with
  | nil => simp
  | @cons x xs gs os hg ho ihg iho =>
    rw [flatten_cons, List.cons_append, List.map_cons, List.map_append] at hnd hu
    obtain ⟨hx, hnd⟩ := List.nodup_cons.1 hnd
    obtain ⟨hndg, hndo, -⟩ := List.nodup_append.1 hnd
    have hux : u.id ≠ x.id := fun h => hu (h ▸ List.mem_cons_self)
    have hug : u.id ∉ (flatten gs).map Entity.id := fun h => hu (List.mem_cons_of_mem _
      (List.mem_append_left _ h))
    have huo : u.id ∉ (flatten os).map Entity.id := fun h => hu (List.mem_cons_of_mem _
      (List.mem_append_right _ h))
    have hxg : x.id ∉ (flatten gs).map Entity.id := fun h => hx (List.mem_append_left _ h)
    have hxu : x.parent = some u.id := hks x List.mem_cons_self
    -- the unit after the subtree of `x` is the next child of `u`, or the unit after the forest
    have hnext : ∀ z ∈ (flatten os ++ ys).head?, z.parent = some u.id ∨
        ∀ c ∈ flatten (.node x gs :: os), z.parent ≠ some c.id := by
      intro z hz
      rcases head?_flatten_tail ho ys hz with hz | ⟨-, hz⟩
      · exact .inl (hks z (List.mem_cons_of_mem x hz))
      · exact .inr (hys z hz)
    -- open `x` on top of `u`, nest its subtree, close it into `u`, then nest the others
    simp only [flatten_cons, List.cons_append, List.append_assoc]
    rw [build_cons, hxu, closeUntil_node]
    dsimp only
    rw [ihg (hkids x) hndg hxg [] (.node u acc :: openUnits) (flatten os ++ ys)
        fun z hz c hc => ?_,
      build_pop _ _ _ _ _ fun z hz => ?_]
    · have hadopt : (Outline.node u acc).adopt (.node x ([] ++ gs)) =
          .node u (acc ++ [.node x gs]) := rfl
      rw [hadopt, iho (fun k hk => hks k (List.mem_cons_of_mem x hk)) hndo huo
        (acc ++ [Outline.node x gs]) openUnits ys fun z hz c hc => hys z hz c (by simp [hc])]
      simp
    · -- after the subtree of `x`: the next child of `u`, or a unit naming none of the forest
      rcases hnext z hz with hzu | hz'
      · rw [hzu]
        intro hc'
        exact hux (Option.some.inj hc')
      · exact hz' x (by simp)
    · rcases hnext z hz with hzu | hz'
      · rw [hzu]
        intro hc'
        exact hug (Option.some.inj hc' ▸ List.mem_map_of_mem hc)
      · exact hz' c (by simp [hc])

/-- **A forest is nested back.** The pre-order of a forest grown from roots, in which every
child names its parent and identifiers are distinct, is nested into that forest, after the
units closed so far. -/
theorem build_flatten (hkids : ∀ x, ∀ c ∈ kids x, c.parent = some x.id) {xs : List Entity}
    {os : List Outline} (hg : Grows kids xs os) (hroots : ∀ x ∈ xs, x.parent = none)
    (hnd : ((flatten os).map Entity.id).Nodup) (openUnits roots : List Outline) :
    build openUnits roots (flatten os) = closeAll openUnits roots ++ os := by
  induction hg generalizing openUnits roots with
  | nil => simp [build]
  | @cons x xs gs os hg ho _ iho =>
    rw [flatten_cons, List.cons_append, List.map_cons, List.map_append] at hnd
    obtain ⟨hx, hnd⟩ := List.nodup_cons.1 hnd
    obtain ⟨hndg, hndo, -⟩ := List.nodup_append.1 hnd
    -- a root closes every open unit, then its subtree is nested into it
    rw [flatten_cons, List.cons_append, build_cons, hroots x List.mem_cons_self, closeUntil_none]
    dsimp only
    rw [build_forest hkids hg (hkids x) hndg (fun h => hx (List.mem_append_left _ h)) [] []
        (closeAll openUnits roots) (flatten os) fun z hz c _ => ?_,
      iho (fun y hy => hroots y (List.mem_cons_of_mem x hy)) hndo]
    · simp [closeAll]
    · -- the unit after the subtree is the next root
      rcases head?_flatten_tail ho [] (by simpa using hz) with hz | ⟨-, hz⟩
      · simp [hroots z (List.mem_cons_of_mem x hz)]
      · cases hz

end Forest

end Outline

end TenantForest
