import TenantForest.Proofs.Segments
import TenantForest.Proofs.Listing

/-!
# Paths read back into names

A path is built one name at a time: the root's name, then below it the separator and the next
name, and so on. So the path of a chain of names is the names joined by the separator
(`foldl_childOf`). A name is refused when it contains the trimmed separator, and the point of
the rule is that a path can be cut back into the names it was built from.

It can when the separator trims to one character, as the default ` > ` does: the segments of
a path of accepted names are those names (`segments_of_accepted`), and two chains of accepted
names never share a path (`eq_of_intercalate_accepted`).

It cannot for every separator that passes `Settings.check`. The rule looks for the separator
inside one name, while an occurrence in a path may straddle a name and a separator. Under the
separator `aa` the names `ba`, `b` and `ab` are all accepted, and the chains `ba`, `b` and `b`,
`ab` both have the path `baaab`, which cuts into `b`, `ab`
(`doubled_separator_paths_collide`).

  §1 Paths of chains of names.
  §2 A separator of one visible character.
  §3 A separator that straddles names.
-/

namespace TenantForest

namespace Settings

variable {st : Settings}

/-! ## §1 Paths of chains of names -/

/-- Placing each name of a chain below the path and level so far joins the names with the
separator and counts one level per name. -/
theorem foldl_childOf (st : Settings) (root : String) (level : Int) (names : List String) :
    names.foldl (fun pl name => st.childOf pl.1 pl.2 name) (root, level) =
      (st.separator.intercalate (root :: names), level + names.length) := by
  induction names using List.reverseRecOn with
  | nil => simp [String.intercalate_singleton]
  | append_singleton names name ih =>
    rw [List.foldl_append, ih, List.foldl_cons, List.foldl_nil, childOf, ← List.cons_append,
      intercalate_append_singleton _ _ (List.cons_ne_nil _ _)]
    simp only [List.length_append, List.length_singleton, Prod.mk.injEq, true_and]
    omega

/-! ## §2 A separator of one visible character -/

/-- When the separator trims to one character, the segments of a path joined from accepted
names are those names. -/
theorem segments_of_accepted {c : Char} (hsep : (Text.trim st.separator).toList = [c])
    {names : List String} (hne : names ≠ []) (hacc : ∀ n ∈ names, st.validateName n = .ok n) :
    Text.segments (st.separator.intercalate names) st.separator = names :=
  Text.segments_intercalate hsep hne fun n hn =>
    Text.not_mem_of_contains_eq_false hsep (validateName_free (hacc n hn))

/-- When the separator trims to one character, two chains of accepted names with the same
path are the same chain. -/
theorem eq_of_intercalate_accepted {c : Char} (hsep : (Text.trim st.separator).toList = [c])
    {xs ys : List String} (hxs : xs ≠ []) (hys : ys ≠ [])
    (hx : ∀ n ∈ xs, st.validateName n = .ok n) (hy : ∀ n ∈ ys, st.validateName n = .ok n)
    (h : st.separator.intercalate xs = st.separator.intercalate ys) : xs = ys := by
  rw [← segments_of_accepted hsep hxs hx, h, segments_of_accepted hsep hys hy]

/-- The default separator ` > ` trims to one character. -/
example : (Text.trim ({} : Settings).separator).toList = ['>'] := by decide

/-! ## §3 A separator that straddles names -/

/-- Settings whose separator `aa` overlaps itself. -/
def doubledSeparator : Settings := { separator := "aa" }

/-- Under the separator `aa`, which the settings check accepts, the chains `ba`, `b` and `b`,
`ab` of accepted names have the same path, and that path cuts into the second chain. -/
theorem doubled_separator_paths_collide :
    doubledSeparator.check = .ok () ∧
      (∀ n ∈ ["ba", "b", "ab"], doubledSeparator.validateName n = .ok n) ∧
      doubledSeparator.childOf "ba" 0 "b" = ("baaab", 1) ∧
      doubledSeparator.childOf "b" 0 "ab" = ("baaab", 1) ∧
      Text.segments "baaab" doubledSeparator.separator = ["b", "ab"] := by
  refine ⟨rfl, ?_, rfl, rfl, by decide +kernel⟩
  intro n hn
  simp only [List.mem_cons, List.not_mem_nil, or_false] at hn
  rcases hn with rfl | rfl | rfl <;> rfl

end Settings

end TenantForest
