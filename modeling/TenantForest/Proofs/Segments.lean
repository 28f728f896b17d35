import Mathlib
import TenantForest.Text.Blank

/-!
# Paths cut into segments

A path is the names from a root down to a unit joined by the separator, and the path order
compares paths cut back into segments at every occurrence of the separator. The cut gives
the names back exactly when no occurrence of the separator starts inside a name or straddles
a name and a separator. A separator whose trimmed form is the one character `c` is `c`
between blanks; names never contain it (a name holding the trimmed separator is refused), so
every occurrence of the separator in a path is one of the separators it was joined with, and
`segments_intercalate` recovers the names.

Comparisons of texts and of lists of texts are the lexicographic comparisons of the core
library, which makes them transitive and oriented.

  §1 The trimmed separator.
  §2 Splitting a joined path.
  §3 Comparing texts.
-/

namespace TenantForest

namespace Text

/-! ## §1 The trimmed separator -/

/-- Characters that trimming dropped are blanks. -/
theorem isBlank_of_mem_takeWhile {cs : List Char} {b : Char} (h : b ∈ cs.takeWhile isBlank) :
    isBlank b = true :=
  List.all_eq_true.1 List.all_takeWhile b h

/-- A text whose trimmed form is the one character `c` is `c` between blanks, so `c` occurs
in it once. -/
theorem trimChars_eq_singleton {cs : List Char} {c : Char} (h : trimChars cs = [c]) :
    ∃ ws₁ ws₂, cs = ws₁ ++ c :: ws₂ ∧ c ∉ ws₁ ∧ c ∉ ws₂ := by
  -- blanks are dropped from the front, then from the back of what is left
  have hback : (cs.dropWhile isBlank).reverse.dropWhile isBlank = [c] := by
    have := congrArg List.reverse h
    simpa [trimChars] using this
  have hc : isBlank c = false := by
    have := List.head_dropWhile_not isBlank (l := (cs.dropWhile isBlank).reverse)
      (by simp [hback])
    simpa [hback] using this
  have back : (cs.dropWhile isBlank).reverse =
      ((cs.dropWhile isBlank).reverse.takeWhile isBlank) ++ [c] := by
    rw [← hback]
    exact List.takeWhile_append_dropWhile.symm
  obtain ⟨ws₂, hws₂, hrest⟩ : ∃ ws₂, (∀ b ∈ ws₂, isBlank b = true) ∧
      cs.dropWhile isBlank = c :: ws₂ :=
    ⟨_, fun b hb => isBlank_of_mem_takeWhile (List.mem_reverse.1 hb),
      by simpa using congrArg List.reverse back⟩
  refine ⟨cs.takeWhile isBlank, ws₂, ?_, fun hm => ?_, fun hm => ?_⟩
  · calc cs = cs.takeWhile isBlank ++ cs.dropWhile isBlank :=
          List.takeWhile_append_dropWhile.symm
      _ = cs.takeWhile isBlank ++ c :: ws₂ := by rw [hrest]
  · simp [isBlank_of_mem_takeWhile hm] at hc
  · simp [hws₂ c hm] at hc

/-! ## §2 Splitting a joined path -/

/-- Whether a one-character text occurs in a text is whether its character does. -/
theorem occursIn_singleton (c : Char) : ∀ cs : List Char, occursIn [c] cs = true ↔ c ∈ cs
  | [] => by simp [occursIn]
  | x :: xs => by
    simp only [occursIn, List.isPrefixOf, Bool.and_true, Bool.or_eq_true, beq_iff_eq,
      occursIn_singleton c xs, List.mem_cons]

/-- A text accepted as free of a trimmed separator that is the one character `c` does not
contain `c`. -/
theorem not_mem_of_contains_eq_false {name sep : String} {c : Char}
    (hsep : (trim sep).toList = [c]) (h : contains name (trim sep) = false) :
    c ∉ name.toList := by
  rw [contains, hsep] at h
  intro hc
  simp [(occursIn_singleton c _).2 hc] at h

section Split

variable {s c : Char} {ss ws₁ ws₂ : List Char}

/-- The separator, whose only `c` stands after `ws₁`, does not start inside a piece free of
`c` that is followed by text with no `c` among its first `ws₁.length` characters. -/
theorem isPrefixOf_clean (hsep : s :: ss = ws₁ ++ c :: ws₂) {u v : List Char} (hu : u ≠ [])
    (hcu : c ∉ u) (hcv : c ∉ v.take ws₁.length) : (s :: ss).isPrefixOf (u ++ v) = false := by
  rw [Bool.eq_false_iff]
  intro h
  rw [List.isPrefixOf_iff_prefix, hsep] at h
  obtain ⟨w, hw⟩ := h
  have hw' : u ++ v = ws₁ ++ c :: (ws₂ ++ w) := by simp [← hw]
  obtain ⟨x, xs, rfl⟩ := List.exists_cons_of_ne_nil hu
  rcases List.append_eq_append_iff.1 hw' with ⟨as, rfl, hv⟩ | ⟨bs, hu', hcw⟩
  · -- the separator's `c` falls in `v`, within its first `ws₁.length` characters
    apply hcv
    rw [hv]
    simp only [List.take_append, List.length_append, List.length_cons, List.mem_append]
    right
    rw [show xs.length + 1 + as.length - as.length = xs.length + 1 by omega]
    simp
  · cases bs with
    | nil =>
      -- the separator starts right after the piece, whose length is that of `ws₁`
      apply hcv
      simp only [List.append_nil] at hu'
      rw [List.nil_append] at hcw
      rw [← hu', ← hcw]
      simp
    | cons b bs =>
      -- the separator's `c` falls in the piece
      simp only [List.cons_append, List.cons.injEq] at hcw
      exact hcu (by rw [hu', ← hcw.1]; simp)

/-- Scanning a piece free of `c`, followed by text with no `c` among its first
`ws₁.length` characters, adds the piece to the one being collected. -/
theorem splitNonempty_clean (hsep : s :: ss = ws₁ ++ c :: ws₂) {v : List Char}
    (hcv : c ∉ v.take ws₁.length) : ∀ (u piece : List Char), c ∉ u →
      splitNonempty s ss (u ++ v) piece = splitNonempty s ss v (u.reverse ++ piece)
  | [], _, _ => rfl
  | x :: u, piece, hcu => by
    have hfree := isPrefixOf_clean hsep (List.cons_ne_nil x u) hcu hcv
    rw [List.cons_append] at hfree ⊢
    rw [splitNonempty, if_neg (by simp [hfree]),
      splitNonempty_clean hsep hcv u (x :: piece) (fun h => hcu (List.mem_cons_of_mem x h))]
    simp

/-- Scanning the separator closes the piece being collected. -/
theorem splitNonempty_sep (rest piece : List Char) :
    splitNonempty s ss ((s :: ss) ++ rest) piece =
      piece.reverse :: splitNonempty s ss rest [] := by
  rw [List.cons_append, splitNonempty, if_pos (by simp), List.drop_left]

/-- Splitting pieces free of `c` joined by the separator gives the pieces back. -/
theorem splitOn_intercalate (hsep : s :: ss = ws₁ ++ c :: ws₂) (hc : c ∉ ws₁) :
    ∀ {ls : List (List Char)}, ls ≠ [] → (∀ l ∈ ls, c ∉ l) →
      splitOn (s :: ss) ((s :: ss).intercalate ls) = ls
  | [l], _, hl => by
    have last := splitNonempty_clean hsep (v := []) (by simp) l [] (hl l (by simp))
    simp only [List.append_nil] at last
    simp [splitOn, List.intercalate_singleton, last, splitNonempty]
  | l :: l' :: ls, _, hl => by
    -- the first piece ends at the first separator, whose blanks before `c` hold no `c`
    have hfront : c ∉ ((s :: ss) ++ (s :: ss).intercalate (l' :: ls)).take ws₁.length := by
      rw [hsep, List.append_assoc, List.take_left]
      exact hc
    have rest := splitOn_intercalate hsep hc (List.cons_ne_nil l' ls)
      (fun m hm => hl m (List.mem_cons_of_mem l hm))
    simp only [splitOn] at rest ⊢
    rw [List.intercalate_cons_cons, List.append_assoc,
      splitNonempty_clean hsep hfront l [] (hl l (by simp)), List.append_nil,
      splitNonempty_sep, rest, List.reverse_reverse]

end Split

/-- **Cutting a joined path.** When the separator trims to one character, a path joined from
names that do not contain that character is cut back into exactly those names. -/
theorem segments_intercalate {sep : String} {c : Char} (hsep : (trim sep).toList = [c])
    {names : List String} (hne : names ≠ []) (hclean : ∀ n ∈ names, c ∉ n.toList) :
    segments (sep.intercalate names) sep = names := by
  rw [trim, String.toList_ofList] at hsep
  obtain ⟨ws₁, ws₂, hws, hc, -⟩ := trimChars_eq_singleton hsep
  obtain ⟨s, ss, hss⟩ : ∃ s ss, sep.toList = s :: ss := by
    cases h : sep.toList with
    | nil => simp [h] at hws
    | cons s ss => exact ⟨s, ss, rfl⟩
  rw [hss] at hws
  have hpieces : ∀ l ∈ names.map String.toList, c ∉ l := by
    simpa using hclean
  rw [segments, String.toList_intercalate, hss,
    splitOn_intercalate hws hc (by simpa using hne) hpieces, List.map_map]
  simp

/-! ## §3 Comparing texts -/

/-- Characters compare as their code points, and only equal characters compare equal. -/
instance charCode_lawfulEqCmp : Std.LawfulEqCmp (compareOn Char.toNat) where
  compare_self := Std.ReflCmp.compare_self
  eq_of_compare h := Char.toNat_inj.1 (Nat.compare_eq_eq.1 h)

/-- Character lists compare lexicographically by code point. -/
theorem compareChars_eq_compareLex : compareChars = List.compareLex (compareOn Char.toNat) := by
  funext as bs
  induction as generalizing bs with
  | nil => cases bs <;> rfl
  | cons a as ih =>
    cases bs with
    | nil => rfl
    | cons b bs =>
      rw [List.compareLex_cons_cons, compareChars, ih, compareOn]
      cases compare a.toNat b.toNat <;> rfl

/-- Lists of texts compare lexicographically by text. -/
theorem compareTexts_eq_compareLex : compareTexts = List.compareLex compareText := by
  funext as bs
  induction as generalizing bs with
  | nil => cases bs <;> rfl
  | cons a as ih =>
    cases bs with
    | nil => rfl
    | cons b bs =>
      rw [List.compareLex_cons_cons, compareTexts, ih]
      cases compareText a b <;> rfl

instance : Std.TransCmp compareText where
  eq_swap {a b} := by
    simp only [compareText, compareChars_eq_compareLex]
    exact Std.OrientedCmp.eq_swap
  isLE_trans {a b c} := by
    simp only [compareText, compareChars_eq_compareLex]
    exact Std.TransCmp.isLE_trans

instance : Std.LawfulEqCmp compareText where
  compare_self {a} := by
    simp only [compareText, compareChars_eq_compareLex]
    exact Std.ReflCmp.compare_self
  eq_of_compare {a b} h := by
    simp only [compareText, compareChars_eq_compareLex] at h
    exact String.toList_inj.1 (Std.LawfulEqCmp.eq_of_compare h)

/-- A text compares equal to itself. -/
theorem compareText_self (a : String) : compareText a a = .eq := Std.ReflCmp.compare_self

instance : Std.TransCmp compareTexts := by
  rw [compareTexts_eq_compareLex]
  infer_instance

/-- A common beginning does not decide how lists of texts compare. -/
theorem compareTexts_append_left (pre : List String) (l m : List String) :
    compareTexts (pre ++ l) (pre ++ m) = compareTexts l m := by
  induction pre with
  | nil => rfl
  | cons a pre ih =>
    rw [List.cons_append, List.cons_append, compareTexts_eq_compareLex,
      List.compareLex_cons_cons, compareText_self, ← compareTexts_eq_compareLex, ih]
    rfl

/-- A list of texts comes before each of its proper extensions. -/
theorem compareTexts_extension (l : List String) (u : String) (w : List String) :
    compareTexts l (l ++ u :: w) = .lt := by
  have h := compareTexts_append_left l [] (u :: w)
  rw [List.append_nil] at h
  rw [h]
  rfl

/-- Lists of texts that part at a common position compare as the texts they part at. -/
theorem compareTexts_part (pre : List String) {u v : String} (ra rb : List String)
    (h : compareText u v = .lt) : compareTexts (pre ++ u :: ra) (pre ++ v :: rb) = .lt := by
  rw [compareTexts_append_left, compareTexts, h]

end Text

end TenantForest
