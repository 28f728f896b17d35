import TenantForest.Proofs.Listing

/-!
# A listing read page by page

A listing sorts the active units of a tenant that pass its filter in path order and answers
one page of them. The page request is clamped first: page 0 reads as page 1, and the size is
kept between 1 and 500. Page `q` of size `k` then holds the units at positions
`(q - 1) * k` up to `q * k`, or up to the end of the listing when that comes first; a page
past the end is empty. The answer counts the units and the pages, the fewest pages of `k`,
at least one, that hold them all, and says whether a later page exists.

Main statement: `list_pages_through_matching`. For every sorted arrangement of the matching
units (in a store whose identifiers are distinct there is exactly one), a listing answers
that slice with those counts; reading pages `1, …, P` returns the arrangement whole, and a
page reports a later page exactly when a later page holds a unit.

  §1 Pages — the slice a page holds, the page count, and when a later page holds a unit.
  §2 The listing — the sorted matching units are the only sorted arrangement of them.
  §3 Reading every page.
-/

namespace TenantForest

/-! ## §1 Pages -/

namespace PageRequest

/-- A clamped request asks for page 1 or later. -/
theorem one_le_page_clamp (page size : Nat) : 1 ≤ (clamp page size).page :=
  Nat.le_max_right _ _

/-- A clamped request asks for pages of at least one item. -/
theorem size_clamp_pos (page size : Nat) : 0 < (clamp page size).size := by
  simp only [clamp, maxPageSize]
  omega

/-- Clamping a page number that is already in range keeps it, and the size is clamped alike
for every page. -/
theorem clamp_succ (i page size : Nat) : clamp (i + 1) size = ⟨i + 1, (clamp page size).size⟩ := by
  simp [clamp]

/-- The items before a page and the items on it end where the page ends. -/
theorem offset_add_size {r : PageRequest} (hr : 1 ≤ r.page) : r.offset + r.size = r.page * r.size := by
  obtain ⟨q, hq⟩ : ∃ q, r.page = q + 1 := ⟨r.page - 1, by omega⟩
  simp only [offset, hq, Nat.add_sub_cancel, Nat.succ_mul]

/-- Page `r` holds the items from its offset on, up to the end of the page or of the listing,
whichever comes first. -/
theorem getElem?_window {α : Type} {r : PageRequest} (hr : 1 ≤ r.page) (items : List α)
    (i : Nat) :
    (r.window items)[i]? =
      if r.offset + i < min items.length (r.page * r.size) then items[r.offset + i]? else none := by
  have hend := offset_add_size hr
  simp only [window, limit, List.getElem?_take, List.getElem?_drop]
  by_cases hi : i < r.size
  · by_cases hn : r.offset + i < items.length
    · rw [if_pos hi, if_pos (Nat.lt_min.2 ⟨hn, by omega⟩)]
    · rw [if_pos hi, if_neg (fun h => hn (Nat.lt_min.1 h).1), List.getElem?_eq_none (by omega)]
  · rw [if_neg hi, if_neg (fun h => hi (by have := (Nat.lt_min.1 h).2; omega))]

/-- A page holds an item exactly when its offset lies within the listing. -/
theorem window_ne_nil_iff {α : Type} {r : PageRequest} (hk : 0 < r.size) {items : List α} :
    r.window items ≠ [] ↔ r.offset < items.length := by
  simp only [window, limit, ne_eq, List.take_eq_nil_iff, List.drop_eq_nil_iff, not_or, Nat.not_le]
  omega

end PageRequest

namespace Page

/-- A page holds the items it is built with. -/
@[simp] theorem items_build {α : Type} (items : List α) (r : PageRequest) (total : Nat) :
    (build items r total).items = items := rfl

/-- The page count of `n` items in pages of `k` is the fewest pages, at least one, that hold
them all: `⌈n / k⌉`, or 1 when there is nothing to list. -/
theorem pages_least {k n : Nat} (hk : 0 < k) :
    1 ≤ max ((n + k - 1) / k) 1 ∧ n ≤ max ((n + k - 1) / k) 1 * k ∧
      ∀ Q, 1 ≤ Q → n ≤ Q * k → max ((n + k - 1) / k) 1 ≤ Q := by
  refine ⟨Nat.le_max_right _ _, PageRequest.length_le_pages hk, fun Q hQ hn => ?_⟩
  -- `Q` pages hold the items, so the rounded-up quotient is below `Q + 1`
  have hlt : (n + k - 1) / k < Q + 1 := by
    rw [Nat.div_lt_iff_lt_mul hk, Nat.succ_mul]
    omega
  omega

/-- A page reports a later page exactly when some later page starts within the listing. -/
theorem lt_pages_iff {k n page : Nat} (hk : 0 < k) (hp : 1 ≤ page) :
    page < max ((n + k - 1) / k) 1 ↔ ∃ q, page < q ∧ (q - 1) * k < n := by
  constructor
  · intro h
    -- the next page starts within the listing: `page + 1` pages do not fit in fewer items
    have hle : page + 1 ≤ (n + k - 1) / k := by omega
    rw [Nat.le_div_iff_mul_le hk, Nat.succ_mul] at hle
    exact ⟨page + 1, Nat.lt_succ_self page, by rw [Nat.add_sub_cancel]; omega⟩
  · rintro ⟨q, hq, hn⟩
    have hpq : page * k ≤ (q - 1) * k := Nat.mul_le_mul_right k (by omega)
    have hle : page + 1 ≤ (n + k - 1) / k := by
      rw [Nat.le_div_iff_mul_le hk, Nat.succ_mul]
      omega
    omega

end Page

/-! ## §2 The listing -/

namespace Forest

open Store TenantForest.Order

variable {f : Forest} {t : Ident} {filter : Filter}

/-- A listing whose level bound, if any, is not negative answers page `r` of the matching units
in path order. -/
theorem list_eq_build (hlevel : ∀ m, filter.maxLevel = some m → 0 ≤ m) (r : PageRequest) :
    f.list t filter r = .ok (Page.build (r.window (f.store.matching f.settings.separator t filter))
      r (f.store.matching f.settings.separator t filter).length) := by
  unfold list
  split
  · rename_i m hm
    rw [if_neg (by have := hlevel m hm; omega)]
    rfl
  · rfl

/-- In a store whose identifiers are distinct, the matching units in path order are their only
arrangement in path order. -/
theorem matching_eq_of_sorted (hnd : (f.store.entities.map Entity.id).Nodup) {M : List Entity}
    (hperm : M.Perm ((f.store.activeOf t).filter filter.admits))
    (hsorted : M.Pairwise fun a b => byPath f.settings.separator a b ≠ .gt) :
    f.store.matching f.settings.separator t filter = M := by
  refine sortWith_eq_of_pairwise hperm hsorted fun a ha b hb hab => ?_
  -- two matching units equal in path order share an identifier, so they are one stored unit
  have hsub : ∀ e ∈ (f.store.activeOf t).filter filter.admits, e ∈ f.store.entities :=
    fun e he => (mem_activeOf.1 (List.mem_filter.1 he).1).1
  exact List.inj_on_of_nodup_map hnd (hsub a ha) (hsub b hb) (id_eq_of_byPath hab)

/-! ## §3 Reading every page -/

/-- **A listing read page by page.** In a store whose identifiers are distinct, let `M` be the
active units of tenant `t` that pass a filter with no negative level bound, arranged in path
order (segments of the path, then identifier). A request for page `page` of size `size`,
clamped to page `q ≥ 1` of size `k` between 1 and 500, answers: `M.length` items in all; the
fewest pages of `k`, at least one, that hold them; a later page exactly when `q` is below that
count; and the items of `M` from position `(q - 1) * k` up to `q * k` or the end of `M`,
whichever comes first. Reading pages `1, …, P` of size `k` returns `M` whole, each unit once,
and a page reports a later page exactly when a later page holds a unit. -/
theorem list_pages_through_matching (hnd : (f.store.entities.map Entity.id).Nodup)
    (hlevel : ∀ m, filter.maxLevel = some m → 0 ≤ m) {M : List Entity}
    (hperm : M.Perm ((f.store.activeOf t).filter filter.admits))
    (hsorted : M.Pairwise fun a b => byPath f.settings.separator a b ≠ .gt) (page size : Nat) :
    ∃ p, f.list t filter (PageRequest.clamp page size) = .ok p ∧
      p.totalItems = M.length ∧
      (1 ≤ p.totalPages ∧ M.length ≤ p.totalPages * p.size ∧
        ∀ Q, 1 ≤ Q → M.length ≤ Q * p.size → p.totalPages ≤ Q) ∧
      p.hasNext = decide (p.page < p.totalPages) ∧
      (∀ i, p.items[i]? = if (p.page - 1) * p.size + i < min M.length (p.page * p.size) then
        M[(p.page - 1) * p.size + i]? else none) ∧
      (∃ pages : List (Page Entity),
        (List.range p.totalPages).mapM
          (fun i => f.list t filter (PageRequest.clamp (i + 1) size)) = .ok pages ∧
        pages.flatMap Page.items = M ∧ ((pages.flatMap Page.items).map Entity.id).Nodup) ∧
      (p.hasNext = true ↔ ∃ q, p.page < q ∧
        ∃ p', f.list t filter (PageRequest.clamp q size) = .ok p' ∧ p'.items ≠ []) := by
  have hM := matching_eq_of_sorted hnd hperm hsorted
  have hk := PageRequest.size_clamp_pos page size
  have hq := PageRequest.one_le_page_clamp page size
  set r := PageRequest.clamp page size with hr
  have hlist : ∀ r', f.list t filter r' = .ok (Page.build (r'.window M) r' M.length) := by
    intro r'
    rw [list_eq_build hlevel, hM]
  refine ⟨_, hlist r, rfl, Page.pages_least hk, rfl, PageRequest.getElem?_window hq M, ?_, ?_⟩
  · -- the pages `1, …, P` in turn, which hold `M` in order
    set P := max ((M.length + r.size - 1) / r.size) 1 with hP
    have hpage : ∀ i, f.list t filter (PageRequest.clamp (i + 1) size) =
        .ok (Page.build ((⟨i + 1, r.size⟩ : PageRequest).window M) ⟨i + 1, r.size⟩ M.length) := by
      intro i
      rw [hlist, PageRequest.clamp_succ i page size, ← hr]
    have hcat : (List.range P).flatMap (fun i => (⟨i + 1, r.size⟩ : PageRequest).window M) = M :=
      PageRequest.window_flatMap r.size P M (PageRequest.length_le_pages hk)
    refine ⟨(List.range P).map fun i => Page.build ((⟨i + 1, r.size⟩ : PageRequest).window M)
      ⟨i + 1, r.size⟩ M.length, ?_, ?_, ?_⟩
    · simp only [hpage]
      exact List.mapM_pure
    · rw [List.flatMap_map]
      exact hcat
    · rw [List.flatMap_map]
      simp only [Page.items_build]
      rw [hcat]
      exact (hperm.map Entity.id).nodup_iff.2
        (hnd.sublist ((List.filter_sublist.trans List.filter_sublist).map _))
  · -- a later page holds a unit exactly when it starts within the listing
    have hlater : ∀ q, r.page < q → ((∃ p', f.list t filter (PageRequest.clamp q size) = .ok p' ∧
        p'.items ≠ []) ↔ (q - 1) * r.size < M.length) := by
      intro q hlt
      have hclamp : PageRequest.clamp q size = ⟨q, r.size⟩ := by
        obtain ⟨i, rfl⟩ : ∃ i, q = i + 1 := ⟨q - 1, by omega⟩
        rw [PageRequest.clamp_succ i page size, ← hr]
      rw [hclamp, hlist]
      simp only [Except.ok.injEq, exists_eq_left', Page.items_build]
      exact PageRequest.window_ne_nil_iff (r := ⟨q, r.size⟩) hk
    simp only [Page.build, decide_eq_true_eq]
    rw [Page.lt_pages_iff hk hq]
    constructor
    · rintro ⟨q, hlt, hn⟩
      exact ⟨q, hlt, (hlater q hlt).2 hn⟩
    · rintro ⟨q, hlt, hne⟩
      exact ⟨q, hlt, (hlater q hlt).1 hne⟩

/-- Two roots of one tenant, `B` stored before `A`. -/
def twoRootsStore : Store :=
  ⟨[{ id := Ident.serial 1, tenant := Ident.ofNat 1, name := "B", kind := .generic,
      parent := none, path := "B", level := 0, metadata := .record [], state := .active,
      version := 1, createdBy := none, updatedBy := none },
    { id := Ident.serial 2, tenant := Ident.ofNat 1, name := "A", kind := .generic,
      parent := none, path := "A", level := 0, metadata := .record [], state := .active,
      version := 1, createdBy := none, updatedBy := none }], 2⟩

/-- The two roots under the default settings. -/
def twoRootsForest : Forest := { store := twoRootsStore }

/-- Page 2 of size 1 of the two roots: path order puts `A` first, so the page holds `B`, and
the two pages together hold `A` and `B` once each. -/
theorem two_roots_pages_through_matching :
    (twoRootsForest.store.entities.map Entity.id).Nodup ∧
      (∀ m, ({} : Filter).maxLevel = some m → 0 ≤ m) ∧
      twoRootsForest.store.entities.reverse.Perm
        ((twoRootsForest.store.activeOf (Ident.ofNat 1)).filter ({} : Filter).admits) ∧
      twoRootsForest.store.entities.reverse.Pairwise
        (fun a b => byPath twoRootsForest.settings.separator a b ≠ .gt) ∧
      ∃ p, twoRootsForest.list (Ident.ofNat 1) {} (PageRequest.clamp 2 1) = .ok p ∧
        p.totalItems = twoRootsForest.store.entities.reverse.length ∧
        (1 ≤ p.totalPages ∧ twoRootsForest.store.entities.reverse.length ≤ p.totalPages * p.size ∧
          ∀ Q, 1 ≤ Q → twoRootsForest.store.entities.reverse.length ≤ Q * p.size →
            p.totalPages ≤ Q) ∧
        p.hasNext = decide (p.page < p.totalPages) ∧
        (∀ i, p.items[i]? =
          if (p.page - 1) * p.size + i <
              min twoRootsForest.store.entities.reverse.length (p.page * p.size) then
            twoRootsForest.store.entities.reverse[(p.page - 1) * p.size + i]? else none) ∧
        (∃ pages : List (Page Entity),
          (List.range p.totalPages).mapM
            (fun i => twoRootsForest.list (Ident.ofNat 1) {} (PageRequest.clamp (i + 1) 1)) =
              .ok pages ∧
          pages.flatMap Page.items = twoRootsForest.store.entities.reverse ∧
          ((pages.flatMap Page.items).map Entity.id).Nodup) ∧
        (p.hasNext = true ↔ ∃ q, p.page < q ∧ ∃ p',
          twoRootsForest.list (Ident.ofNat 1) {} (PageRequest.clamp q 1) = .ok p' ∧
            p'.items ≠ []) := by
  have hnd : (twoRootsForest.store.entities.map Entity.id).Nodup := by decide
  have hlevel : ∀ m, ({} : Filter).maxLevel = some m → 0 ≤ m := fun _ h => by cases h
  have hperm : twoRootsForest.store.entities.reverse.Perm
      ((twoRootsForest.store.activeOf (Ident.ofNat 1)).filter ({} : Filter).admits) :=
    (List.reverse_perm _).trans (List.Perm.of_eq rfl)
  have hsorted : twoRootsForest.store.entities.reverse.Pairwise
      (fun a b => byPath twoRootsForest.settings.separator a b ≠ .gt) := by
    decide +kernel
  exact ⟨hnd, hlevel, hperm, hsorted, list_pages_through_matching hnd hlevel hperm hsorted 2 1⟩

/-- The second page of size 1 holds `B` alone, and no later page follows. -/
example : (twoRootsForest.list (Ident.ofNat 1) {} (PageRequest.clamp 2 1)).map
    (fun p => (p.items.map Entity.name, p.totalPages, p.hasNext)) = .ok (["B"], 2, false) := by
  -- the matching units in path order are the two roots in reverse, so the page computes
  rw [list_eq_build (fun _ h => by cases h),
    matching_eq_of_sorted (M := twoRootsForest.store.entities.reverse) (by decide)
      ((List.reverse_perm _).trans (List.Perm.of_eq rfl)) (by decide +kernel)]
  rfl

end Forest

end TenantForest
