import TenantForest.Proofs.Preorder
import TenantForest.Proofs.Names

/-!
# The hierarchy reads as the listing

Under a naming policy that keeps sibling names apart and a separator that trims to one
character, the hierarchy of a tenant in a reachable forest is its active units sorted in path
order, and so an unfiltered listing read page by page returns the hierarchy.

Three facts about reachable forests make the active units of a tenant a layout in the sense of
`Order.Layout`, on which `Order.Layout.hierarchy_eq` equates the two orders:

* no name contains the trimmed separator (`Store.NamesFree`), since every name a unit gets
  passed `Settings.validateName`; so a path, the names of the root path joined by the
  separator, is cut back into those names (`Text.segments_intercalate`);
* every active unit stands where its parent link puts it (`Store.Shaped`);
* siblings have distinct names (`Store.NamesUnique`), which every policy but `none` demands.

  §1 Names free of the separator.
  §2 The layout of a tenant.
  §3 Reading a listing page by page.
  §4 The hierarchy is the listing.
-/

namespace TenantForest

/-! ## §1 Names free of the separator -/

/-- A name that passes validation does not contain the trimmed separator. -/
theorem Settings.validateName_free {st : Settings} {name name' : String}
    (h : st.validateName name = .ok name') :
    Text.contains name' (Text.trim st.separator) = false := by
  unfold Settings.validateName at h
  dsimp only at h
  split_ifs at h with hblank hlong hsep
  cases h
  simpa using hsep

namespace Store

/-- No unit's name contains the trimmed separator `sep`. -/
def NamesFree (sep : String) (s : Store) : Prop :=
  ∀ e ∈ s.entities, Text.contains e.name (Text.trim sep) = false

variable {sep : String} {s s' : Store}

/-- Placing a draft whose name is free keeps names free. -/
theorem NamesFree.place (h : s.NamesFree sep) {d : Draft}
    (hd : Text.contains d.name (Text.trim sep) = false) : (s.place d).2.NamesFree sep := by
  intro e he
  rw [entities_place, List.mem_append, List.mem_singleton] at he
  rcases he with he | rfl
  · exact h e he
  · exact hd

/-- A commit keeps names free when the name it gives its head, if any, is free: the cascade
rows leave names alone. -/
theorem NamesFree.commit (h : s.NamesFree sep) {c : Change} {claim : Option NameClaim}
    {e : Entity} (hname : ∀ n, c.edit.name = some n → Text.contains n (Text.trim sep) = false)
    (hrun : (Store.commit c claim).run s = .ok e s') : s'.NamesFree sep := by
  obtain ⟨-, -, -, -, rfl⟩ := commit_ok hrun
  intro u hu
  rw [entities_commit, List.mem_map] at hu
  obtain ⟨u₀, hu₀, rfl⟩ := hu
  have hkeep : (rowsApplied c.cascade u₀).name = u₀.name :=
    (relocated_rowsApplied c.cascade u₀).name_eq
  split
  · -- the head: the name the edit gives, or the one it had
    cases hn : c.edit.name with
    | none => simpa [stamp, Edit.apply, hn, hkeep] using h u₀ hu₀
    | some n => simpa [stamp, Edit.apply, hn] using hname n hn
  · rw [hkeep]
    exact h u₀ hu₀

end Store

namespace Forest

open Store

variable {f : Forest}

/-- Every call keeps names free of the trimmed separator: a create or a rename gives a
validated name, a move or a removal gives none. -/
theorem namesFree_after (hfree : f.store.NamesFree f.settings.separator) (c : Call) :
    (f.after c).store.NamesFree f.settings.separator := by
  rcases after_cases f c with same | ⟨r, e, -, h⟩ | ⟨id, name, e, -, h⟩ |
    ⟨id, target, e, -, h⟩ | ⟨id, e, -, h⟩
  · rw [same.1]
    exact hfree
  all_goals generalize f.after c = f' at h ⊢
  · obtain ⟨name, _, _, _, -, hn, -, -, -, -, s', hins, rfl⟩ := create_ok h
    obtain ⟨-, hplace⟩ := insert_ok.1 hins
    show s'.NamesFree _
    rw [show s' = (f.store.place _).2 from (congrArg Prod.snd hplace).symm]
    exact hfree.place (Settings.validateName_free hn)
  · obtain ⟨name, node, hn, -, ⟨-, -, rfl⟩ | ⟨-, -, _, _, _, _, -, -, -, s', hcommit, rfl⟩⟩ :=
      rename_ok h
    · exact hfree
    · refine hfree.commit (fun n hn' => ?_) hcommit
      obtain rfl : name = n := Option.some.inj hn'
      exact Settings.validateName_free hn
  · obtain ⟨_, _, -, -, ⟨-, -, rfl⟩ | ⟨-, _, _, _, -, -, -, -, s', hcommit, rfl⟩⟩ := move_ok h
    · exact hfree
    · exact hfree.commit (fun n hn' => by cases hn') hcommit
  · obtain ⟨_, -, -, -, -, s', hupdate, rfl⟩ := remove_ok h
    exact hfree.commit (fun n hn' => by cases hn') hupdate

/-- In every reachable forest no name contains the trimmed separator. -/
theorem Reachable.namesFree {st : Settings} (h : Reachable st f) :
    f.store.NamesFree st.separator := by
  induction h with
  | empty => exact fun e he => absurd he List.not_mem_nil
  | @after f c hr ih =>
    have hst : f.settings = st := hr.settings_eq
    have step := namesFree_after (hst ▸ ih) c
    rwa [hst] at step

end Forest

/-! ## §2 The layout of a tenant -/

/-- Under a policy other than `none`, units of one tenant with one parent and one name
clash. -/
theorem NamePolicy.clash_of_namedAlike {p : NamePolicy} (hp : p ≠ .none) {a b : Entity}
    (h : a.NamedAlike b) : p.Clash a b := by
  obtain ⟨ht, hpar, hn⟩ := h
  cases p with
  | global => exact hn
  | tenant => exact ⟨ht, hn⟩
  | siblings => exact ⟨ht, hpar, hn⟩
  | none => exact absurd rfl hp

namespace Store

variable {st : Settings} {s : Store} {c : Char}

/-- In a shaped store whose names do not contain `c`, the path of an active unit is the names
of its root path, root first, joined by the separator, none of them containing `c`. -/
theorem Shaped.path_eq_intercalate (hs : s.Shaped st) (hfree : ∀ u ∈ s.entities, c ∉ u.name.toList)
    {t : Ident} {e : Entity} (he : e ∈ s.activeOf t) :
    ∃ ns, ns ≠ [] ∧ (∀ n ∈ ns, c ∉ n.toList) ∧ e.path = st.separator.intercalate ns := by
  obtain ⟨ch, hch, -, hpath, -, -⟩ := hs.rootPath_of_active he
  obtain ⟨u, rest, rfl, -⟩ := hch.head
  refine ⟨((u :: rest).map Entity.name).reverse, by simp, fun n hn => ?_, hpath.symm⟩
  simp only [List.mem_reverse, List.mem_map] at hn
  obtain ⟨v, hv, rfl⟩ := hn
  exact hfree v (mem_of_active? (hch.active v hv)).1

/-- **A tenant is laid out as a forest.** In a shaped store with unique names under a policy
other than `none`, whose names do not contain the one character `c` the separator trims to,
the active units of a tenant have distinct identifiers and parents among them, a root's path
key is its name, a child's is its parent's followed by its name, and siblings have distinct
names. -/
theorem Shaped.layout (hs : s.Shaped st) (hu : s.NamesUnique st.policy)
    (hpol : st.policy ≠ .none) (hsep : (Text.trim st.separator).toList = [c])
    (hfree : ∀ u ∈ s.entities, c ∉ u.name.toList) (t : Ident) :
    Order.Layout st.separator (s.activeOf t) := by
  have hk := hs.keyed
  -- an active unit of `t`, and its path key once its path is a join of free names
  have active : ∀ {e}, e ∈ s.activeOf t →
      e ∈ s.entities ∧ e.isActive = true ∧ e.tenant = t := fun he => by
    obtain ⟨hm, ht⟩ := mem_activeOf.1 he
    simp only [Entity.activeIn, Bool.and_eq_true, beq_iff_eq] at ht
    exact ⟨hm, ht.2, ht.1⟩
  have key : ∀ {e : Entity} {ns : List String}, ns ≠ [] → (∀ n ∈ ns, c ∉ n.toList) →
      e.path = st.separator.intercalate ns → Order.pathKey st.separator e = ns :=
    fun hne hclean hpath => by
      rw [Order.pathKey, hpath]
      exact Text.segments_intercalate hsep hne hclean
  refine ⟨hk.nodup_activeOf t, fun e he p hp => ?_, fun e he hp => ?_,
    fun e he P hP hp => ?_, fun a ha b hb hpar hname => ?_⟩
  · -- the parent is an active unit of the same tenant
    obtain ⟨hm, hact, hten⟩ := active he
    obtain ⟨q, hq, -, -⟩ := (hs.placed e hm hact).child hp
    obtain ⟨hqm, hqid, hqt, hqa⟩ := mem_of_active? hq
    exact ⟨q, mem_activeOf.2 ⟨hqm, by simp [Entity.activeIn, hqt, hten, hqa]⟩, hqid⟩
  · -- a root's path is its name
    obtain ⟨hm, hact, -⟩ := active he
    obtain ⟨hpath, -⟩ := (hs.placed e hm hact).root hp
    exact key (by simp) (by simpa using hfree e hm) (by rw [hpath, String.intercalate_singleton])
  · -- a child's path is its parent's, the separator and its name
    obtain ⟨hm, hact, -⟩ := active he
    obtain ⟨q, hq, hpath, -⟩ := (hs.placed e hm hact).child hp
    obtain ⟨hqm, hqid, -, -⟩ := mem_of_active? hq
    obtain rfl : q = P := hk.eq_of_id_eq hqm (active hP).1 hqid
    obtain ⟨ns, hne, hclean, hqpath⟩ := hs.path_eq_intercalate hfree hP
    rw [key hne hclean hqpath]
    refine key (by simp) (fun n hn => ?_) ?_
    · rcases List.mem_append.1 hn with hn | hn
      · exact hclean n hn
      · rw [List.mem_singleton.1 hn]
        exact hfree e hm
    · rw [hpath, hqpath, intercalate_append_singleton _ _ hne]
  · -- siblings of one name would clash
    obtain ⟨ham, haa, hat⟩ := active ha
    obtain ⟨hbm, hba, hbt⟩ := active hb
    by_contra hne
    exact hu a ham b hbm haa hba (fun hid => hne (hk.eq_of_id_eq ham hbm hid))
      (NamePolicy.clash_of_namedAlike hpol ⟨hat.trans hbt.symm, hpar, hname⟩)

end Store

/-! ## §3 Reading a listing page by page -/

namespace PageRequest

/-- Reading pages `1, …, P` of size `k` reads a listing whole when `P` pages of `k` hold it. -/
theorem window_flatMap {α : Type} (k : Nat) :
    ∀ (P : Nat) (items : List α), items.length ≤ P * k →
      (List.range P).flatMap (fun i => window ⟨i + 1, k⟩ items) = items := by
  intro P
  induction P with
  | zero =>
    intro items h
    obtain rfl : items = [] := List.eq_nil_of_length_eq_zero (by simpa using h)
    rfl
  | succ P ih =>
    intro items h
    -- the first page, then the later pages of what follows it
    have later : (List.range P).flatMap (fun i => window ⟨i + 1 + 1, k⟩ items) =
        items.drop k := by
      rw [← ih (items.drop k) (by simp only [List.length_drop]; rw [Nat.succ_mul] at h; omega)]
      refine List.flatMap_congr fun i _ => ?_
      simp only [window, offset, limit, List.drop_drop, Nat.add_sub_cancel]
      rw [Nat.add_mul, Nat.one_mul, Nat.add_comm]
    rw [List.range_succ_eq_map, List.flatMap_cons, List.flatMap_map]
    simp only [Nat.succ_eq_add_one] at later ⊢
    rw [later]
    simp [window, offset, limit]

/-- A page count rounded up holds the items: `⌈n / k⌉` pages of `k`, at least one. -/
theorem length_le_pages {k n : Nat} (hk : 0 < k) : n ≤ max ((n + k - 1) / k) 1 * k := by
  have hdiv := Nat.div_add_mod (n + k - 1) k
  have hmod := Nat.mod_lt (n + k - 1) hk
  generalize (n + k - 1) / k = q at hdiv ⊢
  generalize (n + k - 1) % k = r at hdiv hmod
  have hq : q * k ≤ max q 1 * k := Nat.mul_le_mul_right k (Nat.le_max_left q 1)
  rw [Nat.mul_comm] at hdiv
  omega

end PageRequest

/-! ## §4 The hierarchy is the listing -/

namespace Forest

open Store

variable {f : Forest}

/-- An unfiltered listing is the active units of the tenant in path order, page by page. -/
theorem list_unfiltered (t : Ident) (r : PageRequest) :
    f.list t {} r = .ok (Page.build (r.window (Order.sortWith (Order.byPath f.settings.separator)
      (f.store.activeOf t))) r (f.store.activeOf t).length) := by
  have hall : (f.store.activeOf t).filter ({} : Filter).admits = f.store.activeOf t :=
    List.filter_eq_self.2 fun e _ => by simp [Filter.admits]
  simp only [list, Store.list, matching, hall, Order.sortWith, List.length_mergeSort]

/-- **The hierarchy is the listing.** In a reachable forest under a policy other than `none`,
with a separator that trims to one character, the hierarchy of every tenant is its active units
sorted in path order. An unfiltered listing read from page 1 on, for as long as a page says a
later one exists, returns the same units in the same order, whatever the page size. -/
theorem hierarchy_matches_listing {st : Settings} (hf : Reachable st f)
    (hpol : st.policy ≠ .none) (hsep : (Text.trim st.separator).length = 1) (t : Ident) :
    f.hierarchy t none = .ok (Order.sortWith (Order.byPath st.separator) (f.store.activeOf t)) ∧
    ∀ size, 0 < size → ∃ pages : List (Page Entity), pages ≠ [] ∧
      (List.range pages.length).mapM (fun i => f.list t {} ⟨i + 1, size⟩) = .ok pages ∧
      (∀ p ∈ pages, p.hasNext = decide (p.page < pages.length)) ∧
      pages.flatMap Page.items =
        Order.sortWith (Order.byPath st.separator) (f.store.activeOf t) := by
  have hst : f.settings = st := hf.settings_eq
  obtain ⟨c, hc⟩ : ∃ c, (Text.trim st.separator).toList = [c] :=
    List.length_eq_one_iff.1 (by rw [String.length_toList, hsep])
  have hfree : ∀ u ∈ f.store.entities, c ∉ u.name.toList := fun u hu =>
    Text.not_mem_of_contains_eq_false hc (hf.namesFree u hu)
  have hlayout := hf.shaped.layout hf.namesUnique hpol hc hfree t
  refine ⟨?_, fun size hsize => ?_⟩
  · simp only [hierarchy, Store.hierarchy, hst, hlayout.hierarchy_eq]
  · -- the pages `1, …, P`, where `P` is the page count every page reports
    set items := Order.sortWith (Order.byPath st.separator) (f.store.activeOf t) with hitems
    have hlen : items.length = (f.store.activeOf t).length := List.length_mergeSort _
    set P := max (((f.store.activeOf t).length + size - 1) / size) 1 with hP
    have hpage : ∀ i, f.list t {} ⟨i + 1, size⟩ =
        .ok (Page.build ((⟨i + 1, size⟩ : PageRequest).window items) ⟨i + 1, size⟩
          (f.store.activeOf t).length) := by
      intro i
      rw [list_unfiltered, hst]
    refine ⟨(List.range P).map fun i => Page.build ((⟨i + 1, size⟩ : PageRequest).window items)
      ⟨i + 1, size⟩ (f.store.activeOf t).length, by simp [hP], ?_, ?_, ?_⟩
    · simp only [List.length_map, List.length_range, hpage]
      exact List.mapM_pure
    · intro p hp
      obtain ⟨i, -, rfl⟩ := List.mem_map.1 hp
      simp [Page.build, hP]
    · rw [List.flatMap_map]
      exact PageRequest.window_flatMap size P items
        (hlen ▸ PageRequest.length_le_pages hsize)

/-- A root `Acme` with children `Sales` and `Finance`, and `East` below `Sales`, created under
the default settings. -/
def acmeTreeForest : Forest :=
  ((((Forest.empty {}).after
    { tenant := Ident.ofNat 7, request := .create { name := "Acme" } }).after
    { tenant := Ident.ofNat 7,
      request := .create { name := "Sales", parent := some (Ident.serial 1) } }).after
    { tenant := Ident.ofNat 7,
      request := .create { name := "Finance", parent := some (Ident.serial 1) } }).after
    { tenant := Ident.ofNat 7,
      request := .create { name := "East", parent := some (Ident.serial 2) } }

/-- The hierarchy of `Acme`'s tenant, with `Finance` created after `Sales`, is its path order. -/
theorem acme_tree_hierarchy_in_path_order :
    Reachable {} acmeTreeForest ∧ ({} : Settings).policy ≠ .none ∧
      (Text.trim ({} : Settings).separator).length = 1 ∧
      acmeTreeForest.hierarchy (Ident.ofNat 7) none =
        .ok (Order.sortWith (Order.byPath " > ")
          (acmeTreeForest.store.activeOf (Ident.ofNat 7))) := by
  have hreach : Reachable {} acmeTreeForest := .after _ (.after _ (.after _ (.after _ .empty)))
  have hpol : ({} : Settings).policy ≠ .none := by decide
  have hsep : (Text.trim ({} : Settings).separator).length = 1 := by decide
  exact ⟨hreach, hpol, hsep, (hierarchy_matches_listing hreach hpol hsep (Ident.ofNat 7)).1⟩

end Forest

end TenantForest
