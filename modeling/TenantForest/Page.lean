/-!
# Pages

A listing is read one page at a time. A request names a page (from 1) and a page size;
out-of-range values are clamped rather than refused: page 0 reads as page 1, and the
size is kept between 1 and 500. The answer reports the total number of matching items
and of pages, where an empty listing still has one (empty) page.
-/

namespace TenantForest

/-- The largest page size. -/
def maxPageSize : Nat := 500

/-- The page size when none is asked for. -/
def defaultPageSize : Nat := 25

/-- A clamped page request. -/
structure PageRequest where
  /-- The page number, at least 1. -/
  page : Nat
  /-- The page size, between 1 and `maxPageSize`. -/
  size : Nat
  deriving DecidableEq, Repr, Inhabited

namespace PageRequest

/-- The request for page `page` of size `size`, clamped into range. -/
def clamp (page size : Nat) : PageRequest :=
  ⟨max page 1, min (max size 1) maxPageSize⟩

/-- How many items come before the page. -/
def offset (r : PageRequest) : Nat := (r.page - 1) * r.size

/-- How many items the page holds at most. -/
def limit (r : PageRequest) : Nat := r.size

/-- The items of the page, out of all items in order. -/
def window {α : Type} (r : PageRequest) (items : List α) : List α :=
  (items.drop r.offset).take r.limit

end PageRequest

/-- One page of a listing together with its position among all pages. -/
structure Page (α : Type) where
  /-- The items on this page. -/
  items : List α
  /-- The page number. -/
  page : Nat
  /-- The page size. -/
  size : Nat
  /-- How many items all pages hold together. -/
  totalItems : Nat
  /-- How many pages there are; at least one. -/
  totalPages : Nat
  /-- Whether a later page exists. -/
  hasNext : Bool
  deriving Repr

namespace Page

/-- The page `r` of a listing with `total` items, holding `items`. -/
def build {α : Type} (items : List α) (r : PageRequest) (total : Nat) : Page α :=
  let pages := max ((total + r.size - 1) / r.size) 1
  ⟨items, r.page, r.size, total, pages, decide (r.page < pages)⟩

end Page

end TenantForest
