import TenantForest.Entity
import TenantForest.Settings

/-!
# Names and paths

A name is accepted in trimmed form: it must not be blank, must have at most
`maxNameLength` characters (Unicode scalar values), and must not contain the trimmed
separator. The last rule is what makes paths readable back into names: the segments of
a path cut at the separator are exactly the names it was built from.

Paths are never patched in place; a unit's path and level always come from its parent's
current path and level: a root named `n` has path `n` and level 0, and a child named
`n` of a unit with path `p` and level `l` has path `p ++ separator ++ n` and level
`l + 1`.

Levels are integers without bound, so `l + 1` never wraps. A 32-bit level would: below a unit
at level `2 ^ 31 - 1` it would come out as `-2 ^ 31`. A parent at that level passes a depth
check only when the maximum depth is at least `2 ^ 31 - 1`; otherwise it must have been written
directly (`Store.forcePath`). A cascade from a head within the maximum depth derives at most
one level past it (`Forest.planCascade_tooDeep`).
-/

namespace TenantForest

namespace Settings

/-- The trimmed name, or why it is refused: blank, too long, or containing the trimmed
separator (checked in this order). -/
def validateName (s : Settings) (name : String) : Except Fault String :=
  let trimmed := Text.trim name
  let sep := Text.trim s.separator
  if trimmed.isEmpty then .error .nameBlank
  else if trimmed.length > s.maxNameLength then .error (.nameTooLong s.maxNameLength)
  else if Text.contains trimmed sep then .error (.nameHasSeparator sep)
  else .ok trimmed

/-- The path and level of a unit named `name` below a parent with path `parentPath` and
level `parentLevel`; the level is one more than the parent's, with no wrap at 32 bits. -/
def childOf (s : Settings) (parentPath : String) (parentLevel : Int) (name : String) :
    String × Int :=
  (parentPath ++ s.separator ++ name, parentLevel + 1)

/-- The path and level of a unit named `name` below `parent`, or as a root. -/
def derive (s : Settings) (name : String) : Option Entity → String × Int
  | some p => s.childOf p.path p.level name
  | none => (name, 0)

/-- Whether `level` exceeds the maximum depth. -/
def checkDepth (s : Settings) (level : Int) : Except Fault Unit :=
  if level > s.maxDepth then .error (.tooDeep level s.maxDepth) else .ok ()

end Settings

end TenantForest
