import TenantForest.Ident

/-!
# Faults

Every operation of the forest either succeeds or fails with exactly one `Fault`. A fault
names its cause together with the data its message needs; its `Category` (not found,
cross tenant, cycle, validation, ...) and its message text are functions of it. Keeping
the cause structured, rather than a category and a string, lets a statement say *which*
check refused an operation.

The categories and their codes:

| category          | code               |
|-------------------|--------------------|
| `notFound`        | `NOT_FOUND`        |
| `crossTenant`     | `CROSS_TENANT`     |
| `cycleDetected`   | `CYCLE_DETECTED`   |
| `dependentsExist` | `DEPENDENTS_EXIST` |
| `validation`      | `VALIDATION`       |
| `conflict`        | `CONFLICT`         |
| `internal`        | `INTERNAL`         |
| `configuration`   | `CONFIGURATION`    |
-/

namespace TenantForest

/-- The category of a fault. -/
inductive Category where
  | notFound
  | crossTenant
  | cycleDetected
  | dependentsExist
  | validation
  | conflict
  | internal
  | configuration
  deriving DecidableEq, Repr, Inhabited

namespace Category

/-- The name of the category, as reported beside the code. -/
def name : Category → String
  | .notFound => "NotFound"
  | .crossTenant => "CrossTenant"
  | .cycleDetected => "CycleDetected"
  | .dependentsExist => "DependentsExist"
  | .validation => "Validation"
  | .conflict => "Conflict"
  | .internal => "Internal"
  | .configuration => "Configuration"

/-- The upper-case code of the category. -/
def code : Category → String
  | .notFound => "NOT_FOUND"
  | .crossTenant => "CROSS_TENANT"
  | .cycleDetected => "CYCLE_DETECTED"
  | .dependentsExist => "DEPENDENTS_EXIST"
  | .validation => "VALIDATION"
  | .conflict => "CONFLICT"
  | .internal => "INTERNAL"
  | .configuration => "CONFIGURATION"

end Category

/-- Why an operation was refused. -/
inductive Fault where
  /-- No active unit with this identifier in the tenant. -/
  | unitMissing (id : Ident)
  /-- The requested parent is not an active unit anywhere. -/
  | parentMissing (id : Ident)
  /-- The requested parent is an active unit of another tenant. -/
  | parentElsewhere (id : Ident)
  /-- A move asked for a unit to become its own parent. -/
  | underItself
  /-- A move asked for a unit to go below one of its own descendants. -/
  | underDescendant
  /-- A removal found active children. -/
  | hasChildren (path : String) (count : Nat)
  /-- A removal found active dependents. -/
  | hasDependents (path : String) (count : Nat)
  /-- A unit would sit deeper than the configured maximum depth. -/
  | tooDeep (level maxDepth : Int)
  /-- The requested name is missing altogether. -/
  | nameRequired
  /-- The metadata is not an object. -/
  | metadataNotRecord
  /-- The name is blank. -/
  | nameBlank
  /-- The name has more characters than allowed. -/
  | nameTooLong (limit : Nat)
  /-- The name contains the path separator. -/
  | nameHasSeparator (separator : String)
  /-- The text names no kind of unit. -/
  | unknownKind (text : String)
  /-- A listing asked for a negative level bound. -/
  | negativeMaxLevel
  /-- A hierarchy view asked for a negative depth bound. -/
  | negativeMaxDepth
  /-- The name is taken under the naming policy (`policy` is the policy's name). -/
  | nameTaken (name policy : String)
  /-- The store found the claimed name taken. -/
  | claimTaken (name : String)
  /-- A write carried a version that is no longer the unit's. -/
  | staleVersion (id : Ident)
  /-- Walking up from `id` revisited a unit or went deeper than the depth bound. -/
  | chainCorrupt (id : Ident)
  /-- Walking up from `id` reached a parent that is not an active unit of the tenant. -/
  | ancestorMissing (ancestor id : Ident)
  /-- A descendant came out of the walk before its parent. -/
  | reachedBeforeParent (id : Ident)
  /-- A unit in the given state cannot be retired. -/
  | cannotRetire (id : Ident) (state : String)
  /-- The path separator is blank. -/
  | separatorBlank
  /-- The maximum depth is negative. -/
  | depthNegative
  /-- The name length limit is zero. -/
  | nameLengthZero
  /-- The cascade batch size is zero. -/
  | batchZero
  /-- Metadata given as text is not a readable document. -/
  | metadataUnreadable (detail : String)
  /-- A move names neither a new parent nor the roots. -/
  | targetMissing
  deriving DecidableEq, Repr, Inhabited

namespace Fault

/-- The category a fault is reported under. -/
def category : Fault → Category
  | .unitMissing _ | .parentMissing _ => .notFound
  | .parentElsewhere _ => .crossTenant
  | .underItself | .underDescendant => .cycleDetected
  | .hasChildren _ _ | .hasDependents _ _ => .dependentsExist
  | .tooDeep _ _ | .nameRequired | .metadataNotRecord | .nameBlank | .nameTooLong _
  | .nameHasSeparator _ | .unknownKind _ | .negativeMaxLevel | .negativeMaxDepth
  | .metadataUnreadable _ | .targetMissing => .validation
  | .nameTaken _ _ | .claimTaken _ | .staleVersion _ => .conflict
  | .chainCorrupt _ | .ancestorMissing _ _ | .reachedBeforeParent _ | .cannotRetire _ _ =>
    .internal
  | .separatorBlank | .depthNegative | .nameLengthZero | .batchZero => .configuration

/-- The message of a fault. -/
def message : Fault → String
  | .unitMissing id => "Entity " ++ id.text ++ " not found"
  | .parentMissing id => "Parent entity " ++ id.text ++ " not found"
  | .parentElsewhere id => "Parent entity " ++ id.text ++ " belongs to another tenant"
  | .underItself => "Cannot move an entity under itself"
  | .underDescendant => "Cannot move an entity under one of its descendants"
  | .hasChildren path n =>
    "Entity '" ++ path ++ "' still has " ++ toString n ++ " active child entities"
  | .hasDependents path n =>
    "Entity '" ++ path ++ "' still has " ++ toString n ++ " active dependents"
  | .tooDeep level maxDepth =>
    "Level " ++ toString level ++ " exceeds the maximum depth of " ++ toString maxDepth
  | .nameRequired => "Invalid entity: name: Entity name is required"
  | .metadataNotRecord => "Invalid entity: metadata: Metadata must be a JSON object"
  | .nameBlank => "Entity name cannot be empty"
  | .nameTooLong limit => "Entity name exceeds " ++ toString limit ++ " characters"
  | .nameHasSeparator sep => "Entity name cannot contain the path separator '" ++ sep ++ "'"
  | .unknownKind text =>
    "Invalid entity type: '" ++ text ++ "'. Expected one of: generic, company, department"
  | .negativeMaxLevel => "max_level must not be negative"
  | .negativeMaxDepth => "max_depth must not be negative"
  | .nameTaken name policy =>
    "An active entity named '" ++ name ++ "' already exists (" ++ policy ++ " scope)"
  | .claimTaken name => "An active entity named '" ++ name ++ "' already exists"
  | .staleVersion id => "Entity " ++ id.text ++ " was modified concurrently"
  | .chainCorrupt id => "Ancestor chain of entity " ++ id.text ++ " is corrupt"
  | .ancestorMissing a id => "Ancestor " ++ a.text ++ " of entity " ++ id.text ++ " is missing"
  | .reachedBeforeParent id => "Descendant " ++ id.text ++ " was reached before its parent"
  | .cannotRetire id state =>
    "Entity " ++ id.text ++ " cannot be deactivated from state " ++ state
  | .separatorBlank => "hierarchy.path_separator must contain a visible character"
  | .depthNegative => "hierarchy.max_depth must not be negative"
  | .nameLengthZero => "hierarchy.max_name_length must be positive"
  | .batchZero => "hierarchy.cascade_batch_size must be positive"
  | .metadataUnreadable detail => "Invalid metadata JSON: " ++ detail
  | .targetMissing => "Specify a new parent with --parent or pass --root"

end Fault

end TenantForest
