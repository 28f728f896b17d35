import TenantForest.Report
import TenantForest.Document.Read

/-!
# The operator's console

An operator drives a forest one command line at a time. A line names the tenant and,
optionally, the acting user, then one command with its arguments:

```
--tenant <id> [--actor <id>] create --name <name> [--type <kind>] [--parent <id>] [--metadata <json>]
--tenant <id> get <id>
--tenant <id> list [--type <kind>] [--parent <id>] [--roots] [--name <text>] [--max-level <n>]
                   [--page <n>] [--page-size <n>]
--tenant <id> children <id>
--tenant <id> rename <id> --name <name>
--tenant <id> move <id> (--parent <id> | --root)
--tenant <id> remove <id> [--yes]
--tenant <id> hierarchy [--max-depth <n>]
--tenant <id> tree [--max-depth <n>]
--tenant <id> ancestors <id>
--tenant <id> stats
--tenant <id> verify
--tenant <id> dependents <id> <count>
```

Words are separated by blanks; a word in double quotes may hold blanks, quotes (`\"`) and
backslashes (`\\`), and a word in single quotes is taken as it stands. Each command
answers with a document, or with a line of text for a removal; a refusal is reported as
its code and message.

This module only reads lines and runs commands; reading from and writing to the terminal
is the program's outer layer.
-/

namespace TenantForest

namespace Console

/-! ## Words -/

/-- The rest of a double-quoted word, `acc` so far (reversed). -/
def quoted : List Char → List Char → Except String (String × List Char)
  | [], _ => .error "unterminated quote"
  | '"' :: cs, acc => .ok (String.ofList acc.reverse, cs)
  | '\\' :: c :: cs, acc => quoted cs (c :: acc)
  | c :: cs, acc => quoted cs (c :: acc)

/-- The rest of a single-quoted word, `acc` so far (reversed). -/
def literal : List Char → List Char → Except String (String × List Char)
  | [], _ => .error "unterminated quote"
  | '\'' :: cs, acc => .ok (String.ofList acc.reverse, cs)
  | c :: cs, acc => literal cs (c :: acc)

/-- The rest of a bare word, up to a blank. -/
def bare (cs : List Char) : String × List Char :=
  (String.ofList (cs.takeWhile (fun c => !Text.isBlank c)), cs.dropWhile (fun c => !Text.isBlank c))

/-- The words of a line, `acc` so far (reversed); `fuel` bounds the number of words. -/
def wordsFrom : Nat → List Char → List String → Except String (List String)
  | 0, _, acc => .ok acc.reverse
  | fuel + 1, cs, acc =>
    match cs.dropWhile Text.isBlank with
    | [] => .ok acc.reverse
    | '"' :: rest =>
      match quoted rest [] with
      | .ok (w, r) => wordsFrom fuel r (w :: acc)
      | .error e => .error e
    | '\'' :: rest =>
      match literal rest [] with
      | .ok (w, r) => wordsFrom fuel r (w :: acc)
      | .error e => .error e
    | rest =>
      let (w, r) := bare rest
      wordsFrom fuel r (w :: acc)

/-- The words of a line. -/
def words (line : String) : Except String (List String) :=
  wordsFrom (line.length + 1) line.toList []

/-! ## Commands -/

/-- A console command. -/
inductive Command where
  | create (name : String) (kind : String) (parent : Option Ident) (metadata : Option String)
  | get (id : Ident)
  | list (kind : Option String) (parent : Option Ident) (roots : Bool) (name : Option String)
      (maxLevel : Option Int) (page size : Nat)
  | children (id : Ident)
  | rename (id : Ident) (name : String)
  | move (id : Ident) (parent : Option Ident) (root : Bool)
  | remove (id : Ident)
  | hierarchy (maxDepth : Option Int)
  | tree (maxDepth : Option Int)
  | ancestors (id : Ident)
  | stats
  | verify
  | dependents (id : Ident) (count : Nat)
  deriving Inhabited

/-- A command line: tenant, acting user and command. -/
structure Invocation where
  /-- The tenant addressed. -/
  tenant : Ident
  /-- The acting user, if any. -/
  actor : Option Ident
  /-- What to do. -/
  command : Command
  deriving Inhabited

/-- Options and positional words of a command, split apart: an option is a word starting
with `--`, taking the next word as its value unless it is a flag. -/
structure Args where
  /-- The options with their values. -/
  options : List (String × String) := []
  /-- The flags given. -/
  flags : List String := []
  /-- The other words, in order. -/
  positional : List String := []

/-- Options that take no value. -/
def flagNames : List String := ["--roots", "--root", "--yes"]

/-- Sorts the words of a command into options, flags and positional words. -/
def sortArgs : List String → Args → Except String Args
  | [], a => .ok { a with positional := a.positional.reverse }
  | w :: ws, a =>
    if flagNames.contains w then sortArgs ws { a with flags := w :: a.flags }
    else if w.startsWith "--" then
      match ws with
      | v :: rest => sortArgs rest { a with options := (w, v) :: a.options }
      | [] => .error ("missing value for " ++ w)
    else sortArgs ws { a with positional := w :: a.positional }

/-- The value of an option, if given. -/
def Args.option? (a : Args) (name : String) : Option String :=
  (a.options.find? (fun o => o.1 == name)).map Prod.snd

/-- An identifier written out. -/
def ident (w : String) : Except String Ident :=
  match Ident.parse w with
  | some i => .ok i
  | none => .error ("invalid identifier: " ++ w)

/-- An optional identifier option. -/
def identOption (a : Args) (name : String) : Except String (Option Ident) :=
  match a.option? name with
  | some w => (ident w).map some
  | none => .ok none

/-- A whole number written out, possibly negative. -/
def integer (w : String) : Except String Int :=
  match w.toList with
  | '-' :: ds => match Text.natural? (String.ofList ds) with
    | some n => .ok (-(n : Int))
    | none => .error ("invalid number: " ++ w)
  | ds => match Text.natural? (String.ofList ds) with
    | some n => .ok n
    | none => .error ("invalid number: " ++ w)

/-- An optional number option. -/
def intOption (a : Args) (name : String) : Except String (Option Int) :=
  match a.option? name with
  | some w => (integer w).map some
  | none => .ok none

/-- A natural number option with a default. -/
def natOption (a : Args) (name : String) (default : Nat) : Except String Nat :=
  match a.option? name with
  | some w => match Text.natural? w with
    | some n => .ok n
    | none => .error ("invalid number: " ++ w)
  | none => .ok default

/-- The single positional identifier of a command. -/
def target (a : Args) : Except String Ident :=
  match a.positional with
  | [w] => ident w
  | _ => .error "expected one entity id"

/-- A required option. -/
def required (a : Args) (name : String) : Except String String :=
  match a.option? name with
  | some v => .ok v
  | none => .error ("missing " ++ name)

/-- The command named `verb` with its arguments. -/
def command (verb : String) (a : Args) : Except String Command :=
  match verb with
  | "create" => do
    pure (.create (← required a "--name") ((a.option? "--type").getD "generic")
      (← identOption a "--parent") (a.option? "--metadata"))
  | "get" => .get <$> target a
  | "list" => do
    pure (.list (a.option? "--type") (← identOption a "--parent") (a.flags.contains "--roots")
      (a.option? "--name") (← intOption a "--max-level") (← natOption a "--page" 1)
      (← natOption a "--page-size" defaultPageSize))
  | "children" => .children <$> target a
  | "rename" => do pure (.rename (← target a) (← required a "--name"))
  | "move" => do pure (.move (← target a) (← identOption a "--parent") (a.flags.contains "--root"))
  | "remove" => .remove <$> target a
  | "hierarchy" => .hierarchy <$> intOption a "--max-depth"
  | "tree" => .tree <$> intOption a "--max-depth"
  | "ancestors" => .ancestors <$> target a
  | "stats" => .ok .stats
  | "verify" => .ok .verify
  | "dependents" =>
    match a.positional with
    | [w, n] => do
      match Text.natural? n with
      | some k => pure (.dependents (← ident w) k)
      | none => throw ("invalid number: " ++ n)
    | _ => .error "expected an entity id and a count"
  | other => .error ("unknown command: " ++ other)

/-- Reads a command line: global options, then the command word and its arguments. -/
def parse (line : String) : Except String Invocation := do
  let ws ← words line
  let rec globals : Nat → List String → Option Ident → Option Ident →
      Except String (Option Ident × Option Ident × List String)
    | 0, rest, t, u => .ok (t, u, rest)
    | fuel + 1, "--tenant" :: v :: rest, _, u => do globals fuel rest (some (← ident v)) u
    | fuel + 1, "--actor" :: v :: rest, t, _ => do globals fuel rest t (some (← ident v))
    | _, rest, t, u => .ok (t, u, rest)
  let (tenant, actor, rest) ← globals ws.length ws none none
  match tenant, rest with
  | none, _ => throw "missing --tenant"
  | some t, verb :: args => pure ⟨t, actor, ← command verb (← sortArgs args {})⟩
  | some _, [] => throw "missing command"

/-! ## Running -/

/-- What a command answers: a document, or a line of text. -/
inductive Outcome where
  | document (d : Document)
  | message (text : String)

/-- The request a command makes, once the texts it carries for a kind and for metadata
are read; a move must name a new parent or the roots. -/
def Command.request : Command → Except Fault Request
  | .create name kindText parent metadata => do
    let kind ← Kind.parse kindText
    let doc ← match metadata with
      | some text =>
        match Document.read text with
        | .ok d => pure d
        | .error e => throw (.metadataUnreadable e)
      | none => pure (.record [])
    pure (.create ⟨name, kind, parent, doc⟩)
  | .get id => .ok (.get id)
  | .list kindText parent roots name maxLevel page size => do
    let kind ← match kindText with
      | some k => some <$> Kind.parse k
      | none => pure none
    let filter : Filter :=
      { kind := kind, parent := parent, rootsOnly := roots, nameContains := name,
        maxLevel := maxLevel }
    pure (.list filter (PageRequest.clamp page size))
  | .children id => .ok (.children id)
  | .rename id name => .ok (.rename id name)
  | .move id parent root =>
    if parent.isNone && !root then .error .targetMissing else .ok (.move id parent)
  | .remove id => .ok (.remove id)
  | .hierarchy maxDepth => .ok (.hierarchy maxDepth)
  | .tree maxDepth => .ok (.tree maxDepth)
  | .ancestors id => .ok (.ancestors id)
  | .stats => .ok .stats
  | .verify => .ok .verify
  | .dependents id n => .ok (.setDependents id n)

/-- How a command's reply is shown: a removal and a change of dependents as a line of
text, everything else as its document. -/
def shown : Command → Reply → Outcome
  | .remove _, .unit e => .message ("✓ Entity '" ++ e.path ++ "' deactivated")
  | .dependents _ _, _ => .message "✓ Dependents set"
  | _, r => .document r.toDocument

/-- Runs one command against the forest. -/
def run (f : Forest) (i : Invocation) : Except Fault (Outcome × Forest) := do
  let r ← i.command.request
  let (reply, f') ← f.serve { tenant := i.tenant, actor := i.actor, request := r }
  pure (shown i.command reply, f')

/-- The text a refusal is reported with: its code and its message. -/
def refusal (e : Fault) : String := "✗ " ++ e.category.code ++ ": " ++ e.message

end Console

end TenantForest
