import SafeClock.Tools.Basic

/-!
# Tools that change files
-/

set_option autoImplicit false

namespace SafeClock.Tools

/-- Goes through operands, each of which changes the tree or is complained about. -/
def perOperand (c : Call) (operands : List (List Char))
    (f : FileTree → List Char → Except (List Char) FileTree) : Outcome :=
  operands.foldl (fun out path =>
    match f out.tree path with
    | .ok tree => { out with tree }
    | .error complaint =>
      { out with complaints := out.complaints ++ complaint ++ ['\n'], status := 1 })
    { tree := c.tree }

/-- A complaint about a path. -/
def about (lead : String) (path : List Char) (reason : String) : List Char :=
  bytes lead ++ '\'' :: path ++ bytes ("': " ++ reason)

/-- A call without an operand that it needs. -/
def missingOperand (c : Call) (name : String) : Outcome :=
  c.refuse 1 (bytes (name ++ ": missing operand"))

/-- Removes files, and directories with what is in them if asked to. -/
def rm : Tool := withOptions "rm" "frRiv" "" 1 fun o c =>
  if o.operands.isEmpty ∧ !o.has 'f' then missingOperand c "rm"
  else perOperand c o.operands fun tree path =>
    let p := Text.Bytes.toText path
    match tree.find c.cwd p with
    | .ok (place, .directory) =>
      if o.has 'r' || o.has 'R' then .ok (tree.remove place)
      else .error (about "rm: cannot remove " path OsError.isADirectory.reason)
    | .ok (place, _) => .ok (tree.remove place)
    | .error .notFound =>
      if o.has 'f' then .ok tree
      else .error (about "rm: cannot remove " path OsError.notFound.reason)
    | .error e => .error (about "rm: cannot remove " path e.reason)

/-- Removes directories that are empty. -/
def rmdir : Tool := withOptions "rmdir" "pv" "" 1 fun o c =>
  if o.operands.isEmpty then missingOperand c "rmdir"
  else perOperand c o.operands fun tree path =>
    let fail (e : OsError) := Except.error (about "rmdir: failed to remove " path e.reason)
    match tree.find c.cwd (Text.Bytes.toText path) with
    | .ok (place, .directory) =>
      if (tree.children place).isEmpty then .ok (tree.remove place) else fail .directoryNotEmpty
    | .ok _ => fail .notADirectory
    | .error e => fail e

/-- The places above a path and at it, in the order in which they are made. -/
def pathSteps (path : String) : List String :=
  let start := if path.startsWith "/" then "/" else ""
  let parts := (path.splitOn "/").filter (!·.isEmpty)
  (List.range parts.length).map fun i => start ++ "/".intercalate (parts.take (i + 1))

/-- Makes one directory. -/
def makeDirectory (cwd : Place) (tree : FileTree) (path : String) : Except OsError FileTree :=
  match tree.resolve cwd path with
  | .error e => .error e
  | .ok place =>
    match tree.at? place, tree.at? place.dropLast with
    | some _, _ => .error .alreadyExists
    | none, some .directory => .ok (tree.put place .directory)
    | none, some _ => .error .notADirectory
    | none, none => .error .notFound

/-- Makes directories, and those above them if asked to. -/
def mkdir : Tool := withOptions "mkdir" "pv" "m" 1 fun o c =>
  if o.operands.isEmpty then missingOperand c "mkdir"
  else perOperand c o.operands fun tree path =>
    let p := Text.Bytes.toText path
    let make (tree : FileTree) (p : String) : Except OsError FileTree :=
      if o.has 'p' ∧ tree.isDirectory c.cwd p then .ok tree else makeDirectory c.cwd tree p
    let steps := if o.has 'p' then pathSteps p else [(p.dropEndWhile '/').toString]
    (steps.foldlM make tree).mapError fun e =>
      about "mkdir: cannot create directory " path e.reason

/-- The place that a copy of a file is put at: inside the target if that is a directory. -/
def targetFor (c : Call) (tree : FileTree) (source target : List Char) : String :=
  let t := Text.Bytes.toText target
  if tree.isDirectory c.cwd t then
    let last := (((Text.Bytes.toText source).splitOn "/").filter (!·.isEmpty)).getLast?.getD ""
    if t.endsWith "/" then t ++ last else t ++ "/" ++ last
  else t

/-- A tool that takes sources and a target. -/
def withTarget (name : String) (o : Options) (c : Call)
    (f : FileTree → (source : List Char) → (target : String) → Except (List Char) FileTree) :
    Outcome :=
  match o.operands.reverse with
  | [] => c.refuse 1 (bytes (name ++ ": missing file operand"))
  | [path] =>
    c.refuse 1 (bytes (name ++ ": missing destination file operand after '") ++ path ++ ['\''])
  | target :: sources =>
    if sources.length > 1 ∧ !c.tree.isDirectory c.cwd (Text.Bytes.toText target) then
      c.refuse 1 (bytes (name ++ ": target '") ++ target ++ bytes "': No such file or directory")
    else
      perOperand c sources.reverse fun tree source =>
        f tree source (targetFor c tree source target)

/-- What is left of a path below a place it starts with. -/
def below (place path : Place) : Place := path.drop place.length

/-- The tree with everything at one place, and below it, at another place too. -/
def copyTree (tree : FileTree) (source target : Place) : FileTree :=
  (tree.nodes.filter fun entry => source.isPrefixOf entry.1).reverse.foldl
    (fun t entry => t.put (target ++ below source entry.1) entry.2) tree

/-- Copies files, and directories if asked to. -/
def cp : Tool := withOptions "cp" "rRapf" "" 1 fun o c =>
  withTarget "cp" o c fun tree source target =>
    match tree.find c.cwd (Text.Bytes.toText source) with
    | .error e => .error (about "cp: cannot stat " source e.reason)
    | .ok (place, .directory) =>
      if o.has 'r' || o.has 'R' || o.has 'a' then
        match tree.resolve c.cwd target with
        | .ok goal => .ok (copyTree tree place goal)
        | .error e => .error (about "cp: cannot create directory " (bytes target) e.reason)
      else .error (bytes "cp: -r not specified; omitting directory '" ++ source ++ ['\''])
    | .ok (_, node) =>
      match tree.writable c.cwd target with
      | .error e => .error (about "cp: cannot create regular file " (bytes target) e.reason)
      | .ok (goal, executable) =>
        let content := match node with
          | .file content _ => content
          | _ => ByteArray.empty
        let fresh := (tree.at? goal).isNone
        let mode := match node with
          | .file _ mode => if fresh || o.has 'p' || o.has 'a' then mode else executable
          | _ => executable
        .ok (tree.fill goal content mode)

/-- Moves files and directories. -/
def mv : Tool := withOptions "mv" "fnv" "" 1 fun o c =>
  withTarget "mv" o c fun tree source target =>
    match tree.find c.cwd (Text.Bytes.toText source) with
    | .error e => .error (about "mv: cannot stat " source e.reason)
    | .ok (place, node) =>
      match tree.resolve c.cwd target with
      | .error e =>
        .error (bytes "mv: cannot move '" ++ source ++ bytes s!"' to '{target}': {e.reason}")
      | .ok goal =>
        if goal = place then
          .error (bytes "mv: '" ++ source ++ bytes s!"' and '{target}' are the same file")
        else
          match node, tree.at? goal.dropLast with
          | .directory, some .directory => .ok ((copyTree tree place goal).remove place)
          | _, some .directory => .ok ((tree.remove place).put goal node)
          | _, _ =>
            .error (bytes "mv: cannot move '" ++ source ++
              bytes s!"' to '{target}': No such file or directory")

/-- Makes empty files of those that are not there. -/
def touch : Tool := withOptions "touch" "acm" "dtr" 1 fun o c =>
  if o.operands.isEmpty then c.refuse 1 (bytes "touch: missing file operand")
  else perOperand c o.operands fun tree path =>
    let p := Text.Bytes.toText path
    if (tree.find c.cwd p).isOk || o.has 'c' then .ok tree
    else (tree.write c.cwd p ByteArray.empty).mapError fun e =>
      about "touch: cannot touch " path e.reason

/-- Whether a mode lets files be run, if it says anything about that. -/
def modeRuns? (mode : List Char) : Option Bool :=
  match number? mode with
  | some _ => some (mode.any fun d => (d.toNat - '0'.toNat) % 2 == 1)
  | none =>
    if mode.contains 'x' then some (mode.contains '+' || mode.contains '=') else none

/-- Lets files be run, or forbids it. -/
def chmod : Tool := fun c =>
  match c.arguments.filter (fun a => !(['-', 'R'] == a)) with
  | [] => missingOperand c "chmod"
  | mode :: paths =>
    perOperand c paths fun tree path =>
      match tree.find c.cwd (Text.Bytes.toText path) with
      | .ok (place, .file content executable) =>
        .ok (tree.put place (.file content ((modeRuns? mode).getD executable)))
      | .ok _ => .ok tree
      | .error e => .error (about "chmod: cannot access " path e.reason)

/-- Lists names, sorted by their bytes. -/
def ls : Tool := withOptions "ls" "1aA" "" 2 fun o c =>
  let shown (name : String) : Bool := o.has 'a' || o.has 'A' || !name.startsWith "."
  let inside (place : Place) : List Char :=
    let names := ((c.tree.children place).filterMap List.getLast?).filter shown
    let names := (names.map bytes).mergeSort fun x y => !decide (y < x)
    unlines (if o.has 'a' then ['.'] :: ['.', '.'] :: names else names)
  let paths := if o.operands.isEmpty then [['.']] else o.operands
  let found := paths.map fun path => (path, c.tree.find c.cwd (Text.Bytes.toText path))
  let failures := found.filterMap fun (path, r) => match r with
    | .ok _ => none
    | .error e => some (about "ls: cannot access " path e.reason)
  let files := found.filterMap fun (path, r) => match r with
    | .ok (_, .directory) => none
    | .ok _ => some path
    | .error _ => none
  let directories := found.filterMap fun (path, r) => match r with
    | .ok (place, .directory) => some (path, place)
    | _ => none
  let listings := directories.map fun (path, place) =>
    if paths.length > 1 then path ++ ":\n".toList ++ inside place else inside place
  let fileLines := unlines (files.mergeSort fun x y => !decide (y < x))
  { tree := c.tree
    output := ['\n'].intercalate ((if files.isEmpty then [] else [fileLines]) ++ listings)
    complaints := unlines failures
    status := if failures.isEmpty then 0 else 2 }

end SafeClock.Tools
