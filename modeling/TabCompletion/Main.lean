import TabCompletion.Command.Run
import TabCompletion.Host.Clock

/-!
# The program

The part of the program that touches the machine. It takes a picture of the files that a
command line may concern, lets `run` say what becomes of them, and then writes what is new.
-/

namespace TabCompletion.Program

/-- The variables that the program looks at. -/
def variableNames : List String :=
  ["HOME", "XDG_CONFIG_HOME", "XDG_DATA_HOME", "USER", "SHELL", "TERM", "NO_COLOR",
   "PEERCOMP_LOG_FILE", "PEERCOMP_MARK_DIRECTORIES", "PEERCOMP_SHOW_HIDDEN"]

/-- The text of a file of the system, empty if it cannot be read. -/
def readSystemFile (path : String) : IO String :=
  try IO.FS.readFile path catch _ => return ""

/-- The users of the system with their home directories. -/
def readUsers : IO (List (String × String)) := do
  let text ← readSystemFile "/etc/passwd"
  return (Text.splitLines text).filterMap fun line =>
    match (Text.splitAt ':' line.toList).map String.ofList with
    | name :: _ :: _ :: _ :: _ :: home :: _ => some (name, home)
    | _ => none

/-- The environment of the process. -/
def readEnvironment : IO Environment := do
  let mut values := []
  for name in variableNames do
    if let some value := ← IO.getEnv name then
      values := values ++ [(name, value)]
  let users ← readUsers
  let own := (values.lookup "USER").bind fun name => users.lookup name
  return { values, users, ownHome := own, platform := "Linux" }

/-- The first number in a text. -/
def firstNumber (cs : List Char) : Nat :=
  let digits := (cs.dropWhile fun c => !c.isDigit).takeWhile Char.isDigit
  digits.foldl (fun n c => n * 10 + (c.toNat - 48)) 0

/-- The time of day: when the system started, and how long it has been up. -/
def readStamp : IO String := do
  let started := (Text.splitLines (← readSystemFile "/proc/stat")).filter fun line =>
    "btime".toList.isPrefixOf line.toList
  let up ← readSystemFile "/proc/uptime"
  return stampOf (firstNumber ((started.head?.getD "").toList) + firstNumber up.toList)

/-- The most bytes of a file that are taken into the picture. -/
def maxBytes : UInt64 := 16 * 1024 * 1024

/-- The entry at a path, links followed; the content of a file is left out unless `whole`. -/
def lookAt (path : String) (whole : Bool) : IO (Option Entry) := do
  try
    let found ← ((← IO.currentDir) / path).metadata
    match found.type with
    | .dir => return some .directory
    | _ =>
      if whole && found.byteSize ≤ maxBytes then
        return some (.file (← IO.FS.readBinFile path).toList)
      else return some (.file [])
  catch _ => return none

/-- The names in a directory. -/
def namesIn (path : String) : IO (List String) := do
  try
    return ((← ((← IO.currentDir) / path).readDir).map fun e => e.fileName).toList
  catch _ => return []

/-- The picture with an entry at a place, and the directories that lead to it. What is in the
picture already stays unless the entry is `whole`. -/
def withEntry (d : Disk) (target : Place) (e : Entry) (whole : Bool) : Disk :=
  if (d.tree.entry? target).isSome && !whole then d
  else
    let above := (List.range target.length).map fun i => target.take i
    let made := above.foldl
      (fun t p => if (t.entry? p).isNone then t.set p .directory else t) d.tree
    d.withTree (made.set target e)

/-- The picture with what stands at a path and, if that is a directory, what is in it. -/
def withPath (d : Disk) (path : String) (whole : Bool) : IO Disk := do
  let target := (d.absolute path).parts
  match ← lookAt path whole with
  | none => return d
  | some (.file bytes) => return withEntry d target (.file bytes) whole
  | some _ =>
    let mut d := withEntry d target .directory false
    for name in ← namesIn path do
      if let some e := ← lookAt (path ++ "/" ++ name) whole then
        d := withEntry d (target ++ [name]) e whole
    return d

/-- The path with its home directory, if it names one that is known. -/
def homeward (env : Environment) (path : String) : String :=
  match env.expandHome path with
  | .ok path => path
  | .error _ => path

/-- The directory in which a word is looked up. -/
def directoryOf (word : String) : String :=
  match (Text.splitAt '/' word.toList).dropLast with
  | [] => "."
  | names => String.ofList (['/'].intercalate names ++ ['/'])

/-- The paths that arguments may name. -/
def pathsOf (env : Environment) (args : List String) : List String :=
  (args ++ args.flatMap Shell.Words.ofLine).map (homeward env)

/-- The picture of the files that a command line may concern. -/
def takePicture (env : Environment) (args : List String) : IO Disk := do
  let cwd := ((Path.ofText (← IO.currentDir).toString).parts)
  let mut d : Disk := { tree := Tree.empty, cwd }
  for directory in [env.configDirectory, env.grammarsDirectory] do
    if let .ok path := directory then
      d ← withPath d path.text true
  for path in pathsOf env args do
    d ← withPath d (directoryOf path) false
    if let some (.file bytes) := ← lookAt path true then
      d := withEntry d (d.absolute path).parts (.file bytes) true
  if let .ok s := Settings.resolve { environment := env, disk := d } {} then
    for path in s.grammarFiles ++ s.logFile.toList do
      d ← withPath d (homeward env path) true
  return d

/-- The bytes as they are written. -/
def pack (bytes : List UInt8) : ByteArray := ⟨bytes.toArray⟩

/-- Write a file, at its end what is added to it and otherwise all of it at once. -/
def writeFile (path : String) (before : Option Entry) (bytes : List UInt8) : IO Unit := do
  match before with
  | some (.file old) =>
    if old.isPrefixOf bytes then
      let file ← IO.FS.Handle.mk path .append
      file.write (pack (bytes.drop old.length))
      return
  | _ => pure ()
  let temporary := path ++ ".tmp"
  IO.FS.writeBinFile temporary (pack bytes)
  IO.FS.rename temporary path

/-- Write what is new in the picture. -/
def writeChanges (before after : Tree) : IO Unit := do
  for (target, e) in after.entries do
    let path := "/" ++ String.intercalate "/" target
    match e with
    | .directory => if (before.entry? target).isNone then IO.FS.createDirAll path
    | .file bytes =>
      if before.entry? target != some e then writeFile path (before.entry? target) bytes
    | .link _ => pure ()

/-- The bytes typed into the program, if it is asked to read them. -/
def readInput (args : List String) : IO (List UInt8) := do
  if args.contains "-" then
    try return (← IO.FS.readBinFile "/dev/stdin").toList catch _ => return []
  else return []

/-- What is printed besides data when a run ends. -/
def closingText : Ending → String
  | .exit _ => ""
  | .help => helpText
  | .misuse m => helpText ++ m.message ++ "\n"
  | .lost _ => "Unexpected error.\n"
where
  /-- How the program is called. -/
  helpText : String :=
    String.join (["Usage: peercomp [FLAGS] COMMAND", "", "Commands:",
      "  complete [--cword N] [--style lines|json|bash] [--] WORDS",
      "  complete --line LINE [--point N]",
      "  completion install [SHELL]", "  completion show [SHELL]",
      "  grammar list", "  grammar show COMMAND", "  grammar check SOURCE",
      "  grammar add SOURCE", "", "Flags:",
      "  --json --plain --no-color -q/--quiet -v/--verbose --log-file FILE --version"].map
        (· ++ "\n"))

/-- Do what the command line asks, and give the exit code. -/
def perform (args : List String) : IO UInt32 := do
  let environment ← readEnvironment
  let disk ← takePicture environment args
  let output ← IO.getStdout
  let host : Host :=
    { environment, disk, input := ← readInput args, terminal := ← output.isTty,
      stamp := ← readStamp }
  let outcome := run host args
  writeChanges disk.tree outcome.disk.tree
  output.putStr outcome.out
  (← IO.getStderr).putStr (outcome.err ++ closingText outcome.ending)
  return outcome.ending.exitCode.toNat.toUInt32

end TabCompletion.Program

/-- Do what the command line asks. -/
def main (args : List String) : IO UInt32 := TabCompletion.Program.perform args
