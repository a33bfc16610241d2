import TabCompletion.Failure
import TabCompletion.Files.Path
import TabCompletion.Text.Blank

/-!
# The environment

What the program finds around it apart from files: variables, users with their home
directories, and the platform. A `~` at the start of a path stands for a home directory. The
values of variables are texts of characters; others are left out.
-/

namespace TabCompletion

/-- Variables with their values, users, and the platform. -/
structure Environment where
  values : List (String × String)
  /-- The home directories of users by their names. -/
  users : List (String × String)
  /-- The home directory of the user who runs the program, if it is known. -/
  ownHome : Option String
  platform : String
  deriving DecidableEq, Repr

namespace Environment

/-- The value of a variable. -/
def get? (env : Environment) (name : String) : Option String := env.values.lookup name

/-- The environment with a variable set, or unset. -/
def set (env : Environment) (name : String) (value : Option String) : Environment :=
  let others := env.values.filter fun v => v.1 != name
  { env with values := others ++ (value.map fun v => (name, v)).toList }

/-- The home directory named by the text between `~` and the first slash. -/
def homeOf? (env : Environment) (user : List Char) : Except Fault (Option String) :=
  if user.isEmpty then .ok ((env.get? "HOME").orElse fun _ => env.ownHome)
  else if user.contains '\x00' then .error .badValue
  else .ok (env.users.lookup (String.ofList user))

/-- The text without the slashes at its end. -/
def stripSlashes (cs : List Char) : List Char := (cs.reverse.dropWhile (· = '/')).reverse

/-- The path with a `~` at its start replaced by the home directory it names; a path without
one, or with one that names no home directory, is left as it is. -/
def expandHome (env : Environment) (path : String) : Except Fault String :=
  match path.toList with
  | '~' :: rest =>
    let user := rest.takeWhile (· != '/')
    match env.homeOf? user with
    | .error fault => .error fault
    | .ok none => .ok path
    | .ok (some home) =>
      let expanded := stripSlashes home.toList ++ rest.drop user.length
      .ok (if expanded.isEmpty then "/" else String.ofList expanded)
  | _ => .ok path

/-- A path that starts with `~`, seen from the home directory it names. -/
def expandPath (env : Environment) (p : Path) : Except Fault Path :=
  match p.anchor, p.parts with
  | .here, first :: rest =>
    if first.toList.head? = some '~' then
      match env.expandHome first with
      | .error fault => .error fault
      | .ok home =>
        if home.toList.head? = some '~' then .error .noHome
        else
          let start := Path.ofText home
          .ok ⟨start.anchor, start.parts ++ rest⟩
    else .ok p
  | _, _ => .ok p

/-- The home directory of the user. -/
def home (env : Environment) : Except Fault Path := env.expandPath (Path.ofText "~")

/-- The platform keeps files where the base-directory variables say. -/
def hasBaseDirectories (env : Environment) : Bool :=
  env.platform = "Linux" || "BSD".toList.isSuffixOf env.platform.toList

/-- The directory that a variable names, or a directory in the user's home. -/
def baseDirectory (env : Environment) (name : String) (inHome : List String) :
    Except Fault Path :=
  match env.get? name with
  | some value => if value = "" then fallback else .ok (Path.ofText value)
  | none => fallback
where
  fallback : Except Fault Path := env.home.map fun home => inHome.foldl Path.join home

/-- The name of the program's directories. -/
def programName : String := "peercomp"

/-- The directory of the program inside the directory that a variable names. -/
def programDirectory (env : Environment) (name : String) (inHome : List String) :
    Except Fault Path :=
  if env.hasBaseDirectories then
    (env.baseDirectory name inHome).map fun base => base.join programName
  else env.home.map fun home => home.join ("." ++ programName)

/-- Where the program's settings are kept. -/
def configDirectory (env : Environment) : Except Fault Path :=
  env.programDirectory "XDG_CONFIG_HOME" [".config"]

/-- Where the program's data are kept. -/
def dataDirectory (env : Environment) : Except Fault Path :=
  env.programDirectory "XDG_DATA_HOME" [".local", "share"]

/-- Where the user's grammars are kept. -/
def grammarsDirectory (env : Environment) : Except Fault Path :=
  env.configDirectory.map fun dir => dir.join "grammars"

/-- The words for a flag that is on. -/
def onWords : List String := ["1", "true", "yes", "on"]

/-- The words for a flag that is off. -/
def offWords : List String := ["0", "false", "no", "off"]

/-- The flag that a variable holds, if its value is one of the words for it. -/
def flag? (env : Environment) (name : String) : Option Bool :=
  let word := String.ofList
    ((Text.strip ((env.get? name).getD "").toList).map Char.toLower)
  if onWords.contains word then some true
  else if offWords.contains word then some false
  else none

end Environment

end TabCompletion
