import TabCompletion.Text.Quoted
import TabCompletion.Validation.Issue

/-!
# Failures and faults

A `Failure` is something the program foresees: it has a kind, a message for the user and an
exit code that goes with the kind. A `Fault` is something it does not foresee and that ends
what is being done: a file that cannot be used, a value that makes no sense. An `Escape` is
either of them.
-/

namespace TabCompletion

/-- The kinds of failure. -/
inductive Failure.Kind where
  | general
  | usage
  | settings
  | unknownCommand
  | grammar
  | provider
  | unmatchedToken
  deriving DecidableEq, Repr

/-- The exit code of a kind of failure. -/
def Failure.Kind.exitCode : Failure.Kind → Int
  | .general => 1
  | .usage => 2
  | .settings => 1
  | .unknownCommand => 4
  | .grammar => 7
  | .provider => 8
  | .unmatchedToken => 1

/-- Something foreseen that went wrong. `refusal` is the refused document behind it, if any. -/
structure Failure where
  kind : Failure.Kind
  message : String
  exitCode : Int := kind.exitCode
  refusal : Option Validation.Refusal := none
  deriving DecidableEq, Repr

namespace Failure

/-- No grammar is known for the command. -/
def ofUnknownCommand (command : String) : Failure :=
  { kind := .unknownCommand, message := "No grammar registered for command '" ++ command ++ "'" }

/-- The word is no option of the command. -/
def ofUnmatchedToken (token : String) : Failure :=
  { kind := .unmatchedToken, message := "Token '" ++ token ++ "' does not name a known option" }

end Failure

/-- Why a file cannot be used. -/
inductive FileFault.Kind where
  | missing
  | notDirectory
  | isDirectory
  | exists
  | tooLong
  | tooManyLinks
  | denied
  | noSpace
  | other
  deriving DecidableEq, Repr

/-- A file that cannot be used, and the reason in words. -/
structure FileFault where
  kind : FileFault.Kind
  text : String
  deriving DecidableEq, Repr

/-- The number and the words of a reason. -/
def FileFault.Kind.reason : FileFault.Kind → Nat × String
  | .missing => (2, "No such file or directory")
  | .notDirectory => (20, "Not a directory")
  | .isDirectory => (21, "Is a directory")
  | .exists => (17, "File exists")
  | .tooLong => (36, "File name too long")
  | .tooManyLinks => (40, "Too many levels of symbolic links")
  | .denied => (13, "Permission denied")
  | .noSpace => (28, "No space left on device")
  | .other => (5, "Input/output error")

/-- The fault of that kind of a file that is open. -/
def FileFault.of (kind : FileFault.Kind) : FileFault :=
  ⟨kind, "[Errno " ++ toString kind.reason.1 ++ "] " ++ kind.reason.2⟩

/-- The fault of that kind at a path. -/
def FileFault.at (kind : FileFault.Kind) (path : String) : FileFault :=
  ⟨kind, (FileFault.of kind).text ++ ": " ++ Text.quoted path⟩

/-- Something unforeseen. -/
inductive Fault where
  | file (fault : FileFault)
  | badValue
  | noHome
  | badIndex
  | badKey
  | badMember
  | badType
  | overflow
  | noRoom
  | endless
  | tooDeep
  | badMarkup
  | notDrawable
  | refused (refusal : Validation.Refusal)
  | unnamed (name : String)
  deriving DecidableEq, Repr

/-- What ends an action: a failure or a fault. -/
inductive Escape where
  | failure (f : Failure)
  | fault (f : Fault)
  deriving DecidableEq, Repr

end TabCompletion
