import TabCompletion.Files.Disk
import TabCompletion.Host.Environment
import TabCompletion.Host.Room
import TabCompletion.Report.Markup
import TabCompletion.Text.Digit

/-!
# The host

The machine on which the program runs: its environment, its disk, what is typed into the
program, what the network answers, and how much room it has. With it goes what the program leaves to
its libraries: how markup is rendered, which arguments are integers, and which character sets the
network may use.
-/

namespace TabCompletion

/-- What comes of asking the network for an address. -/
inductive Reply where
  | response (status : Nat) (contentType : Option String) (body : List UInt8)
  /-- The request fails, for a reason that is told. -/
  | unreachable (reason : String)
  /-- The request is not made, for a fault of that name: the address makes no sense to the network,
  or what keeps the network busy is out of order. -/
  | broken (fault : String)
  deriving DecidableEq, Repr

/-- The machine on which the program runs. `terminal` says whether its output is seen on a
terminal; `stamp` is the time of day as it stands in file names and in the journal; `integerOf` is
how the library for command lines reads an integer. All such libraries take digits behind a sign for
one; that a fraction of zeros is let pass, as in documents, is the habit of some. `otherCharset?` is
what the network library makes of bytes in a character set that is not a `Text.Charset`: it may know
the set by its name, and then may still give up on the bytes, with a fault of a name. -/
structure Host where
  environment : Environment
  disk : Disk
  input : List UInt8 := []
  replies : List (String × Reply) := []
  terminal : Bool := false
  stamp : String := ""
  room : Room := .usual
  stack : Stack := {}
  renderer : Markup.Renderer := {}
  integerOf : String → Option Int := Text.integerOf?
  otherCharset? : String → Option (List UInt8 → Except String (List Char)) := fun _ => none

/-- What comes of asking the network for an address. -/
def Host.fetch (h : Host) (url : String) : Reply :=
  (h.replies.lookup url).getD (.unreachable "no route")

end TabCompletion
