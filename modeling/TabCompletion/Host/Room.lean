import TabCompletion.Failure

/-!
# Room

The items of a list take room on the machine, a word for each, and there is only so much of it.
A list that does not fit is a fault. How many items are asked for is a word as well, so a number
beyond that is a fault of another kind.

To read a text whose parts nest takes room on the stack, and a text that nests too deep for it
(`Stack`) is a fault as well.
-/

namespace TabCompletion

/-- How many items a list can have on a machine; each has an address of its own. -/
structure Room where
  items : Nat
  addressed : items < 0x1000000000000000
  deriving DecidableEq, Repr

namespace Room

/-- The room of a machine unless it is said otherwise. -/
def usual : Room := ⟨0x100000000, by decide⟩

/-- The numbers below this one are held by a word of the machine. -/
def wordEnd : Nat := 0x8000000000000000

/-- The fault of asking for too many items. -/
def shortage (more : Nat) : Fault :=
  if wordEnd ≤ more then .overflow else .noRoom

/-- Why `more` items cannot be put behind `count` items, if they cannot. -/
def refusal? (room : Room) (count more : Nat) : Option Fault :=
  if wordEnd ≤ more ∨ room.items < count + more then some (shortage more) else none

theorem refusal?_eq_none_iff {room : Room} {count more : Nat} :
    room.refusal? count more = none ↔ count + more ≤ room.items := by
  have haddressed := room.addressed
  unfold refusal? wordEnd
  split
  · simp only [reduceCtorEq, false_iff]
    omega
  · simp only [true_iff]
    omega

end Room

/-- The texts that are too deep for the stack of a machine, when they are read as JSON and as YAML.
How deep a text may be is left to the machine. -/
structure Stack where
  json : String → Bool := fun _ => false
  yaml : String → Bool := fun _ => false

end TabCompletion
