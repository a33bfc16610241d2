import TabCompletion.Failure
import TabCompletion.Grammar.Basic
import TabCompletion.Journal

/-!
# The registry

The grammars that are known, one for each command, in the order in which their commands
were first registered. A grammar for a known command takes the place of the earlier one. A
frozen registry takes no more grammars.
-/

namespace TabCompletion

/-- The grammars with `g` in the place of the one for its command, at the end if there is
none. -/
def Grammar.replaceIn (g : Grammar) : List Grammar → List Grammar
  | [] => [g]
  | h :: rest => if h.command = g.command then g :: rest else h :: replaceIn g rest

theorem Grammar.map_command_replaceIn (g : Grammar) (gs : List Grammar) :
    (g.replaceIn gs).map Grammar.command =
      if g.command ∈ gs.map Grammar.command then gs.map Grammar.command
      else gs.map Grammar.command ++ [g.command] := by
  induction gs with
  | nil => simp [replaceIn]
  | cons h rest ih =>
    by_cases hc : h.command = g.command
    · simp [replaceIn, hc]
    · have : ¬ g.command = h.command := fun e => hc e.symm
      simp only [replaceIn, hc, if_false, List.map_cons, ih, List.mem_cons, this, false_or]
      split <;> simp

/-- The known grammars. -/
structure Registry where
  grammars : List Grammar
  frozen : Bool
  nodup : (grammars.map Grammar.command).Nodup
  deriving DecidableEq

namespace Registry

/-- The registry that knows nothing. -/
def empty : Registry := ⟨[], false, List.nodup_nil⟩

/-- The commands, in the order of their first registration. -/
def names (r : Registry) : List String := r.grammars.map Grammar.command

/-- The registry with one more grammar, whether frozen or not. -/
def insert (r : Registry) (g : Grammar) : Registry where
  grammars := g.replaceIn r.grammars
  frozen := r.frozen
  nodup := by
    rw [Grammar.map_command_replaceIn]
    split
    · exact r.nodup
    · next h =>
      rw [List.nodup_append]
      exact ⟨r.nodup, by simp, by
        intro a ha b hb e
        simp only [List.mem_singleton] at hb
        exact h (hb ▸ e ▸ ha)⟩

/-- The registry that takes no more grammars. -/
def freeze (r : Registry) : Registry := { r with frozen := true }

/-- The grammar of a command. -/
def lookup? (r : Registry) (command : String) : Option Grammar :=
  r.grammars.find? fun g => g.command = command

/-- A command is known. -/
def contains (r : Registry) (command : String) : Bool := (r.lookup? command).isSome

/-- The grammar of a command, or the failure to know it. -/
def get (r : Registry) (command : String) : Except Failure Grammar :=
  match r.lookup? command with
  | some g => .ok g
  | none => .error (.ofUnknownCommand command)

/-- Where the registry's records come from. -/
def source : String := "peercomp.grammar.registry"

/-- The failure to change a frozen registry. -/
def frozenFailure (g : Grammar) : Failure :=
  { kind := .grammar, message := "Cannot register '" ++ g.command ++ "': registry is frozen" }

/-- The record of a replaced grammar. -/
def replacing (g : Grammar) : Record :=
  { source, level := .debug, message := "Replacing grammar for '" ++ g.command ++ "'" }

/-- The registry with one more grammar, unless it is frozen. -/
def register (r : Registry) (g : Grammar) : Logged (Except Failure Registry) :=
  if r.frozen then pure (.error (frozenFailure g))
  else ⟨if r.contains g.command then [replacing g] else [], .ok (r.insert g)⟩

end Registry

end TabCompletion
