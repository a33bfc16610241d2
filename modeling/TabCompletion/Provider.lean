import TabCompletion.Failure
import TabCompletion.Grammar.Domain
import TabCompletion.Journal
import TabCompletion.Text.Quoted

/-!
# Providers

Where the candidates for the value of an option come from. An enumeration provides its own
values; a path domain asks a source of paths, which may fail.
-/

namespace TabCompletion

/-- A source of paths: what it offers for the text typed so far. -/
abbrev PathSource (α : Type) := String → Logged (Except Escape (List α))

namespace Provider

/-- The failure to provide any candidates. -/
def unavailable (message : String) : Escape := .failure { kind := .provider, message }

/-- The candidates for the value of an option of that domain; `ofText` makes one of a text. A
file that cannot be used makes the provider unavailable. -/
def candidates {α : Type} (ofText : String → α) (paths : PathSource α) (domain : Domain)
    (current : String) : Logged (Except Escape (List α)) :=
  match domain with
  | .none => pure (.ok [])
  | .enum [] => pure (.error (unavailable "Enumeration domain declares no values"))
  | .enum values => pure (.ok (values.map ofText))
  | .path => do
    match ← paths current with
    | .error (.fault (.file fault)) =>
      return .error (unavailable
        ("Path completion failed for " ++ Text.quoted current ++ ": " ++ fault.text))
    | answer => return answer

end Provider

end TabCompletion
