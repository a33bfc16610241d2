import TabCompletion.Grammar.Reading
import TabCompletion.Host.Basic
import TabCompletion.Json.Reader
import TabCompletion.Text.Charset
import TabCompletion.Yaml.Unfolding

/-!
# Where grammars come from

A grammar document is read from a file, from the network, or from the input of the program
(`-`). Its text is JSON or YAML: what is known of the source may settle which, and otherwise
JSON is tried first. A source that yields no grammar is a `LoadFailure`; a text may also end
in a fault of the value it holds. `Source.load` leaves the stack of the machine aside, which a
text may be too deep for; `Source.loadWithin` does not.
-/

namespace TabCompletion

/-- What is known of the language of a text. -/
inductive Hint where
  | unknown
  | json
  | yaml
  deriving DecidableEq, Repr

/-- The hint of that name; any other name says nothing. -/
def Hint.ofName (name : String) : Hint :=
  if name = "json" then .json else if name = "yaml" then .yaml else .unknown

/-- Why a source yields no grammar. -/
inductive LoadFailure where
  | unreadableInput (reason : String)
  | emptyInput
  | status (code : Nat) (url : String)
  | unreachable (url reason : String)
  | noFile (path : String)
  | unreadableFile (path reason : String)
  | emptyFile (path : String)
  | notRecord (kind : String)
  | notJson (error : Json.Error)
  | notParsed (json : Option Json.Error) (yaml : Yaml.Problem)
  | invalid (source : String) (refusal : Validation.Refusal)
  deriving DecidableEq, Repr

namespace LoadFailure

/-- The failure in words. -/
def message : LoadFailure → String
  | unreadableInput reason => "Failed to read from stdin: " ++ reason
  | emptyInput => "No input received from stdin"
  | status code url => "HTTP " ++ toString code ++ " fetching grammar from " ++ url
  | unreachable url reason => "Failed to fetch grammar from " ++ url ++ ": " ++ reason
  | noFile path => "Grammar file not found: " ++ path
  | unreadableFile path reason => "Failed to read grammar file " ++ path ++ ": " ++ reason
  | emptyFile path => "Grammar file is empty: " ++ path
  | notRecord kind => "Grammar must be a JSON/YAML object (got " ++ kind ++ ")"
  | notJson error => "Invalid JSON: " ++ error.message
  | notParsed json yaml =>
    "Failed to parse grammar as JSON or YAML" ++
      (match json with
        | some error => "\n  JSON error: " ++ error.message
        | none => "") ++
      "\n  YAML error: " ++ yaml.message
  | invalid source refusal => "Invalid grammar in " ++ source ++ ": " ++ refusal.message

/-- The refused document behind the failure, if any. -/
def refusal? : LoadFailure → Option Validation.Refusal
  | invalid _ refusal => some refusal
  | _ => none

/-- The failure as one of the program. -/
def toFailure (f : LoadFailure) : Failure :=
  { kind := .grammar, message := f.message, refusal := f.refusal? }

end LoadFailure

/-- What ends the loading of a grammar. -/
inductive LoadStop where
  | failure (f : LoadFailure)
  | fault (f : Fault)
  deriving DecidableEq, Repr

/-- What ends the loading of a grammar, as what ends any action. -/
def LoadStop.toEscape : LoadStop → Escape
  | failure f => .failure f.toFailure
  | fault f => .fault f

/-- A value, or what ended the loading. -/
abbrev Loading (α : Type) := Except LoadStop α

namespace Source

/-- Loading ends in a failure. -/
def fail {α : Type} (f : LoadFailure) : Loading α := .error (.failure f)

/-- The starts of network addresses. -/
def schemes : List String := ["http://", "https://"]

/-- The source is an address on the network. -/
def isRemote (source : String) : Bool :=
  schemes.any fun scheme => scheme.toList.isPrefixOf source.toList

/-- The source is a file. -/
def isLocal (source : String) : Bool := source != "-" && !isRemote source

/-- The document, if it is a mapping. -/
def asRecord (d : Document) : Loading Document :=
  match d with
  | .map _ => .ok d
  | .null => fail (.notRecord "empty document")
  | d => fail (.notRecord d.kindName)

/-- The mapping of a YAML text; `json` is why it is no JSON text, if that was tried. -/
def parseYaml (content : String) (json : Option Json.Error) : Loading Document :=
  match Yaml.read content with
  | .ok d => asRecord d
  | .error (.malformed problem) => fail (.notParsed json problem)
  | .error (.fault fault) => .error (.fault fault)

/-- The mapping of a text. -/
def parse (content : String) (hint : Hint) : Loading Document :=
  if hint = .yaml then parseYaml content none
  else match Json.read content with
    | .ok d => asRecord d
    | .error e =>
      if !e.isMalformed then .error (.fault .badValue)
      else if hint = .json then fail (.notJson e)
      else parseYaml content (some e)

/-- The text of bytes in UTF-8, its line ends unified. -/
def textOf (bytes : List UInt8) : Except Text.Utf8.DecodeError String :=
  (Text.Utf8.decode bytes).map fun cs => String.ofList (Text.unifyNewlines cs)

/-- The text of the program's input. -/
def readInput (h : Host) : Loading String :=
  match textOf h.input with
  | .error e => fail (.unreadableInput e.message)
  | .ok content => if Text.isBlankText content then fail .emptyInput else .ok content

/-- The word stands somewhere in the text. -/
def occursIn (word : List Char) : List Char → Bool
  | [] => word.isEmpty
  | c :: cs => word.isPrefixOf (c :: cs) || occursIn word cs

/-- The hint of a content type. -/
def hintOfType (contentType : String) : Hint :=
  let names (word : String) : Bool := occursIn word.toList contentType.toList
  if names "json" then .json
  else if names "yaml" || names "yml" then .yaml
  else .unknown

/-- The characters of the body of an answer. They are in UTF-8 if the content type names no character
set, or one that is not known. A body without bytes is empty in any. -/
def bodyOf (h : Host) (contentType : Option String) (body : List UInt8) :
    Except Fault (List Char) :=
  match contentType.bind Text.Charset.parameter? with
  | none => .ok (Text.Charset.utf8.decode body)
  | some name =>
    match Text.Charset.ofName? name, h.otherCharset? name with
    | some set, _ => .ok (set.decode body)
    | none, some read => if body.isEmpty then .ok [] else (read body).mapError .unnamed
    | none, none => .ok (Text.Charset.utf8.decode body)

/-- The text behind a network address, and its hint. -/
def readRemote (h : Host) (url : String) : Loading (String × Hint) :=
  match h.fetch url with
  | .unreachable reason => fail (.unreachable url reason)
  | .broken fault => .error (.fault (.unnamed fault))
  | .response code contentType body =>
    if code < 200 || 300 ≤ code then fail (.status code url)
    else
      match bodyOf h contentType body with
      | .error fault => .error (.fault fault)
      | .ok cs => .ok (String.ofList cs, hintOfType (contentType.getD ""))

/-- The hint of the end of a file name. -/
def hintOfSuffix (suffix : String) : Hint :=
  let lower := String.ofList (suffix.toList.map Char.toLower)
  if lower = ".json" then .json
  else if lower = ".yaml" || lower = ".yml" then .yaml
  else .unknown

/-- The text of a file, and its hint. -/
def readFile (h : Host) (path : String) : Loading (String × Hint) :=
  match h.environment.expandPath (Path.ofText path) with
  | .error fault => .error (.fault fault)
  | .ok p =>
    match h.disk.isFile p.text with
    | .error fault => .error (.fault fault)
    | .ok false => fail (.noFile path)
    | .ok true =>
      match h.disk.read p.text with
      | .error (.file fault) => fail (.unreadableFile path fault.text)
      | .error fault => .error (.fault fault)
      | .ok bytes =>
        match textOf bytes with
        | .error e => fail (.unreadableFile path e.message)
        | .ok content =>
          if Text.isBlankText content then fail (.emptyFile path)
          else .ok (content, hintOfSuffix p.suffix)

/-- The text behind a source, and its hint. -/
def readText (h : Host) (source : String) : Loading (String × Hint) :=
  if source = "-" then (readInput h).map fun content => (content, .unknown)
  else if isRemote source then readRemote h source
  else readFile h source

/-- The mapping behind a source. -/
def loadDocument (h : Host) (source : String) : Loading Document := do
  let (content, hint) ← readText h source
  parse content hint

/-- What the mapping behind a source is read as. -/
def loadAs {α : Type} (read : Document → Except Validation.Refusal α) (h : Host)
    (source : String) : Loading α := do
  let d ← loadDocument h source
  match read d with
  | .ok a => return a
  | .error refusal => fail (.invalid source refusal)

/-- The grammar behind a source, letter for letter. -/
def loadCoded : Host → String → Loading Grammar.Coded := loadAs Grammar.Coded.ofDocument

/-- The grammar behind a source, in characters. -/
def load : Host → String → Loading Grammar := loadAs Grammar.ofDocument

/-- The text is too deep to be read. JSON is tried first, unless the text is known to be YAML. -/
def isTooDeep (stack : Stack) (content : String) (hint : Hint) : Bool :=
  if hint = .yaml then stack.yaml content
  else if stack.json content then true
  else match Json.read content with
    | .error e => e.isMalformed && hint = .unknown && stack.yaml content
    | .ok _ => false

/-- The text behind the source is too deep for the stack of the host. -/
def exhausts (h : Host) (source : String) : Bool :=
  match readText h source with
  | .ok (content, hint) => isTooDeep h.stack content hint
  | .error _ => false

/-- The grammar behind a source, as far as the stack of the host reaches. -/
def loadWithin (h : Host) (source : String) : Loading Grammar :=
  if exhausts h source then .error (.fault .tooDeep) else load h source

/-- The host after a source is read: the program's input can be read once. -/
def afterLoading (h : Host) (source : String) : Host :=
  if source = "-" then { h with input := [] } else h

end Source

end TabCompletion
