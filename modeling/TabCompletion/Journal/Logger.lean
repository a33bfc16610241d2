import TabCompletion.Journal.Outlets

/-!
# The logger

A process has one logger for the program's records. It hands a record to its handlers, each of
which brings it to the terminal or to a file that it holds open. A set-up discards the handlers
that it finds and puts on its own (`Session.setUp`), so a process may be set up as often as it
likes. A run of the program does so once; `Outlets` says where its records go from then on.
-/

namespace TabCompletion

/-- Where a handler brings records. -/
inductive Handler.Outlet where
  | terminal
  | file (place : Place)
  deriving DecidableEq, Repr

/-- A handler: where it brings records, and the level of the lightest that it takes. -/
structure Handler where
  outlet : Handler.Outlet
  level : Level
  deriving DecidableEq, Repr

/-- The place of the file that a handler holds open. -/
def Handler.place? (handler : Handler) : Option Place :=
  match handler.outlet with
  | .terminal => none
  | .file place => some place

/-- The program's logger. As it stands here it is that of a process that has just started. -/
structure Logger where
  /-- The handlers, in the order in which they get a record. -/
  handlers : List Handler := []
  /-- Lighter records are dropped. -/
  level : Option Level := none
  /-- The loggers above get the records too. -/
  propagates : Bool := true
  deriving DecidableEq, Repr

namespace Logger

/-- The logger takes the record: it is one of the program, and not too light. -/
def takes (l : Logger) (r : Record) : Bool :=
  Outlets.isOwn r.source && l.level.all fun level => level.rank ≤ r.level.rank

/-- The logger with a handler behind the others. -/
def attach (l : Logger) (handler : Handler) : Logger :=
  { l with handlers := l.handlers ++ [handler] }

/-- The logger without a handler. -/
def detach (l : Logger) (handler : Handler) : Logger :=
  { l with handlers := l.handlers.erase handler }

end Logger

/-- How a logger is to be set up: whether the terminal shows everything, and the path of a file
for the records. -/
structure SetUp where
  verbose : Bool := false
  path : Option String := none
  deriving DecidableEq, Repr

namespace SetUp

/-- The path, if it names anything. -/
def path? (c : SetUp) : Option String := c.path.filter (· != "")

/-- The level of the lightest records that the terminal shows. -/
def terminalLevel (c : SetUp) : Level := if c.verbose then .debug else .warning

/-- The level of the lightest records that the logger takes. -/
def level (c : SetUp) : Level := if c.verbose || c.path?.isSome then .debug else .warning

end SetUp

/-- A process as far as its records go: the machine, the logger, the files that are held open,
and what the terminal shows. -/
structure Session where
  host : Host
  logger : Logger := {}
  opened : List Place := []
  shown : String := ""

namespace Session

/-- The session of a process that has just started. -/
def start (h : Host) : Session := { host := h }

/-- A handler gets a record. -/
def deliver (r : Record) (s : Session) (handler : Handler) : Session :=
  if handler.level.rank ≤ r.level.rank then
    match handler.outlet with
    | .terminal => { s with shown := s.shown ++ Outlets.terminalText r }
    | .file place =>
      let bytes := Text.Utf8.encode (Outlets.fileText s.host.stamp r)
      { s with host.disk := s.host.disk.appendAt place bytes }
  else s

/-- The logger gets a record. -/
def note (s : Session) (r : Record) : Session :=
  if s.logger.takes r then s.logger.handlers.foldl (deliver r) s else s

/-- A handler is taken off the logger, and its file is closed. -/
def discard (s : Session) (handler : Handler) : Session :=
  { s with
    logger := s.logger.detach handler
    opened := handler.place?.elim s.opened s.opened.erase }

/-- All handlers are discarded. -/
def discardAll (s : Session) : Session := s.logger.handlers.foldl discard s

/-- A handler for the file at a path is put on. If the file cannot be opened the logger notes
that; a fault that is none of files is left to the caller. -/
def attachFile (s : Session) (path : String) : Session × Option Fault :=
  match Outlets.openFile s.host path with
  | .ok (disk, place) =>
    ({ s with
       host.disk := disk
       logger := s.logger.attach ⟨.file place, .debug⟩
       opened := s.opened ++ [place] }, none)
  | .error (.file fault) => (s.note (Outlets.unopened path fault), none)
  | .error fault => (s, some fault)

/-- The session after a set-up, and the fault that stopped it before its end, if any. -/
def setUp (s : Session) (c : SetUp) : Session × Option Fault :=
  let s := s.discardAll
  let logger := s.logger.attach ⟨.terminal, c.terminalLevel⟩
  let s := { s with logger := { logger with level := some c.level, propagates := false } }
  match c.path? with
  | none => (s, none)
  | some path => s.attachFile path

end Session

end TabCompletion
