import TabCompletion.Grammar.Registry

/-!
# The built-in grammar

The options of `peerd`, in the order in which its own help lists them.
-/

namespace TabCompletion.Grammar

/-- The options of `peerd`: long form, short form and domain. -/
def peerdTable : List (String × Option String × Domain) :=
  [("--help", some "-h", .none),
   ("--version", some "-V", .none),
   ("--listen", some "-L", .path),
   ("--connect", some "-C", .path),
   ("--port", some "-p", .path),
   ("--overlay", some "-o", .enum ["tcp", "zmq", "http", "websocket", "smtp"]),
   ("--peer-secret-key", none, .path),
   ("--wallet-token", none, .path),
   ("--data-dir", some "-d", .path),
   ("--config", some "-c", .path),
   ("--verbose", none, .none),
   ("--tor-proxy", some "-T", .path),
   ("--msg-socket", some "-m", .path),
   ("--ctl-socket", some "-x", .path),
   ("--chain", some "-n", .path),
   ("--electrum-server", none, .path),
   ("--monero-daemon", none, .path),
   ("--monero-rpc-wallet", none, .path)]

/-- The forms of an entry have their shape. -/
def rowOk (row : String × Option String × Domain) : Bool :=
  isLongForm row.1 && row.2.1.all isShortForm

/-- The option of a row of a table. -/
def ofRow (row : String × Option String × Domain) (h : rowOk row = true) : OptionSpec where
  long := row.1
  short := row.2.1
  domain := row.2.2
  long_form := by
    rw [rowOk, Bool.and_eq_true] at h
    exact h.1
  short_form := by
    rw [rowOk, Bool.and_eq_true] at h
    intro s hs
    have short := h.2
    rw [Option.mem_def.1 hs] at short
    exact short

theorem peerdTable_ok : ∀ row ∈ peerdTable, rowOk row = true := by decide +kernel

/-- The grammar of `peerd`. -/
def peerd : Grammar where
  command := "peerd"
  options := peerdTable.pmap ofRow peerdTable_ok
  command_name := by decide +kernel
  long_nodup := by decide +kernel
  short_nodup := by decide +kernel

end TabCompletion.Grammar
