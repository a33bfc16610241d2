import TabCompletion.Main
import TabCompletion.Proofs.Completion
import TabCompletion.Proofs.CursorWord
import TabCompletion.Proofs.DefaultRegistry
import TabCompletion.Proofs.Engine
import TabCompletion.Proofs.FilesOnly
import TabCompletion.Proofs.GeneratedFiles
import TabCompletion.Proofs.JsonSources
import TabCompletion.Proofs.Loading
import TabCompletion.Proofs.Narrowing
import TabCompletion.Proofs.Path
import TabCompletion.Proofs.Registration
import TabCompletion.Proofs.Replacing
import TabCompletion.Proofs.SavedGrammar
import TabCompletion.Proofs.Saving
import TabCompletion.Proofs.Spelling
import TabCompletion.Proofs.Words
import TabCompletion.Proofs.Rendering
import TabCompletion.Proofs.RequestTokens
import TabCompletion.Proofs.LineProtocol
import TabCompletion.Proofs.Descent
import TabCompletion.Proofs.ListedGrammars
import TabCompletion.Proofs.MadeDirectories
import TabCompletion.Proofs.AtomicReplacing
import TabCompletion.Proofs.JsonReading
import TabCompletion.Proofs.SettingsDocument
import TabCompletion.Proofs.Precedence
import TabCompletion.Proofs.BrokenSettings
import TabCompletion.Proofs.CrashLog
import TabCompletion.Proofs.CheckedGrammars
import TabCompletion.Proofs.ReadingCommands
import TabCompletion.Proofs.Exits
import TabCompletion.Proofs.PlainTables
import TabCompletion.Proofs.Remarks
import TabCompletion.Proofs.Sessions
