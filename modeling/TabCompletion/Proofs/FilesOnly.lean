import TabCompletion.Proofs.Disk
import TabCompletion.Proofs.Library

/-!
# Registries are built from files only

A source is read from the disk, from the input of the program or from the network. Completion
must wait for neither of the latter two, so a test on the name of a source keeps everything but
files away (`Source.isLocal`). The test is exact: it passes the sources whose document is the same
whatever the input holds and the network answers, and no others (`Source.isLocal_iff_elsewhere`).
So two hosts that differ in these alone build the same registry, or stop for the same reason, and
make the same records on the way (`Library.registry_elsewhere`).
-/

namespace TabCompletion

/-- The host with other input and with other answers of the network. -/
def Host.elsewhere (h : Host) (input : List UInt8) (replies : List (String × Reply)) : Host :=
  { h with input, replies }

variable (h : Host) (input : List UInt8) (replies : List (String × Reply))

namespace Source

variable {source : String}

/-! ## Files -/

theorem isLocal_eq_true_iff : isLocal source = true ↔ source ≠ "-" ∧ isRemote source = false := by
  simp [isLocal]

/-- What passes the test is read from the disk. -/
theorem readText_of_isLocal (hlocal : isLocal source = true) :
    readText h source = readFile h source := by
  obtain ⟨hinput, hremote⟩ := isLocal_eq_true_iff.1 hlocal
  rw [readText, if_neg hinput, if_neg (Bool.eq_false_iff.1 hremote)]

/-- A file whose bytes are those of a text is read as that text, unless the text is blank. -/
theorem readFile_of_read {p : Path} {bytes : List UInt8} {content : String}
    (hpath : h.environment.expandPath (Path.ofText source) = .ok p)
    (hfile : h.disk.isFile p.text = .ok true) (hbytes : h.disk.read p.text = .ok bytes)
    (hcontent : textOf bytes = .ok content) (hblank : Text.isBlankText content = false) :
    readFile h source = .ok (content, hintOfSuffix p.suffix) := by
  unfold readFile
  simp only [hpath, hfile, hbytes, hcontent, hblank]
  rfl

/-- The grammar of a file is loaded, if its bytes are those of a document that says it. -/
theorem load_eq_ok_of_read {p : Path} {bytes : List UInt8} {content : String} {d : Document}
    {g : Grammar} (hlocal : isLocal source = true)
    (hpath : h.environment.expandPath (Path.ofText source) = .ok p)
    (hfile : h.disk.isFile p.text = .ok true) (hbytes : h.disk.read p.text = .ok bytes)
    (hcontent : textOf bytes = .ok content)
    (hblank : Text.isBlankText content = false)
    (hparse : parse content (hintOfSuffix p.suffix) = .ok d)
    (hgrammar : Grammar.ofDocument d = .ok g) : load h source = .ok g := by
  rw [load, loadAs, loadDocument, readText_of_isLocal h hlocal,
    readFile_of_read h hpath hfile hbytes hcontent hblank]
  dsimp only [bind, Except.bind]
  rw [hparse]
  dsimp only
  rw [hgrammar]
  rfl

theorem loadDocument_of_isLocal (hlocal : isLocal source = true) :
    loadDocument (h.elsewhere input replies) source = loadDocument h source := by
  rw [loadDocument, loadDocument, readText_of_isLocal _ hlocal, readText_of_isLocal _ hlocal]
  -- a file is found by way of the environment and the disk, which are the same
  rfl

theorem load_of_isLocal (hlocal : isLocal source = true) :
    load (h.elsewhere input replies) source = load h source := by
  rw [load, loadAs, loadAs, loadDocument_of_isLocal h input replies hlocal]

/-! ## The input and the network -/

theorem input_elsewhere : (h.elsewhere input replies).input = input := rfl

theorem loadDocument_of_readInput {stop : LoadStop} (hread : readInput h = .error stop) :
    loadDocument h "-" = .error stop := by
  rw [loadDocument, readText, if_pos rfl, hread]
  rfl

/-- Empty input is no document. -/
theorem loadDocument_input_nil :
    loadDocument (h.elsewhere [] replies) "-" = .error (.failure .emptyInput) := by
  have htext : textOf [] = .ok "" := by
    rw [textOf, Text.Utf8.decode, Text.Utf8.decodeFrom]
    rfl
  apply loadDocument_of_readInput
  rw [readInput, input_elsewhere, htext]
  rfl

/-- Nor is input that is no text: no character starts with a byte of eight ones. -/
theorem loadDocument_input_ones : ∃ reason,
    loadDocument (h.elsewhere [0xFF] replies) "-" =
      .error (.failure (.unreadableInput reason)) := by
  have htext : textOf [0xFF] = .error ⟨0, 1, 0xFF, .startByte⟩ := by
    rw [textOf, Text.Utf8.decode, Text.Utf8.decodeFrom]
    rfl
  refine ⟨Text.Utf8.DecodeError.message ⟨0, 1, 0xFF, .startByte⟩, ?_⟩
  apply loadDocument_of_readInput
  rw [readInput, input_elsewhere, htext]
  rfl

/-- An address that cannot be reached has no document, for the reason that the network gives. -/
theorem loadDocument_unreachable (hremote : isRemote source = true) (reason : String) :
    loadDocument (h.elsewhere input [(source, .unreachable reason)]) source =
      .error (.failure (.unreachable source reason)) := by
  have hinput : source ≠ "-" := by
    rintro rfl
    exact absurd hremote (by decide)
  have hfetch : (h.elsewhere input [(source, .unreachable reason)]).fetch source =
      .unreachable reason := by
    simp [Host.fetch, Host.elsewhere]
  have hread : readRemote (h.elsewhere input [(source, .unreachable reason)]) source =
      fail (.unreachable source reason) := by
    rw [readRemote, hfetch]
  rw [loadDocument, readText, if_neg hinput, if_pos hremote, hread]
  rfl

/-- A source passes the test exactly if neither the input nor the network has a say in its
document. -/
theorem isLocal_iff_elsewhere (source : String) :
    isLocal source = true ↔ ∀ input replies,
      loadDocument (h.elsewhere input replies) source = loadDocument h source := by
  constructor
  · intro hlocal input replies
    exact loadDocument_of_isLocal h input replies hlocal
  · intro hsame
    rw [isLocal_eq_true_iff]
    constructor
    · -- no input and unreadable input are told apart
      rintro rfl
      obtain ⟨reason, hones⟩ := loadDocument_input_ones h []
      have heq := (hsame [0xFF] []).trans (hsame [] []).symm
      rw [hones, loadDocument_input_nil] at heq
      cases heq
    · -- so are two reasons of the network
      rw [Bool.eq_false_iff]
      intro hremote
      have heq := (hsame [] [(source, .unreachable "a")]).trans
        (hsame [] [(source, .unreachable "b")]).symm
      rw [loadDocument_unreachable h [] hremote, loadDocument_unreachable h [] hremote] at heq
      simp at heq

end Source

namespace Library

/-! ## Registries -/

theorem files_elsewhere : files (h.elsewhere input replies) = files h := rfl

/-- A source that is no file is passed over unread. -/
theorem addSource_elsewhere (r : Registry) (source : String) :
    addSource (Source.load (h.elsewhere input replies)) r source =
      addSource (Source.load h) r source := by
  cases hlocal : Source.isLocal source with
  | true =>
      unfold addSource
      rw [Source.load_of_isLocal h input replies hlocal]
  | false => rw [addSource_of_not_isLocal hlocal, addSource_of_not_isLocal hlocal]

theorem addSources_elsewhere (r : Registry) (done : List Record) (sources : List String) :
    addSources (fun _ => Source.load (h.elsewhere input replies)) r done sources =
      addSources (fun _ => Source.load h) r done sources := by
  induction sources generalizing r done with
  | nil => rfl
  | cons source rest ih =>
      rw [addSources, addSources, addSource_elsewhere]
      -- the next sources are added to the registry that the first one leaves
      refine congrArg (addSource (Source.load h) r source >>= ·) (funext fun added => ?_)
      cases added with
      | error e => rfl
      | ok r => exact ih r _

/-- Neither the input nor the network has a say in the registry of a host, in the records made
while it is built, or in the reason for which it is not built: the test that keeps other sources
away passes exactly those on which they have none. -/
theorem registry_elsewhere (h : Host) (s : Settings) :
    (∀ input replies, registry (h.elsewhere input replies) s = registry h s) ∧
      ∀ source, Source.isLocal source = true ↔ ∀ input replies,
        Source.loadDocument (h.elsewhere input replies) source = Source.loadDocument h source := by
  refine ⟨fun input replies => ?_, Source.isLocal_iff_elsewhere h⟩
  unfold registry registryBy
  rw [files_elsewhere]
  cases files h with
  | error fault => rfl
  | ok found =>
      dsimp only
      rw [addSources_elsewhere]

end Library

end TabCompletion
