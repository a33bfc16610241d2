import Mathlib.Data.List.TakeWhile
import TabCompletion.Proofs.Completion
import TabCompletion.Proofs.FilesOnly
import TabCompletion.Proofs.Path
import TabCompletion.Proofs.YamlValues

/-!
# How the loading of a grammar ends

A source yields a grammar, or it fails with the exit code of a grammar that cannot be had. There is
a third way to end: a fault, which nothing on the way turns into a failure. `Source.Meets` lists
where faults come from: users without a home at the start of a path, a path that is too long or
that the system does not let anyone look at, a request that the network does not take, an answer in
a character set with which the network library gives up, and texts that are read as they should but
say nothing, as a JSON integer of too many digits, and what YAML takes for a number, a day or a
truth value that there is not. Loading ends in a fault exactly if it meets one of these
(`Source.yields_or_fails_iff`).

The stack is left aside here, for which a text may be too deep (`Source.loadWithin`).
-/

namespace TabCompletion

/-! ## Long integers in JSON -/

namespace Json

/-- An integer that is called too long has more digits than an integer may have. -/
def Problem.IsTrue : Problem → Prop
  | .longInteger digits => maxIntegerDigits < digits
  | _ => True

/-- The reading gives a value or stops at a problem that there is. -/
def Tells {α : Type} : Except (Problem × Nat) α → Prop
  | .ok _ => True
  | .error (problem, _) => problem.IsTrue

section

variable {α β : Type} {cur : Cursor} {fuel : Nat}

/-- A reading that stops makes whatever needs its value stop at the same problem. -/
theorem Tells.stop {r : Except (Problem × Nat) α} {problem : Problem × Nat} (hr : Tells r)
    (heq : r = .error problem) : Tells (.error problem : Except (Problem × Nat) β) := by
  rw [heq] at hr
  exact hr

theorem tells_escapeOf (pos : Nat) (c : Char) (rest : List Char) : Tells (escapeOf pos c rest) := by
  unfold escapeOf
  repeat' split
  all_goals trivial

theorem tells_readCodes (start pos : Nat) (done : List Nat) (cs : List Char) :
    Tells (readCodes start pos done cs) := by
  -- what follows an escape or a plain character tells by induction; other texts end at once
  fun_induction readCodes start pos done cs with
  | case4 _ _ _ _ _ heq _ => exact (tells_escapeOf _ _ _).stop heq
  | case5 _ _ _ _ _ _ _ _ ih => exact ih
  | case7 _ _ _ _ _ _ _ ih => exact ih
  | _ => trivial

theorem tells_readText (cur : Cursor) : Tells (readText cur) := by
  have hcodes := tells_readCodes cur.pos (cur.pos + 1) [] (cur.rest.drop 1)
  unfold readText
  split
  · next heq => exact hcodes.stop heq
  · trivial

theorem tells_readWord (cur : Cursor) : Tells (readWord cur) := by
  unfold readWord
  split
  · trivial
  · split
    · next numeral n _ =>
        split
        · trivial
        · next problem heq =>
            unfold Numeral.value at heq
            split at heq
            · split at heq
              · next hlong =>
                  cases heq
                  exact hlong
              · cases heq
            · cases heq
    · trivial

/-- All readings of values and of their parts stop at problems that there are. -/
structure Tell (fuel : Nat) : Prop where
  value : ∀ cur, Tells (readValue fuel cur)
  items : ∀ cur, Tells (readItems fuel cur)
  entries : ∀ cur, Tells (readEntries fuel cur)

theorem tell (fuel : Nat) : Tell fuel := by
  induction fuel with
  | zero =>
      constructor <;> intro cur
      · unfold readValue
        trivial
      · unfold readItems
        trivial
      · unfold readEntries
        trivial
  | succ fuel ih =>
      constructor <;> intro cur
      · unfold readValue
        split
        · exact tells_readText cur
        · dsimp only
          split
          · trivial
          · split
            · trivial
            · next heq => exact (ih.items _).stop heq
        · dsimp only
          split
          · trivial
          · split
            · trivial
            · next heq => exact (ih.entries _).stop heq
        · exact tells_readWord cur
      · unfold readItems
        split
        · next heq => exact (ih.value _).stop heq
        · dsimp only
          split
          · trivial
          · split
            · split
              · trivial
              · next heq => exact (ih.items _).stop heq
            · trivial
      · unfold readEntries
        split
        · trivial
        · split
          · next heq => exact (tells_readText _).stop heq
          · dsimp only
            split
            · trivial
            · split
              · next heq => exact (ih.value _).stop heq
              · split
                · trivial
                · split
                  · split
                    · trivial
                    · next heq => exact (ih.entries _).stop heq
                  · trivial

/-- A text that is refused without being malformed holds an integer of too many digits. -/
theorem exists_longInteger {s : String} {e : Error} (hread : read s = .error e)
    (hwell : e.isMalformed = false) :
    ∃ digits, e.problem = .longInteger digits ∧ maxIntegerDigits < digits := by
  have htrue : e.problem.IsTrue := by
    unfold read readChars at hread
    split at hread
    · cases hread
      trivial
    · -- the value itself is refused, or something follows it
      split at hread
      · next problem pos heq =>
          cases hread
          have hvalue := (tell (2 * s.toList.length + 2)).value (Cursor.skip ⟨s.toList, 0⟩)
          rw [heq] at hvalue
          exact hvalue
      · dsimp only at hread
        split at hread
        · cases hread
        · cases hread
          trivial
  unfold Error.isMalformed at hwell
  cases hproblem : e.problem with
  | longInteger digits =>
      rw [hproblem] at htrue
      exact ⟨digits, rfl, htrue⟩
  | _ => simp [hproblem] at hwell

end

end Json

/-! ## Home directories and long paths -/

namespace Environment

theorem homeOf?_eq_error_iff {env : Environment} {user : List Char} {fault : Fault} :
    env.homeOf? user = .error fault ↔ '\x00' ∈ user ∧ fault = .badValue := by
  unfold homeOf?
  cases user with
  | nil => simp
  | cons c user =>
      rw [if_neg (by simp)]
      by_cases hzero : '\x00' ∈ c :: user
      · rw [if_pos (List.contains_iff_mem.2 hzero)]
        simp [hzero, eq_comm]
      · rw [if_neg (fun h => hzero (List.contains_iff_mem.1 h))]
        simp [hzero]

/-- In a name all that follows `~` is the name of a user. -/
theorem expandHome_eq_error_iff {env : Environment} {name : String} (hname : Path.IsName name)
    (htilde : name.toList.head? = some '~') {fault : Fault} :
    env.expandHome name = .error fault ↔ '\x00' ∈ name.toList ∧ fault = .badValue := by
  obtain ⟨user, huser⟩ := List.head?_eq_some_iff.1 htilde
  have hslash : '/' ∉ user := fun h => hname.2.2 (huser ▸ List.mem_cons_of_mem _ h)
  have hwhole : user.takeWhile (· != '/') = user := by
    rw [List.takeWhile_eq_self_iff]
    intro c hc
    simpa using fun h : c = '/' => hslash (h ▸ hc)
  have hmem : '\x00' ∈ name.toList ↔ '\x00' ∈ user := by simp [huser]
  rw [hmem, ← @homeOf?_eq_error_iff env]
  unfold expandHome
  simp only [huser, hwhole]
  split
  · next heq => simp [heq]
  · next heq => simp [heq]
  · next heq => simp [heq]

/-- A path cannot be expanded if it starts with `~` and what follows that is no text for a user, or
stands for no home directory. -/
theorem expandPath_eq_error_iff {env : Environment} {p : Path} (hp : p.IsProper) {fault : Fault} :
    env.expandPath p = .error fault ↔
      ∃ first rest, p = ⟨.here, first :: rest⟩ ∧ first.toList.head? = some '~' ∧
        ('\x00' ∈ first.toList ∧ fault = .badValue ∨
          ∃ home, env.expandHome first = .ok home ∧ home.toList.head? = some '~' ∧
            fault = .noHome) := by
  constructor
  · intro h
    unfold expandPath at h
    split at h
    · next first rest hanchor hparts =>
        have hpath : p = ⟨.here, first :: rest⟩ := by
          obtain ⟨anchor, parts⟩ := p
          rw [← hanchor, ← hparts]
        split at h
        · next htilde =>
            refine ⟨first, rest, hpath, htilde, ?_⟩
            split at h
            · next fault' hhome =>
                cases h
                have hname : Path.IsName first := hp first (hpath ▸ List.mem_cons_self)
                exact .inl ((expandHome_eq_error_iff hname htilde).1 hhome)
            · next home hhome =>
                split at h
                · next hstill =>
                    cases h
                    exact .inr ⟨home, hhome, hstill, rfl⟩
                · cases h
        · cases h
    · cases h
  · rintro ⟨first, rest, rfl, htilde, hzero | ⟨home, hhome, hstill, rfl⟩⟩
    · have hname : Path.IsName first := hp first List.mem_cons_self
      have hhome : env.expandHome first = .error fault :=
        (expandHome_eq_error_iff hname htilde).2 hzero
      unfold expandPath
      simp [htilde, hhome]
    · unfold expandPath
      simp [htilde, hhome, hstill]

end Environment

namespace Disk

variable {d : Disk} {path : String} {fault : Fault}

/-- The path is too long, or the walk along its names comes to a name that is. -/
def IsTooLong (d : Disk) (path : String) : Prop :=
  '\x00' ∉ path.toList ∧
    (maxPathBytes < Text.Utf8.byteCount path ∨
      d.tree.walk true Tree.maxLinks (d.startOf path) (Tree.stepsOf path) = .error .tooLong)

/-- Whether a file stands at a path is not said exactly if the path is too long, or the system
refuses to look there and does not mean that nothing is there. -/
theorem isFile_eq_error_iff :
    d.isFile path = .error fault ↔
      (∃ kind, d.refused? .look path = some kind ∧ saysNothing kind = false ∧
          fault = faultAt kind path) ∨
        d.Grants .look path ∧ d.IsTooLong path ∧ fault = faultAt .tooLong path := by
  unfold isFile ask look granted Grants
  cases hrefused : d.refused? .look path with
  | some kind =>
      have hfault : (.error (faultAt kind path) : Except Fault Bool) = .error fault ↔
          fault = faultAt kind path := by rw [Except.error.injEq, eq_comm]
      simp only [Option.some.injEq, exists_eq_left', reduceCtorEq, false_and, or_false]
      rw [← hfault]
      unfold faultAt FileFault.at
      by_cases hkind : saysNothing kind = true <;> simp [hkind]
  | none =>
      simp only [reduceCtorEq, false_and, exists_false, false_or, true_and]
      unfold IsTooLong entry
      rw [← Bool.eq_false_iff.trans (not_congr List.contains_iff_mem)]
      cases hzero : path.toList.contains '\x00' with
      | true =>
          have hlocate : d.locate true path = .error .badValue := if_pos hzero
          simp [hlocate]
      | false =>
          by_cases hlong : maxPathBytes < Text.Utf8.byteCount path
          · have hlocate : d.locate true path = .error (faultAt .tooLong path) :=
              (if_neg (Bool.eq_false_iff.1 hzero)).trans (if_pos hlong)
            simp [hlocate, hlong, faultAt, FileFault.at, saysNothing, eq_comm]
          · have hpath : IsPath path := ⟨hzero, Nat.not_lt.1 hlong⟩
            rw [locate_eq_walk hpath]
            -- the walk ends somewhere, or a name on the way blocks it
            cases d.tree.walk true Tree.maxLinks (d.startOf path) (Tree.stepsOf path) with
            | ok located => cases located <;> simp [hlong, faultAt, FileFault.at, saysNothing]
            | error blocked =>
                cases blocked <;>
                  simp [hlong, faultAt, FileFault.at, blockedKind, saysNothing, eq_comm]

end Disk

namespace Source

/-! ## How loading ends -/

/-- YAML is tried on a text: it is known to be YAML, or it may be and is no JSON. -/
def TriesYaml (content : String) (hint : Hint) : Prop :=
  hint = .yaml ∨ hint = .unknown ∧ ∃ e, Json.read content = .error e ∧ e.isMalformed = true

/-- What ends the loading of a source in a fault, and the fault. -/
inductive Meets (h : Host) (source : String) : Fault → Prop
  /-- The path starts with a user who has no home directory. -/
  | noHome {first home : String} {rest : List String} (hlocal : isLocal source = true)
      (hpath : Path.ofText source = ⟨.here, first :: rest⟩)
      (htilde : first.toList.head? = some '~')
      (hhome : h.environment.expandHome first = .ok home)
      (hstill : home.toList.head? = some '~') : Meets h source .noHome
  /-- The path starts with a user whose name has a zero character. -/
  | noUser {first : String} {rest : List String} (hlocal : isLocal source = true)
      (hpath : Path.ofText source = ⟨.here, first :: rest⟩)
      (htilde : first.toList.head? = some '~') (hzero : '\x00' ∈ first.toList) :
      Meets h source .badValue
  /-- The path is too long, or leads along a name that is. -/
  | tooLong {p : Path} (hlocal : isLocal source = true)
      (hpath : h.environment.expandPath (Path.ofText source) = .ok p)
      (hlook : h.disk.Grants .look p.text) (hlong : h.disk.IsTooLong p.text) :
      Meets h source (Disk.faultAt .tooLong p.text)
  /-- The system refuses to say whether there is a file. -/
  | unseen {p : Path} {kind : FileFault.Kind} (hlocal : isLocal source = true)
      (hpath : h.environment.expandPath (Path.ofText source) = .ok p)
      (hrefused : h.disk.refused? .look p.text = some kind)
      (hkind : Disk.saysNothing kind = false) : Meets h source (Disk.faultAt kind p.text)
  /-- The request to the network is a fault. -/
  | broken {name : String} (hremote : isRemote source = true)
      (hfetch : h.fetch source = .broken name) : Meets h source (.unnamed name)
  /-- The body of an answer is in a character set with which the network library gives up on it. -/
  | garbled {code : Nat} {contentType : Option String} {body : List UInt8} {fault : Fault}
      (hremote : isRemote source = true) (hfetch : h.fetch source = .response code contentType body)
      (hcode : 200 ≤ code ∧ code < 300) (hbody : bodyOf h contentType body = .error fault) :
      Meets h source fault
  /-- JSON is tried on the text, and it holds an integer of too many digits. -/
  | longInteger {content : String} {hint : Hint} {e : Json.Error} {digits : Nat}
      (htext : readText h source = .ok (content, hint)) (hhint : hint ≠ .yaml)
      (hread : Json.read content = .error e) (hproblem : e.problem = .longInteger digits)
      (hlong : Json.maxIntegerDigits < digits) : Meets h source .badValue
  /-- YAML is tried on the text, and a number or a node of it makes no sense. -/
  | yaml {content : String} {hint : Hint} {fault : Fault}
      (htext : readText h source = .ok (content, hint)) (htries : TriesYaml content hint)
      (hread : Yaml.read content = .error (.fault fault))
      (hcause : Yaml.Upsets content.toList fault) : Meets h source fault

variable {h : Host} {source : String} {fault : Fault}

/-- Reading a file ends in a fault only if it is not known whether it is there: a file that is there
and is not read is a failure. -/
theorem readFile_eq_fault_iff :
    readFile h source = .error (.fault fault) ↔
      h.environment.expandPath (Path.ofText source) = .error fault ∨
        ∃ p, h.environment.expandPath (Path.ofText source) = .ok p ∧
          h.disk.isFile p.text = .error fault := by
  rw [readFile]
  cases hpath : h.environment.expandPath (Path.ofText source) with
  | error fault' => simp
  | ok p =>
      simp only [reduceCtorEq, false_or, Except.ok.injEq, exists_eq_left']
      cases hfile : h.disk.isFile p.text with
      | error fault' => simp
      | ok found =>
          cases found with
          | false => simp [fail]
          | true =>
              cases hread : h.disk.read p.text with
              | error fault' =>
                  obtain ⟨kind, -, rfl⟩ := Disk.exists_refused_of_read hfile hread
                  simp [fail, Disk.faultAt]
              | ok bytes =>
                  -- what is read may be no text, or blank
                  dsimp only
                  cases textOf bytes with
                  | error e => simp [fail]
                  | ok content =>
                      by_cases hblank : Text.isBlankText content <;> simp [fail, hblank]

/-- To ask the network for an address is a fault, or to read the body of its answer. -/
def GarblesReply (h : Host) (url : String) (fault : Fault) : Prop :=
  (∃ name, h.fetch url = .broken name ∧ fault = .unnamed name) ∨
    ∃ code contentType body, h.fetch url = .response code contentType body ∧
      (200 ≤ code ∧ code < 300) ∧ bodyOf h contentType body = .error fault

theorem readRemote_eq_fault_iff {url : String} :
    readRemote h url = .error (.fault fault) ↔ GarblesReply h url fault := by
  unfold GarblesReply
  rw [readRemote]
  cases h.fetch url with
  | unreachable reason => simp [fail]
  | broken name => simp [eq_comm]
  | response code contentType body =>
      dsimp only
      by_cases hcode : 200 ≤ code ∧ code < 300
      · have hwell : ¬ ((code < 200 || 300 ≤ code) = true) := by
          simp only [Bool.or_eq_true, decide_eq_true_eq]
          omega
        rw [if_neg hwell]
        cases hbody : bodyOf h contentType body <;> simp [hcode, hbody]
      · have hill : (code < 200 || 300 ≤ code) = true := by
          simp only [Bool.or_eq_true, decide_eq_true_eq]
          omega
        rw [if_pos hill]
        simp [fail, hcode]

/-- The input of the program is a failure at worst. -/
theorem readInput_ne_fault : readInput h ≠ .error (.fault fault) := by
  rw [readInput]
  cases textOf h.input with
  | error e => simp [fail]
  | ok content => by_cases hblank : Text.isBlankText content <;> simp [fail, hblank]

/-- What may be a fault before the text of a source is known. -/
theorem readText_eq_fault_iff :
    readText h source = .error (.fault fault) ↔
      (isLocal source = true ∧
        (h.environment.expandPath (Path.ofText source) = .error fault ∨
          ∃ p, h.environment.expandPath (Path.ofText source) = .ok p ∧
            h.disk.isFile p.text = .error fault)) ∨
      isRemote source = true ∧ GarblesReply h source fault := by
  by_cases hlocal : isLocal source = true
  · have hremote := (isLocal_eq_true_iff.1 hlocal).2
    rw [readText_of_isLocal h hlocal, readFile_eq_fault_iff]
    simp [hlocal, hremote]
  · rw [readText]
    by_cases hinput : source = "-"
    · have hremote : isRemote source = false := by
        rw [hinput]
        decide
      have hnot : (readInput h).map (fun content => (content, Hint.unknown)) ≠
          .error (.fault fault) := by
        intro hmap
        cases hread : readInput h with
        | ok content =>
            rw [hread] at hmap
            cases hmap
        | error stop =>
            rw [hread] at hmap
            cases hmap
            exact readInput_ne_fault hread
      rw [if_pos hinput]
      simp [hlocal, hremote, hnot]
    · have hremote : isRemote source = true := by simpa [isLocal, hinput] using hlocal
      rw [if_neg hinput, if_pos hremote, readRemote_eq_fault_iff]
      simp [hlocal, hremote]

theorem asRecord_ne_fault (d : Document) : asRecord d ≠ .error (.fault fault) := by
  cases d <;> simp [asRecord, fail]

theorem parseYaml_eq_fault_iff {content : String} {json : Option Json.Error} :
    parseYaml content json = .error (.fault fault) ↔
      Yaml.read content = .error (.fault fault) := by
  unfold parseYaml
  cases Yaml.read content with
  | ok d => simp [asRecord_ne_fault]
  | error stop => cases stop <;> simp [fail]

theorem parse_eq_fault_iff {content : String} {hint : Hint} :
    parse content hint = .error (.fault fault) ↔
      (hint ≠ .yaml ∧ (∃ e, Json.read content = .error e ∧ e.isMalformed = false) ∧
          fault = .badValue) ∨
        TriesYaml content hint ∧ Yaml.read content = .error (.fault fault) := by
  unfold parse TriesYaml
  -- JSON is tried first, unless the text is known to be YAML
  by_cases hyaml : hint = .yaml
  · simp [hyaml, parseYaml_eq_fault_iff]
  · rw [if_neg hyaml]
    cases hread : Json.read content with
    | ok d => simp [asRecord_ne_fault, hyaml]
    | error e =>
        cases hwell : e.isMalformed with
        | false =>
            have hstop : (.error (.fault .badValue) : Loading Document) = .error (.fault fault) ↔
                fault = .badValue := by simp [eq_comm]
            simp [hyaml, hwell, hstop]
        | true => cases hint <;> simp_all [fail, parseYaml_eq_fault_iff]

theorem load_eq_fault_iff :
    load h source = .error (.fault fault) ↔
      readText h source = .error (.fault fault) ∨
        ∃ content hint, readText h source = .ok (content, hint) ∧
          parse content hint = .error (.fault fault) := by
  unfold load loadAs loadDocument
  cases htext : readText h source with
  | error stop => simp [bind, Except.bind]
  | ok found =>
      obtain ⟨content, hint⟩ := found
      cases hparse : parse content hint with
      | error stop => simp [bind, Except.bind, hparse]
      | ok d =>
          simp only [bind, Except.bind, hparse]
          cases Grammar.ofDocument d <;> simp [fail, pure, Except.pure, hparse]

theorem load_eq_fault_iff_meets : load h source = .error (.fault fault) ↔ Meets h source fault := by
  rw [load_eq_fault_iff, readText_eq_fault_iff,
    Environment.expandPath_eq_error_iff (Path.isProper_ofText source)]
  constructor
  · rintro ((⟨hlocal, hhome | hlook⟩ | ⟨hremote, ⟨name, hfetch, rfl⟩ | ⟨code, contentType, body,
      hfetch, hcode, hbody⟩⟩) | ⟨content, hint, htext, hparse⟩)
    · -- a home directory that is not known
      obtain ⟨first, rest, hpath, htilde, ⟨hzero, rfl⟩ | ⟨home, hhome, hstill, rfl⟩⟩ := hhome
      · exact .noUser hlocal hpath htilde hzero
      · exact .noHome hlocal hpath htilde hhome hstill
    · -- a path that cannot be looked at
      obtain ⟨p, hpath, hfile⟩ := hlook
      obtain ⟨kind, hrefused, hkind, rfl⟩ | ⟨hlook, hlong, rfl⟩ := Disk.isFile_eq_error_iff.1 hfile
      · exact .unseen hlocal hpath hrefused hkind
      · exact .tooLong hlocal hpath hlook hlong
    · exact .broken hremote hfetch
    · exact .garbled hremote hfetch hcode hbody
    · -- a text that one of the readers gives up
      rcases parse_eq_fault_iff.1 hparse with ⟨hhint, ⟨e, hread, hwell⟩, rfl⟩ | ⟨htries, hread⟩
      · obtain ⟨digits, hproblem, hlong⟩ := Json.exists_longInteger hread hwell
        exact .longInteger htext hhint hread hproblem hlong
      · exact .yaml htext htries hread (Yaml.upsets_of_read hread)
  · intro hmeets
    cases hmeets with
    | noHome hlocal hpath htilde hhome hstill =>
        exact .inl (.inl ⟨hlocal, .inl ⟨_, _, hpath, htilde, .inr ⟨_, hhome, hstill, rfl⟩⟩⟩)
    | noUser hlocal hpath htilde hzero =>
        exact .inl (.inl ⟨hlocal, .inl ⟨_, _, hpath, htilde, .inl ⟨hzero, rfl⟩⟩⟩)
    | tooLong hlocal hpath hlook hlong =>
        have hfile := Disk.isFile_eq_error_iff.2 (.inr ⟨hlook, hlong, rfl⟩)
        exact .inl (.inl ⟨hlocal, .inr ⟨_, hpath, hfile⟩⟩)
    | unseen hlocal hpath hrefused hkind =>
        have hfile := Disk.isFile_eq_error_iff.2 (.inl ⟨_, hrefused, hkind, rfl⟩)
        exact .inl (.inl ⟨hlocal, .inr ⟨_, hpath, hfile⟩⟩)
    | broken hremote hfetch => exact .inl (.inr ⟨hremote, .inl ⟨_, hfetch, rfl⟩⟩)
    | garbled hremote hfetch hcode hbody =>
        exact .inl (.inr ⟨hremote, .inr ⟨_, _, _, hfetch, hcode, hbody⟩⟩)
    | @longInteger _ _ e _ htext hhint hread hproblem _ =>
        have hwell : e.isMalformed = false := by
          unfold Json.Error.isMalformed
          rw [hproblem]
        exact .inr ⟨_, _, htext, parse_eq_fault_iff.2 (.inl ⟨hhint, ⟨_, hread, hwell⟩, rfl⟩)⟩
    | yaml htext htries hread _ =>
        exact .inr ⟨_, _, htext, parse_eq_fault_iff.2 (.inr ⟨htries, hread⟩)⟩

/-- Loading yields a grammar, or fails as a grammar that cannot be had, exactly if it meets no
fault; and if it meets one, then that fault ends it. -/
theorem yields_or_fails_iff (h : Host) (source : String) :
    ((∃ g, load h source = .ok g) ∨
        (∃ f, load h source = .error (.failure f) ∧ f.toFailure.kind = .grammar ∧
          f.toFailure.exitCode = 7) ↔
      ∀ fault, ¬ Meets h source fault) ∧
      ∀ fault, load h source = .error (.fault fault) ↔ Meets h source fault := by
  refine ⟨?_, fun fault => load_eq_fault_iff_meets⟩
  constructor
  · rintro (⟨g, hload⟩ | ⟨f, hload, -⟩) fault hmeets
    · rw [load_eq_fault_iff_meets.2 hmeets] at hload
      cases hload
    · rw [load_eq_fault_iff_meets.2 hmeets] at hload
      cases hload
  · intro hnone
    cases hload : load h source with
    | ok g => exact .inl ⟨g, rfl⟩
    | error stop =>
        cases stop with
        | failure f => exact .inr ⟨f, rfl, rfl, rfl⟩
        | fault fault => exact absurd (load_eq_fault_iff_meets.1 hload) (hnone fault)

/-- A day that no calendar has is a fault, and so is a user who has no home. -/
theorem not_yields_or_fails :
    ¬ ((∃ g, load Run.misdatedHost Run.misdatedFile.text = .ok g) ∨
        ∃ f, load Run.misdatedHost Run.misdatedFile.text = .error (.failure f)) ∧
      load Run.misdatedHost "~nobody/g.yaml" = .error (.fault .noHome) := by
  constructor
  · obtain ⟨-, fault, hfault⟩ := Run.isFaulty_misdatedFile
    rw [hfault]
    simp
  · rfl

end Source

end TabCompletion
