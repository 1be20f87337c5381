import LibraryGuard.CommandLine.Reply
import LibraryGuard.Proofs.Dependency.Walk
import LibraryGuard.Proofs.Elf.VersionImage
import LibraryGuard.Proofs.Program.Worker
import LibraryGuard.Proofs.Search.Agreement
import LibraryGuard.Proofs.Version.Text
import Mathlib.Data.List.Forall2

/-!
# What the program replies to a request

A request either fails, with the error of the component that it needs (`FailsWith`), or is answered, and then something is printed
that stands for the answer (`Prints`). The words for an edge, for an outcome and for a version are spelled out there (`TellsEdge`,
`TellsOutcome`, `Version.TellsInFull`), and each has exactly one text. The program ends with 1 and the error's message in the
first case, and with 0 and the answer in the second (`reply_fails_or_prints`). On the error stream of a request that is answered
there is at most what a worker wrote.
-/

namespace LibraryGuard

namespace Dependency.Walker

/-- The edges of a file: those of the report about it, or none where there is no report. -/
def HasEdges (w : Walker) (file : Path) (edges : List Edge) : Prop :=
  (∃ report, w.lister file = .ok report ∧ edges = parseReport file report) ∨ (∃ e, w.lister file = .error e) ∧ edges = []

/-- The edges of a file, where there is a report, are those that a walk goes by. -/
theorem reportsTarget_of_hasEdges {w : Walker} {file : Path} {edges : List Edge} (h : w.HasEdges file edges) :
    w.ReportsTarget file ↔ ∃ e ∈ edges, e.name = w.target ∨ ∃ place, e.resolved = some place ∧ place.isNamed w.target = true := by
  unfold ReportsTarget
  rcases h with ⟨report, hreport, rfl⟩ | ⟨⟨e, herror⟩, rfl⟩
  · simp [hreport]
  · simp [herror]

end Dependency.Walker

namespace Lister

/-- The text of the bytes of a text is that text. -/
theorem textOf_encode (s : String) : textOf (Text.Utf8.encode s.toList) = s := by
  rw [textOf, Text.Utf8.decodeLossy_encode, String.ofList_toList]

/-- What a lister that comes to its report at once says of a file. -/
theorem list_of_prompt {start : Starter} {env : Environment} {program path : Path} {report complaint : String}
    (h : start ⟨program, [path.text], env⟩ = .ok (Probe.promptRun ⟨0, report, complaint⟩)) :
    list start env program path = .ok report := by
  have hcontent : (Probe.promptRun ⟨0, report, complaint⟩).out.content = Text.Utf8.encode report.toList := by
    simp [Probe.promptRun, Stream.content]
  have hreport : Lister.report program (Probe.promptRun ⟨0, report, complaint⟩) = .ok report := by
    rw [Lister.report, hcontent, textOf_encode]
    rfl
  simp only [list, h, hreport, Except.mapError]

end Lister

namespace CommandLine

/-- The configuration of a check: the one in the file that is named, or else the one that the environment describes. -/
def settings (m : Machine) : Option Path → Except GuardError Config
  | some path => Config.load m.files path
  | none => Config.ofEnvironment m.files m.environment

/-- What the worker of a configuration writes to the error stream. It is not asked about a library that is mapped. -/
def probeText (m : Machine) (c : Config) : String :=
  if (m.linker.find? c.target).isSome then "" else Lister.textOf ((Probe.ofConfig c).complaint m.start m.environment c.target)

/-- The words for an edge: its name, and behind an arrow its place, or that it has none. -/
inductive TellsEdge (e : Dependency.Edge) : String → Prop
  | resolved {place : Path} (h : e.resolved = some place) : TellsEdge e (e.name ++ " => " ++ place.text)
  | unresolved (h : e.resolved = none) : TellsEdge e (e.name ++ " => (unresolved)")

/-- The words for an outcome. The versions in it are told in full. -/
inductive TellsOutcome : Outcome → String → Prop
  | upToDate {system shipped : Version} {a b : String} (ha : Version.TellsInFull a system) (hb : Version.TellsInFull b shipped) :
      TellsOutcome (.upToDate system shipped) ("up to date (system " ++ a ++ ", shipped " ++ b ++ ")")
  | loaded {path : Path} {system shipped : Version} {a b : String} (ha : Version.TellsInFull a system)
      (hb : Version.TellsInFull b shipped) :
      TellsOutcome (.loaded path system shipped) ("loaded " ++ path.text ++ " (system " ++ a ++ " < shipped " ++ b ++ ")")
  | loadFailed {path : Path} {reason : String} :
      TellsOutcome (.loadFailed path reason) ("failed to load " ++ path.text ++ ": " ++ reason)
  | alreadyBound {system shipped : Version} {a b : String} (ha : Version.TellsInFull a system)
      (hb : Version.TellsInFull b shipped) :
      TellsOutcome (.alreadyBound system shipped) ("already bound to older system copy (" ++ a ++ " < " ++ b ++ ")")
  | indeterminate : TellsOutcome .indeterminate "indeterminate"

/-- The line of an edge has the words for it. -/
theorem tellsEdge_iff {e : Dependency.Edge} {words : String} : TellsEdge e words ↔ edgeLine e = words ++ "\n" := by
  have hnone : e.name ++ " => " ++ "(unresolved)" = e.name ++ " => (unresolved)" := by
    rw [String.append_assoc]
    rfl
  rw [edgeLine, String.append_left_inj]
  constructor
  · rintro (h | h)
    · rw [h, Option.elim_some]
    · rw [h, Option.elim_none, hnone]
  · rintro rfl
    cases h : e.resolved with
    | some place => exact .resolved h
    | none =>
      rw [Option.elim_none, hnone]
      exact .unresolved h

/-- The lines of edges are those of each one, in order. -/
theorem forall₂_tellsEdge_iff {edges : List Dependency.Edge} {words : List String} :
    List.Forall₂ TellsEdge edges words ↔ edges.map edgeLine = words.map (· ++ "\n") := by
  have hsame : TellsEdge = fun e words => edgeLine e = words ++ "\n" := funext₂ fun _ _ => propext tellsEdge_iff
  rw [hsame, ← List.forall₂_eq_eq_eq, List.forall₂_map_left_iff, List.forall₂_map_right_iff]

/-- The words for an outcome are the one text for it. -/
theorem tellsOutcome_iff {o : Outcome} {words : String} : TellsOutcome o words ↔ o.text = words := by
  have hfull : ∀ v : Version, Version.TellsInFull v.text v := fun _ => Version.tellsInFull_iff.2 rfl
  constructor
  · intro h
    cases h with
    | upToDate ha hb | loaded ha hb | alreadyBound ha hb =>
      rw [← Version.tellsInFull_iff.1 ha, ← Version.tellsInFull_iff.1 hb]
      rfl
    | loadFailed | indeterminate => rfl
  · rintro rfl
    cases o with
    | upToDate => exact .upToDate (hfull _) (hfull _)
    | loaded => exact .loaded (hfull _) (hfull _)
    | loadFailed => exact .loadFailed
    | alreadyBound => exact .alreadyBound (hfull _) (hfull _)
    | indeterminate => exact .indeterminate

namespace Request

/-- A request fails with an error: the component that it needs does, or finds nothing where a place is asked for. -/
inductive FailsWith (m : Machine) : Request → GuardError → Prop
  | probe {library e} (h : m.linker.locate library = .error e) : FailsWith m (.probe library) e
  | version {file family isPacked e} (h : (m.files.newestVersion file family).value = .error e) :
      FailsWith m (.version file family isPacked) e
  | search {executable target e} (h : shippedFor m.files executable target = .error e) :
      FailsWith m (.locate executable target) e
  | notFound {executable target} (h : shippedFor m.files executable target = .ok none) :
      FailsWith m (.locate executable target)
        (.resolution (target ++ " not found on the RUNPATH/RPATH of " ++ executable.text))
  | select {candidate shipped origin target family e}
      (h : (ShippedLibrary.openAt m.files (shippedLibrary m.files shipped target) family).value = .error e) :
      FailsWith m (.select candidate shipped origin target family) e
  | check {shipped config e} (h : settings m config = .error e) : FailsWith m (.check shipped config) e

/-- What is printed for a request that is answered. A version is told in full by a text that is read as it, or by the eight
hexadecimal digits of its packed triple. A verdict is the one of the shipped library with its own version as the bar. The edges of
a file come in the order of the report, each on a line, and then whether it leads to the target, which can be seen from the
edges. -/
inductive Prints (m : Machine) : Request → String → Prop
  | place {library path} (h : m.linker.locate library = .ok path) : Prints m (.probe library) (path.text ++ "\n")
  | version {file family v line} (h : (m.files.newestVersion file family).value = .ok v) (hline : Version.parse line = .ok v)
      (hfull : Version.TellsInFull line v) : Prints m (.version file family false) (line ++ "\n")
  | packed {file family v digits} (h : (m.files.newestVersion file family).value = .ok v) (hlength : digits.length = 8)
      (hdigits : ∀ c ∈ digits, c ∈ Version.hexDigits) (hvalue : Version.hexadecimal digits = v.packed.toNat) :
      Prints m (.version file family true) (String.ofList digits ++ "\n")
  | dependencies {file target lister maxDepth edges words leads} (hedges : (m.walker lister target maxDepth).HasEdges file edges)
      (hwords : List.Forall₂ TellsEdge edges words)
      (hwalk : leads = ((m.walker lister target maxDepth).dependsOnTarget m.files file).value)
      (hleads : m.files.isPresent file = true → file.isNamed target = false → Path.IsFileName target → 1 ≤ maxDepth →
        (leads = true ↔ ∃ e ∈ edges, e.name = target ∨ ∃ place, e.resolved = some place ∧ place.isNamed target = true)) :
      Prints m (.dependencies file target lister maxDepth)
        (String.join (words.map (· ++ "\n")) ++ target ++ ": " ++ (if leads then "true" else "false") ++ "\n")
  | found {executable target path} (h : shippedFor m.files executable target = .ok (some path)) :
      Prints m (.locate executable target) (path.text ++ "\n")
  | accept {candidate shipped origin target family s}
      (hopen : (ShippedLibrary.openAt m.files (shippedLibrary m.files shipped target) family).value = .ok s)
      (hverdict : (s.select m.files candidate origin target family).value.1 = .accept) :
      Prints m (.select candidate shipped origin target family) ("accept " ++ candidate.text ++ "\n")
  | reject {candidate shipped origin target family s}
      (hopen : (ShippedLibrary.openAt m.files (shippedLibrary m.files shipped target) family).value = .ok s)
      (hverdict : (s.select m.files candidate origin target family).value.1 = .reject) :
      Prints m (.select candidate shipped origin target family) ("reject " ++ candidate.text ++ "\n")
  | redirect {candidate shipped origin target family s path}
      (hopen : (ShippedLibrary.openAt m.files (shippedLibrary m.files shipped target) family).value = .ok s)
      (hverdict : (s.select m.files candidate origin target family).value.1 = .redirect path) :
      Prints m (.select candidate shipped origin target family) ("redirect " ++ path.text ++ "\n")
  | outcome {shipped config c words} (h : settings m config = .ok c)
      (hwords : TellsOutcome
        ((m.host c).reconcile c.target c.versionFamily (shippedLibrary m.files shipped c.target)).value words) :
      Prints m (.check shipped config) (words ++ "\n")

/-- What a worker writes to the error stream on behalf of a request. Only a check asks a worker. -/
def workerText (m : Machine) : Request → String
  | .check _ config =>
    match settings m config with
    | .ok c => probeText m c
    | .error _ => ""
  | _ => ""

/-- What comes of a request: what is printed, or an error. -/
def result (m : Machine) : Request → Except GuardError String
  | .probe library => (m.linker.locate library).map (·.text ++ "\n")
  | .version file family isPacked =>
    (m.files.newestVersion file family).value.map fun v => (if isPacked then v.packedHex else v.text) ++ "\n"
  | .dependencies file target lister maxDepth => .ok (dependencyLines (m.walker lister target maxDepth) m.files file).value
  | .locate executable target => locateLine m.files executable target
  | .select candidate shipped origin target family => (selectLine m.files candidate shipped origin target family).value
  | .check shipped config => (settings m config).map fun c =>
      ((m.host c).reconcile c.target c.versionFamily (shippedLibrary m.files shipped c.target)).value.text ++ "\n"

end Request

/-! ## What comes of a request -/

variable {m : Machine} {r : Request}

/-- On the error stream of a reconciliation there is what the worker writes. -/
theorem workerComplaints_reconcile (m : Machine) (c : Config) (shipped : Path) :
    workerComplaints m c ((m.host c).reconcile c.target c.versionFamily shipped).calls = probeText m c := by
  have hlooks : workerComplaints m c [.find c.target, (m.host c).locating c.target] = probeText m c := by
    unfold workerComplaints Host.locating Machine.host probeText
    cases h : (m.linker.find? c.target).isSome with
    | true => simpa [h] using Lister.textOf_encode ""
    | false => simp [h]
  -- A load asks no worker.
  rcases (m.host c).reconcile_calls c.target c.versionFamily shipped with hcalls | hcalls
  · rw [hcalls, hlooks]
  · rw [hcalls, ← hlooks]
    simp [workerComplaints]

/-- A check is answered under its configuration, if there is one. -/
theorem Request.answer_check (m : Machine) (shipped : Path) (config : Option Path) :
    (Request.check shipped config).answer m =
      match settings m config with
      | .ok c => checkReply m c shipped
      | .error e => pure (.ofAnswer (.error e)) := by
  cases config <;> rfl

/-- The reply to a request is what comes of it, and what a worker wrote. -/
theorem Request.answer_value (m : Machine) (r : Request) :
    (r.answer m).value =
      match r.result m with
      | .ok text => ⟨0, text, r.workerText m⟩
      | .error e => ⟨1, "", programName ++ ": error: " ++ e.message ++ "\n"⟩ := by
  cases r with
  | probe library => cases h : m.linker.locate library <;> simp [answer, result, workerText, h, Except.map, Reply.ofAnswer]
  | version file family isPacked =>
    cases h : (m.files.newestVersion file family).value <;>
      simp [answer, result, workerText, h, Except.map, Reply.ofAnswer]
  | dependencies file target lister maxDepth => rfl
  | locate executable target =>
    cases h : locateLine m.files executable target <;> simp [answer, result, workerText, h, Reply.ofAnswer]
  | select candidate shipped origin target family =>
    cases h : (selectLine m.files candidate shipped origin target family).value <;>
      simp [answer, result, workerText, h, Reply.ofAnswer]
  | check shipped config =>
    cases h : settings m config with
    | error e => simp [answer_check, h, result, Except.map, Reply.ofAnswer]
    | ok c => simp [answer_check, h, result, workerText, Except.map, checkReply, workerComplaints_reconcile]

/-- What fails comes to its error. -/
theorem Request.FailsWith.result {e : GuardError} (h : r.FailsWith m e) : r.result m = .error e := by
  cases h with
  | probe h => simp [Request.result, h, Except.map]
  | version h => simp [Request.result, h, Except.map]
  | search h => simp [Request.result, locateLine, h, bind, Except.bind]
  | notFound h => simp [Request.result, locateLine, h, bind, Except.bind]
  | select h => simp [Request.result, selectLine, h]
  | check h => simp [Request.result, h, Except.map]

/-- The line of a verdict is printed for it. -/
theorem Request.prints_verdict {candidate shipped : Path} {origin : SearchOrigin} {target family : String} {s : ShippedLibrary}
    (hopen : (ShippedLibrary.openAt m.files (shippedLibrary m.files shipped target) family).value = .ok s) :
    (Request.select candidate shipped origin target family).Prints m
      (verdictLine candidate (s.select m.files candidate origin target family).value.1) := by
  cases hverdict : (s.select m.files candidate origin target family).value.1 with
  | accept => exact .accept hopen hverdict
  | reject => exact .reject hopen hverdict
  | redirect path => exact .redirect hopen hverdict

/-- The lines are those of the edges, and then one that tells whether the file leads to the target. -/
theorem dependencyLines_value (w : Dependency.Walker) (files : Files) (file : Path) :
    (dependencyLines w files file).value =
      String.join ((edgesOf w file).value.map edgeLine) ++ w.target ++ ": " ++
        (if (w.dependsOnTarget files file).value then "true" else "false") ++ "\n" := by
  have hword : ∀ leads : Bool, toString leads = if leads then "true" else "false" := by decide
  rw [← hword]
  rfl

/-- The lines of the edges of a file, and of whether it leads to the target, are printed. -/
theorem Request.prints_dependencies (m : Machine) (file : Path) (target : String) (lister : Path) (maxDepth : Nat) :
    (Request.dependencies file target lister maxDepth).Prints m
      (dependencyLines (m.walker lister target maxDepth) m.files file).value := by
  let w := m.walker lister target maxDepth
  have hedges : w.HasEdges file (edgesOf w file).value := by
    unfold Dependency.Walker.HasEdges edgesOf Dependency.Walker.edges
    cases hlister : w.lister file with
    | ok report => exact Or.inl ⟨report, rfl, rfl⟩
    | error e => exact Or.inr ⟨⟨e, rfl⟩, rfl⟩
  let words := (edgesOf w file).value.map fun e => e.name ++ " => " ++ e.resolved.elim "(unresolved)" (·.text)
  have hwords : (edgesOf w file).value.map edgeLine = words.map (· ++ "\n") := by
    rw [List.map_map]
    rfl
  rw [dependencyLines_value, hwords]
  refine .dependencies hedges (forall₂_tellsEdge_iff.2 hwords) rfl fun hpresent hnamed htarget hdepth => ?_
  have hself : (⟨w.target⟩ : Path).isNamed w.target = true := (Path.isNamed_self_iff target).2 htarget
  have hother : ¬ file.isNamed w.target = true := Bool.eq_false_iff.1 hnamed
  have hreports : w.LeadsToTarget m.files file maxDepth ↔ w.ReportsTarget file := by
    simp [Dependency.Walker.LeadsToTarget, hother, hself, hdepth, hpresent]
  exact ((Dependency.Walker.walk_value_iff w m.files maxDepth file).trans hreports).trans
    (Dependency.Walker.reportsTarget_of_hasEdges hedges)

/-- A request fails, or something is printed for it. -/
theorem Request.result_cases (m : Machine) (r : Request) :
    (∃ e, r.FailsWith m e ∧ r.result m = .error e) ∨ (∃ text, r.Prints m text ∧ r.result m = .ok text) := by
  -- What fails comes to its error, so it is enough to tell the failure.
  suffices h : (∃ e, r.FailsWith m e) ∨ (∃ text, r.Prints m text ∧ r.result m = .ok text) from
    h.imp_left fun ⟨e, he⟩ => ⟨e, he, he.result⟩
  cases r with
  | probe library =>
    cases h : m.linker.locate library with
    | error e => exact Or.inl ⟨e, .probe h⟩
    | ok path => exact Or.inr ⟨_, .place h, by simp [result, h, Except.map]⟩
  | version file family isPacked =>
    cases h : (m.files.newestVersion file family).value with
    | error e => exact Or.inl ⟨e, .version h⟩
    | ok v =>
      cases isPacked with
      | false => exact Or.inr ⟨_, .version h v.parse_text (Version.tellsInFull_iff.2 rfl), by simp [result, h, Except.map]⟩
      | true =>
        obtain ⟨digits, htext, hlength, hdigits, hvalue⟩ := v.packedHex_eq_digits
        exact Or.inr ⟨_, .packed h hlength hdigits hvalue, by simp [result, h, Except.map, htext]⟩
  | dependencies file target lister maxDepth => exact Or.inr ⟨_, prints_dependencies m file target lister maxDepth, rfl⟩
  | locate executable target =>
    cases h : shippedFor m.files executable target with
    | error e => exact Or.inl ⟨e, .search h⟩
    | ok found =>
      cases found with
      | none => exact Or.inl ⟨_, .notFound h⟩
      | some path => exact Or.inr ⟨_, .found h, by simp [result, locateLine, h, bind, Except.bind, pure, Except.pure]⟩
  | select candidate shipped origin target family =>
    cases h : (ShippedLibrary.openAt m.files (shippedLibrary m.files shipped target) family).value with
    | error e => exact Or.inl ⟨e, .select h⟩
    | ok s => exact Or.inr ⟨_, prints_verdict h, by simp [result, selectLine, h]⟩
  | check shipped config =>
    cases h : settings m config with
    | error e => exact Or.inl ⟨e, .check h⟩
    | ok c => exact Or.inr ⟨_, .outcome h (tellsOutcome_iff.2 rfl), by simp [result, h, Except.map]⟩

/-! ## The reply -/

/-- What the program replies to arguments that are a request. It ends with 0 or 1, and with 1 exactly if the request fails; then
nothing is printed, and the other stream has the error's message. Otherwise the answer is printed, and the other stream has what a
worker wrote, and nothing else. A request for dependencies never fails. -/
theorem reply_fails_or_prints {arguments : List String} (h : Request.read arguments = .ok r) :
    let answer := (reply m arguments).value
    (answer.code = 0 ∨ answer.code = 1) ∧
      (answer.code = 1 ↔ ∃ e, r.FailsWith m e) ∧
      (∀ e, r.FailsWith m e → answer = ⟨1, "", "cxxguard: error: " ++ e.message ++ "\n"⟩) ∧
      (answer.code = 0 → r.Prints m answer.output ∧ answer.complaint = r.workerText m) ∧
      (∀ file target lister maxDepth, r = .dependencies file target lister maxDepth → answer.code = 0) := by
  intro answer
  have hanswer : answer = (r.answer m).value := by simp only [answer, reply, h]
  rw [r.answer_value m] at hanswer
  rcases r.result_cases m with ⟨e, hfails, hresult⟩ | ⟨text, hprints, hresult⟩
  · have hsame : ∀ e', r.FailsWith m e' → e' = e := fun e' he' => Except.error.inj (he'.result.symm.trans hresult)
    rw [hresult] at hanswer
    rw [hanswer]
    refine ⟨Or.inr rfl, ⟨fun _ => ⟨e, hfails⟩, fun _ => rfl⟩, fun e' he' => ?_, fun hzero => ?_, ?_⟩
    · rw [hsame e' he']
      rfl
    · cases hzero
    · rintro file target lister maxDepth rfl
      cases hfails
  · have hnone : ∀ e, ¬ r.FailsWith m e := by
      intro e he
      cases he.result.symm.trans hresult
    rw [hresult] at hanswer
    rw [hanswer]
    refine ⟨Or.inl rfl, ⟨fun hone => ?_, ?_⟩, fun e he => absurd he (hnone e), fun _ => ⟨hprints, rfl⟩, fun _ _ _ _ _ => rfl⟩
    · cases hone
    · rintro ⟨e, he⟩
      exact absurd he (hnone e)

/-! ## Requests to one machine -/

/-- A reply that is either a failure or an answer is the answer, if the request does not fail and has one answer only. -/
theorem reply_of_prints {answer : Reply} {text : String} (hcodes : answer.code = 0 ∨ answer.code = 1)
    (hfails : answer.code = 1 ↔ ∃ e, r.FailsWith m e)
    (hanswer : answer.code = 0 → r.Prints m answer.output ∧ answer.complaint = r.workerText m)
    (hok : ∀ e, ¬ r.FailsWith m e) (htext : ∀ output, r.Prints m output → output = text) :
    answer = ⟨0, text, r.workerText m⟩ := by
  have hzero : answer.code = 0 := by
    refine hcodes.resolve_right fun hone => ?_
    obtain ⟨e, he⟩ := hfails.1 hone
    exact hok e he
  obtain ⟨hprints, hcomplaint⟩ := hanswer hzero
  obtain ⟨code, output, complaint⟩ := answer
  obtain rfl : code = 0 := hzero
  obtain rfl : complaint = r.workerText m := hcomplaint
  rw [← htext output hprints]

/-- A check finds the newest copy up to date, if this is where the worker says that the library is. -/
theorem upToDate_newestCopy {c : Config} (hunmapped : m.linker.find? "libstdc++.so.6" = none) (hlimit : 0 < c.probeTimeout)
    (hstart : m.start ((Probe.ofConfig c).invocation m.environment "libstdc++.so.6") =
      .ok (Probe.promptRun ⟨0, "new/libstdc++.so.6\n", ""⟩))
    (hsystem : (m.host c).HasVersion "GLIBCXX_" ⟨"new/libstdc++.so.6"⟩ ⟨3, 4, 30⟩)
    (hshipped : (m.host c).HasVersion "GLIBCXX_" ⟨"app/libstdc++.so.6"⟩ ⟨3, 4, 26⟩) :
    ((m.host c).reconcile "libstdc++.so.6" "GLIBCXX_" ⟨"app/libstdc++.so.6"⟩).value = .upToDate ⟨3, 4, 30⟩ ⟨3, 4, 26⟩ := by
  have hprints : "new/libstdc++.so.6\n" = (⟨"new/libstdc++.so.6"⟩ : Path).text ++ "\n" := by decide
  rw [hprints] at hstart
  have hprobe : (m.host c).probe "libstdc++.so.6" = .ok ⟨"new/libstdc++.so.6"⟩ :=
    Probe.systemPath_of_prompt hstart hlimit (by decide) (by decide) (by decide) (by decide)
  have hfree : (m.host c).isMapped "libstdc++.so.6" = false := by simp [Machine.host, hunmapped]
  obtain ⟨-, hleave, -⟩ := Host.reconcile_of_probed hfree hprobe hsystem hshipped
  exact (hleave (by decide)).1

/-- A machine with three copies of the library, on which every program comes to its answer at once: the one that lists
dependencies, and any worker. -/
def answering : Machine where
  files := ShippedLibrary.threeCopies
  start i := .ok (Probe.promptRun ⟨0, if i.program.text = "ldd" then report else "new/libstdc++.so.6\n", ""⟩)
  linker := ⟨ShippedLibrary.threeCopies, [], ⟨"/lib"⟩, [], []⟩
  environment := []
where
  report : String := "\tlibm.so.6 => /lib/libm.so.6 (0x00007f00)\n\tlibext.so.1 => not found\n"

/-- What the middle copy needs: a library that is found, and one that is not. -/
def middleEdges : List Dependency.Edge :=
  [⟨⟨"mid/libstdc++.so.6"⟩, "libm.so.6", some ⟨"/lib/libm.so.6"⟩⟩, ⟨⟨"mid/libstdc++.so.6"⟩, "libext.so.1", none⟩]

theorem edges_answering {edges : List Dependency.Edge}
    (h : (answering.walker ⟨"ldd"⟩ "libm.so.6" 4).HasEdges ⟨"mid/libstdc++.so.6"⟩ edges) : edges = middleEdges := by
  have hstart : answering.start ⟨⟨"ldd"⟩, ["mid/libstdc++.so.6"], []⟩ = .ok (Probe.promptRun ⟨0, answering.report, ""⟩) := by
    simp [answering]
  have hlister : (answering.walker ⟨"ldd"⟩ "libm.so.6" 4).lister ⟨"mid/libstdc++.so.6"⟩ = .ok answering.report :=
    Lister.list_of_prompt hstart
  rcases h with ⟨report, hreport, rfl⟩ | ⟨⟨e, herror⟩, -⟩
  · obtain rfl := Except.ok.inj (hlister.symm.trans hreport)
    decide +kernel
  · nomatch hlister.symm.trans herror

theorem prints_dependencies_answering {output : String}
    (h : (Request.dependencies ⟨"mid/libstdc++.so.6"⟩ "libm.so.6" ⟨"ldd"⟩ 4).Prints answering output) :
    output = "libm.so.6 => /lib/libm.so.6\nlibext.so.1 => (unresolved)\nlibm.so.6: true\n" := by
  cases h with
  | dependencies hedges hwords _ hleads =>
    obtain rfl := edges_answering hedges
    have hneeds : ∃ e ∈ middleEdges, e.name = "libm.so.6" ∨ ∃ place, e.resolved = some place ∧ place.isNamed "libm.so.6" = true :=
      ⟨_, List.mem_cons_self, Or.inl rfl⟩
    have hproper : Path.IsFileName "libm.so.6" := (Path.isNamed_self_iff _).1 (by decide)
    obtain rfl := (hleads (by decide) (by decide) hproper (by decide)).2 hneeds
    rw [← forall₂_tellsEdge_iff.1 hwords]
    decide +kernel

theorem newestVersion_answering :
    (answering.files.newestVersion ⟨"app/libstdc++.so.6"⟩ "GLIBCXX_").value = .ok ⟨3, 4, 26⟩ :=
  Files.newestVersion_of_encode rfl (by decide) (by decide) (by decide)

theorem not_failsWith_version_answering (e : GuardError) :
    ¬ (Request.version ⟨"app/libstdc++.so.6"⟩ "GLIBCXX_" false).FailsWith answering e := by
  rintro (- | herror)
  nomatch newestVersion_answering.symm.trans herror

theorem prints_version_answering {output : String}
    (h : (Request.version ⟨"app/libstdc++.so.6"⟩ "GLIBCXX_" false).Prints answering output) : output = "3.4.26\n" := by
  cases h with
  | version hversion _ hfull =>
    obtain rfl := Except.ok.inj (newestVersion_answering.symm.trans hversion)
    rw [← Version.tellsInFull_iff.1 hfull]
    decide

theorem settings_answering : settings answering none = .ok {} := rfl

theorem not_failsWith_check_answering (e : GuardError) : ¬ (Request.check ⟨"app"⟩ none).FailsWith answering e := by
  rintro (- | - | - | - | - | herror)
  nomatch settings_answering.symm.trans herror

theorem prints_check_answering {output : String} (h : (Request.check ⟨"app"⟩ none).Prints answering output) :
    output = "up to date (system 3.4.30, shipped 3.4.26)\n" := by
  cases h with
  | outcome hsettings hwords =>
    obtain rfl := Except.ok.inj (settings_answering.symm.trans hsettings)
    have hshipped : shippedLibrary answering.files ⟨"app"⟩ "libstdc++.so.6" = ⟨"app/libstdc++.so.6"⟩ := by decide
    have hnew := upToDate_newestCopy (m := answering) (c := {}) rfl (by decide) (by rfl)
      ⟨rfl, Files.newestVersion_of_encode rfl (by decide) (by decide) (by decide)⟩ ⟨rfl, newestVersion_answering⟩
    rw [hshipped, hnew] at hwords
    rw [← tellsOutcome_iff.1 hwords]
    decide

theorem workerText_check_answering : (Request.check ⟨"app"⟩ none).workerText answering = "" := by
  simp only [Request.workerText, settings_answering]
  exact Lister.textOf_encode ""

theorem reply_answering :
    (reply answering ["version", "app/libstdc++.so.6"]).value = ⟨0, "3.4.26\n", ""⟩ ∧
      (reply answering ["version", "app"]).value =
        ⟨1, "", "cxxguard: error: failed to read app: No such file or directory (os error 2)\n"⟩ ∧
      (reply answering ["deps", "mid/libstdc++.so.6", "--target", "libm.so.6"]).value =
        ⟨0, "libm.so.6 => /lib/libm.so.6\nlibext.so.1 => (unresolved)\nlibm.so.6: true\n", ""⟩ ∧
      (reply answering ["check", "app"]).value = ⟨0, "up to date (system 3.4.30, shipped 3.4.26)\n", ""⟩ := by
  have hversion : Request.read ["version", "app/libstdc++.so.6"] = .ok (.version ⟨"app/libstdc++.so.6"⟩ "GLIBCXX_" false) := by
    decide +kernel
  have hmissing : Request.read ["version", "app"] = .ok (.version ⟨"app"⟩ "GLIBCXX_" false) := by decide +kernel
  have hdependencies : Request.read ["deps", "mid/libstdc++.so.6", "--target", "libm.so.6"] =
      .ok (.dependencies ⟨"mid/libstdc++.so.6"⟩ "libm.so.6" ⟨"ldd"⟩ 4) := by
    decide +kernel
  have hcheck : Request.read ["check", "app"] = .ok (.check ⟨"app"⟩ none) := by decide +kernel
  refine ⟨?_, ?_, ?_, ?_⟩
  · obtain ⟨hcodes, hfails, -, hanswer, -⟩ := reply_fails_or_prints (m := answering) hversion
    exact reply_of_prints hcodes hfails hanswer not_failsWith_version_answering fun _ => prints_version_answering
  · obtain ⟨-, -, herror, -, -⟩ := reply_fails_or_prints (m := answering) hmissing
    exact (herror (.unreadable ⟨"app"⟩ .missing) (.version rfl)).trans (by decide +kernel)
  · obtain ⟨hcodes, hfails, -, hanswer, -⟩ := reply_fails_or_prints (m := answering) hdependencies
    exact reply_of_prints hcodes hfails hanswer (fun _ => nofun) fun _ => prints_dependencies_answering
  · obtain ⟨hcodes, hfails, -, hanswer, -⟩ := reply_fails_or_prints (m := answering) hcheck
    rw [reply_of_prints hcodes hfails hanswer not_failsWith_check_answering fun _ => prints_check_answering,
      workerText_check_answering]

end CommandLine

end LibraryGuard
