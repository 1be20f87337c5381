import LibraryGuard.CommandLine.Reply
import LibraryGuard.Proofs.Text.Blank
import LibraryGuard.Proofs.Text.Utf8
import Mathlib.Data.List.TakeWhile

/-!
# What a worker is asked, and what is made of its answer

A worker that is asked for a library prints the path at which the linker has mapped it, and a line feed. Of what it prints,
the first line counts, as far as it is read and without the blanks at its ends. So the path that comes back is the one that was
printed exactly when it has no line feed in it, does not end in a blank and is not longer than what is read
(`systemPath_eq_ok_iff`). A path that ends in a blank comes back without it (`systemPath_blank`).
-/

namespace LibraryGuard

open CommandLine

/-- A path that is made of characters has those characters. -/
theorem Path.ofChars_eq_iff {s : List Char} {path : Path} : Path.ofChars s = path ↔ s = path.chars := by
  constructor
  · rintro rfl
    exact String.toList_ofList.symm
  · rintro rfl
    rw [ofChars, chars, String.ofList_toList]

/-- A run of a program comes to a reply within a time limit: it ends with the reply's code, has written the reply's output, and
nobody holds the output open. -/
structure ProgramRun.ComesTo (run : ProgramRun) (r : Reply) (limit : Nat) : Prop where
  ends : ∃ time < limit, run.ending = some (time, .exited r.code)
  writes : run.out.content = Text.Utf8.encode r.output.toList
  early : ∀ c ∈ run.out.chunks, c.time < limit
  closes : ∃ time < limit, run.out.closed = some time

/-- A run of a program is over within a time limit: it has ended as told and written the output, and nobody holds the output
open. -/
structure ProgramRun.IsOver (run : ProgramRun) (ending : Ending) (output : List UInt8) (limit : Nat) : Prop where
  ends : ∃ time < limit, run.ending = some (time, ending)
  writes : run.out.content = output
  early : ∀ c ∈ run.out.chunks, c.time < limit
  closes : ∃ time < limit, run.out.closed = some time

/-- The program that a probe starts is the command line on some machine. It understands that it is asked for the library, and
comes to its reply in time. -/
structure Probe.ServedBy (p : Probe) (start : Starter) (env : Environment) (library : String) (m : Machine) : Prop where
  asks : Request.read (p.invocation env library).arguments = .ok (.probe library)
  comes : ∃ run, start (p.invocation env library) = .ok run ∧
    run.ComesTo (reply m (p.invocation env library).arguments).value p.timeout

/-! ## What the worker prints -/

/-- Only an absolute path is told as the place of a library. -/
theorem Linker.isAbsolute_of_locate {l : Linker} {name : String} {path : Path} (h : l.locate name = .ok path) :
    path.isAbsolute = true := by
  simp only [locate, bind, Except.bind, pure, Except.pure] at h
  split at h
  next => nomatch h
  split at h
  next => nomatch h
  split at h
  next habsolute =>
    obtain rfl := Except.ok.inj h
    exact habsolute
  next => nomatch h

/-- A worker that is asked for a library prints its path as a line. -/
theorem CommandLine.answer_probe {m : Machine} {library : String} {path : Path} (h : m.linker.locate library = .ok path) :
    ((Request.probe library).answer m).value = ⟨0, path.text ++ "\n", ""⟩ := by
  simp [Request.answer, h, Reply.ofAnswer, Except.map]

namespace Probe

/-! ## What is made of it -/

/-- The first line has no line feed in it. -/
theorem lineEnd_not_mem_firstLine (output : List UInt8) : lineEnd ∉ firstLine output := by
  intro h
  simpa using List.mem_takeWhile_imp h

/-- The first line is not longer than what is read. -/
theorem length_firstLine_le (output : List UInt8) : (firstLine output).length ≤ readLimit :=
  calc (firstLine output).length
      ≤ (output.take readLimit).length := (List.takeWhile_prefix _).length_le
    _ ≤ readLimit := List.length_take_le readLimit output

/-- A line that is not longer than what is read is the first one, with what follows its end. -/
theorem firstLine_append {line : List UInt8} (h : lineEnd ∉ line) (hle : line.length ≤ readLimit) (rest : List UInt8) :
    firstLine (line ++ lineEnd :: rest) = line := by
  have hline : ∀ b ∈ line, decide (b ≠ lineEnd) = true := fun b hb => decide_eq_true fun heq => h (heq ▸ hb)
  rw [firstLine, List.take_append, List.take_of_length_le hle, List.takeWhile_append_of_pos hline]
  cases readLimit - line.length with
  | zero => simp
  | succ n => simp

/-- There is an answer if the worker ended well and its first line is a text that is not blank: the text without the blanks at
its ends. -/
theorem answerOf_eq_ok_iff {program : Path} {ending : Ending} {output : List UInt8} {path : Path} :
    answerOf program ending output = .ok path ↔
      ending.isSuccess = true ∧ path.chars ≠ [] ∧
        ∃ line, firstLine output = Text.Utf8.encode line ∧ Text.trim line = path.chars := by
  unfold answerOf
  cases hs : ending.isSuccess with
  | false => simp
  | true =>
    cases hd : Text.Utf8.decode (firstLine output) with
    | none =>
      have hnone : ∀ line, firstLine output ≠ Text.Utf8.encode line := by
        intro line heq
        rw [heq, Text.Utf8.decode_encode] at hd
        nomatch hd
      simp [hnone]
    | some line =>
      have hline : ∀ line', firstLine output = Text.Utf8.encode line' ↔ line = line' := by
        intro line'
        rw [← Text.Utf8.decode_eq_some_iff, hd, Option.some.injEq]
      cases ht : Text.trim line with
      | nil => simp [hline, ht]
      | cons c r =>
        have hsome : c :: r = path.chars → path.chars ≠ [] := fun heq => heq ▸ List.cons_ne_nil c r
        simpa [hline, ht, Path.ofChars_eq_iff] using hsome

/-- The first line is known early if everything is written early and the stream closes early. -/
theorem knownAt?_early {closed : Option Nat} {limit : Nat} (hcloses : ∃ time < limit, closed = some time) (before : Nat)
    {chunks : List Chunk} (hearly : ∀ c ∈ chunks, c.time < limit) :
    ∃ time < limit, knownAt? closed before chunks = some time := by
  induction chunks generalizing before with
  | nil => exact hcloses
  | cons c rest ih =>
    obtain ⟨hc, hrest⟩ := List.forall_mem_cons.1 hearly
    rw [knownAt?]
    split
    · exact ⟨c.time, hc, rfl⟩
    · exact ih _ hrest

/-- A run that is over in time is judged by its ending and its output. -/
theorem judge_of_isOver {p : Probe} {run : ProgramRun} {ending : Ending} {output : List UInt8}
    (h : run.IsOver ending output p.timeout) : p.judge run = answerOf p.program ending output := by
  obtain ⟨time, htime, hending⟩ := h.ends
  obtain ⟨known, hknown, heq⟩ := knownAt?_early h.closes 0 h.early
  simp [judge, hending, heq, hknown, Nat.not_le.2 htime, h.writes]

/-- A run that comes to a reply in time is judged by the reply's code and output. -/
theorem judge_of_comesTo {p : Probe} {run : ProgramRun} {r : Reply} (h : run.ComesTo r p.timeout) :
    p.judge run = answerOf p.program (.exited r.code) (Text.Utf8.encode r.output.toList) :=
  judge_of_isOver ⟨h.ends, h.writes, h.early, h.closes⟩

/-- The line feed is the byte of one character. -/
theorem lineEnd_mem_encode_iff (s : List Char) : lineEnd ∈ Text.Utf8.encode s ↔ '\n' ∈ s := by
  have hascii : '\n'.toNat < 0x80 := by decide
  exact Text.Utf8.ascii_mem_encode_iff hascii s

/-- The bytes of a path that is printed as a line are those of the path, and the line feed. -/
theorem encode_line (path : Path) : Text.Utf8.encode (path.text ++ "\n").toList = Text.Utf8.encode path.chars ++ [lineEnd] := by
  rw [String.toList_append, Text.Utf8.encode_append]
  rfl

variable {p : Probe} {start : Starter} {env : Environment} {library : String} {m : Machine} {path answer : Path}

/-- The answer of a worker that has found a path is the one in the path's line. -/
theorem systemPath_of_served (h : p.ServedBy start env library m) (hlocate : m.linker.locate library = .ok path) :
    p.systemPath start env library = .ok answer ↔
      answerOf p.program (.exited 0) (Text.Utf8.encode path.chars ++ [lineEnd]) = .ok answer := by
  obtain ⟨run, hstart, hrun⟩ := h.comes
  have hprints : (reply m (p.invocation env library).arguments).value = ⟨0, path.text ++ "\n", ""⟩ := by
    simp only [reply, h.asks]
    exact CommandLine.answer_probe hlocate
  rw [hprints] at hrun
  simp only [systemPath, hstart, judge_of_comesTo hrun, encode_line]
  cases answerOf p.program (.exited 0) (Text.Utf8.encode path.chars ++ [lineEnd]) <;> simp [Except.mapError]

/-- The path that the worker has found comes back to whoever asked for it exactly when there is no line feed in it, it does not
end in a blank, and it is not longer than what is read. -/
theorem systemPath_eq_ok_iff (h : p.ServedBy start env library m) (hlocate : m.linker.locate library = .ok path) :
    p.systemPath start env library = .ok path ↔
      '\n' ∉ path.chars ∧ (∀ c ∈ path.chars.getLast?, Text.isBlank c = false) ∧ path.text.utf8ByteSize ≤ readLimit := by
  rw [systemPath_of_served h hlocate, answerOf_eq_ok_iff]
  constructor
  -- What came back is a piece of the line that was read, which has no line feed and is short enough.
  · rintro ⟨-, -, line, hfirst, htrim⟩
    have hpiece : path.chars <:+: line := htrim ▸ Text.trim_infix line
    refine ⟨fun hmem => ?_, fun c hc => ?_, ?_⟩
    · have hnot := lineEnd_not_mem_firstLine (Text.Utf8.encode path.chars ++ [lineEnd])
      rw [hfirst, lineEnd_mem_encode_iff] at hnot
      exact hnot (hpiece.subset hmem)
    · rw [← htrim] at hc
      exact Text.not_blank_of_getLast?_trim hc
    · calc path.text.utf8ByteSize
          = (Text.Utf8.encode path.chars).length := (Text.Utf8.length_encode path.text).symm
        _ ≤ (Text.Utf8.encode line).length := Text.Utf8.length_encode_le hpiece
        _ ≤ readLimit := hfirst ▸ length_firstLine_le _
  -- The path is the whole line that was read, and begins with a slash, so that nothing is trimmed off it.
  · rintro ⟨hnot, hlast, hle⟩
    have habsolute : path.chars.head? = some '/' := of_decide_eq_true (Linker.isAbsolute_of_locate hlocate)
    have hhead : ∀ c ∈ path.chars.head?, Text.isBlank c = false := by
      rw [habsolute]
      rintro c ⟨⟩
      decide
    have hne : path.chars ≠ [] := by
      intro hnil
      simp [hnil] at habsolute
    have hshort : (Text.Utf8.encode path.chars).length ≤ readLimit := (Text.Utf8.length_encode path.text).trans_le hle
    have hfirst : firstLine (Text.Utf8.encode path.chars ++ [lineEnd]) = Text.Utf8.encode path.chars :=
      firstLine_append (mt (lineEnd_mem_encode_iff path.chars).1 hnot) hshort []
    exact ⟨rfl, hne, path.chars, hfirst, Text.trim_eq_self hhead hlast⟩

/-! ## A worker that comes to its reply at once -/

/-- The run of a program that comes to its reply at once. -/
def promptRun (r : Reply) : ProgramRun where
  ending := some (0, .exited r.code)
  out := ⟨[⟨0, Text.Utf8.encode r.output.toList⟩], some 0⟩
  err := ⟨[⟨0, Text.Utf8.encode r.complaint.toList⟩], some 0⟩

theorem promptRun_comesTo {limit : Nat} (r : Reply) (h : 0 < limit) : (promptRun r).ComesTo r limit where
  ends := ⟨0, h, rfl⟩
  writes := by simp [promptRun, Stream.content]
  early := List.forall_mem_singleton.2 h
  closes := ⟨0, h, rfl⟩

/-- A worker that prints a path at once, and ends well, is understood if nothing of the path is lost when it is read. -/
theorem systemPath_of_prompt {complaint : String}
    (hstart : start (p.invocation env library) = .ok (promptRun ⟨0, path.text ++ "\n", complaint⟩)) (hlimit : 0 < p.timeout)
    (hne : path.chars ≠ []) (hline : '\n' ∉ path.chars) (htrim : Text.trim path.chars = path.chars)
    (hlength : path.text.utf8ByteSize ≤ readLimit) : p.systemPath start env library = .ok path := by
  have hfirst : firstLine (Text.Utf8.encode path.chars ++ [lineEnd]) = Text.Utf8.encode path.chars :=
    firstLine_append (mt (lineEnd_mem_encode_iff path.chars).1 hline) ((Text.Utf8.length_encode path.text).trans_le hlength) []
  have hanswer : answerOf p.program (.exited 0) (Text.Utf8.encode path.chars ++ [lineEnd]) = .ok path :=
    answerOf_eq_ok_iff.2 ⟨rfl, hne, path.chars, hfirst, htrim⟩
  simp only [systemPath, hstart, judge_of_comesTo (promptRun_comesTo _ hlimit), encode_line, hanswer, Except.mapError]

/-- The worker that is asked for where nothing else is said understands the name of any library that does not look like an
option. -/
theorem read_probe (h : Shape.of library = .plain) : Request.read ["probe", "--library", library] = .ok (.probe library) := by
  have hverb : Shape.of "probe" = .plain := by decide
  have hoption : Shape.of "--library" = .long "library" none := by decide
  have hread : Verb.probe.form.read {} ["--library", library] = .ok ⟨[("library", library)], none⟩ := by
    simp [Form.read, hoption, Verb.form, targetOption, h, Form.addValue, ValueKind.accepts, bind, Except.bind]
  have hname : Verb.ofName? "probe" = some .probe := by decide
  simp [Request.read, hverb, hname, hread, Verb.request?, Form.value?, bind, Except.bind, pure, Except.pure]

/-- Starts the command line on a machine, whatever program is asked for, and has it come to its reply at once. -/
def prompt (m : Machine) : Starter := fun i => .ok (promptRun (reply m i.arguments).value)

/-- A probe whose arguments are those where nothing else is said is served by the command line on any machine. -/
theorem servedBy_prompt (m : Machine) (hlimit : 0 < p.timeout) (hasks : p.arguments = ["probe"])
    (hname : Shape.of library = .plain) : p.ServedBy (prompt m) env library m where
  asks := by
    rw [invocation, hasks]
    exact read_probe hname
  comes := ⟨_, rfl, promptRun_comesTo _ hlimit⟩

/-- A machine without files, on which one library is installed. -/
def oneLibrary (directory : Path) (name : String) : Machine where
  files := noFiles
  start _ := .error .missing
  linker := ⟨noFiles, [], directory, [name], []⟩
  environment := []
where
  noFiles : Files := ⟨fun _ => false, fun _ => false, fun _ => .error .missing⟩

theorem locate_oneLibrary (directory : Path) (name : String) (hne : name ≠ "") (hslash : '/' ∉ name.toList)
    (hnul : '\x00' ∉ name.toList) (habsolute : (directory.join ⟨name⟩).isAbsolute = true) :
    (oneLibrary directory name).linker.locate name = .ok (directory.join ⟨name⟩) := by
  have hmap : (oneLibrary directory name).linker.map name = .ok (.library (directory.join ⟨name⟩)) := by
    simp [oneLibrary, Linker.map, Linker.mapName, Linker.mapIn?, Linker.installedPath, hne, hslash]
  have hload : (oneLibrary directory name).linker.load ⟨name⟩ = .ok (.library (directory.join ⟨name⟩)) := by
    simp [Linker.load, Path.chars, hnul, hmap, Except.mapError]
  simp [Linker.locate, hload, Linker.pathOf, habsolute, bind, Except.bind, pure, Except.pure]

/-- A path with letters beyond ASCII and a blank in it comes back. -/
theorem systemPath_eq_ok_iff_accented :
    (ofConfig {}).systemPath (prompt (oneLibrary ⟨"/opt/mes bibliothèques"⟩ "libm.so.6")) [] "libm.so.6" =
      .ok ⟨"/opt/mes bibliothèques/libm.so.6"⟩ := by
  let m := oneLibrary ⟨"/opt/mes bibliothèques"⟩ "libm.so.6"
  have hserved : (ofConfig {}).ServedBy (prompt m) [] "libm.so.6" m := servedBy_prompt m (by decide) rfl (by decide)
  have hlocate := locate_oneLibrary ⟨"/opt/mes bibliothèques"⟩ "libm.so.6" (by decide) (by decide) (by decide) (by decide)
  have hplace : (⟨"/opt/mes bibliothèques"⟩ : Path).join ⟨"libm.so.6"⟩ = ⟨"/opt/mes bibliothèques/libm.so.6"⟩ := by decide
  rw [hplace] at hlocate
  have hend : (⟨"/opt/mes bibliothèques/libm.so.6"⟩ : Path).chars.getLast? = some '6' := by decide
  refine (systemPath_eq_ok_iff hserved hlocate).2 ⟨by decide, fun c hc => ?_, by decide⟩
  rw [hend] at hc
  obtain rfl := Option.some.inj hc
  decide

/-- A path that ends in a blank does not come back as it was printed. -/
theorem systemPath_blank :
    ¬ ∀ (p : Probe) (start : Starter) (env : Environment) (library : String) (m : Machine) (path : Path),
      p.ServedBy start env library m → m.linker.locate library = .ok path → p.systemPath start env library = .ok path := by
  intro hclaim
  let m := oneLibrary ⟨"/opt/app"⟩ "libm.so.6 "
  have hserved : (ofConfig {}).ServedBy (prompt m) [] "libm.so.6 " m := servedBy_prompt m (by decide) rfl (by decide)
  have hlocate := locate_oneLibrary ⟨"/opt/app"⟩ "libm.so.6 " (by decide) (by decide) (by decide) (by decide)
  have hok := hclaim _ _ _ _ m _ hserved hlocate
  rw [systemPath_of_served hserved hlocate, answerOf_eq_ok_iff] at hok
  obtain ⟨-, -, line, -, htrim⟩ := hok
  have hlast : (Text.trim line).getLast? = some ' ' := by
    rw [htrim]
    decide
  exact absurd (Text.not_blank_of_getLast?_trim hlast) (by decide)

end Probe

end LibraryGuard
