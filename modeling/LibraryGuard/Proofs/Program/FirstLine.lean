import LibraryGuard.Proofs.Program.Worker

/-!
# The line that a worker's answer is read from

Of what a worker writes, the first 65536 bytes are read, and of these the first line counts: the bytes up to and including the
first line feed, or all of them if none is a line feed (`IsFirstLine`). The answer is this line without the blanks at its ends,
if the worker ended well and the line is a text that is not blank (`systemPath_iff_firstLine`). What follows the line is never
looked at, whatever bytes it holds.
-/

namespace LibraryGuard

namespace Probe

/-- The first line of an output as far as it is read, with the line feed that ends it. -/
inductive IsFirstLine (output : List UInt8) : List UInt8 → Prop where
  | ended {line rest : List UInt8} (h : output.take 65536 = line ++ 0x0A :: rest) (isFirst : 0x0A ∉ line) :
      IsFirstLine output (line ++ [0x0A])
  | whole (h : 0x0A ∉ output.take 65536) : IsFirstLine output (output.take 65536)

/-- Two outputs agree as far as the first line goes: up to the first line feed, or on all bytes that are read. -/
def AgreeAtStart (output other : List UInt8) : Prop :=
  output.takeWhile (· ≠ 0x0A) = other.takeWhile (· ≠ 0x0A) ∨ output.take 65536 = other.take 65536

variable {output other line : List UInt8}

/-- The bytes before the first line feed, of those that are read, are the first of those before the first line feed of all. -/
theorem firstLine_eq_take (output : List UInt8) : firstLine output = (output.takeWhile (· ≠ lineEnd)).take readLimit := by
  rw [firstLine]
  generalize readLimit = limit
  induction output generalizing limit with
  | nil => simp
  | cons b rest ih =>
    cases limit with
    | zero => simp
    | succ n =>
      by_cases hb : b = lineEnd
      · simp [hb]
      · simpa [List.takeWhile_cons, hb] using ih n

/-- Outputs that agree at the start have the same bytes before the line feed. -/
theorem AgreeAtStart.firstLine_eq (h : AgreeAtStart output other) : firstLine output = firstLine other := by
  obtain h | h := h
  · have hsame : output.takeWhile (· ≠ lineEnd) = other.takeWhile (· ≠ lineEnd) := h
    rw [firstLine_eq_take, firstLine_eq_take, hsame]
  · have hsame : output.take readLimit = other.take readLimit := h
    rw [firstLine, firstLine, hsame]

/-- What stands before the first line feed that is read. -/
theorem firstLine_of_ended {rest : List UInt8} (h : output.take readLimit = line ++ lineEnd :: rest) (hline : lineEnd ∉ line) :
    firstLine output = line := by
  have hkept : ∀ b ∈ line, decide (b ≠ lineEnd) = true := fun b hb => decide_eq_true fun heq => hline (heq ▸ hb)
  rw [firstLine, h, List.takeWhile_append_of_pos hkept, List.takeWhile_cons_of_neg (by decide), List.append_nil]

/-- All that is read stands before the first line feed if there is none. -/
theorem firstLine_of_whole (h : lineEnd ∉ output.take readLimit) : firstLine output = output.take readLimit :=
  List.takeWhile_eq_self_iff.2 fun _ hb => decide_eq_true fun heq => h (heq ▸ hb)

/-- The first line is what stands before its line feed, and the line feed if there is one. -/
theorem isFirstLine_iff :
    IsFirstLine output line ↔
      lineEnd ∈ output.take readLimit ∧ line = firstLine output ++ [lineEnd] ∨
        lineEnd ∉ output.take readLimit ∧ line = firstLine output := by
  constructor
  · intro h
    cases h with
    | ended h hfirst =>
      have hread : output.take readLimit = _ := h
      refine .inl ⟨?_, ?_⟩
      · rw [hread]
        exact List.mem_append_right _ List.mem_cons_self
      · rw [firstLine_of_ended h hfirst]
        rfl
    | whole h => exact .inr ⟨h, (firstLine_of_whole h).symm⟩
  · rintro (⟨hmem, rfl⟩ | ⟨hnot, rfl⟩)
    · obtain ⟨body, rest, hread, hbody⟩ := List.eq_append_cons_of_mem hmem
      rw [firstLine_of_ended hread hbody]
      exact .ended hread hbody
    · rw [firstLine_of_whole hnot]
      exact .whole hnot

/-- There is an answer if the worker ended well and the first line is a text that is not blank: the text without the blanks at
its ends. -/
theorem answerOf_iff_firstLine {program : Path} {ending : Ending} {path : Path} :
    answerOf program ending output = .ok path ↔
      ending = .exited 0 ∧
        ∃ s, IsFirstLine output (Text.Utf8.encode s) ∧ Text.trim s ≠ [] ∧ path = Path.ofChars (Text.trim s) := by
  have hsuccess : ending.isSuccess = true ↔ ending = .exited 0 := decide_eq_true_iff
  rw [answerOf_eq_ok_iff, hsuccess]
  simp only [@eq_comm _ path, Path.ofChars_eq_iff]
  -- The line feed at the end of the line is a character of its own, and one that is trimmed off.
  have hfeed : ∀ s : List Char, Text.trim (s ++ ['\n']) = Text.trim s :=
    Text.trim_append (List.forall_mem_singleton.2 (by decide))
  have hencode : ∀ s : List Char, Text.Utf8.encode (s ++ ['\n']) = Text.Utf8.encode s ++ [lineEnd] := by
    intro s
    rw [Text.Utf8.encode_append]
    rfl
  constructor
  · rintro ⟨hends, hne, s, hline, htrim⟩
    by_cases hmem : lineEnd ∈ output.take readLimit
    · have hsame := (hfeed s).trans htrim
      exact ⟨hends, s ++ ['\n'], isFirstLine_iff.2 (.inl ⟨hmem, by rw [hencode, hline]⟩), hsame ▸ hne, hsame⟩
    · exact ⟨hends, s, isFirstLine_iff.2 (.inr ⟨hmem, hline.symm⟩), htrim ▸ hne, htrim⟩
  · rintro ⟨hends, s, hline, hne, htrim⟩
    obtain ⟨-, hline⟩ | ⟨-, hline⟩ := isFirstLine_iff.1 hline
    · have hascii : '\n'.toNat < 0x80 := by decide
      obtain ⟨s, rfl, hbody⟩ := Text.Utf8.exists_of_encode_eq_append hascii hline
      exact ⟨hends, htrim ▸ hne, s, hbody, (hfeed s).symm.trans htrim⟩
    · exact ⟨hends, htrim ▸ hne, s, hline.symm, htrim⟩

/-- An answer has no line feed in it, is not empty, and is not longer than what is read. -/
theorem answerOf_bounds {program : Path} {ending : Ending} {path : Path} (h : answerOf program ending output = .ok path) :
    '\n' ∉ path.chars ∧ path.chars ≠ [] ∧ path.text.utf8ByteSize ≤ 65536 := by
  obtain ⟨-, hne, line, hline, htrim⟩ := answerOf_eq_ok_iff.1 h
  have hpiece : path.chars <:+: line := htrim ▸ Text.trim_infix line
  refine ⟨fun hmem => ?_, hne, ?_⟩
  · refine lineEnd_not_mem_firstLine output ?_
    rw [hline, lineEnd_mem_encode_iff]
    exact hpiece.subset hmem
  · calc path.text.utf8ByteSize
        = (Text.Utf8.encode path.chars).length := (Text.Utf8.length_encode path.text).symm
      _ ≤ (Text.Utf8.encode line).length := Text.Utf8.length_encode_le hpiece
      _ ≤ readLimit := hline ▸ length_firstLine_le output

variable {p : Probe} {start start' : Starter} {env : Environment} {library : String} {run run' : ProgramRun} {ending : Ending}

/-- The answer of a worker that is over in time is looked for in its output. -/
theorem systemPath_of_isOver (hstart : start (p.invocation env library) = .ok run)
    (hover : run.IsOver ending output p.timeout) :
    p.systemPath start env library = (answerOf p.program ending output).mapError fun f => .probe f.message := by
  simp only [systemPath, hstart, judge_of_isOver hover]

/-- A worker that is over in time has given an answer exactly if it ended well and its first line is a text that is not blank,
and then the answer is that text without the blanks at its ends. Otherwise asking it fails. The answer is one line of bounded
length, and what the worker has written behind its first line, or behind what is read, does not matter to it. -/
theorem systemPath_iff_firstLine (hstart : start (p.invocation env library) = .ok run)
    (hover : run.IsOver ending output p.timeout) :
    (∀ path, p.systemPath start env library = .ok path ↔
        ending = .exited 0 ∧
          ∃ s, IsFirstLine output (Text.Utf8.encode s) ∧ Text.trim s ≠ [] ∧ path = Path.ofChars (Text.trim s)) ∧
      ((∃ path, p.systemPath start env library = .ok path) ∨
        ∃ message, p.systemPath start env library = .error (.probe message)) ∧
      (∀ path, p.systemPath start env library = .ok path →
        '\n' ∉ path.chars ∧ path.chars ≠ [] ∧ path.text.utf8ByteSize ≤ 65536) ∧
      ∀ start' run' other, start' (p.invocation env library) = .ok run' → run'.IsOver ending other p.timeout →
        AgreeAtStart output other → p.systemPath start' env library = p.systemPath start env library := by
  have hanswer := systemPath_of_isOver hstart hover
  have hok : ∀ path, p.systemPath start env library = .ok path ↔ answerOf p.program ending output = .ok path := by
    intro path
    rw [hanswer]
    cases answerOf p.program ending output <;> simp [Except.mapError]
  refine ⟨fun path => (hok path).trans answerOf_iff_firstLine, ?_, fun path hpath => answerOf_bounds ((hok path).1 hpath), ?_⟩
  · rw [hanswer]
    cases answerOf p.program ending output with
    | ok path => exact .inl ⟨path, rfl⟩
    | error fault => exact .inr ⟨fault.message, rfl⟩
  · intro start' run' other hstart' hover' hagree
    rw [systemPath_of_isOver hstart' hover', hanswer, answerOf, answerOf, hagree.firstLine_eq]

/-- What a worker writes that goes on behind its first line with a byte that is no text. -/
def loudOutput : List UInt8 := Text.Utf8.encode " /opt/bibliothèque/libm.so.6\u3000\r\n".toList ++ [0xFF]

/-- A run that writes this in two pieces, between the two bytes of a letter. -/
def loudRun : ProgramRun where
  ending := some (40, .exited 0)
  out := ⟨[⟨5, loudOutput.take 15⟩, ⟨9, loudOutput.drop 15⟩], some 40⟩
  err := {}

theorem systemPath_iff_firstLine_loudRun :
    (ofConfig {}).systemPath (fun _ => .ok loudRun) [] "libm.so.6" = .ok ⟨"/opt/bibliothèque/libm.so.6"⟩ := by
  have hwrites : loudRun.out.content = loudOutput := by
    simp [loudRun, Stream.content]
  have hover : loudRun.IsOver (.exited 0) loudOutput (ofConfig {}).timeout :=
    ⟨⟨40, by decide, rfl⟩, hwrites, by simp [loudRun, ofConfig], ⟨40, by decide, rfl⟩⟩
  have hline : IsFirstLine loudOutput (Text.Utf8.encode " /opt/bibliothèque/libm.so.6\u3000\r\n".toList) :=
    isFirstLine_iff.2 (.inl ⟨by decide +kernel, by decide +kernel⟩)
  exact ((systemPath_iff_firstLine rfl hover).1 _).2 ⟨rfl, _, hline, by decide +kernel, by decide +kernel⟩

end Probe

end LibraryGuard
