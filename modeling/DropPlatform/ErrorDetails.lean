import DropPlatform.Collectors

/-! The detail of a failed child: the last line that it wrote to its error output. The two
profilers look for the newline before they take the trailing ones off, `ScriptRunner` looks
for it afterwards. A byte of the output is a character here. -/

namespace DropPlatform.ErrorDetails
open TextLines Collectors
open TaskDispatch (taskDesc)

/-- The last line with something in it, or nothing if there is no such line. -/
inductive LastLine : List Char → List Char → Prop
  | only {line : List Char} (blanks : Nat) (clean : '\n' ∉ line) :
      LastLine (line ++ List.replicate blanks '\n') line
  | behind (before : List Char) {line : List Char} (blanks : Nat) (clean : '\n' ∉ line)
      (filled : line ≠ []) :
      LastLine (before ++ '\n' :: line ++ List.replicate blanks '\n') line

section strip

theorem stripNewlines_newline (front : List Char) :
    stripNewlines (front ++ ['\n']) = stripNewlines front := by
  simp [stripNewlines]

theorem stripNewlines_other (front : List Char) {c : Char} (other : c ≠ '\n') :
    stripNewlines (front ++ [c]) = front ++ [c] := by
  simp [stripNewlines, other]

theorem stripNewlines_blanks (front : List Char) (blanks : Nat) :
    stripNewlines (front ++ List.replicate blanks '\n') = stripNewlines front := by
  induction blanks with
  | zero => rw [List.replicate_zero, List.append_nil]
  | succ blanks ih =>
    rw [List.replicate_succ', ← List.append_assoc, stripNewlines_newline, ih]

theorem stripNewlines_line (before : List Char) {line : List Char} (clean : '\n' ∉ line)
    (filled : line ≠ []) : stripNewlines (before ++ line) = before ++ line := by
  obtain ⟨front, c, rfl⟩ := (List.eq_nil_or_concat' _).resolve_left filled
  have other : c ≠ '\n' := by
    rintro rfl
    simp at clean
  rw [← List.append_assoc, stripNewlines_other _ other]

theorem stripNewlines_clean {line : List Char} (clean : '\n' ∉ line) :
    stripNewlines line = line := by
  by_cases filled : line = []
  · rw [filled]
    rfl
  · exact stripNewlines_line [] clean filled

theorem exists_blanks (text : List Char) :
    ∃ blanks, text = stripNewlines text ++ List.replicate blanks '\n' := by
  induction text using List.reverseRecOn with
  | nil => exact ⟨0, rfl⟩
  | append_singleton front c ih =>
    by_cases newline : c = '\n'
    · obtain ⟨blanks, whole⟩ := ih
      refine ⟨blanks + 1, ?_⟩
      rw [newline, stripNewlines_newline, List.replicate_succ', ← List.append_assoc, ← whole]
    · exact ⟨0, by rw [stripNewlines_other front newline, List.replicate_zero, List.append_nil]⟩

theorem getLast?_stripNewlines (text : List Char) :
    (stripNewlines text).getLast? ≠ some '\n' := by
  induction text using List.reverseRecOn with
  | nil => simp [stripNewlines]
  | append_singleton front c ih =>
    by_cases newline : c = '\n'
    · rwa [newline, stripNewlines_newline]
    · rw [stripNewlines_other front newline]
      simpa using newline

end strip

section scriptLastLine
variable {text line : List Char}

theorem lastLine_scriptLastLine (text : List Char) : LastLine text (scriptLastLine text) := by
  obtain ⟨blanks, whole⟩ := exists_blanks text
  have ends := getLast?_stripNewlines text
  rw [scriptLastLine]
  cases cut : cutLast '\n' (stripNewlines text) with
  | none =>
    have clean := cutLast_none.mp cut
    have last := LastLine.only blanks clean
    rwa [← whole] at last
  | some parts =>
    obtain ⟨before, line⟩ := parts
    obtain ⟨joined, clean⟩ := eq_of_cutLast cut
    have filled : line ≠ [] := by
      rintro rfl
      rw [joined] at ends
      simp at ends
    have last := LastLine.behind before blanks clean filled
    rwa [← joined, ← whole] at last

theorem LastLine.eq (last : LastLine text line) : scriptLastLine text = line := by
  cases last with
  | only blanks clean =>
    rw [scriptLastLine, stripNewlines_blanks, stripNewlines_clean clean, cutLast_none.mpr clean]
  | behind before blanks clean filled =>
    have kept : stripNewlines (before ++ '\n' :: line) = before ++ '\n' :: line := by
      have line := stripNewlines_line (before ++ ['\n']) clean filled
      rwa [List.append_assoc] at line
    rw [scriptLastLine, stripNewlines_blanks, kept, cutLast_append before clean]

theorem lastLine_iff : LastLine text line ↔ line = scriptLastLine text := by
  constructor
  · exact fun last => last.eq.symm
  · rintro rfl
    exact lastLine_scriptLastLine text

theorem scriptLastLine_eq_nil_iff : scriptLastLine text = [] ↔ ∀ c ∈ text, c = '\n' := by
  constructor
  · intro nothing
    have last := lastLine_scriptLastLine text
    rw [nothing] at last
    cases last with
    | only blanks clean => exact fun c member => List.eq_of_mem_replicate member
    | behind before blanks clean filled => exact absurd rfl filled
  · intro blank
    have whole := List.eq_replicate_of_mem blank
    have last : LastLine ([] ++ List.replicate text.length '\n') [] :=
      .only text.length List.not_mem_nil
    rw [List.nil_append, ← whole] at last
    exact last.eq

end scriptLastLine

section profilers

def rfind (text : List Char) (c : Char) (pos : Nat) : Option Nat :=
  (cutLast c (text.take (pos + 1))).map fun cut => cut.1.length

def sizeSub (m n : Nat) : Nat := (m + 2 ^ 64 - n) % 2 ^ 64

theorem lastLine_eq_rfind {text : List Char} (filled : text ≠ []) (fits : text.length < 2 ^ 64) :
    lastLine text = stripNewlines (match rfind text '\n' (sizeSub text.length 2) with
      | some i => text.drop (i + 1)
      | none => text) := by
  rcases Nat.lt_or_ge text.length 2 with short | long
  · have one : text.length = 1 := by
      have positive := List.length_pos_of_ne_nil filled
      omega
    obtain ⟨c, rfl⟩ := List.length_eq_one_iff.mp one
    by_cases newline : c = '\n'
    · rw [newline]
      rfl
    · have whole : rfind [c] '\n' (sizeSub [c].length 2) = none := by
        have absent : '\n' ∉ [c] := by simpa using Ne.symm newline
        rw [rfind, List.take_of_length_le (by simp [sizeSub]), cutLast_none.mpr absent]
        rfl
      rw [whole]
      rfl
  · have start : sizeSub text.length 2 + 1 = text.length - 1 := by
      rw [sizeSub]
      omega
    rw [lastLine, rfind, start, ← List.dropLast_eq_take]
    cases cutLast '\n' text.dropLast <;> rfl

theorem lastLine_of_cut {text before behind : List Char} {c : Char}
    (cut : cutLast '\n' text = some (before, behind)) :
    lastLine (text ++ [c]) = stripNewlines (behind ++ [c]) := by
  rw [lastLine, List.dropLast_concat, cut]
  have joined : text ++ [c] = (before ++ ['\n']) ++ (behind ++ [c]) := by
    simp [(eq_of_cutLast cut).1]
  have rest : (text ++ [c]).drop (before.length + 1) = behind ++ [c] := by
    rw [joined]
    exact List.drop_left' (by simp)
  exact congrArg stripNewlines rest

theorem lastLine_of_clean {text : List Char} (clean : '\n' ∉ text) (c : Char) :
    lastLine (text ++ [c]) = stripNewlines (text ++ [c]) := by
  rw [lastLine, List.dropLast_concat, cutLast_none.mpr clean]

theorem blank_of_replicate (front : List Char) (blanks : Nat) :
    ['\n', '\n'] <:+ front ++ List.replicate (blanks + 2) '\n' := by
  refine ⟨front ++ List.replicate blanks '\n', ?_⟩
  rw [List.append_assoc, List.replicate_add]
  rfl

theorem LastLine.profilers {text line : List Char} (last : LastLine text line)
    (noBlank : ¬ ['\n', '\n'] <:+ text) : lastLine text = line := by
  cases last with
  | only blanks clean =>
    match blanks with
    | 0 =>
      rw [List.replicate_zero, List.append_nil]
      rcases List.eq_nil_or_concat' line with rfl | ⟨front, c, rfl⟩
      · rfl
      · rw [lastLine_of_clean (fun member => clean (List.mem_append_left _ member)),
          stripNewlines_clean clean]
    | 1 =>
      rw [List.replicate_one, lastLine_of_clean clean, stripNewlines_newline,
        stripNewlines_clean clean]
    | blanks + 2 => exact absurd (blank_of_replicate _ blanks) noBlank
  | behind before blanks clean filled =>
    match blanks with
    | 0 =>
      obtain ⟨front, c, rfl⟩ := (List.eq_nil_or_concat' _).resolve_left filled
      have cut := cutLast_append before (fun member => clean (List.mem_append_left [c] member))
      have found := lastLine_of_cut (c := c) cut
      rw [stripNewlines_clean clean, List.append_assoc] at found
      rw [List.replicate_zero, List.append_nil]
      exact found
    | 1 =>
      rw [List.replicate_one, lastLine_of_cut (cutLast_append before clean),
        stripNewlines_newline, stripNewlines_clean clean]
    | blanks + 2 => exact absurd (blank_of_replicate _ blanks) noBlank

theorem lastLine_eq (text : List Char) :
    lastLine text = if ['\n', '\n'] <:+ text then [] else scriptLastLine text := by
  split_ifs with blank
  · obtain ⟨front, rfl⟩ := blank
    have cut : cutLast '\n' (front ++ ['\n']) = some (front, []) :=
      cutLast_append front List.not_mem_nil
    have ended := lastLine_of_cut (c := '\n') cut
    rwa [List.append_assoc] at ended
  · exact (lastLine_scriptLastLine text).profilers blank

theorem lastLine_eq_scriptLastLine_iff {text : List Char} :
    lastLine text = scriptLastLine text ↔
      ¬ ['\n', '\n'] <:+ text ∨ ∀ c ∈ text, c = '\n' := by
  rw [lastLine_eq, ← scriptLastLine_eq_nil_iff]
  split_ifs with blank
  · rw [eq_comm, or_iff_right (not_not_intro blank)]
  · exact iff_of_true rfl (.inl blank)

end profilers

section fallback
variable (env : Surroundings) (task : CollectTask)

/-- The error of the first run makes `PerfProfiler::record` start the second one. -/
def FallsBack : Prop :=
  0 < (perfRun task).pid ∧ ∃ error, runPerf env (perfRun task) = .error error ∧
    "No such process".toList <:+: error.toList

variable {env task}

theorem record_of_fallsBack (falls : FallsBack env task) :
    PerfProfiler.record env task =
      (runPerf env { perfRun task with pid := 0 }).map fun _ => ["perf.data"] := by
  obtain ⟨known, error, failed, named⟩ := falls
  simp only [PerfProfiler.record, if_pos known, failed, if_pos named]

theorem record_of_not_fallsBack (stays : ¬ FallsBack env task) :
    PerfProfiler.record env task = (runPerf env (perfRun task)).map fun _ => ["perf.data"] := by
  by_cases known : 0 < (perfRun task).pid
  · cases ran : runPerf env (perfRun task) with
    | ok done => simp only [PerfProfiler.record, if_pos known, ran]
    | error error =>
      have other : ¬ "No such process".toList <:+: error.toList :=
        fun named => stays ⟨known, error, ran, named⟩
      simp only [PerfProfiler.record, if_pos known, ran, if_neg other]
  · simp only [PerfProfiler.record, if_neg known]

theorem runPerf_exited {run : PerfRun} {code : Nat} {stderr : List Char}
    (ended : (env.perf run).ending = .exited code stderr) (failed : code ≠ 0) :
    runPerf env run = .error ("perf record exited with code " ++ toString code ++
      if lastLine stderr = [] then "" else ": " ++ String.ofList (lastLine stderr)) := by
  simp only [runPerf, ended, childResult, if_neg failed]
  rfl

theorem no_process_in_exit (code : Nat) :
    ¬ "No such process".toList <:+: ("perf record exited with code " ++ toString code).toList := by
  intro named
  have member : 'N' ∈ "No such process".toList := by decide
  have inside := named.subset member
  rw [String.toList_append, List.mem_append] at inside
  rcases inside with fixed | digit
  · exact absurd fixed (by decide)
  · have isDigit := Nat.isDigit_of_mem_toDigits (by decide) (by decide)
      (Nat.toList_repr ▸ digit : 'N' ∈ Nat.toDigits 10 code)
    exact absurd isDigit (by decide)

theorem fallsBack_iff {code : Nat} {stderr : List Char} (known : 0 < (perfRun task).pid)
    (ended : (env.perf (perfRun task)).ending = .exited code stderr) (failed : code ≠ 0)
    (named : "No such process".toList <:+: scriptLastLine stderr) :
    FallsBack env task ↔ ¬ ['\n', '\n'] <:+ stderr := by
  have message := runPerf_exited ended failed
  by_cases blank : ['\n', '\n'] <:+ stderr
  · refine iff_of_false ?_ (not_not_intro blank)
    rintro ⟨_, error, ran, inside⟩
    rw [message, lastLine_eq, if_pos blank, if_pos rfl, String.append_empty] at ran
    rw [← Except.error.inj ran] at inside
    exact no_process_in_exit code inside
  · refine iff_of_true ⟨known, _, message, ?_⟩ blank
    have filled : scriptLastLine stderr ≠ [] := by
      intro empty
      rw [empty] at named
      exact absurd (List.eq_nil_of_infix_nil named) (by decide)
    have line : (String.ofList (scriptLastLine stderr)).toList = scriptLastLine stderr :=
      String.toList_ofList
    rw [lastLine_eq, if_neg blank, if_neg filled, ← String.append_assoc, String.toList_append, line]
    exact named.trans (List.suffix_append _ _).isInfix

end fallback

theorem details_agree_iff (stderr : List Char) :
    (∀ line, LastLine stderr line ↔ line = scriptLastLine stderr) ∧
    (scriptLastLine stderr = [] ↔ ∀ c ∈ stderr, c = '\n') ∧
    (lastLine stderr = scriptLastLine stderr ↔
      ¬ ['\n', '\n'] <:+ stderr ∨ ∀ c ∈ stderr, c = '\n') ∧
    ∀ env task code, 0 < (perfRun task).pid →
      (env.perf (perfRun task)).ending = .exited code stderr → code ≠ 0 →
      "No such process".toList <:+: scriptLastLine stderr →
      (FallsBack env task ↔ ¬ ['\n', '\n'] <:+ stderr) :=
  ⟨fun _ => lastLine_iff, scriptLastLine_eq_nil_iff, lastLine_eq_scriptLastLine_iff,
    fun _ _ _ => fallsBack_iff⟩

def unreachable (stderr : List Char) : Surroundings where
  exists_ _ := false
  canonical := id
  currentPath := "/"
  exeDir := none
  toolsDir := none
  perf run := if run.pid > 0 then ⟨.exited 255 stderr, none⟩ else ⟨.exited 0 [], some 1⟩
  asprof _ _ := ⟨.signaled 9, none⟩
  libbpf := ⟨false, false, false, false, false, false, false, false, ""⟩
  outputOpens := false
  scriptOpens := false
  chmodError := none
  script := .signaled 9

def pidTask : CollectTask := dispatched (taskDesc "t" ⟨"", 0, 0, "10.0.0.7", 7, 30, 99, ""⟩)

theorem details_agree_iff_oneNewline :
    lastLine "No such process\n".toList = scriptLastLine "No such process\n".toList ∧
      FallsBack (unreachable "No such process\n".toList) pidTask := by
  obtain ⟨_, _, same, falls⟩ := details_agree_iff "No such process\n".toList
  exact ⟨same.mpr (.inl (by decide)),
    (falls _ pidTask 255 (by decide) rfl (by decide) (by decide)).mpr (by decide)⟩

/-- A blank line behind the message hides it, and the task fails. -/
theorem blankLine_hides_message :
    scriptLastLine "No such process\n\n".toList = "No such process".toList ∧
      lastLine "No such process\n\n".toList = [] ∧
      PerfProfiler.record (unreachable "No such process\n\n".toList) pidTask =
        .error "perf record exited with code 255" ∧
      PerfProfiler.record (unreachable "No such process\n".toList) pidTask =
        .ok ["perf.data"] := by
  refine ⟨by decide, by decide, by decide +kernel, by decide +kernel⟩

end DropPlatform.ErrorDetails
