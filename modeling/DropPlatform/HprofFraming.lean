import DropPlatform.HprofSteps

/-! Where the records of a file start for the parser. A heap dump record ends where its
sub-records end, which may be behind the end that its length field announces. Along these
positions the outcome of `parse` is decided: it panics at a complete STRING or LOAD CLASS
record that is shorter than its fixed fields, and nowhere else. -/

namespace DropPlatform.HprofFraming
open ByteReaders HprofParser HprofSteps

variable {idSize : Nat} {process : Process}

/-- Sub-records fill up `remaining` bytes or run past them; then `rest` follows. -/
inductive SubRecords (idSize : Nat) : Int → Bytes → Bytes → Prop
  | done {remaining : Int} {rest : Bytes} (finished : remaining ≤ 0) :
      SubRecords idSize remaining rest rest
  | cons {remaining : Int} {tag : UInt8} {layout : Layout} {header payload input rest : Bytes}
      (positive : 0 < remaining) (found : HprofSteps.layout idSize tag = some layout)
      (fits : layout.Fits header payload)
      (others : SubRecords idSize (remaining - 1 - (header.length + payload.length : Nat)) input
        rest) :
      SubRecords idSize remaining (tag :: (header ++ (payload ++ input))) rest

section heapDump
variable {remaining : Int} {input rest : Bytes}

theorem SubRecords.runsTo (subs : SubRecords idSize remaining input rest)
    (ready : Ready idSize process) :
    ∃ left next, left ≤ 0 ∧ Ready idSize next ∧
      RunsTo heapDumpRound (remaining, ⟨input, process⟩) (left, ⟨rest, next⟩) := by
  induction subs generalizing process with
  | done finished => exact ⟨_, process, finished, ready, .refl⟩
  | @cons remaining tag layout header payload input _ positive found fits _ ih =>
    have goesOn : Continues heapDumpRound
        (remaining, ⟨tag :: (header ++ (payload ++ input)), process⟩)
        (remaining - 1 - (header.length + payload.length : Nat),
          ⟨input, layout.effect header process⟩) :=
      heapDumpRound_complete ready positive found fits
    obtain ⟨left, next, finished, nextReady, run⟩ := ih (ready.effect layout header)
    exact ⟨left, next, finished, nextReady, .head goesOn run⟩

theorem subRecords_of_runsTo {here last : Int × Session Process}
    (run : RunsTo heapDumpRound here last) (ready : Ready idSize here.2.state)
    (after : SubRecords idSize last.1 last.2.input rest) :
    SubRecords idSize here.1 here.2.input rest := by
  induction run using Relation.ReflTransGen.head_induction_on with
  | refl => exact after
  | @head here next goesOn _ ih =>
    obtain ⟨positive, tag, layout, header, payload, found, fits, whole, left, nextReady⟩ :=
      taken_of_continues ready goesOn
    have others := ih nextReady
    rw [left] at others
    rw [whole]
    exact .cons positive found fits others

theorem SubRecords.length_le (subs : SubRecords idSize remaining input rest) :
    rest.length ≤ input.length := by
  induction subs with
  | done finished => exact le_rfl
  | cons positive found fits others ih =>
    simp only [List.length_cons, List.length_append]
    omega

theorem parseHeapDump_complete (ready : Ready idSize process) {length : UInt32}
    (subs : SubRecords idSize length.toNat input rest) :
    ∃ next, Ready idSize next ∧
      (parseHeapDump length).run ⟨input, process⟩ = .ok () ⟨rest, next⟩ := by
  obtain ⟨left, next, finished, nextReady, run⟩ := subs.runsTo ready
  refine ⟨next, nextReady, ?_⟩
  apply run_loop (heapDumpRound_consuming idSize) ready run
  rw [heapDumpRound, if_neg (by omega)]
  rfl

theorem parseHeapDump_cases (ready : Ready idSize process) (length : UInt32) (input : Bytes) :
    (∃ rest next, SubRecords idSize length.toNat input rest ∧ Ready idSize next ∧
      (parseHeapDump length).run ⟨input, process⟩ = .ok () ⟨rest, next⟩) ∨
    ∃ e t, (parseHeapDump length).run ⟨input, process⟩ = .error (.error e) t := by
  have start : Ready idSize ((length.toNat : Int), (⟨input, process⟩ : Session Process)).2.state :=
    ready
  obtain ⟨last, result, run, ending⟩ := exists_last_round (heapDumpRound_consuming idSize) start
  have ran : (parseHeapDump length).run ⟨input, process⟩ = result :=
    run_loop (heapDumpRound_consuming idSize) start run ending
  have lastReady := (heapDumpRound_consuming idSize).runsTo start run
  rcases heapDumpRound_cases lastReady last.1 last.2.input with ⟨finished, round⟩ | taken | failed
  · left
    rw [round] at ending
    have subs := subRecords_of_runsTo run start (.done finished)
    exact ⟨last.2.input, last.2.state, subs, lastReady, ran.trans ending⟩
  · obtain ⟨_, _, _, _, _, _, _, _, _, round⟩ := taken
    rw [round] at ending
    exact ending.elim
  · right
    obtain ⟨e, t, round⟩ := failed
    rw [round] at ending
    exact ⟨e, t, ran.trans ending⟩

end heapDump

def IsHeap (tag : UInt8) : Prop := tag = tagHeapDump ∨ tag = tagHeapDumpSeg

/-- The body of the record is shorter than the fields that the parser cuts out of it. -/
def TooShort (idSize : Nat) (tag : UInt8) (body : Bytes) : Prop :=
  tag = tagString ∧ body.length < idSize ∨
    tag = tagLoadClass ∧ body.length < 4 + idSize + 4 + idSize

section parseRecord
variable {tag : UInt8} {length : UInt32} {body : Bytes}

theorem parseRecord_other (string : tag ≠ tagString) (loadClass : tag ≠ tagLoadClass)
    (plain : ¬ IsHeap tag) (length : UInt32) :
    parseRecord tag length = discard length.toNat (.skippingRecord tag) := by
  unfold IsHeap at plain
  rw [parseRecord, if_neg string, if_neg loadClass, if_neg plain]

theorem parseRecord_plain (ready : Ready idSize process) (plain : ¬ IsHeap tag)
    (whole : body.length = length.toNat) (rest : Bytes) :
    TooShort idSize tag body ∧
      (parseRecord tag length).run ⟨body ++ rest, process⟩ = .error .panic ⟨rest, process⟩ ∨
    ¬ TooShort idSize tag body ∧ ∃ next, Ready idSize next ∧
      (parseRecord tag length).run ⟨body ++ rest, process⟩ = .ok () ⟨rest, next⟩ := by
  by_cases string : tag = tagString
  · rw [parseRecord, if_pos string]
    rcases Nat.lt_or_ge body.length idSize with short | long
    · exact .inl ⟨.inl ⟨string, short⟩, parseString_panics ready whole short⟩
    · right
      refine ⟨?_, _, ?_, run_parseString ready whole long⟩
      rotate_left
      · exact ⟨ready.cases, ready.current⟩
      rintro (⟨_, short⟩ | ⟨other, _⟩)
      · omega
      · exact absurd (string.symm.trans other) (by decide)
  by_cases loadClass : tag = tagLoadClass
  · rw [parseRecord, if_neg string, if_pos loadClass]
    rcases Nat.lt_or_ge body.length (4 + idSize + 4 + idSize) with short | long
    · exact .inl ⟨.inr ⟨loadClass, short⟩, parseLoadClass_panics ready whole short⟩
    · right
      refine ⟨?_, _, ?_, run_parseLoadClass ready whole long⟩
      rotate_left
      · exact ⟨ready.cases, ready.current⟩
      rintro (⟨other, _⟩ | ⟨_, short⟩)
      · exact string other
      · omega
  · rw [parseRecord_other string loadClass plain]
    right
    refine ⟨?_, process, ready, run_discard_append _ _ whole⟩
    rintro (⟨other, _⟩ | ⟨other, _⟩)
    · exact string other
    · exact loadClass other

theorem parseRecord_incomplete {input : Bytes} (process : Process) (plain : ¬ IsHeap tag)
    (short : input.length < length.toNat) :
    ∃ e t, (parseRecord tag length).run ⟨input, process⟩ = .error (.error e) t := by
  by_cases string : tag = tagString
  · rw [parseRecord, if_pos string]
    simp only [parseString, run_bind, run_readFull_short _ _ short]
    exact ⟨_, _, rfl⟩
  by_cases loadClass : tag = tagLoadClass
  · rw [parseRecord, if_neg string, if_pos loadClass]
    simp only [parseLoadClass, run_bind, run_readFull_short _ _ short]
    exact ⟨_, _, rfl⟩
  · rw [parseRecord_other string loadClass plain]
    exact ⟨_, _, run_discard_short _ _ short⟩

theorem parseRecord_heap (heap : IsHeap tag) (length : UInt32) :
    parseRecord tag length = parseHeapDump length := by
  have notString : tag ≠ tagString := by
    rcases heap with rfl | rfl <;> decide
  have notLoadClass : tag ≠ tagLoadClass := by
    rcases heap with rfl | rfl <;> decide
  unfold IsHeap at heap
  rw [parseRecord, if_neg notString, if_neg notLoadClass, if_pos heap]

end parseRecord

/-- A complete record starts at the first position, and the next one at the second. -/
inductive NextRecord (idSize : Nat) : Bytes → Bytes → Prop
  | plain {tag : UInt8} {time size body rest : Bytes} (timed : time.length = 4)
      (sized : size.length = 4) (noHeap : ¬ IsHeap tag) (whole : body.length = bigEndian size) :
      NextRecord idSize (tag :: (time ++ (size ++ (body ++ rest)))) rest
  | heap {tag : UInt8} {time size input rest : Bytes} (timed : time.length = 4)
      (sized : size.length = 4) (isHeap : IsHeap tag)
      (subs : SubRecords idSize (bigEndian size) input rest) :
      NextRecord idSize (tag :: (time ++ (size ++ input))) rest

/-- A complete STRING or LOAD CLASS record that cannot hold its fields starts here. -/
def ShortRecord (idSize : Nat) (here : Bytes) : Prop :=
  ∃ (tag : UInt8) (time size body rest : Bytes), time.length = 4 ∧ size.length = 4 ∧
    body.length = bigEndian size ∧ TooShort idSize tag body ∧
    here = tag :: (time ++ (size ++ (body ++ rest)))

section recordRound
variable {input here rest : Bytes}

theorem recordRound_of_next (ready : Ready idSize process) (next : NextRecord idSize here rest) :
    (∃ after, Ready idSize after ∧
      (recordRound ()).run ⟨here, process⟩ = .ok (.inl ()) ⟨rest, after⟩) ∨
    ∃ t, (recordRound ()).run ⟨here, process⟩ = .error .panic t := by
  cases next with
  | plain timed sized noHeap whole =>
    rw [recordRound_header _ _ timed sized]
    rcases parseRecord_plain ready noHeap (whole.trans (toNat_uint32 sized).symm) rest with
      ⟨_, ran⟩ | ⟨_, after, afterReady, ran⟩
    · right
      simp only [run_bind, ran]
      exact ⟨_, rfl⟩
    · left
      refine ⟨after, afterReady, ?_⟩
      simp only [run_bind, ran, run_pure]
  | heap timed sized isHeap subs =>
    left
    rw [← toNat_uint32 sized] at subs
    obtain ⟨after, afterReady, ran⟩ := parseHeapDump_complete ready subs
    refine ⟨after, afterReady, ?_⟩
    rw [recordRound_header _ _ timed sized, parseRecord_heap isHeap]
    simp only [run_bind, ran, run_pure]

theorem recordRound_of_short (ready : Ready idSize process) (short : ShortRecord idSize here) :
    ∃ t, (recordRound ()).run ⟨here, process⟩ = .error .panic t := by
  obtain ⟨tag, time, size, body, rest, timed, sized, whole, tooShort, rfl⟩ := short
  have plain : ¬ IsHeap tag := by
    rcases tooShort with ⟨rfl, _⟩ | ⟨rfl, _⟩ <;> unfold IsHeap <;> decide
  rw [recordRound_header _ _ timed sized]
  rcases parseRecord_plain ready plain (whole.trans (toNat_uint32 sized).symm) rest with
    ⟨_, ran⟩ | ⟨long, _⟩
  · simp only [run_bind, ran]
    exact ⟨_, rfl⟩
  · exact absurd tooShort long

theorem recordRound_cases (ready : Ready idSize process) (here : Bytes) :
    (recordRound ()).run ⟨here, process⟩ = .ok (.inr ()) ⟨here, process⟩ ∨
    (∃ rest after, NextRecord idSize here rest ∧ rest.length < here.length ∧ Ready idSize after ∧
      (recordRound ()).run ⟨here, process⟩ = .ok (.inl ()) ⟨rest, after⟩) ∨
    (∃ e t, (recordRound ()).run ⟨here, process⟩ = .error (.error e) t) ∨
    (ShortRecord idSize here ∧ ∃ t, (recordRound ()).run ⟨here, process⟩ = .error .panic t) := by
  by_cases empty : here = []
  · left
    rw [empty, recordRound_nil]
  right
  rcases Nat.lt_or_ge here.length 9 with short | enough
  · exact .inr (.inl (recordRound_short process empty short))
  obtain ⟨tag, input, rfl⟩ := List.exists_cons_of_ne_nil empty
  rw [List.length_cons] at enough
  obtain ⟨time, input, rfl, timed⟩ := exists_header (by omega : 4 ≤ input.length)
  rw [List.length_append] at enough
  obtain ⟨size, input, rfl, sized⟩ := exists_header (by omega : 4 ≤ input.length)
  rw [recordRound_header _ _ timed sized]
  by_cases heap : IsHeap tag
  · rw [parseRecord_heap heap]
    rcases parseHeapDump_cases ready (.ofNat (bigEndian size)) input with
      ⟨rest, after, subs, afterReady, ran⟩ | ⟨e, t, ran⟩
    · left
      rw [toNat_uint32 sized] at subs
      have shorter := subs.length_le
      refine ⟨rest, after, .heap timed sized heap subs, ?_, afterReady, ?_⟩
      · simp only [List.length_cons, List.length_append]
        omega
      · simp only [run_bind, ran, run_pure]
    · right; left
      refine ⟨e, t, ?_⟩
      simp only [run_bind, ran]
  rcases Nat.lt_or_ge input.length (bigEndian size) with short | enough
  · right; left
    rw [← toNat_uint32 sized] at short
    obtain ⟨e, t, ran⟩ := parseRecord_incomplete process heap short
    refine ⟨e, t, ?_⟩
    simp only [run_bind, ran]
  obtain ⟨body, rest, rfl, whole⟩ := exists_header enough
  rcases parseRecord_plain ready heap (whole.trans (toNat_uint32 sized).symm) rest with
    ⟨tooShort, ran⟩ | ⟨_, after, afterReady, ran⟩
  · right; right
    refine ⟨⟨tag, time, size, body, rest, timed, sized, whole, tooShort, rfl⟩, ⟨rest, process⟩, ?_⟩
    simp only [run_bind, ran]
  · left
    refine ⟨rest, after, .plain timed sized heap whole, ?_, afterReady, ?_⟩
    · simp only [List.length_cons, List.length_append]
      omega
    · simp only [run_bind, ran, run_pure]

theorem next_of_continues {here next : Unit × Session Process} (ready : Ready idSize here.2.state)
    (goesOn : Continues recordRound here next) :
    NextRecord idSize here.2.input next.2.input ∧ next.2.input.length < here.2.input.length ∧
      Ready idSize next.2.state := by
  have answer : (recordRound ()).run ⟨here.2.input, here.2.state⟩ = .ok (.inl ()) next.2 := goesOn
  rcases recordRound_cases ready here.2.input with ran | taken | ⟨e, t, ran⟩ | ⟨_, t, ran⟩
  · rw [ran] at answer
    cases answer
  · obtain ⟨rest, after, record, shorter, afterReady, ran⟩ := taken
    rw [ran, EStateM.Result.ok.injEq] at answer
    rw [← answer.2]
    exact ⟨record, shorter, afterReady⟩
  · rw [ran] at answer
    cases answer
  · rw [ran] at answer
    cases answer

theorem recordRound_consuming (idSize : Nat) :
    Consuming (fun here : Unit × Session Process => Ready idSize here.2.state) recordRound where
  shorter _ _ ready goesOn := (next_of_continues ready goesOn).2.1
  keeps _ _ ready goesOn := (next_of_continues ready goesOn).2.2

abbrev RecordStart (idSize : Nat) : Bytes → Bytes → Prop :=
  Relation.ReflTransGen (NextRecord idSize)

theorem recordStart_of_runsTo {here last : Unit × Session Process}
    (ready : Ready idSize here.2.state) (run : RunsTo recordRound here last) :
    RecordStart idSize here.2.input last.2.input := by
  induction run with
  | refl => exact .refl
  | tail before goesOn ih =>
    have lastReady := (recordRound_consuming idSize).runsTo ready before
    exact ih.tail (next_of_continues lastReady goesOn).1

theorem panics_of_short {rest : Bytes} (start : RecordStart idSize rest here)
    (short : ShortRecord idSize here) (ready : Ready idSize process) :
    ∃ t, (loop recordRound ()).run ⟨rest, process⟩ = .error .panic t := by
  have panics : ∃ last t, RunsTo recordRound ((), ⟨rest, process⟩) last ∧
      (recordRound last.1).run last.2 = .error .panic t := by
    induction start using Relation.ReflTransGen.head_induction_on generalizing process with
    | refl =>
      obtain ⟨t, ran⟩ := recordRound_of_short ready short
      exact ⟨_, t, .refl, ran⟩
    | @head before after record _ ih =>
      rcases recordRound_of_next ready record with ⟨next, nextReady, ran⟩ | ⟨t, ran⟩
      · obtain ⟨last, t, run, panicked⟩ := ih nextReady
        have goesOn : Continues recordRound ((), ⟨before, process⟩) ((), ⟨after, next⟩) := ran
        exact ⟨last, t, .head goesOn run, panicked⟩
      · exact ⟨_, t, .refl, ran⟩
  obtain ⟨last, t, run, panicked⟩ := panics
  refine ⟨t, ?_⟩
  apply run_loop (recordRound_consuming idSize) ready run
  rw [panicked]
  rfl

end recordRound

def Returns (result : EStateM.Result (Stop ParseError) (Session Process) Unit) : Prop :=
  (∃ t, result = .ok () t) ∨ ∃ e t, result = .error (.error e) t

theorem parse_returns_iff (input : Bytes) (process : Process) :
    Returns (parse.run ⟨input, process⟩) ↔
      ∀ idSize rest here, Opens input idSize rest → RecordStart idSize rest here →
        ¬ ShortRecord idSize here := by
  constructor
  · intro returns idSize rest here opens start short
    obtain ⟨t, panicked⟩ := panics_of_short start short (opens.ready process)
    rw [run_parse opens, panicked] at returns
    rcases returns with ⟨_, same⟩ | ⟨_, _, same⟩ <;> cases same
  · intro long
    rcases parse_cases input process with ⟨idSize, rest, opens⟩ | failed
    · have consuming := recordRound_consuming idSize
      have ready := opens.ready process
      have start : Ready idSize
          ((), (⟨rest, withIdSize process idSize⟩ : Session Process)).2.state := ready
      obtain ⟨last, result, run, ending⟩ := exists_last_round consuming start
      rw [run_parse opens, run_loop consuming start run ending]
      have lastReady := consuming.runsTo start run
      rcases recordRound_cases lastReady last.2.input with round | taken | ⟨e, t, round⟩ | panicked
      · rw [round] at ending
        exact .inl ⟨_, ending⟩
      · obtain ⟨_, _, _, _, _, round⟩ := taken
        rw [round] at ending
        exact ending.elim
      · rw [round] at ending
        exact .inr ⟨e, t, ending⟩
      · exact absurd panicked.1 (long idSize rest _ opens (recordStart_of_runsTo start run))
    · exact .inr failed

def shortString : Bytes := tagString :: (encode 4 0 ++ (encode 4 3 ++ ([1, 2, 3] ++ [])))

def shortStringFile : Bytes :=
  ascii "JAVA PROFILE 1.0.2" ++ (0 :: (encode 4 4 ++ (encode 8 0 ++ shortString)))

theorem shortStringFile_panics :
    ∃ t, parse.run ⟨shortStringFile, newHPROFParser, []⟩ = .error .panic t := by
  have opens : Opens shortStringFile 4 shortString :=
    ⟨.inl rfl, ascii "JAVA PROFILE 1.0.2", encode 4 4, encode 8 0, by decide, by decide, rfl,
      by decide, rfl, rfl⟩
  have short : ShortRecord 4 shortString :=
    ⟨tagString, encode 4 0, encode 4 3, [1, 2, 3], [], rfl, rfl, by decide,
      .inl ⟨rfl, by decide⟩, rfl⟩
  rw [run_parse opens]
  exact panics_of_short .refl short (opens.ready _)

end DropPlatform.HprofFraming
