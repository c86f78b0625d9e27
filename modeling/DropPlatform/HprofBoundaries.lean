import DropPlatform.HprofFraming
import DropPlatform.HprofSubRecords

/-! Ends of records and of files. A heap dump record is read to the end of the sub-record in
which its length is used up, wherever that end is for the parser, which takes four bytes too
many for every GC root. A file that is cut short is accepted if it is cut where a record starts, and
refused with an error anywhere else. -/

namespace DropPlatform.HprofBoundaries
open ByteReaders HprofParser HprofFormat HprofSteps HprofFraming HprofSubRecords

variable {idSize : Nat} {process : Process}

section heapDump

/-- Pieces, one behind the other. -/
inductive Filled (idSize : Nat) : Bytes → Prop
  | nil : Filled idSize []
  | cons {piece rest : Bytes} (first : Piece idSize piece) (others : Filled idSize rest) :
      Filled idSize (piece ++ rest)

/-- Behind pieces there is one that starts within the first `remaining` bytes and ends behind
them; then `rest` follows. -/
inductive Overruns (idSize : Nat) (remaining : Int) : Bytes → Bytes → Prop
  | mk {done piece rest : Bytes} (before : Filled idSize done) (isPiece : Piece idSize piece)
      (starts : done.length < remaining) (ends : remaining < (done ++ piece).length) :
      Overruns idSize remaining (done ++ (piece ++ rest)) rest

section
variable {remaining : Int} {input rest piece : Bytes}

theorem subRecords_cons (isPiece : Piece idSize piece) (positive : 0 < remaining)
    (others : SubRecords idSize (remaining - piece.length) input rest) :
    SubRecords idSize remaining (piece ++ input) rest := by
  obtain ⟨tag, layout, header, payload, found, fits, rfl⟩ := isPiece.layout
  rw [List.cons_append, List.append_assoc]
  refine .cons positive found fits ?_
  convert others using 1
  rw [List.length_cons, List.length_append]
  omega

theorem Filled.subRecords {done : Bytes} (filled : Filled idSize done)
    (inside : done.length ≤ remaining)
    (after : SubRecords idSize (remaining - done.length) input rest) :
    SubRecords idSize remaining (done ++ input) rest := by
  induction filled generalizing remaining with
  | nil => simpa using after
  | @cons piece more first others ih =>
    have some : 0 < piece.length := by
      obtain ⟨tag, layout, header, payload, -, -, rfl⟩ := first.layout
      exact Nat.succ_pos _
    rw [List.length_append] at inside after
    rw [List.append_assoc]
    refine subRecords_cons first (by omega) (ih (by omega) ?_)
    convert after using 1
    omega

theorem Overruns.subRecords (past : Overruns idSize remaining input rest) :
    SubRecords idSize remaining input rest := by
  cases past with
  | @mk done piece _ before isPiece starts ends =>
    rw [List.length_append] at ends
    exact before.subRecords (by omega)
      (subRecords_cons isPiece (by omega) (.done (by omega)))

theorem Overruns.cons (first : Piece idSize piece)
    (past : Overruns idSize (remaining - piece.length) input rest) :
    Overruns idSize remaining (piece ++ input) rest := by
  cases past with
  | @mk done last _ before isPiece starts ends =>
    rw [List.length_append] at ends
    rw [← List.append_assoc]
    refine .mk (.cons first before) isPiece ?_ ?_
    · rw [List.length_append]
      omega
    · rw [List.length_append, List.length_append]
      omega

theorem ends_of_subRecords (subs : SubRecords idSize remaining input rest) (front : 0 ≤ remaining) :
    (∃ done, Filled idSize done ∧ input = done ++ rest ∧ done.length = remaining) ∨
      Overruns idSize remaining input rest := by
  induction subs with
  | done finished => exact .inl ⟨[], .nil, rfl, by simp; omega⟩
  | @cons remaining tag layout header payload input rest positive found fits others ih =>
    have isPiece := piece_of_layout found fits
    have size : (tag :: (header ++ payload)).length = 1 + (header.length + payload.length) := by
      rw [List.length_cons, List.length_append, Nat.add_comm]
    have whole : tag :: (header ++ (payload ++ input)) = tag :: (header ++ payload) ++ input := by
      rw [List.cons_append, List.append_assoc]
    rw [whole]
    rcases lt_or_ge (remaining - 1 - (header.length + payload.length : Nat)) 0 with past | inside
    · right
      cases others with
      | done _ => exact .mk .nil isPiece positive (by rw [List.nil_append, size]; omega)
      | cons left => omega
    rcases ih inside with ⟨done, filled, rfl, used⟩ | past
    · left
      refine ⟨_, .cons isPiece filled, (List.append_assoc _ _ _).symm, ?_⟩
      rw [List.length_append, size]
      omega
    · refine .inr (.cons isPiece ?_)
      convert past using 1
      rw [size]
      omega

theorem Overruns.length_lt (past : Overruns idSize remaining input rest) :
    remaining + rest.length < input.length := by
  cases past with
  | mk _ _ _ ends =>
    rw [List.length_append] at ends
    rw [List.length_append, List.length_append]
    omega

end

/-- Exactly the length is consumed unless a piece overruns it, and that is no error. -/
theorem parseHeapDump_exact_iff (ready : Ready idSize process) (length : UInt32) (input : Bytes) :
    ((∀ rest next, (parseHeapDump length).run ⟨input, process⟩ = .ok () ⟨rest, next⟩ →
        input.length = length.toNat + rest.length) ↔
      ¬ ∃ rest, Overruns idSize length.toNat input rest) ∧
    ∀ rest, Overruns idSize length.toNat input rest →
      ∃ next, (parseHeapDump length).run ⟨input, process⟩ = .ok () ⟨rest, next⟩ ∧
        length.toNat + rest.length < input.length := by
  have past : ∀ rest, Overruns idSize length.toNat input rest →
      ∃ next, (parseHeapDump length).run ⟨input, process⟩ = .ok () ⟨rest, next⟩ ∧
        length.toNat + rest.length < input.length := by
    intro rest past
    obtain ⟨next, _, ran⟩ := parseHeapDump_complete ready past.subRecords
    have more := past.length_lt
    exact ⟨next, ran, by omega⟩
  refine ⟨⟨?_, ?_⟩, past⟩
  · rintro exact_ ⟨rest, overruns⟩
    obtain ⟨next, ran, more⟩ := past rest overruns
    have same := exact_ rest next ran
    omega
  · intro inside rest next ran
    rcases parseHeapDump_cases ready length input with ⟨rest', next', subs, _, ran'⟩ | ⟨e, t, failed⟩
    · rw [ran] at ran'
      simp only [EStateM.Result.ok.injEq, Session.mk.injEq, true_and] at ran'
      rw [← ran'.1] at subs
      rcases ends_of_subRecords subs (Int.natCast_nonneg _) with ⟨done, _, rfl, size⟩ | overruns
      · rw [List.length_append]
        omega
      · exact absurd ⟨rest, overruns⟩ inside
    · rw [failed] at ran
      cases ran

theorem filled_of_benign (supported : idSize = 4 ∨ idSize = 8) {subs : List (SubRecord idSize)}
    (benign : ∀ sub ∈ subs, Benign sub)
    (short : (subs.flatMap SubRecord.encode).length < 256 ^ 4) :
    Filled idSize (subs.flatMap SubRecord.encode) := by
  induction subs with
  | nil => exact .nil
  | cons sub subs ih =>
    obtain ⟨first, others⟩ := List.forall_mem_cons.mp benign
    have bodyShort := length_body_lt List.mem_cons_self short
    rw [List.flatMap_cons, List.length_append] at short
    rw [List.flatMap_cons]
    refine .cons ?_ (ih others (by omega))
    cases sub with
    | gcRoot root => exact first.elim
    | classDump dump =>
      change Piece idSize (subClassDump :: dump.body)
      refine .classDump _ dump.tables ?_ first
      simp only [List.length_append, length_word]
      ring
    | object dump => exact .object dump (count_lt supported (payload_lt bodyShort))

/-- A well-formed record that ends with a root is read four bytes too far. -/
theorem rootLast_overruns (supported : idSize = 4 ∨ idSize = 8) {subs : List (SubRecord idSize)}
    (benign : ∀ sub ∈ subs, Benign sub) (short : (subs.flatMap SubRecord.encode).length < 256 ^ 4)
    (root : Root idSize) (behind : Bytes) (four : behind.length = 4) (rest : Bytes) :
    let record := subs.flatMap SubRecord.encode ++ (SubRecord.gcRoot root).encode
    Overruns idSize record.length (record ++ (behind ++ rest)) rest := by
  intro record
  have whole : record ++ (behind ++ rest) = subs.flatMap SubRecord.encode ++
      (root.tag :: (root.body ++ behind) ++ rest) := by
    simp only [record, SubRecord.encode, List.append_assoc, List.cons_append]
    rfl
  rw [whole]
  refine .mk (filled_of_benign supported benign short) (.root root behind four) ?_ ?_
  · simp [record, SubRecord.encode]
  · simp [record, SubRecord.encode, SubRecord.body, four]

def rootInput : Bytes := (SubRecord.gcRoot (.stickyClass (fourBytes 1))).encode ++ [0, 0, 0, 0]

def opened : Process := withIdSize ⟨newHPROFParser, []⟩ 4

theorem opened_ready : Ready 4 opened := ⟨.inl rfl, rfl⟩

theorem parseHeapDump_exact_iff_root :
    ((∀ rest next, (parseHeapDump 9).run ⟨rootInput, opened⟩ = .ok () ⟨rest, next⟩ →
        rootInput.length = (9 : UInt32).toNat + rest.length) ↔
      ¬ ∃ rest, Overruns 4 (9 : UInt32).toNat rootInput rest) ∧
    ∀ rest, Overruns 4 (9 : UInt32).toNat rootInput rest →
      ∃ next, (parseHeapDump 9).run ⟨rootInput, opened⟩ = .ok () ⟨rest, next⟩ ∧
        (9 : UInt32).toNat + rest.length < rootInput.length :=
  parseHeapDump_exact_iff opened_ready 9 rootInput

theorem rootInput_overrun :
    rootInput = [0x05, 0, 0, 0, 1] ++ [0, 0, 0, 0] ∧
      (parseHeapDump 5).run ⟨rootInput, opened⟩ = .ok () ⟨[], opened⟩ :=
  ⟨rfl, rfl⟩

end heapDump

section pieces
variable {input rest here more : Bytes}

theorem subRecords_piece {remaining : Int} (subs : SubRecords idSize remaining input rest) :
    ∃ piece, input = piece ++ rest ∧ ∀ more, SubRecords idSize remaining (piece ++ more) more := by
  induction subs with
  | done finished => exact ⟨[], rfl, fun more => .done finished⟩
  | @cons remaining tag layout header payload input rest positive found fits others ih =>
    obtain ⟨piece, rfl, elsewhere⟩ := ih
    refine ⟨tag :: (header ++ (payload ++ piece)), by simp, fun more => ?_⟩
    have subs := SubRecords.cons positive found fits (elsewhere more)
    simpa using subs

theorem nextRecord_piece (next : NextRecord idSize input rest) :
    ∃ piece, input = piece ++ rest ∧ ∀ more, NextRecord idSize (piece ++ more) more := by
  cases next with
  | @plain tag time size body _ timed sized noHeap whole =>
    refine ⟨tag :: (time ++ (size ++ body)), by simp, fun more => ?_⟩
    have next : NextRecord idSize (tag :: (time ++ (size ++ (body ++ more)))) more :=
      .plain timed sized noHeap whole
    simpa using next
  | @heap tag time size _ _ timed sized isHeap subs =>
    obtain ⟨piece, rfl, elsewhere⟩ := subRecords_piece subs
    refine ⟨tag :: (time ++ (size ++ piece)), by simp, fun more => ?_⟩
    have next := NextRecord.heap timed sized isHeap (elsewhere more)
    simpa using next

theorem recordStart_piece (start : RecordStart idSize input rest) :
    ∃ piece, input = piece ++ rest ∧ ∀ more, RecordStart idSize (piece ++ more) more := by
  induction start with
  | refl => exact ⟨[], rfl, fun more => .refl⟩
  | tail _ next ih =>
    obtain ⟨front, rfl, before⟩ := ih
    obtain ⟨piece, rfl, after⟩ := nextRecord_piece next
    refine ⟨front ++ piece, by simp, fun more => ?_⟩
    rw [List.append_assoc]
    exact (before _).tail (after more)

theorem opens_piece (opens : Opens input idSize rest) :
    ∃ piece, input = piece ++ rest ∧ ∀ more, Opens (piece ++ more) idSize more := by
  obtain ⟨header, ids, time, noNul, magic, sized, size, timed, rfl⟩ := opens.parts
  refine ⟨header ++ (0 :: (ids ++ time)), by simp, fun more => ⟨opens.supported, ?_⟩⟩
  exact ⟨header, ids, time, noNul, magic, sized, size, timed, by simp⟩

theorem shortRecord_append (short : ShortRecord idSize here) (more : Bytes) :
    ShortRecord idSize (here ++ more) := by
  obtain ⟨tag, time, size, body, rest, timed, sized, whole, tooShort, rfl⟩ := short
  exact ⟨tag, time, size, body, rest ++ more, timed, sized, whole, tooShort, by simp⟩

end pieces

section files
variable {input rest here : Bytes}

theorem eq_nil_of_recordRound {t : Session Process}
    (ended : (recordRound ()).run ⟨here, process⟩ = .ok (.inr ()) t) : here = [] := by
  by_contra some
  rcases Nat.lt_or_ge here.length 9 with short | enough
  · obtain ⟨e, t, failed⟩ := recordRound_short process some short
    rw [failed] at ended
    cases ended
  obtain ⟨tag, input, rfl⟩ := List.exists_cons_of_ne_nil some
  rw [List.length_cons] at enough
  obtain ⟨time, input, rfl, timed⟩ := exists_header (by omega : 4 ≤ input.length)
  rw [List.length_append] at enough
  obtain ⟨size, input, rfl, sized⟩ := exists_header (by omega : 4 ≤ input.length)
  rw [recordRound_header _ _ timed sized, run_bind] at ended
  cases ran : (parseRecord tag (.ofNat (bigEndian size))).run ⟨input, process⟩ with
  | ok a t =>
    rw [ran] at ended
    cases ended
  | error stop t =>
    rw [ran] at ended
    cases ended

theorem recordRound_of_long (ready : Ready idSize process) (next : NextRecord idSize here rest)
    (long : ¬ ShortRecord idSize here) :
    ∃ after, Ready idSize after ∧
      (recordRound ()).run ⟨here, process⟩ = .ok (.inl ()) ⟨rest, after⟩ := by
  rcases recordRound_of_next ready next with taken | ⟨t, panicked⟩
  · exact taken
  rcases recordRound_cases ready here with ran | ⟨_, _, _, _, _, ran⟩ | ⟨e, t, ran⟩ | ⟨short, _⟩
  · rw [ran] at panicked
    cases panicked
  · rw [ran] at panicked
    cases panicked
  · rw [ran] at panicked
    cases panicked
  · exact absurd short long

theorem runsTo_of_recordStart (ready : Ready idSize process) (start : RecordStart idSize rest here)
    (long : ∀ here, RecordStart idSize rest here → ¬ ShortRecord idSize here) :
    ∃ after, Ready idSize after ∧
      RunsTo recordRound ((), ⟨rest, process⟩) ((), ⟨here, after⟩) := by
  induction start with
  | refl => exact ⟨process, ready, .refl⟩
  | tail before next ih =>
    obtain ⟨between, betweenReady, run⟩ := ih
    obtain ⟨after, afterReady, ran⟩ := recordRound_of_long betweenReady next (long _ before)
    exact ⟨after, afterReady, run.tail ran⟩

def Accepts (input : Bytes) (process : Process) : Prop :=
  ∃ t, parse.run ⟨input, process⟩ = .ok () t

instance decidableAccepts (input : Bytes) (process : Process) : Decidable (Accepts input process) :=
  match ran : parse.run ⟨input, process⟩ with
  | .ok _ t => isTrue ⟨t, ran⟩
  | .error _ _ => isFalse fun ⟨t, ok⟩ => by
    rw [ran] at ok
    cases ok

/-- No record that `Parse` comes to is too short for its fields. -/
def NoShort (input : Bytes) : Prop :=
  ∀ idSize rest here, Opens input idSize rest → RecordStart idSize rest here →
    ¬ ShortRecord idSize here

theorem noShort_of_accepts (accepts : Accepts input process) : NoShort input :=
  (parse_returns_iff input process).mp (.inl accepts)

theorem accepts_iff : Accepts input process ↔
    NoShort input ∧ ∃ idSize rest, Opens input idSize rest ∧ RecordStart idSize rest [] := by
  constructor
  · intro accepts
    refine ⟨noShort_of_accepts accepts, ?_⟩
    obtain ⟨t, ran⟩ := accepts
    rcases parse_cases input process with ⟨idSize, rest, opens⟩ | ⟨e, t', failed⟩
    · have consuming := recordRound_consuming idSize
      have ready : Ready idSize
          ((), (⟨rest, withIdSize process idSize⟩ : Session Process)).2.state := opens.ready process
      obtain ⟨last, result, run, ending⟩ := exists_last_round consuming ready
      have start := recordStart_of_runsTo ready run
      rw [run_parse opens, run_loop consuming ready run ending] at ran
      rw [ran] at ending
      cases round : (recordRound last.1).run last.2 with
      | ok a t =>
        rw [round] at ending
        cases a with
        | inl next => exact ending.elim
        | inr u =>
          rw [eq_nil_of_recordRound round] at start
          exact ⟨idSize, rest, opens, start⟩
      | error stop t =>
        rw [round] at ending
        cases ending
    · rw [failed] at ran
      cases ran
  · rintro ⟨long, idSize, rest, opens, start⟩
    have ready := opens.ready process
    obtain ⟨after, afterReady, run⟩ :=
      runsTo_of_recordStart ready start fun here reached => long idSize rest here opens reached
    refine ⟨⟨[], after⟩, ?_⟩
    rw [run_parse opens]
    exact run_loop (recordRound_consuming idSize) ready run rfl

/-- The offsets at which `Parse` starts to read a tag, the end of the file among them. -/
def tagOffsets (input : Bytes) (process : Process) : Set Nat :=
  { offset | ∃ idSize rest s, Opens input idSize rest ∧
    RunsTo recordRound ((), ⟨rest, withIdSize process idSize⟩) ((), s) ∧
    offset + s.input.length = input.length }

theorem mem_tagOffsets_iff (long : NoShort input) {offset : Nat} :
    offset ∈ tagOffsets input process ↔ ∃ idSize rest here, Opens input idSize rest ∧
      RecordStart idSize rest here ∧ offset + here.length = input.length := by
  constructor
  · rintro ⟨idSize, rest, s, opens, run, size⟩
    exact ⟨idSize, rest, s.input, opens, recordStart_of_runsTo (opens.ready process) run, size⟩
  · rintro ⟨idSize, rest, here, opens, start, size⟩
    obtain ⟨after, _, run⟩ := runsTo_of_recordStart (opens.ready process) start
      fun here reached => long idSize rest here opens reached
    exact ⟨idSize, rest, ⟨here, after⟩, opens, run, size⟩

theorem noShort_of_append {front more : Bytes} (long : NoShort (front ++ more)) :
    NoShort front := by
  intro idSize rest here opens start short
  obtain ⟨head, rfl, opensAt⟩ := opens_piece opens
  obtain ⟨piece, rfl, startsAt⟩ := recordStart_piece start
  have opened : Opens (head ++ (piece ++ here) ++ more) idSize (piece ++ (here ++ more)) := by
    have there := opensAt (piece ++ (here ++ more))
    simpa using there
  exact long idSize _ _ opened (startsAt _) (shortRecord_append short more)

theorem accepts_front_iff {front more : Bytes} (accepts : Accepts (front ++ more) process)
    (process' : Process) :
    Accepts front process' ↔ front.length ∈ tagOffsets (front ++ more) process := by
  have long := noShort_of_accepts accepts
  rw [accepts_iff, mem_tagOffsets_iff long, and_iff_right (noShort_of_append long)]
  constructor
  · rintro ⟨idSize, rest, opens, start⟩
    obtain ⟨head, rfl, opensAt⟩ := opens_piece opens
    obtain ⟨piece, rfl, startsAt⟩ := recordStart_piece start
    refine ⟨idSize, piece ++ more, more, ?_, startsAt more, by simp [Nat.add_assoc]⟩
    have there := opensAt (piece ++ more)
    simpa using there
  · rintro ⟨idSize, rest, here, opens, start, size⟩
    obtain ⟨head, whole, opensAt⟩ := opens_piece opens
    obtain ⟨piece, rfl, startsAt⟩ := recordStart_piece start
    rw [← List.append_assoc] at whole
    have same : front = head ++ piece := by
      have lengths : (front ++ more).length = (head ++ piece ++ here).length := by rw [whole]
      refine (List.append_inj whole ?_).1
      simp only [List.length_append] at lengths size ⊢
      omega
    refine ⟨idSize, piece, ?_, ?_⟩
    · rw [same]
      exact opensAt piece
    · have there := startsAt []
      rwa [List.append_nil] at there

/-- Truncation is noticed everywhere but where a record starts. -/
theorem truncated_iff {whole front : Bytes} (process process' : Process)
    (accepts : Accepts whole process) (cut : front <+: whole) :
    (Accepts front process' ↔ front.length ∈ tagOffsets whole process) ∧
      (front.length ∉ tagOffsets whole process →
        ∃ e t, parse.run ⟨front, process'⟩ = .error (.error e) t) := by
  obtain ⟨more, rfl⟩ := cut
  have boundary := accepts_front_iff accepts process'
  refine ⟨boundary, fun inside => ?_⟩
  have long := noShort_of_append (noShort_of_accepts accepts)
  rcases (parse_returns_iff front process').mpr long with accepted | failed
  · exact absurd (boundary.mp accepted) inside
  · exact failed

def endedFile : Bytes :=
  ascii "JAVA PROFILE 1.0.2" ++ (0 :: (encode 4 4 ++ (encode 8 0 ++ (0x2C :: encode 8 0))))

theorem truncated_iff_endedFile : Accepts endedFile ⟨newHPROFParser, []⟩ ∧
    (Accepts (endedFile.take 35) ⟨newHPROFParser, []⟩ ↔
      (endedFile.take 35).length ∈ tagOffsets endedFile ⟨newHPROFParser, []⟩) ∧
    ((endedFile.take 35).length ∉ tagOffsets endedFile ⟨newHPROFParser, []⟩ →
      ∃ e t, parse.run ⟨endedFile.take 35, newHPROFParser, []⟩ = .error (.error e) t) := by
  have accepts : Accepts endedFile ⟨newHPROFParser, []⟩ := by decide +kernel
  exact ⟨accepts, truncated_iff _ _ accepts (List.take_prefix _ _)⟩

end files

end DropPlatform.HprofBoundaries
