import DropPlatform.HprofFraming
import DropPlatform.HprofSubRecords

/-! Parsing what was written. Each record changes the parser and the string table in one
way, and the tables after a whole dump are those that its records describe. -/

namespace DropPlatform.HprofRoundTrip
open ByteReaders KeyedStores HprofParser HprofFormat HprofSteps HprofSubRecords HprofFraming

section records
variable {idSize : Nat} {process : Process} {rest : Bytes}

def applyBody (process : Process) : RecordBody idSize → Process
  | .string id text => { process with stringMap := set process.stringMap (.ofNat id) text }
  | .loadClass serial classId _ nameId =>
    let name := shownName (get process.stringMap (.ofNat nameId))
    { process with
      p.classes := set process.p.classes (.ofNat classId)
        (some ⟨.ofNat serial, .ofNat classId, name⟩) }
  | .heapDump _ objects => (objects.map SubRecord.object).foldl apply process
  | .other _ _ _ => process

theorem flatMap_object (objects : List (ObjectDump idSize)) :
    (objects.map SubRecord.object).flatMap SubRecord.encode =
      objects.flatMap ObjectDump.encode := by
  rw [List.flatMap_map]
  rfl

theorem run_parseRecord_string (ready : Ready idSize process) (id : Word idSize) (text : Bytes)
    {length : UInt32} (sized : (word id ++ text).length = length.toNat) :
    (parseRecord tagString length).run ⟨word id ++ text ++ rest, process⟩ =
      .ok () ⟨rest, applyBody process (.string id text)⟩ := by
  have first : cut (word id ++ text) 0 idSize = word id :=
    cut_middle [] (word id) text rfl rfl (by rw [length_word, Nat.zero_add])
  have second : cut (word id ++ text) idSize (word id ++ text).length = text := by
    apply cut_middle (word id) text []
    · rw [List.append_nil]
    · rw [length_word]
    · rw [List.length_append, length_word]
  have long : idSize ≤ (word id ++ text).length := by
    rw [List.length_append, length_word]
    omega
  have ran : (parseString length).run ⟨word id ++ text ++ rest, process⟩ = _ :=
    run_parseString ready sized long
  rw [first, second, bigEndian_word] at ran
  exact ran

theorem run_parseRecord_loadClass (ready : Ready idSize process) (serial : Word 4)
    (classId : Word idSize) (stack : Word 4) (nameId : Word idSize) {length : UInt32}
    (sized : (word serial ++ word classId ++ word stack ++ word nameId).length = length.toNat) :
    (parseRecord tagLoadClass length).run
      ⟨word serial ++ word classId ++ word stack ++ word nameId ++ rest, process⟩ =
      .ok () ⟨rest, applyBody process (.loadClass serial classId stack nameId)⟩ := by
  obtain ⟨size, first, _, fourth⟩ := cut_fourParts (length_word serial) (length_word classId)
    (length_word stack) (length_word nameId)
  have second : cut (word serial ++ word classId ++ word stack ++ word nameId) 4 (4 + idSize) =
      word classId := by
    apply cut_middle (word serial) (word classId) (word stack ++ word nameId)
    · simp only [List.append_assoc]
    · rw [length_word]
    · rw [length_word]
  have ran : (parseLoadClass length).run
      ⟨word serial ++ word classId ++ word stack ++ word nameId ++ rest, process⟩ = _ :=
    run_parseLoadClass ready sized size.ge
  rw [first, second, fourth, bigEndian_word, bigEndian_word, bigEndian_word] at ran
  exact ran

theorem run_parseRecord (ready : Ready idSize process) (record : Record idSize) :
    (parseRecord record.body.tag (.ofNat record.body.encode.length)).run
      ⟨record.body.encode ++ rest, process⟩ = .ok () ⟨rest, applyBody process record.body⟩ := by
  have sized := toNat_ofNat_uint32 record.short
  obtain ⟨time, body, short⟩ := record
  cases body with
  | string id text => exact run_parseRecord_string ready id text sized.symm
  | loadClass serial classId stack nameId =>
    exact run_parseRecord_loadClass ready serial classId stack nameId sized.symm
  | heapDump segment objects =>
    have heap : IsHeap (RecordBody.heapDump segment objects).tag := by
      cases segment
      · exact .inl rfl
      · exact .inr rfl
    have benign : ∀ sub ∈ objects.map SubRecord.object, Benign sub := by
      intro sub member
      obtain ⟨dump, _, rfl⟩ := List.mem_map.mp member
      trivial
    rw [parseRecord_heap heap]
    simp only [RecordBody.encode, ← flatMap_object] at short sized ⊢
    exact run_parseHeapDump ready benign short sized
  | other tag unknown bytes =>
    simp only [knownTags, List.mem_cons, List.not_mem_nil, or_false, not_or] at unknown
    obtain ⟨string, loadClass, heapDump, heapDumpSeg⟩ := unknown
    have plain : ¬ IsHeap tag := not_or.mpr ⟨heapDump, heapDumpSeg⟩
    simp only [RecordBody.tag, parseRecord_other string loadClass plain]
    exact run_discard_append _ _ sized.symm

theorem ready_applyBody (ready : Ready idSize process) (body : RecordBody idSize) :
    Ready idSize (applyBody process body) := by
  cases body with
  | heapDump segment objects =>
    simp only [applyBody]
    induction objects generalizing process with
    | nil => exact ready
    | cons dump objects ih => exact ih (ready_apply ready (.object dump))
  | _ => exact ⟨ready.cases, ready.current⟩

theorem continues_record (ready : Ready idSize process) (record : Record idSize) :
    Continues recordRound ((), ⟨record.encode ++ rest, process⟩)
      ((), ⟨rest, applyBody process record.body⟩) := by
  have short := record.short
  have sized := length_encode 4 record.body.encode.length
  have parts : record.encode ++ rest = record.body.tag :: (word record.time ++
      (encode 4 record.body.encode.length ++ (record.body.encode ++ rest))) := by
    simp only [Record.encode, List.cons_append, List.append_assoc]
  unfold Continues
  rw [parts, recordRound_header _ _ (length_word record.time) sized, bigEndian_encode short]
  simp only [run_bind, run_parseRecord ready record, run_pure]

theorem runsTo_records (ready : Ready idSize process) (records : List (Record idSize)) :
    RunsTo recordRound ((), ⟨records.flatMap Record.encode, process⟩)
      ((), ⟨[], records.foldl (fun q record => applyBody q record.body) process⟩) := by
  induction records generalizing process with
  | nil => exact .refl
  | cons record records ih =>
    rw [List.flatMap_cons]
    exact .head (continues_record ready record) (ih (ready_applyBody ready record.body))

end records

section tables
variable {idSize : Nat}

/-- The parser and the string table after the records, from empty tables. -/
def tablesOf (records : List (Record idSize)) : Process :=
  records.foldl (fun q record => applyBody q record.body) (withIdSize ⟨newHPROFParser, []⟩ idSize)

theorem tablesOf_snoc (records : List (Record idSize)) (record : Record idSize) :
    tablesOf (records ++ [record]) = applyBody (tablesOf records) record.body := by
  rw [tablesOf, List.foldl_append]
  rfl

theorem ofNat_eq_iff (supported : idSize = 4 ∨ idSize = 8) (n : Word idSize) (key : UInt64) :
    UInt64.ofNat n = key ↔ (n : Nat) = key.toNat := by
  rw [← UInt64.toNat_inj, toNat_ofNat_word supported]

theorem apply_objects_tables (objects : List (ObjectDump idSize)) (process : Process) :
    ((objects.map SubRecord.object).foldl apply process).stringMap = process.stringMap ∧
      ((objects.map SubRecord.object).foldl apply process).p.classes = process.p.classes := by
  induction objects generalizing process with
  | nil => exact ⟨rfl, rfl⟩
  | cons dump objects ih => exact ih (apply process (.object dump))

theorem get_stringMap (supported : idSize = 4 ∨ idSize = 8) (records : List (Record idSize))
    (key : UInt64) :
    get (tablesOf records).stringMap key = stringOf key.toNat records.reverse := by
  induction records using List.reverseRecOn with
  | nil => rfl
  | append_singleton records record ih =>
    rw [tablesOf_snoc, List.reverse_append, List.reverse_singleton, List.singleton_append,
      stringOf]
    cases record.body with
    | string id text => simp only [applyBody, get_set, ofNat_eq_iff supported, ih]
    | loadClass serial classId stack nameId => exact ih
    | heapDump segment objects =>
      simp only [applyBody, (apply_objects_tables objects _).1, ih]
    | other tag unknown bytes => exact ih

theorem get_classes (supported : idSize = 4 ∨ idSize = 8) (records : List (Record idSize))
    (key : UInt64) :
    get (tablesOf records).p.classes key = classOf key.toNat records.reverse := by
  induction records using List.reverseRecOn with
  | nil => rfl
  | append_singleton records record ih =>
    rw [tablesOf_snoc, List.reverse_append, List.reverse_singleton, List.singleton_append, classOf]
    cases record.body with
    | string id text => exact ih
    | loadClass serial classId stack nameId =>
      simp only [applyBody, get_set, get_stringMap supported, toNat_ofNat_word supported]
      by_cases same : UInt64.ofNat classId = key
      · rw [if_pos same, if_pos ((ofNat_eq_iff supported classId key).mp same), same,
          UInt64.ofNat_toNat]
      · rw [if_neg same, if_neg (mt (ofNat_eq_iff supported classId key).mpr same), ih]
    | heapDump segment objects =>
      simp only [applyBody, (apply_objects_tables objects _).2, ih]
    | other tag unknown bytes => exact ih

theorem findings_objects (objects : List (ObjectDump idSize)) :
    (objects.map SubRecord.object).flatMap SubRecord.findings = objects.map ObjectDump.finding := by
  induction objects with
  | nil => rfl
  | cons dump objects ih =>
    rw [List.map_cons, List.flatMap_cons, ih]
    rfl

theorem reported_objects (supported : idSize = 4 ∨ idSize = 8) (records : List (Record idSize)) :
    (tablesOf records).p.objects.map reported = records.flatMap Record.findings := by
  induction records using List.reverseRecOn with
  | nil => rfl
  | append_singleton records record ih =>
    rw [tablesOf_snoc, List.flatMap_append, List.flatMap_singleton, ← ih]
    obtain ⟨time, body, short⟩ := record
    cases body with
    | heapDump segment objects =>
      simp only [RecordBody.encode, ← flatMap_object] at short
      simp only [applyBody, Record.findings, reported_foldl_apply supported short,
        findings_objects]
    | _ => simp [applyBody, Record.findings]

end tables

theorem opens_encode (dump : Dump) :
    Opens dump.encode dump.idSize.bytes (dump.records.flatMap Record.encode) := by
  have supported := dump.idSize.bytes_cases
  have small : dump.idSize.bytes < 256 ^ 4 := by omega
  refine ⟨supported, dump.header, encode 4 dump.idSize.bytes, word dump.timestamp, dump.noNul,
    dump.magic, length_encode _ _, bigEndian_encode small, length_word _, ?_⟩
  simp only [Dump.encode, List.append_assoc, List.cons_append, List.nil_append]

/-- A written dump is read back: every object in order, and every class with its name. -/
theorem parse_encode (dump : Dump) :
    ∃ p stringMap, parse.run ⟨dump.encode, newHPROFParser, []⟩ = .ok () ⟨[], p, stringMap⟩ ∧
      p.objects.map reported = dump.records.flatMap Record.findings ∧
      ∀ id, get p.classes id = classOf id.toNat dump.records.reverse := by
  have opens := opens_encode dump
  have supported := dump.idSize.bytes_cases
  have ready := opens.ready ⟨newHPROFParser, []⟩
  have ran : (loop recordRound ()).run ⟨dump.records.flatMap Record.encode,
      withIdSize ⟨newHPROFParser, []⟩ dump.idSize.bytes⟩ = .ok () ⟨[], tablesOf dump.records⟩ := by
    apply run_loop (recordRound_consuming dump.idSize.bytes) ready
      (runsTo_records ready dump.records)
    rfl
  exact ⟨_, _, (run_parse opens _).trans ran, reported_objects supported dump.records,
    get_classes supported dump.records⟩

end DropPlatform.HprofRoundTrip
