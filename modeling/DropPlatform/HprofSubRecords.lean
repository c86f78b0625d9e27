import DropPlatform.HprofSteps

/-! Sub-records of a heap dump record against what the parser takes for them. Objects are
taken to the byte. The size the parser assumes for a GC root is four bytes too large for
each of the nine kinds, and that of a class dump leaves out its tables. -/

namespace DropPlatform.HprofSubRecords
open ByteReaders HprofParser HprofFormat HprofSteps

section objects
variable {idSize : Nat}

def objectLayout : ObjectDump idSize → Layout
  | .instanceDump _ _ _ _ => instanceLayout idSize
  | .objArrayDump _ _ _ _ => objArrayLayout idSize
  | .primArrayDump _ _ _ _ _ _ => primArrayLayout idSize

theorem layout_objectTag (dump : ObjectDump idSize) :
    layout idSize dump.tag = some (objectLayout dump) := by
  cases dump <;> rfl

def stored (dump : ObjectDump idSize) : HeapObject :=
  let size := .ofNat dump.payload.length
  match dump with
  | .instanceDump id _ classId _ => ⟨.ofNat id, .ofNat classId, size, .ofInstance⟩
  | .objArrayDump id _ classId _ => ⟨.ofNat id, .ofNat classId, size, .objarray⟩
  | .primArrayDump id _ _ _ _ _ => ⟨.ofNat id, 0, size, .primarray⟩

theorem length_flatMap_word (elements : List (Word idSize)) :
    (elements.flatMap word).length = elements.length * idSize := by
  induction elements with
  | nil => simp
  | cons n elements ih =>
    rw [List.flatMap_cons, List.length_append, length_word, ih, List.length_cons]
    ring

/-- The header tells the size of the payload and everything the object is made of. -/
structure Announces (layout : Layout) (header payload : Bytes) (obj : HeapObject) : Prop where
  fits : layout.Fits header payload
  object : layout.object header = some obj

theorem instance_announces (id : Word idSize) (stack : Word 4) (classId : Word idSize)
    (fields : Bytes) (short : fields.length < 256 ^ 4) :
    Announces (instanceLayout idSize) (ObjectDump.instanceDump id stack classId fields).header
      fields (stored (.instanceDump id stack classId fields)) := by
  have count := length_encode 4 fields.length
  obtain ⟨size, objID, classObjID, numFields⟩ :=
    cut_fourParts (length_word id) (length_word stack) (length_word classId) count
  refine ⟨⟨size, ?_⟩, ?_⟩
  · simp only [instanceLayout, ObjectDump.header, numFields, bigEndian_encode short]
  · simp only [instanceLayout, ObjectDump.header, numFields, objID, classObjID, bigEndian_word,
      bigEndian_encode short, stored, ObjectDump.payload]

theorem objArray_announces (id : Word idSize) (stack : Word 4) (classId : Word idSize)
    (elements : List (Word idSize)) (fewer : elements.length < 256 ^ 4) :
    Announces (objArrayLayout idSize) (ObjectDump.objArrayDump id stack classId elements).header
      (elements.flatMap word) (stored (.objArrayDump id stack classId elements)) := by
  have total := length_flatMap_word elements
  have count := length_encode 4 elements.length
  obtain ⟨size, arrayID, numElements, elemClassID⟩ :=
    cut_fourParts (length_word id) (length_word stack) count (length_word classId)
  refine ⟨⟨size, ?_⟩, ?_⟩
  · simp only [objArrayLayout, ObjectDump.header, numElements, bigEndian_encode fewer, total]
  · simp only [objArrayLayout, ObjectDump.header, numElements, arrayID, elemClassID,
      bigEndian_word, bigEndian_encode fewer, stored, ObjectDump.payload, total,
      UInt32.ofNat_mul]

theorem primArray_announces (id : Word idSize) (stack : Word 4) (type : PrimType) (count : Nat)
    (elements : Bytes) (sized : elements.length = count * type.size) (fewer : count < 256 ^ 4) :
    Announces (primArrayLayout idSize)
      (ObjectDump.primArrayDump id stack type count elements sized).header elements
      (stored (.primArrayDump id stack type count elements sized)) := by
  have four := length_encode 4 count
  have one : [type.code].length = 1 := rfl
  obtain ⟨size, arrayID, numElements, elemType⟩ :=
    cut_fourParts (length_word id) (length_word stack) four one
  have each : elemSize idSize (word id ++ word stack ++ encode 4 count ++ [type.code]) =
      type.size := by
    rw [elemSize, elemType, List.headD_cons, primTypeSize_code]
  refine ⟨⟨size, ?_⟩, ?_⟩
  · simp only [primArrayLayout, ObjectDump.header, numElements, each, bigEndian_encode fewer,
      sized]
  · simp only [primArrayLayout, ObjectDump.header, numElements, each, arrayID, bigEndian_word,
      bigEndian_encode fewer, stored, ObjectDump.payload, sized, UInt32.ofNat_mul]

theorem object_announces (dump : ObjectDump idSize) (counted : dump.count < 256 ^ 4) :
    Announces (objectLayout dump) dump.header dump.payload (stored dump) := by
  cases dump with
  | instanceDump id stack classId fields => exact instance_announces id stack classId fields counted
  | objArrayDump id stack classId elements =>
    exact objArray_announces id stack classId elements counted
  | primArrayDump id stack type count elements sized =>
    exact primArray_announces id stack type count elements sized counted

theorem count_lt (supported : idSize = 4 ∨ idSize = 8) {dump : ObjectDump idSize}
    (short : dump.payload.length < 256 ^ 4) : dump.count < 256 ^ 4 := by
  have positive : 0 < idSize := by omega
  refine Nat.lt_of_le_of_lt ?_ short
  cases dump with
  | instanceDump id stack classId fields => exact Nat.le_refl _
  | objArrayDump id stack classId elements =>
    rw [ObjectDump.payload, length_flatMap_word]
    exact Nat.le_mul_of_pos_right elements.length positive
  | primArrayDump id stack type count elements sized =>
    rw [ObjectDump.payload, sized]
    exact Nat.le_mul_of_pos_right count type.size_bounds.1

theorem toNat_ofNat_word (supported : idSize = 4 ∨ idSize = 8) (n : Word idSize) :
    (UInt64.ofNat n).toNat = n := by
  have bound := n.isLt
  apply toNat_ofNat_uint64
  rcases supported with rfl | rfl <;> omega

theorem payload_lt {dump : ObjectDump idSize} (short : dump.body.length < 256 ^ 4) :
    dump.payload.length < 256 ^ 4 := by
  rw [ObjectDump.body, List.length_append] at short
  omega

theorem reported_stored (supported : idSize = 4 ∨ idSize = 8) (dump : ObjectDump idSize)
    (short : dump.payload.length < 256 ^ 4) : reported (stored dump) = dump.finding := by
  have sizeFits := toNat_ofNat_uint32 short
  cases dump <;>
    simp only [reported, stored, ObjectDump.finding, toNat_ofNat_word supported, sizeFits,
      UInt64.toNat_zero]

end objects

section subRecords
variable {idSize : Nat}

def apply (process : Process) : SubRecord idSize → Process
  | .object dump => { process with p := process.p.addObject (stored dump) }
  | .gcRoot _ | .classDump _ => process

/-- No GC root, and no class dump except those whose three tables take 16 bytes. -/
def Benign : SubRecord idSize → Prop
  | .gcRoot _ => False
  | .classDump dump => dump.tables.length = 16
  | .object _ => True

theorem rootSubRecordSize_tag (root : Root idSize) :
    rootSubRecordSize idSize root.tag = root.body.length + 4 := by
  cases root with
  | jniGlobal id ref =>
    have size : rootSubRecordSize idSize subRootJniGlobal = idSize + 4 + idSize := rfl
    simp only [Root.tag, Root.body, size, List.length_append, length_word]
    omega
  | _ =>
    simp only [Root.body, List.length_append, length_word]
    rfl

theorem layout_rootTag (root : Root idSize) :
    layout idSize root.tag =
      some (fixedLayout (rootSubRecordSize idSize root.tag) (.readingRoot root.tag)) := by
  cases root <;> rfl

theorem layout_classTag :
    layout idSize subClassDump =
      some (fixedLayout (classDumpSize idSize) (.reading "reading class dump")) := rfl

theorem length_classBody (dump : ClassDump idSize) :
    dump.body.length = 7 * idSize + 8 + dump.tables.length := by
  simp only [ClassDump.body, List.length_append, length_word]
  ring

variable {process : Process} {remaining : Int} {rest : Bytes}

theorem round_benign (ready : Ready idSize process) (positive : 0 < remaining)
    {sub : SubRecord idSize} (benign : Benign sub) (short : sub.body.length < 256 ^ 4) :
    (heapDumpRound remaining).run ⟨sub.encode ++ rest, process⟩ =
      .ok (.inl (remaining - sub.encode.length)) ⟨rest, apply process sub⟩ := by
  cases sub with
  | gcRoot root => exact benign.elim
  | classDump dump =>
    have size : dump.body.length = classDumpSize idSize := by
      have tables : dump.tables.length = 16 := benign
      rw [length_classBody, tables, classDumpSize]
    have fits : (fixedLayout (classDumpSize idSize) (.reading "reading class dump")).Fits
        dump.body [] := ⟨size, rfl⟩
    have left : remaining - 1 - ((dump.body.length + 0 : Nat) : Int) =
        remaining - ((dump.body.length + 1 : Nat) : Int) := by omega
    have taken : (heapDumpRound remaining).run
        ⟨subClassDump :: (dump.body ++ ([] ++ rest)), process⟩ = _ :=
      heapDumpRound_complete ready positive layout_classTag fits
    rw [List.length_nil, left] at taken
    exact taken
  | object dump =>
    have announces := object_announces dump (count_lt ready.cases (payload_lt short))
    have effect :
        (objectLayout dump).effect dump.header process = apply process (.object dump) := by
      simp only [Layout.effect, announces.object, apply]
    have left : remaining - 1 - ((dump.header.length + dump.payload.length : Nat) : Int) =
        remaining - (((dump.header ++ dump.payload).length + 1 : Nat) : Int) := by
      rw [List.length_append]
      omega
    have taken : (heapDumpRound remaining).run
        ⟨dump.tag :: (dump.header ++ (dump.payload ++ rest)), process⟩ = _ :=
      heapDumpRound_complete ready positive (layout_objectTag dump) announces.fits
    rw [← List.append_assoc, effect, left] at taken
    exact taken

/-- A round of `parseHeapDump` that starts at the sub-record ends right behind it. -/
def SkippedExactly (sub : SubRecord idSize) : Prop :=
  ∀ (remaining : Int) (process : Process) (rest : Bytes), 0 < remaining → Ready idSize process →
    ∃ next, (heapDumpRound remaining).run ⟨sub.encode ++ rest, process⟩ =
      .ok (.inl (remaining - sub.encode.length)) ⟨rest, next⟩

theorem length_of_skipped (supported : idSize = 4 ∨ idSize = 8) {sub : SubRecord idSize}
    (skipped : SkippedExactly sub) {size : Nat} {error : ReadError → ParseError}
    (found : layout idSize sub.tag = some (fixedLayout size error)) : sub.body.length = size := by
  have ready : Ready idSize (withIdSize ⟨newHPROFParser, []⟩ idSize) := ⟨supported, rfl⟩
  obtain ⟨next, ran⟩ := skipped 1 _ [] Int.one_pos ready
  rw [List.append_nil] at ran
  rcases heapDumpRound_cases ready 1 sub.encode with ⟨nothing, _⟩ | taken | ⟨e, t, failed⟩
  · omega
  · obtain ⟨_, tag, layout, header, payload, rest, known, fits, whole, took⟩ := taken
    rw [ran] at took
    simp only [EStateM.Result.ok.injEq, Session.mk.injEq] at took
    obtain ⟨_, rfl, _⟩ := took
    rw [SubRecord.encode, List.cons.injEq] at whole
    obtain ⟨rfl, body⟩ := whole
    rw [found] at known
    cases known
    have empty : payload.length = 0 := fits.payloadSized
    have filled : header.length = size := fits.headerSized
    simp only [body, List.length_append, List.length_nil, empty, filled, Nat.add_zero]
  · rw [ran] at failed
    cases failed

theorem benign_of_skipped (supported : idSize = 4 ∨ idSize = 8) {sub : SubRecord idSize}
    (skipped : SkippedExactly sub) : Benign sub := by
  cases sub with
  | gcRoot root =>
    have size := length_of_skipped supported skipped (layout_rootTag root)
    rw [rootSubRecordSize_tag, SubRecord.body] at size
    exact absurd size (by omega)
  | classDump dump =>
    have size := length_of_skipped supported skipped layout_classTag
    rw [SubRecord.body, length_classBody, classDumpSize] at size
    show dump.tables.length = 16
    omega
  | object dump => trivial

theorem ready_apply (ready : Ready idSize process) (sub : SubRecord idSize) :
    Ready idSize (apply process sub) := by
  cases sub <;> exact ⟨ready.cases, ready.current⟩

theorem length_body_lt {sub : SubRecord idSize} {subs : List (SubRecord idSize)}
    (member : sub ∈ subs) (short : (subs.flatMap SubRecord.encode).length < 256 ^ 4) :
    sub.body.length < 256 ^ 4 := by
  obtain ⟨before, after, rfl⟩ := List.append_of_mem member
  simp only [List.flatMap_append, List.flatMap_cons, List.length_append, SubRecord.encode,
    List.length_cons] at short
  omega

theorem runsTo_benign (ready : Ready idSize process) {subs : List (SubRecord idSize)}
    (benign : ∀ sub ∈ subs, Benign sub)
    (short : (subs.flatMap SubRecord.encode).length < 256 ^ 4) :
    RunsTo heapDumpRound
      ((subs.flatMap SubRecord.encode).length, ⟨subs.flatMap SubRecord.encode ++ rest, process⟩)
      (0, ⟨rest, subs.foldl apply process⟩) := by
  induction subs generalizing process with
  | nil => exact .refl
  | cons sub subs ih =>
    have bodyShort := length_body_lt List.mem_cons_self short
    rw [List.flatMap_cons, List.length_append] at short ⊢
    have positive :
        0 < ((sub.encode.length + (subs.flatMap SubRecord.encode).length : Nat) : Int) := by
      rw [SubRecord.encode, List.length_cons]
      omega
    have left : ((sub.encode.length + (subs.flatMap SubRecord.encode).length : Nat) : Int) -
        sub.encode.length = (subs.flatMap SubRecord.encode).length := by omega
    have round : (heapDumpRound _).run
        ⟨sub.encode ++ (subs.flatMap SubRecord.encode ++ rest), process⟩ = _ :=
      round_benign ready positive (benign sub List.mem_cons_self) bodyShort
    rw [left] at round
    have goesOn : Continues heapDumpRound (_, _) (_, _) := round
    have others := ih (ready_apply ready sub)
      (fun other member => benign other (List.mem_cons_of_mem _ member)) (by omega)
    rw [List.append_assoc]
    exact .head goesOn others

theorem run_parseHeapDump (ready : Ready idSize process) {subs : List (SubRecord idSize)}
    (benign : ∀ sub ∈ subs, Benign sub)
    (short : (subs.flatMap SubRecord.encode).length < 256 ^ 4) {length : UInt32}
    (sized : length.toNat = (subs.flatMap SubRecord.encode).length) :
    (parseHeapDump length).run ⟨subs.flatMap SubRecord.encode ++ rest, process⟩ =
      .ok () ⟨rest, subs.foldl apply process⟩ := by
  rw [parseHeapDump, sized]
  apply run_loop (heapDumpRound_consuming idSize) ready (runsTo_benign ready benign short)
  rfl

theorem reported_foldl_apply (supported : idSize = 4 ∨ idSize = 8)
    {subs : List (SubRecord idSize)}
    (short : (subs.flatMap SubRecord.encode).length < 256 ^ 4) (process : Process) :
    (subs.foldl apply process).p.objects.map reported =
      process.p.objects.map reported ++ subs.flatMap SubRecord.findings := by
  induction subs generalizing process with
  | nil => simp
  | cons sub subs ih =>
    have bodyShort := length_body_lt List.mem_cons_self short
    rw [List.flatMap_cons, List.length_append] at short
    rw [List.foldl_cons, ih (by omega), List.flatMap_cons, ← List.append_assoc]
    congr 1
    cases sub with
    | gcRoot root => simp [apply, SubRecord.findings]
    | classDump dump => simp [apply, SubRecord.findings]
    | object dump =>
      simp [apply, HPROFParser.addObject, SubRecord.findings,
        reported_stored supported dump (payload_lt bodyShort)]

end subRecords

section pieces
variable {idSize : Nat}

/-- What the parser takes for one sub-record, in the terms of the format: an object as it is,
an array whose type the format does not have with one byte for each element, a GC root with
the four bytes behind it, and the fixed part of a class dump with the sixteen bytes behind. -/
inductive Piece (idSize : Nat) : Bytes → Prop
  | object (dump : ObjectDump idSize) (counted : dump.count < 256 ^ 4) : Piece idSize dump.encode
  | untyped (id : Word idSize) (stack count : Word 4) (code : UInt8) (elements : Bytes)
      (unknown : ∀ type : PrimType, type.code ≠ code) (sized : elements.length = count) :
      Piece idSize
        (subPrimArrayDump :: (word id ++ word stack ++ word count ++ [code] ++ elements))
  | root (root : Root idSize) (behind : Bytes) (four : behind.length = 4) :
      Piece idSize (root.tag :: (root.body ++ behind))
  | classDump (fixed behind : Bytes) (sized : fixed.length = 7 * idSize + 8)
      (sixteen : behind.length = 16) : Piece idSize (subClassDump :: (fixed ++ behind))

theorem exists_root {tag : UInt8} {bytes : Bytes} (isRoot : tag ∈ rootTags)
    (size : bytes.length + 4 = rootSubRecordSize idSize tag) :
    ∃ root : Root idSize, root.tag = tag ∧ root.body = bytes := by
  have one : bytes.length + 4 = idSize + 4 → ∃ id : Word idSize, word id = bytes :=
    fun size => exists_word (Nat.add_right_cancel size)
  have two (width : Nat) (size : bytes.length + 4 = idSize + 4 + width) :
      ∃ (id : Word idSize) (n : Word width), bytes = word id ++ word n :=
    exists_twoWords (by omega)
  have three (size : bytes.length + 4 = idSize + 4 + 4 + 4) :
      ∃ (id : Word idSize) (n m : Word 4), bytes = word id ++ word n ++ word m := by
      obtain ⟨id, n, m, rest, rfl, none⟩ :=
        exists_threeWords_append (by omega : bytes.length = idSize + 4 + 4 + 0)
      exact ⟨id, n, m, by rw [List.eq_nil_of_length_eq_zero none, List.append_nil]⟩
  simp only [rootTags, List.mem_cons, List.not_mem_nil, or_false] at isRoot
  rcases isRoot with rfl | rfl | rfl | rfl | rfl | rfl | rfl | rfl | rfl
  · obtain ⟨id, rfl⟩ := one size
    exact ⟨.unknown id, rfl, rfl⟩
  · obtain ⟨id, ref, rfl⟩ := two idSize size
    exact ⟨.jniGlobal id ref, rfl, rfl⟩
  · obtain ⟨id, thread, frame, rfl⟩ := three size
    exact ⟨.jniLocal id thread frame, rfl, rfl⟩
  · obtain ⟨id, thread, frame, rfl⟩ := three size
    exact ⟨.javaFrame id thread frame, rfl, rfl⟩
  · obtain ⟨id, thread, rfl⟩ := two 4 size
    exact ⟨.nativeStack id thread, rfl, rfl⟩
  · obtain ⟨id, rfl⟩ := one size
    exact ⟨.stickyClass id, rfl, rfl⟩
  · obtain ⟨id, thread, rfl⟩ := two 4 size
    exact ⟨.threadBlock id thread, rfl, rfl⟩
  · obtain ⟨id, rfl⟩ := one size
    exact ⟨.monitorUsed id, rfl, rfl⟩
  · obtain ⟨id, thread, stack, rfl⟩ := three size
    exact ⟨.threadObj id thread stack, rfl, rfl⟩

theorem Piece.layout {piece : Bytes} (isPiece : Piece idSize piece) :
    ∃ tag layout header payload, HprofSteps.layout idSize tag = some layout ∧
      layout.Fits header payload ∧ piece = tag :: (header ++ payload) := by
  cases isPiece with
  | object dump counted =>
    exact ⟨dump.tag, _, dump.header, dump.payload, layout_objectTag dump,
      (object_announces dump counted).fits, rfl⟩
  | untyped id stack count code elements unknown sized =>
    have one : [code].length = 1 := rfl
    obtain ⟨size, _, numElements, elemType⟩ :=
      cut_fourParts (length_word id) (length_word stack) (length_word count) one
    refine ⟨subPrimArrayDump, _, _, elements, rfl, ⟨size, ?_⟩, rfl⟩
    simp only [primArrayLayout, elemSize, numElements, elemType, bigEndian_word, List.headD_cons,
      primTypeSize_unknown unknown, sized, Nat.mul_one]
  | root root behind four =>
    refine ⟨root.tag, _, root.body ++ behind, [], layout_rootTag root, ⟨?_, rfl⟩, by simp⟩
    rw [List.length_append, four]
    exact (rootSubRecordSize_tag root).symm
  | classDump fixed behind sized sixteen =>
    refine ⟨subClassDump, _, fixed ++ behind, [], layout_classTag, ⟨?_, rfl⟩, by simp⟩
    rw [List.length_append, sized, sixteen]
    rfl

theorem piece_of_instance {header payload : Bytes}
    (fits : (instanceLayout idSize).Fits header payload) :
    Piece idSize (subInstanceDump :: (header ++ payload)) := by
  obtain ⟨sized, counted⟩ := fits
  obtain ⟨id, stack, classId, last, rfl, four⟩ := exists_threeWords_append sized
  obtain ⟨count, rfl⟩ := exists_word four
  obtain ⟨_, _, _, numFields⟩ :=
    cut_fourParts (length_word id) (length_word stack) (length_word classId) (length_word count)
  simp only [instanceLayout, numFields, bigEndian_word] at counted
  have piece := Piece.object (.instanceDump id stack classId payload) (counted.trans_lt count.isLt)
  rwa [ObjectDump.encode, ObjectDump.body, ObjectDump.header, counted] at piece

theorem piece_of_objArray {header payload : Bytes}
    (fits : (objArrayLayout idSize).Fits header payload) :
    Piece idSize (subObjArrayDump :: (header ++ payload)) := by
  obtain ⟨sized, counted⟩ := fits
  obtain ⟨id, stack, count, last, rfl, width⟩ := exists_threeWords_append sized
  obtain ⟨classId, rfl⟩ := exists_word width
  obtain ⟨_, _, numElements, _⟩ :=
    cut_fourParts (length_word id) (length_word stack) (length_word count) (length_word classId)
  simp only [objArrayLayout, numElements, bigEndian_word] at counted
  obtain ⟨elements, many, rfl⟩ := exists_words counted
  have piece := Piece.object (.objArrayDump id stack classId elements) (many.trans_lt count.isLt)
  rwa [ObjectDump.encode, ObjectDump.body, ObjectDump.header, many] at piece

theorem piece_of_primArray {header payload : Bytes}
    (fits : (primArrayLayout idSize).Fits header payload) :
    Piece idSize (subPrimArrayDump :: (header ++ payload)) := by
  obtain ⟨sized, counted⟩ := fits
  obtain ⟨id, stack, count, last, rfl, one⟩ := exists_threeWords_append sized
  obtain ⟨code, rfl⟩ := List.length_eq_one_iff.mp one
  obtain ⟨_, _, numElements, elemType⟩ :=
    cut_fourParts (length_word id) (length_word stack) (length_word count) one
  simp only [primArrayLayout, elemSize, numElements, elemType, bigEndian_word,
    List.headD_cons] at counted
  by_cases typed : ∃ type : PrimType, type.code = code
  · obtain ⟨type, rfl⟩ := typed
    rw [primTypeSize_code] at counted
    exact .object (.primArrayDump id stack type count payload counted) count.isLt
  · have unknown : ∀ type : PrimType, type.code ≠ code := fun type same => typed ⟨type, same⟩
    rw [primTypeSize_unknown unknown, Nat.mul_one] at counted
    exact .untyped id stack count code payload unknown counted

theorem piece_of_layout {tag : UInt8} {layout : Layout} {header payload : Bytes}
    (found : HprofSteps.layout idSize tag = some layout) (fits : layout.Fits header payload) :
    Piece idSize (tag :: (header ++ payload)) := by
  rw [HprofSteps.layout] at found
  split_ifs at found with root classDump isInstance objArray primArray
  · obtain rfl := Option.some.inj found
    obtain rfl : payload = [] := List.eq_nil_of_length_eq_zero fits.payloadSized
    have size : header.length = rootSubRecordSize idSize tag := fits.headerSized
    have atLeast : 4 ≤ rootSubRecordSize idSize tag := by
      unfold rootSubRecordSize
      dsimp only
      split_ifs <;> omega
    have front : (header.take (header.length - 4)).length + 4 = rootSubRecordSize idSize tag := by
      rw [List.length_take]
      omega
    obtain ⟨gcRoot, rfl, body⟩ := exists_root root front
    have four : (header.drop (header.length - 4)).length = 4 := by
      rw [List.length_drop]
      omega
    have piece := Piece.root gcRoot _ four
    rwa [body, List.take_append_drop, ← List.append_nil header] at piece
  · obtain rfl := Option.some.inj found
    obtain rfl : payload = [] := List.eq_nil_of_length_eq_zero fits.payloadSized
    have size : header.length = 7 * idSize + 8 + 16 := fits.headerSized
    have fixed : (header.take (7 * idSize + 8)).length = 7 * idSize + 8 := by
      rw [List.length_take]
      omega
    have behind : (header.drop (7 * idSize + 8)).length = 16 := by
      rw [List.length_drop]
      omega
    have piece := Piece.classDump _ _ fixed behind
    rwa [List.take_append_drop, ← List.append_nil header, ← classDump] at piece
  · obtain rfl := Option.some.inj found
    exact isInstance ▸ piece_of_instance fits
  · obtain rfl := Option.some.inj found
    exact objArray ▸ piece_of_objArray fits
  · obtain rfl := Option.some.inj found
    exact primArray ▸ piece_of_primArray fits

end pieces

structure HeapRecord (idSize : IdSize) where
  subs : List (SubRecord idSize.bytes)
  short : (subs.flatMap SubRecord.encode).length < 256 ^ 4

def HeapRecord.encode {idSize : IdSize} (record : HeapRecord idSize) : Bytes :=
  record.subs.flatMap SubRecord.encode

/-- Every sub-record is skipped at its length, and the record as a whole is accepted, read
to its end, and adds exactly its objects. -/
structure ReadExactly {idSize : IdSize} (record : HeapRecord idSize) : Prop where
  each : ∀ sub ∈ record.subs, SkippedExactly sub
  all : ∀ (process : Process) (rest : Bytes), Ready idSize.bytes process →
    ∃ next, (parseHeapDump (.ofNat record.encode.length)).run ⟨record.encode ++ rest, process⟩ =
      .ok () ⟨rest, next⟩ ∧
    next.p.objects.map reported =
      process.p.objects.map reported ++ record.subs.flatMap SubRecord.findings

theorem readExactly_iff_benign {idSize : IdSize} (record : HeapRecord idSize) :
    ReadExactly record ↔ ∀ sub ∈ record.subs, Benign sub := by
  have supported := idSize.bytes_cases
  constructor
  · intro exactly sub member
    exact benign_of_skipped supported (exactly.each sub member)
  · intro benign
    have sized := toNat_ofNat_uint32 record.short
    refine ⟨?_, ?_⟩
    · intro sub member remaining process rest positive ready
      exact ⟨_, round_benign ready positive (benign sub member)
        (length_body_lt member record.short)⟩
    · intro process rest ready
      exact ⟨_, run_parseHeapDump ready benign record.short sized,
        reported_foldl_apply supported record.short process⟩

def rootOnly : HeapRecord .four := ⟨[.gcRoot (.unknown 1)], by decide⟩

/-- The parser wants four bytes more than the root has. -/
theorem rootOnly_fails :
    (parseHeapDump (.ofNat rootOnly.encode.length)).run
      ⟨rootOnly.encode, withIdSize ⟨newHPROFParser, []⟩ 4⟩ =
      .error (.error (.readingRoot subRootUnknown .unexpectedEOF))
        ⟨[], withIdSize ⟨newHPROFParser, []⟩ 4⟩ := by
  rfl

end DropPlatform.HprofSubRecords
