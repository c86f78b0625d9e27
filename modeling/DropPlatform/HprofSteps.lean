import DropPlatform.HprofFormat

/-! What the single functions of the HPROF parser do, for arbitrary bytes: how each part is
cut, what it costs, and that nothing inside a complete part is out of range. -/

namespace DropPlatform.HprofSteps
open ByteReaders KeyedStores HprofParser HprofFormat

variable {idSize : Nat} {process : Process}

theorem run_getProcess (s : Session Process) : getProcess.run s = .ok s.state s := rfl

theorem run_setProcess (s : Session Process) (next : Process) :
    (setProcess next).run s = .ok () { s with state := next } := rfl

theorem run_loop {α β : Type} {body : β → HprofM (β ⊕ α)} {inv : β × Session Process → Prop}
    {b : β} {s : Session Process} {last : β × Session Process}
    {result : EStateM.Result (Stop ParseError) (Session Process) α} (consuming : Consuming inv body)
    (start : inv (b, s)) (run : RunsTo body (b, s) last)
    (ending : Ending ((body last.1).run last.2) result) : (loop body b).run s = result :=
  iterate_of_runsTo consuming start (Nat.lt_succ_self _) run ending

/-- The parser has accepted the header, so its id size is one of the two. -/
structure Ready (idSize : Nat) (process : Process) : Prop where
  cases : idSize = 4 ∨ idSize = 8
  current : process.p.idSize = idSize

theorem run_readID {buf rest : Bytes} (ready : Ready idSize process)
    (size : buf.length = idSize) :
    (readID buf).run ⟨rest, process⟩ = .ok (.ofNat (bigEndian buf)) ⟨rest, process⟩ := by
  simp only [readID, run_bind, run_getProcess, ready.current]
  rcases ready.cases with four | eight
  · have size4 : buf.length = 4 := by omega
    have widened : (UInt32.ofNat (bigEndian buf)).toUInt64 = UInt64.ofNat (bigEndian buf) := by
      have bound := bigEndian_lt buf
      rw [size4] at bound
      apply UInt64.toNat_inj.mp
      rw [UInt32.toNat_toUInt64, toNat_uint32 size4, toNat_ofNat_uint64 (by omega)]
    rw [if_neg (by omega)]
    simp only [run_bind, run_uint32 size4, run_pure, widened]
  · rw [if_pos eight, run_uint64 (by omega)]

/-- How a sub-record is laid out: a header of fixed size, then a payload whose size the
header tells. An object is added for some of them. -/
structure Layout where
  headerSize : Nat
  headerError : ReadError → ParseError
  payloadSize : Bytes → Nat
  payloadError : ReadError → ParseError
  object : Bytes → Option HeapObject

/-- The sub-record with this layout that these bytes make up. -/
structure Layout.Fits (layout : Layout) (header payload : Bytes) : Prop where
  headerSized : header.length = layout.headerSize
  payloadSized : payload.length = layout.payloadSize header

def Layout.take (layout : Layout) : HprofM Bytes := do
  let header ← readFull layout.headerSize layout.headerError
  let _payload ← readFull (layout.payloadSize header) layout.payloadError
  pure header

def Layout.effect (layout : Layout) (header : Bytes) (process : Process) : Process :=
  match layout.object header with
  | some obj => { process with p := process.p.addObject obj }
  | none => process

def Layout.round (layout : Layout) (remaining : Int) : HprofM (Int ⊕ Unit) := do
  let header ← layout.take
  let process ← getProcess
  setProcess (layout.effect header process)
  pure (.inl (remaining - (layout.headerSize + layout.payloadSize header : Nat)))

def instanceLayout (idSize : Nat) : Layout where
  headerSize := idSize + 4 + idSize + 4
  headerError := .reading "reading instance dump header"
  payloadSize header := bigEndian (cut header (idSize + 4 + idSize) (idSize + 4 + idSize + 4))
  payloadError := .reading "reading instance data"
  object header := some
    { id := .ofNat (bigEndian (cut header 0 idSize))
      classID := .ofNat (bigEndian (cut header (idSize + 4) (idSize + 4 + idSize)))
      size := .ofNat (bigEndian (cut header (idSize + 4 + idSize) (idSize + 4 + idSize + 4)))
      type := .ofInstance }

def objArrayLayout (idSize : Nat) : Layout where
  headerSize := idSize + 4 + 4 + idSize
  headerError := .reading "reading obj array dump header"
  payloadSize header := bigEndian (cut header (idSize + 4) (idSize + 4 + 4)) * idSize
  payloadError := .reading "reading obj array elements"
  object header := some
    { id := .ofNat (bigEndian (cut header 0 idSize))
      classID := .ofNat (bigEndian (cut header (idSize + 4 + 4) (idSize + 4 + 4 + idSize)))
      size := .ofNat (bigEndian (cut header (idSize + 4) (idSize + 4 + 4))) * .ofNat idSize
      type := .objarray }

def elemSize (idSize : Nat) (header : Bytes) : Nat :=
  primTypeSize ((cut header (idSize + 4 + 4) (idSize + 4 + 4 + 1)).headD 0)

def primArrayLayout (idSize : Nat) : Layout where
  headerSize := idSize + 4 + 4 + 1
  headerError := .reading "reading prim array dump header"
  payloadSize header :=
    bigEndian (cut header (idSize + 4) (idSize + 4 + 4)) * elemSize idSize header
  payloadError := .reading "reading prim array elements"
  object header := some
    { id := .ofNat (bigEndian (cut header 0 idSize))
      classID := 0
      size := .ofNat (bigEndian (cut header (idSize + 4) (idSize + 4 + 4))) *
        .ofNat (elemSize idSize header)
      type := .primarray }

def fixedLayout (size : Nat) (error : ReadError → ParseError) : Layout where
  headerSize := size
  headerError := error
  payloadSize _ := 0
  payloadError := error
  object _ := none

def layout (idSize : Nat) (tag : UInt8) : Option Layout :=
  if tag ∈ rootTags then some (fixedLayout (rootSubRecordSize idSize tag) (.readingRoot tag))
  else if tag = subClassDump then
    some (fixedLayout (classDumpSize idSize) (.reading "reading class dump"))
  else if tag = subInstanceDump then some (instanceLayout idSize)
  else if tag = subObjArrayDump then some (objArrayLayout idSize)
  else if tag = subPrimArrayDump then some (primArrayLayout idSize)
  else none

theorem exists_header {input : Bytes} {size : Nat} (enough : size ≤ input.length) :
    ∃ header rest, input = header ++ rest ∧ header.length = size := by
  refine ⟨input.take size, input.drop size, (List.take_append_drop size input).symm, ?_⟩
  rw [List.length_take]
  omega

section rounds
variable {input : Bytes} {remaining : Int}

theorem objectRound_instance (ready : Ready idSize process) :
    (objectRound parseInstanceDump remaining).run ⟨input, process⟩ =
      ((instanceLayout idSize).round remaining).run ⟨input, process⟩ := by
  rcases Nat.lt_or_ge input.length (idSize + 4 + idSize + 4) with short | enough
  · simp only [objectRound, parseInstanceDump, Layout.round, Layout.take, instanceLayout, run_bind,
      run_getProcess, ready.current, run_readFull_short _ _ short]
  · obtain ⟨header, rest, rfl, size⟩ := exists_header enough
    have objID : (cut header 0 idSize).length = idSize := by
      rw [length_cut (by omega)]
      omega
    have classObjID : (cut header (idSize + 4) (idSize + 4 + idSize)).length = idSize := by
      rw [length_cut (by omega)]
      omega
    have numFields : (cut header (idSize + 4 + idSize) (idSize + 4 + idSize + 4)).length = 4 := by
      rw [length_cut (by omega)]
      omega
    simp only [objectRound, parseInstanceDump, Layout.round, Layout.take, instanceLayout, run_bind,
      run_getProcess, ready.current, run_readFull_append _ _ size,
      run_slice (Nat.zero_le _) (by omega : idSize ≤ header.length),
      run_slice (Nat.le_add_right _ _) (by omega : idSize + 4 + idSize ≤ header.length),
      run_slice (Nat.le_add_right _ _) (by omega : idSize + 4 + idSize + 4 ≤ header.length),
      run_readID ready objID, run_readID ready classObjID, run_uint32 numFields,
      toNat_uint32 numFields, run_pure, run_setProcess, Layout.effect, size]
    cases (readFull _ _).run _ <;> rfl

theorem objectRound_objArray (ready : Ready idSize process) :
    (objectRound parseObjArrayDump remaining).run ⟨input, process⟩ =
      ((objArrayLayout idSize).round remaining).run ⟨input, process⟩ := by
  rcases Nat.lt_or_ge input.length (idSize + 4 + 4 + idSize) with short | enough
  · simp only [objectRound, parseObjArrayDump, Layout.round, Layout.take, objArrayLayout, run_bind,
      run_getProcess, ready.current, run_readFull_short _ _ short]
  · obtain ⟨header, rest, rfl, size⟩ := exists_header enough
    have arrayID : (cut header 0 idSize).length = idSize := by
      rw [length_cut (by omega)]
      omega
    have numElements : (cut header (idSize + 4) (idSize + 4 + 4)).length = 4 := by
      rw [length_cut (by omega)]
      omega
    have elemClassID : (cut header (idSize + 4 + 4) (idSize + 4 + 4 + idSize)).length = idSize := by
      rw [length_cut (by omega)]
      omega
    simp only [objectRound, parseObjArrayDump, Layout.round, Layout.take, objArrayLayout, run_bind,
      run_getProcess, ready.current, run_readFull_append _ _ size,
      run_slice (Nat.zero_le _) (by omega : idSize ≤ header.length),
      run_slice (Nat.le_add_right _ _) (by omega : idSize + 4 + 4 ≤ header.length),
      run_slice (Nat.le_add_right _ _) (by omega : idSize + 4 + 4 + idSize ≤ header.length),
      run_readID ready arrayID, run_readID ready elemClassID, run_uint32 numElements,
      toNat_uint32 numElements, run_pure, run_setProcess, Layout.effect, size]
    cases (readFull _ _).run _ <;> rfl

theorem objectRound_primArray (ready : Ready idSize process) :
    (objectRound parsePrimArrayDump remaining).run ⟨input, process⟩ =
      ((primArrayLayout idSize).round remaining).run ⟨input, process⟩ := by
  rcases Nat.lt_or_ge input.length (idSize + 4 + 4 + 1) with short | enough
  · simp only [objectRound, parsePrimArrayDump, Layout.round, Layout.take, primArrayLayout,
      run_bind, run_getProcess, ready.current, run_readFull_short _ _ short]
  · obtain ⟨header, rest, rfl, size⟩ := exists_header enough
    have arrayID : (cut header 0 idSize).length = idSize := by
      rw [length_cut (by omega)]
      omega
    have numElements : (cut header (idSize + 4) (idSize + 4 + 4)).length = 4 := by
      rw [length_cut (by omega)]
      omega
    simp only [objectRound, parsePrimArrayDump, Layout.round, Layout.take, primArrayLayout,
      elemSize, run_bind, run_getProcess, ready.current, run_readFull_append _ _ size,
      run_slice (Nat.zero_le _) (by omega : idSize ≤ header.length),
      run_slice (Nat.le_add_right _ _) (by omega : idSize + 4 + 4 ≤ header.length),
      run_slice (Nat.le_add_right _ _) (by omega : idSize + 4 + 4 + 1 ≤ header.length),
      run_readID ready arrayID, run_uint32 numElements, toNat_uint32 numElements, run_pure,
      run_setProcess, Layout.effect, size]
    cases (readFull _ _).run _ <;> rfl

theorem fixedRound (size : Nat) (error : ReadError → ParseError) :
    (do let _buf ← readFull size error
        pure (.inl (remaining - size)) : HprofM (Int ⊕ Unit)).run ⟨input, process⟩ =
      ((fixedLayout size error).round remaining).run ⟨input, process⟩ := by
  rcases Nat.lt_or_ge input.length size with short | enough
  · simp only [Layout.round, Layout.take, fixedLayout, run_bind, run_readFull_short _ _ short]
  · obtain ⟨header, rest, rfl, sized⟩ := exists_header enough
    simp only [Layout.round, Layout.take, Layout.effect, fixedLayout, run_bind, run_pure,
      run_getProcess, run_setProcess, run_readFull_append _ _ sized, run_readFull_zero,
      Nat.add_zero]

theorem parseSubRecord_layout (ready : Ready idSize process) (tag : UInt8) :
    (parseSubRecord tag remaining).run ⟨input, process⟩ =
      match layout idSize tag with
      | some layout => (layout.round remaining).run ⟨input, process⟩
      | none => .error (.error (.unknownSubRecord tag remaining)) ⟨input, process⟩ := by
  simp only [parseSubRecord, run_bind, run_getProcess, ready.current, layout]
  split_ifs
  · exact fixedRound _ _
  · exact fixedRound _ _
  · exact objectRound_instance ready
  · exact objectRound_objArray ready
  · exact objectRound_primArray ready
  · rfl

theorem heapDumpRound_cons (positive : 0 < remaining) (tag : UInt8) :
    (heapDumpRound remaining).run ⟨tag :: input, process⟩ =
      (parseSubRecord tag (remaining - 1)).run ⟨input, process⟩ := by
  rw [heapDumpRound, if_pos positive]
  simp only [run_bind, run_readFull_one]
  rfl

theorem Layout.Fits.round {layout : Layout} {header payload rest : Bytes}
    (fits : layout.Fits header payload) :
    (layout.round remaining).run ⟨header ++ (payload ++ rest), process⟩ =
      .ok (.inl (remaining - (header.length + payload.length : Nat)))
        ⟨rest, layout.effect header process⟩ := by
  simp only [Layout.round, Layout.take, run_bind, run_pure, run_getProcess, run_setProcess,
    run_readFull_append _ _ fits.headerSized, run_readFull_append _ _ fits.payloadSized,
    fits.headerSized, fits.payloadSized]

theorem Layout.round_cases (layout : Layout) (remaining : Int) (input : Bytes) (process : Process) :
    (∃ header payload rest, input = header ++ (payload ++ rest) ∧ layout.Fits header payload) ∨
    ∃ e, (layout.round remaining).run ⟨input, process⟩ = .error (.error e) ⟨[], process⟩ := by
  rcases Nat.lt_or_ge input.length layout.headerSize with short | enough
  · right
    refine ⟨layout.headerError (shortRead input), ?_⟩
    simp only [Layout.round, Layout.take, run_bind, run_readFull_short _ _ short]
  · obtain ⟨header, rest, rfl, sized⟩ := exists_header enough
    rcases Nat.lt_or_ge rest.length (layout.payloadSize header) with short | enough
    · right
      refine ⟨layout.payloadError (shortRead rest), ?_⟩
      simp only [Layout.round, Layout.take, run_bind, run_readFull_append _ _ sized,
        run_readFull_short _ _ short]
    · left
      obtain ⟨payload, rest, rfl, payloadSized⟩ := exists_header enough
      exact ⟨header, payload, rest, rfl, ⟨sized, payloadSized⟩⟩

theorem Ready.effect (ready : Ready idSize process) (layout : Layout) (header : Bytes) :
    Ready idSize (layout.effect header process) := by
  refine ⟨ready.cases, ?_⟩
  unfold Layout.effect
  split
  · exact ready.current
  · exact ready.current

theorem heapDumpRound_complete (ready : Ready idSize process) {tag : UInt8} {layout : Layout}
    {header payload rest : Bytes} (positive : 0 < remaining)
    (found : HprofSteps.layout idSize tag = some layout) (fits : layout.Fits header payload) :
    (heapDumpRound remaining).run ⟨tag :: (header ++ (payload ++ rest)), process⟩ =
      .ok (.inl (remaining - 1 - (header.length + payload.length : Nat)))
        ⟨rest, layout.effect header process⟩ := by
  rw [heapDumpRound_cons positive, parseSubRecord_layout ready, found]
  exact fits.round

theorem heapDumpRound_cases (ready : Ready idSize process) (remaining : Int) (input : Bytes) :
    remaining ≤ 0 ∧ (heapDumpRound remaining).run ⟨input, process⟩ =
      .ok (.inr ()) ⟨input, process⟩ ∨
    (0 < remaining ∧ ∃ tag layout header payload rest, HprofSteps.layout idSize tag = some layout ∧
      layout.Fits header payload ∧ input = tag :: (header ++ (payload ++ rest)) ∧
      (heapDumpRound remaining).run ⟨input, process⟩ =
        .ok (.inl (remaining - 1 - (header.length + payload.length : Nat)))
          ⟨rest, layout.effect header process⟩) ∨
    ∃ e t, (heapDumpRound remaining).run ⟨input, process⟩ = .error (.error e) t := by
  rcases lt_or_ge 0 remaining with positive | finished
  · right
    cases input with
    | nil =>
      right
      have nothing : ([] : Bytes).length < 1 := Nat.zero_lt_one
      refine ⟨.reading "reading subtag" .eof, ⟨[], process⟩, ?_⟩
      rw [heapDumpRound, if_pos positive]
      simp only [run_bind, run_readFull_short _ _ nothing]
      rfl
    | cons tag input =>
      cases found : layout idSize tag with
      | none =>
        right
        rw [heapDumpRound_cons positive, parseSubRecord_layout ready, found]
        exact ⟨_, _, rfl⟩
      | some layout =>
        rcases layout.round_cases (remaining - 1) input process with complete | ⟨e, failed⟩
        · left
          obtain ⟨header, payload, rest, rfl, fits⟩ := complete
          exact ⟨positive, tag, layout, header, payload, rest, found, fits, rfl,
            heapDumpRound_complete ready positive found fits⟩
        · right
          rw [heapDumpRound_cons positive, parseSubRecord_layout ready, found]
          exact ⟨e, _, failed⟩
  · left
    refine ⟨finished, ?_⟩
    rw [heapDumpRound, if_neg (by omega)]
    rfl

theorem taken_of_continues {here next : Int × Session Process} (ready : Ready idSize here.2.state)
    (goesOn : Continues heapDumpRound here next) :
    0 < here.1 ∧ ∃ tag layout header payload, HprofSteps.layout idSize tag = some layout ∧
      layout.Fits header payload ∧
      here.2.input = tag :: (header ++ (payload ++ next.2.input)) ∧
      next.1 = here.1 - 1 - (header.length + payload.length : Nat) ∧
      Ready idSize next.2.state := by
  have answer : (heapDumpRound here.1).run ⟨here.2.input, here.2.state⟩ =
    .ok (.inl next.1) next.2 := goesOn
  rcases heapDumpRound_cases ready here.1 here.2.input with ⟨_, ran⟩ | taken | ⟨e, t, ran⟩
  · rw [ran] at answer
    cases answer
  · obtain ⟨positive, tag, layout, header, payload, rest, found, fits, whole, ran⟩ := taken
    rw [ran] at answer
    simp only [EStateM.Result.ok.injEq, Sum.inl.injEq] at answer
    rw [← answer.1, ← answer.2]
    exact ⟨positive, tag, layout, header, payload, found, fits, whole, rfl,
      ready.effect layout header⟩
  · rw [ran] at answer
    cases answer

theorem heapDumpRound_consuming (idSize : Nat) :
    Consuming (fun here : Int × Session Process => Ready idSize here.2.state) heapDumpRound := by
  constructor
  · intro here next ready goesOn
    obtain ⟨_, tag, layout, header, payload, _, _, whole, _⟩ := taken_of_continues ready goesOn
    rw [whole]
    simp only [List.length_cons, List.length_append]
    omega
  · intro here next ready goesOn
    obtain ⟨_, _, _, _, _, _, _, _, _, nextReady⟩ := taken_of_continues ready goesOn
    exact nextReady

end rounds

section records
variable {body rest : Bytes} {length : UInt32}

theorem run_parseString (ready : Ready idSize process) (sized : body.length = length.toNat)
    (long : idSize ≤ body.length) :
    (parseString length).run ⟨body ++ rest, process⟩ =
      .ok () ⟨rest, { process with
        stringMap := set process.stringMap (.ofNat (bigEndian (cut body 0 idSize)))
          (cut body idSize body.length) }⟩ := by
  have id : (cut body 0 idSize).length = idSize := by
    rw [length_cut long]
    omega
  simp only [parseString, run_bind, run_readFull_append _ _ sized, run_getProcess, ready.current,
    run_slice (Nat.zero_le _) long, run_readID ready id, run_slice long le_rfl, run_setProcess]

theorem parseString_panics (ready : Ready idSize process) (sized : body.length = length.toNat)
    (short : body.length < idSize) :
    (parseString length).run ⟨body ++ rest, process⟩ = .error .panic ⟨rest, process⟩ := by
  simp only [parseString, run_bind, run_readFull_append _ _ sized, run_getProcess, ready.current,
    run_slice_panics short]

theorem two_le_of_wrapped {name : Bytes} (starts : ascii "L" <+: name)
    (ends : ascii ";" <:+ name) : 2 ≤ name.length := by
  obtain ⟨rest, rfl⟩ := starts
  obtain ⟨front, same⟩ := ends
  cases rest with
  | cons b rest =>
    simp only [List.length_append, List.length_cons]
    have one : (ascii "L").length = 1 := rfl
    omega
  | nil =>
    have last := congrArg List.getLast? same
    simp [ascii] at last

theorem run_displayName (name : Bytes) (s : Session Process) :
    (displayName name).run s = .ok (shownName name) s := by
  unfold displayName shownName
  by_cases wrapped : ascii "L" <+: name ∧ ascii ";" <:+ name
  · have long := two_le_of_wrapped wrapped.1 wrapped.2
    have middle : cut name 1 (name.length - 1) = name.tail.dropLast := by
      rw [cut, ← List.dropLast_eq_take, List.drop_one, List.tail_dropLast]
    simp only [if_pos wrapped, run_bind, run_pure, middle,
      run_slice (by omega : 1 ≤ name.length - 1) (Nat.sub_le _ _)]
  · simp only [if_neg wrapped, run_bind, run_pure]

theorem run_parseLoadClass (ready : Ready idSize process) (sized : body.length = length.toNat)
    (long : 4 + idSize + 4 + idSize ≤ body.length) :
    (parseLoadClass length).run ⟨body ++ rest, process⟩ =
      .ok () ⟨rest, { process with
        p.classes := set process.p.classes (.ofNat (bigEndian (cut body 4 (4 + idSize))))
          (some ⟨.ofNat (bigEndian (cut body 0 4)), .ofNat (bigEndian (cut body 4 (4 + idSize))),
            shownName (get process.stringMap
              (.ofNat (bigEndian (cut body (4 + idSize + 4) (4 + idSize + 4 + idSize)))))⟩) }⟩ := by
  have serial : (cut body 0 4).length = 4 := by
    rw [length_cut (by omega)]
  have classObjID : (cut body 4 (4 + idSize)).length = idSize := by
    rw [length_cut (by omega)]
    omega
  have classNameID : (cut body (4 + idSize + 4) (4 + idSize + 4 + idSize)).length = idSize := by
    rw [length_cut long]
    omega
  simp only [parseLoadClass, run_bind, run_readFull_append _ _ sized, run_getProcess,
    ready.current, run_slice (Nat.zero_le 4) (by omega : 4 ≤ body.length),
    run_slice (Nat.le_add_right _ _) (by omega : 4 + idSize ≤ body.length),
    run_slice (Nat.le_add_right _ _) long, run_uint32 serial, run_readID ready classObjID,
    run_readID ready classNameID, run_displayName, run_setProcess]

theorem parseLoadClass_panics (ready : Ready idSize process) (sized : body.length = length.toNat)
    (short : body.length < 4 + idSize + 4 + idSize) :
    (parseLoadClass length).run ⟨body ++ rest, process⟩ = .error .panic ⟨rest, process⟩ := by
  simp only [parseLoadClass, run_bind, run_readFull_append _ _ sized, run_getProcess,
    ready.current]
  -- the first of the three slices that does not fit
  rcases Nat.lt_or_ge body.length 4 with short | enough
  · simp only [run_slice_panics short]
  have serial : (cut body 0 4).length = 4 := by
    rw [length_cut enough]
  simp only [run_slice (Nat.zero_le 4) enough, run_uint32 serial]
  rcases Nat.lt_or_ge body.length (4 + idSize) with short | enough
  · simp only [run_slice_panics short]
  have classObjID : (cut body 4 (4 + idSize)).length = idSize := by
    rw [length_cut enough]
    omega
  simp only [run_slice (Nat.le_add_right _ _) enough, run_readID ready classObjID,
    run_slice_panics short]

theorem recordRound_nil (process : Process) :
    (recordRound ()).run ⟨[], process⟩ = .ok (.inr ()) ⟨[], process⟩ := rfl

theorem recordRound_header {time size : Bytes} (tag : UInt8) (process : Process)
    (timed : time.length = 4) (sized : size.length = 4) :
    (recordRound ()).run ⟨tag :: (time ++ (size ++ rest)), process⟩ =
      (do parseRecord tag (.ofNat (bigEndian size)); pure (.inl ()) : HprofM (Unit ⊕ Unit)).run
        ⟨rest, process⟩ := by
  have first : (tryReadFull 1 : HprofM _).run ⟨tag :: (time ++ (size ++ rest)), process⟩ =
      .ok (.ok [tag]) ⟨time ++ (size ++ rest), process⟩ := rfl
  simp only [recordRound, run_bind, first, run_readFull_append _ _ timed,
    run_readFull_append _ _ sized, run_uint32 sized, List.headD_cons]

theorem recordRound_short {input : Bytes} (process : Process) (something : input ≠ [])
    (short : input.length < 9) :
    ∃ e t, (recordRound ()).run ⟨input, process⟩ = .error (.error e) t := by
  obtain ⟨tag, input, rfl⟩ := List.exists_cons_of_ne_nil something
  have first : (tryReadFull 1 : HprofM _).run ⟨tag :: input, process⟩ =
      .ok (.ok [tag]) ⟨input, process⟩ := rfl
  rw [List.length_cons] at short
  simp only [recordRound, run_bind, first]
  rcases Nat.lt_or_ge input.length 4 with less | enough
  · simp only [run_readFull_short _ _ less]
    exact ⟨_, _, rfl⟩
  · obtain ⟨time, rest, rfl, timed⟩ := exists_header enough
    rw [List.length_append] at short
    simp only [run_readFull_append _ _ timed, run_readFull_short _ _ (by omega : rest.length < 4)]
    exact ⟨_, _, rfl⟩

end records

section header
variable {rest : Bytes}

theorem headerRound_cons (buf : Bytes) (b : UInt8) :
    (headerRound buf).run ⟨b :: rest, process⟩ =
      .ok (if b = 0 then .inr (buf ++ [b]) else .inl (buf ++ [b])) ⟨rest, process⟩ := by
  simp only [headerRound, run_bind, run_readFull_one]
  by_cases nul : b = 0
  · have found : [b].headD 0 = 0 := nul
    simp only [if_pos found, if_pos nul, run_pure]
  · have another : [b].headD 0 ≠ 0 := nul
    simp only [if_neg another, if_neg nul, run_pure]

theorem headerRound_nil (buf : Bytes) :
    (headerRound buf).run ⟨[], process⟩ =
      .error (.error (.reading "reading hprof header" .eof)) ⟨[], process⟩ := rfl

theorem headerRound_consuming : Consuming (fun _ => True) headerRound := by
  refine ⟨?_, fun _ _ _ _ => trivial⟩
  rintro ⟨buf, input, process⟩ ⟨next, t⟩ _ goesOn
  have answer : (headerRound buf).run ⟨input, process⟩ = .ok (.inl next) t := goesOn
  cases input with
  | nil =>
    rw [headerRound_nil] at answer
    cases answer
  | cons b rest =>
    rw [headerRound_cons] at answer
    split_ifs at answer
    · cases answer
    · cases answer
      exact Nat.lt_succ_self _

theorem headerRound_runsTo {header : Bytes} (noNul : 0 ∉ header) (buf : Bytes) :
    RunsTo headerRound (buf, ⟨header ++ rest, process⟩) (buf ++ header, ⟨rest, process⟩) := by
  induction header generalizing buf with
  | nil => simpa using Relation.ReflTransGen.refl
  | cons b header ih =>
    rw [List.mem_cons, not_or] at noNul
    have goesOn : Continues headerRound (buf, ⟨b :: header ++ rest, process⟩)
        (buf ++ [b], ⟨header ++ rest, process⟩) := by
      unfold Continues
      rw [List.cons_append, headerRound_cons, if_neg (Ne.symm noNul.1)]
    have others := ih noNul.2 (buf ++ [b])
    rw [List.append_assoc] at others
    exact .head goesOn others

theorem run_headerLoop {header : Bytes} (noNul : 0 ∉ header) (process : Process) :
    (loop headerRound []).run ⟨header ++ (0 :: rest), process⟩ =
      .ok (header ++ [0]) ⟨rest, process⟩ := by
  apply run_loop headerRound_consuming trivial (headerRound_runsTo noNul [])
  simp only [headerRound_cons]
  rfl

theorem headerLoop_fails {input : Bytes} (noNul : 0 ∉ input) (process : Process) :
    (loop headerRound []).run ⟨input, process⟩ =
      .error (.error (.reading "reading hprof header" .eof)) ⟨[], process⟩ := by
  have run : RunsTo headerRound ([], ⟨input ++ [], process⟩) ([] ++ input, ⟨[], process⟩) :=
    headerRound_runsTo noNul []
  rw [List.append_nil] at run
  apply run_loop headerRound_consuming trivial run
  rfl

/-- The file starts with a header that the parser accepts; `rest` holds the records. -/
structure Opens (input : Bytes) (idSize : Nat) (rest : Bytes) : Prop where
  supported : idSize = 4 ∨ idSize = 8
  parts : ∃ header ids time : Bytes, 0 ∉ header ∧ ascii "JAVA PROFILE" <+: header ∧
    ids.length = 4 ∧ bigEndian ids = idSize ∧ time.length = 8 ∧
    input = header ++ (0 :: (ids ++ (time ++ rest)))

def withIdSize (process : Process) (idSize : Nat) : Process := { process with p.idSize := idSize }

theorem Opens.ready {input : Bytes} (opens : Opens input idSize rest) (process : Process) :
    Ready idSize (withIdSize process idSize) := ⟨opens.supported, rfl⟩

theorem run_magic {header : Bytes} (process : Process) :
    (slice (header ++ [0]) 0 ((header ++ [0]).length - 1) : HprofM _).run ⟨rest, process⟩ =
      .ok header ⟨rest, process⟩ := by
  have size : (header ++ [0]).length - 1 = header.length := by
    rw [List.length_append, List.length_singleton]
    omega
  have whole : cut (header ++ [0]) 0 header.length = header :=
    cut_middle [] header [0] rfl rfl (Nat.zero_add _)
  rw [run_slice (Nat.zero_le _) (Nat.sub_le _ _), size, whole]

theorem run_parse {input : Bytes} (opens : Opens input idSize rest) (process : Process) :
    parse.run ⟨input, process⟩ =
      (loop recordRound ()).run ⟨rest, withIdSize process idSize⟩ := by
  obtain ⟨header, ids, time, noNul, magic, idsSized, rfl, timed, rfl⟩ := opens.parts
  have supported : ¬ (bigEndian ids ≠ 4 ∧ bigEndian ids ≠ 8) := by
    have either := opens.supported
    omega
  simp only [parse, run_bind, run_headerLoop noNul, run_magic, if_neg (not_not_intro magic),
    run_readFull_append _ _ idsSized, run_uint32 idsSized, toNat_uint32 idsSized,
    run_getProcess, run_setProcess, if_neg supported, run_readFull_append _ _ timed, withIdSize]

theorem parse_refuses (input : Bytes) :
    (∃ idSize rest, Opens input idSize rest) ∨
      ∃ (e : ParseError) (rest : Bytes) (found : Option Nat), ∀ process,
        parse.run ⟨input, process⟩ =
          .error (.error e) ⟨rest, found.elim process (withIdSize process)⟩ := by
  by_cases nul : (0 : UInt8) ∈ input
  · obtain ⟨header, rest, rfl, noNul⟩ := List.eq_append_cons_of_mem nul
    by_cases magic : ascii "JAVA PROFILE" <+: header
    · rcases Nat.lt_or_ge rest.length 4 with short | enough
      · right
        refine ⟨.reading "reading id size" (shortRead rest), [], none, fun process => ?_⟩
        simp only [parse, run_bind, run_headerLoop noNul, run_magic,
          if_neg (not_not_intro magic), run_readFull_short _ _ short]
        rfl
      obtain ⟨ids, rest, rfl, idsSized⟩ := exists_header enough
      by_cases unsupported : bigEndian ids ≠ 4 ∧ bigEndian ids ≠ 8
      · right
        refine ⟨.unexpectedIdSize (bigEndian ids), rest, some (bigEndian ids), fun process => ?_⟩
        simp only [parse, run_bind, run_headerLoop noNul, run_magic,
          if_neg (not_not_intro magic), run_readFull_append _ _ idsSized, run_uint32 idsSized,
          toNat_uint32 idsSized, run_getProcess, run_setProcess, if_pos unsupported, run_throw]
        rfl
      rcases Nat.lt_or_ge rest.length 8 with short | enough
      · right
        refine ⟨.reading "reading timestamp" (shortRead rest), [], some (bigEndian ids),
          fun process => ?_⟩
        simp only [parse, run_bind, run_headerLoop noNul, run_magic,
          if_neg (not_not_intro magic), run_readFull_append _ _ idsSized, run_uint32 idsSized,
          toNat_uint32 idsSized, run_getProcess, run_setProcess, if_neg unsupported,
          run_readFull_short _ _ short]
        rfl
      obtain ⟨time, rest, rfl, timed⟩ := exists_header enough
      left
      exact ⟨bigEndian ids, rest, by omega, header, ids, time, noNul, magic, idsSized, rfl, timed,
        rfl⟩
    · right
      refine ⟨.invalidMagic header, rest, none, fun process => ?_⟩
      simp only [parse, run_bind, run_headerLoop noNul, run_magic, if_pos magic, run_throw]
      rfl
  · right
    refine ⟨.reading "reading hprof header" .eof, [], none, fun process => ?_⟩
    simp only [parse, run_bind, headerLoop_fails nul]
    rfl

theorem parse_cases (input : Bytes) (process : Process) :
    (∃ idSize rest, Opens input idSize rest) ∨
      ∃ e t, parse.run ⟨input, process⟩ = .error (.error e) t := by
  rcases parse_refuses input with opens | ⟨e, rest, found, refused⟩
  · exact .inl opens
  · exact .inr ⟨e, _, refused process⟩

end header

end DropPlatform.HprofSteps
