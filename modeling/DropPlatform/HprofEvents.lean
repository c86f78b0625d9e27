import DropPlatform.HprofFraming

/-! What an HPROF file says, apart from what is made of it. The bytes alone decide which
strings, classes and objects a file tells of, in which order, and how reading it ends; the
parser takes them into its tables one by one. -/

namespace DropPlatform.HprofEvents
open ByteReaders KeyedStores HprofParser HprofFormat HprofSteps HprofFraming

inductive Event
  | string (id : UInt64) (text : Bytes)
  | loadClass (classSerial : UInt32) (classObjID classNameID : UInt64)
  | object (obj : HeapObject)
deriving DecidableEq, Repr

def absorb (process : Process) : Event → Process
  | .string id text => { process with stringMap := set process.stringMap id text }
  | .loadClass classSerial classObjID classNameID => { process with
      p.classes := set process.p.classes classObjID
        (some ⟨classSerial, classObjID, shownName (get process.stringMap classNameID)⟩) }
  | .object obj => { process with p := process.p.addObject obj }

section scan
variable {σ : Type} (take : σ → Event → σ) (idSize : Nat)

abbrev ScanM (σ α : Type) := Reader ParseError σ α

def emit (events : List Event) : ScanM σ Unit := fun s =>
  .ok () { s with state := events.foldl take s.state }

def stringEvent (body : Bytes) : Option Event :=
  if idSize ≤ body.length then
    some (.string (.ofNat (bigEndian (cut body 0 idSize))) (cut body idSize body.length))
  else none

def loadClassEvent (body : Bytes) : Option Event :=
  if 4 + idSize + 4 + idSize ≤ body.length then
    some (.loadClass (.ofNat (bigEndian (cut body 0 4)))
      (.ofNat (bigEndian (cut body 4 (4 + idSize))))
      (.ofNat (bigEndian (cut body (4 + idSize + 4) (4 + idSize + 4 + idSize)))))
  else none

def objectEvents (layout : Layout) (header : Bytes) : List Event :=
  (layout.object header).toList.map .object

/-- A body that is too short for its fields has no event. -/
def emitOrPanic : Option Event → ScanM σ Unit
  | some event => emit take [event]
  | none => throw .panic

def scanSubRecord (tag : UInt8) (remaining : Int) : ScanM σ (Int ⊕ Unit) :=
  match layout idSize tag with
  | none => throw (.error (.unknownSubRecord tag remaining))
  | some layout => do
    let header ← readFull layout.headerSize layout.headerError
    let _payload ← readFull (layout.payloadSize header) layout.payloadError
    emit take (objectEvents layout header)
    pure (.inl (remaining - (layout.headerSize + layout.payloadSize header : Nat)))

def scanHeapRound (remaining : Int) : ScanM σ (Int ⊕ Unit) :=
  if remaining > 0 then do
    let subtag ← readFull 1 (.reading "reading subtag")
    scanSubRecord take idSize (subtag.headD 0) (remaining - 1)
  else pure (.inr ())

def scanHeapDump (length : UInt32) : ScanM σ Unit := fun s =>
  iterate (scanHeapRound take idSize) (s.input.length + 1) (length.toNat : Int) s

def scanRecord (tag : UInt8) (length : UInt32) : ScanM σ Unit :=
  if tag = tagString then do
    let body ← readFull length.toNat (.reading "reading string record")
    emitOrPanic take (stringEvent idSize body)
  else if tag = tagLoadClass then do
    let body ← readFull length.toNat (.reading "reading load class record")
    emitOrPanic take (loadClassEvent idSize body)
  else if tag = tagHeapDump ∨ tag = tagHeapDumpSeg then scanHeapDump take idSize length
  else discard length.toNat (.skippingRecord tag)

def scanTagged (tag : UInt8) : ScanM σ (Unit ⊕ Unit) := do
  let _time ← readFull 4 (.reading "reading time")
  let length ← readFull 4 (.reading "reading length")
  scanRecord take idSize tag (.ofNat (bigEndian length))
  pure (.inl ())

def scanRound (_ : Unit) : ScanM σ (Unit ⊕ Unit) := do
  match ← tryReadFull 1 with
  | .error .eof => pure (.inr ())
  | .error e => throw (.error (.reading "reading tag" e))
  | .ok tag => scanTagged take idSize (tag.headD 0)

def scanRecords : ScanM σ Unit := fun s =>
  iterate (scanRound take idSize) (s.input.length + 1) () s

end scan

section parser
variable {idSize : Nat} {process : Process} {input rest : Bytes}

theorem effect_eq (layout : Layout) (header : Bytes) (process : Process) :
    layout.effect header process = (objectEvents layout header).foldl absorb process := by
  rw [Layout.effect, objectEvents]
  cases layout.object header <;> rfl

theorem parseSubRecord_scan (ready : Ready idSize process) (tag : UInt8) (remaining : Int) :
    (parseSubRecord tag remaining).run ⟨input, process⟩ =
      (scanSubRecord absorb idSize tag remaining).run ⟨input, process⟩ := by
  rw [parseSubRecord_layout ready, scanSubRecord]
  cases layout idSize tag with
  | none => rfl
  | some layout =>
    simp only [Layout.round, Layout.take, run_bind, run_pure]
    cases (readFull layout.headerSize layout.headerError).run ⟨input, process⟩ with
    | error stop t => rfl
    | ok header t =>
      simp only
      cases (readFull (layout.payloadSize header) layout.payloadError).run t with
      | error stop t => rfl
      | ok payload t =>
        simp only [run_getProcess, run_setProcess, effect_eq]
        rfl

theorem heapDumpRound_scan (ready : Ready idSize process) (remaining : Int) :
    (heapDumpRound remaining).run ⟨input, process⟩ =
      (scanHeapRound absorb idSize remaining).run ⟨input, process⟩ := by
  rw [heapDumpRound, scanHeapRound]
  split_ifs with positive
  · cases input with
    | nil => rfl
    | cons tag input =>
      simp only [run_bind, run_readFull_one]
      exact parseSubRecord_scan ready tag _
  · rfl

theorem parseHeapDump_scan (ready : Ready idSize process) (length : UInt32) :
    (parseHeapDump length).run ⟨input, process⟩ =
      (scanHeapDump absorb idSize length).run ⟨input, process⟩ := by
  have agree : ∀ (remaining : Int) (s : Session Process), Ready idSize s.state →
      (heapDumpRound remaining).run s = (scanHeapRound absorb idSize remaining).run s :=
    fun remaining s ready => heapDumpRound_scan ready remaining
  refine iterate_congr agree (fun remaining s next t ready goesOn => ?_) _ _ ready
  exact (heapDumpRound_consuming idSize).keeps (remaining, s) (next, t) ready goesOn

theorem parseString_scan (ready : Ready idSize process) (length : UInt32) :
    (parseString length).run ⟨input, process⟩ =
      (scanRecord absorb idSize tagString length).run ⟨input, process⟩ := by
  rw [scanRecord, if_pos rfl]
  rcases Nat.lt_or_ge input.length length.toNat with short | enough
  · simp only [parseString, run_bind, run_readFull_short _ _ short]
  obtain ⟨body, rest, rfl, whole⟩ := exists_header enough
  simp only [run_bind, run_readFull_append _ _ whole]
  rcases Nat.lt_or_ge body.length idSize with short | long
  · rw [parseString_panics ready whole short, stringEvent, if_neg (by omega)]
    rfl
  · rw [run_parseString ready whole long, stringEvent, if_pos long]
    rfl

theorem parseLoadClass_scan (ready : Ready idSize process) (length : UInt32) :
    (parseLoadClass length).run ⟨input, process⟩ =
      (scanRecord absorb idSize tagLoadClass length).run ⟨input, process⟩ := by
  have other : tagLoadClass ≠ tagString := by decide
  rw [scanRecord, if_neg other, if_pos rfl]
  rcases Nat.lt_or_ge input.length length.toNat with short | enough
  · simp only [parseLoadClass, run_bind, run_readFull_short _ _ short]
  obtain ⟨body, rest, rfl, whole⟩ := exists_header enough
  simp only [run_bind, run_readFull_append _ _ whole]
  rcases Nat.lt_or_ge body.length (4 + idSize + 4 + idSize) with short | long
  · rw [parseLoadClass_panics ready whole short, loadClassEvent, if_neg (by omega)]
    rfl
  · rw [run_parseLoadClass ready whole long, loadClassEvent, if_pos long]
    rfl

theorem parseRecord_scan (ready : Ready idSize process) (tag : UInt8) (length : UInt32) :
    (parseRecord tag length).run ⟨input, process⟩ =
      (scanRecord absorb idSize tag length).run ⟨input, process⟩ := by
  by_cases string : tag = tagString
  · rw [parseRecord, if_pos string, parseString_scan ready, string]
  by_cases loadClass : tag = tagLoadClass
  · rw [parseRecord, if_neg string, if_pos loadClass, parseLoadClass_scan ready, loadClass]
  rw [parseRecord, scanRecord, if_neg string, if_neg loadClass, if_neg string, if_neg loadClass]
  split_ifs
  · exact parseHeapDump_scan ready length
  · rfl

theorem recordRound_scan (ready : Ready idSize process) :
    (recordRound ()).run ⟨input, process⟩ =
      (scanRound absorb idSize ()).run ⟨input, process⟩ := by
  cases input with
  | nil => rfl
  | cons tag input =>
    have first : ∀ {τ : Type} (t : τ), (tryReadFull 1 : Reader ParseError τ _).run
        ⟨tag :: input, t⟩ = .ok (.ok [tag]) ⟨input, t⟩ := fun _ => rfl
    simp only [recordRound, scanRound, scanTagged, run_bind, first, List.headD_cons]
    rcases Nat.lt_or_ge input.length 4 with short | enough
    · simp only [run_readFull_short _ _ short]
    obtain ⟨time, input, rfl, timed⟩ := exists_header enough
    simp only [run_readFull_append _ _ timed]
    rcases Nat.lt_or_ge input.length 4 with short | enough
    · simp only [run_readFull_short _ _ short]
    obtain ⟨size, input, rfl, sized⟩ := exists_header enough
    simp only [run_readFull_append _ _ sized, run_uint32 sized, parseRecord_scan ready]

theorem loop_recordRound_scan (ready : Ready idSize process) :
    (loop recordRound ()).run ⟨input, process⟩ =
      (scanRecords absorb idSize).run ⟨input, process⟩ := by
  have agree : ∀ (b : Unit) (s : Session Process), Ready idSize s.state →
      (recordRound b).run s = (scanRound absorb idSize b).run s :=
    fun _ s ready => recordRound_scan ready
  refine iterate_congr agree (fun b s next t ready goesOn => ?_) _ _ ready
  exact (recordRound_consuming idSize).keeps (b, s) (next, t) ready goesOn

theorem parse_scan (opens : Opens input idSize rest) (process : Process) :
    parse.run ⟨input, process⟩ =
      (scanRecords absorb idSize).run ⟨rest, withIdSize process idSize⟩ := by
  rw [run_parse opens, loop_recordRound_scan (opens.ready process)]

end parser

section laws
variable {σ τ : Type} {take : σ → Event → σ} {take' : τ → Event → τ} {related : σ → τ → Prop}
  (keeps : ∀ s t event, related s t → related (take s event) (take' t event)) {idSize : Nat}

section
include keeps

theorem emit_simulates (events : List Event) :
    Simulates related (emit take events) (emit take' events) := by
  have folded : ∀ s t, related s t → related (events.foldl take s) (events.foldl take' t) := by
    induction events with
    | nil => exact fun s t same => same
    | cons event events ih => exact fun s t same => ih _ _ (keeps s t event same)
  exact fun input s t same => ⟨rfl, rfl, folded s t same⟩

theorem emitOrPanic_simulates (event : Option Event) :
    Simulates related (emitOrPanic take event) (emitOrPanic take' event) := by
  cases event with
  | none => exact .throw _
  | some event => exact emit_simulates keeps [event]

theorem scanSubRecord_simulates (tag : UInt8) (remaining : Int) :
    Simulates related (scanSubRecord take idSize tag remaining)
      (scanSubRecord take' idSize tag remaining) := by
  unfold scanSubRecord
  cases layout idSize tag with
  | none => exact .throw _
  | some layout =>
    exact .bind (.readFull _ _) fun header => .bind (.readFull _ _) fun _ =>
      .bind (emit_simulates keeps _) fun _ => .pure _

theorem scanHeapRound_simulates (remaining : Int) :
    Simulates related (scanHeapRound take idSize remaining)
      (scanHeapRound take' idSize remaining) := by
  unfold scanHeapRound
  split_ifs
  · exact .bind (.readFull _ _) fun _ => scanSubRecord_simulates keeps _ _
  · exact .pure _

theorem scanRecord_simulates (tag : UInt8) (length : UInt32) :
    Simulates related (scanRecord take idSize tag length) (scanRecord take' idSize tag length) := by
  unfold scanRecord
  split_ifs
  · exact .bind (.readFull _ _) fun _ => emitOrPanic_simulates keeps _
  · exact .bind (.readFull _ _) fun _ => emitOrPanic_simulates keeps _
  · exact fun input => Simulates.iterate (scanHeapRound_simulates keeps) (input.length + 1) _ input
  · exact .discard _ _

theorem scanTagged_simulates (tag : UInt8) :
    Simulates related (scanTagged take idSize tag) (scanTagged take' idSize tag) :=
  .bind (.readFull _ _) fun _ => .bind (.readFull _ _) fun _ =>
    .bind (scanRecord_simulates keeps _ _) fun _ => .pure _

theorem scanRound_simulates (b : Unit) :
    Simulates related (scanRound take idSize b) (scanRound take' idSize b) := by
  refine .bind (.tryReadFull 1) fun answer => ?_
  match answer with
  | .ok tag => exact scanTagged_simulates keeps _
  | .error .eof => exact .pure _
  | .error .unexpectedEOF => exact .throw _

theorem scanRecords_simulates :
    Simulates related (scanRecords take idSize) (scanRecords take' idSize) :=
  fun input => Simulates.iterate (scanRound_simulates keeps) (input.length + 1) () input

end

theorem emit_extends (events : List Event) : Extends (emit take events) := by
  intro input s u rest t ran more
  cases ran
  rfl

theorem emitOrPanic_extends (event : Option Event) : Extends (emitOrPanic take event) := by
  cases event with
  | none => exact .throw _
  | some event => exact emit_extends [event]

theorem scanSubRecord_extends (tag : UInt8) (remaining : Int) :
    Extends (scanSubRecord take idSize tag remaining) := by
  unfold scanSubRecord
  cases layout idSize tag with
  | none => exact .throw _
  | some layout =>
    exact .bind (.readFull _ _) fun header => .bind (.readFull _ _) fun _ =>
      .bind (emit_extends _) fun _ => .pure _

theorem scanHeapRound_extends (remaining : Int) :
    Extends (scanHeapRound take idSize remaining) := by
  unfold scanHeapRound
  split_ifs
  · exact .bind (.readFull _ _) fun _ => scanSubRecord_extends _ _
  · exact .pure _

theorem scanRecord_extends (tag : UInt8) (length : UInt32) :
    Extends (scanRecord take idSize tag length) := by
  unfold scanRecord
  split_ifs
  · exact .bind (.readFull _ _) fun _ => emitOrPanic_extends _
  · exact .bind (.readFull _ _) fun _ => emitOrPanic_extends _
  · intro input s u rest t ran more
    refine Extends.iterate scanHeapRound_extends ?_ ran more
    simp only [List.length_append]
    omega
  · exact .discard _ _

theorem scanTagged_extends (tag : UInt8) : Extends (scanTagged take idSize tag) :=
  .bind (.readFull _ _) fun _ => .bind (.readFull _ _) fun _ =>
    .bind (scanRecord_extends _ _) fun _ => .pure _

theorem scanRound_append {input rest more : Bytes} {s t : σ}
    (taken : (scanRound take idSize ()).run ⟨input, s⟩ = .ok (.inl ()) ⟨rest, t⟩) :
    (scanRound take idSize ()).run ⟨input ++ more, s⟩ = .ok (.inl ()) ⟨rest ++ more, t⟩ := by
  cases input with
  | nil => cases taken
  | cons tag input => exact scanTagged_extends tag input s _ rest t taken more

theorem scanRound_consuming (supported : idSize = 4 ∨ idSize = 8) :
    Consuming (fun _ => True) (scanRound take idSize) := by
  refine ⟨?_, fun _ _ _ _ => trivial⟩
  rintro ⟨_, input, s⟩ ⟨_, next⟩ _ goesOn
  have answer : (scanRound take idSize ()).run ⟨input, s⟩ = .ok (.inl ()) next := goesOn
  -- the parser takes the same record
  let process := withIdSize ⟨newHPROFParser, []⟩ idSize
  have ready : Ready idSize process := ⟨supported, rfl⟩
  have same : Simulates (fun (_ : σ) (_ : Process) => True) (scanRound take idSize ())
      (scanRound absorb idSize ()) := scanRound_simulates (fun _ _ _ _ => trivial) ()
  have alike := same input s process trivial
  rw [answer, ← recordRound_scan ready] at alike
  cases parsed : (recordRound ()).run ⟨input, process⟩ with
  | error stop t =>
    rw [parsed] at alike
    exact alike.elim
  | ok a t =>
    rw [parsed] at alike
    obtain ⟨rfl, inputs, _⟩ := alike
    have shorter :=
      (recordRound_consuming idSize).shorter ((), ⟨input, process⟩) ((), t) ready parsed
    change next.input.length < input.length
    rw [inputs]
    exact shorter

theorem scanRecords_cons (supported : idSize = 4 ∨ idSize = 8) {here next : Session σ}
    (taken : (scanRound take idSize ()).run here = .ok (.inl ()) next) :
    (scanRecords take idSize).run here = (scanRecords take idSize).run next := by
  have consuming : Consuming (fun _ => True) (scanRound take idSize) :=
    scanRound_consuming supported
  have shorter := consuming.shorter ((), here) ((), next) trivial taken
  have unfolded : (scanRecords take idSize).run here =
      (iterate (scanRound take idSize) here.input.length ()).run next := by
    change (iterate (scanRound take idSize) (here.input.length + 1) ()).run here = _
    simp only [iterate, run_bind, taken]
  rw [unfolded]
  exact iterate_enough consuming trivial shorter (Nat.lt_succ_self _)

end laws

section told
variable {idSize : Nat}

def log (events : List Event) (event : Event) : List Event := events ++ [event]

/-- What the records say, and how reading them ends. -/
def told (idSize : Nat) (input : Bytes) :
    EStateM.Result (Stop ParseError) (Session (List Event)) Unit :=
  (scanRecords log idSize).run ⟨input, []⟩

def events (idSize : Nat) (input : Bytes) : List Event := finalState (told idSize input)

theorem foldl_log {σ : Type} (take : σ → Event → σ) (start s : σ) (events : List Event)
    (event : Event) (same : s = events.foldl take start) :
    take s event = (log events event).foldl take start := by
  rw [same, log, List.foldl_concat]

theorem scanRecords_told {σ : Type} (take : σ → Event → σ) (input : Bytes) (s : σ) :
    (scanRecords take idSize).run ⟨input, s⟩ =
      mapState (fun events => events.foldl take s) (told idSize input) :=
  eq_mapState (scanRecords_simulates (foldl_log take s) input s [] rfl)

theorem scanRound_told {σ : Type} (take : σ → Event → σ) (input : Bytes) (s : σ) :
    (scanRound take idSize ()).run ⟨input, s⟩ =
      mapState (fun events => events.foldl take s) ((scanRound log idSize ()).run ⟨input, []⟩) :=
  eq_mapState (scanRound_simulates (foldl_log take s) () input s [] rfl)

theorem parse_told {input rest : Bytes} (opens : Opens input idSize rest) (process : Process) :
    parse.run ⟨input, process⟩ =
      mapState (fun events => events.foldl absorb (withIdSize process idSize))
        (told idSize rest) := by
  rw [parse_scan opens, scanRecords_told]

theorem finalState_parse {input rest : Bytes} (opens : Opens input idSize rest)
    (process : Process) :
    finalState (parse.run ⟨input, process⟩) =
      (events idSize rest).foldl absorb (withIdSize process idSize) := by
  rw [parse_told opens, finalState_mapState]
  rfl

end told

end DropPlatform.HprofEvents
