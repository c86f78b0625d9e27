import DropPlatform.HprofEvents
import Mathlib.Data.List.Dedup

/-! The sums that the parser keeps beside its list of objects. They agree with the list at
every point of `Parse`, whatever the file is and wherever reading it stops. -/

namespace DropPlatform.HeapAccounts
open ByteReaders KeyedStores HprofParser HprofFormat HprofSteps HprofFraming HprofEvents

def ofClass (c : UInt64) (objects : List HeapObject) : List HeapObject :=
  objects.filter (·.classID = c)

def sizeSum (objects : List HeapObject) : Nat := (objects.map (·.size.toNat)).sum

/-- Sizes are added in 64 bits. -/
structure Accounted (p : HPROFParser) : Prop where
  totalObj : p.totalObj = p.objects.length
  totalSize : p.totalSize = .ofNat (sizeSum p.objects)
  distinct : (p.sizeByCls.map Prod.fst).Nodup
  classes : ∀ c, c ∈ p.sizeByCls.map Prod.fst ↔ c ∈ p.objects.map HeapObject.classID
  sums : ∀ c entry, (c, entry) ∈ p.sizeByCls → ∃ acc, entry = some acc ∧
    acc.count = (ofClass c p.objects).length ∧
    acc.totalSize = .ofNat (sizeSum (ofClass c p.objects))

theorem accounted_newHPROFParser : Accounted newHPROFParser where
  totalObj := rfl
  totalSize := rfl
  distinct := List.nodup_nil
  classes _ := Iff.rfl
  sums _ _ member := absurd member List.not_mem_nil

section addObject
variable {p : HPROFParser}

theorem sizeSum_append (objects : List HeapObject) (obj : HeapObject) :
    sizeSum (objects ++ [obj]) = sizeSum objects + obj.size.toNat := by
  simp [sizeSum]

theorem ofClass_append (c : UInt64) (objects : List HeapObject) (obj : HeapObject) :
    ofClass c (objects ++ [obj]) =
      if obj.classID = c then ofClass c objects ++ [obj] else ofClass c objects := by
  rw [ofClass, List.filter_append, List.filter_singleton]
  split_ifs with same
  · simp [same, ofClass]
  · simp [same, ofClass]

theorem ofClass_eq_nil {c : UInt64} {objects : List HeapObject}
    (absent : c ∉ objects.map HeapObject.classID) : ofClass c objects = [] := by
  refine List.filter_eq_nil_iff.mpr fun obj member same => absent ?_
  exact List.mem_map.mpr ⟨obj, member, of_decide_eq_true same⟩

def clsName (p : HPROFParser) (c : UInt64) : Bytes :=
  match get p.classes c with
  | some cls => cls.className
  | none => ascii "unknown"

def accum (p : HPROFParser) (c : UInt64) : ClsAccum :=
  (get p.sizeByCls c).getD ⟨clsName p c, 0, 0⟩

theorem addObject_eq (p : HPROFParser) (obj : HeapObject) :
    p.addObject obj = { p with
      objects := p.objects ++ [obj]
      totalSize := p.totalSize + .ofNat obj.size.toNat
      totalObj := p.totalObj + 1
      sizeByCls := set p.sizeByCls obj.classID (some
        ⟨(accum p obj.classID).name, (accum p obj.classID).count + 1,
          (accum p obj.classID).totalSize + .ofNat obj.size.toNat⟩) } := rfl

theorem Accounted.accum_sums (accounted : Accounted p) (c : UInt64) :
    (accum p c).count = (ofClass c p.objects).length ∧
      (accum p c).totalSize = .ofNat (sizeSum (ofClass c p.objects)) := by
  by_cases present : c ∈ p.sizeByCls.map Prod.fst
  · obtain ⟨⟨_, entry⟩, member, rfl⟩ := List.mem_map.mp present
    obtain ⟨acc, rfl, count, size⟩ := accounted.sums _ _ member
    rw [accum, get_eq_of_mem accounted.distinct member]
    exact ⟨count, size⟩
  · have none : get p.sizeByCls c = none := get_of_not_mem present
    rw [accum, none, ofClass_eq_nil (mt (accounted.classes c).mpr present)]
    exact ⟨rfl, rfl⟩

theorem Accounted.addObject (accounted : Accounted p) (obj : HeapObject) :
    Accounted (p.addObject obj) := by
  rw [addObject_eq]
  refine ⟨?_, ?_, nodup_keys_set accounted.distinct _ _, fun c => ?_, fun c entry member => ?_⟩
  · simp only [accounted.totalObj, List.length_append, List.length_singleton]
  · simp only [accounted.totalSize, sizeSum_append, Int64.ofNat_add]
  · have before := accounted.classes
    simp only [keys_set, List.map_append, List.mem_append, List.map_singleton, List.mem_singleton]
    split_ifs with present
    · rw [before c, eq_comm]
      have known := (before _).mp present
      exact ⟨.inl, fun either => either.elim id fun same => same ▸ known⟩
    · rw [List.mem_append, before c, List.mem_singleton]
  · obtain ⟨count, size⟩ := accounted.accum_sums obj.classID
    rcases (mem_set_iff accounted.distinct).mp member with ⟨rfl, rfl⟩ | ⟨other, old⟩
    · refine ⟨_, rfl, ?_, ?_⟩
      · simp only [ofClass_append, if_pos, List.length_append, List.length_singleton, count]
      · simp only [ofClass_append, if_pos, sizeSum_append, size, Int64.ofNat_add]
    · simp only [ofClass_append, if_neg (Ne.symm other)]
      exact accounted.sums c entry old

theorem accounted_absorb {process : Process} (accounted : Accounted process.p) (event : Event) :
    Accounted (absorb process event).p := by
  cases event with
  | string id text => exact accounted
  | loadClass classSerial classObjID classNameID =>
    exact ⟨accounted.totalObj, accounted.totalSize, accounted.distinct, accounted.classes,
      accounted.sums⟩
  | object obj => exact accounted.addObject obj

end addObject

section points
variable {input : Bytes} {process : Process} {idSize : Nat}

/-- The states of `Parse`: before each record, before each sub-record of a heap dump, and
where it stops. -/
inductive Passes (input : Bytes) (process : Process) : Process → Prop
  | start : Passes input process process
  | record {idSize : Nat} {rest : Bytes} {s : Session Process} (opens : Opens input idSize rest)
      (run : RunsTo recordRound ((), ⟨rest, withIdSize process idSize⟩) ((), s)) :
      Passes input process s.state
  | subRecord {idSize : Nat} {rest time size body : Bytes} {tag : UInt8} {before : Process}
      {left : Int} {s : Session Process} (opens : Opens input idSize rest)
      (run : RunsTo recordRound ((), ⟨rest, withIdSize process idSize⟩)
        ((), ⟨tag :: (time ++ (size ++ body)), before⟩))
      (timed : time.length = 4) (sized : size.length = 4) (isHeap : IsHeap tag)
      (subs : RunsTo heapDumpRound ((bigEndian size : Int), ⟨body, before⟩) (left, s)) :
      Passes input process s.state
  | stop : Passes input process (finalState (parse.run ⟨input, process⟩))

theorem scan_keeps {inv : Process → Prop} (keeps : ∀ s event, inv s → inv (absorb s event))
    (start : inv process) :
    inv (finalState ((scanRecords absorb idSize).run ⟨input, process⟩)) := by
  have same : Simulates (fun s (_ : Unit) => inv s) (scanRecords absorb idSize)
      (scanRecords (fun u _ => u) idSize) :=
    scanRecords_simulates fun s _ event held => keeps s event held
  exact (same input process () start).finalState

theorem record_keeps {inv : Process → Prop} (keeps : ∀ s event, inv s → inv (absorb s event))
    (ready : Ready idSize process) (start : inv process) {next : Session Process}
    (goesOn : (recordRound ()).run ⟨input, process⟩ = .ok (.inl ()) next) : inv next.state := by
  have same : Simulates (fun s (_ : Unit) => inv s) (scanRound absorb idSize ())
      (scanRound (fun u _ => u) idSize ()) :=
    scanRound_simulates (fun s _ event held => keeps s event held) ()
  have held := (same input process () start).finalState
  rwa [← recordRound_scan ready, goesOn] at held

theorem subRecord_keeps {inv : Process → Prop} (keeps : ∀ s event, inv s → inv (absorb s event))
    (ready : Ready idSize process) (start : inv process) {left left' : Int}
    {next : Session Process}
    (goesOn : (heapDumpRound left).run ⟨input, process⟩ = .ok (.inl left') next) :
    inv next.state := by
  have same : Simulates (fun s (_ : Unit) => inv s) (scanHeapRound absorb idSize left)
      (scanHeapRound (fun u _ => u) idSize left) :=
    scanHeapRound_simulates (fun s _ event held => keeps s event held) left
  have held := (same input process () start).finalState
  rwa [← heapDumpRound_scan ready, goesOn] at held

theorem records_keep {inv : Process → Prop} (keeps : ∀ s event, inv s → inv (absorb s event))
    (ready : Ready idSize process) (start : inv process) {last : Unit × Session Process}
    (run : RunsTo recordRound ((), ⟨input, process⟩) last) :
    Ready idSize last.2.state ∧ inv last.2.state := by
  induction run with
  | refl => exact ⟨ready, start⟩
  | tail before goesOn ih =>
    exact ⟨(recordRound_consuming idSize).keeps _ _ ih.1 goesOn,
      record_keeps keeps ih.1 ih.2 goesOn⟩

theorem subRecords_keep {inv : Process → Prop} (keeps : ∀ s event, inv s → inv (absorb s event))
    (ready : Ready idSize process) (start : inv process) {left : Int} {last : Int × Session Process}
    (run : RunsTo heapDumpRound (left, ⟨input, process⟩) last) :
    Ready idSize last.2.state ∧ inv last.2.state := by
  induction run with
  | refl => exact ⟨ready, start⟩
  | tail before goesOn ih =>
    exact ⟨(heapDumpRound_consuming idSize).keeps _ _ ih.1 goesOn,
      subRecord_keeps keeps ih.1 ih.2 goesOn⟩

theorem Passes.keeps {inv : Process → Prop} {s : Process}
    (keeps : ∀ s event, inv s → inv (absorb s event))
    (sized : ∀ s n, inv s → inv (withIdSize s n)) (start : inv process)
    (passes : Passes input process s) : inv s := by
  cases passes with
  | start => exact start
  | record opens run =>
    exact (records_keep keeps (opens.ready process) (sized _ _ start) run).2
  | subRecord opens run timed sized' isHeap subs =>
    obtain ⟨ready, held⟩ := records_keep keeps (opens.ready process) (sized _ _ start) run
    exact (subRecords_keep keeps ready held subs).2
  | stop =>
    rcases parse_refuses input with ⟨idSize, rest, opens⟩ | ⟨e, rest, found, refused⟩
    · rw [parse_scan opens]
      exact scan_keeps keeps (sized _ _ start)
    · rw [refused]
      cases found with
      | none => exact start
      | some n => exact sized _ _ start

theorem accounted_of_passes {table : Keyed UInt64 Bytes} {s : Process}
    (passes : Passes input ⟨newHPROFParser, table⟩ s) : Accounted s.p := by
  have keeps : ∀ (s : Process) event, Accounted s.p → Accounted (absorb s event).p :=
    fun s event accounted => accounted_absorb accounted event
  have sized : ∀ (s : Process) n, Accounted s.p → Accounted (withIdSize s n).p :=
    fun s n accounted => ⟨accounted.totalObj, accounted.totalSize, accounted.distinct,
      accounted.classes, accounted.sums⟩
  exact passes.keeps keeps sized accounted_newHPROFParser

end points

end DropPlatform.HeapAccounts
