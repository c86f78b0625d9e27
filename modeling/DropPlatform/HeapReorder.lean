import DropPlatform.HeapNames
import DropPlatform.HeapReport
import DropPlatform.HprofBoundaries
import DropPlatform.HprofRoundTrip

/-! The report under a reordering of the top-level records of a file. Names are looked up while
the file is read, so the report names a class rightly if the class is loaded before its first
object, and its string comes before that. A heap dump record that is not read to its end
exactly makes the next record unreadable, whichever that is. -/

namespace DropPlatform.HeapReorder
open ByteReaders KeyedStores HprofParser HprofFormat HprofSteps HprofFraming HprofBoundaries
  HprofEvents HeapAccounts HeapReport HeapNames

section files

/-- A top-level record, as long as its header says. -/
structure TopRecord where
  tag : UInt8
  time : Word 4
  body : Bytes
  short : body.length < 256 ^ 4

def TopRecord.encode (record : TopRecord) : Bytes :=
  record.tag :: (word record.time ++ (ByteReaders.encode 4 record.body.length ++ record.body))

/-- An accepted file, cut into its top-level records. -/
structure AcceptedFile where
  front : Bytes
  idSize : Nat
  records : List TopRecord
  opens : Opens (front ++ records.flatMap TopRecord.encode) idSize
    (records.flatMap TopRecord.encode)
  accepted : Accepts (front ++ records.flatMap TopRecord.encode) ⟨newHPROFParser, []⟩

namespace AcceptedFile

def bytes (file : AcceptedFile) : Bytes := file.front ++ file.records.flatMap TopRecord.encode

def content (file : AcceptedFile) : List Event :=
  file.records.flatMap fun record => HprofEvents.events file.idSize record.encode

/-- The parser after the file, which came first in its process. -/
def parsed (file : AcceptedFile) : HPROFParser :=
  (finalState (parse.run ⟨file.bytes, newHPROFParser, []⟩)).p

/-- Every heap dump record ends where `Parse` has done with its last sub-record. -/
def Aligned (file : AcceptedFile) : Prop :=
  ∀ record ∈ file.records, IsHeap record.tag → Filled file.idSize record.body

end AcceptedFile

variable {idSize : Nat} {piece : Bytes}

/-- The bytes that one round of the loop over the records takes. -/
def IsRecord (idSize : Nat) (piece : Bytes) : Prop :=
  ∃ after, (recordRound ()).run ⟨piece, HeapNames.opened idSize []⟩ = .ok (.inl ()) ⟨[], after⟩

theorem foldl_log_eq (seen own : List Event) : own.foldl log seen = seen ++ own := by
  induction own generalizing seen with
  | nil => exact (List.append_nil seen).symm
  | cons event own ih =>
    rw [List.foldl_cons, ih, log, List.append_assoc]
    rfl

theorem scanRound_of_isRecord (supported : idSize = 4 ∨ idSize = 8)
    (isRecord : IsRecord idSize piece) (seen : List Event) :
    (scanRound log idSize ()).run ⟨piece, seen⟩ =
      .ok (.inl ()) ⟨[], seen ++ HprofEvents.events idSize piece⟩ := by
  obtain ⟨after, taken⟩ := isRecord
  have ready : Ready idSize (HeapNames.opened idSize []) := ⟨supported, rfl⟩
  rw [recordRound_scan ready, scanRound_told] at taken
  obtain ⟨own, alone⟩ : ∃ own, (scanRound log idSize ()).run ⟨piece, []⟩ =
      .ok (.inl ()) ⟨[], own⟩ := by
    cases ran : (scanRound log idSize ()).run ⟨piece, []⟩ with
    | error stop t =>
      rw [ran] at taken
      cases taken
    | ok a t =>
      rw [ran] at taken
      obtain ⟨rest, own⟩ := t
      cases taken
      exact ⟨own, rfl⟩
  have logged : HprofEvents.events idSize piece = own := by
    rw [HprofEvents.events, told, scanRecords_cons supported alone]
    rfl
  rw [scanRound_told, alone, logged, ← foldl_log_eq]
  rfl

theorem scanRecords_flatten (supported : idSize = 4 ∨ idSize = 8) {pieces : List Bytes}
    (taken : ∀ piece ∈ pieces, IsRecord idSize piece) (seen : List Event) :
    (scanRecords log idSize).run ⟨pieces.flatten, seen⟩ =
      .ok () ⟨[], seen ++ pieces.flatMap (HprofEvents.events idSize)⟩ := by
  induction pieces generalizing seen with
  | nil =>
    rw [List.flatMap_nil, List.append_nil]
    rfl
  | cons piece pieces ih =>
    obtain ⟨first, others⟩ := List.forall_mem_cons.mp taken
    have round : (scanRound log idSize ()).run ⟨piece ++ pieces.flatten, seen⟩ =
        .ok (.inl ()) ⟨[] ++ pieces.flatten, seen ++ HprofEvents.events idSize piece⟩ :=
      scanRound_append (scanRound_of_isRecord supported first seen)
    rw [List.flatten_cons, scanRecords_cons supported round, List.nil_append, ih others,
      List.flatMap_cons, List.append_assoc]

theorem nextRecord_encode {record : TopRecord}
    (filled : IsHeap record.tag → Filled idSize record.body) (more : Bytes) :
    NextRecord idSize (record.encode ++ more) more := by
  have timed := length_word record.time
  have sized := length_encode 4 record.body.length
  have length := bigEndian_encode record.short
  have whole : record.encode ++ more = record.tag :: (word record.time ++
      (ByteReaders.encode 4 record.body.length ++ (record.body ++ more))) := by
    simp only [TopRecord.encode, List.cons_append, List.append_assoc]
  rw [whole]
  by_cases heap : IsHeap record.tag
  · refine .heap timed sized heap ?_
    rw [length]
    exact (filled heap).subRecords le_rfl (.done (by omega))
  · exact .plain timed sized heap length.symm

theorem recordStart_encode {records : List TopRecord}
    (filled : ∀ record ∈ records, IsHeap record.tag → Filled idSize record.body) (more : Bytes) :
    RecordStart idSize (records.flatMap TopRecord.encode ++ more) more := by
  induction records with
  | nil => exact .refl
  | cons record records ih =>
    obtain ⟨first, others⟩ := List.forall_mem_cons.mp filled
    rw [List.flatMap_cons, List.append_assoc]
    exact .head (nextRecord_encode first _) (ih others)

namespace AcceptedFile
variable {file : AcceptedFile} (aligned : file.Aligned)
include aligned

theorem isRecord_encode {record : TopRecord} (member : record ∈ file.records) :
    IsRecord file.idSize record.encode := by
  obtain ⟨before, after, split⟩ := List.append_of_mem member
  have start : RecordStart file.idSize (file.records.flatMap TopRecord.encode)
      (record.encode ++ after.flatMap TopRecord.encode) := by
    rw [split, List.flatMap_append, List.flatMap_cons]
    refine recordStart_encode (fun other inside => aligned other ?_) _
    rw [split]
    exact List.mem_append_left _ inside
  have long : ¬ ShortRecord file.idSize record.encode := fun short =>
    noShort_of_accepts file.accepted _ _ _ file.opens start (shortRecord_append short _)
  have next := nextRecord_encode (aligned record member) []
  rw [List.append_nil] at next
  have ready : Ready file.idSize (HeapNames.opened file.idSize []) := ⟨file.opens.supported, rfl⟩
  obtain ⟨after, _, ran⟩ := recordRound_of_long ready next long
  exact ⟨after, ran⟩

theorem told_eq :
    told file.idSize (file.records.flatMap TopRecord.encode) = .ok () ⟨[], file.content⟩ := by
  have taken : ∀ piece ∈ file.records.map TopRecord.encode, IsRecord file.idSize piece := by
    intro piece member
    obtain ⟨record, inside, rfl⟩ := List.mem_map.mp member
    exact isRecord_encode aligned inside
  have scanned := scanRecords_flatten file.opens.supported taken []
  rw [← List.flatMap_def, List.flatMap_map] at scanned
  exact scanned

theorem parsed_eq : file.parsed = (processAfter file.idSize [] file.content).p := by
  have events : HprofEvents.events file.idSize (file.records.flatMap TopRecord.encode) =
      file.content := by
    rw [HprofEvents.events, told_eq aligned]
    rfl
  rw [parsed, bytes, finalState_parse file.opens, events]
  rfl

end AcceptedFile

end files

section names
variable {history : List Event} {c : UInt64}

structure DistinctIds (events : List Event) : Prop where
  strings : ∀ id, (textsOf id events).length ≤ 1
  classes : ∀ c, (loadsOf c events).length ≤ 1

/-- The name that the LOAD CLASS record of a class refers to, wherever the two records are. -/
def refersTo (events : List Event) (c : UInt64) : Bytes :=
  match loadsOf c events with
  | [] => ascii "unknown"
  | load :: _ => shownName ((textsOf load.2 events).headD [])

/-- The LOAD CLASS record of a class comes before its first object, and the string that it
refers to before that. A record that is not in the file at all does not count. -/
def InOrder (events : List Event) : Prop :=
  ∀ before obj after, events = before ++ .object obj :: after →
    objectsOf obj.classID before = [] →
    ∀ serial nameID, .loadClass serial obj.classID nameID ∈ events →
    ∃ earlier later, before = earlier ++ .loadClass serial obj.classID nameID :: later ∧
      ∀ text, .string nameID text ∈ events → .string nameID text ∈ earlier

theorem eq_of_sublist {α : Type} {l m : List α} (sub : l.Sublist m) (single : m.length ≤ 1)
    (all : ∀ x ∈ m, x ∈ l) : l = m := by
  refine sub.eq_of_length_le ?_
  cases m with
  | nil => exact Nat.zero_le _
  | cons x m => exact single.trans (List.length_pos_of_mem (all x List.mem_cons_self))

theorem textsOf_sublist (id : UInt64) {l m : List Event} (sub : l.Sublist m) :
    (textsOf id l).Sublist (textsOf id m) := sub.filterMap _

theorem loadsOf_sublist (c : UInt64) {l m : List Event} (sub : l.Sublist m) :
    (loadsOf c l).Sublist (loadsOf c m) := sub.filterMap _

theorem clsName_of_noLoad {before : List Event} (none : loadsOf c before = []) (idSize : Nat) :
    clsName (processAfter idSize [] before).p c = ascii "unknown" := by
  rw [clsName, get_classes_of_noLoad none]
  rfl

theorem clsName_of_lastLoad {earlier later : List Event} {serial : UInt32} {nameID : UInt64}
    (last : loadsOf c later = []) (idSize : Nat) :
    clsName (processAfter idSize [] (earlier ++ .loadClass serial c nameID :: later)).p c =
      shownName ((textsOf nameID earlier).getLast?.getD []) := by
  rw [clsName, get_classes_of_lastLoad last]
  rfl

section single
variable {α : Type} {l m : List α}

theorem eq_singleton_of_mem (single : l.length ≤ 1) {x : α} (member : x ∈ l) : l = [x] := by
  have some := List.length_pos_of_mem member
  obtain ⟨y, rfl⟩ := List.length_eq_one_iff.mp (by omega : l.length = 1)
  rw [List.mem_singleton.mp member]

theorem eq_of_mem_single (single : l.length ≤ 1) {x y : α} (first : x ∈ l) (second : y ∈ l) :
    x = y := by
  rw [eq_singleton_of_mem single second] at first
  exact List.mem_singleton.mp first

theorem eq_of_perm_single (single : m.length ≤ 1) (perm : l.Perm m) : l = m := by
  cases m with
  | nil => exact perm.eq_nil
  | cons x m =>
    rw [eq_singleton_of_mem single List.mem_cons_self] at perm ⊢
    exact List.perm_singleton.mp perm

theorem getLast_of_single (single : l.length ≤ 1) (d : α) : l.getLast?.getD d = l.headD d := by
  cases l with
  | nil => rfl
  | cons x l =>
    rw [eq_singleton_of_mem single List.mem_cons_self]
    rfl

end single

section lookups
variable {before after : List Event} {obj : HeapObject}

theorem refersTo_of_load (distinct : DistinctIds history) {serial : UInt32} {nameID : UInt64}
    (loaded : .loadClass serial c nameID ∈ history) :
    refersTo history c = shownName ((textsOf nameID history).headD []) := by
  have member : (serial, nameID) ∈ loadsOf c history := mem_loadsOf.mpr loaded
  rw [refersTo, eq_singleton_of_mem (distinct.classes c) member]

theorem clsName_of_inOrder (distinct : DistinctIds history) (inOrder : InOrder history)
    (whole : history = before ++ .object obj :: after)
    (first : objectsOf obj.classID before = []) (idSize : Nat) :
    clsName (processAfter idSize [] before).p obj.classID =
      refersTo history obj.classID := by
  have inside : before.Sublist history := whole ▸ List.sublist_append_left _ _
  cases loads : loadsOf obj.classID history with
  | nil =>
    have none : loadsOf obj.classID before = [] :=
      List.sublist_nil.mp (loads ▸ loadsOf_sublist _ inside)
    rw [clsName_of_noLoad none, refersTo, loads]
  | cons load others =>
    obtain ⟨serial, nameID⟩ := load
    have loaded : .loadClass serial obj.classID nameID ∈ history :=
      mem_loadsOf.mp (loads ▸ List.mem_cons_self : (serial, nameID) ∈ loadsOf obj.classID history)
    obtain ⟨earlier, later, rfl, strings⟩ :=
      inOrder before obj after whole first serial nameID loaded
    have last : loadsOf obj.classID later = [] := by
      have few := (loadsOf_sublist obj.classID inside).length_le.trans (distinct.classes _)
      have here : loadOf obj.classID (.loadClass serial obj.classID nameID) =
          some (serial, nameID) := if_pos rfl
      rw [loadsOf, List.filterMap_append, List.filterMap_cons_some here, List.length_append,
        List.length_cons] at few
      exact List.eq_nil_of_length_eq_zero (by rw [loadsOf]; omega)
    have front : earlier.Sublist history := (List.sublist_append_left _ _).trans inside
    have texts : textsOf nameID earlier = textsOf nameID history := by
      refine eq_of_sublist (textsOf_sublist _ front) (distinct.strings _) fun text member => ?_
      exact mem_textsOf.mpr (strings text (mem_textsOf.mp member))
    rw [clsName_of_lastLoad last, refersTo_of_load distinct loaded, texts,
      getLast_of_single (distinct.strings nameID)]

/-- Strings that are shown neither as nothing nor as the name for an unknown class. -/
def Telling (events : List Event) : Prop :=
  ∀ id text, .string id text ∈ events → shownName text ≠ [] ∧ shownName text ≠ ascii "unknown"

theorem inOrder_of_clsName (distinct : DistinctIds history) (telling : Telling history)
    (right : ∀ before obj after, history = before ++ .object obj :: after →
      objectsOf obj.classID before = [] →
      clsName (processAfter idSize [] before).p obj.classID =
        refersTo history obj.classID) : InOrder history := by
  intro before obj after whole first serial nameID loaded
  have inside : before.Sublist history := whole ▸ List.sublist_append_left _ _
  have named := right before obj after whole first
  rw [refersTo_of_load distinct loaded] at named
  rcases exists_lastLoad obj.classID before with
    none | ⟨earlier, serial', nameID', later, rfl, last⟩
  · rw [clsName_of_noLoad none] at named
    cases texts : textsOf nameID history with
    | nil =>
      rw [texts] at named
      exact absurd named (by decide +kernel)
    | cons text others =>
      have told : .string nameID text ∈ history :=
        mem_textsOf.mp (texts ▸ List.mem_cons_self : text ∈ textsOf nameID history)
      rw [texts] at named
      exact absurd named.symm (telling nameID text told).2
  · have member : Event.loadClass serial' obj.classID nameID' ∈ history :=
      inside.subset (by simp)
    have same : (serial', nameID') = (serial, nameID) :=
      eq_of_mem_single (distinct.classes obj.classID) (mem_loadsOf.mpr member)
        (mem_loadsOf.mpr loaded)
    cases same
    refine ⟨earlier, later, rfl, fun text told => ?_⟩
    have member := mem_textsOf.mpr told
    rw [clsName_of_lastLoad last, ← getLast_of_single (distinct.strings nameID)] at named
    have front : earlier.Sublist history := (List.sublist_append_left _ _).trans inside
    have sub := textsOf_sublist nameID front
    cases texts : textsOf nameID earlier with
    | nil =>
      rw [texts, eq_singleton_of_mem (distinct.strings nameID) member] at named
      exact absurd named.symm (telling nameID text told).1
    | cons other others =>
      have here : other ∈ textsOf nameID earlier := texts ▸ List.mem_cons_self
      rw [eq_of_mem_single (distinct.strings nameID) member (sub.subset here)]
      exact mem_textsOf.mp here

end lookups

section perm
variable {other : List Event}

theorem DistinctIds.perm (distinct : DistinctIds history) (perm : other.Perm history) :
    DistinctIds other where
  strings id := (perm.filterMap (textOf id)).length_eq.trans_le (distinct.strings id)
  classes c := (perm.filterMap (loadOf c)).length_eq.trans_le (distinct.classes c)

theorem refersTo_perm (distinct : DistinctIds history) (perm : other.Perm history) (c : UInt64) :
    refersTo other c = refersTo history c := by
  have loads : loadsOf c other = loadsOf c history :=
    eq_of_perm_single (distinct.classes c) (perm.filterMap _)
  have texts : ∀ id, textsOf id other = textsOf id history :=
    fun id => eq_of_perm_single (distinct.strings id) (perm.filterMap _)
  simp only [refersTo, loads, texts]

def anyObject : Event → Option HeapObject
  | .object obj => some obj
  | _ => none

theorem objects_foldl (start : Process) (events : List Event) :
    (events.foldl absorb start).p.objects = start.p.objects ++ events.filterMap anyObject := by
  induction events generalizing start with
  | nil => exact (List.append_nil _).symm
  | cons event events ih =>
    rw [List.foldl_cons, ih]
    cases event with
    | string id text => rfl
    | loadClass serial j nameID => rfl
    | object obj =>
      rw [absorb, addObject_eq, List.filterMap_cons_some (rfl : anyObject (.object obj) = some obj),
        List.append_assoc]
      rfl

end perm

end names

section reports
variable {file file' : AcceptedFile}

/-- Each class with objects is reported under the name that its LOAD CLASS record refers to. -/
def CarriesNames (file : AcceptedFile) : Prop :=
  ∀ c acc, get file.parsed.sizeByCls c = some acc → acc.name = refersTo file.content c

section aligned
variable (aligned : file.Aligned)
include aligned

theorem nameOf_parsed {before after : List Event} {obj : HeapObject}
    (whole : file.content = before ++ .object obj :: after)
    (first : objectsOf obj.classID before = []) :
    nameOf file.parsed obj.classID =
      some (clsName (processAfter file.idSize [] before).p obj.classID) := by
  rw [file.parsed_eq aligned, whole, nameOf_of_firstObject rfl first]

theorem nameOf_of_noObject_parsed {c : UInt64} (absent : objectsOf c file.content = []) :
    nameOf file.parsed c = none := by
  rw [file.parsed_eq aligned, nameOf_of_noObject absent]
  rfl

theorem carriesNames_iff : CarriesNames file ↔
    ∀ before obj after, file.content = before ++ .object obj :: after →
      objectsOf obj.classID before = [] →
      clsName (processAfter file.idSize [] before).p obj.classID =
        refersTo file.content obj.classID := by
  constructor
  · intro carries before obj after whole first
    obtain ⟨acc, held, name⟩ := Option.map_eq_some_iff.mp (nameOf_parsed aligned whole first)
    rw [← name, carries _ acc held]
  · intro right c acc held
    have named : nameOf file.parsed c = some acc.name := by rw [nameOf, held, Option.map_some]
    rcases exists_firstObject c file.content with absent | ⟨before, obj, after, whole, rfl, first⟩
    · rw [nameOf_of_noObject_parsed aligned absent] at named
      cases named
    · rw [nameOf_parsed aligned whole first, right before obj after whole first,
        Option.some_inj] at named
      exact named.symm

theorem carriesNames_of_inOrder (distinct : DistinctIds file.content)
    (inOrder : InOrder file.content) : CarriesNames file :=
  (carriesNames_iff aligned).mpr fun _ _ _ whole first =>
    clsName_of_inOrder distinct inOrder whole first file.idSize

theorem inOrder_of_carriesNames (distinct : DistinctIds file.content)
    (telling : Telling file.content) (carries : CarriesNames file) : InOrder file.content :=
  inOrder_of_clsName distinct telling ((carriesNames_iff aligned).mp carries)

theorem nameOf_of_carriesNames (carries : CarriesNames file) (c : UInt64) :
    nameOf file.parsed c =
      if objectsOf c file.content = [] then none else some (refersTo file.content c) := by
  split_ifs with absent
  · exact nameOf_of_noObject_parsed aligned absent
  · obtain ⟨before, obj, after, whole, rfl, first⟩ :=
      (exists_firstObject c file.content).resolve_left absent
    rw [nameOf_parsed aligned whole first,
      (carriesNames_iff aligned).mp carries before obj after whole first]

theorem accounted_parsed : Accounted file.parsed := by
  rw [file.parsed_eq aligned]
  exact accounted_events _ _ _

end aligned

/-- The same top-level records, in any order, behind the same header. -/
structure Reordered (file file' : AcceptedFile) : Prop where
  front : file'.front = file.front
  records : file'.records.Perm file.records

theorem Reordered.idSize (reordered : Reordered file file') : file'.idSize = file.idSize := by
  have opens := file'.opens
  obtain ⟨front, whole, elsewhere⟩ := opens_piece file.opens
  rw [reordered.front, List.append_cancel_right whole] at opens
  exact (opens_unique opens (elsewhere _)).1

theorem Reordered.content (reordered : Reordered file file') :
    file'.content.Perm file.content := by
  rw [AcceptedFile.content, AcceptedFile.content, reordered.idSize]
  exact reordered.records.flatMap_right _

theorem Reordered.aligned (reordered : Reordered file file') (aligned : file.Aligned) :
    file'.Aligned := by
  intro record member heap
  rw [reordered.idSize]
  exact aligned record (reordered.records.subset member) heap

/-- For every `topN` that has room for all classes. -/
def SameReport (p p' : HPROFParser) : Prop :=
  ∀ (bySum bySum' : SortSlice largerTotal) (bySize bySize' : SortSlice largerObject)
    (order order' : List ClsAccum) (topN topN' : Int),
    order.Perm (accumulators p) → order'.Perm (accumulators p') →
    (accumulators p).length ≤ limit topN → (accumulators p').length ≤ limit topN' →
    ((analyze bySum bySize order p topN).1.topObjects.map
        fun s => (s.className, s.count, s.totalSize)).Perm
      ((analyze bySum' bySize' order' p' topN').1.topObjects.map
        fun s => (s.className, s.count, s.totalSize))

theorem sameReport_of_perm {p p' : HPROFParser} (same : p.sizeByCls.Perm p'.sizeByCls) :
    SameReport p p' := by
  intro bySum bySum' bySize bySize' order order' topN topN' visited visited' room room'
  have accs : (accumulators p).Perm (accumulators p') := same.filterMap _
  exact (perm_topObjects bySum bySize visited room).trans
    ((accs.map _).trans (perm_topObjects bySum' bySize' visited' room').symm)

theorem sameReport_of_carriesNames (reordered : Reordered file file') (aligned : file.Aligned)
    (distinct : DistinctIds file.content) (carries : CarriesNames file)
    (carries' : CarriesNames file') : SameReport file.parsed file'.parsed := by
  have perm := reordered.content
  have aligned' := reordered.aligned aligned
  refine sameReport_of_perm (sizeByCls_perm (accounted_parsed aligned) (accounted_parsed aligned')
    ?_ fun c => ?_)
  · rw [file.parsed_eq aligned, file'.parsed_eq aligned', objects_foldl, objects_foldl]
    exact (perm.symm.filterMap anyObject).append_left _
  · have objects : objectsOf c file'.content = [] ↔ objectsOf c file.content = [] := by
      have same : (objectsOf c file'.content).Perm (objectsOf c file.content) := perm.filterMap _
      rw [← List.length_eq_zero_iff, same.length_eq, List.length_eq_zero_iff]
    rw [nameOf_of_carriesNames aligned carries, nameOf_of_carriesNames aligned' carries',
      refersTo_perm distinct perm]
    simp only [objects]

theorem reordered_report (reordered : Reordered file file') (distinct : DistinctIds file.content)
    (aligned : file.Aligned) :
    (InOrder file.content ∧ InOrder file'.content →
      CarriesNames file ∧ CarriesNames file' ∧ SameReport file.parsed file'.parsed) ∧
    (Telling file.content → CarriesNames file ∧ CarriesNames file' →
      InOrder file.content ∧ InOrder file'.content) := by
  have perm := reordered.content
  have distinct' := distinct.perm perm
  have aligned' := reordered.aligned aligned
  constructor
  · rintro ⟨inOrder, inOrder'⟩
    have carries := carriesNames_of_inOrder aligned distinct inOrder
    have carries' := carriesNames_of_inOrder aligned' distinct' inOrder'
    exact ⟨carries, carries',
      sameReport_of_carriesNames reordered aligned distinct carries carries'⟩
  · rintro telling ⟨carries, carries'⟩
    have telling' : Telling file'.content := fun id text member =>
      telling id text (perm.subset member)
    exact ⟨inOrder_of_carriesNames aligned distinct telling carries,
      inOrder_of_carriesNames aligned' distinct' telling' carries'⟩

def TopRecord.ofRecord {idSize : Nat} (record : Record idSize) : TopRecord :=
  ⟨record.body.tag, record.time, record.body.encode, record.short⟩

theorem flatMap_ofRecord {idSize : Nat} (records : List (Record idSize)) :
    (records.map TopRecord.ofRecord).flatMap TopRecord.encode = records.flatMap Record.encode := by
  rw [List.flatMap_map]
  refine List.flatMap_congr fun record _ => ?_
  simp only [TopRecord.encode, TopRecord.ofRecord, Record.encode, List.append_assoc]

def AcceptedFile.ofDump (dump : Dump) : AcceptedFile where
  front := dump.header ++ [0] ++ encode 4 dump.idSize.bytes ++ word dump.timestamp
  idSize := dump.idSize.bytes
  records := dump.records.map TopRecord.ofRecord
  opens := by
    rw [flatMap_ofRecord]
    exact HprofRoundTrip.opens_encode dump
  accepted := by
    rw [flatMap_ofRecord]
    obtain ⟨p, stringMap, ran, _⟩ := HprofRoundTrip.parse_encode dump
    exact ⟨_, ran⟩

theorem filled_objects (supported : idSize = 4 ∨ idSize = 8) {objects : List (ObjectDump idSize)}
    (short : (objects.flatMap ObjectDump.encode).length < 256 ^ 4) :
    Filled idSize (objects.flatMap ObjectDump.encode) := by
  rw [← HprofRoundTrip.flatMap_object] at short ⊢
  refine filled_of_benign supported (fun sub member => ?_) short
  obtain ⟨dump, _, rfl⟩ := List.mem_map.mp member
  trivial

theorem aligned_ofDump (dump : Dump) : (AcceptedFile.ofDump dump).Aligned := by
  intro record member heap
  obtain ⟨⟨time, body, short⟩, _, rfl⟩ := List.mem_map.mp member
  cases body with
  | heapDump segment objects => exact filled_objects dump.idSize.bytes_cases short
  | string id text => exact absurd heap (by decide : ¬ (tagString = _ ∨ tagString = _))
  | loadClass serial classId stack nameId =>
    exact absurd heap (by decide : ¬ (tagLoadClass = _ ∨ tagLoadClass = _))
  | other tag unknown bytes =>
    refine absurd ?_ unknown
    rcases heap with isHeap | isSegment
    · rw [show tag = tagHeapDump from isHeap]
      decide
    · rw [show tag = tagHeapDumpSeg from isSegment]
      decide

def stringA : Record 4 :=
  ⟨fourBytes 0, .string (fourBytes 1) (ascii "java/A"), by decide⟩

def stringB : Record 4 :=
  ⟨fourBytes 0, .string (fourBytes 2) (ascii "java/B"), by decide⟩

def heapOfA : Record 4 :=
  ⟨fourBytes 0, .heapDump false [smallInstance 3 7 [0, 0]], by decide⟩

def twoStrings : AcceptedFile := .ofDump (fourByteDump [stringA, stringB, loadSeven, heapOfA])

def twoStringsSwapped : AcceptedFile :=
  .ofDump (fourByteDump [stringB, stringA, loadSeven, heapOfA])

def heapFirst : AcceptedFile := .ofDump (fourByteDump [heapOfA, stringA, stringB, loadSeven])

theorem twoStrings_content : twoStrings.content = [.string 1 (ascii "java/A"),
    .string 2 (ascii "java/B"), .loadClass 1 7 1, .object ⟨3, 7, 2, .ofInstance⟩] := by
  decide +kernel

theorem twoStringsSwapped_content : twoStringsSwapped.content = [.string 2 (ascii "java/B"),
    .string 1 (ascii "java/A"), .loadClass 1 7 1, .object ⟨3, 7, 2, .ofInstance⟩] := by
  decide +kernel

theorem inOrder_oneObject (i j n : UInt64) (s t : Bytes) :
    InOrder [.string i s, .string j t, .loadClass 1 7 n, .object ⟨3, 7, 2, .ofInstance⟩] := by
  intro before obj after whole first serial nameID loaded
  refine ⟨[.string i s, .string j t], [], ?_, fun text member => by simpa using member⟩
  simp only [List.mem_cons, reduceCtorEq, Event.loadClass.injEq, List.not_mem_nil, or_false,
    false_or] at loaded
  obtain ⟨rfl, ofClass, rfl⟩ := loaded
  rw [ofClass]
  rcases before with _ | ⟨_, _ | ⟨_, _ | ⟨_, _ | ⟨_, rest⟩⟩⟩⟩ <;> simp_all

theorem distinctIds_oneObject {i j : UInt64} (differ : i ≠ j) (n : UInt64) (s t : Bytes) :
    DistinctIds [.string i s, .string j t, .loadClass 1 7 n, .object ⟨3, 7, 2, .ofInstance⟩] := by
  constructor
  · intro id
    simp only [textsOf, textOf, List.filterMap_cons]
    split_ifs with first second
    · exact absurd (first.trans second.symm) differ
    all_goals simp
  · intro c
    simp only [loadsOf, loadOf, List.filterMap_cons]
    split_ifs <;> simp

theorem distinctIds_twoStrings : DistinctIds twoStrings.content := by
  rw [twoStrings_content]
  exact distinctIds_oneObject (by decide) _ _ _

theorem reordered_report_twoStrings :
    CarriesNames twoStrings ∧ CarriesNames twoStringsSwapped ∧
      SameReport twoStrings.parsed twoStringsSwapped.parsed := by
  have reordered : Reordered twoStrings twoStringsSwapped := ⟨rfl, .swap _ _ _⟩
  refine (reordered_report reordered distinctIds_twoStrings (aligned_ofDump _)).1 ⟨?_, ?_⟩
  · rw [twoStrings_content]
    exact inOrder_oneObject _ _ _ _ _
  · rw [twoStringsSwapped_content]
    exact inOrder_oneObject _ _ _ _ _

/-- With the heap dump in front the class has no name when its object comes. -/
theorem heapFirst_unknown :
    Reordered twoStrings heapFirst ∧ DistinctIds twoStrings.content ∧ twoStrings.Aligned ∧
    (analyze largestSums largestObjects (accumulators twoStrings.parsed)
      twoStrings.parsed 20).1.topObjects.map LeakSuspect.className = [ascii "java.A"] ∧
    (analyze largestSums largestObjects (accumulators heapFirst.parsed)
      heapFirst.parsed 20).1.topObjects.map LeakSuspect.className = [ascii "unknown"] := by
  have moved : ([heapOfA] ++ [stringA, stringB, loadSeven]).Perm
      ([stringA, stringB, loadSeven] ++ [heapOfA]) := List.perm_append_comm
  exact ⟨⟨rfl, moved.map TopRecord.ofRecord⟩, distinctIds_twoStrings, aligned_ofDump _,
    by decide +kernel, by decide +kernel⟩

def rootRecord : TopRecord :=
  ⟨tagHeapDump, fourBytes 0, (SubRecord.gcRoot (.stickyClass (fourBytes 1))).encode, by decide⟩

def sixBytes : TopRecord := ⟨tagString, fourBytes 0, encode 4 6 ++ ascii "java/A", by decide⟩

def threeBytes : TopRecord := ⟨tagString, fourBytes 0, encode 4 3 ++ ascii "abc", by decide⟩

def loadSix : TopRecord :=
  ⟨tagLoadClass, fourBytes 0, encode 4 1 ++ encode 4 7 ++ encode 4 0 ++ encode 4 6, by decide⟩

def objectFirst : List TopRecord :=
  [sixBytes, loadSix, .ofRecord heapOfA, rootRecord, threeBytes]

def objectLast : List TopRecord :=
  [threeBytes, rootRecord, sixBytes, loadSix, .ofRecord heapOfA]

theorem opens_fourBytes (rest : Bytes) : Opens ((fourByteDump []).encode ++ rest) 4 rest := by
  obtain ⟨front, whole, elsewhere⟩ := opens_piece (HprofRoundTrip.opens_encode (fourByteDump []))
  have same : (fourByteDump []).encode = front := whole.trans (List.append_nil front)
  rw [same]
  exact elsewhere rest

def namedFile : AcceptedFile :=
  ⟨(fourByteDump []).encode, 4, objectFirst, opens_fourBytes _, by decide +kernel⟩

def unnamedFile : AcceptedFile :=
  ⟨(fourByteDump []).encode, 4, objectLast, opens_fourBytes _, by decide +kernel⟩

theorem namedFile_content : namedFile.content = [.string 6 (ascii "java/A"), .loadClass 1 7 6,
    .object ⟨3, 7, 2, .ofInstance⟩, .string 3 (ascii "abc")] := by
  decide +kernel

theorem unnamedFile_content : unnamedFile.content = [.string 3 (ascii "abc"),
    .string 6 (ascii "java/A"), .loadClass 1 7 6, .object ⟨3, 7, 2, .ofInstance⟩] := by
  decide +kernel

/-- The root takes the first four bytes of the next record, and what is left of that reads as a
record of an unknown kind. In front of the string 6 this costs the class its name, though in
both files its records come in order. -/
theorem overreadRoot_loses_name :
    Reordered namedFile unnamedFile ∧ DistinctIds namedFile.content ∧
    InOrder namedFile.content ∧ InOrder unnamedFile.content ∧
    (analyze largestSums largestObjects (accumulators namedFile.parsed)
      namedFile.parsed 20).1.topObjects.map LeakSuspect.className = [ascii "java.A"] ∧
    (analyze largestSums largestObjects (accumulators unnamedFile.parsed)
      unnamedFile.parsed 20).1.topObjects.map LeakSuspect.className = [[]] := by
  have moved : ([threeBytes, rootRecord] ++ [sixBytes, loadSix, .ofRecord heapOfA]).Perm
      ([sixBytes, loadSix, .ofRecord heapOfA] ++ [rootRecord, threeBytes]) :=
    List.perm_append_comm.trans ((List.Perm.swap _ _ _).append_left _)
  refine ⟨⟨rfl, moved⟩, ?_, ?_, ?_, by decide +kernel, by decide +kernel⟩
  · rw [namedFile_content]
    have distinct := distinctIds_oneObject (by decide : (3 : UInt64) ≠ 6) 6 (ascii "abc")
      (ascii "java/A")
    exact distinct.perm (List.perm_append_singleton (Event.string 3 (ascii "abc")) [.string 6
      (ascii "java/A"), .loadClass 1 7 6, .object ⟨3, 7, 2, .ofInstance⟩])
  · rw [namedFile_content]
    intro before obj after whole first serial nameID loaded
    simp only [List.mem_cons, reduceCtorEq, Event.loadClass.injEq, List.not_mem_nil, or_false,
      false_or] at loaded
    obtain ⟨rfl, ofClass, rfl⟩ := loaded
    refine ⟨[.string 6 (ascii "java/A")], [], ?_, fun text member => by simpa using member⟩
    rw [ofClass]
    rcases before with _ | ⟨_, _ | ⟨_, _ | ⟨_, _ | ⟨_, rest⟩⟩⟩⟩ <;> simp_all
  · rw [unnamedFile_content]
    exact inOrder_oneObject _ _ _ _ _

end reports

end DropPlatform.HeapReorder
