import DropPlatform.HeapAccounts

/-! The names in a heap report. The string behind a class is looked up when the class is
loaded, the class when its first object comes, and neither is looked up again. The string
table is shared by all parsers, so a class may be named by a string of an earlier file. -/

namespace DropPlatform.HeapNames
open ByteReaders KeyedStores HprofParser HprofFormat HprofSteps HprofFraming HprofEvents
  HeapAccounts

section splits
variable {α β : Type} (f : α → Option β) (l : List α)

theorem exists_last : l.filterMap f = [] ∨ ∃ before a b after,
    l = before ++ a :: after ∧ f a = some b ∧ after.filterMap f = [] := by
  induction l with
  | nil => exact .inl rfl
  | cons a l ih =>
    rcases ih with none | ⟨before, x, b, after, rfl, found, last⟩
    · cases here : f a with
      | none => exact .inl (by rw [List.filterMap_cons_none here, none])
      | some b => exact .inr ⟨[], a, b, l, rfl, here, none⟩
    · exact .inr ⟨a :: before, x, b, after, rfl, found, last⟩

theorem exists_first : l.filterMap f = [] ∨ ∃ before a b after,
    l = before ++ a :: after ∧ f a = some b ∧ before.filterMap f = [] := by
  induction l with
  | nil => exact .inl rfl
  | cons a l ih =>
    cases here : f a with
    | some b => exact .inr ⟨[], a, b, l, rfl, here, rfl⟩
    | none =>
      rcases ih with none | ⟨before, x, b, after, rfl, found, first⟩
      · exact .inl (by rw [List.filterMap_cons_none here, none])
      · exact .inr ⟨a :: before, x, b, after, rfl, found, by
          rw [List.filterMap_cons_none here, first]⟩

end splits

section lookups
variable {c id : UInt64} {start : Process}

def textOf (id : UInt64) : Event → Option Bytes
  | .string j text => if j = id then some text else none
  | _ => none

def loadOf (c : UInt64) : Event → Option (UInt32 × UInt64)
  | .loadClass serial j nameID => if j = c then some (serial, nameID) else none
  | _ => none

def objectOf (c : UInt64) : Event → Option HeapObject
  | .object obj => if obj.classID = c then some obj else none
  | _ => none

def textsOf (id : UInt64) (events : List Event) : List Bytes := events.filterMap (textOf id)

/-- The LOAD CLASS records of a class: serial number and id of the name. -/
def loadsOf (c : UInt64) (events : List Event) : List (UInt32 × UInt64) :=
  events.filterMap (loadOf c)

def objectsOf (c : UInt64) (events : List Event) : List HeapObject :=
  events.filterMap (objectOf c)

theorem textOf_eq_some {event : Event} {text : Bytes} :
    textOf id event = some text ↔ event = .string id text := by
  cases event <;> simp [textOf]

theorem loadOf_eq_some {event : Event} {load : UInt32 × UInt64} :
    loadOf c event = some load ↔ event = .loadClass load.1 c load.2 := by
  cases event <;> simp [loadOf, Prod.ext_iff, and_left_comm]

theorem objectOf_eq_some {event : Event} {obj : HeapObject} :
    objectOf c event = some obj ↔ event = .object obj ∧ obj.classID = c := by
  cases event with
  | object found =>
    simp only [objectOf, Option.ite_none_right_eq_some, Option.some_inj, Event.object.injEq]
    exact ⟨fun ⟨same, found⟩ => ⟨found, found ▸ same⟩, fun ⟨found, same⟩ => ⟨found ▸ same, found⟩⟩
  | string id text => simp [objectOf]
  | loadClass serial j nameID => simp [objectOf]

theorem mem_textsOf {events : List Event} {text : Bytes} :
    text ∈ textsOf id events ↔ .string id text ∈ events := by
  simp only [textsOf, List.mem_filterMap, textOf_eq_some, exists_eq_right]

theorem mem_loadsOf {events : List Event} {load : UInt32 × UInt64} :
    load ∈ loadsOf c events ↔ .loadClass load.1 c load.2 ∈ events := by
  simp only [loadsOf, List.mem_filterMap, loadOf_eq_some, exists_eq_right]

theorem get_stringMap (start : Process) (id : UInt64) (events : List Event) :
    get (events.foldl absorb start).stringMap id =
      (textsOf id events).getLast?.getD (get start.stringMap id) := by
  induction events using List.reverseRecOn with
  | nil => rfl
  | append_singleton events event ih =>
    rw [List.foldl_concat, textsOf, List.filterMap_append]
    cases event with
    | string j text =>
      rw [absorb, get_set, ih]
      by_cases same : j = id
      · simp [textOf, same]
      · simp [textOf, same, textsOf]
    | loadClass serial j nameID =>
      rw [absorb, ih]
      simp [textOf, textsOf]
    | object obj =>
      rw [absorb, ih]
      simp [textOf, textsOf]

theorem get_classes_absorb (event : Event) (notLoaded : loadOf c event = none) :
    get (absorb start event).p.classes c = get start.p.classes c := by
  cases event with
  | string j text => rfl
  | loadClass serial j nameID =>
    have other : j ≠ c := fun same => by simp [loadOf, same] at notLoaded
    rw [absorb, get_set, if_neg other]
  | object obj => rfl

theorem get_classes_of_noLoad {events : List Event} (none : loadsOf c events = []) :
    get (events.foldl absorb start).p.classes c = get start.p.classes c := by
  induction events generalizing start with
  | nil => rfl
  | cons event events ih =>
    obtain ⟨first, others⟩ := List.forall_mem_cons.mp (List.filterMap_eq_nil_iff.mp none)
    rw [List.foldl_cons, ih (List.filterMap_eq_nil_iff.mpr others), get_classes_absorb event first]

theorem get_classes_of_lastLoad {before after : List Event} {serial : UInt32} {nameID : UInt64}
    (last : loadsOf c after = []) :
    get ((before ++ .loadClass serial c nameID :: after).foldl absorb start).p.classes c =
      some ⟨serial, c, shownName ((textsOf nameID before).getLast?.getD
        (get start.stringMap nameID))⟩ := by
  rw [List.foldl_append, List.foldl_cons, get_classes_of_noLoad last, absorb, get_set, if_pos rfl,
    get_stringMap]

theorem exists_lastLoad (c : UInt64) (events : List Event) :
    loadsOf c events = [] ∨ ∃ before serial nameID after,
      events = before ++ .loadClass serial c nameID :: after ∧ loadsOf c after = [] := by
  rcases exists_last (loadOf c) events with none | ⟨before, event, load, after, rfl, found, last⟩
  · exact .inl none
  · rw [loadOf_eq_some.mp found]
    exact .inr ⟨before, load.1, load.2, after, rfl, last⟩

theorem exists_firstObject (c : UInt64) (events : List Event) :
    objectsOf c events = [] ∨ ∃ before obj after,
      events = before ++ .object obj :: after ∧ obj.classID = c ∧ objectsOf c before = [] := by
  rcases exists_first (objectOf c) events with none | ⟨before, event, obj, after, rfl, found, first⟩
  · exact .inl none
  · obtain ⟨rfl, ofClass⟩ := objectOf_eq_some.mp found
    exact .inr ⟨before, obj, after, rfl, ofClass, first⟩

def nameOf (p : HPROFParser) (c : UInt64) : Option Bytes :=
  (get p.sizeByCls c).map ClsAccum.name

theorem nameOf_absorb (start : Process) (event : Event) :
    nameOf (absorb start event).p c = if (objectOf c event).isSome
      then some ((nameOf start.p c).getD (clsName start.p c)) else nameOf start.p c := by
  cases event with
  | string id text => rfl
  | loadClass serial j nameID => rfl
  | object obj =>
    rw [absorb, addObject_eq, nameOf, get_set, accum]
    by_cases same : obj.classID = c
    · rw [if_pos same, same, nameOf]
      cases get start.p.sizeByCls c <;> simp [objectOf, same]
    · simp [objectOf, same, nameOf]

theorem nameOf_of_noObject {events : List Event} (none : objectsOf c events = []) :
    nameOf (events.foldl absorb start).p c = nameOf start.p c := by
  induction events generalizing start with
  | nil => rfl
  | cons event events ih =>
    obtain ⟨first, others⟩ := List.forall_mem_cons.mp (List.filterMap_eq_nil_iff.mp none)
    rw [List.foldl_cons, ih (List.filterMap_eq_nil_iff.mpr others), nameOf_absorb, first]
    rfl

theorem nameOf_of_named {name : Bytes} (events : List Event)
    (named : nameOf start.p c = some name) :
    nameOf (events.foldl absorb start).p c = some name := by
  induction events generalizing start with
  | nil => exact named
  | cons event events ih =>
    refine ih ?_
    rw [nameOf_absorb, named]
    split_ifs <;> rfl

theorem nameOf_of_firstObject {before after : List Event} {obj : HeapObject}
    (fresh : nameOf start.p obj.classID = none) (first : objectsOf obj.classID before = []) :
    nameOf ((before ++ .object obj :: after).foldl absorb start).p obj.classID =
      some (clsName (before.foldl absorb start).p obj.classID) := by
  rw [List.foldl_append, List.foldl_cons]
  refine nameOf_of_named after ?_
  rw [nameOf_absorb, nameOf_of_noObject first, fresh]
  simp [objectOf]

end lookups

section accounts
variable {p p' : HPROFParser}

theorem get_sizeByCls (accounted : Accounted p) (c : UInt64) :
    get p.sizeByCls c = (nameOf p c).map fun name =>
      ⟨name, (ofClass c p.objects).length, .ofNat (sizeSum (ofClass c p.objects))⟩ := by
  rw [nameOf]
  by_cases present : c ∈ p.sizeByCls.map Prod.fst
  · obtain ⟨⟨_, entry⟩, member, rfl⟩ := List.mem_map.mp present
    obtain ⟨acc, rfl, count, size⟩ := accounted.sums _ _ member
    rw [get_eq_of_mem accounted.distinct member, Option.map_some, Option.map_some, ← count, ← size]
  · have none : get p.sizeByCls c = none := get_of_not_mem present
    rw [none]
    rfl

theorem get_sizeByCls_congr (accounted : Accounted p) (accounted' : Accounted p')
    (objects : p.objects.Perm p'.objects) {c : UInt64} (names : nameOf p c = nameOf p' c) :
    get p.sizeByCls c = get p'.sizeByCls c := by
  have same : (ofClass c p.objects).Perm (ofClass c p'.objects) := objects.filter _
  have sizes : sizeSum (ofClass c p.objects) = sizeSum (ofClass c p'.objects) :=
    (same.map _).sum_eq
  rw [get_sizeByCls accounted, get_sizeByCls accounted', names, same.length_eq, sizes]

theorem sizeByCls_perm (accounted : Accounted p) (accounted' : Accounted p')
    (objects : p.objects.Perm p'.objects) (names : ∀ c, nameOf p c = nameOf p' c) :
    p.sizeByCls.Perm p'.sizeByCls := by
  have keys : (p.sizeByCls.map Prod.fst).Perm (p'.sizeByCls.map Prod.fst) := by
    rw [List.perm_ext_iff_of_nodup accounted.distinct accounted'.distinct]
    intro c
    rw [accounted.classes, accounted'.classes, (objects.map _).mem_iff]
  have values : (fun c => (c, get p.sizeByCls c)) = fun c => (c, get p'.sizeByCls c) := by
    funext c
    rw [get_sizeByCls_congr accounted accounted' objects (names c)]
  rw [eq_map_keys accounted.distinct, eq_map_keys accounted'.distinct, values]
  exact keys.map _

end accounts

section twoRuns

/-- What two parsers of one file have in common whatever the string table held. -/
structure Alike (s t : Process) : Prop where
  idSize : s.p.idSize = t.p.idSize
  objects : s.p.objects = t.p.objects
  totalSize : s.p.totalSize = t.p.totalSize
  totalObj : s.p.totalObj = t.p.totalObj
  classIDs : s.p.classes.map Prod.fst = t.p.classes.map Prod.fst
  sizeIDs : s.p.sizeByCls.map Prod.fst = t.p.sizeByCls.map Prod.fst
  distinct : (s.p.classes.map Prod.fst).Nodup

variable {s t : Process}

theorem Alike.absorb (alike : Alike s t) (event : Event) :
    Alike (absorb s event) (HprofEvents.absorb t event) := by
  cases event with
  | string id text => exact ⟨alike.1, alike.2, alike.3, alike.4, alike.5, alike.6, alike.7⟩
  | loadClass serial j nameID =>
    refine ⟨alike.idSize, alike.objects, alike.totalSize, alike.totalObj, ?_, alike.sizeIDs,
      nodup_keys_set alike.distinct _ _⟩
    simp only [HprofEvents.absorb, keys_set, alike.classIDs]
  | object obj =>
    simp only [HprofEvents.absorb, addObject_eq]
    refine ⟨alike.idSize, ?_, ?_, ?_, alike.classIDs, ?_, alike.distinct⟩
    · simp only [alike.objects]
    · simp only [alike.totalSize]
    · simp only [alike.totalObj]
    · simp only [keys_set, alike.sizeIDs]

theorem Alike.foldl (alike : Alike s t) (events : List Event) :
    Alike (events.foldl HprofEvents.absorb s) (events.foldl HprofEvents.absorb t) := by
  induction events generalizing s t with
  | nil => exact alike
  | cons event events ih => exact ih (alike.absorb event)

theorem Alike.eq_iff (alike : Alike s t) (accounted : Accounted s.p) (accounted' : Accounted t.p) :
    s.p = t.p ↔ (∀ c, get s.p.classes c = get t.p.classes c) ∧
      ∀ c, nameOf s.p c = nameOf t.p c := by
  refine ⟨fun same => ⟨fun c => by rw [same], fun c => by rw [same]⟩, fun ⟨classes, names⟩ => ?_⟩
  have sameClasses : s.p.classes = t.p.classes := by
    have distinct : (t.p.classes.map Prod.fst).Nodup := alike.classIDs ▸ alike.distinct
    rw [eq_map_keys alike.distinct, eq_map_keys distinct, alike.classIDs]
    exact List.map_congr_left fun c _ => by rw [classes c]
  have sameSizes : s.p.sizeByCls = t.p.sizeByCls := by
    rw [eq_map_keys accounted.distinct, eq_map_keys accounted'.distinct, alike.sizeIDs]
    refine List.map_congr_left fun c _ => ?_
    rw [get_sizeByCls_congr accounted accounted' (.of_eq alike.objects) (names c)]
  have objects := alike.objects
  have totalSize := alike.totalSize
  have totalObj := alike.totalObj
  have idSize := alike.idSize
  cases s with | mk p table =>
  cases t with | mk p' table' =>
  cases p
  cases p'
  simp_all

/-- The name that the class has behind these events is a string of an earlier file: its last
LOAD CLASS record refers to a string that the table holds and the file did not define before. -/
def Borrows (table : Keyed UInt64 Bytes) (c : UInt64) (events : List Event) : Prop :=
  ∃ before serial nameID after, events = before ++ .loadClass serial c nameID :: after ∧
    loadsOf c after = [] ∧ textsOf nameID before = [] ∧ shownName (get table nameID) ≠ []

/-- Such a name is in the list of the classes at the end, or was there at the first object. -/
def Leaks (table : Keyed UInt64 Bytes) (events : List Event) : Prop :=
  (∃ c, Borrows table c events) ∨ ∃ before obj after, events = before ++ .object obj :: after ∧
    objectsOf obj.classID before = [] ∧ Borrows table obj.classID before

def opened (idSize : Nat) (table : Keyed UInt64 Bytes) : Process :=
  withIdSize ⟨newHPROFParser, table⟩ idSize

abbrev processAfter (idSize : Nat) (table : Keyed UInt64 Bytes) (history : List Event) : Process :=
  history.foldl HprofEvents.absorb (opened idSize table)

variable {idSize : Nat} {table : Keyed UInt64 Bytes} {c : UInt64} {history : List Event}

theorem alike_opened (idSize : Nat) (table table' : Keyed UInt64 Bytes) :
    Alike (opened idSize table) (opened idSize table') :=
  ⟨rfl, rfl, rfl, rfl, rfl, rfl, List.nodup_nil⟩

theorem accounted_events (idSize : Nat) (table : Keyed UInt64 Bytes) (history : List Event) :
    Accounted (processAfter idSize table history).p := by
  have start : Accounted (opened idSize table).p := by
    have new := accounted_newHPROFParser
    exact ⟨new.totalObj, new.totalSize, new.distinct, new.classes, new.sums⟩
  induction history using List.reverseRecOn with
  | nil => exact start
  | append_singleton history event ih =>
    rw [processAfter, List.foldl_concat]
    exact accounted_absorb ih event

theorem shownName_nil : shownName [] = [] := rfl

theorem get_classes_of_not_borrows (own : ¬ Borrows table c history) :
    get (processAfter idSize table history).p.classes c =
      get (processAfter idSize [] history).p.classes c := by
  rcases exists_lastLoad c history with none | ⟨before, serial, nameID, after, rfl, last⟩
  · rw [get_classes_of_noLoad none, get_classes_of_noLoad none]
    rfl
  · rw [get_classes_of_lastLoad last, get_classes_of_lastLoad last]
    rcases List.eq_nil_or_concat (textsOf nameID before) with missing | ⟨_, text, found⟩
    · have nothing : shownName (get table nameID) = [] := by
        by_contra something
        exact own ⟨before, serial, nameID, after, rfl, last, missing, something⟩
      have left : get (opened idSize table).stringMap nameID = get table nameID := rfl
      have right : get (opened idSize []).stringMap nameID = [] := rfl
      rw [missing, left, right, List.getLast?_nil, Option.getD_none, Option.getD_none, nothing,
        shownName_nil]
    · rw [found, List.concat_eq_append, List.getLast?_concat, Option.getD_some, Option.getD_some]

theorem clsName_of_borrows (borrows : Borrows table c history) :
    clsName (processAfter idSize table history).p c ≠
      clsName (processAfter idSize [] history).p c := by
  obtain ⟨before, serial, nameID, after, rfl, last, missing, something⟩ := borrows
  rw [clsName, clsName, get_classes_of_lastLoad last, get_classes_of_lastLoad last, missing]
  exact something

theorem clsName_agree_iff :
    clsName (processAfter idSize table history).p c =
        clsName (processAfter idSize [] history).p c ↔
      ¬ Borrows table c history := by
  refine ⟨fun same borrows => clsName_of_borrows borrows same, fun own => ?_⟩
  rw [clsName, clsName, get_classes_of_not_borrows own]

theorem classes_agree_iff :
    get (processAfter idSize table history).p.classes c =
        get (processAfter idSize [] history).p.classes c ↔
      ¬ Borrows table c history := by
  refine ⟨fun same => ?_, get_classes_of_not_borrows⟩
  rw [← @clsName_agree_iff idSize, clsName, clsName, same]

theorem names_agree_iff :
    nameOf (processAfter idSize table history).p c =
        nameOf (processAfter idSize [] history).p c ↔
      ¬ ∃ before obj after, history = before ++ .object obj :: after ∧ obj.classID = c ∧
        objectsOf c before = [] ∧ Borrows table c before := by
  constructor
  · rintro same ⟨before, obj, after, rfl, rfl, first, borrows⟩
    rw [nameOf_of_firstObject rfl first, nameOf_of_firstObject rfl first, Option.some_inj,
      clsName_agree_iff] at same
    exact same borrows
  · intro own
    rcases exists_firstObject c history with none | ⟨before, obj, after, rfl, rfl, first⟩
    · rw [nameOf_of_noObject none, nameOf_of_noObject none]
      rfl
    · rw [nameOf_of_firstObject rfl first, nameOf_of_firstObject rfl first, Option.some_inj,
        clsName_agree_iff]
      exact fun borrows => own ⟨before, obj, after, rfl, rfl, first, borrows⟩

theorem parsers_agree_iff :
    (processAfter idSize table history).p =
        (processAfter idSize [] history).p ↔ ¬ Leaks table history := by
  have alike := (alike_opened idSize table []).foldl history
  rw [alike.eq_iff (accounted_events _ _ _) (accounted_events _ _ _), Leaks, not_or]
  simp only [classes_agree_iff, names_agree_iff]
  refine and_congr not_exists.symm ⟨fun own => ?_, fun own c => ?_⟩
  · rintro ⟨before, obj, after, whole, first, borrows⟩
    exact own obj.classID ⟨before, obj, after, whole, rfl, first, borrows⟩
  · rintro ⟨before, obj, after, whole, rfl, first, borrows⟩
    exact own ⟨before, obj, after, whole, first, borrows⟩

theorem opens_unique {input rest rest' : Bytes} {size size' : Nat} (opens : Opens input size rest)
    (opens' : Opens input size' rest') : size = size' ∧ rest = rest' := by
  obtain ⟨header, ids, time, noNul, _, sized, rfl, timed, rfl⟩ := opens.parts
  obtain ⟨header', ids', time', noNul', _, sized', rfl, timed', same⟩ := opens'.parts
  have front : ∀ first tail : Bytes, 0 ∉ first →
      (first ++ 0 :: tail).takeWhile (fun b => decide (b ≠ 0)) = first := by
    intro first tail noNul
    have all : ∀ b ∈ first, decide (b ≠ 0) = true :=
      fun b member => decide_eq_true fun nul => noNul (nul ▸ member)
    rw [List.takeWhile_append_of_pos all]
    simp
  have headers : header = header' := by rw [← front header _ noNul, same, front header' _ noNul']
  rw [headers] at same
  have tails := List.append_cancel_left same
  rw [List.cons.injEq] at tails
  obtain ⟨sameIds, others⟩ := List.append_inj tails.2 (sized.trans sized'.symm)
  obtain ⟨_, sameRest⟩ := List.append_inj others (timed.trans timed'.symm)
  exact ⟨by rw [sameIds], sameRest⟩

/-- The string table that parsing a file leaves to the next one. -/
def leftBy (file : Bytes) : Keyed UInt64 Bytes :=
  (finalState (parse.run ⟨file, newHPROFParser, []⟩)).stringMap

def outcome {α σ : Type} : EStateM.Result (Stop ParseError) σ α → Option (Stop ParseError)
  | .ok _ _ => none
  | .error stop _ => some stop

theorem outcome_mapState {α σ τ : Type} (f : σ → τ)
    (answer : EStateM.Result (Stop ParseError) (Session σ) α) :
    outcome (mapState f answer) = outcome answer := by
  cases answer <;> rfl

theorem parse_after_other_iff (first second : Bytes) :
    let after := parse.run ⟨second, newHPROFParser, leftBy first⟩
    let alone := parse.run ⟨second, newHPROFParser, []⟩
    outcome after = outcome alone ∧ (finalState after).p.objects = (finalState alone).p.objects ∧
    ((finalState after).p = (finalState alone).p ↔
      ∀ idSize rest, Opens second idSize rest → ¬ Leaks (leftBy first) (events idSize rest)) := by
  by_cases opening : ∃ idSize rest, Opens second idSize rest
  · obtain ⟨idSize, rest, opens⟩ := opening
    intro after alone
    have alike := (alike_opened idSize (leftBy first) []).foldl (events idSize rest)
    have ended : finalState after = processAfter idSize (leftBy first) (events idSize rest) :=
      finalState_parse opens _
    have endedAlone : finalState alone = processAfter idSize [] (events idSize rest) :=
      finalState_parse opens _
    refine ⟨?_, ?_, ?_⟩
    · simp only [after, alone, parse_told opens, outcome_mapState]
    · rw [ended, endedAlone, alike.objects]
    · rw [ended, endedAlone, parsers_agree_iff]
      refine ⟨fun own n other opens' => ?_, fun own => own idSize rest opens⟩
      obtain ⟨rfl, rfl⟩ := opens_unique opens opens'
      exact own
  · obtain ⟨e, rest, found, refused⟩ := (parse_refuses second).resolve_left opening
    rw [refused, refused]
    refine ⟨rfl, ?_, fun _ idSize rest opens => absurd ⟨idSize, rest, opens⟩ opening, fun _ => ?_⟩
    · cases found <;> rfl
    · cases found <;> rfl

def stringFile : Bytes :=
  (fourByteDump [⟨fourBytes 0, .string (fourBytes 1) (ascii "java/Secret"),
    by decide +kernel⟩]).encode

def loadSeven : Record 4 :=
  ⟨fourBytes 0, .loadClass (fourBytes 1) (fourBytes 7) (fourBytes 0) (fourBytes 1),
    by decide +kernel⟩

/-- The class is named by a string that the file does not have. -/
def classFile : Bytes := (fourByteDump [loadSeven]).encode

theorem stringFile_names_class :
    get (finalState (parse.run ⟨classFile, newHPROFParser, leftBy stringFile⟩)).p.classes 7 =
      some ⟨1, 7, ascii "java.Secret"⟩ ∧
    get (finalState (parse.run ⟨classFile, newHPROFParser, []⟩)).p.classes 7 =
      some ⟨1, 7, []⟩ := by
  decide +kernel

end twoRuns

end DropPlatform.HeapNames
