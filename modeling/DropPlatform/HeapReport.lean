import DropPlatform.HeapAccounts
import DropPlatform.RankedSelections
import Mathlib.Data.List.Sort

/-! `Analyze`: the classes with the largest sums and the largest single objects. The map of
the accumulators is visited in any order, and neither sort keeps equal elements in place. -/

namespace DropPlatform.HeapReport
open ByteReaders KeyedStores HprofParser HprofFormat HprofSteps HeapAccounts RankedSelections

structure LeakSuspect where
  className : Bytes
  count : Nat
  totalSize : Int64
  percent : Float

structure AnalysisResult where
  totalSize : Int64
  totalObjects : Nat
  classCount : Nat
  topObjects : List LeakSuspect
  bigObjects : List HeapObject

/-- A sort that `sort.Slice` may be: it permutes, and nothing stands before what is less. -/
structure SortSlice {α : Type} (less : α → α → Prop) where
  sort : List α → List α
  perm : ∀ l, (sort l).Perm l
  sorted : ∀ l, (sort l).Pairwise fun a b => ¬ less b a

def SortSlice.byRank {α : Type} {less : α → α → Prop} (rank : α → Int)
    (less_iff : ∀ a b, less a b ↔ rank b < rank a) : SortSlice less where
  sort := List.insertionSort fun a b => rank b ≤ rank a
  perm := List.perm_insertionSort _
  sorted l := by
    have total : Std.Total fun a b : α => rank b ≤ rank a := ⟨fun a b => le_total (rank b) (rank a)⟩
    have trans : IsTrans α fun a b => rank b ≤ rank a :=
      ⟨fun _ _ _ first second => second.trans first⟩
    refine (List.pairwise_insertionSort _ l).imp fun {a b} le less => ?_
    exact ((less_iff b a).mp less).not_ge le

def largerTotal (a b : LeakSuspect) : Prop := a.totalSize > b.totalSize

def largerObject (a b : HeapObject) : Prop := a.size > b.size

def accumulators (p : HPROFParser) : List ClsAccum := p.sizeByCls.filterMap Prod.snd

def leakSuspect (p : HPROFParser) (acc : ClsAccum) : LeakSuspect where
  className := acc.name
  count := acc.count
  totalSize := acc.totalSize
  percent := if p.totalSize > 0 then acc.totalSize.toFloat * 100.0 / p.totalSize.toFloat else 0.0

def bigLoop (topN : Int) : List HeapObject → List HeapObject → List HeapObject
  | bigObjs, [] => bigObjs
  | bigObjs, obj :: rest =>
    if obj.size < 1024 * 1024 then bigObjs
    else
      let bigObjs := bigObjs ++ [{ obj with classID := 0 }]
      if bigObjs.length ≥ topN then bigObjs else bigLoop topN bigObjs rest

/-- `order` is the order in which the map is visited. The objects are sorted in place. -/
def analyze (bySum : SortSlice largerTotal) (bySize : SortSlice largerObject)
    (order : List ClsAccum) (p : HPROFParser) (topN : Int) : AnalysisResult × HPROFParser :=
  let topN := if topN ≤ 0 then 20 else topN
  let suspects := bySum.sort (order.map (leakSuspect p))
  let suspects := if suspects.length > topN then suspects.take topN.toNat else suspects
  let objects := bySize.sort p.objects
  (⟨p.totalSize, p.totalObj, p.classes.length, suspects, bigLoop topN [] objects⟩,
    { p with objects })

def limit (topN : Int) : Nat := (if topN ≤ 0 then 20 else topN).toNat

section big

def clearClass (obj : HeapObject) : HeapObject := { obj with classID := 0 }

def megabyte : Nat := 1024 * 1024

theorem bigLoop_eq {topN : Int} (bigObjs objects : List HeapObject)
    (room : bigObjs.length < topN) :
    bigLoop topN bigObjs objects = bigObjs ++
      ((objects.takeWhile fun obj => megabyte ≤ obj.size.toNat).take
        (topN.toNat - bigObjs.length)).map clearClass := by
  induction objects generalizing bigObjs with
  | nil => simp [bigLoop]
  | cons obj objects ih =>
    by_cases small : obj.size < 1024 * 1024
    · have below : ¬ megabyte ≤ obj.size.toNat := by
        have lt := UInt32.lt_iff_toNat_lt.mp small
        simpa [megabyte] using lt
      rw [bigLoop, if_pos small, List.takeWhile_cons_of_neg (by simpa using below)]
      simp
    · have reaches : megabyte ≤ obj.size.toNat := by
        have le := UInt32.le_iff_toNat_le.mp (UInt32.not_lt.mp small)
        simpa [megabyte] using le
      obtain ⟨more, left⟩ : ∃ more, topN.toNat - bigObjs.length = more + 1 :=
        ⟨topN.toNat - bigObjs.length - 1, by omega⟩
      rw [bigLoop, if_neg small, List.takeWhile_cons_of_pos (by simpa using reaches), left,
        List.take_succ_cons, List.map_cons]
      dsimp only
      split_ifs with full
      · rw [List.length_append, List.length_singleton] at full
        have none : more = 0 := by omega
        rw [none, List.take_zero]
        rfl
      · rw [ih _ (by omega), List.length_append, List.length_singleton, List.append_assoc]
        have same : topN.toNat - (bigObjs.length + 1) = more := by omega
        rw [same]
        rfl

theorem ranked_objects (bySize : SortSlice largerObject) (objects : List HeapObject) :
    Ranked (fun obj => obj.size.toNat) (bySize.sort objects) := by
  refine (bySize.sorted objects).imp fun {a b} notLess => ?_
  exact UInt32.le_iff_toNat_le.mp (UInt32.not_lt.mp notLess)

theorem bigLoop_selects (bySize : SortSlice largerObject) (objects : List HeapObject) {topN : Int}
    (positive : 0 < topN) :
    ∃ kept, bigLoop topN [] (bySize.sort objects) = kept.map clearClass ∧
      Selects (fun obj => obj.size.toNat) topN.toNat
        (objects.filter fun obj => megabyte ≤ obj.size.toNat) kept := by
  have ranked := ranked_objects bySize objects
  refine ⟨_, by rw [bigLoop_eq [] _ (by simpa using positive)]; rfl, ?_⟩
  rw [ranked.takeWhile_eq_filter megabyte]
  refine Ranked.selects_take ?_ ((bySize.perm objects).filter _) _
  exact List.Pairwise.filter _ ranked

end big

section sums
variable {p : HPROFParser}

def classTotals (objects : List HeapObject) : List (Nat × Nat) :=
  (objects.map HeapObject.classID).dedup.map fun c =>
    ((ofClass c objects).length, sizeSum (ofClass c objects))

theorem sizeSum_cons (obj : HeapObject) (objects : List HeapObject) :
    sizeSum (obj :: objects) = obj.size.toNat + sizeSum objects := by
  simp [sizeSum]

theorem sizeSum_ofClass_cons (c : UInt64) (obj : HeapObject) (objects : List HeapObject) :
    sizeSum (ofClass c (obj :: objects)) =
      (if obj.classID = c then obj.size.toNat else 0) + sizeSum (ofClass c objects) := by
  by_cases same : obj.classID = c
  · simp [ofClass, same, sizeSum]
  · simp [ofClass, same]

open Finset in
theorem sum_ofClass (classes : Finset UInt64) (objects : List HeapObject)
    (all : ∀ obj ∈ objects, obj.classID ∈ classes) :
    ∑ c ∈ classes, sizeSum (ofClass c objects) = sizeSum objects := by
  induction objects with
  | nil => simp [ofClass, sizeSum]
  | cons obj objects ih =>
    obtain ⟨first, others⟩ := List.forall_mem_cons.mp all
    simp only [sizeSum_ofClass_cons, Finset.sum_add_distrib, ih others, Finset.sum_ite_eq, first,
      if_true, sizeSum_cons]

theorem sum_classTotals (objects : List HeapObject) :
    ((classTotals objects).map Prod.snd).sum = sizeSum objects := by
  have all : ∀ obj ∈ objects, obj.classID ∈ (objects.map HeapObject.classID).dedup.toFinset := by
    intro obj member
    rw [List.mem_toFinset, List.mem_dedup]
    exact List.mem_map_of_mem member
  rw [← sum_ofClass _ objects all, List.sum_toFinset _ (List.nodup_dedup _), classTotals,
    List.map_map]
  rfl

theorem perm_totals (accounted : Accounted p) :
    ((accumulators p).map fun acc => (acc.count, acc.totalSize)).Perm
      ((classTotals p.objects).map fun t => (t.1, .ofNat t.2)) := by
  have byKey : ((accumulators p).map fun acc => (acc.count, acc.totalSize)) =
      (p.sizeByCls.map Prod.fst).map fun c =>
        ((ofClass c p.objects).length, Int64.ofNat (sizeSum (ofClass c p.objects))) := by
    have sums := accounted.sums
    rw [accumulators]
    generalize p.sizeByCls = entries at sums ⊢
    induction entries with
    | nil => rfl
    | cons entry entries ih =>
      obtain ⟨acc, held, count, size⟩ := sums entry.1 entry.2 List.mem_cons_self
      rw [List.filterMap_cons_some held, List.map_cons, List.map_cons, List.map_cons,
        ih fun c e member => sums c e (List.mem_cons_of_mem _ member), count, size]
  have keys : (p.sizeByCls.map Prod.fst).Perm (p.objects.map HeapObject.classID).dedup := by
    rw [List.perm_ext_iff_of_nodup accounted.distinct (List.nodup_dedup _)]
    intro c
    rw [accounted.classes c, List.mem_dedup]
  have expected : ((classTotals p.objects).map fun t => (t.1, Int64.ofNat t.2)) =
      (p.objects.map HeapObject.classID).dedup.map fun c =>
        ((ofClass c p.objects).length, Int64.ofNat (sizeSum (ofClass c p.objects))) := by
    rw [classTotals, List.map_map]
    rfl
  rw [byKey, expected]
  exact keys.map _

theorem toInt_ofNat {n : Nat} (fits : n < 2 ^ 63) : (Int64.ofNat n).toInt = n := by
  rw [Int64.toInt_ofNat_of_lt fits]

theorem sizeSum_ofClass_le (c : UInt64) (objects : List HeapObject) :
    sizeSum (ofClass c objects) ≤ sizeSum objects := by
  exact (List.filter_sublist.map _).sum_le_sum fun n _ => Nat.zero_le n

end sums

section report

def suspects (p : HPROFParser) : List LeakSuspect := (accumulators p).map (leakSuspect p)

/-- What a report of at most `n` entries has to be. -/
structure Report (p : HPROFParser) (n : Nat) (result : AnalysisResult) : Prop where
  total : result.totalSize.toInt = sizeSum p.objects
  objects : result.totalObjects = p.objects.length
  top : Selects (fun s => s.totalSize.toInt) n (suspects p) result.topObjects
  sums : (result.topObjects.map fun s => s.totalSize.toInt).sum ≤ result.totalSize.toInt
  all : (suspects p).length ≤ n →
    (result.topObjects.map fun s => s.totalSize.toInt).sum = result.totalSize.toInt
  big : ∃ kept, result.bigObjects = kept.map clearClass ∧
    Selects (fun obj => obj.size.toNat) n
      (p.objects.filter fun obj => megabyte ≤ obj.size.toNat) kept

variable {p : HPROFParser} {order : List ClsAccum} (bySum : SortSlice largerTotal)
  (bySize : SortSlice largerObject)

theorem ranked_suspects (l : List LeakSuspect) :
    Ranked (fun s : LeakSuspect => s.totalSize.toInt) (bySum.sort l) := by
  refine (bySum.sorted l).imp fun {a b} notLess => ?_
  exact Int64.le_iff_toInt_le.mp (Int64.not_lt.mp notLess)

theorem take_limit {α : Type} (l : List α) {n : Int} (positive : 0 < n) :
    (if l.length > n then l.take n.toNat else l) = l.take n.toNat := by
  split_ifs with long
  · rfl
  · rw [List.take_of_length_le (by omega)]

theorem topObjects_analyze (topN : Int) :
    (analyze bySum bySize order p topN).1.topObjects =
      (bySum.sort (order.map (leakSuspect p))).take (limit topN) := by
  have positive : 0 < if topN ≤ 0 then 20 else topN := by split_ifs <;> omega
  exact take_limit _ positive

theorem selects_topObjects (visited : order.Perm (accumulators p)) (topN : Int) :
    Selects (fun s => s.totalSize.toInt) (limit topN) (suspects p)
      (analyze bySum bySize order p topN).1.topObjects := by
  rw [topObjects_analyze]
  have same := (bySum.perm (order.map (leakSuspect p))).trans (visited.map (leakSuspect p))
  exact (ranked_suspects bySum _).selects_take same _

theorem suspects_totals (accounted : Accounted p) (fits : sizeSum p.objects < 2 ^ 63) :
    ((suspects p).map fun s => (s.count, s.totalSize.toInt)).Perm
      ((classTotals p.objects).map fun t => (t.1, (t.2 : Int))) := by
  have spelt : ((classTotals p.objects).map fun t => (t.1, (t.2 : Int))) =
      ((classTotals p.objects).map fun t => (t.1, Int64.ofNat t.2)).map
        fun t => (t.1, t.2.toInt) := by
    rw [List.map_map]
    refine List.map_congr_left fun t member => ?_
    obtain ⟨c, _, rfl⟩ := List.mem_map.mp member
    have small := (sizeSum_ofClass_le c p.objects).trans_lt fits
    simp only [Function.comp_apply, toInt_ofNat small]
  have totals := (perm_totals accounted).map fun t => (t.1, t.2.toInt)
  rw [spelt, suspects, List.map_map]
  rwa [List.map_map] at totals

theorem sum_suspects (accounted : Accounted p) (fits : sizeSum p.objects < 2 ^ 63) :
    ((suspects p).map fun s => s.totalSize.toInt).sum = sizeSum p.objects := by
  have totals := ((suspects_totals accounted fits).map Prod.snd).sum_eq
  rw [List.map_map, List.map_map] at totals
  have cast : ∀ l : List (Nat × Nat),
      (l.map fun t => (t.2 : Int)).sum = ((l.map Prod.snd).sum : Nat) := by
    intro l
    induction l with
    | nil => rfl
    | cons t l ih => simp [ih]
  exact totals.trans ((cast _).trans (by rw [sum_classTotals]))

theorem suspects_nonneg (accounted : Accounted p) (fits : sizeSum p.objects < 2 ^ 63) :
    ∀ s ∈ suspects p, 0 ≤ s.totalSize.toInt := by
  intro s member
  have inside := (suspects_totals accounted fits).subset (List.mem_map_of_mem member)
  obtain ⟨t, _, same⟩ := List.mem_map.mp inside
  have size : (t.2 : Int) = s.totalSize.toInt := (Prod.ext_iff.mp same).2
  omega

theorem report_analyze (accounted : Accounted p) (fits : sizeSum p.objects < 2 ^ 63)
    (visited : order.Perm (accumulators p)) (topN : Int) :
    Report p (limit topN) (analyze bySum bySize order p topN).1 := by
  have top := selects_topObjects bySum bySize visited topN
  have total : p.totalSize.toInt = sizeSum p.objects := by
    rw [accounted.totalSize, toInt_ofNat fits]
  have whole := sum_suspects accounted fits
  have positive : 0 < if topN ≤ 0 then 20 else topN := by split_ifs <;> omega
  refine ⟨total, accounted.totalObj, top, ?_, fun room => ?_,
    bigLoop_selects bySize p.objects positive⟩
  · have part := top.sum_le (suspects_nonneg accounted fits)
    rw [whole, ← total] at part
    exact part
  · have all := ((top.perm room).map fun s => s.totalSize.toInt).sum_eq
    rw [whole, ← total] at all
    exact all

theorem length_suspects (accounted : Accounted p) :
    (suspects p).length = (p.objects.map HeapObject.classID).dedup.length := by
  have totals := (perm_totals accounted).length_eq
  rw [List.length_map, List.length_map] at totals
  rw [suspects, List.length_map, totals, classTotals, List.length_map]

/-- The sums of the parser as numbers. -/
structure ExactlyAccounted (p : HPROFParser) : Prop where
  totalObj : p.totalObj = p.objects.length
  totalSize : p.totalSize.toInt = sizeSum p.objects
  distinct : (p.sizeByCls.map Prod.fst).Nodup
  classes : ∀ c, c ∈ p.sizeByCls.map Prod.fst ↔ c ∈ p.objects.map HeapObject.classID
  sums : ∀ c entry, (c, entry) ∈ p.sizeByCls → ∃ acc, entry = some acc ∧
    acc.count = (ofClass c p.objects).length ∧
    acc.totalSize.toInt = sizeSum (ofClass c p.objects)

theorem exactlyAccounted (accounted : Accounted p) (fits : sizeSum p.objects < 2 ^ 63) :
    ExactlyAccounted p := by
  refine ⟨accounted.totalObj, ?_, accounted.distinct, accounted.classes, fun c entry member => ?_⟩
  · rw [accounted.totalSize, toInt_ofNat fits]
  · obtain ⟨acc, held, count, size⟩ := accounted.sums c entry member
    refine ⟨acc, held, count, ?_⟩
    rw [size, toInt_ofNat ((sizeSum_ofClass_le c p.objects).trans_lt fits)]

theorem totals_analyze {other : List ClsAccum} (visited : order.Perm (accumulators p))
    (revisited : other.Perm (accumulators p)) (bySum' : SortSlice largerTotal)
    (bySize' : SortSlice largerObject) (topN : Int) :
    (analyze bySum bySize order p topN).1.topObjects.map LeakSuspect.totalSize =
      (analyze bySum' bySize' other p topN).1.topObjects.map LeakSuspect.totalSize := by
  have same := (selects_topObjects bySum bySize visited topN).ranks_eq
    (selects_topObjects bySum' bySize' revisited topN)
  have toInt : ∀ l : List LeakSuspect,
      (l.map fun s => s.totalSize.toInt) = (l.map LeakSuspect.totalSize).map Int64.toInt := by
    intro l
    rw [List.map_map]
    rfl
  rw [toInt, toInt] at same
  exact List.map_injective_iff.mpr (fun _ _ => Int64.toInt_inj.mp) same

theorem perm_topObjects (visited : order.Perm (accumulators p)) {topN : Int}
    (room : (accumulators p).length ≤ limit topN) :
    ((analyze bySum bySize order p topN).1.topObjects.map
      fun s => (s.className, s.count, s.totalSize)).Perm
      ((accumulators p).map fun acc => (acc.name, acc.count, acc.totalSize)) := by
  have fits : (suspects p).length ≤ limit topN := by rwa [suspects, List.length_map]
  have all := (selects_topObjects bySum bySize visited topN).perm fits
  have shown := all.map fun s => (s.className, s.count, s.totalSize)
  rwa [suspects, List.map_map] at shown

theorem parse_accounts_and_report {input : Bytes} {table : Keyed UInt64 Bytes} {s : Process}
    (passes : Passes input ⟨newHPROFParser, table⟩ s) (fits : sizeSum s.p.objects < 2 ^ 63) :
    ExactlyAccounted s.p ∧
    (suspects s.p).length = (s.p.objects.map HeapObject.classID).dedup.length ∧
    ((suspects s.p).map fun t => (t.count, t.totalSize.toInt)).Perm
      ((classTotals s.p.objects).map fun t => (t.1, (t.2 : Int))) ∧
    ∀ (bySum : SortSlice largerTotal) (bySize : SortSlice largerObject) (order : List ClsAccum)
      (topN : Int), order.Perm (accumulators s.p) →
      Report s.p (limit topN) (analyze bySum bySize order s.p topN).1 ∧
      ∀ (bySum' : SortSlice largerTotal) (bySize' : SortSlice largerObject)
        (order' : List ClsAccum), order'.Perm (accumulators s.p) →
        (analyze bySum bySize order s.p topN).1.topObjects.map LeakSuspect.totalSize =
          (analyze bySum' bySize' order' s.p topN).1.topObjects.map LeakSuspect.totalSize := by
  have accounted := accounted_of_passes passes
  refine ⟨exactlyAccounted accounted fits, length_suspects accounted,
    suspects_totals accounted fits, fun bySum bySize order topN visited => ?_⟩
  refine ⟨report_analyze bySum bySize accounted fits visited topN, ?_⟩
  intro bySum' bySize' order' revisited
  exact totals_analyze bySum bySize visited revisited bySum' bySize' topN

end report

section sample

def smallInstance (id classId : UInt32) (fields : Bytes) : ObjectDump 4 :=
  .instanceDump (fourBytes id) (fourBytes 0) (fourBytes classId) fields

def threeObjects : Bytes :=
  (fourByteDump [⟨fourBytes 0, .heapDump false [smallInstance 1 7 [0, 0],
    smallInstance 2 8 [0, 0, 0, 0, 0], smallInstance 3 7 [0, 0]], by decide +kernel⟩]).encode

def threeObjectsParsed : HPROFParser :=
  (finalState (parse.run ⟨threeObjects, newHPROFParser, []⟩)).p

def largestSums : SortSlice largerTotal :=
  .byRank (fun s => s.totalSize.toInt) fun _ _ => Int64.lt_iff_toInt_lt

def largestObjects : SortSlice largerObject :=
  .byRank (fun obj => obj.size.toNat) fun _ _ => UInt32.lt_iff_toNat_lt.trans Int.ofNat_lt.symm

theorem parse_accounts_and_report_threeObjects :
    Report threeObjectsParsed 1
      (analyze largestSums largestObjects (accumulators threeObjectsParsed)
        threeObjectsParsed 1).1 ∧
    sizeSum threeObjectsParsed.objects = 9 ∧
    (analyze largestSums largestObjects (accumulators threeObjectsParsed)
      threeObjectsParsed 1).1.topObjects.map LeakSuspect.totalSize = [5] := by
  have sizes : sizeSum threeObjectsParsed.objects = 9 := by decide +kernel
  have passes : Passes threeObjects ⟨newHPROFParser, []⟩
      (finalState (parse.run ⟨threeObjects, newHPROFParser, []⟩)) := .stop
  have fits : sizeSum (finalState (parse.run ⟨threeObjects, newHPROFParser, []⟩)).p.objects <
      2 ^ 63 := by
    rw [← threeObjectsParsed, sizes]
    decide
  have report := (parse_accounts_and_report passes fits).2.2.2 largestSums largestObjects
    (accumulators threeObjectsParsed) 1 (.refl _)
  exact ⟨report.1, sizes, by decide +kernel⟩

end sample

end DropPlatform.HeapReport
