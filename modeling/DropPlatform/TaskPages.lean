import DropPlatform.TaskReads
import DropPlatform.TextLines
import DropPlatform.ListPages
import DropPlatform.RankedSelections

/-! The task list is asked for page by page: `page=1`, `page=2` and so on, with one page
size, until a page is empty. Both parameters are texts; what `strconv.Atoi` makes of them is
clamped on one side, the number of the page from below and the size from above. -/

namespace DropPlatform.TaskPages
open TaskStore TaskReads ListPages RankedSelections
open TextLines (decimal isDigit isDigit_bounds isDigit_of_mem_decimal not_mem_decimal
  decimal_ne_nil numeral numeral_decimal)

def visible (s : ServerState) (u : String) : List HotmethodTask :=
  s.tasks.filter fun task => mayAccess s.members u task.uid ∧ task.deleted = false

def newestFirst (s : ServerState) (u : String) : List HotmethodTask :=
  (visible s u).insertionSort fun a b => b.createTime ≤ a.createTime

def listed : Response → List HotmethodTask
  | .tasks list _ _ => list
  | _ => []

def clampedPage (page : Option Bytes) : Int64 :=
  if (atoi (page.getD [49])).1 < 1 then 1 else (atoi (page.getD [49])).1

def clampedPageSize (pageSize : Option Bytes) : Int64 :=
  if (atoi (pageSize.getD [50, 48])).1 > 100 then 100 else (atoi (pageSize.getD [50, 48])).1

def pageOffset (page pageSize : Option Bytes) : Int64 :=
  (clampedPage page - 1) * clampedPageSize pageSize

theorem listed_listTasks (s : ServerState) (u : String) (page pageSize : Option Bytes) :
    listed (listTasks s u page pageSize) =
      limit (clampedPageSize pageSize) (offset (pageOffset page pageSize) (newestFirst s u)) := by
  rw [listTasks, listed, newestFirst, visible, pageOffset, clampedPage, clampedPageSize]

def pageAt (s : ServerState) (u : String) (pageSize : Option Bytes) (i : Nat) :
    List HotmethodTask :=
  listed (listTasks s u (some (decimal (i + 1))) pageSize)

/-- Page after page, every visible task is read once, the newest first. -/
def Partitioned (s : ServerState) (u : String) (pageSize : Option Bytes) : Prop :=
  ∃ read, Reads (pageAt s u pageSize) read ∧ read.Perm (visible s u) ∧
    read.Pairwise fun a b => b.createTime < a.createTime

/-- The number of the page behind `i` others and the rows before it are both an `int`. -/
def Numbered (size i : Nat) : Prop := i + 1 < 2 ^ 63 ∧ i * size < 2 ^ 63

instance decidableNumbered (size i : Nat) : Decidable (Numbered size i) :=
  inferInstanceAs (Decidable (_ ∧ _))

section numbers

theorem le_foldl_digits (text : Bytes) (n : Nat) :
    n ≤ text.foldl (fun n d => 10 * n + (d.toNat - 48)) n := by
  induction text generalizing n with
  | nil => exact le_rfl
  | cons d rest ih =>
    rw [List.foldl_cons]
    exact le_trans (by omega) (ih (10 * n + (d.toNat - 48)))

theorem scanUint_digits {text : Bytes} (digits : ∀ d ∈ text, isDigit d) {n : Nat}
    (small : n < 2 ^ 64) :
    scanUint n text =
      some (min (text.foldl (fun n d => 10 * n + (d.toNat - 48)) n) (2 ^ 64 - 1)) := by
  induction text generalizing n with
  | nil =>
    rw [scanUint, List.foldl_nil, min_eq_left (by omega)]
  | cons d rest ih =>
    obtain ⟨first, others⟩ := List.forall_mem_cons.mp digits
    have bounds := isDigit_bounds first
    have digit : ¬ (d < 48 ∨ 57 < d) := by
      simp only [UInt8.lt_iff_toNat_lt, UInt8.reduceToNat]
      omega
    rw [scanUint, if_neg digit, List.foldl_cons]
    split_ifs with large
    · have more := le_foldl_digits rest (10 * n + (d.toNat - 48))
      rw [min_eq_right (by omega)]
    · exact ih others (not_le.mp large)

theorem toInt_atoi_decimal (n : Nat) : (atoi (decimal n)).1.toInt = min (n : Int) (2 ^ 63 - 1) := by
  have noSign : ∀ c : UInt8, c.toNat < 48 → (decimal n).head? ≠ some c := fun c low found =>
    not_mem_decimal low n (List.mem_of_mem_head? found)
  have value : scanUint 0 (decimal n) = some (min n (2 ^ 64 - 1)) := by
    rw [scanUint_digits (fun _ => isDigit_of_mem_decimal) (by norm_num)]
    exact congrArg (fun m => some (min m (2 ^ 64 - 1))) (numeral_decimal n)
  simp only [atoi, noSign 45 (by decide), noSign 43 (by decide), decimal_ne_nil, value, or_self,
    if_false]
  split_ifs with large
  · rw [Int64.toInt_maxValue]
    omega
  · rw [Int64.toInt_ofNat_of_lt (by omega)]
    omega

theorem toInt_clampedPage_decimal (i : Nat) :
    (clampedPage (some (decimal (i + 1)))).toInt = min ((i : Int) + 1) (2 ^ 63 - 1) := by
  have value := toInt_atoi_decimal (i + 1)
  have positive : ¬ (atoi (decimal (i + 1))).1 < 1 := by
    rw [Int64.lt_iff_toInt_lt, value]
    simp
  rw [clampedPage, Option.getD_some, if_neg positive, value]
  push_cast
  rfl

theorem toInt_clampedPageSize_le (pageSize : Option Bytes) :
    (clampedPageSize pageSize).toInt ≤ 100 := by
  rw [clampedPageSize]
  split_ifs with large
  · decide
  · rw [gt_iff_lt, Int64.lt_iff_toInt_lt] at large
    exact not_lt.mp large

theorem toInt_pageOffset (pageSize : Option Bytes) (i : Nat) :
    (pageOffset (some (decimal (i + 1))) pageSize).toInt =
      (min (i : Int) (2 ^ 63 - 2) * (clampedPageSize pageSize).toInt).bmod (2 ^ 64) := by
  have before : (clampedPage (some (decimal (i + 1))) - 1).toInt = min (i : Int) (2 ^ 63 - 2) := by
    rw [Int64.toInt_sub, toInt_clampedPage_decimal]
    have one : (1 : Int64).toInt = 1 := by decide
    rw [one, Int.bmod_eq_of_le (by omega) (by omega)]
    omega
  rw [pageOffset, Int64.toInt_mul, before]

theorem toInt_pageOffset_first (pageSize : Option Bytes) :
    (pageOffset (some (decimal (0 + 1))) pageSize).toInt = 0 := by
  rw [toInt_pageOffset]
  simp

theorem bmod_of_small {n : Nat} (small : n < 2 ^ 63) : (n : Int).bmod (2 ^ 64) = n :=
  Int.bmod_eq_of_le (by omega) (by omega)

theorem bmod_of_large {n : Nat} (low : 2 ^ 63 ≤ n) (high : n < 2 ^ 64) :
    (n : Int).bmod (2 ^ 64) ≤ 0 := by
  rw [Int.bmod_def]
  split_ifs <;> omega

end numbers

section rows
variable {α : Type} {n : Int64} {k : Nat}

theorem offset_eq_drop (value : n.toInt = k) (rows : List α) : offset n rows = rows.drop k := by
  rw [offset, ← Int64.toNat_toInt, value, Int.toNat_natCast]
  split_ifs with positive
  · rfl
  · rw [gt_iff_lt, Int64.lt_iff_toInt_lt, value] at positive
    have none : k = 0 := by simpa using positive
    rw [none, List.drop_zero]

theorem offset_of_nonpos (nonpos : n.toInt ≤ 0) (rows : List α) : offset n rows = rows := by
  rw [offset, if_neg]
  rw [gt_iff_lt, Int64.lt_iff_toInt_lt]
  exact not_lt.mpr nonpos

theorem limit_eq_take (value : n.toInt = k) (rows : List α) : limit n rows = rows.take k := by
  have nonneg : n ≥ 0 := by
    rw [ge_iff_le, Int64.le_iff_toInt_le, value]
    exact Int.natCast_nonneg k
  rw [limit, if_pos nonneg, ← Int64.toNat_toInt, value, Int.toNat_natCast]

theorem limit_of_neg (negative : n.toInt < 0) (rows : List α) : limit n rows = rows := by
  rw [limit, if_neg]
  rw [ge_iff_le, Int64.le_iff_toInt_le]
  exact not_le.mpr negative

theorem length_offset (n : Int64) (rows : List α) :
    (offset n rows).length = rows.length - n.toNatClampNeg := by
  rw [← Int64.toNat_toInt]
  rcases le_or_gt n.toInt 0 with nonpos | positive
  · rw [offset_of_nonpos nonpos, Int.toNat_of_nonpos nonpos, Nat.sub_zero]
  · rw [offset_eq_drop (Int.toNat_of_nonneg positive.le).symm, List.length_drop]

end rows

section pages
variable {s : ServerState} {u : String} {pageSize : Option Bytes} {size i : Nat}

theorem length_newestFirst (s : ServerState) (u : String) :
    (newestFirst s u).length = (visible s u).length :=
  List.length_insertionSort _ _

theorem pairwise_newestFirst (distinct : ((visible s u).map (·.createTime)).Nodup) :
    (newestFirst s u).Pairwise fun a b => b.createTime < a.createTime := by
  have different : (visible s u).Pairwise fun a b => a.createTime ≠ b.createTime :=
    List.pairwise_map.mp distinct
  refine (pairwise_insertionSort_stable different).imp fun before => ?_
  rcases before with newer | ⟨same, differ⟩
  · exact newer
  · exact absurd same.symm differ

theorem length_listed_le_iff (s : ServerState) (u : String) (page pageSize : Option Bytes) :
    (listed (listTasks s u page pageSize)).length ≤ 100 ↔
      0 ≤ clampedPageSize pageSize ∨
        (visible s u).length - (pageOffset page pageSize).toNatClampNeg ≤ 100 := by
  rw [listed_listTasks, Int64.le_iff_toInt_le]
  rcases lt_or_ge (clampedPageSize pageSize).toInt 0 with negative | nonneg
  · rw [limit_of_neg negative, length_offset, length_newestFirst]
    exact (or_iff_right (not_le.mpr negative)).symm
  · have most := toInt_clampedPageSize_le pageSize
    rw [limit_eq_take (Int.toNat_of_nonneg nonneg).symm]
    refine iff_of_true ?_ (.inl nonneg)
    exact (List.length_take_le _ _).trans (by omega)

theorem Numbered.mono {j : Nat} (numbered : Numbered size j) (before : i ≤ j) : Numbered size i :=
  ⟨by have := numbered.1; omega, (Nat.mul_le_mul_right size before).trans_lt numbered.2⟩

theorem pageAt_eq_pageOf (value : (clampedPageSize pageSize).toInt = size)
    (numbered : Numbered size i) :
    pageAt s u pageSize i = pageOf (newestFirst s u) size i := by
  have start : (pageOffset (some (decimal (i + 1))) pageSize).toInt = (i * size : Nat) := by
    obtain ⟨number, place⟩ := numbered
    rw [toInt_pageOffset, value, min_eq_left (by omega), ← Nat.cast_mul, bmod_of_small place]
  rw [pageAt, listed_listTasks, offset_eq_drop start, limit_eq_take value, pageOf]

theorem exists_pageAt_eq (value : (clampedPageSize pageSize).toInt = size) (i : Nat)
    (numbered : Numbered size i) (overflows : ¬ Numbered size (i + 1)) :
    ∃ j ≤ i, pageAt s u pageSize (i + 1) = pageAt s u pageSize j := by
  by_cases last : i + 2 < 2 ^ 63
  -- the product has wrapped to a negative one, which is no offset
  · refine ⟨0, i.zero_le, ?_⟩
    have start : (pageOffset (some (decimal (i + 1 + 1))) pageSize).toInt ≤ 0 := by
      have large : 2 ^ 63 ≤ (i + 1) * size := not_lt.mp fun small => overflows ⟨last, small⟩
      have most : size ≤ 100 := by
        have bound := toInt_clampedPageSize_le pageSize
        omega
      have previous := numbered.2
      rw [toInt_pageOffset, value, min_eq_left (by omega), ← Nat.cast_mul]
      apply bmod_of_large large
      rw [Nat.succ_mul]
      omega
    rw [pageAt, pageAt, listed_listTasks, listed_listTasks, offset_of_nonpos start,
      offset_of_nonpos (toInt_pageOffset_first pageSize).le]
  -- `strconv.Atoi` gives the same number for this page as for the one before
  · refine ⟨i, le_rfl, ?_⟩
    have start : pageOffset (some (decimal (i + 1 + 1))) pageSize =
        pageOffset (some (decimal (i + 1))) pageSize := by
      have here := numbered.1
      rw [← Int64.toInt_inj, toInt_pageOffset, toInt_pageOffset, min_eq_right (by omega),
        min_eq_right (by omega)]
    rw [pageAt, pageAt, listed_listTasks, listed_listTasks, start]

theorem pageAt_of_neg (negative : (clampedPageSize pageSize).toInt < 0) (few : i ≤ 1) :
    pageAt s u pageSize i = newestFirst s u := by
  have start : (pageOffset (some (decimal (i + 1))) pageSize).toInt ≤ 0 := by
    rcases Nat.le_one_iff_eq_zero_or_eq_one.mp few with rfl | rfl
    · exact (toInt_pageOffset_first pageSize).le
    · have least := Int64.le_toInt (clampedPageSize pageSize)
      rw [toInt_pageOffset, min_eq_left (by norm_num), Nat.cast_one, Int.one_mul,
        Int.bmod_eq_of_le (by omega) (by omega)]
      exact negative.le
  rw [pageAt, listed_listTasks, offset_of_nonpos start, limit_of_neg negative]

theorem pageAt_of_empty (empty : visible s u = []) (i : Nat) : pageAt s u pageSize i = [] := by
  rw [pageAt, listed_listTasks, newestFirst, empty, List.insertionSort_nil]
  simp [offset, limit]

theorem Partitioned.of_reads (distinct : ((visible s u).map (·.createTime)).Nodup)
    (reads : Reads (pageAt s u pageSize) (newestFirst s u)) : Partitioned s u pageSize :=
  ⟨newestFirst s u, reads, List.perm_insertionSort _ _, pairwise_newestFirst distinct⟩

theorem Partitioned.pageAt_ne (partitioned : Partitioned s u pageSize) {j : Nat}
    (filled : ∀ i ≤ j, pageAt s u pageSize i ≠ []) (before : i < j) :
    pageAt s u pageSize j ≠ pageAt s u pageSize i := by
  intro again
  obtain ⟨read, reads, _, ordered⟩ := partitioned
  have once : read.Nodup := ordered.imp fun newer same => newer.ne (by rw [same])
  exact reads.not_nodup filled before again once

theorem Partitioned.numbered (partitioned : Partitioned s u pageSize)
    (value : (clampedPageSize pageSize).toInt = size) (pos : 0 < size) :
    Numbered size ((visible s u).length ⌈/⌉ size) := by
  by_contra overflows
  have first : Numbered size 0 := ⟨by norm_num, by simp⟩
  obtain ⟨i, here, next⟩ := Nat.exists_not_and_succ_of_not_zero_of_exists
    (p := fun i => ¬ Numbered size i) (not_not.mpr first) ⟨_, overflows⟩
  have numbered := not_not.mp here
  have within : i < (visible s u).length ⌈/⌉ size :=
    not_le.mp fun short => overflows (numbered.mono short)
  have regular : ∀ j ≤ i, pageAt s u pageSize j ≠ [] := by
    intro j before
    rw [pageAt_eq_pageOf value (numbered.mono before), ne_eq, pageOf_eq_nil_iff pos,
      length_newestFirst]
    omega
  obtain ⟨j, before, again⟩ := exists_pageAt_eq (s := s) (u := u) value i numbered next
  refine partitioned.pageAt_ne (j := i + 1) (fun k short => ?_) (Nat.lt_succ_of_le before) again
  rcases Nat.le_succ_iff.mp short with earlier | rfl
  · exact regular k earlier
  · rw [again]
    exact regular j before

theorem Partitioned.positive (partitioned : Partitioned s u pageSize)
    (filled : newestFirst s u ≠ []) : 0 < (clampedPageSize pageSize).toInt := by
  rcases lt_trichotomy (clampedPageSize pageSize).toInt 0 with negative | zero | positive
  · refine absurd ?_ (partitioned.pageAt_ne (j := 1) (fun i few => ?_) Nat.one_pos)
    · rw [pageAt_of_neg negative le_rfl, pageAt_of_neg negative zero_le_one]
    · rw [pageAt_of_neg negative few]
      exact filled
  · obtain ⟨read, reads, same, _⟩ := partitioned
    have first : pageAt s u pageSize 0 = [] := by
      rw [pageAt, listed_listTasks, limit_eq_take (k := 0) zero, List.take_zero]
    rw [reads.eq_nil first] at same
    have none : (newestFirst s u).Perm [] := (List.perm_insertionSort _ _).trans same.symm
    exact absurd none.eq_nil filled
  · exact positive

theorem partitioned_iff (distinct : ((visible s u).map (·.createTime)).Nodup) :
    Partitioned s u pageSize ↔ visible s u = [] ∨ 0 < clampedPageSize pageSize ∧
      Numbered (clampedPageSize pageSize).toNatClampNeg
        ((visible s u).length ⌈/⌉ (clampedPageSize pageSize).toNatClampNeg) := by
  rw [Int64.lt_iff_toInt_lt, ← Int64.toNat_toInt]
  constructor
  · intro partitioned
    rw [or_iff_not_imp_left]
    intro some
    have filled : newestFirst s u ≠ [] := by
      rw [← List.length_pos_iff, length_newestFirst, List.length_pos_iff]
      exact some
    have positive := partitioned.positive filled
    refine ⟨positive, partitioned.numbered (Int.toNat_of_nonneg positive.le).symm ?_⟩
    exact Int.lt_toNat.mpr positive
  · rintro (empty | ⟨positive, numbered⟩)
    · refine .of_reads distinct ⟨0, pageAt_of_empty empty 0, fun i none => ?_, ?_⟩
      · exact absurd none i.not_lt_zero
      · rw [newestFirst, empty]
        rfl
    · have pos : 0 < (clampedPageSize pageSize).toInt.toNat := Int.lt_toNat.mpr positive
      refine .of_reads distinct (reads_of_pageOf pos fun i before => ?_)
      rw [length_newestFirst] at before
      exact pageAt_eq_pageOf (Int.toNat_of_nonneg positive.le).symm (numbered.mono before)

end pages

/-- A page has at most 100 tasks exactly if its size is not negative or no more than 100 are
left; the pages partition the visible tasks exactly if there are none or the size is positive
and the numbers that lead to the first empty page do not overflow. -/
theorem pages_partition_iff (s : ServerState) (u : String)
    (distinct : ((visible s u).map (·.createTime)).Nodup) (page pageSize : Option Bytes) :
    ((listed (listTasks s u page pageSize)).length ≤ 100 ↔ 0 ≤ clampedPageSize pageSize ∨
        (visible s u).length - (pageOffset page pageSize).toNatClampNeg ≤ 100) ∧
      (Partitioned s u pageSize ↔ visible s u = [] ∨ 0 < clampedPageSize pageSize ∧
        Numbered (clampedPageSize pageSize).toNatClampNeg
          ((visible s u).length ⌈/⌉ (clampedPageSize pageSize).toNatClampNeg)) :=
  ⟨length_listed_le_iff s u page pageSize, partitioned_iff distinct⟩

def tasksOf (n : Nat) : ServerState where
  tasks := (List.range n).map fun i => { blankTask (toString i) 0 with uid := "u", createTime := i }
  members := []
  suggestions := []
  segments := []
  objects := []

theorem visible_tasksOf (n : Nat) : visible (tasksOf n) "u" = (tasksOf n).tasks := by
  apply List.filter_eq_self.mpr
  intro task member
  obtain ⟨i, _, rfl⟩ := List.mem_map.mp member
  exact decide_eq_true ⟨decide_eq_true (.inl rfl), rfl⟩

theorem distinct_tasksOf (n : Nat) : ((visible (tasksOf n) "u").map (·.createTime)).Nodup := by
  have times : (tasksOf n).tasks.map (·.createTime) = List.range n := by
    rw [tasksOf, List.map_map]
    exact List.map_id _
  rw [visible_tasksOf, times]
  exact List.nodup_range

theorem length_visible_tasksOf (n : Nat) : (visible (tasksOf n) "u").length = n := by
  rw [visible_tasksOf, tasksOf, List.length_map, List.length_range]

theorem pages_partition_iff_threeTasks :
    ((visible (tasksOf 3) "u").map (·.createTime)).Nodup ∧
      (listed (listTasks (tasksOf 3) "u" none (some [50]))).length ≤ 100 ∧
      Partitioned (tasksOf 3) "u" (some [50]) := by
  have conditions := pages_partition_iff (tasksOf 3) "u" (distinct_tasksOf 3) none (some [50])
  rw [length_visible_tasksOf] at conditions
  exact ⟨distinct_tasksOf 3, conditions.1.mpr (.inl (by decide +kernel)),
    conditions.2.mpr (.inr (by decide +kernel))⟩

/-- With `page_size=-1` the first page has all tasks and so has the second, with
`page_size=0` the first page is empty. -/
theorem negativeSize_lists_all :
    ((visible (tasksOf 101) "u").map (·.createTime)).Nodup ∧
      ¬ (listed (listTasks (tasksOf 101) "u" none (some [45, 49]))).length ≤ 100 ∧
      ¬ Partitioned (tasksOf 101) "u" (some [45, 49]) ∧
      ¬ Partitioned (tasksOf 101) "u" (some [48]) := by
  have filled : visible (tasksOf 101) "u" ≠ [] := by
    rw [← List.length_pos_iff, length_visible_tasksOf]
    decide
  refine ⟨distinct_tasksOf 101, ?_, ?_, ?_⟩
  · rw [length_listed_le_iff, length_visible_tasksOf]
    decide +kernel
  · rw [partitioned_iff (distinct_tasksOf 101), or_iff_right filled]
    exact fun positive => absurd positive.1 (by decide +kernel)
  · rw [partitioned_iff (distinct_tasksOf 101), or_iff_right filled]
    exact fun positive => absurd positive.1 (by decide +kernel)

end DropPlatform.TaskPages
