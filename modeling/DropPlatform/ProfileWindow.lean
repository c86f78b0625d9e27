import DropPlatform.Tallies
import DropPlatform.TaskReads
import DropPlatform.TextLines

/-! What `GetProfileWindow` answers, against what the segments of the window hold. The
handler reads each object through a `bufio.Scanner` whose errors nobody looks at: a line
that does not fit into its buffer ends the object, and so does a read that breaks off. -/

namespace DropPlatform.ProfileWindow
open Tallies TaskReads
open TextLines

abbrev Sample := Bytes × Nat

def fitsScanner (line : Bytes) : Bool := line.length < 65536

def entriesOf (text : List Bytes) : List Sample :=
  (text.map scanLines.dropCR).filterMap parseLine

/-- The counts on all well-formed lines of an object. -/
def wellFormed (content : Bytes) : List Sample := entriesOf (lines newline content)

def kept (content : Bytes) : List Sample := entriesOf ((lines newline content).takeWhile fitsScanner)

def lost (content : Bytes) : List Sample := entriesOf ((lines newline content).dropWhile fitsScanner)

theorem wellFormed_eq (content : Bytes) : wellFormed content = kept content ++ lost content := by
  simp only [wellFormed, kept, lost, entriesOf, ← List.filterMap_append, ← List.map_append,
    List.takeWhile_append_dropWhile]

section scanner

theorem scanLines_eq_append (content : Bytes) (acc : List Bytes) {line : Bytes}
    (clean : newline ∉ line) (fits : line.length < 65536) :
    scanLines content acc line = acc ++
      ((lines newline (line ++ content)).takeWhile fitsScanner).map scanLines.dropCR := by
  induction content generalizing acc line with
  | nil =>
    rw [scanLines, List.append_nil]
    by_cases empty : line = []
    · rw [if_pos empty, empty]
      exact (List.append_nil acc).symm
    · have holds : fitsScanner line = true := decide_eq_true fits
      rw [if_neg empty, lines_last clean empty, List.takeWhile_cons_of_pos holds]
      rfl
  | cons b rest ih =>
    by_cases ends : b = newline
    · have holds : fitsScanner line = true := decide_eq_true fits
      rw [scanLines, if_pos ends, ih _ List.not_mem_nil (by decide), ends, lines_append clean,
        List.takeWhile_cons_of_pos holds, List.map_cons, List.append_assoc]
      rfl
    have longer : newline ∉ line ++ [b] := by
      simp only [List.mem_append, List.mem_singleton, not_or]
      exact ⟨clean, fun same => ends same.symm⟩
    have shifted : line ++ b :: rest = (line ++ [b]) ++ rest := by simp
    rw [scanLines, if_neg ends]
    by_cases full : line.length + 1 ≥ 65536
    · obtain ⟨more, others, first⟩ := lines_of_clean longer (by simp) rest
      have tooLong : ¬ fitsScanner (line ++ [b] ++ more) = true := by
        simp only [fitsScanner, List.length_append, List.length_singleton, decide_eq_true_eq]
        omega
      rw [if_pos full, shifted, first, List.takeWhile_cons_of_neg tooLong]
      exact (List.append_nil acc).symm
    · rw [if_neg full, shifted]
      refine ih acc longer ?_
      simp only [List.length_append, List.length_singleton]
      omega

theorem scanLines_eq (content : Bytes) :
    scanLines content [] [] =
      ((lines newline content).takeWhile fitsScanner).map scanLines.dropCR :=
  scanLines_eq_append content [] List.not_mem_nil (by decide)

theorem mergeObject_eq (merged : List Sample) (content : Bytes) :
    mergeObject merged content = (kept content).foldl (fun m e => addCount m e.1 e.2) merged := by
  rw [mergeObject, scanLines_eq]
  rfl

theorem parseLine_eq (line : Bytes) :
    parseLine line = (cutLast 32 line).bind fun cut => (parseUint cut.2).map fun n => (cut.1, n) := by
  cases cut : cutLast 32 line with
  | none =>
    have clean := cutLast_none.mp cut
    have whole : line.reverse.takeWhile (· ≠ 32) = line.reverse := by
      rw [List.takeWhile_eq_self_iff]
      intro b member
      exact decide_eq_true fun same => clean (same ▸ List.mem_reverse.mp member)
    simp only [parseLine, whole, List.reverse_reverse, if_true, Option.bind_none]
  | some parts =>
    obtain ⟨stack, count⟩ := parts
    obtain ⟨rfl, clean⟩ := eq_of_cutLast cut
    have found : (stack ++ 32 :: count).reverse.takeWhile (· ≠ 32) = count.reverse := by
      have all : ∀ b ∈ count.reverse, decide (b ≠ 32) = true := fun b member =>
        decide_eq_true fun same => clean (same ▸ List.mem_reverse.mp member)
      rw [List.reverse_append, List.reverse_cons, List.append_assoc,
        List.takeWhile_append_of_pos all]
      simp
    have length : count.length ≠ (stack ++ 32 :: count).length := by
      simp only [List.length_append, List.length_cons]
      omega
    have front : (stack ++ 32 :: count).length - count.length - 1 = stack.length := by
      simp only [List.length_append, List.length_cons]
      omega
    simp only [parseLine, found, List.reverse_reverse, if_neg length, front, List.take_left,
      Option.bind_some]

theorem parseUint_lt {digits : Bytes} {n : Nat} (parsed : parseUint digits = some n) :
    n < 2 ^ 64 := by
  simp only [parseUint] at parsed
  split_ifs at parsed with bad small
  exact Option.some.inj parsed ▸ small

theorem parseLine_lt {line : Bytes} {e : Sample} (parsed : parseLine line = some e) :
    e.2 < 2 ^ 64 := by
  rw [parseLine_eq] at parsed
  obtain ⟨cut, _, counted⟩ := Option.bind_eq_some_iff.mp parsed
  obtain ⟨n, read, rfl⟩ := Option.map_eq_some_iff.mp counted
  exact parseUint_lt read

theorem entriesOf_lt {text : List Bytes} {e : Sample} (member : e ∈ entriesOf text) :
    e.2 < 2 ^ 64 := by
  obtain ⟨line, _, parsed⟩ := List.mem_filterMap.mp member
  exact parseLine_lt parsed

end scanner

section merging

/-- The merged map holds every stack once, with the sum of its counts in 64 bits. -/
structure Counted (merged events : List Sample) : Prop where
  once : (keys merged).Nodup
  covers : ∀ stack, stack ∈ keys merged ↔ stack ∈ keys events
  sums : ∀ e ∈ merged, e.2 = weight (· = e.1) events % 2 ^ 64

theorem keys_addCount (m : List Sample) (stack : Bytes) (count : Nat) :
    keys (addCount m stack count) = if stack ∈ keys m then keys m else keys m ++ [stack] := by
  induction m with
  | nil => rfl
  | cons e m ih =>
    by_cases same : e.1 = stack
    · simp [addCount, same, keys]
    · have other : stack ≠ e.1 := fun h => same h.symm
      have tail : keys (e :: m) = e.1 :: keys m := rfl
      rw [addCount, if_neg same, tail]
      by_cases present : stack ∈ keys m
      · rw [if_pos (List.mem_cons_of_mem _ present), ← (ih.trans (if_pos present))]
        rfl
      · rw [if_neg (List.not_mem_cons_of_ne_of_not_mem other present), List.cons_append,
          ← (ih.trans (if_neg present))]
        rfl

theorem mem_addCount {m : List Sample} {stack : Bytes} {count : Nat} {e : Sample}
    (once : (keys m).Nodup) (member : e ∈ addCount m stack count) :
    e ∈ m ∧ e.1 ≠ stack ∨ e.1 = stack ∧
      (stack ∉ keys m ∧ e.2 = count ∨ ∃ old, (stack, old) ∈ m ∧ e.2 = (old + count) % 2 ^ 64) := by
  induction m with
  | nil =>
    rw [addCount, List.mem_singleton] at member
    exact .inr ⟨by rw [member], .inl ⟨List.not_mem_nil, by rw [member]⟩⟩
  | cons first m ih =>
    have apart : first.1 ∉ keys m := (List.nodup_cons.mp once).1
    have others : (keys m).Nodup := (List.nodup_cons.mp once).2
    by_cases same : first.1 = stack
    · rw [addCount, if_pos same, List.mem_cons] at member
      rcases member with rfl | later
      · exact .inr ⟨rfl, .inr ⟨first.2, by rw [← same]; exact List.mem_cons_self, rfl⟩⟩
      · refine .inl ⟨List.mem_cons_of_mem _ later, fun clash => apart ?_⟩
        rw [same, ← clash]
        exact List.mem_map_of_mem later
    · rw [addCount, if_neg same, List.mem_cons] at member
      rcases member with rfl | later
      · exact .inl ⟨List.mem_cons_self, same⟩
      · rcases ih others later with ⟨inside, differs⟩ | ⟨here, ⟨absent, new⟩ | ⟨old, inside, added⟩⟩
        · exact .inl ⟨List.mem_cons_of_mem _ inside, differs⟩
        · refine .inr ⟨here, .inl ⟨?_, new⟩⟩
          exact List.not_mem_cons_of_ne_of_not_mem (fun h => same h.symm) absent
        · exact .inr ⟨here, .inr ⟨old, List.mem_cons_of_mem _ inside, added⟩⟩

theorem Counted.addCount {merged events : List Sample} (counted : Counted merged events)
    {e : Sample} (small : e.2 < 2 ^ 64) :
    Counted (addCount merged e.1 e.2) (events ++ [e]) := by
  have single : ∀ stack, weight (· = stack) [e] = if e.1 = stack then e.2 else 0 := by
    intro stack
    rw [weight_cons, weight_nil, add_zero]
  refine ⟨?_, ?_, ?_⟩
  · rw [keys_addCount]
    split_ifs with present
    · exact counted.once
    · rw [List.nodup_append]
      refine ⟨counted.once, List.nodup_singleton _, fun a left b right same => present ?_⟩
      rw [← List.mem_singleton.mp right, ← same]
      exact left
  · intro stack
    rw [keys_addCount, keys_append, List.mem_append, ← counted.covers stack]
    split_ifs with present
    · constructor
      · exact .inl
      · rintro (inside | here)
        · exact inside
        · rw [List.mem_singleton.mp here]
          exact present
    · rw [List.mem_append]
      rfl
  · intro f member
    rw [weight_append, single]
    rcases mem_addCount counted.once member with
      ⟨inside, differs⟩ | ⟨here, ⟨absent, new⟩ | ⟨old, inside, added⟩⟩
    · rw [if_neg (fun same => differs same.symm), add_zero]
      exact counted.sums f inside
    · have nothing : weight (· = f.1) events = 0 := by
        apply weight_eq_zero
        intro g within same
        have listed := (counted.covers f.1).mpr (same ▸ List.mem_map_of_mem within)
        exact absent (here ▸ listed)
      rw [nothing, if_pos here.symm, zero_add, new, Nat.mod_eq_of_lt small]
    · have before := counted.sums _ inside
      simp only at before
      rw [if_pos here.symm, added, before, here, Nat.mod_add_mod]

theorem Counted.foldl {merged events : List Sample} (counted : Counted merged events)
    {more : List Sample} (small : ∀ e ∈ more, e.2 < 2 ^ 64) :
    Counted (more.foldl (fun m e => TaskReads.addCount m e.1 e.2) merged) (events ++ more) := by
  induction more generalizing merged events with
  | nil =>
    rw [List.append_nil]
    exact counted
  | cons e more ih =>
    have first := counted.addCount (small e List.mem_cons_self)
    have rest := ih first fun other member => small other (List.mem_cons_of_mem e member)
    rw [List.append_assoc] at rest
    exact rest

theorem counted_objects (contents : List Bytes) :
    Counted (contents.foldl mergeObject []) (contents.flatMap kept) := by
  have none : Counted [] [] := ⟨List.nodup_nil, fun _ => Iff.rfl, nofun⟩
  have small : ∀ e ∈ contents.flatMap kept, e.2 < 2 ^ 64 := by
    intro e member
    obtain ⟨content, _, inside⟩ := List.mem_flatMap.mp member
    exact entriesOf_lt inside
  have all : ∀ merged, contents.foldl mergeObject merged =
      (contents.flatMap kept).foldl (fun m e => TaskReads.addCount m e.1 e.2) merged := by
    induction contents with
    | nil => exact fun _ => rfl
    | cons content contents ih =>
      intro merged
      rw [List.foldl_cons, List.flatMap_cons, List.foldl_append, ← mergeObject_eq]
      exact ih (fun e member => small e (List.mem_append_right _ member)) _
  rw [all]
  exact none.foldl small

theorem Counted.perm {merged order events others : List Sample} (counted : Counted merged events)
    (reordered : order.Perm merged) (regrouped : others.Perm events) : Counted order others where
  once := (reordered.map Prod.fst).nodup_iff.mpr counted.once
  covers stack := by
    have left : stack ∈ keys order ↔ stack ∈ keys merged := (reordered.map Prod.fst).mem_iff
    have right : stack ∈ keys others ↔ stack ∈ keys events := (regrouped.map Prod.fst).mem_iff
    rw [left, right]
    exact counted.covers stack
  sums e member := by
    rw [weight_perm regrouped]
    exact counted.sums e (reordered.mem_iff.mp member)

def answerFor (events : List Sample) (stack : Bytes) : List Sample :=
  if stack ∈ keys events then [(stack, weight (· = stack) events % 2 ^ 64)] else []

theorem Counted.filter_eq {merged events : List Sample} (counted : Counted merged events)
    (stack : Bytes) : merged.filter (·.1 = stack) = answerFor events stack := by
  have value : ∀ e ∈ merged, e.1 = stack → e = (stack, weight (· = stack) events % 2 ^ 64) := by
    rintro e member rfl
    exact Prod.ext rfl (counted.sums e member)
  have listed := counted.covers stack
  have once := counted.once
  rw [answerFor, ← if_congr listed rfl rfl]
  clear counted listed
  induction merged with
  | nil => rfl
  | cons e merged ih =>
    have apart := (List.nodup_cons.mp once).1
    have rest := ih (fun f member => value f (List.mem_cons_of_mem e member))
      (List.nodup_cons.mp once).2
    by_cases here : e.1 = stack
    · have present : stack ∈ keys (e :: merged) := here ▸ List.mem_cons_self
      have absent : stack ∉ keys merged := here ▸ apart
      rw [List.filter_cons_of_pos (by simpa using here), rest, if_neg absent, if_pos present,
        value e List.mem_cons_self here]
    · have same : stack ∈ keys (e :: merged) ↔ stack ∈ keys merged :=
        ⟨fun member => (List.mem_cons.mp member).resolve_left fun h => here h.symm,
          List.mem_cons_of_mem _⟩
      rw [List.filter_cons_of_neg (by simpa using here), rest, if_congr same rfl rfl]

theorem Counted.eq_nil_iff {merged events : List Sample} (counted : Counted merged events) :
    merged = [] ↔ events = [] := by
  have same : ∀ stack, stack ∈ keys merged ↔ stack ∈ keys events := counted.covers
  constructor
  · rintro rfl
    exact List.map_eq_nil_iff.mp (List.eq_nil_iff_forall_not_mem.mpr fun stack member =>
      absurd ((same stack).mpr member) List.not_mem_nil)
  · rintro rfl
    exact List.map_eq_nil_iff.mp (List.eq_nil_iff_forall_not_mem.mpr fun stack member =>
      absurd ((same stack).mp member) List.not_mem_nil)

theorem answerFor_perm {events others : List Sample} (regrouped : events.Perm others)
    (stack : Bytes) : answerFor events stack = answerFor others stack := by
  have right : stack ∈ keys events ↔ stack ∈ keys others := (regrouped.map Prod.fst).mem_iff
  rw [answerFor, answerFor, if_congr right rfl rfl, weight_perm regrouped]

theorem answerFor_append {events more : List Sample} {stack : Bytes} (within : stack ∈ keys more) :
    answerFor events stack = answerFor (events ++ more) stack ↔
      stack ∈ keys events ∧ weight (· = stack) more % 2 ^ 64 = 0 := by
  have listed : stack ∈ keys (events ++ more) := by
    rw [keys_append]
    exact List.mem_append_right _ within
  rw [answerFor, answerFor, if_pos listed, weight_append]
  by_cases present : stack ∈ keys events
  · rw [if_pos present]
    simp only [List.cons.injEq, Prod.mk.injEq, true_and, and_true, present]
    omega
  · simp [present]

theorem answerFor_append_of_not_mem {events more : List Sample} {stack : Bytes}
    (outside : stack ∉ keys more) :
    answerFor (events ++ more) stack = answerFor events stack := by
  have nothing : weight (· = stack) more = 0 := weight_eq_zero fun e member same =>
    outside (same ▸ List.mem_map_of_mem member)
  have listed : stack ∈ keys (events ++ more) ↔ stack ∈ keys events := by
    rw [keys_append, List.mem_append, or_iff_left outside]
  rw [answerFor, answerFor, if_congr listed rfl rfl, weight_append, nothing, add_zero]

end merging

section body

/-- The text of the answer, in the order in which Go goes through the map. -/
def bodyOf (order : List Sample) : Bytes :=
  order.flatMap fun e => (e.1 ++ 32 :: decimal e.2) ++ [newline]

theorem parseUint_decimal {n : Nat} (small : n < 2 ^ 64) : parseUint (decimal n) = some n := by
  have digits : ¬ (decimal n).any (fun d => d < 48 ∨ 57 < d) = true := by
    intro bad
    obtain ⟨d, member, outside⟩ := List.any_eq_true.mp bad
    have inside := isDigit_bounds (isDigit_of_mem_decimal member)
    rcases of_decide_eq_true outside with low | high
    · exact absurd (UInt8.lt_iff_toNat_lt.mp low) (Nat.not_lt.mpr inside.1)
    · exact absurd (UInt8.lt_iff_toNat_lt.mp high) (Nat.not_lt.mpr inside.2)
  have read : (decimal n).foldl (fun n d => 10 * n + (d.toNat - 48)) 0 = n := numeral_decimal n
  simp only [parseUint, if_neg (not_or.mpr ⟨decimal_ne_nil n, digits⟩), read, if_pos small]

theorem dropCR_digit {line : Bytes} {n : Nat} :
    scanLines.dropCR (line ++ 32 :: decimal n) = line ++ 32 :: decimal n := by
  refine if_neg fun last => ?_
  have within : (13 : UInt8) ∈ decimal n := by
    rw [List.getLast?_append, List.getLast?_cons, List.getLast?_eq_some_getLast (decimal_ne_nil n)] at last
    simp only [Option.getD_some, Option.some_or, Option.some.injEq] at last
    rw [← last]
    exact List.getLast_mem _
  exact not_mem_decimal (by decide) n within

theorem wellFormed_bodyOf {order : List Sample} (clean : ∀ e ∈ order, newline ∉ e.1)
    (small : ∀ e ∈ order, e.2 < 2 ^ 64) : wellFormed (bodyOf order) = order := by
  have noNewline : ∀ e ∈ order, newline ∉ e.1 ++ 32 :: decimal e.2 := by
    intro e member inside
    simp only [List.mem_append, List.mem_cons] at inside
    rcases inside with inside | other | inside
    · exact clean e member inside
    · exact absurd other (by decide)
    · exact not_mem_decimal (by decide) _ inside
  have parsed : ∀ e ∈ order,
      parseLine (scanLines.dropCR (e.1 ++ 32 :: decimal e.2)) = some e := by
    intro e member
    have cut := cutLast_append e.1 (not_mem_decimal (c := 32) (by decide) e.2)
    rw [dropCR_digit, parseLine_eq, cut, Option.bind_some, parseUint_decimal (small e member)]
    rfl
  rw [wellFormed, bodyOf, lines_flatMap noNewline, entriesOf, List.map_map, List.filterMap_map]
  exact (List.filterMap_congr parsed).trans List.filterMap_some

theorem not_mem_dropCR {line : Bytes} (clean : newline ∉ line) :
    newline ∉ scanLines.dropCR line := by
  rw [scanLines.dropCR]
  split_ifs
  · exact fun member => clean (List.dropLast_subset line member)
  · exact clean

theorem not_mem_of_entriesOf {content : Bytes} {text : List Bytes}
    (part : text ⊆ lines newline content) {e : Sample} (member : e ∈ entriesOf text) :
    newline ∉ e.1 := by
  obtain ⟨shown, within, parsed⟩ := List.mem_filterMap.mp member
  obtain ⟨line, here, rfl⟩ := List.mem_map.mp within
  have clean := not_mem_dropCR (not_mem_of_mem_lines (part here))
  rw [parseLine_eq] at parsed
  obtain ⟨cut, found, counted⟩ := Option.bind_eq_some_iff.mp parsed
  obtain ⟨n, _, rfl⟩ := Option.map_eq_some_iff.mp counted
  rw [(eq_of_cutLast found).1] at clean
  exact fun inside => clean (List.mem_append_left _ inside)

end body

section window
variable (env : Environment) (s : ServerState)

def overlapping (tid : String) (start stop : Int64) : List ContinuousProfileSegment :=
  s.segments.filter fun seg => seg.tid = tid ∧ seg.startTs < stop ∧ start < seg.endTs

/-- A segment whose object is there and is read to its end. -/
def Readable (key : String) : Prop :=
  env.getFails key = false ∧
    ∃ content ∈ storedObject s key, ∀ length ∈ env.readEnds key, content.length ≤ length

def gather (read : String → Option Bytes) (part : Bytes → List Sample)
    (segments : List ContinuousProfileSegment) : List Sample :=
  segments.flatMap fun seg => (read seg.s3Key).elim [] part

/-- A 200 answer comes with all overlapping segments read, and its body has every stack of
theirs on one line with the sum of its counts. -/
def Accounts (tid : String) (start stop : Int64) : Prop :=
  ∀ merged, getProfileWindow env s tid (some (start, stop)) = .stacks merged →
    (∀ seg ∈ overlapping s tid start stop, Readable env s seg.s3Key) ∧
    ∀ order, order.Perm merged → ∀ stack, (wellFormed (bodyOf order)).filter (·.1 = stack) =
      answerFor (gather (storedObject s) wellFormed (overlapping s tid start stop)) stack

def Answers (tid : String) (start stop : Int64) : Prop :=
  start ≠ 0 ∧ stop ≠ 0 ∧ env.storage = true ∧
    gather (getObject env s) kept (overlapping s tid start stop) ≠ []

/-- Every segment can be read to its end, and what stands in it from the first line on that
the scanner cannot hold changes no sum. -/
structure Complete (tid : String) (start stop : Int64) : Prop where
  readable : ∀ seg ∈ overlapping s tid start stop, Readable env s seg.s3Key
  neutral : ∀ stack ∈ keys (gather (storedObject s) lost (overlapping s tid start stop)),
    stack ∈ keys (gather (storedObject s) kept (overlapping s tid start stop)) ∧
    weight (· = stack) (gather (storedObject s) lost (overlapping s tid start stop)) % 2 ^ 64 = 0

variable {env s}

theorem Readable.getObject_eq {key : String} (readable : Readable env s key) :
    getObject env s key = storedObject s key := by
  obtain ⟨works, content, stored, whole⟩ := readable
  rw [getObject, works, stored]
  cases ends : env.readEnds key with
  | none => rfl
  | some length => exact congrArg some (List.take_of_length_le (whole length ends))

theorem gather_perm (read : String → Option Bytes) (segments : List ContinuousProfileSegment) :
    (gather read wellFormed segments).Perm
      (gather read kept segments ++ gather read lost segments) := by
  have each : ∀ seg : ContinuousProfileSegment, (read seg.s3Key).elim [] wellFormed =
      (read seg.s3Key).elim [] kept ++ (read seg.s3Key).elim [] lost := by
    intro seg
    cases read seg.s3Key with
    | none => rfl
    | some content => exact wellFormed_eq content
  simp only [gather, each]
  exact (List.flatMap_append_perm segments _ _).symm

theorem gather_congr {read other : String → Option Bytes} {part : Bytes → List Sample}
    {segments : List ContinuousProfileSegment}
    (same : ∀ seg ∈ segments, read seg.s3Key = other seg.s3Key) :
    gather read part segments = gather other part segments := by
  refine List.flatMap_congr fun seg member => ?_
  rw [same seg member]

theorem clean_gather_kept {read : String → Option Bytes}
    {segments : List ContinuousProfileSegment} {e : Sample}
    (member : e ∈ gather read kept segments) : newline ∉ e.1 := by
  obtain ⟨seg, _, inside⟩ := List.mem_flatMap.mp member
  cases found : read seg.s3Key with
  | none =>
    rw [found] at inside
    exact absurd inside List.not_mem_nil
  | some content =>
    rw [found] at inside
    exact not_mem_of_entriesOf (List.takeWhile_subset _) inside

variable (env s)

theorem contents_flatMap (segments : List ContinuousProfileSegment) :
    (segments.filterMap fun seg => getObject env s seg.s3Key).flatMap kept =
      gather (getObject env s) kept segments := by
  induction segments with
  | nil => rfl
  | cons seg segments ih =>
    rw [gather, List.flatMap_cons]
    cases found : getObject env s seg.s3Key with
    | none =>
      simp only [List.filterMap_cons, found, ih]
      rfl
    | some content =>
      simp only [List.filterMap_cons, found, List.flatMap_cons, ih]
      rfl

variable (tid : String) (start stop : Int64)

def mergedWindow : List Sample :=
  (((overlapping s tid start stop).insertionSort fun a b => a.startTs ≤ b.startTs).filterMap
    fun seg => getObject env s seg.s3Key).foldl mergeObject []

theorem counted_mergedWindow : Counted (mergedWindow env s tid start stop)
    (gather (getObject env s) kept (overlapping s tid start stop)) := by
  have sorted := List.perm_insertionSort (fun a b => a.startTs ≤ b.startTs)
    (overlapping s tid start stop)
  have counted := counted_objects (((overlapping s tid start stop).insertionSort
    fun a b => a.startTs ≤ b.startTs).filterMap fun seg => getObject env s seg.s3Key)
  rw [contents_flatMap] at counted
  exact counted.perm (.refl _) (sorted.flatMap_right _).symm

theorem getProfileWindow_eq_stacks (merged : List Sample) :
    getProfileWindow env s tid (some (start, stop)) = .stacks merged ↔
      Answers env s tid start stop ∧ merged = mergedWindow env s tid start stop := by
  have empty := (counted_mergedWindow env s tid start stop).eq_nil_iff
  have noSegments : (overlapping s tid start stop).insertionSort
      (fun a b => a.startTs ≤ b.startTs) = [] → mergedWindow env s tid start stop = [] := by
    intro none
    rw [mergedWindow, none]
    rfl
  have unfolded : getProfileWindow env s tid (some (start, stop)) =
      if start = 0 ∨ stop = 0 then .error 400 4000012 "start and end query params required"
      else if (overlapping s tid start stop).insertionSort (fun a b => a.startTs ≤ b.startTs) = []
      then .error 404 4040012 "no segments in the requested window"
      else if env.storage = false then .error 503 5030012 "storage not configured"
      else if mergedWindow env s tid start stop = [] then
        .error 404 4040013 "no data in the requested window"
      else .stacks (mergedWindow env s tid start stop) := rfl
  rw [unfolded, Answers, Ne.eq_def (gather _ _ _), ← empty, ← Bool.not_eq_false]
  split_ifs with zero none storage nothing
  · simp only [false_iff]
    tauto
  · simp only [noSegments none, not_true, and_false, false_and]
  · simp only [storage, not_true, and_false, false_and]
  · simp only [nothing, not_true, and_false, false_and]
  · simp only [Response.stacks.injEq]
    rw [not_or] at zero
    exact ⟨fun same => ⟨⟨zero.1, zero.2, storage, nothing⟩, same.symm⟩, fun h => h.2.symm⟩

theorem wellFormed_answer {order : List Sample}
    (shown : order.Perm (mergedWindow env s tid start stop)) (stack : Bytes) :
    (wellFormed (bodyOf order)).filter (·.1 = stack) =
      answerFor (gather (getObject env s) kept (overlapping s tid start stop)) stack := by
  have counted := (counted_mergedWindow env s tid start stop).perm shown (.refl _)
  have small : ∀ e ∈ order, e.2 < 2 ^ 64 := by
    intro e member
    rw [counted.sums e member]
    exact Nat.mod_lt _ (by decide)
  have clean : ∀ e ∈ order, newline ∉ e.1 := by
    intro e member
    obtain ⟨f, within, same⟩ := List.mem_map.mp ((counted.covers e.1).mp (List.mem_map_of_mem member))
    rw [← same]
    exact clean_gather_kept within
  rw [wellFormed_bodyOf clean small]
  exact counted.filter_eq stack

/-- The handler accounts for the whole window exactly if it does not get to a 200 answer or
nothing that counts is left unread. -/
theorem accounts_iff : Accounts env s tid start stop ↔
    (Answers env s tid start stop → Complete env s tid start stop) := by
  have answerEq : ∀ readable : (∀ seg ∈ overlapping s tid start stop, Readable env s seg.s3Key),
      gather (getObject env s) kept (overlapping s tid start stop) =
        gather (storedObject s) kept (overlapping s tid start stop) := fun readable =>
    gather_congr fun seg member => (readable seg member).getObject_eq
  have split := gather_perm (storedObject s) (overlapping s tid start stop)
  constructor
  · intro accounts answers
    obtain ⟨readable, body⟩ := accounts _
      ((getProfileWindow_eq_stacks env s tid start stop _).mpr ⟨answers, rfl⟩)
    refine ⟨readable, fun stack missed => ?_⟩
    have here := body _ (.refl _) stack
    rw [wellFormed_answer env s tid start stop (.refl _), answerEq readable,
      answerFor_perm split] at here
    exact (answerFor_append missed).mp here
  · intro complete merged answer
    obtain ⟨answers, rfl⟩ := (getProfileWindow_eq_stacks env s tid start stop merged).mp answer
    obtain ⟨readable, neutral⟩ := complete answers
    refine ⟨readable, fun order shown stack => ?_⟩
    rw [wellFormed_answer env s tid start stop shown, answerEq readable, answerFor_perm split]
    by_cases missed : stack ∈ keys (gather (storedObject s) lost (overlapping s tid start stop))
    · exact (answerFor_append missed).mpr (neutral stack missed)
    · exact (answerFor_append_of_not_mem missed).symm

def brokenRead : Environment :=
  ⟨true, fun _ => false, fun _ => false, fun key => if key = "b" then some 0 else none, id,
    fun _ => none⟩

def twoSegments : ServerState where
  tasks := []
  members := []
  suggestions := []
  segments := [⟨1, "t", 1, 2, "a"⟩, ⟨2, "t", 2, 3, "b"⟩]
  objects := [("a", [97, 32, 49, 10]), ("b", [98, 32, 49, 10])]

theorem brokenRead_answers : ¬ Accounts brokenRead twoSegments "t" 1 4 := by
  intro accounts
  have answer : getProfileWindow brokenRead twoSegments "t" (some (1, 4)) =
      .stacks [([97], 1)] := by decide
  obtain ⟨_, content, stored, whole⟩ := (accounts _ answer).1 ⟨2, "t", 2, 3, "b"⟩ (by decide)
  have second : storedObject twoSegments "b" = some [98, 32, 49, 10] := by decide
  obtain rfl := Option.some.inj (second.symm.trans stored)
  exact absurd (whole 0 rfl) (by decide)

end window

section additivity

def countIn (response : Response) (stack : Bytes) : Nat :=
  match response with
  | .stacks merged => weight (· = stack) merged
  | _ => 0

theorem Counted.weight_eq {merged events : List Sample} (counted : Counted merged events)
    (stack : Bytes) : weight (· = stack) merged = weight (· = stack) events % 2 ^ 64 := by
  rw [weight, counted.filter_eq, answerFor]
  split_ifs with present
  · exact Nat.add_zero _
  · have nothing : weight (· = stack) events = 0 := weight_eq_zero fun e member same =>
      present (same ▸ List.mem_map_of_mem member)
    rw [nothing]
    rfl

theorem Counted.perm_of_perm {merged other events others : List Sample}
    (counted : Counted merged events) (counted' : Counted other others)
    (regrouped : events.Perm others) : merged.Perm other := by
  have entries : ∀ m n : List Sample, Counted m events → Counted n events → ∀ e ∈ m, e ∈ n := by
    intro m n left right e member
    have here : e ∈ m.filter (·.1 = e.1) := List.mem_filter.mpr ⟨member, decide_eq_true rfl⟩
    rw [left.filter_eq, ← right.filter_eq] at here
    exact List.mem_of_mem_filter here
  have same : Counted other events := counted'.perm (.refl _) regrouped
  rw [List.perm_ext_iff_of_nodup counted.once.of_map same.once.of_map]
  exact fun e => ⟨entries merged other counted same e, entries other merged same counted e⟩

variable (env : Environment) (s : ServerState) (tid : String)

theorem countIn_eq_zero {response : Response} (other : ∀ merged, response ≠ .stacks merged)
    (stack : Bytes) : countIn response stack = 0 := by
  unfold countIn
  split
  · exact absurd rfl (other _)
  · rfl

theorem countIn_getProfileWindow {start stop : Int64} (nonzero : start ≠ 0 ∧ stop ≠ 0)
    (configured : env.storage = true) (stack : Bytes) :
    countIn (getProfileWindow env s tid (some (start, stop))) stack =
      weight (· = stack) (gather (getObject env s) kept (overlapping s tid start stop)) % 2 ^ 64 := by
  have only := getProfileWindow_eq_stacks env s tid start stop
  by_cases nothing : gather (getObject env s) kept (overlapping s tid start stop) = []
  · rw [nothing, countIn_eq_zero]
    · rfl
    · exact fun merged answer => ((only merged).mp answer).1.2.2.2 nothing
  · have answers : Answers env s tid start stop := ⟨nonzero.1, nonzero.2, configured, nothing⟩
    rw [(only _).mpr ⟨answers, rfl⟩]
    exact (counted_mergedWindow env s tid start stop).weight_eq stack

theorem countIn_of_no_storage (missing : env.storage = false) (start stop : Int64)
    (stack : Bytes) : countIn (getProfileWindow env s tid (some (start, stop))) stack = 0 := by
  refine countIn_eq_zero (fun merged answer => ?_) stack
  have configured := ((getProfileWindow_eq_stacks env s tid start stop merged).mp answer).1.2.2.1
  rw [missing] at configured
  exact Bool.false_ne_true configured

theorem overlapping_perm {a b c : Int64} (ab : a < b) (bc : b < c)
    (proper : ∀ seg ∈ s.segments, seg.tid = tid → seg.startTs < seg.endTs)
    (clear : ∀ seg ∈ s.segments, seg.tid = tid → ¬ (seg.startTs < b ∧ b < seg.endTs)) :
    (overlapping s tid a b ++ overlapping s tid b c).Perm (overlapping s tid a c) := by
  have parts := List.filter_append_perm (fun seg => decide (seg.startTs < b))
    (overlapping s tid a c)
  have before : (overlapping s tid a c).filter (fun seg => decide (seg.startTs < b)) =
      overlapping s tid a b := by
    rw [overlapping, List.filter_filter]
    refine List.filter_congr fun seg _ => ?_
    simp only [Int64.lt_iff_toInt_lt, ← Bool.decide_and, decide_eq_decide] at *
    constructor
    · rintro ⟨early, own, _, late⟩
      exact ⟨own, early, late⟩
    · rintro ⟨own, early, late⟩
      exact ⟨early, own, early.trans bc, late⟩
  have behind : (overlapping s tid a c).filter (fun seg => !decide (seg.startTs < b)) =
      overlapping s tid b c := by
    rw [overlapping, List.filter_filter]
    refine List.filter_congr fun seg member => ?_
    have proper := proper seg member
    have clear := clear seg member
    simp only [Int64.lt_iff_toInt_lt, ← decide_not, ← Bool.decide_and, decide_eq_decide] at *
    constructor
    · rintro ⟨late, own, early, _⟩
      have whole := proper own
      exact ⟨own, early, by omega⟩
    · rintro ⟨own, early, late⟩
      have apart := clear own
      exact ⟨by omega, own, early, by omega⟩
  rwa [before, behind] at parts

/-- The answer to the segments that the database returns, in their order. -/
def answerFrom (start stop : Int64) (segments : List ContinuousProfileSegment) : Response :=
  if start = 0 ∨ stop = 0 then .error 400 4000012 "start and end query params required"
  else if segments = [] then .error 404 4040012 "no segments in the requested window"
  else if env.storage = false then .error 503 5030012 "storage not configured"
  else
    let merged := (segments.filterMap fun seg => getObject env s seg.s3Key).foldl mergeObject []
    if merged = [] then .error 404 4040013 "no data in the requested window"
    else .stacks merged

def SameAnswer : Response → Response → Prop
  | .stacks merged, .stacks other => merged.Perm other
  | answer, other => answer = other

theorem sameAnswer_of_perm (start stop : Int64) {segments others : List ContinuousProfileSegment}
    (order : segments.Perm others) :
    SameAnswer (answerFrom env s start stop segments) (answerFrom env s start stop others) := by
  have left := counted_objects (segments.filterMap fun seg => getObject env s seg.s3Key)
  have right := counted_objects (others.filterMap fun seg => getObject env s seg.s3Key)
  have regrouped := (order.filterMap fun seg => getObject env s seg.s3Key).flatMap_right kept
  have merged := left.perm_of_perm right regrouped
  have noSegments : segments = [] ↔ others = [] := by
    constructor
    · rintro rfl
      exact order.symm.eq_nil
    · rintro rfl
      exact order.eq_nil
  have nothing : (segments.filterMap fun seg => getObject env s seg.s3Key).foldl mergeObject [] = [] ↔
      (others.filterMap fun seg => getObject env s seg.s3Key).foldl mergeObject [] = [] := by
    constructor
    · intro empty
      exact (empty ▸ merged).symm.eq_nil
    · intro empty
      exact (empty ▸ merged).eq_nil
  simp only [answerFrom, noSegments, nothing]
  split_ifs
  all_goals first | exact merged | rfl

theorem sameAnswer_of_order (start stop : Int64) {order : List ContinuousProfileSegment}
    (returned : order.Perm (overlapping s tid start stop)) :
    SameAnswer (answerFrom env s start stop order)
      (getProfileWindow env s tid (some (start, stop))) := by
  have sorted := List.perm_insertionSort (fun a b => a.startTs ≤ b.startTs)
    (overlapping s tid start stop)
  exact sameAnswer_of_perm env s start stop (returned.trans sorted.symm)

theorem countIn_split {a b c : Int64} (ab : a < b) (bc : b < c) (nonzero : a ≠ 0 ∧ b ≠ 0 ∧ c ≠ 0)
    (proper : ∀ seg ∈ s.segments, seg.tid = tid → seg.startTs < seg.endTs)
    (clear : ∀ seg ∈ s.segments, seg.tid = tid → ¬ (seg.startTs < b ∧ b < seg.endTs))
    (stack : Bytes) :
    countIn (getProfileWindow env s tid (some (a, c))) stack =
      (countIn (getProfileWindow env s tid (some (a, b))) stack +
        countIn (getProfileWindow env s tid (some (b, c))) stack) % 2 ^ 64 := by
  cases configured : env.storage with
  | false => simp only [countIn_of_no_storage env s tid configured]; rfl
  | true =>
    have parts := (overlapping_perm s tid ab bc proper clear).flatMap_right
      fun seg => (getObject env s seg.s3Key).elim [] kept
    rw [List.flatMap_append] at parts
    rw [countIn_getProfileWindow env s tid ⟨nonzero.1, nonzero.2.2⟩ configured,
      countIn_getProfileWindow env s tid ⟨nonzero.1, nonzero.2.1⟩ configured,
      countIn_getProfileWindow env s tid ⟨nonzero.2.1, nonzero.2.2⟩ configured,
      ← Nat.add_mod, gather, gather, gather, ← weight_append, weight_perm parts]

/-- Where no segment reaches across a bound, the counts of a window are those of its two
parts; and no answer of any window depends on the order of the segments. -/
theorem windows_additive :
    (∀ a b c : Int64, a < b → b < c → a ≠ 0 ∧ b ≠ 0 ∧ c ≠ 0 →
      (∀ seg ∈ s.segments, seg.tid = tid → seg.startTs < seg.endTs) →
      (∀ seg ∈ s.segments, seg.tid = tid → ¬ (seg.startTs < b ∧ b < seg.endTs)) →
      ∀ stack, countIn (getProfileWindow env s tid (some (a, c))) stack =
        (countIn (getProfileWindow env s tid (some (a, b))) stack +
          countIn (getProfileWindow env s tid (some (b, c))) stack) % 2 ^ 64) ∧
    ∀ start stop order, order.Perm (overlapping s tid start stop) →
      SameAnswer (answerFrom env s start stop order)
        (getProfileWindow env s tid (some (start, stop))) :=
  ⟨fun _ _ _ => countIn_split env s tid, fun start stop _ => sameAnswer_of_order env s tid start stop⟩

theorem windows_additive_twoSegments :
    countIn (getProfileWindow brokenRead twoSegments "t" (some (1, 3))) [97] =
      (countIn (getProfileWindow brokenRead twoSegments "t" (some (1, 2))) [97] +
        countIn (getProfileWindow brokenRead twoSegments "t" (some (2, 3))) [97]) % 2 ^ 64 :=
  (windows_additive brokenRead twoSegments "t").1 1 2 3 (by decide) (by decide) (by decide)
    (by decide) (by decide) [97]

end additivity

end DropPlatform.ProfileWindow
