import DropPlatform.UserMaps
import Mathlib.Data.Nat.Digits.Defs

/-! The names of user-space addresses. `BatchResolveUserSymbols` has the shell start `addr2line`
once for up to 512 addresses of a binary and reads two lines for each address through a buffer
of 512 bytes; `ResolveUserFrame` looks a frame up in the result. Names are bytes.
The answer for an address is the read that its place in the list says, of whatever the command
prints: it is the right one if the path is a single word for the shell and every line before it
fits into the buffer, and otherwise only by coincidence. -/

namespace DropPlatform.UserSymbols
open TextLines UserMaps
open CollapsedStacks (newline)

def hexChar (digit : Nat) : UInt8 := UInt8.ofNat (if digit < 10 then 48 + digit else 87 + digit)

def hexText (n : UInt64) : Bytes :=
  if n = 0 then [48] else (Nat.digits 16 n.toNat).reverse.map hexChar

/-- The bytes before the NUL that ends a C string. -/
def cString (text : Bytes) : Bytes := text.takeWhile (· ≠ 0)

def basename (path : Bytes) : Bytes :=
  match cutLast 47 path with
  | some (_, name) => name
  | none => path

/-- `"%s+0x%lx"`, printed into 128 bytes. -/
def fallbackName (path : Bytes) (offset : UInt64) : Bytes :=
  (cString (basename path) ++ [43, 48, 120] ++ hexText offset).take 127

/-- What has been read into the buffer, without its line end. -/
def stripLine (buf : Bytes) : Bytes := (cString buf).rdropWhile fun b => b = 10 ∨ b = 13

/-- The function name, unless it is empty, `??` or `?`. -/
def nameOr (path : Bytes) (offset : UInt64) (funcName : Bytes) : Bytes :=
  if funcName ≠ [] ∧ funcName ≠ [63, 63] ∧ funcName ≠ [63] then funcName
  else fallbackName path offset

abbrev Resolved := AList fun _ : Bytes × UInt64 => Bytes

/-- What can be read from the pipe to the given command, or `none` if there is no pipe. The
commands for one path are told apart by the index of their first address. -/
abbrev Popen := Nat → Bytes → Option Bytes

def address (offset : UInt64) : Bytes := ascii "0x" ++ hexText offset

def command (path : Bytes) (chunk : List UInt64) : Bytes :=
  cString (ascii "addr2line -e " ++ path ++ ascii " -f" ++
    chunk.flatMap (fun offset => 32 :: address offset) ++ ascii " 2>/dev/null")

/-- A read at the end of the output leaves the name empty. -/
def readAnswers (path : Bytes) : List UInt64 → Bytes → Resolved → Resolved
  | [], _, result => result
  | offset :: offsets, pipe, result =>
    let (func, pipe) := readLine newline 511 pipe
    let (_, pipe) := readLine newline 511 pipe
    readAnswers path offsets pipe
      (result.insert (path, offset) (nameOr path offset (stripLine func)))

def resolveChunk (popen : Popen) (path : Bytes) (start : Nat) (chunk : List UInt64)
    (result : Resolved) : Resolved :=
  match popen start (command path chunk) with
  | none => chunk.foldl (fun result offset =>
      result.insert (path, offset) (fallbackName path offset)) result
  | some pipe => readAnswers path chunk pipe result

def chunks (offsets : List UInt64) : List (Nat × List UInt64) :=
  (List.range ((offsets.length + 511) / 512)).map fun k =>
    (512 * k, (offsets.drop (512 * k)).take 512)

def resolvePath (popen : Popen) (path : Bytes) (offsets : List UInt64) (result : Resolved) :
    Resolved :=
  (chunks offsets).foldl (fun result chunk => resolveChunk popen path chunk.1 chunk.2 result) result

/-- `std::map<std::string, std::vector<uint64_t>>`; the order of the paths does not matter. -/
def byPath (toResolve : List (Bytes × UInt64)) : AList fun _ : Bytes => List UInt64 :=
  toResolve.foldl (fun groups pair =>
    groups.insert pair.1 ((groups.lookup pair.1).getD [] ++ [pair.2])) ∅

def batchResolveUserSymbols (popen : Popen) (toResolve : List (Bytes × UInt64)) : Resolved :=
  (byPath toResolve).entries.foldl (fun result group =>
    resolvePath popen group.1 group.2 result) ∅

def resolveUserFrame (maps : List UserSym) (addr : UInt64) (resolved : Resolved) : Bytes :=
  match maps.find? fun m => m.start ≤ addr ∧ addr < m.stop with
  | some m =>
    let fileOffset := addr - m.start + m.offset
    (resolved.lookup (m.path, fileOffset)).getD (fallbackName m.path fileOffset)
  | none => ([91, 117, 110, 107, 110, 111, 119, 110, 93, 58, 48, 120] ++ hexText addr).take 63

section lookups
variable {popen : Popen} {path : Bytes} {key : Bytes × UInt64} {offset : UInt64} {i : Nat}

def skip (k : Nat) (pipe : Bytes) : Bytes := (fun pipe => (readLine newline 511 pipe).2)^[k] pipe

def readAfter (k : Nat) (pipe : Bytes) : Bytes := (readLine newline 511 (skip k pipe)).1

def answerOf (path : Bytes) (i : Nat) (offset : UInt64) : Option Bytes → Bytes
  | none => fallbackName path offset
  | some pipe => nameOr path offset (stripLine (readAfter (2 * i) pipe))

theorem split_at {chunk : List UInt64} (here : chunk[i]? = some offset) :
    chunk.take i ++ offset :: chunk.drop (i + 1) = chunk := by
  obtain ⟨bound, rfl⟩ := List.getElem?_eq_some_iff.mp here
  rw [List.getElem_cons_drop, List.take_append_drop]

def chunkOf (offsets : List UInt64) (n : Nat) : List UInt64 :=
  (offsets.drop (512 * (n / 512))).take 512

theorem chunkOf_getElem {offsets : List UInt64} {n : Nat} (here : offsets[n]? = some offset) :
    (chunkOf offsets n)[n % 512]? = some offset := by
  rw [chunkOf, List.getElem?_take_of_lt (Nat.mod_lt n (by decide)), List.getElem?_drop,
    Nat.div_add_mod, here]

def answer (popen : Popen) (path : Bytes) (offsets : List UInt64) (n : Nat) (offset : UInt64) :
    Bytes :=
  answerOf path (n % 512) offset
    (popen (512 * (n / 512)) (command path (chunkOf offsets n)))

end lookups

section grouping
variable {popen : Popen} {toResolve : List (Bytes × UInt64)} {pair : Bytes × UInt64}

theorem exists_last {α : Type} {l : List α} {x : α} (member : x ∈ l) :
    ∃ n, l[n]? = some x ∧ x ∉ l.drop (n + 1) := by
  classical
  induction l with
  | nil => cases member
  | cons y l ih =>
    by_cases later : x ∈ l
    · obtain ⟨n, here, last⟩ := ih later
      exact ⟨n + 1, here, last⟩
    · obtain rfl := (List.mem_cons.mp member).resolve_right later
      exact ⟨0, rfl, later⟩

end grouping

section names

theorem hexText_clean (n : UInt64) : newline ∉ hexText n := by
  unfold hexText
  split_ifs
  · decide
  · intro inside
    obtain ⟨digit, member, same⟩ := List.mem_map.mp inside
    have small : digit < 16 := Nat.digits_lt_base (by decide) (List.mem_reverse.mp member)
    have value := congrArg UInt8.toNat same
    have bounded : (if digit < 10 then 48 + digit else 87 + digit) < 2 ^ 8 := by
      split_ifs <;> omega
    rw [hexChar, UInt8.toNat_ofNat_of_lt' bounded] at value
    change (if digit < 10 then 48 + digit else 87 + digit) = 10 at value
    split_ifs at value <;> omega

/-- A name is not empty, and has no line end unless the path has one. -/
def Named (key : Bytes × UInt64) (name : Bytes) : Prop :=
  name ≠ [] ∧ (newline ∉ key.1 → newline ∉ name)

theorem named_fallbackName (path : Bytes) (offset : UInt64) :
    Named (path, offset) (fallbackName path offset) := by
  constructor
  · simp [fallbackName]
  · intro clean inside
    have member := List.mem_of_mem_take inside
    simp only [List.append_assoc, List.mem_append] at member
    rcases member with base | mark | digits
    · have name := (List.takeWhile_sublist _).subset base
      rw [basename] at name
      split at name
      · rename_i cut
        rw [(eq_of_cutLast cut).1] at clean
        exact clean (List.mem_append_right _ (List.mem_cons_of_mem _ name))
      · exact clean name
    · exact absurd mark (by decide)
    · exact hexText_clean offset digits

theorem stripLine_readLine (n : Nat) (pipe : Bytes) :
    newline ∉ stripLine (readLine newline n pipe).1 := by
  obtain ⟨line, clean, read⟩ := readLine_fst newline n pipe
  have kept : newline ∉ cString line := fun inside =>
    clean ((List.takeWhile_sublist _).subset inside)
  have stripped : ∀ {text : Bytes}, newline ∉ text →
      newline ∉ text.rdropWhile fun b => b = 10 ∨ b = 13 := fun clean inside =>
    clean ((List.rdropWhile_prefix _ _).subset inside)
  rcases read with read | read
  · rw [read]
    exact stripped kept
  · rw [read, stripLine, cString, List.takeWhile_append]
    split_ifs
    · rw [List.takeWhile_cons_of_pos (by decide), List.takeWhile_nil,
        List.rdropWhile_concat_pos _ _ _ (by decide)]
      exact stripped clean
    · exact stripped kept

theorem named_nameOr (path : Bytes) (offset : UInt64) {funcName : Bytes}
    (clean : newline ∉ funcName) : Named (path, offset) (nameOr path offset funcName) := by
  unfold nameOr
  split_ifs with usable
  · exact ⟨usable.1, fun _ => clean⟩
  · exact named_fallbackName path offset

def AllNamed (result : Resolved) : Prop :=
  ∀ key name, result.lookup key = some name → Named key name

theorem allNamed_empty : AllNamed ∅ := by
  intro key name found
  rw [AList.lookup_empty] at found
  exact absurd found (Option.some_ne_none name).symm

theorem AllNamed.insert {result : Resolved} (all : AllNamed result) {key : Bytes × UInt64}
    {name : Bytes} (named : Named key name) : AllNamed (result.insert key name) := by
  intro other found there
  by_cases same : other = key
  · subst same
    rw [AList.lookup_insert] at there
    exact Option.some.inj there ▸ named
  · rw [AList.lookup_insert_ne same] at there
    exact all other found there

theorem AllNamed.readAnswers (path : Bytes) (offsets : List UInt64) (pipe : Bytes)
    {result : Resolved} (all : AllNamed result) :
    AllNamed (readAnswers path offsets pipe result) := by
  induction offsets generalizing pipe result with
  | nil => exact all
  | cons offset offsets ih =>
    exact ih _ (all.insert (named_nameOr path offset (stripLine_readLine 511 pipe)))

theorem AllNamed.foldl {α : Type} {put : Resolved → α → Resolved}
    (each : ∀ result item, AllNamed result → AllNamed (put result item)) (items : List α)
    {result : Resolved} (all : AllNamed result) : AllNamed (items.foldl put result) := by
  induction items generalizing result with
  | nil => exact all
  | cons item items ih => exact ih (each result item all)

theorem AllNamed.resolveChunk (popen : Popen) (path : Bytes) (start : Nat) (chunk : List UInt64)
    {result : Resolved} (all : AllNamed result) :
    AllNamed (resolveChunk popen path start chunk result) := by
  unfold UserSymbols.resolveChunk
  cases popen start (command path chunk) with
  | none =>
    exact AllNamed.foldl (fun _ offset all => all.insert (named_fallbackName path offset)) _ all
  | some pipe => exact all.readAnswers path chunk pipe

theorem allNamed_batchResolve (popen : Popen) (toResolve : List (Bytes × UInt64)) :
    AllNamed (batchResolveUserSymbols popen toResolve) := by
  refine AllNamed.foldl (fun result group all => ?_) _ allNamed_empty
  exact AllNamed.foldl (fun _ chunk all => all.resolveChunk popen group.1 chunk.1 chunk.2) _ all

theorem resolveUserFrame_named {resolved : Resolved} (all : AllNamed resolved)
    (maps : List UserSym) (addr : UInt64) :
    resolveUserFrame maps addr resolved ≠ [] ∧ newline ∉ resolveUserFrame maps addr resolved := by
  unfold resolveUserFrame
  split
  · rename_i m _
    have named : Named (m.path, addr - m.start + m.offset)
        ((resolved.lookup (m.path, addr - m.start + m.offset)).getD
          (fallbackName m.path (addr - m.start + m.offset))) := by
      cases found : resolved.lookup (m.path, addr - m.start + m.offset) with
      | none => exact named_fallbackName _ _
      | some name => exact all _ name found
    exact ⟨named.1, named.2 m.clean⟩
  · constructor
    · simp
    · intro inside
      rcases List.mem_append.mp (List.mem_of_mem_take inside) with text | digits
      · exact absurd text (by decide)
      · exact hexText_clean addr digits

end names

section shell

/-- The bytes that mean something to the shell, or to `addr2line` at the start of an argument,
apart from the space and the hyphen. -/
def special : Bytes := ascii "\t\n\"#$&'()*;<>?@[\\`\x7b|\x7d~"

/-- The binary and the addresses that `addr2line` gets, if the command does nothing but start
it with `-e binary`, `-f` and addresses. The kernel takes arguments of less than 2^17 bytes. -/
def arguments (cmd : Bytes) : Option (Bytes × List Bytes) :=
  let front := cmd.take (cmd.length - 12)
  if cmd.length < 131072 ∧ cmd.drop (cmd.length - 12) = ascii " 2>/dev/null" ∧
      front.all (· ∉ special) then
    match (lines 32 front).filter (· ≠ []) with
    | program :: option :: binary :: rest =>
      let addresses := rest.filter (· ≠ ascii "-f")
      if program = ascii "addr2line" ∧ option = ascii "-e" ∧ rest.contains (ascii "-f") ∧
          addresses.all (·.head? ≠ some 45) then some (binary, addresses)
      else none
    | _ => none
  else none

/-- An `addr2line` whose two lines depend only on the binary and the address. -/
structure Addr2line where
  name : Bytes → Bytes → Bytes
  location : Bytes → Bytes → Bytes
  name_clean : ∀ binary word, newline ∉ name binary word
  location_clean : ∀ binary word, newline ∉ location binary word

def Addr2line.print (tool : Addr2line) (binary : Bytes) (addresses : List Bytes) : Bytes :=
  addresses.flatMap fun word =>
    tool.name binary word ++ newline :: (tool.location binary word ++ [newline])

/-- What the commands print; `other` stands for whatever a command does that is not a plain
call of `addr2line`. -/
def Addr2line.popen (tool : Addr2line) (other : Popen) : Popen := fun start cmd =>
  match arguments cmd with
  | some (binary, addresses) => some (tool.print binary addresses)
  | none => other start cmd

/-- The shell takes the text for a single word and leaves it as it is. -/
def PlainWord (word : Bytes) : Prop := word ≠ [] ∧ ∀ b ∈ word, b ≠ 0 ∧ b ≠ 32 ∧ b ∉ special

-- `decide` on the bounded quantifier itself would go through all bytes.
theorem plainWord_of_all {word : Bytes} (nonempty : word ≠ [])
    (all : word.all (fun b => b ≠ 0 ∧ b ≠ 32 ∧ b ∉ special) = true) : PlainWord word :=
  ⟨nonempty, fun b member => of_decide_eq_true (List.all_eq_true.mp all b member)⟩

theorem mem_hexText {n : UInt64} {b : UInt8} (member : b ∈ hexText n) :
    b ∈ ascii "0123456789abcdef" := by
  unfold hexText at member
  split_ifs at member
  · rw [List.mem_singleton.mp member]
    decide
  · obtain ⟨digit, there, rfl⟩ := List.mem_map.mp member
    have small : digit < 16 := Nat.digits_lt_base (by decide) (List.mem_reverse.mp there)
    interval_cases digit <;> decide

theorem plainWord_address (offset : UInt64) : PlainWord (address offset) := by
  refine ⟨List.cons_ne_nil _ _, fun b member => ?_⟩
  have clean : PlainWord (ascii "x0123456789abcdef") := plainWord_of_all (by decide) (by decide)
  refine clean.2 b ?_
  rcases List.mem_append.mp member with mark | digits
  · exact (by decide : ascii "0x" ⊆ ascii "x0123456789abcdef") mark
  · exact List.mem_cons_of_mem _ (mem_hexText digits)

def words (path : Bytes) (chunk : List UInt64) : List Bytes :=
  ascii "-e" :: path :: ascii "-f" :: chunk.map address

variable {path : Bytes} (plain : PlainWord path)
include plain

theorem plainWord_words {chunk : List UInt64} {word : Bytes} (member : word ∈ words path chunk) :
    PlainWord word := by
  rcases List.mem_cons.mp member with rfl | member
  · exact plainWord_of_all (by decide) (by decide)
  rcases List.mem_cons.mp member with rfl | member
  · exact plain
  rcases List.mem_cons.mp member with rfl | member
  · exact plainWord_of_all (by decide) (by decide)
  obtain ⟨offset, -, rfl⟩ := List.mem_map.mp member
  exact plainWord_address offset

theorem clean_words (chunk : List UInt64) {b : UInt8}
    (member : b ∈ ascii "addr2line" ++ (words path chunk).flatMap (32 :: ·)) :
    b ≠ 0 ∧ b ∉ special := by
  rcases List.mem_append.mp member with program | inside
  · have name : PlainWord (ascii "addr2line") := plainWord_of_all (by decide) (by decide)
    exact ⟨(name.2 b program).1, (name.2 b program).2.2⟩
  obtain ⟨word, there, inside⟩ := List.mem_flatMap.mp inside
  rcases List.mem_cons.mp inside with rfl | inside
  · decide
  · have clean := (plainWord_words plain there).2 b inside
    exact ⟨clean.1, clean.2.2⟩

theorem command_eq (chunk : List UInt64) :
    command path chunk =
      ascii "addr2line" ++ (words path chunk).flatMap (32 :: ·) ++ ascii " 2>/dev/null" := by
  have text : ascii "addr2line -e " ++ path ++ ascii " -f" ++
      chunk.flatMap (fun offset => 32 :: address offset) ++ ascii " 2>/dev/null" =
      ascii "addr2line" ++ (words path chunk).flatMap (32 :: ·) ++ ascii " 2>/dev/null" := by
    rw [words, List.flatMap_cons, List.flatMap_cons, List.flatMap_cons, List.flatMap_map]
    simp only [List.append_assoc]
    rfl
  rw [command, text, cString, List.takeWhile_eq_self_iff]
  intro b member
  rcases List.mem_append.mp member with front | redirection
  · exact decide_eq_true (clean_words plain chunk front).1
  · have clean : (ascii " 2>/dev/null").all (· ≠ 0) = true := by decide
    exact List.all_eq_true.mp clean b redirection

theorem arguments_command {chunk : List UInt64} (fits : (command path chunk).length < 131072) :
    arguments (command path chunk) = some (path, chunk.map address) := by
  have length : (command path chunk).length - 12 =
      (ascii "addr2line" ++ (words path chunk).flatMap (32 :: ·)).length := by
    rw [command_eq plain, List.length_append]
    exact Nat.add_sub_cancel _ 12
  have cut : lines 32 (ascii "addr2line" ++ (words path chunk).flatMap (32 :: ·)) =
      ascii "addr2line" :: words path chunk := by
    refine lines_cons_flatMap (by decide) (by decide) fun word member => ?_
    have clean := plainWord_words plain member
    exact ⟨fun space => (clean.2 32 space).2.1 rfl, clean.1⟩
  have nonempty : (ascii "addr2line" :: words path chunk).filter (· ≠ []) =
      ascii "addr2line" :: words path chunk := by
    rw [List.filter_eq_self]
    intro word member
    rcases List.mem_cons.mp member with rfl | member
    · decide
    · exact decide_eq_true (plainWord_words plain member).1
  have first : ∀ word ∈ chunk.map address, word.head? = some 48 := by
    intro word member
    obtain ⟨offset, -, rfl⟩ := List.mem_map.mp member
    rfl
  have addresses : (ascii "-f" :: chunk.map address).filter (· ≠ ascii "-f") =
      chunk.map address := by
    rw [List.filter_cons_of_neg (by decide), List.filter_eq_self]
    intro word member
    refine decide_eq_true fun same => ?_
    have digit := first word member
    rw [same] at digit
    exact absurd digit (by decide)
  unfold arguments
  dsimp only
  rw [length, command_eq plain, List.take_left, List.drop_left, cut, nonempty, words,
    if_pos ⟨command_eq plain chunk ▸ fits, rfl, List.all_eq_true.mpr fun b member =>
      decide_eq_true (clean_words plain chunk member).2⟩]
  dsimp only
  rw [addresses, if_pos]
  refine ⟨rfl, rfl, rfl, List.all_eq_true.mpr fun word member => ?_⟩
  rw [first word member]
  decide

variable (tool : Addr2line) (other : Popen) (start : Nat)

theorem popen_command {chunk : List UInt64} (fits : (command path chunk).length < 131072) :
    tool.popen other start (command path chunk) = some (tool.print path (chunk.map address)) := by
  rw [Addr2line.popen, arguments_command plain fits]

theorem command_alone {chunk : List UInt64} {offset : UInt64} (member : offset ∈ chunk) :
    (command path [offset]).length ≤ (command path chunk).length := by
  rw [command_eq plain, command_eq plain]
  have fewer : (words path [offset]).Sublist (words path chunk) :=
    ((((List.singleton_sublist.mpr member).map address).cons_cons _).cons_cons _).cons_cons _
  exact (((fewer.flatMap _).append_left _).append_right _).length_le

end shell

section reads
variable (tool : Addr2line) (path : Bytes)

def Addr2line.reads (front : List UInt64) : Nat :=
  (front.map fun offset => (tool.name path (address offset)).length / 511 +
    (tool.location path (address offset)).length / 511 + 2).sum

def Addr2line.Short (front : List UInt64) : Prop :=
  ∀ offset ∈ front, (tool.name path (address offset)).length < 511 ∧
    (tool.location path (address offset)).length < 511

theorem skip_add (k m : Nat) (pipe : Bytes) : skip (k + m) pipe = skip m (skip k pipe) := by
  rw [Nat.add_comm]
  exact Function.iterate_add_apply _ m k pipe

theorem skip_line {line : Bytes} (clean : newline ∉ line) (rest : Bytes) :
    skip (line.length / 511 + 1) (line ++ newline :: rest) = rest := by
  induction h : line.length / 511 generalizing line with
  | zero =>
    have fits : line.length < 511 := by omega
    exact congrArg Prod.snd (readLine_append clean fits rest)
  | succ k ih =>
    have long : 511 ≤ line.length := by omega
    have left : (line.drop 511).length / 511 = k := by
      rw [List.length_drop]
      omega
    have first : skip 1 (line ++ newline :: rest) = line.drop 511 ++ newline :: rest :=
      congrArg Prod.snd (readLine_of_le clean long (newline :: rest))
    rw [Nat.add_comm, skip_add, first]
    exact ih (fun member => clean (List.mem_of_mem_drop member)) left

theorem skip_print (front : List UInt64) (rest : Bytes) :
    skip (tool.reads path front) (tool.print path (front.map address) ++ rest) = rest := by
  induction front with
  | nil => rfl
  | cons offset front ih =>
    have split : tool.reads path (offset :: front) =
        (tool.name path (address offset)).length / 511 + 1 +
          ((tool.location path (address offset)).length / 511 + 1) + tool.reads path front := by
      rw [Addr2line.reads, List.map_cons, List.sum_cons, ← Addr2line.reads]
      omega
    rw [split, skip_add, skip_add, Addr2line.print, List.map_cons, List.flatMap_cons,
      ← Addr2line.print]
    simp only [List.append_assoc, List.cons_append, List.nil_append]
    rw [skip_line (tool.name_clean path _), skip_line (tool.location_clean path _), ih]

theorem le_reads (front : List UInt64) : 2 * front.length ≤ tool.reads path front := by
  induction front with
  | nil => exact Nat.le_refl 0
  | cons offset front ih =>
    rw [Addr2line.reads, List.map_cons, List.sum_cons, ← Addr2line.reads, List.length_cons]
    omega

theorem reads_eq_iff (front : List UInt64) :
    tool.reads path front = 2 * front.length ↔ tool.Short path front := by
  induction front with
  | nil => exact ⟨fun _ _ member => absurd member List.not_mem_nil, fun _ => rfl⟩
  | cons offset front ih =>
    have bound := le_reads tool path front
    rw [Addr2line.Short, List.forall_mem_cons, ← Addr2line.Short, ← ih, Addr2line.reads,
      List.map_cons, List.sum_cons, ← Addr2line.reads, List.length_cons]
    omega

theorem readLine_fst_append {line : Bytes} (clean : newline ∉ line) (rest : Bytes) :
    (readLine newline 511 (line ++ newline :: rest)).1 = (line ++ [newline]).take 511 := by
  by_cases fits : line.length < 511
  · rw [readLine_append clean fits, List.take_of_length_le]
    rw [List.length_append, List.length_singleton]
    omega
  · have long : 511 ≤ line.length := by omega
    rw [readLine_of_le clean long, List.take_append_of_le_length long]

theorem readAfter_reads (front back : List UInt64) (offset : UInt64) :
    readAfter (tool.reads path front) (tool.print path ((front ++ offset :: back).map address)) =
      (tool.name path (address offset) ++ [newline]).take 511 := by
  have split : tool.print path ((front ++ offset :: back).map address) =
      tool.print path (front.map address) ++ (tool.name path (address offset) ++ newline ::
        (tool.location path (address offset) ++ [newline] ++
          tool.print path (back.map address))) := by
    simp only [Addr2line.print, List.map_append, List.map_cons, List.flatMap_append,
      List.flatMap_cons, List.append_assoc, List.cons_append]
  rw [split, readAfter, skip_print, readLine_fst_append (tool.name_clean path _)]

/-- The buffer holds the name as it is. -/
def Kept (name : Bytes) : Prop := name.length ≤ 511 ∧ 0 ∉ name ∧ name.getLast? ≠ some 13

theorem stripLine_eq_iff {name : Bytes} (clean : newline ∉ name) :
    stripLine ((name ++ [newline]).take 511) = name ↔ Kept name := by
  constructor
  · intro same
    have part : name <+: cString ((name ++ [newline]).take 511) := by
      nth_rewrite 1 [← same]
      exact List.rdropWhile_prefix _ _
    refine ⟨?_, fun nul => ?_, fun ends => ?_⟩
    · have short := (part.trans (List.takeWhile_prefix _)).length_le
      exact short.trans (List.length_take_le 511 _)
    · exact absurd (List.mem_takeWhile_imp (part.subset nul)) (by decide)
    · obtain ⟨front, rfl⟩ := List.getLast?_eq_some_iff.mp ends
      have filled : stripLine ((front ++ [13] ++ [newline]).take 511) ≠ [] := by
        rw [same]
        exact List.append_ne_nil_of_right_ne_nil front (List.cons_ne_nil 13 [])
      refine List.rdropWhile_last_not _ _ filled ?_
      have last : (stripLine ((front ++ [13] ++ [newline]).take 511)).getLast filled = 13 := by
        simp only [same, List.getLast_append_singleton]
      exact (congrArg (fun b => decide (b = 10 ∨ b = 13)) last).trans (by decide)
  · rintro ⟨short, nul, ends⟩
    have whole : name.rdropWhile (fun b => b = 10 ∨ b = 13) = name := by
      refine List.rdropWhile_eq_self_iff.mpr fun filled last => ?_
      rcases of_decide_eq_true last with feed | back
      · have member := List.getLast_mem filled
        rw [feed] at member
        exact clean member
      · exact ends (back ▸ List.getLast?_eq_some_getLast filled)
    have kept : ∀ b ∈ name ++ [newline], decide (b ≠ 0) = true := by
      intro b member
      rcases List.mem_append.mp member with inside | feed
      · exact decide_eq_true fun zero => nul (zero ▸ inside)
      · rw [List.mem_singleton.mp feed]
        decide
    rw [stripLine, cString, List.takeWhile_eq_self_iff.mpr fun b member =>
      kept b (List.mem_of_mem_take member)]
    rcases Nat.lt_or_eq_of_le short with fits | full
    · rw [List.take_of_length_le, List.rdropWhile_concat_pos _ _ _ (by decide), whole]
      rw [List.length_append, List.length_singleton]
      omega
    · rw [← full, List.take_left, whole]

end reads

section batch
variable (tool : Addr2line) (other : Popen) (toResolve : List (Bytes × UInt64))
variable (pair : Bytes × UInt64)

def Addr2line.symbol : Bytes := nameOr pair.1 pair.2 (tool.name pair.1 (address pair.2))

/-- The batch gives a pair what the invocation for it alone gives. -/
def Agrees : Prop :=
  (batchResolveUserSymbols (tool.popen other) toResolve).lookup pair =
    (batchResolveUserSymbols (tool.popen other) [pair]).lookup pair

/-- The path is a single word of a command that is not too long, and the lines of the addresses
before place `i` of the chunk fit into the buffer with their ends. -/
structure InStep (chunk : List UInt64) (i : Nat) : Prop where
  plain : PlainWord pair.1
  fits : (command pair.1 chunk).length < 131072
  earlier : tool.Short pair.1 (chunk.take i)

/-- No read of the output but the one in which the name comes could be taken for it. -/
structure Telling (chunk : List UInt64) (i : Nat) : Prop where
  plain : PlainWord pair.1
  fits : (command pair.1 chunk).length < 131072
  tells : ∀ k ≠ tool.reads pair.1 (chunk.take i), nameOr pair.1 pair.2
    (stripLine (readAfter k (tool.print pair.1 (chunk.map address)))) ≠ tool.symbol pair

variable {tool other toResolve pair} {chunk offsets : List UInt64} {i n : Nat}

theorem InStep.alone (inStep : InStep tool pair chunk i) (member : pair.2 ∈ chunk) :
    InStep tool pair [pair.2] 0 where
  plain := inStep.plain
  fits := (command_alone inStep.plain member).trans_lt inStep.fits
  earlier _ inside := absurd inside List.not_mem_nil

theorem InStep.answerOf (inStep : InStep tool pair chunk i) (here : chunk[i]? = some pair.2)
    (start : Nat) :
    answerOf pair.1 i pair.2 (tool.popen other start (command pair.1 chunk)) =
      nameOr pair.1 pair.2
        (stripLine ((tool.name pair.1 (address pair.2) ++ [newline]).take 511)) := by
  obtain ⟨bound, -⟩ := List.getElem?_eq_some_iff.mp here
  have place : tool.reads pair.1 (chunk.take i) = 2 * i := by
    rw [(reads_eq_iff tool pair.1 _).mpr inStep.earlier, List.length_take, Nat.min_eq_left bound.le]
  have read := readAfter_reads tool pair.1 (chunk.take i) (chunk.drop (i + 1)) pair.2
  rw [split_at here, place] at read
  rw [popen_command inStep.plain tool other start inStep.fits, UserSymbols.answerOf, read]

theorem InStep.answer (inStep : InStep tool pair (chunkOf offsets n) (n % 512))
    (here : offsets[n]? = some pair.2) :
    answer (tool.popen other) pair.1 offsets n pair.2 =
      answer (tool.popen other) pair.1 [pair.2] 0 pair.2 := by
  have inside := chunkOf_getElem here
  have alone := inStep.alone (List.mem_of_getElem? inside)
  exact (inStep.answerOf inside _).trans (alone.answerOf rfl 0).symm

theorem InStep.symbol (inStep : InStep tool pair (chunkOf offsets n) (n % 512))
    (here : offsets[n]? = some pair.2) (kept : Kept (tool.name pair.1 (address pair.2))) :
    UserSymbols.answer (tool.popen other) pair.1 offsets n pair.2 = tool.symbol pair := by
  refine (inStep.answerOf (chunkOf_getElem here) _).trans ?_
  rw [(stripLine_eq_iff (tool.name_clean _ _)).mpr kept]
  rfl

theorem nameOr_eq_or (path : Bytes) (offset : UInt64) (name : Bytes) :
    nameOr path offset name = name ∨ nameOr path offset name = fallbackName path offset := by
  unfold nameOr
  split_ifs
  · exact .inl rfl
  · exact .inr rfl

theorem readAfter_end (front : List UInt64) (path : Bytes) :
    readAfter (tool.reads path front) (tool.print path (front.map address)) = [] := by
  have rest := skip_print tool path front []
  rw [List.append_nil] at rest
  rw [readAfter, rest]
  rfl

theorem Telling.symbol_ne (telling : Telling tool pair chunk i) (here : chunk[i]? = some pair.2) :
    tool.symbol pair ≠ fallbackName pair.1 pair.2 := by
  have later : tool.reads pair.1 chunk ≠ tool.reads pair.1 (chunk.take i) := by
    nth_rewrite 1 [← split_at here]
    rw [Addr2line.reads, List.map_append, List.sum_append, ← Addr2line.reads, List.map_cons,
      List.sum_cons]
    omega
  have wrong := telling.tells _ later
  rw [readAfter_end] at wrong
  exact Ne.symm wrong

theorem Telling.inStep (telling : Telling tool pair chunk i) (here : chunk[i]? = some pair.2)
    (start : Nat) (right : answerOf pair.1 i pair.2
      (tool.popen other start (command pair.1 chunk)) = tool.symbol pair) :
    InStep tool pair chunk i ∧ Kept (tool.name pair.1 (address pair.2)) := by
  obtain ⟨bound, -⟩ := List.getElem?_eq_some_iff.mp here
  rw [popen_command telling.plain tool other start telling.fits] at right
  have place : 2 * i = tool.reads pair.1 (chunk.take i) := by
    by_contra moved
    exact telling.tells _ moved right
  have read := readAfter_reads tool pair.1 (chunk.take i) (chunk.drop (i + 1)) pair.2
  rw [split_at here, ← place] at read
  rw [answerOf, read] at right
  constructor
  · refine ⟨telling.plain, telling.fits, ?_⟩
    rw [← reads_eq_iff, ← place, List.length_take, Nat.min_eq_left bound.le]
  · refine (stripLine_eq_iff (tool.name_clean _ _)).mp ?_
    have shown := (nameOr_eq_or pair.1 pair.2 (stripLine _)).resolve_right
      (right.trans_ne (telling.symbol_ne here))
    have named := (nameOr_eq_or pair.1 pair.2 (tool.name pair.1 (address pair.2))).resolve_right
      (telling.symbol_ne here)
    exact shown.symm.trans (right.trans named)

end batch

/-- Every address has a function of its own, and all lines are short. -/
def ownNames : Addr2line where
  name _ word := word.filter (· ≠ newline)
  location _ _ := [63]
  name_clean _ word := by simp
  location_clean _ _ := by decide

/-- Of `/a b`, `addr2line` takes `b` for a first address: its name is read as that of address
1, and the name of address 1 as that of address 2. -/
theorem spacedPath_shifts :
    ¬ Agrees ownNames (fun _ _ => none) [(ascii "/a b", 1), (ascii "/a b", 2)]
      (ascii "/a b", 2) := by
  unfold Agrees
  decide +kernel

end DropPlatform.UserSymbols
