import DropPlatform.KeywordTables
import DropPlatform.NlIntent
import DropPlatform.Patterns
import DropPlatform.PythonText

/-! `nl_parser.py`: what it reads out of a message with regular expressions and keywords. A time
is the number of microseconds since the first day of the year 1, the earliest `datetime`. Where
an exception ends the script there is no result. -/

namespace DropPlatform.NlParser
open Patterns Patterns.Pattern KeywordTables PythonText NlIntent

abbrev Message := List Char

section expressions

def isDecimal (c : Char) : Bool := (decimal c).isSome

def spaceOr (letters : List Char) (c : Char) : Bool := isSpace c || letters.contains c

def letters (text : Message) : List (Char → Bool) := text.map fun a b => a = b

def pidLetters : List (Char → Bool) := [['P', 'p'].contains, ['I', 'i'].contains, ['D', 'd'].contains]

def pidPatterns : List (Pattern Char) :=
  [labelled pidLetters (spaceOr ['是', '为', '：', ':']) 1 isDecimal,
   labelled (letters ['进', '程']) (spaceOr ['号', '为', '：', ':']) 0 isDecimal,
   labelled pidLetters isSpace 1 isDecimal,
   labelled (letters ['目', '标']) (spaceOr ['是', '为', '：', ':']) 1 isDecimal]

def oneOf (first : Message) (others : List Message) : Pattern Char :=
  others.foldl (fun p text => .alt p (literal text)) (literal first)

def seconds : Pattern Char :=
  .seq (.group (.many isDecimal 1 none)) (.seq (.many isSpace 0 none) (literal ['秒']))

def durationPatterns : List (Pattern Char) :=
  [.seq (oneOf ['采', '集'] [['采', '样'], ['持', '续'], ['时', '长']])
    (.seq (.many (spaceOr ['为', '约', '：', ':']) 0 none) seconds),
   seconds]

def octet : Pattern Char := .many isDecimal 1 (some 3)

def address : Pattern Char :=
  .seq octet (.seq (literal ['.']) (.seq octet (.seq (literal ['.']) (.seq octet
    (.seq (literal ['.']) octet)))))

/-- `(?:过去|最近)\s*一?(\d*)\s*(分钟|小时|天)`. -/
def relativeTime : Pattern Char :=
  .seq (oneOf ['过', '去'] [['最', '近']]) (.seq (.many isSpace 0 none)
    (.seq (.many (· = '一') 0 (some 1)) (.seq (.group (.many isDecimal 0 none))
      (.seq (.many isSpace 0 none) (.group (oneOf ['分', '钟'] [['小', '时'], ['天']]))))))

/-- `上一?个?小时`. -/
def lastHour : Pattern Char :=
  .seq (literal ['上']) (.seq (.many (· = '一') 0 (some 1)) (.seq (.many (· = '个') 0 (some 1))
    (literal ['小', '时'])))

end expressions

/-- `int(m.group(1))`. -/
def intGroup (groups : List Message) : Option Nat := (int (groups.headD [])).map Int.toNat

def extractNumber (patterns : List (Pattern Char)) (text : Message) : Option (Option Nat) :=
  match patterns.findSome? (·.search text) with
  | none => some none
  | some groups => (intGroup groups).map some

def extractPid (text : Message) : Option (Option Nat) := extractNumber pidPatterns text

def extractDuration (text : Message) : Option Nat :=
  (extractNumber durationPatterns text).map (·.getD 10)

/-- `str.lower`, as far as it can produce a letter of the keywords. -/
def lower (text : Message) : Message :=
  text.flatMap fun c => if c = 'İ' then ['i', '̇'] else [c.toLower]

def profilerKeywords : Table Char (Fin 4) :=
  [([['c', 'p', 'u'], ['c', 'p', 'u', '采', '样'], ['p', 'e', 'r', 'f'],
      ['c', 'p', 'u', '飙', '高'], ['c', 'p', 'u', '高'], ['c', 'p', 'u', '占', '用'],
      ['占', '用', 'c', 'p', 'u'], ['c', 'p', 'u', '利', '用', '率']], 0),
   ([['j', 'a', 'v', 'a'], ['j', 'v', 'm'],
      ['a', 's', 'y', 'n', 'c', '-', 'p', 'r', 'o', 'f', 'i', 'l', 'e', 'r'],
      ['j', 'a', 'v', 'a', '采', '样'], ['j', 'a', 'v', 'a', '热', '点']], 1),
   ([['g', 'o'], ['p', 'p', 'r', 'o', 'f'], ['g', 'o', 'l', 'a', 'n', 'g']], 2),
   ([['e', 'b', 'p', 'f'], ['o', 'f', 'f', '-', 'c', 'p', 'u'], ['o', 'f', 'f', 'c', 'p', 'u'],
      ['i', 'o'], ['阻', '塞'], ['卡', '顿'], ['延', '迟'], ['i', 'o', '等', '待'],
      ['调', '度']], 3)]

def extractProfilerType (text : Message) : Option (Fin 4) :=
  classify profilerKeywords (lower text)

def minute : Nat := 60 * 10 ^ 6
def hour : Nat := 60 * minute
def day : Nat := 24 * hour

/-- `now - timedelta(...)`: an `OverflowError` if the difference has too many days or the result
is before the year 1. -/
def before (now delta : Nat) : Option Nat :=
  if delta / day ≤ 999999999 ∧ delta ≤ now then some (now - delta) else none

structure TimeRange where
  start : Nat
  stop : Nat
deriving DecidableEq, Repr

def unitLength (unit : Message) : Nat :=
  if unit = ['分', '钟'] then minute else if unit = ['小', '时'] then hour else day

def extractTimeRange (now : Nat) (text : Message) : Option (Option TimeRange) :=
  let since (delta : Nat) := (before now delta).map fun start => some ⟨start, now⟩
  match relativeTime.search text with
  | some [value, unit] =>
    if value = [] then since (unitLength unit)
    else (intGroup [value]).bind fun value => since (value * unitLength unit)
  | _ =>
    if (lastHour.search text).isSome then since hour
    else if ['今', '天'] <:+: text then some (some ⟨now - now % day, now⟩)
    else some none

def extractTargetIp (text : Message) : Option Message :=
  (Pattern.search (.group address) text).bind List.head?

/-- An entry of the list of agents; every entry that `NLChat` sends has its address. -/
structure AgentEntry where
  ipAddr : Option Message
deriving DecidableEq, Repr

def localhost : Message := ['1', '2', '7', '.', '0', '.', '0', '.', '1']

def parseIntent (now : Nat) (text : Message) (agents : List AgentEntry) : Option ParserAnswer := do
  let pid ← extractPid text
  let duration ← extractDuration text
  let _ ← extractTimeRange now text
  let targetIp := match extractTargetIp text, agents with
    | some ip, _ => some ip
    | none, [] => none
    | none, first :: _ => some (first.ipAddr.getD localhost)
  some ⟨pid.getD 0, (extractProfilerType text).getD 0, duration, targetIp, text⟩

section numbers

theorem isDecimal_of_isSpace {c : Char} (space : isSpace c) : isDecimal c = false := by
  rw [isDecimal, decimal_of_isSpace space]
  rfl

theorem isDecimal_of_spaceOr {c : Char} {extra : List Char}
    (plain : extra.all fun d => !isDecimal d) (accepted : spaceOr extra c) :
    isDecimal c = false := by
  rcases Bool.or_eq_true_iff.mp accepted with space | listed
  · exact isDecimal_of_isSpace space
  · simpa using List.all_eq_true.mp plain c (List.contains_iff_mem.mp listed)

/-- Its one group holds the digits that the pattern is about. -/
def countsDigits (p : Pattern Char) : Prop :=
  p.plain = true ∧ ∃ least, p.bodies = [.many isDecimal (least + 1) none]

theorem intGroup_of_search {p : Pattern Char} (counts : countsDigits p) {text : Message}
    {groups : List Message} (found : p.search text = some groups)
    (short : text.length ≤ intMaxStrDigits) : (intGroup groups).isSome := by
  obtain ⟨plain, least, bodies⟩ := counts
  have captured := captured_of_search plain found
  rw [bodies] at captured
  cases captured with
  | @cons w _ groups _ matched none =>
    cases none
    obtain ⟨all, enough, _⟩ := mem_language_many.mp matched.1
    have filled : w ≠ [] := List.ne_nil_of_length_pos (by omega)
    rw [intGroup, Option.isSome_map]
    have read := int_of_decimals all filled (matched.2.length_le.trans short)
    exact Option.isSome_of_eq_some read

theorem extractNumber_isSome {patterns : List (Pattern Char)}
    (count : ∀ p ∈ patterns, countsDigits p) {text : Message}
    (short : text.length ≤ intMaxStrDigits) : (extractNumber patterns text).isSome := by
  rw [extractNumber]
  cases found : patterns.findSome? (·.search text) with
  | none => rfl
  | some groups =>
    obtain ⟨p, member, here⟩ := List.exists_of_findSome?_eq_some found
    simpa using intGroup_of_search (count p member) here short

end numbers

section pid

/-- The digits behind a word, read from left to right. -/
def scan (word : List (Char → Bool)) (separator : Char → Bool) (least : Nat) (text : Message) :
    Option (List Message) :=
  text.tails.findSome? (labelledAt word separator least isDecimal)

def scanPid (text : Message) : Option (List Message) :=
  ((scan pidLetters (spaceOr ['是', '为', '：', ':']) 1 text).or
    (scan (letters ['进', '程']) (spaceOr ['号', '为', '：', ':']) 0 text)).or
    (scan (letters ['目', '标']) (spaceOr ['是', '为', '：', ':']) 1 text)

theorem search_labelled_eq_scan {extra : List Char} (plain : extra.all fun d => !isDecimal d)
    (word : List (Char → Bool)) (least : Nat) (text : Message) :
    (labelled word (spaceOr extra) least isDecimal).search text =
      scan word (spaceOr extra) least text :=
  search_labelled (fun _ accepted => isDecimal_of_spaceOr plain accepted) word least

theorem third_pattern_shadowed (extra : List Char) {text : Message}
    (absent : (labelled pidLetters (spaceOr extra) 1 isDecimal).search text = none) :
    (labelled pidLetters isSpace 1 isDecimal).search text = none := by
  rw [← Option.not_isSome_iff_eq_none, search_isSome_iff] at absent ⊢
  rintro ⟨w, matched, within⟩
  exact absent ⟨w, language_labelled_mono (fun c space => by simp [spaceOr, space]) matched, within⟩

theorem findSome_pidPatterns (text : Message) :
    pidPatterns.findSome? (·.search text) = scanPid text := by
  have plain : ['是', '为', '：', ':'].all (fun d => !isDecimal d) = true := by decide
  have plain' : ['号', '为', '：', ':'].all (fun d => !isDecimal d) = true := by decide
  simp only [pidPatterns, scanPid, List.findSome?_cons, List.findSome?_nil,
    search_labelled_eq_scan plain, search_labelled_eq_scan plain']
  cases first : scan pidLetters (spaceOr ['是', '为', '：', ':']) 1 text with
  | some groups => rfl
  | none =>
    cases second : scan (letters ['进', '程']) (spaceOr ['号', '为', '：', ':']) 0 text with
    | some groups => rfl
    | none =>
      rw [← search_labelled_eq_scan plain] at first
      rw [third_pattern_shadowed ['是', '为', '：', ':'] first]
      cases scan (letters ['目', '标']) (spaceOr ['是', '为', '：', ':']) 1 text <;> rfl

/-- The four expressions find what a scan finds that never goes back, and the third of them
makes no difference. -/
theorem extractPid_eq_scan (text : Message) : extractPid text =
    match scanPid text with
    | none => some none
    | some groups => (intGroup groups).map some := by
  rw [extractPid, extractNumber, findSome_pidPatterns]

end pid

section profilerType

def effectiveKeywords : Table Char (Fin 4) :=
  [([['c', 'p', 'u'], ['p', 'e', 'r', 'f']], 0),
   ([['j', 'a', 'v', 'a'], ['j', 'v', 'm'],
      ['a', 's', 'y', 'n', 'c', '-', 'p', 'r', 'o', 'f', 'i', 'l', 'e', 'r']], 1),
   ([['g', 'o'], ['p', 'p', 'r', 'o', 'f']], 2),
   ([['e', 'b', 'p', 'f'], ['i', 'o'], ['阻', '塞'], ['卡', '顿'], ['延', '迟'], ['调', '度']], 3)]

theorem prune_profilerKeywords : prune [] profilerKeywords = effectiveKeywords := by decide +kernel

/-- Half of the keywords decide nothing: each contains one that is looked for before it. -/
theorem extractProfilerType_eq_effective (text : Message) :
    extractProfilerType text = classify effectiveKeywords (lower text) := by
  rw [extractProfilerType, ← prune_profilerKeywords, classify_prune]

theorem extractProfilerType_of_cpu {text : Message} (within : ['c', 'p', 'u'] <:+: lower text) :
    extractProfilerType text = some 0 :=
  classify_of_hit (hit_iff.mpr ⟨['c', 'p', 'u'], List.mem_cons_self, within⟩)

def offCpu : Message := ['o', 'f', 'f', '-', 'c', 'p', 'u']

theorem infix_of_contains {text pattern : Message} (found : contains text pattern) :
    pattern <:+: text := by
  induction text with
  | nil =>
    have empty : pattern = [] := by simpa [contains, index] using found
    rw [empty]
  | cons c rest ih =>
    by_cases front : pattern.isPrefixOf (c :: rest)
    · exact (List.isPrefixOf_iff_prefix.mp front).isInfix
    · refine (ih ?_).trans (List.suffix_cons c rest).isInfix
      simpa [contains, index, front] using found

theorem lower_append (a b : Message) : lower (a ++ b) = lower a ++ lower b := List.flatMap_append

theorem lower_eq_map {text : Message} (plain : 'i' ∉ text.map toLower) :
    lower text = text.map toLower := by
  induction text with
  | nil => rfl
  | cons c rest ih =>
    rw [List.map_cons, List.mem_cons, not_or] at plain
    have other : c ≠ 'İ' := by
      rintro rfl
      exact plain.1 rfl
    rw [← List.singleton_append, lower_append, ih plain.2, List.map_append]
    simp [lower, toLower, other]

/-- A message about off-CPU time: the script takes it for one about the CPU, since `cpu` is
looked for first; the fallback in Go does not. -/
theorem offCpu_parsers_disagree {text : Message} (about : contains (text.map toLower) offCpu) :
    extractProfilerType text = some 0 ∧ fallbackProfilerType text = 3 := by
  constructor
  · obtain ⟨b, ⟨a, c, rfl⟩, middle⟩ := List.infix_map_iff.mp (infix_of_contains about)
    have lowered : lower b = offCpu := by
      rw [lower_eq_map (by rw [← middle]; decide), ← middle]
    refine extractProfilerType_of_cpu ?_
    rw [lower_append, lower_append, lowered]
    exact ⟨lower a ++ ['o', 'f', 'f', '-'], lower c, by simp [offCpu]⟩
  · have keyword : ebpfKeywords.any (contains (text.map toLower)) :=
      List.any_eq_true.mpr ⟨offCpu, by simp [ebpfKeywords, offCpu], about⟩
    rw [fallbackProfilerType, if_pos keyword]

theorem offCpu_parsers_disagree_blocked :
    contains (['O', 'f', 'f', '-', 'C', 'P', 'U', '阻', '塞'].map toLower) offCpu ∧
      extractProfilerType ['O', 'f', 'f', '-', 'C', 'P', 'U', '阻', '塞'] = some 0 := by
  have about : contains (['O', 'f', 'f', '-', 'C', 'P', 'U', '阻', '塞'].map toLower) offCpu := rfl
  exact ⟨about, (offCpu_parsers_disagree about).1⟩

end profilerType

section targetIp

def IsOctet (digits : Message) : Prop :=
  (∀ c ∈ digits, isDecimal c) ∧ 1 ≤ digits.length ∧ digits.length ≤ 3

/-- Four numbers with points between them; they need not be below 256. -/
def IsAddress (ip : Message) : Prop :=
  ∃ a b c d, IsOctet a ∧ IsOctet b ∧ IsOctet c ∧ IsOctet d ∧
    ip = a ++ '.' :: (b ++ '.' :: (c ++ '.' :: d))

theorem mem_language_octet {w : Message} : w ∈ octet.language ↔ IsOctet w := by
  rw [octet, mem_language_many, IsOctet]
  simp

theorem mem_language_octet_point {p : Pattern Char} {w : Message} :
    w ∈ (Pattern.seq octet (.seq (literal ['.']) p)).language ↔
      ∃ a, IsOctet a ∧ ∃ rest ∈ p.language, w = a ++ '.' :: rest := by
  simp only [mem_language_seq, mem_language_literal, mem_language_octet]
  constructor
  · rintro ⟨a, first, _, ⟨_, rfl, rest, last, rfl⟩, rfl⟩
    exact ⟨a, first, rest, last, rfl⟩
  · rintro ⟨a, first, rest, last, rfl⟩
    exact ⟨a, first, '.' :: rest, ⟨['.'], rfl, rest, last, rfl⟩, rfl⟩

theorem mem_language_address {w : Message} : w ∈ address.language ↔ IsAddress w := by
  simp only [address, mem_language_octet_point, mem_language_octet, IsAddress]
  constructor
  · rintro ⟨a, first, _, ⟨b, second, _, ⟨c, third, d, fourth, rfl⟩, rfl⟩, rfl⟩
    exact ⟨a, b, c, d, first, second, third, fourth, rfl⟩
  · rintro ⟨a, b, c, d, first, second, third, fourth, rfl⟩
    exact ⟨a, first, _, ⟨b, second, _, ⟨c, third, d, fourth, rfl⟩, rfl⟩, rfl⟩

theorem extractTargetIp_some {text ip : Message} (found : extractTargetIp text = some ip) :
    IsAddress ip ∧ ip <:+: text := by
  obtain ⟨captured, searched, first⟩ := Option.bind_eq_some_iff.mp found
  cases captured_of_search rfl searched with
  | cons matched _ =>
    obtain rfl := Option.some.inj first
    exact ⟨mem_language_address.mp matched.1, matched.2⟩

end targetIp

end DropPlatform.NlParser
