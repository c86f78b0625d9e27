import DropPlatform.HprofParser

/-! The HPROF 1.0.2 format: dumps as data, the bytes they are written as, and what a
reader should find in them. Numbers carry their width and records their length bound, so
only dumps that can be written exist. -/

namespace DropPlatform.HprofFormat
open ByteReaders HprofParser

inductive IdSize
  | four
  | eight
deriving DecidableEq, Repr

def IdSize.bytes : IdSize → Nat
  | .four => 4
  | .eight => 8

theorem IdSize.bytes_cases (idSize : IdSize) : idSize.bytes = 4 ∨ idSize.bytes = 8 := by
  cases idSize
  · exact .inl rfl
  · exact .inr rfl

abbrev Word (width : Nat) := Fin (256 ^ width)

def word {width : Nat} (n : Word width) : Bytes := encode width n

@[simp] theorem length_word {width : Nat} (n : Word width) : (word n).length = width :=
  length_encode width n

@[simp] theorem bigEndian_word {width : Nat} (n : Word width) : bigEndian (word n) = n :=
  bigEndian_encode n.isLt

theorem exists_word {width : Nat} {bytes : Bytes} (size : bytes.length = width) :
    ∃ n : Word width, word n = bytes := by
  subst size
  exact ⟨⟨bigEndian bytes, bigEndian_lt bytes⟩, encode_bigEndian bytes⟩

theorem exists_word_append {width more : Nat} {bytes : Bytes}
    (size : bytes.length = width + more) :
    ∃ (n : Word width) (rest : Bytes), bytes = word n ++ rest ∧ rest.length = more := by
  have front : (bytes.take width).length = width := by
    rw [List.length_take]
    omega
  obtain ⟨n, found⟩ := exists_word front
  refine ⟨n, bytes.drop width, ?_, ?_⟩
  · rw [found, List.take_append_drop]
  · rw [List.length_drop]
    omega

theorem exists_twoWords {i j : Nat} {bytes : Bytes} (size : bytes.length = i + j) :
    ∃ (n : Word i) (m : Word j), bytes = word n ++ word m := by
  obtain ⟨n, rest, rfl, left⟩ := exists_word_append size
  obtain ⟨m, rfl⟩ := exists_word left
  exact ⟨n, m, rfl⟩

theorem exists_threeWords_append {i j k more : Nat} {bytes : Bytes}
    (size : bytes.length = i + j + k + more) :
    ∃ (n : Word i) (m : Word j) (l : Word k) (rest : Bytes),
      bytes = word n ++ word m ++ word l ++ rest ∧ rest.length = more := by
  rw [Nat.add_assoc, Nat.add_assoc] at size
  obtain ⟨n, behind, rfl, left⟩ := exists_word_append size
  obtain ⟨m, behind', rfl, left'⟩ := exists_word_append left
  obtain ⟨l, rest, rfl, last⟩ := exists_word_append left'
  exact ⟨n, m, l, rest, by simp only [List.append_assoc], last⟩

theorem exists_words {width count : Nat} {bytes : Bytes} (size : bytes.length = count * width) :
    ∃ elements : List (Word width), elements.length = count ∧ elements.flatMap word = bytes := by
  induction count generalizing bytes with
  | zero =>
    rw [Nat.zero_mul] at size
    exact ⟨[], rfl, (List.eq_nil_of_length_eq_zero size).symm⟩
  | succ count ih =>
    rw [Nat.succ_mul, Nat.add_comm] at size
    obtain ⟨n, rest, rfl, left⟩ := exists_word_append size
    obtain ⟨elements, length, rfl⟩ := ih left
    exact ⟨n :: elements, congrArg (· + 1) length, List.flatMap_cons⟩

inductive PrimType
  | boolean
  | char
  | float
  | double
  | byte
  | short
  | int
  | long
deriving DecidableEq, Repr

def PrimType.code : PrimType → UInt8
  | .boolean => 4
  | .char => 5
  | .float => 6
  | .double => 7
  | .byte => 8
  | .short => 9
  | .int => 10
  | .long => 11

def PrimType.size : PrimType → Nat
  | .boolean | .byte => 1
  | .char | .short => 2
  | .float | .int => 4
  | .double | .long => 8

theorem primTypeSize_code (type : PrimType) : primTypeSize type.code = type.size := by
  cases type <;> rfl

theorem primTypeSize_unknown {code : UInt8} (unknown : ∀ type : PrimType, type.code ≠ code) :
    primTypeSize code = 1 := by
  unfold primTypeSize
  split_ifs with boolean char float double byte short int long
  · rfl
  · exact absurd char.symm (unknown .char)
  · exact absurd float.symm (unknown .float)
  · exact absurd double.symm (unknown .double)
  · rfl
  · exact absurd short.symm (unknown .short)
  · exact absurd int.symm (unknown .int)
  · exact absurd long.symm (unknown .long)
  · rfl

theorem PrimType.size_bounds (type : PrimType) : 1 ≤ type.size ∧ type.size ≤ 8 := by
  cases type <;> decide

inductive BasicType
  | object
  | prim (type : PrimType)
deriving DecidableEq, Repr

def BasicType.code : BasicType → UInt8
  | .object => 2
  | .prim type => type.code

def BasicType.size (idSize : Nat) : BasicType → Nat
  | .object => idSize
  | .prim type => type.size

structure Value (idSize : Nat) where
  type : BasicType
  payload : Bytes
  sized : payload.length = type.size idSize

def Value.encode {idSize : Nat} (value : Value idSize) : Bytes := value.type.code :: value.payload

section subRecords
variable {idSize : Nat}

inductive Root (idSize : Nat)
  | unknown (id : Word idSize)
  | jniGlobal (id ref : Word idSize)
  | jniLocal (id : Word idSize) (thread frame : Word 4)
  | javaFrame (id : Word idSize) (thread frame : Word 4)
  | nativeStack (id : Word idSize) (thread : Word 4)
  | stickyClass (id : Word idSize)
  | threadBlock (id : Word idSize) (thread : Word 4)
  | monitorUsed (id : Word idSize)
  | threadObj (id : Word idSize) (thread stack : Word 4)

def Root.tag : Root idSize → UInt8
  | .unknown _ => subRootUnknown
  | .jniGlobal _ _ => subRootJniGlobal
  | .jniLocal _ _ _ => subRootJniLocal
  | .javaFrame _ _ _ => subRootJavaFrame
  | .nativeStack _ _ => subRootNativeStack
  | .stickyClass _ => subRootStickyClass
  | .threadBlock _ _ => subRootThreadBlock
  | .monitorUsed _ => subRootMonitorUsed
  | .threadObj _ _ _ => subRootThreadObj

def Root.body : Root idSize → Bytes
  | .unknown id | .stickyClass id | .monitorUsed id => word id
  | .jniGlobal id ref => word id ++ word ref
  | .jniLocal id thread frame | .javaFrame id thread frame => word id ++ word thread ++ word frame
  | .nativeStack id thread | .threadBlock id thread => word id ++ word thread
  | .threadObj id thread stack => word id ++ word thread ++ word stack

structure ClassDump (idSize : Nat) where
  classId : Word idSize
  stack : Word 4
  superId : Word idSize
  loaderId : Word idSize
  signersId : Word idSize
  domainId : Word idSize
  reserved : Word idSize × Word idSize
  instanceSize : Word 4
  pool : List (Word 2 × Value idSize)
  statics : List (Word idSize × Value idSize)
  fields : List (Word idSize × BasicType)
  poolCounted : pool.length < 256 ^ 2
  staticsCounted : statics.length < 256 ^ 2
  fieldsCounted : fields.length < 256 ^ 2

/-- The constant pool, the statics and the instance fields, each after its count. -/
def ClassDump.tables (dump : ClassDump idSize) : Bytes :=
  encode 2 dump.pool.length ++ dump.pool.flatMap (fun entry => word entry.1 ++ entry.2.encode) ++
  encode 2 dump.statics.length ++
    dump.statics.flatMap (fun entry => word entry.1 ++ entry.2.encode) ++
  encode 2 dump.fields.length ++ dump.fields.flatMap (fun entry => word entry.1 ++ [entry.2.code])

def ClassDump.body (dump : ClassDump idSize) : Bytes :=
  word dump.classId ++ word dump.stack ++ word dump.superId ++ word dump.loaderId ++
    word dump.signersId ++ word dump.domainId ++ word dump.reserved.1 ++ word dump.reserved.2 ++
    word dump.instanceSize ++ dump.tables

inductive ObjectDump (idSize : Nat)
  | instanceDump (id : Word idSize) (stack : Word 4) (classId : Word idSize) (fields : Bytes)
  | objArrayDump (id : Word idSize) (stack : Word 4) (classId : Word idSize)
      (elements : List (Word idSize))
  | primArrayDump (id : Word idSize) (stack : Word 4) (type : PrimType) (count : Nat)
      (elements : Bytes) (sized : elements.length = count * type.size)

def ObjectDump.tag : ObjectDump idSize → UInt8
  | .instanceDump _ _ _ _ => subInstanceDump
  | .objArrayDump _ _ _ _ => subObjArrayDump
  | .primArrayDump _ _ _ _ _ _ => subPrimArrayDump

def ObjectDump.payload : ObjectDump idSize → Bytes
  | .instanceDump _ _ _ fields => fields
  | .objArrayDump _ _ _ elements => elements.flatMap word
  | .primArrayDump _ _ _ _ elements _ => elements

def ObjectDump.count : ObjectDump idSize → Nat
  | .instanceDump _ _ _ fields => fields.length
  | .objArrayDump _ _ _ elements => elements.length
  | .primArrayDump _ _ _ count _ _ => count

def ObjectDump.header : ObjectDump idSize → Bytes
  | .instanceDump id stack classId fields =>
    word id ++ word stack ++ word classId ++ encode 4 fields.length
  | .objArrayDump id stack classId elements =>
    word id ++ word stack ++ encode 4 elements.length ++ word classId
  | .primArrayDump id stack type count _ _ =>
    word id ++ word stack ++ encode 4 count ++ [type.code]

def ObjectDump.body (dump : ObjectDump idSize) : Bytes := dump.header ++ dump.payload

def ObjectDump.encode (dump : ObjectDump idSize) : Bytes := dump.tag :: dump.body

inductive SubRecord (idSize : Nat)
  | gcRoot (root : Root idSize)
  | classDump (dump : ClassDump idSize)
  | object (dump : ObjectDump idSize)

def SubRecord.tag : SubRecord idSize → UInt8
  | .gcRoot root => root.tag
  | .classDump _ => subClassDump
  | .object dump => dump.tag

def SubRecord.body : SubRecord idSize → Bytes
  | .gcRoot root => root.body
  | .classDump dump => dump.body
  | .object dump => dump.body

def SubRecord.encode (sub : SubRecord idSize) : Bytes := sub.tag :: sub.body

end subRecords

/-- An object as a reader should report it; primitive arrays have class id 0. -/
structure Finding where
  id : Nat
  classId : Nat
  size : Nat
  type : ObjectType
deriving DecidableEq, Repr

def ObjectDump.finding {idSize : Nat} (dump : ObjectDump idSize) : Finding :=
  let size := dump.payload.length
  match dump with
  | .instanceDump id _ classId _ => ⟨id, classId, size, .ofInstance⟩
  | .objArrayDump id _ classId _ => ⟨id, classId, size, .objarray⟩
  | .primArrayDump id _ _ _ _ _ => ⟨id, 0, size, .primarray⟩

def SubRecord.findings {idSize : Nat} : SubRecord idSize → List Finding
  | .object dump => [dump.finding]
  | .gcRoot _ | .classDump _ => []

def reported (obj : HeapObject) : Finding :=
  ⟨obj.id.toNat, obj.classID.toNat, obj.size.toNat, obj.type⟩

def knownTags : List UInt8 := [tagString, tagLoadClass, tagHeapDump, tagHeapDumpSeg]

inductive RecordBody (idSize : Nat)
  | string (id : Word idSize) (text : Bytes)
  | loadClass (serial : Word 4) (classId : Word idSize) (stack : Word 4) (nameId : Word idSize)
  | heapDump (segment : Bool) (objects : List (ObjectDump idSize))
  | other (tag : UInt8) (unknown : tag ∉ knownTags) (bytes : Bytes)

section records
variable {idSize : Nat}

def RecordBody.tag : RecordBody idSize → UInt8
  | .string _ _ => tagString
  | .loadClass _ _ _ _ => tagLoadClass
  | .heapDump segment _ => if segment then tagHeapDumpSeg else tagHeapDump
  | .other tag _ _ => tag

def RecordBody.encode : RecordBody idSize → Bytes
  | .string id text => word id ++ text
  | .loadClass serial classId stack nameId =>
    word serial ++ word classId ++ word stack ++ word nameId
  | .heapDump _ objects => objects.flatMap ObjectDump.encode
  | .other _ _ bytes => bytes

structure Record (idSize : Nat) where
  time : Word 4
  body : RecordBody idSize
  short : body.encode.length < 256 ^ 4

def Record.encode (record : Record idSize) : Bytes :=
  record.body.tag :: (word record.time ++ ByteReaders.encode 4 record.body.encode.length ++
    record.body.encode)

def Record.findings (record : Record idSize) : List Finding :=
  match record.body with
  | .heapDump _ objects => objects.map ObjectDump.finding
  | _ => []

/-- The text of a string id, given the records before in reverse order. -/
def stringOf (id : Nat) : List (Record idSize) → Bytes
  | [] => []
  | record :: before => match record.body with
    | .string other text => if other = id then text else stringOf id before
    | _ => stringOf id before

/-- `Lpackage/Class;` is shown as `package.Class`. -/
def shownName (name : Bytes) : Bytes :=
  let name := if ascii "L" <+: name ∧ ascii ";" <:+ name then name.tail.dropLast else name
  name.map fun b => if b = 0x2F then 0x2E else b

/-- The class with this id, given the records in reverse order: its last LOAD CLASS,
with the name that the strings before that record give it. -/
def classOf (id : Nat) : List (Record idSize) → Option ClassInfo
  | [] => none
  | record :: before => match record.body with
    | .loadClass serial other _ nameId =>
      if other = id then
        some ⟨.ofNat serial, .ofNat id, shownName (stringOf nameId before)⟩
      else classOf id before
    | _ => classOf id before

end records

structure Dump where
  header : Bytes
  noNul : 0 ∉ header
  magic : ascii "JAVA PROFILE" <+: header
  idSize : IdSize
  timestamp : Word 8
  records : List (Record idSize.bytes)

def Dump.encode (dump : Dump) : Bytes :=
  dump.header ++ [0] ++ ByteReaders.encode 4 dump.idSize.bytes ++ word dump.timestamp ++
    dump.records.flatMap Record.encode

def fourBytes (n : UInt32) : Word 4 := ⟨n.toNat, n.toNat_lt⟩

def fourByteDump (records : List (Record 4)) : Dump where
  header := ascii "JAVA PROFILE 1.0.2"
  noNul := by decide +kernel
  magic := by decide +kernel
  idSize := .four
  timestamp := ⟨0, by decide⟩
  records := records

end DropPlatform.HprofFormat
