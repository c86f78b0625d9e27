import DropPlatform.ByteReaders
import DropPlatform.KeyedStores

/-! The HPROF parser of `java_heap_analyzer`. A reader over the bytes of the file changes
the parser and the package variable `stringMap`; `int` has 64 bits and memory is not
bounded. Every slice expression and fixed-width read of the source is a `slice`, `uint32`
or `uint64` here and panics as it does there. -/

namespace DropPlatform.HprofParser
open ByteReaders KeyedStores

def tagString : UInt8 := 0x01
def tagLoadClass : UInt8 := 0x02
def tagHeapDump : UInt8 := 0x0C
def tagHeapDumpSeg : UInt8 := 0x1C

def subRootUnknown : UInt8 := 0xFF
def subRootJniGlobal : UInt8 := 0x01
def subRootJniLocal : UInt8 := 0x02
def subRootJavaFrame : UInt8 := 0x03
def subRootNativeStack : UInt8 := 0x04
def subRootStickyClass : UInt8 := 0x05
def subRootThreadBlock : UInt8 := 0x06
def subRootMonitorUsed : UInt8 := 0x07
def subRootThreadObj : UInt8 := 0x08
def subClassDump : UInt8 := 0x20
def subInstanceDump : UInt8 := 0x21
def subObjArrayDump : UInt8 := 0x22
def subPrimArrayDump : UInt8 := 0x23

def rootTags : List UInt8 :=
  [subRootUnknown, subRootJniGlobal, subRootJniLocal, subRootJavaFrame, subRootNativeStack,
    subRootStickyClass, subRootThreadBlock, subRootMonitorUsed, subRootThreadObj]

structure ClassInfo where
  classSerialNum : UInt32
  classObjID : UInt64
  className : Bytes
deriving DecidableEq, Repr

/-- The texts "instance", "objarray" and "primarray" of the field `Type`. -/
inductive ObjectType
  | ofInstance
  | objarray
  | primarray
deriving DecidableEq, Repr

structure HeapObject where
  id : UInt64
  classID : UInt64
  size : UInt32
  type : ObjectType
deriving DecidableEq, Repr

structure ClsAccum where
  name : Bytes
  count : Nat
  totalSize : Int64
deriving DecidableEq, Repr

structure HPROFParser where
  classes : Keyed UInt64 (Option ClassInfo)
  objects : List HeapObject
  sizeByCls : Keyed UInt64 (Option ClsAccum)
  totalSize : Int64
  totalObj : Nat
  idSize : Nat
deriving DecidableEq, Repr

def newHPROFParser : HPROFParser := ⟨[], [], [], 0, 0, 0⟩

/-- The parser and the string table, which all parsers of the process share. -/
structure Process where
  p : HPROFParser
  stringMap : Keyed UInt64 Bytes
deriving DecidableEq, Repr

inductive ParseError
  /-- "`what`: `cause`" -/
  | reading (what : String) (cause : ReadError)
  /-- "invalid hprof magic: `header`" -/
  | invalidMagic (header : Bytes)
  /-- "unexpected id size: `size`" -/
  | unexpectedIdSize (size : Nat)
  /-- "skipping record tag `tag`: `cause`" -/
  | skippingRecord (tag : UInt8) (cause : ReadError)
  /-- "reading root sub-record `tag`: `cause`" -/
  | readingRoot (tag : UInt8) (cause : ReadError)
  /-- "unknown heap dump sub-record: `tag` at remaining=`remaining`" -/
  | unknownSubRecord (tag : UInt8) (remaining : Int)
deriving DecidableEq, Repr

abbrev HprofM (α : Type) := Reader ParseError Process α

def getProcess : HprofM Process := fun s => .ok s.state s

def setProcess (process : Process) : HprofM Unit := fun s => .ok () { s with state := process }

/-- A loop in which every round reads at least one byte. -/
def loop {α β : Type} (body : β → HprofM (β ⊕ α)) (b : β) : HprofM α := fun s =>
  iterate body (s.input.length + 1) b s

def readID (buf : Bytes) : HprofM UInt64 := do
  let process ← getProcess
  if process.p.idSize = 8 then uint64 buf
  else do
    let id ← uint32 buf
    pure id.toUInt64

def parseString (length : UInt32) : HprofM Unit := do
  let buf ← readFull length.toNat (.reading "reading string record")
  let process ← getProcess
  let id ← readID (← slice buf 0 process.p.idSize)
  let s ← slice buf process.p.idSize buf.length
  setProcess { process with stringMap := set process.stringMap id s }

/-- `L...;` loses its first and its last byte; '/' becomes '.'. -/
def displayName (className : Bytes) : HprofM Bytes := do
  let className ←
    if ascii "L" <+: className ∧ ascii ";" <:+ className then
      slice className 1 (className.length - 1)
    else pure className
  pure (className.map fun b => if b = 0x2F then 0x2E else b)

def parseLoadClass (length : UInt32) : HprofM Unit := do
  let buf ← readFull length.toNat (.reading "reading load class record")
  let process ← getProcess
  let idSize := process.p.idSize
  let classSerial ← uint32 (← slice buf 0 4)
  let classObjID ← readID (← slice buf 4 (4 + idSize))
  let classNameID ← readID (← slice buf (4 + idSize + 4) (4 + idSize + 4 + idSize))
  let className ← displayName (get process.stringMap classNameID)
  setProcess { process with
    p.classes := set process.p.classes classObjID (some ⟨classSerial, classObjID, className⟩) }

def rootSubRecordSize (idSize : Nat) (tag : UInt8) : Nat :=
  let base := idSize + 4
  if tag = subRootJniGlobal then base + idSize
  else if tag = subRootJniLocal ∨ tag = subRootJavaFrame then base + 4 + 4
  else if tag = subRootNativeStack ∨ tag = subRootThreadBlock then base + 4
  else if tag = subRootThreadObj then base + 4 + 4
  else base

def classDumpSize (idSize : Nat) : Nat := 7 * idSize + 4 + 4 + 4 + 4 + 4 + 4

def primTypeSize (t : UInt8) : Nat :=
  if t = 4 then 1
  else if t = 5 then 2
  else if t = 6 then 4
  else if t = 7 then 8
  else if t = 8 then 1
  else if t = 9 then 2
  else if t = 10 then 4
  else if t = 11 then 8
  else 1

def parseInstanceDump : HprofM (HeapObject × Nat) := do
  let process ← getProcess
  let idSize := process.p.idSize
  let header ← readFull (idSize + 4 + idSize + 4) (.reading "reading instance dump header")
  let objID ← readID (← slice header 0 idSize)
  let classObjID ← readID (← slice header (idSize + 4) (idSize + 4 + idSize))
  let numFields ← uint32 (← slice header (idSize + 4 + idSize) (idSize + 4 + idSize + 4))
  let _data ← readFull numFields.toNat (.reading "reading instance data")
  pure (⟨objID, classObjID, numFields, .ofInstance⟩, header.length + numFields.toNat)

def parseObjArrayDump : HprofM (HeapObject × Nat) := do
  let process ← getProcess
  let idSize := process.p.idSize
  let header ← readFull (idSize + 4 + 4 + idSize) (.reading "reading obj array dump header")
  let arrayID ← readID (← slice header 0 idSize)
  let numElements ← uint32 (← slice header (idSize + 4) (idSize + 4 + 4))
  let elemClassID ← readID (← slice header (idSize + 4 + 4) (idSize + 4 + 4 + idSize))
  let size := numElements * UInt32.ofNat idSize
  let _data ← readFull (numElements.toNat * idSize) (.reading "reading obj array elements")
  pure (⟨arrayID, elemClassID, size, .objarray⟩, header.length + numElements.toNat * idSize)

def parsePrimArrayDump : HprofM (HeapObject × Nat) := do
  let process ← getProcess
  let idSize := process.p.idSize
  let header ← readFull (idSize + 4 + 4 + 1) (.reading "reading prim array dump header")
  let arrayID ← readID (← slice header 0 idSize)
  let numElements ← uint32 (← slice header (idSize + 4) (idSize + 4 + 4))
  -- `header[off]` is the slice of length one
  let elemType ← slice header (idSize + 4 + 4) (idSize + 4 + 4 + 1)
  let elemSize := primTypeSize (elemType.headD 0)
  let size := numElements * UInt32.ofNat elemSize
  let _data ← readFull (numElements.toNat * elemSize) (.reading "reading prim array elements")
  pure (⟨arrayID, 0, size, .primarray⟩, header.length + numElements.toNat * elemSize)

def HPROFParser.addObject (p : HPROFParser) (obj : HeapObject) : HPROFParser :=
  let size : Int64 := .ofNat obj.size.toNat
  let clsName := match get p.classes obj.classID with
    | some cls => cls.className
    | none => ascii "unknown"
  let acc := (get p.sizeByCls obj.classID).getD ⟨clsName, 0, 0⟩
  { p with
    objects := p.objects ++ [obj]
    totalSize := p.totalSize + size
    totalObj := p.totalObj + 1
    sizeByCls := set p.sizeByCls obj.classID
      (some { acc with count := acc.count + 1, totalSize := acc.totalSize + size }) }

def objectRound (parse : HprofM (HeapObject × Nat)) (remaining : Int) : HprofM (Int ⊕ Unit) := do
  let (obj, consumed) ← parse
  let process ← getProcess
  setProcess { process with p := process.p.addObject obj }
  pure (.inl (remaining - consumed))

/-- The switch over the sub-tag; `remaining` no longer counts the tag itself. -/
def parseSubRecord (tag : UInt8) (remaining : Int) : HprofM (Int ⊕ Unit) := do
  let process ← getProcess
  if tag ∈ rootTags then do
    let size := rootSubRecordSize process.p.idSize tag
    let _buf ← readFull size (.readingRoot tag)
    pure (.inl (remaining - size))
  else if tag = subClassDump then do
    let size := classDumpSize process.p.idSize
    let _buf ← readFull size (.reading "reading class dump")
    pure (.inl (remaining - size))
  else if tag = subInstanceDump then objectRound parseInstanceDump remaining
  else if tag = subObjArrayDump then objectRound parseObjArrayDump remaining
  else if tag = subPrimArrayDump then objectRound parsePrimArrayDump remaining
  else throw (.error (.unknownSubRecord tag remaining))

def heapDumpRound (remaining : Int) : HprofM (Int ⊕ Unit) :=
  if remaining > 0 then do
    let subtag ← readFull 1 (.reading "reading subtag")
    parseSubRecord (subtag.headD 0) (remaining - 1)
  else pure (.inr ())

def parseHeapDump (length : UInt32) : HprofM Unit := loop heapDumpRound (length.toNat : Int)

def headerRound (headerBuf : Bytes) : HprofM (Bytes ⊕ Bytes) := do
  let b ← readFull 1 (.reading "reading hprof header")
  let headerBuf := headerBuf ++ b
  if b.headD 0 = 0 then pure (.inr headerBuf) else pure (.inl headerBuf)

def parseRecord (tag : UInt8) (recLen : UInt32) : HprofM Unit :=
  if tag = tagString then parseString recLen
  else if tag = tagLoadClass then parseLoadClass recLen
  else if tag = tagHeapDump ∨ tag = tagHeapDumpSeg then parseHeapDump recLen
  else discard recLen.toNat (.skippingRecord tag)

def recordRound (_ : Unit) : HprofM (Unit ⊕ Unit) := do
  match ← tryReadFull 1 with
  | .error .eof => pure (.inr ())
  | .error e => throw (.error (.reading "reading tag" e))
  | .ok tag => do
    let _time ← readFull 4 (.reading "reading time")
    let length ← readFull 4 (.reading "reading length")
    let recLen ← uint32 length
    parseRecord (tag.headD 0) recLen
    pure (.inl ())

def parse : HprofM Unit := do
  let headerBuf ← loop headerRound []
  let headerStr ← slice headerBuf 0 (headerBuf.length - 1)
  if ¬ ascii "JAVA PROFILE" <+: headerStr then throw (.error (.invalidMagic headerStr))
  else do
    let idSizeBuf ← readFull 4 (.reading "reading id size")
    let idSize ← uint32 idSizeBuf
    let process ← getProcess
    setProcess { process with p.idSize := idSize.toNat }
    if idSize.toNat ≠ 4 ∧ idSize.toNat ≠ 8 then throw (.error (.unexpectedIdSize idSize.toNat))
    else do
      let _ts ← readFull 8 (.reading "reading timestamp")
      loop recordRound ()

end DropPlatform.HprofParser
