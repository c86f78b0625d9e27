import DropPlatform.EbpfFolding
import DropPlatform.TopFunctions
import DropPlatform.WindowViewer

/-! From the counts of the off-CPU probe to the analyzer's table of functions: `parse_topn`
reads the file that `EbpfLoader::poll` has written. The line of a key ends with the frames of
the program, so that the time of a wait goes to the innermost of them and to a function of the
kernel only if no frame of the program is known. -/

namespace DropPlatform.OffCpuTable
open Tallies CountDicts PythonText TopFunctions
open TextLines (decimal cutLast)
open OffCpuProbe (StackKey)
open CollapsedStacks (writeStacks)
open EbpfFolding
open BrowserFlameGraph hiding isSpace
open WindowViewer hiding Row readRow top

section reading

variable {ls : List FoldedLine} (final : Bool)

end reading

section frames
variable {kernel user : List Bytes}

end frames

section counts

variable (env : Surroundings) (snapshot : Snapshot)

def times : List (StackKey × Nat) := snapshot.counted.map fun entry => (entry.1, entry.2.toNat)

def total : Nat := (snapshot.entries.map fun entry => entry.2.toNat).sum

def line (key : StackKey) : Bytes := render env (snapshot.counted.map Prod.fst) key

variable {snapshot}

end counts

section table
variable (env : Surroundings) (snapshot : Snapshot)

def user (key : StackKey) : List Bytes := resolvedFrames env (snapshot.counted.map Prod.fst) key

variable {env snapshot}

variable {text : Text}

end table

end DropPlatform.OffCpuTable
