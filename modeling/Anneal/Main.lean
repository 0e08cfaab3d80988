import Anneal.CommandLine.Run
import Anneal.Shell.Machine
import Std.Time.DateTime.Timestamp

/-!
# The program

Copies the working directory into a disk, runs the command on it and writes back what changed.
Programs are run by the shell of this library, and no network is reached from here.
-/

namespace Anneal.Main

open Anneal.Text (Bytes)

def isScript (content : Bytes) : Bool := [35, 33].isPrefixOf content

partial def loadBelow (path : String) (place : Place) : IO (List (Place × Node)) := do
  let here ← IO.currentDir
  let entries ← (here / path).readDir
  let mut nodes : List (Place × Node) := []
  for entry in entries do
    let place := place ++ [entry.fileName]
    let path := Path.join path entry.fileName
    if ← entry.path.isDir then
      nodes := nodes ++ (place, Node.directory) :: (← loadBelow path place)
    else
      let content := (← IO.FS.readBinFile path).toList
      nodes := nodes ++ [(place, .file content (isScript content))]
  return nodes

def loadDisk : IO Disk := do
  let home := Disk.components (← IO.currentDir).toString
  let above := (List.range (home.length + 1)).map fun n => (home.take n, Node.directory)
  let below ← loadBelow "." home
  return { Disk.empty with nodes := Disk.empty.nodes ++ above ++ below, home := home }

def storeChanges (before after : Disk) : IO Unit := do
  let pathOf (p : Place) : String := "/" ++ Text.join "/" p
  for (place, node) in after.nodes do
    if after.home.isPrefixOf place && before.node? place != some node then
      match node with
      | .directory => IO.FS.createDirAll (pathOf place)
      | .file content executable =>
        IO.FS.writeBinFile (pathOf place) content.toByteArray
        if executable then
          IO.setAccessRights (pathOf place)
            { user := { read := true, write := true, execution := true },
              group := { read := true, execution := true },
              other := { read := true, execution := true } }
  for (place, node) in before.nodes do
    if after.home.isPrefixOf place && (after.node? place).isNone && node != .directory then
      IO.FS.removeFile (pathOf place)

partial def readAll (input : IO.FS.Stream) (sofar : ByteArray) : IO ByteArray := do
  let piece ← input.read 65536
  if piece.isEmpty then return sofar
  readAll input (sofar ++ piece)

end Anneal.Main

open Anneal in
def main (words : List String) : IO UInt32 := do
  let now ← Std.Time.Timestamp.now
  let clock := now.toMillisecondsSinceUnixEpoch.val.toNat
  let disk ← Main.loadDisk
  let known ← (CommandLine.keyVariables words disk).mapM fun name => do
    return (name, ← IO.getEnv name)
  let input ← if CommandLine.readsInput words then
      Main.readAll (← IO.getStdin) .empty
    else pure .empty
  let surroundings : CommandLine.Surroundings (Option Shell.Running) :=
    { connection := Http.unreachable
      machine := Shell.machine
      env := fun name => (known.lookup name).join
      sessionId := Journal.idAt (.ofMillis clock)
      input := input.toList }
  let (outcome, world) := CommandLine.run surroundings words ⟨disk, false, clock, none⟩
  Main.storeChanges disk world.disk
  (← IO.getStdout).putStr outcome.stdout
  (← IO.getStderr).putStr outcome.stderr
  return outcome.code.toUInt32
