import NodeAgent.Disk.Basic
import NodeAgent.Document.Record
/-!
# Files as documents

The content of a file is described by its text, or by its bytes in hexadecimal digits; a directory
is described as one. What is put on a disk by hand gets the directories it needs, and what cannot be
done by hand is left undone.
-/

namespace NodeAgent

open Document

/-- The directory that a path is in. -/
def Path.parent (p : Path) : Path :=
  let cs := (p.toList.reverse.dropWhile (· ≠ '/')).tail
  String.ofList cs.reverse

namespace Disk

/-- Puts what a document describes at a path. -/
def put (disk : Disk) (p : Path) (content : Document) : Disk :=
  if content.boolAt "dir" then (disk.makeDirs p).2
  else
    let bytes :=
      if content.has "hex" then content.bytesAt "hex" else Text.Utf8.encode content.asText
    ((disk.makeDirs p.parent).2.write p bytes).2

/-- The disk with the files of a directory that a document describes. -/
def ofDocument (dir : Path) (files : Document) : Disk :=
  files.entries.foldl (fun disk e ↦ disk.put (dir.join e.1) e.2) ((({} : Disk).makeDirs dir).2)

/-- What is done by hand to a file of a directory, and what comes of it. -/
def byHand (disk : Disk) (dir : Path) (what file : String) (content : Document) :
    Option (Document × Disk) :=
  let p := dir.join file
  match what with
  | "write" => some (null, disk.put p content)
  | "remove" => some (bool ((disk.find .read p).toOption.bind id).isSome, disk.removeTree p)
  | "cat" => some (option text (disk.readText p).toOption, disk)
  | "ls" => some (option texts (disk.list p).toOption, disk)
  | _ => none

end Disk

end NodeAgent
