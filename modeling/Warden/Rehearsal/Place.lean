/-!
A small part of a file system.

A place knows some directories, with all that lie above them, and one file. A path is followed
part by part: every part but the last must lead to a directory, an empty part and a single dot
stay, and two dots go up. A path that does not start at the root leads nowhere.
-/

namespace Warden.Rehearsal

/-- The parts of an absolute path without its dots. -/
abbrev Spot := List String

inductive Kind where
  | executable
  /-- Not marked as executable. -/
  | forbidden
  /-- A script whose interpreter does not exist. -/
  | noInterpreter
  | directory
  | missing
  deriving DecidableEq, Repr

structure Place where
  directories : List Spot
  file : Spot
  kind : Kind

namespace Place

def parts (p : String) : List String := p.splitOn "/"

/-- The spot of an absolute path, whether or not it exists. -/
def spot (p : String) : Spot := (parts p).filter fun s => s != "" && s != "."

def isDirectory (w : Place) (s : Spot) : Bool :=
  (w.kind == .directory && s == w.file)
    || (w.directories ++ [w.file.dropLast]).any fun d => s.isPrefixOf d

def exists? (w : Place) (s : Spot) : Bool :=
  w.isDirectory s || (s == w.file && w.kind != .missing)

def follow (w : Place) : Spot → List String → Option Spot
  | s, [] => some s
  | s, p :: ps =>
    if !w.isDirectory s then none
    else
      let t := if p = "" ∨ p = "." then s else if p = ".." then s.dropLast else s ++ [p]
      if w.exists? t then w.follow t ps else none

def find? (w : Place) (path : String) : Option Spot :=
  match parts path with
  | "" :: ps => w.follow [] ps
  | _ => none

/-- The directory a path leads to. -/
def directory? (w : Place) (path : String) : Option Spot := (w.find? path).filter w.isDirectory

/-- Whether a path leads to the file. -/
def isFile (w : Place) (path : String) : Bool :=
  match w.find? path with
  | some s => !w.isDirectory s
  | none => false

/-- A spot as a path. -/
def path (s : Spot) : String := "/" ++ "/".intercalate s

end Place

end Warden.Rehearsal
