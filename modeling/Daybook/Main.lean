import Daybook.CommandLine
import Std.Time.Zoned

/-!
# The program

Reads the files that a run may need, then does the run on what was read, and prints what the run leaves.
-/

namespace Daybook

/-- The content of bytes that are text. -/
def contentOfBytes (bytes : ByteArray) : Except FileFault String :=
  match String.fromUTF8? bytes with
  | some content => .ok content
  | none => .error .notUtf8

/-- The content of the file at a path, or why there is none. What a path of the wrong type means depends
on whether the path leads anywhere: if it does, it is a directory, and else a file is used as one. -/
def contentAt (path : String) (wrongType : FileFault) : IO (Except FileFault String) := do
  try
    contentOfBytes <$> IO.FS.readBinFile path
  catch
    | .noFileOrDirectory .. => return .error .notFound
    | .inappropriateType .. => return .error wrongType
    | .invalidArgument .. =>
      return .error (if Path.hasNul path then .nulInName else .nameTooLong)
    | error => return .error (.other (toString error))

/-- The canonical name of what is at a path, if anything is. -/
def canonicalName? (path : String) : IO (Option String) := do
  try
    let name ← IO.FS.realPath path
    return some name.toString
  catch _ =>
    return none

/-- What is known of a path: where it leads, and what is there. -/
def fetch (path : String) : IO FileSystem.Entry := do
  match ← canonicalName? path with
  | some name => return ⟨path, .ok name, ← contentAt name .isADirectory⟩
  | none =>
    match ← contentAt path .notADirectory with
    | .ok _ => return ⟨path, .error .notFound, .error .notFound⟩
    | .error why => return ⟨path, .error why, .error why⟩

/-- What is known of these paths and of all that the files there include. -/
partial def fetchAll (known : List FileSystem.Entry) : List String → IO (List FileSystem.Entry)
  | [] => return known
  | path :: rest => do
    if known.any (·.path == path) then
      fetchAll known rest
    else
      let entry ← fetch path
      let included := match entry.name, entry.content with
        | .ok name, .ok content =>
          if known.any (·.name.toOption == some name) then []
          else Source.includedPaths path content
        | _, _ => []
      fetchAll (known ++ [entry]) (included ++ rest)

/-- The time on the clock, to the minute. -/
def clock : IO Timestamp := do
  let now ← Std.Time.PlainDateTime.now
  let date := Date.ofParts? now.date.year.toInt now.date.month.toNat now.date.day.toNat
  let time := date.bind fun date =>
    Timestamp.ofParts? date now.time.hour.toNat now.time.minute.toNat
  return time.getD .epoch

/-- The paths that a request starts from. -/
def Request.paths : Request → List String
  | .report book _ => [book]
  | .help | .usageError => []

/-- The time to report as of: the clock is read only if a request needs it. -/
def Request.time : Request → IO Timestamp
  | .report _ { now := none, .. } => clock
  | _ => return .epoch

end Daybook

open Daybook in
/-- Does the run that the arguments ask for. -/
def main (arguments : List String) : IO UInt32 := do
  let request := Arguments.parse arguments
  let known ← fetchAll [] request.paths
  let run := Run.ofRequest (.ofEntries known) (← request.time) request
  IO.print run.output
  IO.eprint run.errors
  return run.exitCode.toUInt32
