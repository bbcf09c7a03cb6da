import GridLang.CommandLine.Report

/-!
# GridLang.Main

**The command line.** It reads the source, prints the report, and gives its exit code.
-/

namespace GridLang.CommandLine

/-- The number under which a path that is too long is reported, 36 counted downwards from zero. -/
def nameTooLongNumber : UInt32 := 0 - 36

/-- The fault behind an error of the system. A path of the wrong type has been refused because a
part of it is no directory; without a path, the error comes from reading a directory. -/
def SourceFault.ofError (e : IO.Error) : SourceFault :=
  match e with
  | .noFileOrDirectory .. => .notFound
  | .inappropriateType (some _) .. => .notADirectory
  | .inappropriateType none .. => .isADirectory
  | .permissionDenied .. => .notPermitted
  | .invalidArgument _ number _ =>
    if number = nameTooLongNumber then .nameTooLong else .other (toString e)
  | _ => .other (toString e)

/-- The octets of a file, or of standard input. -/
def load (file? : Option String) : IO (Except SourceFault (List UInt8)) := do
  try
    let octets ← match file? with
      | some path => IO.FS.readBinFile path
      | none => (← IO.getStdin).readBinToEnd
    return .ok octets.toList
  catch e => return .error (.ofError e)

end GridLang.CommandLine

/-- Follows the arguments of the command line. -/
def main (arguments : List String) : IO UInt32 := do
  let report ← GridLang.CommandLine.follow GridLang.CommandLine.load arguments
  IO.print report.output
  IO.eprint report.errors
  return report.code
