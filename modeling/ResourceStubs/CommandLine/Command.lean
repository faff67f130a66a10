import ResourceStubs.CommandLine.Arguments
import ResourceStubs.Generation
import ResourceStubs.Loading
import ResourceStubs.Log.Filter

/-!
# The command

The command reads a unit from a file and writes its classes. All that a run leaves behind is in the
result of `CommandLine.execute`: the state of the files, the events that are shown, the warnings
about the configuration, and what is printed or why the run failed. It is a function of the
arguments, of the variables of the environment, of the directory the command is started in and of
the file system.

After a dry run the command announces the files that a real run would write, one per line. After a
real run it prints the root of the output only.
-/

namespace ResourceStubs.CommandLine

/-- The text that announces files which would be written: their number, then a line for each. -/
def announcement (files : List String) : String :=
  "🔍 Dry run: " ++ toString files.length ++ " controller(s) would be written\n" ++
    String.join (files.map fun file => "  " ++ file ++ "\n")

/-- What is printed after success: the files a dry run would write, or else the root of the output
as seen from the working directory. -/
def summary (a : Arguments) (workingDir : String) (report : Report) : String :=
  if report.dryRun then announcement report.files
  else "✅ Controllers generated in: " ++ Path.absolute workingDir a.output ++ "\n"

end ResourceStubs.CommandLine
