import ResourceStubs.Controller
import ResourceStubs.Path

/-!
# Where classes are written

The classes of a unit go to a directory with one level per segment of its package name, below a root
that the user chooses. The segments are joined one after the other by the rule for paths, and a
package name is any text: an empty segment adds nothing but a slash, and a segment that is an
absolute path replaces all that came before it.
-/

namespace ResourceStubs

/-- The segments of a package name. -/
def packageSegments (package : String) : List String :=
  (package.toList.splitOn '.').map String.ofList

/-- The directory of the classes of a unit: one directory per segment of the package name, below the
given root. -/
def CompilationUnit.outputDir (u : CompilationUnit) (root : String) : String :=
  if u.packageName.isEmpty then root
  else (packageSegments u.packageName).foldl Path.join root

end ResourceStubs
