import Mathlib.Data.List.Induction
import ResourceStubs.Proofs.Identifiers
import ResourceStubs.Proofs.Warnings

/-!
# What a successful generation leaves behind

A generation creates the output directory and writes the classes one after the other. All files are
entries of one directory, so the state afterwards is the state in which the directory stands, with
one entry set per class, in order (`FileSystem.writeEntries`). Classes of the same name share an
entry, and the last one stays.

The argument goes from one write to the whole. A class that is written sets its entry
(`FileSystem.writeFile_controller`), so the steps for all classes, run to their end, set exactly
these entries (`FileSystem.completes_controllersSteps`). At every location the last class written
there wins and all else is as before (`FileSystem.get_writeEntries`). `FileSystem.Writes` says what
this means for files and directories, new and old.
-/

namespace ResourceStubs

/-- The class is the last one of the given name. -/
def IsLastNamed (name : String) (out : List Controller) (c : Controller) : Prop :=
  c.className = name ∧ ∃ before later, out = before ++ c :: later ∧ ∀ d ∈ later, d.className ≠ name

/-- Among classes of different names, each is the last one of its name. -/
lemma eq_of_isLastNamed {out : List Controller}
    (h : out.Pairwise fun b c => b.className ≠ c.className) {c d : Controller} (hc : c ∈ out)
    (hd : IsLastNamed c.className out d) : d = c := by
  obtain ⟨hname, before, later, rfl, hlater⟩ := hd
  obtain ⟨-, -, hbefore⟩ := List.pairwise_append.1 h
  rcases List.mem_append.1 hc with hc | hc
  · exact absurd hname.symm (hbefore c hc d List.mem_cons_self)
  · rcases List.mem_cons.1 hc with rfl | hc
    · rfl
    · exact absurd rfl (hlater c hc)

lemma Controller.fileName_inj {c d : Controller} :
    c.fileName = d.fileName ↔ c.className = d.className := by
  unfold fileName
  exact String.append_left_inj _

lemma CompilationUnit.isEntryName_fileName {u : CompilationUnit} {out : List Controller}
    (h : u.controllers = .ok out) {c : Controller} (hc : c ∈ out) :
    Path.IsEntryName c.fileName := by
  obtain ⟨-, -, rfl⟩ := controllers_eq_ok_iff.1 h
  obtain ⟨n, -, rfl⟩ := List.mem_map.1 hc
  exact Controller.isEntryName_fileName rfl

namespace FileSystem

variable {fs after : FileSystem} {dir : String} {here : Location}

/-! ## Entries of one directory -/

/-- The state after classes were written to entries of the directory at a location. -/
def writeEntries (here : Location) (fs : FileSystem) (out : List Controller) : FileSystem :=
  out.foldl (fun fs c => fs.set (here ++ [c.fileName]) (.file c.source)) fs

/-- The last class that belongs to a location stands there, and the other locations are as
before. -/
lemma get_writeEntries (here : Location) (fs : FileSystem) (out : List Controller) (l : Location) :
    (writeEntries here fs out).get l =
      match out.reverse.find? fun c => here ++ [c.fileName] = l with
      | some c => some (.file c.source)
      | none => fs.get l := by
  induction out using List.reverseRecOn with
  | nil => rfl
  | append_singleton out c ih =>
    have hlast : writeEntries here fs (out ++ [c]) =
        (writeEntries here fs out).set (here ++ [c.fileName]) (.file c.source) := by
      simp [writeEntries]
    rw [hlast, List.reverse_append, List.reverse_singleton, List.singleton_append, List.find?_cons]
    by_cases hl : here ++ [c.fileName] = l
    · subst hl
      rw [get_set_self _ (by simp)]
      simp
    · rw [get_set_of_ne _ (Ne.symm hl), ih]
      simp [hl]

/-- The file of a class holds the source of the last class of that name. -/
lemma get_writeEntries_of_mem {out : List Controller} {c : Controller} (hc : c ∈ out) :
    ∃ d, IsLastNamed c.className out d ∧
      (writeEntries here fs out).get (here ++ [c.fileName]) = some (.file d.source) := by
  have hentry (d : Controller) : here ++ [d.fileName] = here ++ [c.fileName] ↔
      d.className = c.className := by
    simp [Controller.fileName_inj]
  rw [get_writeEntries]
  simp only [hentry]
  cases hfind : out.reverse.find? fun d => d.className = c.className with
  | none =>
    have hnone := List.find?_eq_none.1 hfind c (List.mem_reverse.2 hc)
    simp at hnone
  | some d =>
    obtain ⟨hd, later, before, hout, hlater⟩ := List.find?_eq_some_iff_append.1 hfind
    refine ⟨d, ⟨by simpa using hd, before.reverse, later.reverse, ?_, fun e he => ?_⟩, rfl⟩
    · rw [← List.reverse_reverse out, hout]
      simp
    · simpa using hlater e (List.mem_reverse.1 he)

/-- A location either holds a class or is as before. -/
lemma get_writeEntries_cases (here : Location) (fs : FileSystem) (out : List Controller)
    (l : Location) :
    (∃ c ∈ out, l = here ++ [c.fileName] ∧
      (writeEntries here fs out).get l = some (.file c.source)) ∨
      (writeEntries here fs out).get l = fs.get l := by
  rw [get_writeEntries]
  cases hfind : out.reverse.find? fun c => here ++ [c.fileName] = l with
  | none => exact .inr rfl
  | some c =>
    have hl : here ++ [c.fileName] = l := by simpa using List.find?_some hfind
    exact .inl ⟨c, List.mem_reverse.1 (List.mem_of_find?_eq_some hfind), hl.symm, rfl⟩

/-- One write: the entry of the class is set. -/
lemma writeFile_controller {c : Controller} (hname : Path.IsEntryName c.fileName)
    (hhere : fs.LeadsTo dir here) (h : fs.writeFile (c.path dir) c.source = .ok after) :
    after = fs.set (here ++ [c.fileName]) (.file c.source) ∧
      after.LeadsTo (c.path dir) (here ++ [c.fileName]) := by
  obtain ⟨l, hl, -, -, hset⟩ := writeFile_leadsTo h
  obtain rfl : l = here ++ [c.fileName] := hl.of_join hname ((writeFile_retains h).leadsTo hhere)
  exact ⟨hset, hl⟩

lemma completes_controllersSteps_cons {seen : List String} {c : Controller}
    {rest : List Controller} :
    fs.Completes (controllersSteps dir false seen (c :: rest)) after ↔
      ∃ between, fs.writeFile (c.path dir) c.source = .ok between ∧
        between.Completes (controllersSteps dir false (c.className :: seen) rest) after := by
  rw [controllersSteps, controllerSteps]
  split <;> simp

/-- All writes: the entries of the classes are set in order, and their files can be read. -/
lemma completes_controllersSteps {seen : List String} {out : List Controller}
    (hname : ∀ c ∈ out, Path.IsEntryName c.fileName) (hhere : fs.LeadsTo dir here)
    (h : fs.Completes (controllersSteps dir false seen out) after) :
    after = writeEntries here fs out ∧ fs.Retains after ∧
      ∀ c ∈ out, checkPath (c.path dir) = .ok () ∧
      after.LeadsTo (c.path dir) (here ++ [c.fileName]) := by
  induction out generalizing fs seen with
  | nil =>
    obtain rfl := completes_nil.1 h
    exact ⟨rfl, .refl _, nofun⟩
  | cons c rest ih =>
    obtain ⟨between, hwrite, hrest⟩ := completes_controllersSteps_cons.1 h
    have hretains := writeFile_retains hwrite
    obtain ⟨hset, hl⟩ := writeFile_controller (hname c List.mem_cons_self) hhere hwrite
    obtain ⟨hafter, hretains', hfiles⟩ :=
      ih (fun d hd => hname d (List.mem_cons_of_mem c hd)) (hretains.leadsTo hhere) hrest
    refine ⟨?_, hretains.trans hretains', fun d hd => ?_⟩
    · rw [hafter, hset]
      rfl
    · rcases List.mem_cons.1 hd with rfl | hd
      · exact ⟨(writeFile_eq_ok hwrite).1, hretains'.leadsTo hl⟩
      · exact hfiles d hd

/-! ## The whole generation -/

/-- What writing classes into a directory does to a file system. -/
structure Writes (dir : String) (out : List Controller) (fs after : FileSystem) : Prop where
  /-- The file of a class holds the source of the last class of that name. -/
  holdsLast : ∀ c ∈ out, ∃ d,
    IsLastNamed c.className out d ∧ after.readFile (c.path dir) = .ok d.source
  /-- All other files are the old ones, with their old texts. -/
  otherFiles : ∀ l, (∀ c ∈ out, ¬after.LeadsTo (c.path dir) l) →
    ∀ text, after.get l = some (.file text) ↔ fs.get l = some (.file text)
  /-- Nothing disappears. -/
  retains : fs.Retains after
  /-- New directories stand where nothing stood, on the way to the directory. -/
  newDirs : ∀ l, after.get l = some .dir → fs.get l ≠ some .dir →
    fs.get l = none ∧ after.OnTheWay (.ofPath dir) l
  /-- The directory is there. -/
  isDir : dir ≠ "" → after.isDirAt (.ofPath dir) = true

lemma Completes.writes {out : List Controller} (hname : ∀ c ∈ out, Path.IsEntryName c.fileName)
    (h : fs.Completes (generationPlan dir false out) after) : Writes dir out fs after := by
  obtain ⟨hdir, hsteps⟩ : (fs.createDirs dir).outcome = .ok () ∧
      (fs.createDirs dir).after.Completes (controllersSteps dir false [] out) after := by
    simpa [generationPlan, completes_append] using h
  have hadds := createDirs_addsDirs fs dir
  obtain ⟨here, hhere⟩ := createDirs_leadsTo hdir
  obtain ⟨hafter, hretains, hfiles⟩ := completes_controllersSteps hname hhere hsteps
  have hcases := get_writeEntries_cases here (fs.createDirs dir).after out
  rw [← hafter] at hcases
  constructor
  case holdsLast =>
    intro c hc
    obtain ⟨hcheck, hleads⟩ := hfiles c hc
    obtain ⟨d, hd, hget⟩ := get_writeEntries_of_mem hc
    rw [← hafter] at hget
    have hslash : Path.endsWithSlash (c.path dir) = false := Path.endsWithSlash_join (hname c hc)
    exact ⟨d, hd, readFile_eq_ok_iff.2 ⟨hcheck, hslash, _, hleads, hget⟩⟩
  case otherFiles =>
    intro l hl text
    rcases hcases l with ⟨c, hc, rfl, -⟩ | hsame
    · exact absurd (hfiles c hc).2 (hl c hc)
    · rw [hsame]
      -- where a directory was created no file stood, and none stands there now
      rcases hadds.get l with hsame | ⟨hnone, hnew, -⟩
      · rw [hsame]
      · simp [hnone, hnew]
  case retains => exact hadds.retains.trans hretains
  case newDirs =>
    intro l hnew hold
    rcases hcases l with ⟨c, -, -, hfile⟩ | hsame
    · cases hfile.symm.trans hnew
    · rcases hadds.get l with hsame' | ⟨hnone, -, hway⟩
      · exact absurd (hsame'.symm.trans (hsame.symm.trans hnew)) hold
      · exact ⟨hnone, hretains.onTheWay hway⟩
  case isDir =>
    intro hne
    exact hretains.isDirAt (createDirs_isDirAt hne hdir)

/-- A unit that renders is generated by running its plan. -/
lemma generate_of_controllers {u : CompilationUnit} {out : List Controller}
    (hout : u.controllers = .ok out) (fs : FileSystem) (root : String) (dryRun : Bool) :
    fs.generate u root dryRun =
      let writing := fs.run (generationPlan (u.outputDir root) dryRun out)
      ⟨writing.after, u.render.events ++ writing.events,
        writing.outcome.map fun _ => generationReport (u.outputDir root) dryRun out⟩ := by
  have hrender : u.render.outcome = .ok out := hout
  simp only [generate, hrender]

lemma generate_of_traitError {u : CompilationUnit} {e : TraitError} (he : u.controllers = .error e)
    (fs : FileSystem) (root : String) (dryRun : Bool) :
    fs.generate u root dryRun = ⟨fs, u.render.events, .error (.badTraits e)⟩ := by
  have hrender : u.render.outcome = .error e := he
  simp only [generate, hrender]

/-- A generation succeeds when the unit renders and its plan runs to the end. -/
lemma generate_eq_ok {u : CompilationUnit} {root : String} {dryRun : Bool} {report : Report}
    (h : (fs.generate u root dryRun).outcome = .ok report) :
    ∃ out, u.controllers = .ok out ∧ report = generationReport (u.outputDir root) dryRun out ∧
      fs.Completes (generationPlan (u.outputDir root) dryRun out)
        (fs.generate u root dryRun).after ∧
      warnings (fs.generate u root dryRun).events = repeatWarnings out := by
  cases hout : u.controllers with
  | error e =>
    rw [generate_of_traitError hout] at h
    cases h
  | ok out =>
    rw [generate_of_controllers hout] at h ⊢
    cases hrun : (fs.run (generationPlan (u.outputDir root) dryRun out)).outcome with
    | error e =>
      simp only [hrun] at h
      cases h
    | ok _ =>
      simp only [hrun] at h
      have hcompletes : fs.Completes (generationPlan (u.outputDir root) dryRun out) _ := ⟨hrun, rfl⟩
      refine ⟨out, rfl, (Except.ok.inj h).symm, hcompletes, ?_⟩
      rw [warnings_append, u.quiet_render, List.nil_append, hcompletes.events]
      exact warnings_generationPlan ..

end FileSystem

/-- A successful generation reports the files of all classes in order, writes them so that the last
class of a name stays, leaves everything else alone, and warns about exactly the classes that
replace an earlier one. Without a warning, every class is on disk. -/
theorem FileSystem.generate_writes {fs : FileSystem} {u : CompilationUnit} {root : String}
    {report : Report} (h : (fs.generate u root false).outcome = .ok report) :
    ∃ out, u.controllers = .ok out ∧
      report.outputDir = u.outputDir root ∧
      report.files = out.map (fun c => Path.join (u.outputDir root) (c.className ++ ".java")) ∧
      Writes (u.outputDir root) out fs (fs.generate u root false).after ∧
      warnings (fs.generate u root false).events = repeatWarnings out ∧
      (warnings (fs.generate u root false).events = [] → ∀ c ∈ out,
        (fs.generate u root false).after.readFile (c.path (u.outputDir root)) = .ok c.source) := by
  obtain ⟨out, hout, rfl, hcompletes, hwarnings⟩ := generate_eq_ok h
  have hdir : (generationReport (u.outputDir root) false out).outputDir = u.outputDir root := by
    simp only [generationReport]
  have hfiles : (generationReport (u.outputDir root) false out).files =
      out.map fun c => Path.join (u.outputDir root) (c.className ++ ".java") := by
    simp only [generationReport, Controller.path, Controller.fileName]
  have hwrites := hcompletes.writes fun c hc => u.isEntryName_fileName hout hc
  refine ⟨out, hout, hdir, hfiles, hwrites, hwarnings, fun hnone c hc => ?_⟩
  have hdistinct := pairwise_of_repeatWarnings_eq_nil (hwarnings.symm.trans hnone)
  obtain ⟨d, hd, hread⟩ := hwrites.holdsLast c hc
  obtain rfl := eq_of_isLastNamed hdistinct hc hd
  exact hread

/-- A unit in which two resources on different levels have the same class name. -/
def stockUnit : CompilationUnit where
  package := some "org.stock"
  resources := [
    .mk "/items" [] [] [.resource (.mk "/stores" [] [] [])],
    .mk "/stores" [] [] [.endpoint { verb := .get, paths := ["/"] }]]

/-- A state with a part of the output directory and a file that has nothing to do with the unit. -/
def stockFiles : FileSystem where
  entries := [(["out"], .dir), (["out", "notes"], .file "kept"), (["out", "org"], .dir)]

/-- The report on the unit: the file of the repeated class is written twice. -/
def stockReport : Report where
  outputDir := "out/org/stock"
  files := ["out/org/stock/ItemsController.java", "out/org/stock/StoresController.java",
    "out/org/stock/StoresController.java"]
  dryRun := false

theorem generate_writes_stock :
    (stockFiles.generate stockUnit "out" false).outcome = .ok stockReport ∧
      ∃ out, stockUnit.controllers = .ok out ∧
        stockReport.files = out.map
          (fun c => Path.join (stockUnit.outputDir "out") (c.className ++ ".java")) ∧
        FileSystem.Writes (stockUnit.outputDir "out") out stockFiles
          (stockFiles.generate stockUnit "out" false).after ∧
        repeatWarnings out = [.classRepeated "StoresController" "/stores"] := by
  have hreport : (stockFiles.generate stockUnit "out" false).outcome = .ok stockReport := by
    decide +kernel
  have hevents : warnings (stockFiles.generate stockUnit "out" false).events =
      [.classRepeated "StoresController" "/stores"] := by
    decide +kernel
  obtain ⟨out, hout, -, hfiles, hwrites, hwarnings, -⟩ := FileSystem.generate_writes hreport
  exact ⟨hreport, out, hout, hfiles, hwrites, hwarnings.symm.trans hevents⟩

end ResourceStubs
