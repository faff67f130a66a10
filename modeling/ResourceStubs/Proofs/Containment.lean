import ResourceStubs.Proofs.Cutting
import ResourceStubs.Proofs.FailedGeneration

/-!
# Staying beneath the output root

The output directory of a unit is its root joined with the segments of the package name, and the
package name may be any text. Two facts decide where this leads.

* A segment has no dot, since the package name is split at its dots. So no segment names a parent
  directory, and from the place of the root the way only leads down (`FileSystem.walk_eq_append`).
* Joining an absolute path forgets what it is joined to. So a segment that starts with a slash
  leaves the root, and it is the only thing that does.

`FileSystem.generate_staysBeneath_iff` puts both together: the units that stay beneath every root,
with their paths and with all they change, are the units without an absolute segment.
-/

namespace ResourceStubs

/-! ## Components of joined paths -/

namespace Path

/-- The path is the root itself or lies beneath it. -/
def IsBeneath (root path : String) : Prop :=
  components root <+: components path

lemma isBeneath_join {base path : String} (h : isAbsolute path = false) :
    IsBeneath base (join base path) := by
  by_cases hbase : base = ""
  · subst hbase
    exact List.nil_prefix
  · have hstart : isAbsolute base = true ∨
        (names base ++ names path).head? = (names base).head? := by
      cases habsolute : isAbsolute base with
      | true => exact .inl rfl
      | false =>
        have hnames : names base ≠ [] := fun hnil => hbase (eq_empty_of_names_eq_nil hnil habsolute)
        exact .inr (List.head?_append_of_ne_nil _ hnames)
    unfold IsBeneath components
    rw [isAbsolute_join_of_relative h, names_join_of_relative h]
    dsimp only
    rcases hstart with hstart | hstart
    · rw [if_pos hstart, if_pos hstart, List.filterMap_append, ← List.append_assoc]
      exact List.prefix_append _ _
    · rw [hstart, List.filterMap_append, ← List.append_assoc]
      exact List.prefix_append _ _

lemma isBeneath_foldl_join {segments : List String}
    (h : ∀ segment ∈ segments, isAbsolute segment = false) (root : String) :
    IsBeneath root (segments.foldl join root) := by
  induction segments generalizing root with
  | nil => exact List.prefix_rfl
  | cons segment rest ih =>
    have hfirst : IsBeneath root (join root segment) :=
      isBeneath_join (h segment List.mem_cons_self)
    have hrest := ih (fun s hs => h s (List.mem_cons_of_mem segment hs)) (join root segment)
    exact hfirst.trans hrest

lemma isAbsolute_foldl_join {segments : List String}
    (h : ∀ segment ∈ segments, isAbsolute segment = false) (root : String) :
    isAbsolute (segments.foldl join root) = isAbsolute root := by
  induction segments generalizing root with
  | nil => rfl
  | cons segment rest ih =>
    rw [List.foldl_cons, ih fun s hs => h s (List.mem_cons_of_mem segment hs)]
    exact isAbsolute_join_of_relative (h segment List.mem_cons_self)

lemma names_foldl_join {segments : List String}
    (h : ∀ segment ∈ segments, isAbsolute segment = false) (root : String) :
    names (segments.foldl join root) = names root ++ segments.flatMap names := by
  induction segments generalizing root with
  | nil => simp
  | cons segment rest ih =>
    rw [List.foldl_cons, ih fun s hs => h s (List.mem_cons_of_mem segment hs),
      names_join_of_relative (h segment List.mem_cons_self), List.flatMap_cons, List.append_assoc]

lemma isAbsolute_foldl_join_of_isAbsolute {base : String} (h : isAbsolute base = true)
    (segments : List String) :
    isAbsolute (segments.foldl join base) = true := by
  induction segments generalizing base with
  | nil => exact h
  | cons segment rest ih =>
    rw [List.foldl_cons]
    apply ih
    cases hsegment : isAbsolute segment with
    | true => rw [join, if_pos hsegment, hsegment]
    | false => rw [isAbsolute_join_of_relative hsegment, h]

/-- One absolute segment makes the whole path absolute, whatever it is joined to. -/
lemma isAbsolute_foldl_join_of_mem {segments : List String} {segment : String}
    (hmem : segment ∈ segments) (h : isAbsolute segment = true) (root : String) :
    isAbsolute (segments.foldl join root) = true := by
  obtain ⟨before, rest, rfl⟩ := List.append_of_mem hmem
  rw [List.foldl_append, List.foldl_cons, join, if_pos h]
  exact isAbsolute_foldl_join_of_isAbsolute h rest

lemma not_isBeneath_of_isAbsolute {path : String} (h : isAbsolute path = true) :
    ¬IsBeneath "out" path := by
  intro hbeneath
  have hout : components "out" = [.name "out"] := by decide +kernel
  rw [IsBeneath, hout, components, if_pos h] at hbeneath
  cases (List.cons_prefix_cons.1 hbeneath).1

end Path

/-! ## Segments of package names -/

lemma Path.mem_of_mem_names {path name : String} (hname : name ∈ names path) {c : Char}
    (hc : c ∈ name.toList) :
    c ∈ path.toList := by
  obtain ⟨part, hpart, rfl⟩ := List.mem_map.1 hname
  rw [String.toList_ofList] at hc
  exact (mem_and_ne_of_mem_splitOn (List.mem_of_mem_filter hpart) hc).1

/-- The segments below the root: none for a blank package name. -/
def CompilationUnit.segments (u : CompilationUnit) : List String :=
  if u.packageName.isEmpty then [] else packageSegments u.packageName

lemma CompilationUnit.outputDir_eq (u : CompilationUnit) (root : String) :
    u.outputDir root = u.segments.foldl Path.join root := by
  unfold outputDir segments
  split <;> rfl

/-- No name in a segment stands for a directory by itself. -/
lemma CompilationUnit.isDots_eq_false {u : CompilationUnit} {segment name : String}
    (hsegment : segment ∈ u.segments) (hname : name ∈ Path.names segment) :
    FileSystem.isDots name = false := by
  have hnoDot : '.' ∉ segment.toList := by
    unfold segments at hsegment
    split at hsegment
    · cases hsegment
    · obtain ⟨part, hpart, rfl⟩ := List.mem_map.1 hsegment
      intro hdot
      rw [String.toList_ofList] at hdot
      exact (mem_and_ne_of_mem_splitOn hpart hdot).2 rfl
  have hfree : '.' ∉ name.toList := fun hdot => hnoDot (Path.mem_of_mem_names hname hdot)
  have hdot : name ≠ "." := by
    rintro rfl
    exact hfree (by decide)
  have hdots : name ≠ ".." := by
    rintro rfl
    exact hfree (by decide)
  simp [FileSystem.isDots, hdot, hdots]

/-! ## Places beneath the root -/

namespace FileSystem

variable {fs after : FileSystem} {root dir : String}

/-- Names that stand for entries only lead down. -/
lemma walk_eq_append {here l : Location} {names : List String}
    (hplain : ∀ name ∈ names, isDots name = false) (h : fs.walk here names = .ok l) :
    l = here ++ names := by
  induction names generalizing here with
  | nil =>
    obtain rfl : here = l := Except.ok.inj h
    simp
  | cons name rest ih =>
    rw [← List.singleton_append, walk_append, bind_eq_ok_iff] at h
    obtain ⟨next, hfirst, hrest⟩ := h
    obtain ⟨-, -, -, rfl⟩ := (walk_singleton_eq_ok_iff (hplain name List.mem_cons_self)).1 hfirst
    rw [ih (fun n hn => hplain n (List.mem_cons_of_mem name hn)) hrest, List.append_assoc,
      List.singleton_append]

/-- The root leads to a place at or above the location. -/
def LiesBelow (fs : FileSystem) (root : String) (location : Location) : Prop :=
  ∃ place, fs.LeadsTo root place ∧ place <+: location

/-- The directory is reached from the root by going down only. -/
structure ExtendsDown (root dir : String) : Prop where
  absolute : Path.isAbsolute dir = Path.isAbsolute root
  names : ∃ more, Path.names dir = Path.names root ++ more ∧ ∀ name ∈ more, isDots name = false

lemma ExtendsDown.startOf (h : ExtendsDown root dir) (fs : FileSystem) :
    fs.startOf (.ofPath dir) = fs.startOf (.ofPath root) := by
  unfold FileSystem.startOf Walk.ofPath
  rw [h.absolute]

lemma ExtendsDown.liesBelow_of_walk {more : List String} {l : Location}
    (hplain : ∀ name ∈ more, isDots name = false)
    (h : fs.walk (fs.startOf (.ofPath root)) (Path.names root ++ more) = .ok l) :
    fs.LiesBelow root l := by
  rw [walk_append, bind_eq_ok_iff] at h
  obtain ⟨place, hplace, hmore⟩ := h
  refine ⟨place, hplace, ?_⟩
  rw [walk_eq_append hplain hmore]
  exact List.prefix_append _ _

lemma ExtendsDown.liesBelow (h : ExtendsDown root dir) {l : Location} (hl : fs.LeadsTo dir l) :
    fs.LiesBelow root l := by
  obtain ⟨more, hnames, hplain⟩ := h.names
  rw [LeadsTo, h.startOf, hnames] at hl
  exact liesBelow_of_walk hplain hl

/-- What is on the way to the directory is on the way to the root or below it. -/
lemma ExtendsDown.onTheWay (h : ExtendsDown root dir) {l : Location}
    (hl : fs.OnTheWay (.ofPath dir) l) :
    fs.OnTheWay (.ofPath root) l ∨ fs.LiesBelow root l := by
  obtain ⟨names, hne, hprefix, hwalk⟩ := hl
  obtain ⟨more, hnames, hplain⟩ := h.names
  have hprefix' : names <+: Path.names root ++ more := by
    rw [← hnames]
    exact hprefix
  rw [h.startOf] at hwalk
  rcases List.prefix_or_prefix_of_prefix hprefix' (List.prefix_append _ _) with hshort | ⟨rest, rfl⟩
  · exact .inl ⟨names, hne, hshort, hwalk⟩
  · have hrest : rest <+: more := (List.prefix_append_right_inj _).1 hprefix'
    exact .inr (liesBelow_of_walk (fun name hname => hplain name (hrest.subset hname)) hwalk)

/-! ## What a generation changes -/

/-- The state after any generation, failed or not: nothing was touched, the output directory could
not be created, or it was created and some first classes were written. -/
lemma generate_after (fs : FileSystem) (u : CompilationUnit) (root : String) (dryRun : Bool) :
    (fs.generate u root dryRun).after = fs ∨
      (fs.generate u root dryRun).after = (fs.createDirs (u.outputDir root)).after ∨
      ∃ out written, u.controllers = .ok out ∧ written <+: out ∧
        (fs.createDirs (u.outputDir root)).outcome = .ok () ∧
        (fs.createDirs (u.outputDir root)).after.writeControllers (u.outputDir root) written =
          .ok (fs.generate u root dryRun).after := by
  cases houtcome : (fs.generate u root dryRun).outcome with
  | error failure =>
    rcases generate_eq_error houtcome with ⟨e, -, -, hafter⟩ |
      ⟨-, ⟨e, -, -, hafter, -⟩ | ⟨k, hwriting⟩⟩
    · exact .inl hafter
    · exact .inr (.inl hafter)
    · obtain ⟨out, c, hout, -, hok, ⟨d, e, -, hwritten, -⟩, -⟩ := hwriting
      exact .inr (.inr ⟨out, out.take k, hout, List.take_prefix k out, hok, hwritten⟩)
  | ok report =>
    obtain ⟨out, hout, -, hcompletes, -⟩ := generate_eq_ok houtcome
    rw [generationPlan] at hcompletes
    cases dryRun with
    | true =>
      have hsteps := completes_controllersSteps_dryRun fs (u.outputDir root) [] out
      obtain ⟨between, hbetween, hlast⟩ := completes_append.1 hcompletes
      have hsame : between = fs := hbetween.2.symm.trans hsteps.2
      exact .inl (by simpa [hsame] using hlast)
    | false =>
      obtain ⟨hok, hsteps⟩ : (fs.createDirs (u.outputDir root)).outcome = .ok () ∧
          (fs.createDirs (u.outputDir root)).after.Completes
            (controllersSteps (u.outputDir root) false [] out)
            (fs.generate u root false).after := by
        simpa [completes_append] using hcompletes
      exact .inr (.inr ⟨out, out, hout, List.prefix_rfl, hok,
        completes_controllersSteps_iff.1 hsteps⟩)

/-- A location that a generation changes is a new directory on the way to the output directory, or
the file of a class directly inside it. -/
lemma generate_changes {u : CompilationUnit} {dryRun : Bool} {l : Location}
    (hafter : (fs.generate u root dryRun).after = after) (hl : after.get l ≠ fs.get l) :
    (after.get l = some .dir ∧ after.OnTheWay (.ofPath (u.outputDir root)) l) ∨
      ∃ here name, after.LeadsTo (u.outputDir root) here ∧ l = here ++ [name] := by
  subst hafter
  have hadds := createDirs_addsDirs fs (u.outputDir root)
  rcases generate_after fs u root dryRun with hsame | hcreated |
    ⟨out, written, hout, hwritten, hok, hsteps⟩
  · rw [hsame] at hl
    exact absurd rfl hl
  · rw [hcreated] at hl ⊢
    rcases hadds.get l with hsame | ⟨-, hdir, hway⟩
    · exact absurd hsame hl
    · exact .inl ⟨hdir, hway⟩
  · obtain ⟨here, hhere⟩ := createDirs_leadsTo hok
    have hname : ∀ c ∈ written, Path.IsEntryName c.fileName := by
      intro c hc
      exact u.isEntryName_fileName hout (hwritten.subset hc)
    have hcompletes : Completes _ (controllersSteps (u.outputDir root) false [] written) _ :=
      completes_controllersSteps_iff.2 hsteps
    obtain ⟨hentries, hretains, -⟩ := completes_controllersSteps hname hhere hcompletes
    have hcases := get_writeEntries_cases here (fs.createDirs (u.outputDir root)).after written l
    rw [← hentries] at hcases
    rcases hcases with ⟨c, -, hlocation, -⟩ | hkept
    · exact .inr ⟨here, c.fileName, hretains.leadsTo hhere, hlocation⟩
    · rcases hadds.get l with hsame | ⟨-, hdir, hway⟩
      · exact absurd (hkept.trans hsame) hl
      · exact .inl ⟨hkept.trans hdir, hretains.onTheWay hway⟩

/-- A generation stays beneath its root: by the names it gives to the output directory and to the
files, and by what it changes. Directories that are missing on the way to the root itself may be
created. -/
structure StaysBeneath (fs : FileSystem) (u : CompilationUnit) (root : String) (dryRun : Bool) :
    Prop where
  outputDir : Path.IsBeneath root (u.outputDir root)
  files : ∀ report, (fs.generate u root dryRun).outcome = .ok report →
    Path.IsBeneath root report.outputDir ∧ ∀ file ∈ report.files, Path.IsBeneath root file
  changes : ∀ l, (fs.generate u root dryRun).after.get l ≠ fs.get l →
    (fs.generate u root dryRun).after.LiesBelow root l ∨
      (fs.generate u root dryRun).after.get l = some .dir ∧
        (fs.generate u root dryRun).after.OnTheWay (.ofPath root) l

lemma extendsDown_outputDir {u : CompilationUnit}
    (h : ∀ segment ∈ u.segments, Path.isAbsolute segment = false) (root : String) :
    ExtendsDown root (u.outputDir root) where
  absolute := by rw [u.outputDir_eq, Path.isAbsolute_foldl_join h]
  names := by
    refine ⟨u.segments.flatMap Path.names, by rw [u.outputDir_eq, Path.names_foldl_join h], ?_⟩
    intro name hname
    obtain ⟨segment, hsegment, hname⟩ := List.mem_flatMap.1 hname
    exact u.isDots_eq_false hsegment hname

lemma staysBeneath_of_relative {u : CompilationUnit}
    (h : ∀ segment ∈ u.segments, Path.isAbsolute segment = false) (fs : FileSystem) (root : String)
    (dryRun : Bool) : StaysBeneath fs u root dryRun := by
  have hdir : Path.IsBeneath root (u.outputDir root) := by
    rw [u.outputDir_eq]
    exact Path.isBeneath_foldl_join h root
  have hdown := extendsDown_outputDir h root
  refine ⟨hdir, ?_, ?_⟩
  · intro report hreport
    obtain ⟨out, hout, rfl, -, -⟩ := generate_eq_ok hreport
    simp only [generationReport]
    refine ⟨hdir, ?_⟩
    intro file hfile
    obtain ⟨c, hc, rfl⟩ := List.mem_map.1 hfile
    exact hdir.trans (Path.isBeneath_join (u.isEntryName_fileName hout hc).isAbsolute_eq_false)
  · intro l hl
    rcases generate_changes rfl hl with ⟨hnew, hway⟩ | ⟨here, name, hhere, rfl⟩
    · rcases hdown.onTheWay hway with hroot | hbelow
      · exact .inr ⟨hnew, hroot⟩
      · exact .inl hbelow
    · obtain ⟨place, hplace, hprefix⟩ := hdown.liesBelow hhere
      exact .inl ⟨place, hplace, hprefix.trans (List.prefix_append _ _)⟩

end FileSystem

/-- The units that stay beneath every root are the ones without an absolute package segment. -/
theorem FileSystem.generate_staysBeneath_iff (u : CompilationUnit) :
    (∀ fs root dryRun, StaysBeneath fs u root dryRun) ↔
      ∀ segment ∈ u.segments, Path.isAbsolute segment = false := by
  constructor
  · intro h segment hsegment
    by_contra habsolute
    have hdir : Path.isAbsolute (u.outputDir "out") = true := by
      rw [u.outputDir_eq]
      exact Path.isAbsolute_foldl_join_of_mem hsegment (eq_true_of_ne_false habsolute) "out"
    exact Path.not_isBeneath_of_isAbsolute hdir (h {} "out" true).outputDir
  · exact staysBeneath_of_relative

/-- A unit whose package name has an absolute segment. -/
def absoluteUnit : CompilationUnit where
  package := some "a./etc.b"
  resources := [.mk "/ping" [] [] []]

/-- The directory and the file of the unit stand outside the root, which is not even created. -/
theorem outputDir_absoluteUnit :
    absoluteUnit.outputDir "gen" = "/etc/b" ∧ ¬Path.IsBeneath "gen" (absoluteUnit.outputDir "gen") ∧
      let fs : FileSystem := { entries := [(["home"], .dir)], workingDir := ["home"] }
      (fs.generate absoluteUnit "gen" false).after.get ["home", "gen"] = none ∧
        ((fs.generate absoluteUnit "gen" false).after.get
          ["etc", "b", "PingController.java"]).isSome = true := by
  unfold Path.IsBeneath
  decide +kernel

end ResourceStubs
