import ResourceStubs.Proofs.Generation

/-!
# Generating again

A generation that succeeded can be repeated. That the second run succeeds is derived from what the
first one left behind: its output directory is there, and every file of a class can be written again
(`FileSystem.Ready`). What the second run writes is what the first one wrote, class by class, so
repeated classes end with the same last writer.

The second run may also start from a state in which somebody has overwritten or deleted generated
files (`FileSystem.Disturbed`). Such a state differs from the first result at locations of generated
files only, and no directory is lost or gained (`FileSystem.DiffersInFiles`). Paths are followed
through directories, so they still lead where they led, and the second run sets exactly the
locations that may differ.

A deleted file that is written again is added at the end of the list of entries. States are
therefore compared location by location after a disturbance (`FileSystem.Same`). Without one, the
second run leaves the very same state.
-/

namespace ResourceStubs

/-! ## Entries that are set again -/

section Entries

variable {l m : Location} {entry other : Entry} {entries : List (Location × Entry)}

lemma setEntry_cons_self (l : Location) (entry other : Entry) (entries : List (Location × Entry)) :
    setEntry l entry ((l, other) :: entries) = (l, entry) :: entries := by
  rw [setEntry, if_pos rfl]

lemma setEntry_cons_of_ne (h : m ≠ l) (entry other : Entry) (entries : List (Location × Entry)) :
    setEntry l entry ((m, other) :: entries) = (m, other) :: setEntry l entry entries := by
  rw [setEntry, if_neg h]

/-- Setting an entry to what it is changes nothing. -/
lemma setEntry_of_lookup (h : entries.lookup l = some entry) :
    setEntry l entry entries = entries := by
  induction entries with
  | nil => cases h
  | cons p rest ih =>
    obtain ⟨m, other⟩ := p
    by_cases hm : m = l
    · subst hm
      obtain rfl : other = entry := by simpa using h
      exact setEntry_cons_self _ _ _ _
    · have hrest : rest.lookup l = some entry := by
        simpa [List.lookup_cons, beq_false_of_ne (Ne.symm hm)] using h
      rw [setEntry_cons_of_ne hm, ih hrest]

/-- Of two settings of one entry the later one counts. -/
lemma setEntry_setEntry (l : Location) (entry other : Entry) (entries : List (Location × Entry)) :
    setEntry l entry (setEntry l other entries) = setEntry l entry entries := by
  induction entries with
  | nil => exact setEntry_cons_self _ _ _ _
  | cons p rest ih =>
    obtain ⟨m, old⟩ := p
    by_cases hm : m = l
    · subst hm
      rw [setEntry_cons_self, setEntry_cons_self, setEntry_cons_self]
    · rw [setEntry_cons_of_ne hm, setEntry_cons_of_ne hm, setEntry_cons_of_ne hm, ih]

/-- Settings of different entries commute, provided that the later one adds nothing to the list. -/
lemma setEntry_comm (hne : l ≠ m) (hm : (entries.lookup m).isSome) (entry other : Entry) :
    setEntry l entry (setEntry m other entries) = setEntry m other (setEntry l entry entries) := by
  induction entries with
  | nil => cases hm
  | cons p rest ih =>
    obtain ⟨k, old⟩ := p
    by_cases hkm : k = m
    · subst hkm
      rw [setEntry_cons_self, setEntry_cons_of_ne (Ne.symm hne), setEntry_cons_of_ne (Ne.symm hne),
        setEntry_cons_self]
    · have hrest : (rest.lookup m).isSome := by
        simpa [List.lookup_cons, beq_false_of_ne (Ne.symm hkm)] using hm
      by_cases hkl : k = l
      · subst hkl
        rw [setEntry_cons_of_ne hkm, setEntry_cons_self, setEntry_cons_self,
          setEntry_cons_of_ne hkm]
      · rw [setEntry_cons_of_ne hkm, setEntry_cons_of_ne hkl, setEntry_cons_of_ne hkl,
          setEntry_cons_of_ne hkm, ih hrest]

end Entries

namespace FileSystem

variable {fs other after : FileSystem} {dir : String} {here : Location} {out : List Controller}

lemma set_of_get {l : Location} {entry : Entry} (hl : l ≠ []) (h : fs.get l = some entry) :
    fs.set l entry = fs := by
  rw [get, if_neg hl] at h
  rw [set, setEntry_of_lookup h]

lemma set_set (fs : FileSystem) (l : Location) (entry old : Entry) :
    (fs.set l old).set l entry = fs.set l entry := by
  simp only [set, setEntry_setEntry]

lemma set_comm {l m : Location} (hne : l ≠ m) (hm : m ≠ []) (hsome : (fs.get m).isSome)
    (entry old : Entry) :
    (fs.set m old).set l entry = (fs.set l entry).set m old := by
  rw [get, if_neg hm] at hsome
  simp only [set, setEntry_comm hne hsome]

/-! ## Classes that are written again -/

lemma get_writeEntries_of_not_mem {l : Location} (h : ∀ c ∈ out, l ≠ here ++ [c.fileName]) :
    (writeEntries here fs out).get l = fs.get l := by
  rcases get_writeEntries_cases here fs out l with ⟨c, hc, hl, -⟩ | hsame
  · exact absurd hl (h c hc)
  · exact hsame

/-- What stood in the file of a class before does not matter. -/
lemma writeEntries_set_of_mem {c : Controller} (hc : c ∈ out)
    (hsome : (fs.get (here ++ [c.fileName])).isSome) (entry : Entry) :
    writeEntries here (fs.set (here ++ [c.fileName]) entry) out = writeEntries here fs out := by
  induction out generalizing fs with
  | nil => cases hc
  | cons d rest ih =>
    have hcons (fs : FileSystem) :
        writeEntries here fs (d :: rest) =
          writeEntries here (fs.set (here ++ [d.fileName]) (.file d.source)) rest := rfl
    rw [hcons, hcons]
    by_cases hd : d.fileName = c.fileName
    · rw [hd, set_set]
    · have hne : here ++ [d.fileName] ≠ here ++ [c.fileName] := by simpa using hd
      have hrest : c ∈ rest := by
        rcases List.mem_cons.1 hc with rfl | hrest
        · exact absurd rfl hd
        · exact hrest
      rw [set_comm hne (by simp) hsome, ih hrest (by rwa [get_set_of_ne _ (Ne.symm hne)])]

/-- Writing classes to files that hold them already does not change the state. -/
lemma writeEntries_eq_self (h : ∀ l, (writeEntries here fs out).get l = fs.get l) :
    writeEntries here fs out = fs := by
  induction out with
  | nil => rfl
  | cons c rest ih =>
    obtain ⟨d, -, hd⟩ : ∃ d, IsLastNamed c.className (c :: rest) d ∧
        (writeEntries here fs (c :: rest)).get (here ++ [c.fileName]) = some (.file d.source) :=
      get_writeEntries_of_mem List.mem_cons_self
    have hholds : fs.get (here ++ [c.fileName]) = some (.file d.source) := (h _).symm.trans hd
    -- the first class is written again later, or it is the one that its file holds already
    have hfirst : writeEntries here fs (c :: rest) = writeEntries here fs rest := by
      by_cases hlater : ∃ e ∈ rest, e.fileName = c.fileName
      · obtain ⟨e, he, hname⟩ := hlater
        rw [← hname] at hholds
        change writeEntries here (fs.set (here ++ [c.fileName]) (.file c.source)) rest = _
        rw [← hname, writeEntries_set_of_mem he (by simp [hholds])]
      · have hlast : ∀ e ∈ rest, here ++ [c.fileName] ≠ here ++ [e.fileName] := by
          intro e he hloc
          exact hlater ⟨e, he, by simpa using hloc.symm⟩
        have hget : fs.get (here ++ [c.fileName]) = some (.file c.source) := by
          rw [← h]
          exact (get_writeEntries_of_not_mem hlast).trans (get_set_self fs (by simp) _)
        change writeEntries here (fs.set (here ++ [c.fileName]) (.file c.source)) rest = _
        rw [set_of_get (by simp) hget]
    rw [hfirst] at h ⊢
    exact ih h

lemma get_writeEntries_congr
    (h : ∀ l, (∀ c ∈ out, l ≠ here ++ [c.fileName]) → other.get l = fs.get l) (l : Location) :
    (writeEntries here other out).get l = (writeEntries here fs out).get l := by
  rw [get_writeEntries, get_writeEntries]
  cases hfind : out.reverse.find? fun c => here ++ [c.fileName] = l with
  | some c => rfl
  | none =>
    refine h l fun c hc hl => ?_
    exact List.find?_eq_none.1 hfind c (List.mem_reverse.2 hc) (by simp [hl])

lemma writeEntries_writeEntries (here : Location) (fs : FileSystem) (out : List Controller) :
    writeEntries here (writeEntries here fs out) out = writeEntries here fs out := by
  refine writeEntries_eq_self fun l => ?_
  exact get_writeEntries_congr (fun l hl => get_writeEntries_of_not_mem hl) l

/-! ## States from which a generation succeeds -/

/-- The directory is there, and the classes can be written to entries of it. -/
structure Ready (fs : FileSystem) (dir : String) (here : Location) (out : List Controller) :
    Prop where
  leadsTo : fs.LeadsTo dir here
  usable : dir = "" ∨ checkPath dir = .ok () ∧ fs.get here = some .dir
  isDir : ∀ c ∈ out, fs.get here = some .dir
  checked : ∀ c ∈ out, checkPath (c.path dir) = .ok ()
  short : ∀ c ∈ out, c.fileName.utf8ByteSize ≤ nameLimit
  free : ∀ c ∈ out, fs.get (here ++ [c.fileName]) ≠ some .dir

lemma createDirAt_of_isDirAt {walk : Walk} (h : fs.isDirAt walk = true) :
    fs.createDirAt walk = .error .alreadyExists := by
  obtain ⟨l, hwalk, -⟩ := isDirAt_iff.1 h
  rw [createDirAt]
  rcases List.eq_nil_or_concat' walk.names with hnil | ⟨init, name, hnames⟩
  · have hparent : fs.parentOf walk = .ok none := by
      simp [parentOf, hnil]
    rw [hparent]
    rfl
  · rw [hnames, walk_append] at hwalk
    obtain ⟨here, hinit, hlast⟩ := bind_eq_ok_iff.1 hwalk
    have hdir : fs.get here = some .dir := by
      rw [FileSystem.walk] at hlast
      split at hlast
      · assumption
      · cases hlast
    have hparent : fs.parentOf walk = .ok (some (here, name)) :=
      parentOf_eq_ok_some_iff.2 ⟨init, hnames, hinit, hdir⟩
    rw [hparent]
    cases hdots : isDots name with
    | true => simp [bind, Except.bind, hdots, throw, throwThe, MonadExceptOf.throw]
    | false =>
      obtain ⟨-, hsize, hsome, -⟩ := (walk_singleton_eq_ok_iff hdots).1 hlast
      simp [bind, Except.bind, hdots, Nat.not_lt.2 hsize, hsome, throw, throwThe,
        MonadExceptOf.throw]

/-- Creating a directory that is there does nothing. -/
lemma Ready.createDirs_eq (h : fs.Ready dir here out) : fs.createDirs dir = ⟨fs, .ok ()⟩ := by
  rw [createDirs]
  rcases h.usable with rfl | ⟨hcheck, hdir⟩
  · rfl
  · split
    · rfl
    · have hisDir : fs.isDirAt (.ofPath dir) = true := isDirAt_iff.2 ⟨here, h.leadsTo, hdir⟩
      simp only [hcheck, createDirsAt, createDirAt_of_isDirAt hisDir, hisDir, if_true]
      split <;> rfl

lemma Ready.writeFile_eq {c : Controller} (h : fs.Ready dir here out) (hc : c ∈ out)
    (hname : Path.IsEntryName c.fileName) :
    fs.writeFile (c.path dir) c.source = .ok (fs.set (here ++ [c.fileName]) (.file c.source)) := by
  have habsolute : (Walk.ofPath (c.path dir)).absolute = (Walk.ofPath dir).absolute :=
    Path.isAbsolute_join hname
  have hparent : fs.parentOf (.ofPath (c.path dir)) = .ok (some (here, c.fileName)) := by
    refine parentOf_eq_ok_some_iff.2 ⟨Path.names dir, Path.names_join hname, ?_, h.isDir c hc⟩
    rw [startOf, habsolute, ← startOf]
    exact h.leadsTo
  have hdots : isDots c.fileName = false := by simp [isDots, hname.notDot, hname.notDots]
  have hslash : (Walk.ofPath (c.path dir)).slash = false := Path.endsWithSlash_join hname
  rw [writeFile, h.checked c hc]
  simp only [bind, Except.bind, hparent, hdots, hslash, Bool.or_self, Bool.false_eq_true, if_false,
    Nat.not_lt.2 (h.short c hc), h.free c hc]
  rfl

lemma Ready.set {c : Controller} (h : fs.Ready dir here out) (hc : c ∈ out) (entry : String) :
    (fs.set (here ++ [c.fileName]) (.file entry)).Ready dir here out := by
  have hretains := retains_set_file (by simp) (h.free c hc) entry
  refine ⟨hretains.leadsTo h.leadsTo, ?_, fun d hd => hretains.dir _ (h.isDir d hd), h.checked,
    h.short, fun d hd => ?_⟩
  · exact h.usable.imp_right fun husable => ⟨husable.1, hretains.dir _ husable.2⟩
  · by_cases hloc : here ++ [d.fileName] = here ++ [c.fileName]
    · rw [hloc, get_set_self _ (by simp)]
      simp
    · rw [get_set_of_ne _ hloc]
      exact h.free d hd

lemma Ready.of_subset {out' : List Controller} (h : fs.Ready dir here out)
    (hsub : ∀ c ∈ out', c ∈ out) :
    fs.Ready dir here out' where
  leadsTo := h.leadsTo
  usable := h.usable
  isDir c hc := h.isDir c (hsub c hc)
  checked c hc := h.checked c (hsub c hc)
  short c hc := h.short c (hsub c hc)
  free c hc := h.free c (hsub c hc)

lemma Ready.completes_controllersSteps (h : fs.Ready dir here out)
    (hname : ∀ c ∈ out, Path.IsEntryName c.fileName) (seen : List String) :
    fs.Completes (controllersSteps dir false seen out) (writeEntries here fs out) := by
  induction out generalizing fs seen with
  | nil => exact completes_nil.2 rfl
  | cons c rest ih =>
    have hwrite := h.writeFile_eq List.mem_cons_self (hname c List.mem_cons_self)
    have hready := (h.set List.mem_cons_self c.source).of_subset fun d hd =>
      List.mem_cons_of_mem c hd
    have hrest := ih hready (fun d hd => hname d (List.mem_cons_of_mem c hd)) (c.className :: seen)
    exact completes_controllersSteps_cons.2 ⟨_, hwrite, hrest⟩

lemma Ready.completes (h : fs.Ready dir here out) (hname : ∀ c ∈ out, Path.IsEntryName c.fileName) :
    fs.Completes (generationPlan dir false out) (writeEntries here fs out) := by
  have hsteps := h.completes_controllersSteps hname []
  simpa [generationPlan, completes_append, h.createDirs_eq] using hsteps

lemma checkPath_of_createDirs {path : String} (hpath : path ≠ "")
    (h : (fs.createDirs path).outcome = .ok ()) :
    checkPath path = .ok () := by
  have hne : ¬path.isEmpty = true := by simpa using hpath
  rw [createDirs, if_neg hne] at h
  split at h
  · cases h
  · assumption

/-- A generation that came to its end leaves a state from which it can start again. -/
lemma Completes.ready (hname : ∀ c ∈ out, Path.IsEntryName c.fileName)
    (h : fs.Completes (generationPlan dir false out) after) :
    ∃ here start, after = writeEntries here start out ∧ after.Ready dir here out := by
  obtain ⟨hdir, hsteps⟩ : (fs.createDirs dir).outcome = .ok () ∧
      (fs.createDirs dir).after.Completes (controllersSteps dir false [] out) after := by
    simpa [generationPlan, completes_append] using h
  obtain ⟨here, hhere⟩ := createDirs_leadsTo hdir
  obtain ⟨hafter, hretains, hfiles⟩ := FileSystem.completes_controllersSteps hname hhere hsteps
  have hleads := hretains.leadsTo hhere
  have hentry (c : Controller) (hc : c ∈ out) :=
    (leadsTo_join_iff (hname c hc) hleads).1 (hfiles c hc).2
  refine ⟨here, (fs.createDirs dir).after, hafter, hleads, ?_, fun c hc => (hentry c hc).1,
    fun c hc => (hfiles c hc).1,
    fun c hc => (hentry c hc).2.1, fun c hc => ?_⟩
  · by_cases hempty : dir = ""
    · exact .inl hempty
    · obtain ⟨l, hl, hget⟩ := isDirAt_iff.1 (createDirs_isDirAt hempty hdir)
      obtain rfl : l = here := Except.ok.inj (hl.symm.trans hhere)
      exact .inr ⟨checkPath_of_createDirs hempty hdir, hretains.dir _ hget⟩
  · obtain ⟨d, -, hget⟩ : ∃ d, IsLastNamed c.className out d ∧
        (writeEntries here (fs.createDirs dir).after out).get (here ++ [c.fileName]) =
          some (.file d.source) :=
      get_writeEntries_of_mem hc
    rw [hafter, hget]
    simp

/-! ## Disturbances -/

/-- Some of the files were overwritten or deleted, any number of times and in any order. -/
inductive Disturbed (files : List String) (fs : FileSystem) : FileSystem → Prop where
  | undisturbed : Disturbed files fs fs
  | overwritten {between after : FileSystem} {path text : String}
      (earlier : Disturbed files fs between) (hpath : path ∈ files)
      (hwrite : between.writeFile path text = .ok after) : Disturbed files fs after
  | deleted {between after : FileSystem} {path : String} (earlier : Disturbed files fs between)
      (hpath : path ∈ files) (hremove : between.removeFile path = .ok after) :
        Disturbed files fs after

/-- The states have the same entry at every location. -/
structure Same (fs other : FileSystem) : Prop where
  workingDir : fs.workingDir = other.workingDir
  get : ∀ l, fs.get l = other.get l

/-- The states differ at the given locations at most, and neither has a directory where they
differ. -/
structure DiffersInFiles (P : Location → Prop) (fs other : FileSystem) : Prop where
  workingDir : other.workingDir = fs.workingDir
  get : ∀ l, other.get l = fs.get l ∨ P l ∧ fs.get l ≠ some .dir ∧ other.get l ≠ some .dir

section Disturbances

variable {P : Location → Prop}

lemma DiffersInFiles.refl (P : Location → Prop) (fs : FileSystem) : DiffersInFiles P fs fs :=
  ⟨rfl, fun _ => .inl rfl⟩

lemma DiffersInFiles.get_eq_dir_iff (h : DiffersInFiles P fs other) (l : Location) :
    other.get l = some .dir ↔ fs.get l = some .dir := by
  rcases h.get l with hsame | ⟨-, hfs, hother⟩
  · rw [hsame]
  · exact iff_of_false hother hfs

lemma DiffersInFiles.trans (h : DiffersInFiles P fs other) (h' : DiffersInFiles P other after) :
    DiffersInFiles P fs after := by
  refine ⟨h'.workingDir.trans h.workingDir, fun l => ?_⟩
  rcases h'.get l with hsame' | ⟨hP, hother, hafter⟩
  · rw [hsame']
    exact h.get l
  · exact .inr ⟨hP, mt (h.get_eq_dir_iff l).2 hother, hafter⟩

lemma differsInFiles_set {l : Location} (hl : l ≠ []) (hP : P l) (hdir : fs.get l ≠ some .dir)
    (text : String) :
    DiffersInFiles P fs (fs.set l (.file text)) := by
  refine ⟨rfl, fun m => ?_⟩
  by_cases hm : m = l
  · subst hm
    exact .inr ⟨hP, hdir, by rw [get_set_self fs hl]; simp⟩
  · exact .inl (get_set_of_ne fs hm _)

lemma get_erase_self (fs : FileSystem) {l : Location} (hl : l ≠ []) :
    (fs.erase l).get l = none := by
  rw [get, if_neg hl, erase, List.lookup_eq_none_iff]
  intro p hp
  have hne : p.1 ≠ l := by simpa using (List.mem_filter.1 hp).2
  simpa using hne.symm

lemma get_erase_of_ne (fs : FileSystem) {l m : Location} (h : m ≠ l) :
    (fs.erase l).get m = fs.get m := by
  rw [get, get, erase]
  dsimp only
  congr 1
  induction fs.entries with
  | nil => rfl
  | cons p rest ih =>
    obtain ⟨k, entry⟩ := p
    by_cases hk : k = l
    · have hm : (m == k) = false := beq_false_of_ne (hk ▸ h)
      simp [hk ▸ hm, hk, ih, List.lookup_cons]
    · simp [hk, ih, List.lookup_cons]

lemma differsInFiles_erase {l : Location} (hl : l ≠ []) (hP : P l) (hdir : fs.get l ≠ some .dir) :
    DiffersInFiles P fs (fs.erase l) := by
  refine ⟨rfl, fun m => ?_⟩
  by_cases hm : m = l
  · subst hm
    exact .inr ⟨hP, hdir, by rw [get_erase_self fs hl]; simp⟩
  · exact .inl (get_erase_of_ne fs hm)

/-- A way to a directory starts at a directory. -/
lemma get_eq_dir_of_walk {start l : Location} {names : List String}
    (hwalk : fs.walk start names = .ok l) (hl : fs.get l = some .dir) :
    fs.get start = some .dir := by
  cases names with
  | nil => exact Except.ok.inj hwalk ▸ hl
  | cons name rest =>
    rw [walk] at hwalk
    split at hwalk
    · assumption
    · cases hwalk

/-- Ways to directories pass through directories only, so they do not depend on files. -/
lemma DiffersInFiles.walk (h : DiffersInFiles P fs other) {start l : Location} {names : List String}
    (hwalk : fs.walk start names = .ok l) (hl : fs.get l = some .dir) :
    other.walk start names = .ok l := by
  induction names generalizing start with
  | nil => exact hwalk
  | cons name rest ih =>
    have hstart := get_eq_dir_of_walk hwalk hl
    rw [FileSystem.walk, if_pos hstart] at hwalk
    rw [FileSystem.walk, if_pos ((h.get_eq_dir_iff _).2 hstart)]
    obtain ⟨next, hstep, hrest⟩ := bind_eq_ok_iff.1 hwalk
    have hnext : other.get next = some .dir :=
      (h.get_eq_dir_iff next).2 (get_eq_dir_of_walk hrest hl)
    refine bind_eq_ok_iff.2 ⟨next, ?_, ih hrest⟩
    rw [step_eq_ok_iff] at hstep ⊢
    rcases hstep with hdot | hdots | ⟨hplain, hsize, -, rfl⟩
    · exact .inl hdot
    · exact .inr (.inl hdots)
    · exact .inr (.inr ⟨hplain, hsize, by simp [hnext], rfl⟩)

lemma Ready.of_differsInFiles (h : fs.Ready dir here out) (hdiffers : DiffersInFiles P fs other) :
    other.Ready dir here out where
  leadsTo := by
    have hstart : other.startOf (.ofPath dir) = fs.startOf (.ofPath dir) := by
      rw [startOf, startOf, hdiffers.workingDir]
    rw [LeadsTo, hstart]
    rcases h.usable with rfl | ⟨-, hdir⟩
    · exact h.leadsTo
    · exact hdiffers.walk h.leadsTo hdir
  usable := h.usable.imp_right fun husable =>
    ⟨husable.1, (hdiffers.get_eq_dir_iff here).2 husable.2⟩
  isDir c hc := (hdiffers.get_eq_dir_iff here).2 (h.isDir c hc)
  checked := h.checked
  short := h.short
  free c hc := mt (hdiffers.get_eq_dir_iff _).1 (h.free c hc)

end Disturbances

lemma removeFile_eq_ok {path : String} (h : fs.removeFile path = .ok after) :
    ∃ l text, fs.LeadsTo path l ∧ fs.get l = some (.file text) ∧ after = fs.erase l := by
  obtain ⟨_, -, h⟩ := bind_eq_ok_iff.1 h
  obtain ⟨l, hl, h⟩ := bind_eq_ok_iff.1 h
  split at h
  · rename_i text hget
    cases h
    exact ⟨l, text, hl, hget, rfl⟩
  · cases h
  · cases h

/-- A disturbance of generated files concerns the entries of the classes only. -/
lemma Disturbed.differsInFiles {start disturbed : FileSystem}
    (h : Disturbed (out.map (·.path dir)) start disturbed)
    (hname : ∀ c ∈ out, Path.IsEntryName c.fileName) (hready : start.Ready dir here out) :
    DiffersInFiles (fun l => ∃ c ∈ out, l = here ++ [c.fileName]) start disturbed := by
  induction h with
  | undisturbed => exact .refl _ start
  | overwritten earlier hpath hwrite ih =>
    obtain ⟨c, hc, rfl⟩ := List.mem_map.1 hpath
    have hthere := (hready.of_differsInFiles ih).leadsTo
    obtain ⟨l, hl, hne, hdir, rfl⟩ := writeFile_leadsTo hwrite
    obtain rfl : l = here ++ [c.fileName] :=
      hl.of_join (hname c hc) ((writeFile_retains hwrite).leadsTo hthere)
    exact ih.trans (differsInFiles_set hne ⟨c, hc, rfl⟩ hdir _)
  | deleted earlier hpath hremove ih =>
    obtain ⟨c, hc, rfl⟩ := List.mem_map.1 hpath
    have hthere := (hready.of_differsInFiles ih).leadsTo
    obtain ⟨l, text, hl, hget, rfl⟩ := removeFile_eq_ok hremove
    obtain rfl : l = here ++ [c.fileName] := hl.of_join (hname c hc) hthere
    exact ih.trans (differsInFiles_erase (by simp) ⟨c, hc, rfl⟩ (by simp [hget]))

/-! ## The second run -/

lemma generate_of_completes {u : CompilationUnit} {root : String} {dryRun : Bool}
    (hout : u.controllers = .ok out)
    (h : fs.Completes (generationPlan (u.outputDir root) dryRun out) after) :
    (fs.generate u root dryRun).outcome = .ok (generationReport (u.outputDir root) dryRun out) ∧
      (fs.generate u root dryRun).after = after := by
  simp only [generate_of_controllers hout, h.1, h.2, Except.map, and_self]

lemma workingDir_writeEntries (here : Location) (fs : FileSystem) (out : List Controller) :
    (writeEntries here fs out).workingDir = fs.workingDir := by
  induction out generalizing fs with
  | nil => rfl
  | cons c rest ih => exact ih (fs.set (here ++ [c.fileName]) (.file c.source))

end FileSystem

/-- A generation that succeeded succeeds again from the state it has left, with the same report, and
does not change that state. If generated files were overwritten or deleted in between, the second
run brings back the state of the first. -/
theorem FileSystem.generate_again {fs : FileSystem} {u : CompilationUnit} {root : String}
    {report : Report} (h : (fs.generate u root false).outcome = .ok report) :
    ((fs.generate u root false).after.generate u root false).outcome = .ok report ∧
      ((fs.generate u root false).after.generate u root false).after =
        (fs.generate u root false).after ∧
      ∀ disturbed, Disturbed report.files (fs.generate u root false).after disturbed →
        (disturbed.generate u root false).outcome = .ok report ∧
          (disturbed.generate u root false).after.Same (fs.generate u root false).after := by
  obtain ⟨out, hout, rfl, hcompletes, -⟩ := generate_eq_ok h
  have hname : ∀ c ∈ out, Path.IsEntryName c.fileName := fun c hc => u.isEntryName_fileName hout hc
  obtain ⟨here, start, hafter, hready⟩ := hcompletes.ready hname
  obtain ⟨hreport, hsecond⟩ := generate_of_completes hout (hready.completes hname)
  refine ⟨hreport, ?_, fun disturbed hdisturbed => ?_⟩
  · rw [hsecond, hafter, writeEntries_writeEntries]
  · have hfiles : (generationReport (u.outputDir root) false out).files =
        out.map (·.path (u.outputDir root)) := by
      simp only [generationReport]
    rw [hfiles] at hdisturbed
    have hdiffers := hdisturbed.differsInFiles hname hready
    obtain ⟨hreport', hthird⟩ :=
      generate_of_completes hout ((hready.of_differsInFiles hdiffers).completes hname)
    refine ⟨hreport', ?_, fun l => ?_⟩
    · rw [hthird, workingDir_writeEntries, hdiffers.workingDir]
    · -- the second run sets all locations that may differ, and it sets them as the first one did
      have hsame : ∀ l, (∀ c ∈ out, l ≠ here ++ [c.fileName]) →
          disturbed.get l = (fs.generate u root false).after.get l := by
        intro l hl
        rcases hdiffers.get l with hsame | ⟨⟨c, hc, rfl⟩, -⟩
        · exact hsame
        · exact absurd rfl (hl c hc)
      rw [hthird, get_writeEntries_congr hsame, hafter, writeEntries_writeEntries]

/-- The generated state with one file overwritten. -/
def overwrittenFiles : FileSystem :=
  (stockFiles.generate stockUnit "out" false).after.set
    ["out", "org", "stock", "StoresController.java"]
    (.file "changed")

/-- The generated state with one file overwritten and the other one deleted. -/
def tamperedFiles : FileSystem :=
  overwrittenFiles.erase ["out", "org", "stock", "ItemsController.java"]

theorem generate_again_stock :
    (stockFiles.generate stockUnit "out" false).outcome = .ok stockReport ∧
      FileSystem.Disturbed stockReport.files (stockFiles.generate stockUnit "out" false).after
        tamperedFiles ∧
      tamperedFiles ≠ (stockFiles.generate stockUnit "out" false).after ∧
      (tamperedFiles.generate stockUnit "out" false).outcome = .ok stockReport ∧
      (tamperedFiles.generate stockUnit "out" false).after.Same
        (stockFiles.generate stockUnit "out" false).after := by
  have hreport : (stockFiles.generate stockUnit "out" false).outcome = .ok stockReport := by
    decide +kernel
  have hwrite : (stockFiles.generate stockUnit "out" false).after.writeFile
      "out/org/stock/StoresController.java"
      "changed" = .ok overwrittenFiles := by
    decide +kernel
  have hremove : overwrittenFiles.removeFile "out/org/stock/ItemsController.java" =
      .ok tamperedFiles := by
    decide +kernel
  have hdisturbed :
      FileSystem.Disturbed stockReport.files (stockFiles.generate stockUnit "out" false).after
        tamperedFiles :=
    .deleted (.overwritten .undisturbed (by decide) hwrite) (by decide) hremove
  have hchanged : tamperedFiles ≠ (stockFiles.generate stockUnit "out" false).after := by
    decide +kernel
  exact ⟨hreport, hdisturbed, hchanged,
    (FileSystem.generate_again hreport).2.2 tamperedFiles hdisturbed⟩

end ResourceStubs
