import ResourceStubs.Proofs.Generation

/-!
# What a failed generation leaves behind

A generation can fail at three points: while it renders, while it creates the output directory, and
while it writes a class. The plan stops there, so the state afterwards is the state that the
completed steps have made.

`FileSystem.Fails` is the counterpart of `FileSystem.Completes`. It takes a plan apart in the same
way: a plan in two parts fails in the first part, or completes the first and fails in the second.
From this follows, class by class, that a failed write is preceded by successful writes of all
classes before it (`FileSystem.fails_controllersSteps_iff`).

The directories that a failed attempt leaves behind all lie strictly above the output directory
(`FileSystem.createDirs_addsDirs_of_error`), because the last directory is created last and its
creation is what failed.
-/

namespace ResourceStubs

namespace FileSystem

variable {fs after : FileSystem} {failure : Failure} {dir : String}

/-! ## Plans that stop early -/

/-- The plan stops with a failure and leaves the given state. -/
def Fails (fs : FileSystem) (plan : List Step) (failure : Failure) (after : FileSystem) : Prop :=
  (fs.run plan).outcome = .error failure ∧ (fs.run plan).after = after

lemma not_fails_nil : ¬fs.Fails [] failure after := by
  rintro ⟨houtcome, -⟩
  cases houtcome

lemma fails_cons {step : Step} {rest : List Step} :
    fs.Fails (step :: rest) failure after ↔
      (fs.runStep step).outcome = .error failure ∧ (fs.runStep step).after = after ∨
        (fs.runStep step).outcome = .ok () ∧ (fs.runStep step).after.Fails rest failure after := by
  unfold Fails
  rw [run]
  dsimp only
  split <;> simp [*]

@[simp] lemma fails_announce {event : Event} {rest : List Step} :
    fs.Fails (.announce event :: rest) failure after ↔ fs.Fails rest failure after := by
  simp [fails_cons, runStep]

lemma fails_append {first second : List Step} :
    fs.Fails (first ++ second) failure after ↔
      fs.Fails first failure after ∨
        ∃ between, fs.Completes first between ∧ between.Fails second failure after := by
  induction first generalizing fs with
  | nil => simp [not_fails_nil]
  | cons step rest ih =>
    simp only [List.cons_append, fails_cons, completes_cons, ih, and_or_left, or_assoc, and_assoc,
      exists_and_left]

lemma fails_createDirs {rest : List Step} :
    fs.Fails (.createDirs dir :: rest) failure after ↔
      (∃ e, (fs.createDirs dir).outcome = .error e ∧ failure = .noOutputDir dir e ∧
          after = (fs.createDirs dir).after) ∨
        (fs.createDirs dir).outcome = .ok () ∧
          (fs.createDirs dir).after.Fails rest failure after := by
  rw [fails_cons, runStep]
  cases (fs.createDirs dir).outcome <;> simp [Except.mapError, eq_comm]

lemma fails_writeFile {path text : String} {rest : List Step} :
    fs.Fails (.writeFile path text :: rest) failure after ↔
      (∃ e, fs.writeFile path text = .error e ∧ failure = .unwritable path e ∧ after = fs) ∨
        ∃ between, fs.writeFile path text = .ok between ∧ between.Fails rest failure after := by
  rw [fails_cons, runStep]
  cases fs.writeFile path text <;> simp [eq_comm]

/-! ## Writing classes up to a failure -/

/-- Writes classes in order, as long as nothing fails. -/
def writeControllers (fs : FileSystem) (dir : String) (out : List Controller) :
    Except FileError FileSystem :=
  out.foldlM (fun fs c => fs.writeFile (c.path dir) c.source) fs

lemma completes_controllersSteps_iff {seen : List String} {out : List Controller} :
    fs.Completes (controllersSteps dir false seen out) after ↔
      fs.writeControllers dir out = .ok after := by
  induction out generalizing fs seen with
  | nil => simp [controllersSteps, writeControllers, pure, Except.pure, eq_comm]
  | cons c rest ih =>
    rw [completes_controllersSteps_cons, writeControllers, List.foldlM_cons, bind_eq_ok_iff]
    simp only [ih]
    rfl

lemma fails_controllersSteps_cons {seen : List String} {c : Controller} {rest : List Controller} :
    fs.Fails (controllersSteps dir false seen (c :: rest)) failure after ↔
      (∃ e, fs.writeFile (c.path dir) c.source = .error e ∧ failure = .unwritable (c.path dir) e ∧
        after = fs) ∨
        ∃ between, fs.writeFile (c.path dir) c.source = .ok between ∧
          between.Fails (controllersSteps dir false (c.className :: seen) rest) failure after := by
  rw [controllersSteps, controllerSteps]
  split <;> simp [fails_writeFile]

/-- The class of the given number cannot be written, after all classes before it were. -/
def WriteStops (fs : FileSystem) (dir : String) (out : List Controller) (k : Nat)
    (failure : Failure) (after : FileSystem) : Prop :=
  ∃ c e, out[k]? = some c ∧ fs.writeControllers dir (out.take k) = .ok after ∧
    after.writeFile (c.path dir) c.source = .error e ∧ failure = .unwritable (c.path dir) e

lemma writeStops_zero {c : Controller} {rest : List Controller} :
    fs.WriteStops dir (c :: rest) 0 failure after ↔
      ∃ e, fs.writeFile (c.path dir) c.source = .error e ∧ failure = .unwritable (c.path dir) e ∧
        after = fs := by
  constructor
  · rintro ⟨d, e, hd, hafter, hwrite, hfailure⟩
    obtain rfl : c = d := by simpa using hd
    obtain rfl : fs = after := Except.ok.inj hafter
    exact ⟨e, hwrite, hfailure, rfl⟩
  · rintro ⟨e, hwrite, hfailure, rfl⟩
    exact ⟨c, e, rfl, rfl, hwrite, hfailure⟩

lemma writeStops_succ {c : Controller} {rest : List Controller} {k : Nat} :
    fs.WriteStops dir (c :: rest) (k + 1) failure after ↔
      ∃ between, fs.writeFile (c.path dir) c.source = .ok between ∧
        between.WriteStops dir rest k failure after := by
  have hstep : fs.writeControllers dir ((c :: rest).take (k + 1)) =
      fs.writeFile (c.path dir) c.source >>= fun between =>
        between.writeControllers dir (rest.take k) := by
    rw [List.take_succ_cons, writeControllers, List.foldlM_cons]
    rfl
  unfold WriteStops
  rw [List.getElem?_cons_succ, hstep]
  simp only [bind_eq_ok_iff]
  constructor
  · rintro ⟨d, e, hd, ⟨between, hfirst, hmore⟩, hwrite, hfailure⟩
    exact ⟨between, hfirst, d, e, hd, hmore, hwrite, hfailure⟩
  · rintro ⟨between, hfirst, d, e, hd, hmore, hwrite, hfailure⟩
    exact ⟨d, e, hd, ⟨between, hfirst, hmore⟩, hwrite, hfailure⟩

/-- The steps for classes fail exactly when some class cannot be written after the ones before
it. -/
lemma fails_controllersSteps_iff {seen : List String} {out : List Controller} :
    fs.Fails (controllersSteps dir false seen out) failure after ↔
      ∃ k, fs.WriteStops dir out k failure after := by
  induction out generalizing fs seen with
  | nil => simp [controllersSteps, not_fails_nil, WriteStops]
  | cons c rest ih =>
    rw [fails_controllersSteps_cons]
    simp only [ih]
    constructor
    · rintro (hzero | ⟨between, hfirst, k, hk⟩)
      · exact ⟨0, writeStops_zero.2 hzero⟩
      · exact ⟨k + 1, writeStops_succ.2 ⟨between, hfirst, hk⟩⟩
    · rintro ⟨k, hk⟩
      cases k with
      | zero => exact .inl (writeStops_zero.1 hk)
      | succ k =>
        obtain ⟨between, hfirst, hmore⟩ := writeStops_succ.1 hk
        exact .inr ⟨between, hfirst, k, hmore⟩

lemma WriteStops.unique {out : List Controller} {j k : Nat} {failure' : Failure}
    {after' : FileSystem} (hj : fs.WriteStops dir out j failure after)
    (hk : fs.WriteStops dir out k failure' after') : j = k := by
  induction out generalizing fs j k with
  | nil =>
    obtain ⟨c, e, hc, -⟩ := hj
    cases hc
  | cons c rest ih =>
    cases j with
    | zero =>
      obtain ⟨e, herror, -⟩ := writeStops_zero.1 hj
      cases k with
      | zero => rfl
      | succ k =>
        obtain ⟨between, hok, -⟩ := writeStops_succ.1 hk
        cases herror.symm.trans hok
    | succ j =>
      obtain ⟨between, hok, hmore⟩ := writeStops_succ.1 hj
      cases k with
      | zero =>
        obtain ⟨e, herror, -⟩ := writeStops_zero.1 hk
        cases herror.symm.trans hok
      | succ k =>
        obtain ⟨between', hok', hmore'⟩ := writeStops_succ.1 hk
        obtain rfl : between = between' := Except.ok.inj (hok.symm.trans hok')
        rw [ih hmore hmore']

/-! ## Directories that were created in vain -/

/-- Some of the names of a way, but not all of them, lead to the location. -/
def Above (fs : FileSystem) (walk : Walk) (location : Location) : Prop :=
  ∃ names, names ≠ [] ∧ names <+: walk.names ∧ names.length < walk.names.length ∧
    fs.walk (fs.startOf walk) names = .ok location

lemma Walk.length_parent_names_lt {walk parent : Walk} (h : walk.parent = some parent) :
    parent.names.length < walk.names.length := by
  unfold Walk.parent at h
  split at h
  · cases h
  · rename_i name rest htrim
    obtain rfl := Option.some.inj h
    have hnames : (name :: rest).length ≤ walk.names.reverse.length :=
      List.IsSuffix.length_le (htrim ▸ trimDots_suffix _ _)
    have hrest : (trimDots walk.absolute rest).length ≤ rest.length :=
      (trimDots_suffix _ _).length_le
    rw [List.length_cons, List.length_reverse] at hnames
    rw [List.length_reverse]
    omega

lemma OnTheWay.above_of_parent {walk parent : Walk} (h : walk.parent = some parent) {l : Location}
    (hl : fs.OnTheWay parent l) : fs.Above walk l := by
  obtain ⟨names, hne, hnames, hwalk⟩ := hl
  obtain ⟨habsolute, hparent⟩ := Walk.parent_names h
  refine ⟨names, hne, hnames.trans hparent,
    hnames.length_le.trans_lt (Walk.length_parent_names_lt h), ?_⟩
  rw [← hwalk, startOf, startOf, habsolute]

lemma createDirsAt_addsDirs_of_error {steps : Nat} {walk : Walk} {e : FileError}
    (h : (createDirsAt steps fs walk).outcome = .error e) :
    AddsDirs ((createDirsAt steps fs walk).after.Above walk) fs
      (createDirsAt steps fs walk).after := by
  cases steps with
  | zero => exact .refl _ fs
  | succ steps =>
    revert h
    rw [createDirsAt]
    split
    · exact fun _ => .refl _ fs
    · split
      · intro hok
        cases hok
      · split
        · exact fun _ => .refl _ fs
        · rename_i parent hparent
          have habove := (createDirsAt_addsDirs steps fs parent).mono fun l hl =>
            hl.above_of_parent hparent
          dsimp only
          split
          · exact fun _ => habove
          · split
            · intro hok
              cases hok
            · exact fun _ => habove
      · exact fun _ => .refl _ fs

/-- A failed attempt to create a directory adds directories strictly above it at most. -/
lemma createDirs_addsDirs_of_error {e : FileError} (h : (fs.createDirs dir).outcome = .error e) :
    AddsDirs ((fs.createDirs dir).after.Above (.ofPath dir)) fs (fs.createDirs dir).after := by
  revert h
  rw [createDirs]
  split
  · exact fun _ => .refl _ fs
  · split
    · exact fun _ => .refl _ fs
    · exact createDirsAt_addsDirs_of_error

/-! ## The whole generation -/

lemma completes_controllersSteps_dryRun (fs : FileSystem) (dir : String) (seen : List String)
    (out : List Controller) : fs.Completes (controllersSteps dir true seen out) fs := by
  induction out generalizing seen with
  | nil => exact completes_nil.2 rfl
  | cons c rest ih =>
    rw [controllersSteps, controllerSteps]
    split <;> simp [ih]

lemma Completes.not_fails {plan : List Step} {other : FileSystem} (h : fs.Completes plan other) :
    ¬fs.Fails plan failure after := by
  rintro ⟨hfails, -⟩
  cases h.1.symm.trans hfails

/-- A plan fails when the output directory cannot be created, or when it can and some class cannot
be written. The plan of a dry run does not fail. -/
lemma fails_generationPlan_iff {dryRun : Bool} {out : List Controller} :
    fs.Fails (generationPlan dir dryRun out) failure after ↔
      dryRun = false ∧
        ((∃ e, (fs.createDirs dir).outcome = .error e ∧ failure = .noOutputDir dir e ∧
            after = (fs.createDirs dir).after) ∨
          (fs.createDirs dir).outcome = .ok () ∧
            ∃ k, (fs.createDirs dir).after.WriteStops dir out k failure after) := by
  have hlast (fs : FileSystem) (event : Event) : ¬fs.Fails [.announce event] failure after := by
    simp [not_fails_nil]
  cases dryRun with
  | true =>
    have hsteps : ¬fs.Fails (controllersSteps dir true [] out) failure after :=
      (completes_controllersSteps_dryRun fs dir [] out).not_fails
    simp [generationPlan, fails_append, hlast, hsteps]
  | false =>
    simp [generationPlan, fails_append, fails_createDirs, hlast, fails_controllersSteps_iff]

/-- Rendering fails, and nothing is touched. -/
def RenderingFails (fs : FileSystem) (u : CompilationUnit) (failure : Failure)
    (after : FileSystem) : Prop :=
  ∃ e, u.controllers = .error e ∧ failure = .badTraits e ∧ after = fs

/-- The output directory cannot be created. All files are as before, and new directories lie above
it. -/
def CreatingFails (fs : FileSystem) (dir : String) (failure : Failure) (after : FileSystem) :
    Prop :=
  ∃ e, (fs.createDirs dir).outcome = .error e ∧ failure = .noOutputDir dir e ∧
    after = (fs.createDirs dir).after ∧
    AddsDirs (after.Above (.ofPath dir)) fs after

/-- The output directory is created and the classes before the given one are written, but that one
cannot be. The message names its file. -/
def WritingFails (fs : FileSystem) (u : CompilationUnit) (dir : String) (k : Nat)
    (failure : Failure) (after : FileSystem) : Prop :=
  ∃ out c, u.controllers = .ok out ∧ out[k]? = some c ∧ (fs.createDirs dir).outcome = .ok () ∧
    (fs.createDirs dir).after.WriteStops dir out k failure after ∧
    ("Failed to write " ++ c.path dir).toList <+: failure.message.toList

lemma WriteStops.message {out : List Controller} {k : Nat}
    (h : fs.WriteStops dir out k failure after) :
    ∃ c, out[k]? = some c ∧ ("Failed to write " ++ c.path dir).toList <+:
      failure.message.toList := by
  obtain ⟨c, e, hc, -, -, rfl⟩ := h
  refine ⟨c, hc, (": " ++ e.message).toList, ?_⟩
  simp [Failure.message, Failure.layers]

lemma WritingFails.unique {u : CompilationUnit} {j k : Nat}
    (hj : fs.WritingFails u dir j failure after) (hk : fs.WritingFails u dir k failure after) :
    j = k := by
  obtain ⟨out, -, hout, -, -, hstops, -⟩ := hj
  obtain ⟨out', -, hout', -, -, hstops', -⟩ := hk
  obtain rfl : out = out' := Except.ok.inj (hout.symm.trans hout')
  exact hstops.unique hstops'

lemma RenderingFails.not_creatingFails {u : CompilationUnit}
    (h : fs.RenderingFails u failure after) :
    ¬fs.CreatingFails dir failure after := by
  obtain ⟨e, -, rfl, -⟩ := h
  rintro ⟨e', -, hfailure, -⟩
  cases hfailure

lemma RenderingFails.not_writingFails {u : CompilationUnit}
    (h : fs.RenderingFails u failure after) :
    ¬∃ k, fs.WritingFails u dir k failure after := by
  obtain ⟨e, herror, -⟩ := h
  rintro ⟨k, out, c, hout, -⟩
  cases herror.symm.trans hout

lemma CreatingFails.not_writingFails {u : CompilationUnit}
    (h : fs.CreatingFails dir failure after) :
    ¬∃ k, fs.WritingFails u dir k failure after := by
  obtain ⟨e, herror, -⟩ := h
  rintro ⟨k, out, c, -, -, hok, -⟩
  cases herror.symm.trans hok

/-- The three ways in which a generation fails; a dry run fails in the first way only. -/
lemma generate_eq_error {u : CompilationUnit} {root : String} {dryRun : Bool}
    (h : (fs.generate u root dryRun).outcome = .error failure) :
    fs.RenderingFails u failure (fs.generate u root dryRun).after ∨
      dryRun = false ∧
        (fs.CreatingFails (u.outputDir root) failure (fs.generate u root dryRun).after ∨
          ∃ k, fs.WritingFails u (u.outputDir root) k failure
            (fs.generate u root dryRun).after) := by
  cases hout : u.controllers with
  | error e =>
    rw [generate_of_traitError hout] at h ⊢
    exact .inl ⟨e, hout, (Except.error.inj h).symm, rfl⟩
  | ok out =>
    rw [generate_of_controllers hout] at h ⊢
    have hfails : fs.Fails (generationPlan (u.outputDir root) dryRun out) failure
        (fs.run (generationPlan (u.outputDir root) dryRun out)).after := by
      refine ⟨?_, rfl⟩
      cases hrun : (fs.run (generationPlan (u.outputDir root) dryRun out)).outcome with
      | error e => simpa [hrun, Except.map] using h
      | ok _ => simp [hrun, Except.map] at h
    obtain ⟨hdry, hcases⟩ := fails_generationPlan_iff.1 hfails
    refine .inr ⟨hdry, ?_⟩
    rcases hcases with ⟨e, herror, hfailure, hafter⟩ | ⟨hok, k, hstops⟩
    · refine .inl ⟨e, herror, hfailure, hafter, ?_⟩
      dsimp only
      rw [hafter]
      exact createDirs_addsDirs_of_error herror
    · obtain ⟨c, hc, hmessage⟩ := hstops.message
      exact .inr ⟨k, out, c, hout, hc, hok, hstops, hmessage⟩

end FileSystem

/-- A failed generation failed in exactly one of three ways: rendering failed and nothing changed;
the output directory could not be created and only directories above it were added; or one class
could not be written and the state is the one with the directory and all classes before that one.
When rendering fails nothing else can be the reason, and it is the only reason why a dry run
fails. -/
theorem FileSystem.generate_failure {fs : FileSystem} {u : CompilationUnit} {root : String}
    {dryRun : Bool} {failure : Failure} {after : FileSystem}
    (hafter : (fs.generate u root dryRun).after = after)
    (h : (fs.generate u root dryRun).outcome = .error failure) :
    ((fs.RenderingFails u failure after ∧
          ¬fs.CreatingFails (u.outputDir root) failure after ∧
          ¬(∃ k, fs.WritingFails u (u.outputDir root) k failure after)) ∨
        (¬fs.RenderingFails u failure after ∧
          fs.CreatingFails (u.outputDir root) failure after ∧
          ¬(∃ k, fs.WritingFails u (u.outputDir root) k failure after)) ∨
        (¬fs.RenderingFails u failure after ∧
          ¬fs.CreatingFails (u.outputDir root) failure after ∧
          ∃! k, fs.WritingFails u (u.outputDir root) k failure after)) ∧
      ((∃ e, u.controllers = .error e) → fs.RenderingFails u failure after) ∧
      (dryRun = true → fs.RenderingFails u failure after) := by
  subst hafter
  have hcases := generate_eq_error h
  refine ⟨?_, ?_, ?_⟩
  · rcases hcases with hrendering | ⟨-, hcreating | ⟨k, hwriting⟩⟩
    · exact .inl ⟨hrendering, hrendering.not_creatingFails, hrendering.not_writingFails⟩
    · have hnot := hcreating.not_writingFails (u := u)
      exact .inr (.inl ⟨fun hrendering => hrendering.not_creatingFails hcreating, hcreating, hnot⟩)
    · have hsome : ∃ k, fs.WritingFails u (u.outputDir root) k failure
          (fs.generate u root dryRun).after :=
        ⟨k, hwriting⟩
      exact .inr (.inr ⟨fun hrendering => hrendering.not_writingFails hsome,
        fun hcreating => hcreating.not_writingFails hsome, k, hwriting, fun j hj =>
          hj.unique hwriting⟩)
  · rintro ⟨e, herror⟩
    rw [generate_of_traitError herror] at h ⊢
    exact ⟨e, herror, (Except.error.inj h).symm, rfl⟩
  · intro hdry
    rcases hcases with hrendering | ⟨hnotDry, -⟩
    · exact hrendering
    · cases hdry.symm.trans hnotDry

/-- A state in which a directory has the name of the second file that the unit needs. -/
def blockedFiles : FileSystem where
  entries := [(["out"], .dir), (["out", "org"], .dir), (["out", "org", "stock"], .dir),
    (["out", "org", "stock", "StoresController.java"], .dir)]

/-- A unit that uses a trait which it does not declare. -/
def undeclaredUnit : CompilationUnit where
  resources := [.mk "/items" [] [] [.use "Audited"]]

/-- A state with nothing but a file that is no directory. -/
def loneFile : FileSystem where
  entries := [(["notes"], .file "kept")]

/-- A unit whose classes go right below the root directory. -/
def shelfUnit : CompilationUnit where
  resources := [.mk "/items" [] [] [], .mk "/stores" [] [] [], .mk "/shelves" [] [] []]

/-- All three ways to fail. An undeclared trait changes nothing. A directory below a file cannot be
created, but the directory that the way to it passes through stays. A class cannot be written where
a directory has its name, be it an old one or one on the way to the output directory; the class
before it is written and the one behind it is not. -/
theorem generate_failure_blocked :
    (∃ failure, (blockedFiles.generate undeclaredUnit "out" false).outcome = .error failure ∧
        failure.message = "No such trait: 'Audited'" ∧
        blockedFiles.RenderingFails undeclaredUnit failure blockedFiles) ∧
      (∃ failure after, (loneFile.generate stockUnit "new/../notes" false).after = after ∧
        (loneFile.generate stockUnit "new/../notes" false).outcome = .error failure ∧
        after.entries = [(["notes"], .file "kept"), (["new"], .dir)] ∧
        loneFile.CreatingFails (stockUnit.outputDir "new/../notes") failure after) ∧
      (∃ failure after, (blockedFiles.generate stockUnit "out" false).after = after ∧
        (blockedFiles.generate stockUnit "out" false).outcome = .error failure ∧
        failure.message =
          "Failed to write out/org/stock/StoresController.java: Is a directory (os error 21)" ∧
        (after.get ["out", "org", "stock", "ItemsController.java"]).isSome = true ∧
        ∃! k, blockedFiles.WritingFails stockUnit (stockUnit.outputDir "out") k failure after) ∧
      ∃ failure after,
        (FileSystem.generate {} shelfUnit "out/StoresController.java/.." false).after = after ∧
        (FileSystem.generate {} shelfUnit "out/StoresController.java/.." false).outcome =
          .error failure ∧
        after.entries.map (·.1) =
          [["out"], ["out", "StoresController.java"], ["out", "ItemsController.java"]] ∧
        ∃! k, FileSystem.WritingFails {} shelfUnit
          (shelfUnit.outputDir "out/StoresController.java/..") k failure after := by
  -- only the third way to fail names a file that cannot be written
  have hwriting {fs : FileSystem} {u : CompilationUnit} {root path : String} {e : FileError}
      (h : (fs.generate u root false).outcome = .error (.unwritable path e)) :
      ∃! k, fs.WritingFails u (u.outputDir root) k (.unwritable path e)
        (fs.generate u root false).after := by
    obtain ⟨⟨⟨_, -, hfailure, -⟩, -⟩ | ⟨-, ⟨_, -, hfailure, -⟩, -⟩ | ⟨-, -, hfails⟩, -⟩ :=
      FileSystem.generate_failure rfl h
    · cases hfailure
    · cases hfailure
    · exact hfails
  refine ⟨?_, ?_, ?_, ?_⟩
  · have houtcome : (blockedFiles.generate undeclaredUnit "out" false).outcome =
        .error (.badTraits (.unknown "Audited")) := by
      decide +kernel
    have hafter : (blockedFiles.generate undeclaredUnit "out" false).after = blockedFiles := by
      decide +kernel
    have hfault : ∃ e, undeclaredUnit.controllers = .error e := ⟨_, rfl⟩
    exact ⟨_, houtcome, by decide +kernel, (FileSystem.generate_failure hafter houtcome).2.1 hfault⟩
  · have houtcome : (loneFile.generate stockUnit "new/../notes" false).outcome =
        .error (.noOutputDir "new/../notes/org/stock" .alreadyExists) := by
      decide +kernel
    refine ⟨_, _, rfl, houtcome, by decide +kernel, ?_⟩
    obtain ⟨⟨⟨e, -, hfailure, -⟩, -⟩ | ⟨-, hcreating, -⟩ |
      ⟨-, -, k, ⟨out, c, -, -, -, ⟨d, e, -, -, -, hfailure⟩, -⟩, -⟩, -⟩ :=
        FileSystem.generate_failure rfl houtcome
    · cases hfailure
    · exact hcreating
    · cases hfailure
  · have houtcome : (blockedFiles.generate stockUnit "out" false).outcome =
        .error (.unwritable "out/org/stock/StoresController.java" .isDirectory) := by
      decide +kernel
    have hfirst : ((blockedFiles.generate stockUnit "out" false).after.get
        ["out", "org", "stock", "ItemsController.java"]).isSome = true := by
      decide +kernel
    exact ⟨_, _, rfl, houtcome, by decide +kernel, hfirst, hwriting houtcome⟩
  · have houtcome :
        (FileSystem.generate {} shelfUnit "out/StoresController.java/.." false).outcome =
        .error (.unwritable "out/StoresController.java/../StoresController.java" .isDirectory) := by
      decide +kernel
    exact ⟨_, _, rfl, houtcome, by decide +kernel, hwriting houtcome⟩

end ResourceStubs
