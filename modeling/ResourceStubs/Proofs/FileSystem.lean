import Mathlib.Data.List.Basic
import ResourceStubs.FileSystem
import ResourceStubs.Proofs.Paths

/-!
# What file operations do

An operation on a path first follows the path and then touches at most one location. This module
says, for each operation, where it ends up and what it leaves alone. States are compared location by
location, through `FileSystem.get`.

## Two relations between states

`FileSystem.Retains` is what every operation of a run has in common: directories stay directories
and nothing disappears. It is enough to follow paths, so a path that led somewhere still leads there
afterwards (`Retains.walk`).

`FileSystem.AddsDirs` is what creating directories does: some locations where nothing stood become
directories, and everything else is as before. The locations are described by a predicate, because
the caller wants to know that all of them lie on the way to the directory that was asked for. They
do so whether or not the attempt succeeds (`FileSystem.createDirs_addsDirs`), and if it does, the
path leads to a directory afterwards (`FileSystem.createDirs_isDirAt`).

Writing and reading meet in the location that a path leads to. `FileSystem.writeFile_leadsTo` says
that writing sets this one location, and `FileSystem.readFile_eq_ok_iff` that reading gives the text
of the file there.
-/

namespace ResourceStubs

lemma bind_eq_ok_iff {ε α β : Type} {x : Except ε α} {f : α → Except ε β} {b : β} :
    x >>= f = .ok b ↔ ∃ a, x = .ok a ∧ f a = .ok b := by
  cases x with
  | error e => exact ⟨fun h => (nomatch h), fun ⟨_, h, _⟩ => (nomatch h)⟩
  | ok a => exact ⟨fun h => ⟨a, rfl, h⟩, fun ⟨_, ha, h⟩ => Except.ok.inj ha ▸ h⟩

namespace FileSystem

variable {fs after : FileSystem}

/-! ## Following paths -/

/-- The three ways in which a step succeeds. -/
lemma step_eq_ok_iff {here next : Location} {name : String} :
    fs.step here name = .ok next ↔
      name = "." ∧ next = here ∨ name = ".." ∧ next = here.dropLast ∨
        isDots name = false ∧ name.utf8ByteSize ≤ nameLimit ∧ (fs.get (here ++ [name])).isSome ∧
          next = here ++ [name] := by
  unfold step
  by_cases hdot : name = "."
  · have hnot : name ≠ ".." := by rw [hdot]; decide
    have hplain : isDots name = true := by rw [hdot]; rfl
    simp [hdot ▸ hnot, hdot ▸ hplain, hdot, @eq_comm _ here]
  · by_cases hdots : name = ".."
    · have hplain : isDots name = true := by rw [hdots]; rfl
      simp [hdots ▸ hplain, hdots, @eq_comm _ here.dropLast]
    · have hplain : isDots name = false := by simp [isDots, hdot, hdots]
      simp only [hdot, hdots, hplain, if_false, false_and, false_or, true_and]
      by_cases hsize : nameLimit < name.utf8ByteSize
      · simp [hsize, Nat.not_le.2 hsize]
      · by_cases hsome : (fs.get (here ++ [name])).isSome
        · simp [hsize, hsome, Nat.not_lt.1 hsize, eq_comm]
        · simp [hsize, hsome]

lemma walk_append (fs : FileSystem) (here : Location) (first second : List String) :
    fs.walk here (first ++ second) = fs.walk here first >>= fun next => fs.walk next second := by
  induction first generalizing here with
  | nil => rfl
  | cons name rest ih =>
    rw [List.cons_append, walk, walk]
    split
    · cases hstep : fs.step here name with
      | error e => rfl
      | ok next => exact ih next
    · rfl

/-- The path leads to the location. -/
def LeadsTo (fs : FileSystem) (path : String) (location : Location) : Prop :=
  fs.walk (fs.startOf (.ofPath path)) (Path.names path) = .ok location

/-- Some of the names of a way, up to any one of them, lead to the location. -/
def OnTheWay (fs : FileSystem) (walk : Walk) (location : Location) : Prop :=
  ∃ names, names ≠ [] ∧ names <+: walk.names ∧ fs.walk (fs.startOf walk) names = .ok location

/-- Going on from a directory to one of its entries. -/
lemma walk_singleton_eq_ok_iff {here l : Location} {name : String} (hplain : isDots name = false) :
    fs.walk here [name] = .ok l ↔
      fs.get here = some .dir ∧ name.utf8ByteSize ≤ nameLimit ∧ (fs.get (here ++ [name])).isSome ∧
        l = here ++ [name] := by
  obtain ⟨hdot, hdots⟩ : name ≠ "." ∧ name ≠ ".." := by simpa [isDots] using hplain
  by_cases hdir : fs.get here = some .dir
  · have hrest (next : Location) : fs.walk next [] = .ok l ↔ next = l := by simp [walk]
    rw [walk, if_pos hdir, bind_eq_ok_iff]
    simp only [hrest, exists_eq_right, step_eq_ok_iff, hdot, hdots, hplain, hdir, false_and,
      false_or, true_and]
  · simp [walk, hdir]

/-! ## What stays -/

/-- Directories stay directories and files stay files, though perhaps with another text. -/
structure Retains (fs after : FileSystem) : Prop where
  workingDir : after.workingDir = fs.workingDir
  dir : ∀ l, fs.get l = some .dir → after.get l = some .dir
  file : ∀ l text, fs.get l = some (.file text) → ∃ text', after.get l = some (.file text')

lemma Retains.refl (fs : FileSystem) : fs.Retains fs :=
  ⟨rfl, fun _ h => h, fun _ text h => ⟨text, h⟩⟩

lemma Retains.trans {first second third : FileSystem} (h : first.Retains second)
    (h' : second.Retains third) :
    first.Retains third where
  workingDir := h'.workingDir.trans h.workingDir
  dir l hl := h'.dir l (h.dir l hl)
  file l text hl := by
    obtain ⟨text', hl'⟩ := h.file l text hl
    exact h'.file l text' hl'

lemma Retains.isSome (h : fs.Retains after) {l : Location} (hl : (fs.get l).isSome) :
    (after.get l).isSome := by
  cases hentry : fs.get l with
  | none => simp [hentry] at hl
  | some entry =>
    cases entry with
    | dir => simp [h.dir l hentry]
    | file text =>
      obtain ⟨text', hl'⟩ := h.file l text hentry
      simp [hl']

lemma Retains.startOf (h : fs.Retains after) (walk : Walk) :
    after.startOf walk = fs.startOf walk := by
  rw [FileSystem.startOf, FileSystem.startOf, h.workingDir]

lemma Retains.step (h : fs.Retains after) {here next : Location} {name : String}
    (hstep : fs.step here name = .ok next) : after.step here name = .ok next := by
  rw [step_eq_ok_iff] at hstep ⊢
  rcases hstep with hdot | hdots | ⟨hplain, hsize, hsome, hnext⟩
  · exact .inl hdot
  · exact .inr (.inl hdots)
  · exact .inr (.inr ⟨hplain, hsize, h.isSome hsome, hnext⟩)

/-- Paths lead where they led. -/
lemma Retains.walk (h : fs.Retains after) {here l : Location} {names : List String}
    (hwalk : fs.walk here names = .ok l) : after.walk here names = .ok l := by
  induction names generalizing here with
  | nil => exact hwalk
  | cons name rest ih =>
    rw [FileSystem.walk] at hwalk ⊢
    split at hwalk
    · rename_i hdir
      obtain ⟨next, hstep, hrest⟩ := bind_eq_ok_iff.1 hwalk
      rw [if_pos (h.dir _ hdir), h.step hstep]
      exact ih hrest
    · cases hwalk

lemma Retains.leadsTo (h : fs.Retains after) {path : String} {l : Location}
    (hl : fs.LeadsTo path l) :
    after.LeadsTo path l := by
  rw [LeadsTo, h.startOf]
  exact h.walk hl

lemma Retains.onTheWay (h : fs.Retains after) {walk : Walk} {l : Location}
    (hl : fs.OnTheWay walk l) :
    after.OnTheWay walk l := by
  obtain ⟨names, hne, hnames, hwalk⟩ := hl
  exact ⟨names, hne, hnames, by rw [h.startOf]; exact h.walk hwalk⟩

/-- New directories stand where nothing stood and where the predicate allows them; all else is as
before. -/
structure AddsDirs (P : Location → Prop) (fs after : FileSystem) : Prop where
  workingDir : after.workingDir = fs.workingDir
  get : ∀ l, after.get l = fs.get l ∨ fs.get l = none ∧ after.get l = some .dir ∧ P l

lemma AddsDirs.refl (P : Location → Prop) (fs : FileSystem) : AddsDirs P fs fs :=
  ⟨rfl, fun _ => .inl rfl⟩

lemma AddsDirs.mono {P Q : Location → Prop} (hPQ : ∀ l, P l → Q l) (h : AddsDirs P fs after) :
    AddsDirs Q fs after :=
  ⟨h.workingDir, fun l => (h.get l).imp_right fun ⟨hnone, hdir, hP⟩ => ⟨hnone, hdir, hPQ l hP⟩⟩

lemma AddsDirs.trans {P : Location → Prop} {first second third : FileSystem}
    (h : AddsDirs P first second) (h' : AddsDirs P second third) : AddsDirs P first third := by
  refine ⟨h'.workingDir.trans h.workingDir, fun l => ?_⟩
  rcases h'.get l with hsame' | ⟨hnone', hdir', hP'⟩
  · rw [hsame']
    exact h.get l
  · rcases h.get l with hsame | ⟨hnone, -, -⟩
    · exact .inr ⟨hsame ▸ hnone', hdir', hP'⟩
    · exact .inr ⟨hnone, hdir', hP'⟩

lemma AddsDirs.retains {P : Location → Prop} (h : AddsDirs P fs after) : fs.Retains after where
  workingDir := h.workingDir
  dir l hdir := by
    rcases h.get l with hsame | ⟨-, hnew, -⟩
    · rw [hsame, hdir]
    · exact hnew
  file l text hfile := by
    rcases h.get l with hsame | ⟨hnone, -, -⟩
    · exact ⟨text, hsame.trans hfile⟩
    · exact absurd (hnone.symm.trans hfile) nofun

lemma addsDirs_set {P : Location → Prop} {l : Location} (hl : l ≠ []) (hnone : fs.get l = none)
    (hP : P l) :
    AddsDirs P fs (fs.set l .dir) := by
  refine ⟨rfl, fun m => ?_⟩
  by_cases hm : m = l
  · subst hm
    exact .inr ⟨hnone, get_set_self fs hl .dir, hP⟩
  · exact .inl (get_set_of_ne fs hm .dir)

lemma retains_set_file {l : Location} (hl : l ≠ []) (hdir : fs.get l ≠ some .dir) (text : String) :
    fs.Retains (fs.set l (.file text)) where
  workingDir := rfl
  dir m hm := by
    have hne : m ≠ l := fun hml => hdir (hml ▸ hm)
    rw [get_set_of_ne fs hne, hm]
  file m old hm := by
    by_cases hml : m = l
    · subst hml
      exact ⟨text, get_set_self fs hl _⟩
    · exact ⟨old, (get_set_of_ne fs hml _).trans hm⟩

/-! ## Inversion of the operations -/

/-- The parent of a way that has names: all names but the last lead to a directory. -/
lemma parentOf_eq_ok_some_iff {walk : Walk} {here : Location} {name : String} :
    fs.parentOf walk = .ok (some (here, name)) ↔
      ∃ init, walk.names = init ++ [name] ∧ fs.walk (fs.startOf walk) init = .ok here ∧
        fs.get here = some .dir := by
  unfold parentOf
  cases hlast : walk.names.getLast? with
  | none => simp [List.getLast?_eq_none_iff.1 hlast]
  | some last =>
    obtain ⟨init, hnames⟩ := List.getLast?_eq_some_iff.1 hlast
    simp only [hnames, List.dropLast_concat, bind_eq_ok_iff]
    constructor
    · rintro ⟨there, hwalk, h⟩
      split at h
      · rename_i hdir
        cases h
        exact ⟨init, rfl, hwalk, hdir⟩
      · cases h
    · rintro ⟨init', hinit, hwalk, hdir⟩
      obtain ⟨rfl, hname⟩ := List.append_inj' hinit rfl
      cases hname
      exact ⟨here, hwalk, if_pos hdir⟩

/-- Creating a directory sets one location where nothing stood, below the directory that the other
names lead to. -/
lemma createDirAt_eq_ok {walk : Walk} (h : fs.createDirAt walk = .ok after) :
    ∃ init here name, walk.names = init ++ [name] ∧ fs.walk (fs.startOf walk) init = .ok here ∧
      fs.get here = some .dir ∧ isDots name = false ∧ name.utf8ByteSize ≤ nameLimit ∧
      fs.get (here ++ [name]) = none ∧ after = fs.set (here ++ [name]) .dir := by
  obtain ⟨parent, hparent, h⟩ := bind_eq_ok_iff.1 h
  cases parent with
  | none => cases h
  | some p =>
    obtain ⟨here, name⟩ := p
    obtain ⟨init, hnames, hwalk, hdir⟩ := parentOf_eq_ok_some_iff.1 hparent
    dsimp only at h
    split at h
    · cases h
    · rename_i hplain
      split at h
      · cases h
      · rename_i hsize
        split at h
        · cases h
        · rename_i hnone
          cases h
          refine ⟨init, here, name, hnames, hwalk, hdir, by simpa using hplain, Nat.not_lt.1 hsize,
            ?_, rfl⟩
          simpa using hnone

/-- Writing a file sets one location where no directory stood, below the directory that the other
names lead to. -/
lemma writeFile_eq_ok {path text : String} (h : fs.writeFile path text = .ok after) :
    checkPath path = .ok () ∧ Path.endsWithSlash path = false ∧
      ∃ init here name, Path.names path = init ++ [name] ∧
      fs.walk (fs.startOf (.ofPath path)) init = .ok here ∧
        fs.get here = some .dir ∧ isDots name = false ∧ name.utf8ByteSize ≤ nameLimit ∧
        fs.get (here ++ [name]) ≠ some .dir ∧ after = fs.set (here ++ [name]) (.file text) := by
  obtain ⟨_, hcheck, h⟩ := bind_eq_ok_iff.1 h
  obtain ⟨parent, hparent, h⟩ := bind_eq_ok_iff.1 h
  cases parent with
  | none => cases h
  | some p =>
    obtain ⟨here, name⟩ := p
    obtain ⟨init, hnames, hwalk, hdir⟩ := parentOf_eq_ok_some_iff.1 hparent
    dsimp only at h
    split at h
    · cases h
    · rename_i hplain
      split at h
      · cases h
      · rename_i hsize
        split at h
        · cases h
        · rename_i hnotDir
          cases h
          obtain ⟨hdots, hslash⟩ : isDots name = false ∧ Path.endsWithSlash path = false := by
            simpa [Walk.ofPath] using hplain
          exact ⟨hcheck, hslash, init, here, name, hnames, hwalk, hdir, hdots, Nat.not_lt.1 hsize,
            hnotDir, rfl⟩

/-! ## Creating directories -/

lemma createDirAt_leadsTo {walk : Walk} (h : fs.createDirAt walk = .ok after) :
    ∃ l, after.walk (after.startOf walk) walk.names = .ok l ∧ l ≠ [] ∧ fs.get l = none ∧
      after = fs.set l .dir := by
  obtain ⟨init, here, name, hnames, hwalk, hdir, hplain, hsize, hnone, rfl⟩ := createDirAt_eq_ok h
  have hne : here ++ [name] ≠ [] := by simp
  have hretains : fs.Retains (fs.set (here ++ [name]) .dir) :=
    (addsDirs_set (P := fun _ => True) hne hnone trivial).retains
  refine ⟨here ++ [name], ?_, hne, hnone, rfl⟩
  rw [hnames, walk_append, hretains.startOf, hretains.walk hwalk]
  exact (walk_singleton_eq_ok_iff hplain).2
    ⟨hretains.dir _ hdir, hsize, by simp [get_set_self fs hne], rfl⟩

lemma createDirAt_addsDirs {walk : Walk} (h : fs.createDirAt walk = .ok after) :
    AddsDirs (after.OnTheWay walk) fs after := by
  have hnames : walk.names ≠ [] := by
    obtain ⟨init, _, name, hnames, -⟩ := createDirAt_eq_ok h
    simp [hnames]
  obtain ⟨l, hwalk, hne, hnone, hset⟩ := createDirAt_leadsTo h
  rw [hset] at hwalk ⊢
  exact addsDirs_set hne hnone ⟨walk.names, hnames, List.prefix_rfl, hwalk⟩

lemma trimDots_suffix (absolute : Bool) (names : List String) :
    trimDots absolute names <:+ names := by
  induction names with
  | nil => exact List.suffix_rfl
  | cons name rest ih =>
    rw [trimDots]
    split
    · exact ih.trans (List.suffix_cons name rest)
    · exact List.suffix_rfl

lemma Walk.parent_names {walk parent : Walk} (h : walk.parent = some parent) :
    parent.absolute = walk.absolute ∧ parent.names <+: walk.names := by
  unfold Walk.parent at h
  split at h
  · cases h
  · rename_i name rest htrim
    obtain rfl := Option.some.inj h
    refine ⟨rfl, ?_⟩
    have hnames : name :: rest <:+ walk.names.reverse := htrim ▸ trimDots_suffix _ _
    have hrest : trimDots walk.absolute rest <:+ walk.names.reverse :=
      (trimDots_suffix _ _).trans ((List.suffix_cons name rest).trans hnames)
    exact List.reverse_suffix.1 (by simpa using hrest)

/-- What is on the way to the parent is on the way. -/
lemma OnTheWay.of_parent {walk parent : Walk} (h : walk.parent = some parent) {l : Location}
    (hl : fs.OnTheWay parent l) : fs.OnTheWay walk l := by
  obtain ⟨names, hne, hnames, hwalk⟩ := hl
  obtain ⟨habsolute, hparent⟩ := Walk.parent_names h
  refine ⟨names, hne, hnames.trans hparent, ?_⟩
  rw [← hwalk, startOf, startOf, habsolute]

/-- Creating directories adds directories on the way and changes nothing else, whether or not it
succeeds. -/
lemma createDirsAt_addsDirs (steps : Nat) (fs : FileSystem) (walk : Walk) :
    AddsDirs ((createDirsAt steps fs walk).after.OnTheWay walk) fs
      (createDirsAt steps fs walk).after := by
  induction steps generalizing walk with
  | zero => exact .refl _ fs
  | succ steps ih =>
    rw [createDirsAt]
    split
    · exact .refl _ fs
    · split
      · rename_i after hcreate
        exact createDirAt_addsDirs hcreate
      · split
        · exact .refl _ fs
        · rename_i parent hparent
          -- the parent is on the way, and so is everything that was created for it
          have habove := (ih parent).mono fun l hl => OnTheWay.of_parent hparent hl
          dsimp only
          split
          · exact habove
          · split
            · rename_i after hcreate
              have hlast := createDirAt_addsDirs hcreate
              exact (habove.mono fun l hl => hlast.retains.onTheWay hl).trans hlast
            · exact habove
      · exact .refl _ fs

lemma createDirs_addsDirs (fs : FileSystem) (path : String) :
    AddsDirs ((fs.createDirs path).after.OnTheWay (.ofPath path)) fs
      (fs.createDirs path).after := by
  rw [createDirs]
  split
  · exact .refl _ fs
  · split
    · exact .refl _ fs
    · exact createDirsAt_addsDirs _ fs _

lemma isDirAt_iff {walk : Walk} :
    fs.isDirAt walk = true ↔
      ∃ l, fs.walk (fs.startOf walk) walk.names = .ok l ∧ fs.get l = some .dir := by
  unfold isDirAt
  cases fs.walk (fs.startOf walk) walk.names <;> simp

lemma Retains.isDirAt (h : fs.Retains after) {walk : Walk} (hdir : fs.isDirAt walk = true) :
    after.isDirAt walk = true := by
  obtain ⟨l, hwalk, hl⟩ := isDirAt_iff.1 hdir
  exact isDirAt_iff.2 ⟨l, by rw [h.startOf]; exact h.walk hwalk, h.dir l hl⟩

lemma createDirAt_isDirAt {walk : Walk} (h : fs.createDirAt walk = .ok after) :
    after.isDirAt walk = true := by
  obtain ⟨l, hwalk, hne, -, hset⟩ := createDirAt_leadsTo h
  exact isDirAt_iff.2 ⟨l, hwalk, by rw [hset, get_set_self fs hne]⟩

/-- When creating directories succeeds, the way leads to a directory. -/
lemma createDirsAt_isDirAt {steps : Nat} {walk : Walk}
    (hwalk : walk.names ≠ [] ∨ walk.absolute = true)
    (h : (createDirsAt (steps + 1) fs walk).outcome = .ok ()) :
    (createDirsAt (steps + 1) fs walk).after.isDirAt walk = true := by
  have hnames : ¬(walk.names.isEmpty && !walk.absolute) = true := by
    rcases hwalk with hwalk | hwalk <;> simp [hwalk]
  revert h
  rw [createDirsAt, if_neg hnames]
  split
  · rename_i after hcreate
    exact fun _ => createDirAt_isDirAt hcreate
  · split
    · exact nofun
    · dsimp only
      split
      · exact nofun
      · split
        · rename_i after hcreate
          exact fun _ => createDirAt_isDirAt hcreate
        · dsimp only
          split
          · rename_i hdir
            exact fun _ => hdir
          · exact nofun
  · dsimp only
    split
    · rename_i hdir
      exact fun _ => hdir
    · exact nofun

lemma createDirs_isDirAt {path : String} (hpath : path ≠ "")
    (h : (fs.createDirs path).outcome = .ok ()) :
    (fs.createDirs path).after.isDirAt (.ofPath path) = true := by
  have hne : ¬path.isEmpty = true := by simpa using hpath
  have hwalk : (Walk.ofPath path).names ≠ [] ∨ (Walk.ofPath path).absolute = true := by
    by_contra hnone
    obtain ⟨hnames, habsolute⟩ := not_or.1 hnone
    exact hpath (Path.eq_empty_of_names_eq_nil (not_not.1 hnames) (eq_false_of_ne_true habsolute))
  revert h
  rw [createDirs, if_neg hne]
  split
  · exact nofun
  · exact createDirsAt_isDirAt hwalk

/-- When creating directories succeeds, the path leads somewhere; the empty path always does. -/
lemma createDirs_leadsTo {path : String} (h : (fs.createDirs path).outcome = .ok ()) :
    ∃ l, (fs.createDirs path).after.LeadsTo path l := by
  by_cases hpath : path = ""
  · subst hpath
    exact ⟨fs.workingDir, rfl⟩
  · obtain ⟨l, hl, -⟩ := isDirAt_iff.1 (createDirs_isDirAt hpath h)
    exact ⟨l, hl⟩

/-! ## Reading and writing -/

lemma readFile_eq_ok_iff {path text : String} :
    fs.readFile path = .ok text ↔ checkPath path = .ok () ∧ Path.endsWithSlash path = false ∧
      ∃ l, fs.LeadsTo path l ∧ fs.get l = some (.file text) := by
  unfold readFile
  simp only [bind_eq_ok_iff, LeadsTo]
  constructor
  · rintro ⟨_, hcheck, l, hl, h⟩
    split at h
    · cases h
    · rename_i found hget
      split at h
      · cases h
      · rename_i hslash
        cases h
        exact ⟨hcheck, eq_false_of_ne_true hslash, l, hl, hget⟩
    · cases h
  · rintro ⟨hcheck, hslash, l, hl, hget⟩
    refine ⟨(), hcheck, l, hl, ?_⟩
    rw [hget]
    exact if_neg (Bool.eq_false_iff.1 hslash)

/-- Writing sets one location where no directory stood, and there the path leads afterwards. -/
lemma writeFile_leadsTo {path text : String} (h : fs.writeFile path text = .ok after) :
    ∃ l, after.LeadsTo path l ∧ l ≠ [] ∧ fs.get l ≠ some .dir ∧ after = fs.set l (.file text) := by
  obtain ⟨-, -, init, here, name, hnames, hwalk, hdir, hplain, hsize, hnotDir, rfl⟩ :=
    writeFile_eq_ok h
  have hne : here ++ [name] ≠ [] := by simp
  have hretains := retains_set_file hne hnotDir text
  refine ⟨here ++ [name], ?_, hne, hnotDir, rfl⟩
  rw [LeadsTo, hnames, walk_append, hretains.startOf, hretains.walk hwalk]
  exact (walk_singleton_eq_ok_iff hplain).2
    ⟨hretains.dir _ hdir, hsize, by simp [get_set_self fs hne], rfl⟩

lemma writeFile_retains {path text : String} (h : fs.writeFile path text = .ok after) :
    fs.Retains after := by
  obtain ⟨l, -, hne, hnotDir, rfl⟩ := writeFile_leadsTo h
  exact retains_set_file hne hnotDir text

/-- The path of an entry leads on from the place that the directory's path leads to. -/
lemma leadsTo_join_iff {dir name : String} {l here : Location} (hname : Path.IsEntryName name)
    (hhere : fs.LeadsTo dir here) :
    fs.LeadsTo (Path.join dir name) l ↔
      fs.get here = some .dir ∧ name.utf8ByteSize ≤ nameLimit ∧ (fs.get (here ++ [name])).isSome ∧
        l = here ++ [name] := by
  have habsolute : (Walk.ofPath (Path.join dir name)).absolute = (Walk.ofPath dir).absolute :=
    Path.isAbsolute_join hname
  have hplain : isDots name = false := by simp [isDots, hname.notDot, hname.notDots]
  rw [LeadsTo, startOf, habsolute, ← startOf, Path.names_join hname, walk_append, hhere]
  exact walk_singleton_eq_ok_iff hplain

/-- The entry of a directory stands directly below the place that the directory's path leads to. -/
lemma LeadsTo.of_join {dir name : String} {l here : Location} (hname : Path.IsEntryName name)
    (hl : fs.LeadsTo (Path.join dir name) l) (hhere : fs.LeadsTo dir here) : l = here ++ [name] :=
  ((leadsTo_join_iff hname hhere).1 hl).2.2.2

end FileSystem

end ResourceStubs
