import GeoMetadata.Files.FileTree
import GeoMetadata.Proofs.Steps

/-!
# Changes of files

What a change of a tree does to its files, whether the system refuses a step of it or not.  Making
directories leaves all files as they are (`ensures_addDirectories`), since a directory is put only
where there is nothing.  Writing a file is refused before anything is changed, or it changes the
file where the path leads and no other (`ensures_addFile`), since what lies on the way are
directories, and these stay (`walkFrom_insert`).  Storing a file does the one after the other
(`ensures_store`).
-/

namespace GeoMetadata.FileTree

variable {before tree reached : FileTree} {place other target : List String} {path : FilePath}
  {bytes : List UInt8}

/-- The bytes of the file at a place. -/
def bytesAt? (tree : FileTree) (place : List String) : Option (List UInt8) :=
  match tree.entryAt? place with
  | some (.file bytes) => some bytes
  | _ => none

/-- The trees have the same files with the same bytes. -/
def SameFiles (before after : FileTree) : Prop :=
  ∀ place, after.bytesAt? place = before.bytesAt? place

theorem SameFiles.refl (tree : FileTree) : SameFiles tree tree := fun _ => rfl

theorem SameFiles.trans {first second third : FileTree} (h : SameFiles first second)
    (h' : SameFiles second third) : SameFiles first third :=
  fun place => (h' place).trans (h place)

/-- The path leads to a file of these bytes, and other files are as before. -/
def Wrote (before : FileTree) (path : FilePath) (bytes : List UInt8) (after : FileTree) : Prop :=
  ∃ target, after.walk path = .found target (.file bytes) ∧
    ∀ place, place ≠ target → after.bytesAt? place = before.bytesAt? place

theorem Wrote.read (h : Wrote tree path bytes reached) : reached.read path = .ok bytes := by
  obtain ⟨target, hwalk, -⟩ := h
  rw [FileTree.read, hwalk]

/-! ## Entries -/

theorem isGiven_eq_false_of_entryAt? (h : tree.entryAt? place ≠ some .directory) :
    isGiven place = false := by
  unfold entryAt? at h
  split at h
  · exact absurd rfl h
  · rename_i hgiven
    exact Bool.eq_false_iff.mpr hgiven

theorem entryAt?_insert (hplace : isGiven place = false) (entry : FileEntry) :
    (entryAt? (tree.insert place entry) other) =
      if place = other then some entry else tree.entryAt? other := by
  unfold entryAt?
  rw [OrderedMap.get?_insert]
  by_cases hsame : place = other
  · subst hsame
    simp [hplace]
  · rw [if_neg hsame, if_neg hsame]

theorem sameFiles_insert_directory (hplace : tree.entryAt? place = none) :
    SameFiles tree (tree.insert place .directory) := by
  intro other
  have hdirectory : tree.entryAt? place ≠ some .directory := by simp [hplace]
  have hgiven := isGiven_eq_false_of_entryAt? hdirectory
  rw [bytesAt?, bytesAt?, entryAt?_insert hgiven]
  by_cases hsame : place = other
  · subst hsame
    rw [if_pos rfl, hplace]
  · rw [if_neg hsame]

theorem bytesAt?_insert_of_ne (hplace : isGiven place = false) (entry : FileEntry)
    (hne : other ≠ place) : bytesAt? (tree.insert place entry) other = tree.bytesAt? other := by
  rw [bytesAt?, entryAt?_insert hplace, if_neg (Ne.symm hne), bytesAt?]

/-! ## Paths -/

/-- The place where a path would have a file written. -/
def Walk.target? : Walk → Option (List String)
  | found place (.file _) => some place
  | free place => some place
  | _ => none

theorem entryAt?_of_walkFrom_eq_free {entry : FileEntry} {names : List String}
    (h : tree.walkFrom place entry names = .free target) : tree.entryAt? target = none := by
  fun_induction walkFrom tree place entry names with
  | case1 => cases h
  | case2 => cases h
  | case3 place rest ih => exact ih h
  | case4 place name rest habove found hfound ih => exact ih h
  | case5 place name habove hnone =>
      cases h
      exact hnone
  | case6 => cases h

/-- A path to a file goes on from directories only, so that the last of its names is left where it
meets something else. -/
theorem target?_walkFrom_cons {name : String} {rest : List String} :
    (tree.walkFrom place .directory (name :: rest)).target? = some target ↔
      if name = ".." then (tree.walkFrom (above place) .directory rest).target? = some target
      else if tree.entryAt? (place ++ [name]) = some .directory then
        (tree.walkFrom (place ++ [name]) .directory rest).target? = some target
      else rest = [] ∧ place ++ [name] = target := by
  rw [walkFrom]
  by_cases habove : name = ".."
  · rw [if_pos habove, if_pos habove]
  · rw [if_neg habove, if_neg habove]
    rcases hentry : tree.entryAt? (place ++ [name]) with _ | _ | old
    · cases rest <;> simp [Walk.target?]
    · simp
    · cases rest <;> simp [walkFrom, Walk.target?]

/-- A file is written where there is no directory. -/
theorem entryAt?_ne_of_target? {names : List String}
    (h : (tree.walkFrom place .directory names).target? = some target) :
    tree.entryAt? target ≠ some .directory := by
  induction names generalizing place with
  | nil => cases h
  | cons name rest ih =>
      rw [target?_walkFrom_cons] at h
      split at h
      · exact ih h
      · split at h
        · exact ih h
        · rename_i hentry
          exact h.2 ▸ hentry

/-- The path leads to the file once it is written: the directories on the way are as before. -/
theorem walkFrom_insert {names : List String}
    (h : (tree.walkFrom place .directory names).target? = some target) :
    walkFrom (tree.insert target (.file bytes)) place .directory names =
      .found target (.file bytes) := by
  have hdirectory := entryAt?_ne_of_target? h
  have hgiven := isGiven_eq_false_of_entryAt? hdirectory
  induction names generalizing place with
  | nil => cases h
  | cons name rest ih =>
      rw [target?_walkFrom_cons] at h
      rw [walkFrom]
      by_cases habove : name = ".."
      · rw [if_pos habove] at h ⊢
        exact ih h
      · rw [if_neg habove] at h ⊢
        rw [entryAt?_insert hgiven]
        split at h
        · rename_i hnext
          have hne : target ≠ place ++ [name] := fun heq => hdirectory (heq ▸ hnext)
          rw [if_neg hne, hnext]
          exact ih h
        · obtain ⟨rfl, rfl⟩ := h
          rw [if_pos rfl]
          rfl

/-! ## Changes -/

theorem run_addDirectory (tree : FileTree) (path : FilePath) :
    (addDirectory path).run tree = match tree.walk path with
      | .found _ .directory => .ok () tree
      | .found _ (.file _) => .error (.exists path) tree
      | .free place => .ok () (tree.insert place .directory)
      | .blocked => .error (.notDirectory path) tree
      | .lost => .error (.missing path) tree := by
  rw [addDirectory, EStateM.run_bind]
  rcases hwalk : tree.walk path with ⟨place, _ | old⟩ | place | _ | _ <;>
    simp [hwalk, EStateM.run_get]

theorem run_addFile (tree : FileTree) (path : FilePath) (bytes : List UInt8) :
    (addFile path bytes).run tree = match tree.walk path with
      | .found place (.file _) => .ok () (tree.insert place (.file bytes))
      | .free place => .ok () (tree.insert place (.file bytes))
      | .found _ .directory => .error (.isDirectory path) tree
      | .blocked => .error (.notDirectory path) tree
      | .lost => .error (.missing path) tree := by
  rw [addFile, EStateM.run_bind]
  rcases hwalk : tree.walk path with ⟨place, _ | old⟩ | place | _ | _ <;>
    simp [hwalk, EStateM.run_get]

theorem run_addDirectories_cons (tree : FileTree) (anchor name : String) (above : List String) :
    (addDirectories anchor (name :: above)).run tree =
      if tree.walk ⟨anchor, (name :: above).reverse⟩ = .lost then
        (addDirectories anchor above >>= fun _ =>
          addDirectory ⟨anchor, (name :: above).reverse⟩).run tree
      else (addDirectory ⟨anchor, (name :: above).reverse⟩).run tree := by
  rw [addDirectories, EStateM.run_bind, EStateM.run_get]
  by_cases hlost : tree.walk ⟨anchor, (name :: above).reverse⟩ = .lost
  · rw [if_pos hlost]
    dsimp only
    rw [if_pos hlost]
  · rw [if_neg hlost]
    dsimp only
    rw [if_neg hlost]

/-- Making a directory leaves the files as they are, also if it is refused. -/
theorem ensures_addDirectory (path : FilePath) :
    Ensures (SameFiles before) (addDirectory path) (fun _ => SameFiles before)
      (fun _ => SameFiles before) := by
  intro tree hsame
  rw [run_addDirectory]
  rcases hwalk : tree.walk path with ⟨place, _ | old⟩ | place | _ | _
  case free => exact hsame.trans (sameFiles_insert_directory (entryAt?_of_walkFrom_eq_free hwalk))
  all_goals exact hsame

theorem ensures_addDirectories (anchor : String) (reversed : List String) :
    Ensures (SameFiles before) (addDirectories anchor reversed) (fun _ => SameFiles before)
      (fun _ => SameFiles before) := by
  induction reversed with
  | nil => exact ensures_pure fun _ hsame => hsame
  | cons name above ih =>
      intro tree hsame
      have hlast : Ensures (SameFiles before) (addDirectory ⟨anchor, (name :: above).reverse⟩)
          (fun _ => SameFiles before) (fun _ => SameFiles before) := ensures_addDirectory _
      rw [run_addDirectories_cons]
      by_cases hlost : tree.walk ⟨anchor, (name :: above).reverse⟩ = .lost
      · rw [if_pos hlost]
        exact ih.bind (fun _ => hlast) tree hsame
      · rw [if_neg hlost]
        exact hlast tree hsame

/-- Writing a file is refused before anything is changed, or the file is written. -/
theorem ensures_addFile (path : FilePath) (bytes : List UInt8) :
    Ensures (SameFiles before) (addFile path bytes) (fun _ => Wrote before path bytes)
      (fun _ => SameFiles before) := by
  intro tree hsame
  have hwrote : ∀ target, (tree.walk path).target? = some target →
      Wrote before path bytes (tree.insert target (.file bytes)) := by
    intro target htarget
    have hgiven := isGiven_eq_false_of_entryAt? (entryAt?_ne_of_target? htarget)
    exact ⟨target, walkFrom_insert htarget, fun place hplace =>
      (bytesAt?_insert_of_ne hgiven _ hplace).trans (hsame place)⟩
  rw [run_addFile]
  rcases hwalk : tree.walk path with ⟨target, _ | old⟩ | target | _ | _
  case found.file => exact hwrote target (by rw [hwalk, Walk.target?])
  case free => exact hwrote target (by rw [hwalk, Walk.target?])
  all_goals exact hsame

theorem ensures_store (path : FilePath) (bytes : List UInt8) :
    Ensures (SameFiles before) (store path bytes) (fun _ => Wrote before path bytes)
      (fun _ => SameFiles before) :=
  (ensures_addDirectories _ _).bind fun _ => ensures_addFile path bytes

end GeoMetadata.FileTree
