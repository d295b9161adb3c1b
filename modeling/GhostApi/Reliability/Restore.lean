import GhostApi.Reliability.Backup

/-!
# What a restore leaves in its target

A restore copies entry after entry. After each of them the target mirrors the
entries copied so far; the first entry that does not verify ends the run, and
what was copied before it stays.
-/

namespace GhostApi.Reliability

open Js Validation Effect Effect.Mutation Files

variable {α : Type} {reader : Reader α} {sourceDir targetDir : Path}

abbrev Disk (α : Type) := { tree : FileTree α // tree.Closed }

/-! ## Entries -/

def BackupManifestEntry.names (entry : BackupManifestEntry) : Path := join [] entry.path.val

theorem joinPath_path (directory : Path) (entry : BackupManifestEntry) :
    (joinPath directory entry.path.val).path = directory ++ entry.names :=
  join_eq_append entry.path.no_dots directory

theorem BackupManifestEntry.names_ne_dots {entry : BackupManifestEntry} {name : String} (h : name ∈ entry.names) :
    name ≠ ".." := by
  rintro rfl
  exact entry.path.no_dots (isInfix_of_namesOf (join_mem h))

theorem assertContained_entry (root : Path) (entry : BackupManifestEntry) :
    assertContained root (joinPath root entry.path.val).path = .ok () := by
  refine failIf_of_not (fun hHead => ?_) _
  rw [joinPath_path, relative_append] at hHead
  exact entry.names_ne_dots (List.mem_of_head? hHead) rfl

theorem lstat_eq_ok {tree : FileTree α} {location : Location} {content : α} :
    lstat tree location = .ok (.file content) ↔
      tree.lookup location.path = some (.file content) ∧ location.slash = false := by
  rw [lstat]
  split <;> simp_all

theorem verifyContent_eq_ok {entry : BackupManifestEntry} {node : Node α} :
    verifyContent reader entry node = .ok () ↔ ∃ content, node = .file content ∧ describes reader entry content = true ∧
      (endsWith entry.path.val ".json" = true → (reader.parse content).isSome = true) := by
  rw [verifyContent.eq_def]
  split
  · rename_i content
    rw [bind_unit_eq_ok, failIf_eq_ok, failIf_eq_ok]
    simp [Option.isSome_iff_ne_none]
  · rename_i hFile
    simp only [reduceCtorEq, false_iff, not_exists]
    rintro content ⟨rfl, _⟩
    exact hFile content rfl

structure Verifies (reader : Reader α) (tree : FileTree α) (directory : Path) (entry : BackupManifestEntry) (content : α) :
    Prop where
  file : tree.lookup (directory ++ entry.names) = some (.file content)
  plain : endsWith entry.path.val "/" = false
  described : describes reader entry content = true
  json : endsWith entry.path.val ".json" = true → (reader.parse content).isSome = true

theorem verifySourceEntry_eq_ok {tree : FileTree α} {directory : Path} {entry : BackupManifestEntry} :
    verifySourceEntry reader tree (joinPath directory entry.path.val) entry = .ok () ↔
      ∃ content, Verifies reader tree directory entry content := by
  rw [verifySourceEntry, bind_eq_ok_iff]
  constructor
  · rintro ⟨node, hNode, hVerified⟩
    obtain ⟨content, rfl, hDescribed, hJson⟩ := verifyContent_eq_ok.mp hVerified
    obtain ⟨hFile, hPlain⟩ := lstat_eq_ok.mp hNode
    rw [joinPath_path] at hFile
    exact ⟨content, hFile, hPlain, hDescribed, hJson⟩
  · rintro ⟨content, h⟩
    refine ⟨.file content, lstat_eq_ok.mpr ⟨?_, h.plain⟩, verifyContent_eq_ok.mpr ⟨content, rfl, h.described, h.json⟩⟩
    rw [joinPath_path]
    exact h.file

/-! ## Outside the target -/

def SameOutside (disk tree : FileTree α) (directory : Path) : Prop :=
  ∀ path, ¬directory <+: path → tree.lookup path = disk.lookup path

section Outside

variable {disk : Disk α}

theorem ensure_outside (hTarget : disk.val.lookup targetDir = some .directory) {path : Path} (rest : Path)
    (hPath : path <+: targetDir ++ rest) :
    (ensurePrivateDirectory path).Preserves fun tree : FileTree α => SameOutside disk.val tree targetDir := by
  intro tree hOutside
  rw [ensurePrivateDirectory, get_bind]
  rcases hMade : tree.makeDirectories (systemError "ENOTDIR" "not a directory" "mkdir") [] path with e | made
  · exact hOutside
  · rw [lift_bind, modify_bind]
    have hMadeOutside : SameOutside disk.val made targetDir := by
      intro other hOther
      rcases FileTree.makeDirectories_kept hMade other with hSame | ⟨hNone, _, hPrefix⟩
      · exact hSame.trans (hOutside other hOther)
      · rw [List.nil_append] at hPrefix
        rcases List.prefix_or_prefix_of_prefix (hPrefix.trans hPath) (List.prefix_append targetDir rest) with hAbove | hBelow
        · obtain ⟨below, hBelow⟩ := hAbove
          have hNe : below ≠ [] := by
            rintro rfl
            rw [List.append_nil] at hBelow
            exact hOther (hBelow ▸ List.prefix_rfl)
          have hExists : disk.val.lookup (other ++ below) ≠ none := by
            rw [hBelow, hTarget]
            simp
          rw [hOutside other hOther] at hNone
          rcases disk.property.above hNe hExists with hNode | ⟨_, hNode⟩
          · rw [hNone] at hNode
            cases hNode
          · rw [hNone] at hNode
            cases hNode
        · exact absurd hBelow hOther
    exact preserves_throwIf (I := fun tree => SameOutside disk.val tree targetDir) _ _ made hMadeOutside

theorem write_outside (hTarget : disk.val.lookup targetDir = some .directory) (entry : BackupManifestEntry) (content : α) :
    (atomicWriteBytes (joinPath targetDir entry.path.val) content).Preserves
      fun tree : FileTree α => SameOutside disk.val tree targetDir := by
  have hPath := joinPath_path targetDir entry
  rw [atomicWriteBytes]
  refine (ensure_outside hTarget entry.names ?_).bind fun _ => preserves_get.bind fun tree =>
    (preserves_throwIf _ _).bind fun _ => (preserves_throwIf _ _).bind fun _ => preserves_modify ?_
  · rw [hPath]
    exact List.dropLast_prefix _
  · intro tree hOutside other hOther
    rw [AList.lookup_insert_ne, hOutside other hOther]
    rintro rfl
    rw [hPath] at hOther
    exact hOther (List.prefix_append targetDir entry.names)

theorem copy_outside (hTarget : disk.val.lookup targetDir = some .directory) (source : Location)
    (entry : BackupManifestEntry) : (copyFileWithHash reader source (joinPath targetDir entry.path.val) entry).Preserves
      fun tree : FileTree α => SameOutside disk.val tree targetDir := by
  rw [copyFileWithHash]
  refine (ensure_outside hTarget entry.names ?_).bind fun _ => preserves_get.bind fun tree => (preserves_lift _).bind fun content =>
    (preserves_throwIf _ _).bind fun _ => write_outside hTarget entry content
  rw [joinPath_path]
  exact List.dropLast_prefix _

theorem restoreEntry_eq (entry : BackupManifestEntry) (tree : FileTree α) :
    restoreEntry reader sourceDir targetDir entry tree =
      (do liftM (verifySourceEntry reader tree (joinPath sourceDir entry.path.val) entry)
          copyFileWithHash reader (joinPath sourceDir entry.path.val) (joinPath targetDir entry.path.val) entry :
        Mutation (FileTree α) JsError Unit) tree := by
  rw [restoreEntry, normalizeEntryPath_val, lift_bind]
  rw [assertContained_entry, lift_bind, assertContained_entry, lift_bind, get_bind]

theorem restoreEntry_outside (hTarget : disk.val.lookup targetDir = some .directory) (entry : BackupManifestEntry) :
    (restoreEntry reader sourceDir targetDir entry).Preserves fun tree => SameOutside disk.val tree targetDir := by
  intro tree hOutside
  rw [restoreEntry_eq]
  exact (preserves_lift _).bind (fun _ => copy_outside hTarget _ entry) tree hOutside

theorem restore_outside (hTarget : disk.val.lookup targetDir = some .directory) :
    SameOutside disk.val (restoreRuntimeBackup reader sourceDir targetDir disk.val).2 targetDir := by
  have hPreserves : (restoreRuntimeBackup reader sourceDir targetDir).Preserves
      fun tree : FileTree α => SameOutside disk.val tree targetDir := by
    rw [restoreRuntimeBackup]
    exact preserves_get.bind fun _ => (preserves_lift _).bind fun manifest => (preserves_throwIf _ _).bind fun _ =>
      (preserves_throwIf _ _).bind fun _ => (ensure_outside hTarget [] (List.prefix_append targetDir [])).bind fun _ =>
      preserves_get.bind fun _ => (preserves_throwIf _ _).bind fun _ =>
      (Preserves.each fun entry _ => restoreEntry_outside hTarget entry).bind fun _ =>
      preserves_get.bind fun _ => (preserves_lift _).bind fun _ => preserves_pure _
  exact hPreserves disk.val fun _ _ => rfl

end Outside

/-! ## Directories on the way -/

theorem isLink_eq_false {tree : FileTree α} {path : Path} :
    isLink tree path = false ↔ ∀ content, tree.lookup path ≠ some (.link content) := by
  rw [isLink]
  split
  · rename_i content hLink
    simp [hLink]
  · rename_i hLink
    simp only [true_iff]
    exact hLink

theorem isDirectory_eq_false {tree : FileTree α} {path : Path} :
    isDirectory tree path = false ↔ tree.lookup path ≠ some .directory := by
  rw [isDirectory]
  split
  · rename_i hDirectory
    simp [hDirectory]
  · rename_i hDirectory
    simpa using hDirectory

theorem ensure_of_enterable {tree : FileTree α} {path : Path}
    (h : ∀ q, q <+: path → Node.isEnterable (tree.lookup q) = true) (hLink : isLink tree path = false) :
    ∃ tree', ensurePrivateDirectory path tree = (.ok (), tree') ∧ ensurePrivateDirectory path tree' = (.ok (), tree') ∧
      ∀ q, tree'.lookup q = tree.lookup q ∨
        tree.lookup q = none ∧ tree'.lookup q = some .directory ∧ q <+: path := by
  have hFree : ∀ q, q <+: path → q ≠ [] → Node.isEnterable (tree.lookup ([] ++ q)) = true := fun q hPrefix _ => h q hPrefix
  obtain ⟨made, hMade, hCreated⟩ := FileTree.makeDirectories_of_enterable (systemError "ENOTDIR" "not a directory" "mkdir") hFree
  have hKept := FileTree.makeDirectories_kept hMade
  have hMadeLink : ¬isLink made path = true := by
    rw [Bool.not_eq_true]
    rw [isLink_eq_false] at hLink ⊢
    intro content hNode
    rcases hKept path with hSame | ⟨_, hNew, _⟩
    · exact hLink content (hSame.symm.trans hNode)
    · rw [hNew] at hNode
      cases hNode
  have hExisting : ∀ q, q <+: path → q ≠ [] →
      made.lookup ([] ++ q) = some .directory ∨ ∃ content, made.lookup ([] ++ q) = some (.link content) := by
    intro q hPrefix hNe
    have hThere := hCreated q hPrefix hNe
    have hFree := h q hPrefix
    rw [List.nil_append] at hThere ⊢
    rw [hThere]
    generalize tree.lookup q = node at hFree ⊢
    rcases node with _ | ⟨content | _ | content | _⟩
    · exact .inl rfl
    · cases hFree
    · exact .inl rfl
    · exact .inr ⟨content, rfl⟩
    · cases hFree
  have hAgain := FileTree.makeDirectories_existing (systemError "ENOTDIR" "not a directory" "mkdir") hExisting
  refine ⟨made, ?_, ?_, hKept⟩
  · rw [ensurePrivateDirectory, get_bind, hMade, lift_bind, modify_bind, throwIf_of_not hMadeLink]
  · rw [ensurePrivateDirectory, get_bind, hAgain, lift_bind, modify_bind, throwIf_of_not hMadeLink]

/-! ## The entries one after the other -/

/-- What may lie below the target once some entries are copied: their files and the directories above them. -/
def Allowed (disk : FileTree α) (sourceDir : Path) (done : List BackupManifestEntry) (path : Path) : Option (Node α) → Prop
  | none => True
  | some (.file content) => (∃ entry ∈ done, entry.names = path) ∧ disk.lookup (sourceDir ++ path) = some (.file content)
  | some .directory => ∃ entry ∈ done, path <+: entry.names ∧ path ≠ entry.names
  | _ => False

structure Mirror (reader : Reader α) (disk : FileTree α) (sourceDir targetDir : Path) (done : List BackupManifestEntry)
    (tree : FileTree α) : Prop where
  outside : SameOutside disk tree targetDir
  root : tree.lookup targetDir = some .directory
  below : ∀ path, path ≠ [] → Allowed disk sourceDir done path (tree.lookup (targetDir ++ path))
  copied : ∀ entry ∈ done, tree.lookup (targetDir ++ entry.names) = disk.lookup (sourceDir ++ entry.names)
  verified : ∀ entry ∈ done, ∃ content, Verifies reader disk sourceDir entry content

/-- A backup directory and an empty target apart from each other. -/
structure Separate (disk : Disk α) (sourceDir targetDir : Path) : Prop where
  empty : disk.val.IsEmptyDirectory targetDir
  source : disk.val.lookup (sourceDir ++ [MANIFEST_NAME]) ≠ none
  outside : ¬sourceDir <+: targetDir

section Copies

variable {disk : Disk α}

theorem Separate.source_outside (h : Separate disk sourceDir targetDir) (path : Path) :
    ¬targetDir <+: sourceDir ++ path := by
  intro hPrefix
  rcases List.prefix_or_prefix_of_prefix hPrefix (List.prefix_append sourceDir path) with hAbove | hBelow
  · obtain ⟨below, hBelow⟩ := hAbove
    refine h.source ?_
    rw [← hBelow, List.append_assoc]
    exact h.empty.below disk.property (by simp)
  · exact h.outside hBelow

theorem Separate.mirror (h : Separate disk sourceDir targetDir) :
    Mirror reader disk.val sourceDir targetDir [] disk.val where
  outside := fun _ _ => rfl
  root := h.empty.directory
  below := by
    intro path hPath
    rw [h.empty.below disk.property hPath]
    trivial
  copied := by simp
  verified := by simp

variable {done : List BackupManifestEntry} {tree : FileTree α}

theorem Mirror.source (h : Mirror reader disk.val sourceDir targetDir done tree)
    (hSeparate : Separate disk sourceDir targetDir) (path : Path) :
    tree.lookup (sourceDir ++ path) = disk.val.lookup (sourceDir ++ path) :=
  h.outside _ (hSeparate.source_outside path)

theorem Mirror.verifies_iff (h : Mirror reader disk.val sourceDir targetDir done tree)
    (hSeparate : Separate disk sourceDir targetDir) {entry : BackupManifestEntry} {content : α} :
    Verifies reader tree sourceDir entry content ↔ Verifies reader disk.val sourceDir entry content := by
  have hSame := h.source hSeparate entry.names
  constructor
  · intro hTree
    exact { hTree with file := hSame.symm.trans hTree.file }
  · intro hDisk
    exact { hDisk with file := hSame.trans hDisk.file }

theorem Verifies.names_ne_nil {entry : BackupManifestEntry} {content : α} (h : Verifies reader disk.val sourceDir entry content)
    (hSeparate : Separate disk sourceDir targetDir) : entry.names ≠ [] := by
  intro hNil
  have hFile := h.file
  rw [hNil, List.append_nil] at hFile
  exact hSeparate.source (disk.property.file_below hFile (List.cons_ne_nil _ _))

theorem file_not_above {content : α} {path rest : Path}
    (hFile : disk.val.lookup (sourceDir ++ (path ++ rest)) = some (.file content)) (hRest : rest ≠ []) (other : α) :
    disk.val.lookup (sourceDir ++ path) ≠ some (.file other) := by
  intro hAbove
  rw [← List.append_assoc, disk.property.file_below hAbove hRest] at hFile
  cases hFile

theorem Mirror.above (h : Mirror reader disk.val sourceDir targetDir done tree)
    (hSeparate : Separate disk sourceDir targetDir) {q : Path} (hPrefix : q <+: targetDir) :
    tree.lookup q = some .directory ∨ ∃ content, tree.lookup q = some (.link content) := by
  obtain ⟨rest, hRest⟩ := hPrefix
  by_cases hNil : rest = []
  · rw [hNil, List.append_nil] at hRest
    exact .inl (hRest ▸ h.root)
  · have hTarget : disk.val.lookup (q ++ rest) ≠ none := by
      rw [hRest, hSeparate.empty.directory]
      simp
    have hOutside : ¬targetDir <+: q := by
      intro hBelow
      have hLength := hBelow.length_le
      have hSum := congrArg List.length hRest
      rw [List.length_append] at hSum
      have hPos := List.length_pos_iff.mpr hNil
      omega
    rw [h.outside q hOutside]
    exact disk.property.above hNil hTarget

theorem Mirror.enterable (h : Mirror reader disk.val sourceDir targetDir done tree)
    (hSeparate : Separate disk sourceDir targetDir) {path rest : Path} {content : α}
    (hFile : disk.val.lookup (sourceDir ++ (path ++ rest)) = some (.file content)) (hRest : rest ≠ []) {q : Path}
    (hPrefix : q <+: targetDir ++ path) : Node.isEnterable (tree.lookup q) = true := by
  rcases List.prefix_or_prefix_of_prefix hPrefix (List.prefix_append targetDir path) with hAbove | ⟨below, rfl⟩
  · rcases h.above hSeparate hAbove with hNode | ⟨linked, hNode⟩
    · rw [hNode]
      rfl
    · rw [hNode]
      rfl
  · by_cases hNil : below = []
    · rw [hNil, List.append_nil, h.root]
      rfl
    · have hAllowed := h.below below hNil
      obtain ⟨between, rfl⟩ := (List.prefix_append_right_inj targetDir).mp hPrefix
      rcases hNode : tree.lookup (targetDir ++ below) with _ | ⟨other | _ | linked | _⟩
      · rfl
      · rw [hNode] at hAllowed
        rw [List.append_assoc] at hFile
        exact absurd hAllowed.2 (file_not_above hFile (by simp [hRest]) other)
      · rfl
      · rfl
      · rw [hNode] at hAllowed
        exact hAllowed.elim

theorem Mirror.not_link (h : Mirror reader disk.val sourceDir targetDir done tree) (path : Path) :
    isLink tree (targetDir ++ path) = false := by
  rw [isLink_eq_false]
  intro content hLink
  by_cases hNil : path = []
  · rw [hNil, List.append_nil, h.root] at hLink
    cases hLink
  · have hAllowed := h.below path hNil
    rw [hLink] at hAllowed
    exact hAllowed

theorem Mirror.not_directory (h : Mirror reader disk.val sourceDir targetDir done tree) {path : Path} {content : α}
    (hFile : disk.val.lookup (sourceDir ++ path) = some (.file content)) (hPath : path ≠ []) :
    tree.lookup (targetDir ++ path) ≠ some .directory := by
  intro hDirectory
  have hAllowed := h.below path hPath
  rw [hDirectory] at hAllowed
  obtain ⟨entry, hEntry, ⟨rest, hRest⟩, hNe⟩ := hAllowed
  obtain ⟨other, hOther⟩ := h.verified entry hEntry
  have hBelow := hOther.file
  rw [← hRest] at hBelow
  refine file_not_above hBelow ?_ content hFile
  rintro rfl
  rw [List.append_nil] at hRest
  exact hNe hRest

theorem Allowed.cons {path : Path} {node : Option (Node α)} (h : Allowed disk.val sourceDir done path node)
    (entry : BackupManifestEntry) : Allowed disk.val sourceDir (entry :: done) path node := by
  rcases node with _ | ⟨content | _ | linked | _⟩
  · trivial
  · obtain ⟨⟨other, hOther, hNames⟩, hFile⟩ := h
    exact ⟨⟨other, List.mem_cons_of_mem entry hOther, hNames⟩, hFile⟩
  · obtain ⟨other, hOther, hAbove⟩ := h
    exact ⟨other, List.mem_cons_of_mem entry hOther, hAbove⟩
  · exact h
  · exact h

theorem Mirror.cons (h : Mirror reader disk.val sourceDir targetDir done tree) {entry : BackupManifestEntry} {content : α}
    (hEntry : Verifies reader disk.val sourceDir entry content) (hNames : entry.names ≠ []) {made : FileTree α}
    (hKept : ∀ q, made.lookup q = tree.lookup q ∨
      tree.lookup q = none ∧ made.lookup q = some .directory ∧ q <+: targetDir ++ entry.names.dropLast)
    (hOutside : SameOutside disk.val (made.insert (targetDir ++ entry.names) (.file content)) targetDir) :
    Mirror reader disk.val sourceDir targetDir (entry :: done) (made.insert (targetDir ++ entry.names) (.file content)) := by
  have hSame : ∀ q, tree.lookup q ≠ none → made.lookup q = tree.lookup q := fun q hNode =>
    (hKept q).resolve_right fun hNew => hNode hNew.1
  have hOther : ∀ path, path ≠ entry.names →
      (made.insert (targetDir ++ entry.names) (.file content)).lookup (targetDir ++ path) = made.lookup (targetDir ++ path) :=
    fun path hPath => AList.lookup_insert_ne fun hEq => hPath (List.append_cancel_left hEq)
  constructor
  case outside => exact hOutside
  case root =>
    have hRoot := hOther [] hNames.symm
    rw [List.append_nil] at hRoot
    rw [hRoot, hSame _ (by simp [h.root]), h.root]
  case below =>
    intro path hPath
    by_cases hEq : path = entry.names
    · rw [hEq, AList.lookup_insert]
      exact ⟨⟨entry, List.mem_cons_self, rfl⟩, hEntry.file⟩
    · rw [hOther path hEq]
      rcases hKept (targetDir ++ path) with hKeep | ⟨_, hNew, hPrefix⟩
      · rw [hKeep]
        exact (h.below path hPath).cons entry
      · rw [hNew]
        have hAbove := (List.prefix_append_right_inj targetDir).mp hPrefix
        exact ⟨entry, List.mem_cons_self, hAbove.trans (List.dropLast_prefix _), hEq⟩
  case copied =>
    intro other hMem
    by_cases hEq : other.names = entry.names
    · rw [hEq, AList.lookup_insert, hEntry.file]
    · have hDone := (List.mem_cons.mp hMem).resolve_left fun hSelf => hEq (by rw [hSelf])
      obtain ⟨copied, hCopied⟩ := h.verified other hDone
      have hThere := h.copied other hDone
      rw [hOther _ hEq, hSame _ (by simp [hThere, hCopied.file]), hThere]
  case verified =>
    rw [List.forall_mem_cons]
    exact ⟨⟨content, hEntry⟩, h.verified⟩

theorem Mirror.copy (h : Mirror reader disk.val sourceDir targetDir done tree)
    (hSeparate : Separate disk sourceDir targetDir) {entry : BackupManifestEntry} {content : α}
    (hEntry : Verifies reader disk.val sourceDir entry content) :
    ∃ tree', restoreEntry reader sourceDir targetDir entry tree = (.ok (), tree') ∧
      Mirror reader disk.val sourceDir targetDir (entry :: done) tree' := by
  have hNames := hEntry.names_ne_nil hSeparate
  have hSplit : entry.names.dropLast ++ [entry.names.getLast hNames] = entry.names :=
    List.dropLast_append_getLast hNames
  have hParent : (joinPath targetDir entry.path.val).path.dropLast = targetDir ++ entry.names.dropLast := by
    rw [joinPath_path, List.dropLast_append_of_ne_nil hNames]
  have hFile : disk.val.lookup (sourceDir ++ (entry.names.dropLast ++ [entry.names.getLast hNames])) = some (.file content) := by
    rw [hSplit]
    exact hEntry.file
  have hFree : ∀ q, q <+: targetDir ++ entry.names.dropLast → Node.isEnterable (tree.lookup q) = true :=
    fun q hPrefix => h.enterable hSeparate hFile (List.cons_ne_nil _ _) hPrefix
  obtain ⟨made, hEnsure, hAgain, hKept⟩ := ensure_of_enterable hFree (h.not_link _)
  have hRead : readFile made (joinPath sourceDir entry.path.val).path = .ok content := by
    have hThere := (h.verifies_iff hSeparate).mpr hEntry
    have hSame := (hKept (sourceDir ++ entry.names)).resolve_right fun hNew => by simp [hThere.file] at hNew
    rw [joinPath_path, readFile, hSame, hThere.file]
  have hDirectory : isDirectory made (joinPath targetDir entry.path.val).path = false := by
    rw [isDirectory_eq_false, joinPath_path]
    rcases hKept (targetDir ++ entry.names) with hSame | ⟨_, _, hPrefix⟩
    · rw [hSame]
      exact h.not_directory hEntry.file hNames
    · have hLength := ((List.prefix_append_right_inj targetDir).mp hPrefix).length_le
      have hPos := List.length_pos_iff.mpr hNames
      rw [List.length_dropLast] at hLength
      omega
  have hRun : restoreEntry reader sourceDir targetDir entry tree =
      (.ok (), made.insert (targetDir ++ entry.names) (.file content)) := by
    have hVerify := verifySourceEntry_eq_ok.mpr ⟨content, (h.verifies_iff hSeparate).mpr hEntry⟩
    rw [restoreEntry_eq, hVerify, lift_bind, copyFileWithHash, hParent, bind_of_ok hEnsure, get_bind, hRead, lift_bind,
      bind_of_ok (throwIf_of_not (by simp [hEntry.described]) _ _), atomicWriteBytes, hParent, bind_of_ok hAgain, get_bind,
      bind_of_ok (throwIf_of_not (by simp [joinPath, hEntry.plain]) _ _),
      bind_of_ok (throwIf_of_not (by simp [hDirectory]) _ _), joinPath_path]
    rfl
  refine ⟨_, hRun, h.cons hEntry hNames hKept ?_⟩
  exact (restoreEntry_outside hSeparate.empty.directory entry).of_eq h.outside hRun

def isIntact (reader : Reader α) (disk : FileTree α) (sourceDir : Path) (entry : BackupManifestEntry) : Bool :=
  (verifySourceEntry reader disk (joinPath sourceDir entry.path.val) entry).isOk

theorem isIntact_iff {entry : BackupManifestEntry} :
    isIntact reader disk.val sourceDir entry = true ↔ ∃ content, Verifies reader disk.val sourceDir entry content := by
  rw [← verifySourceEntry_eq_ok, isIntact]
  rcases verifySourceEntry reader disk.val (joinPath sourceDir entry.path.val) entry with e | ⟨⟩
  · simp [Except.isOk, Except.toBool]
  · simp [Except.isOk, Except.toBool]

theorem Mirror.refuse (h : Mirror reader disk.val sourceDir targetDir done tree)
    (hSeparate : Separate disk sourceDir targetDir) {entry : BackupManifestEntry}
    (hEntry : isIntact reader disk.val sourceDir entry = false) :
    ∃ e, restoreEntry reader sourceDir targetDir entry tree = (.error e, tree) := by
  rw [restoreEntry_eq]
  rcases hVerify : verifySourceEntry reader tree (joinPath sourceDir entry.path.val) entry with e | ⟨⟩
  · exact ⟨e, rfl⟩
  · obtain ⟨content, hContent⟩ := verifySourceEntry_eq_ok.mp hVerify
    rw [isIntact_iff.mpr ⟨content, (h.verifies_iff hSeparate).mp hContent⟩] at hEntry
    cases hEntry

theorem Mirror.each (h : Mirror reader disk.val sourceDir targetDir done tree)
    (hSeparate : Separate disk sourceDir targetDir) (entries : List BackupManifestEntry) :
    ∃ r tree', each (restoreEntry reader sourceDir targetDir) entries tree = (r, tree') ∧
      (r = .ok () ↔ ∀ entry ∈ entries, isIntact reader disk.val sourceDir entry = true) ∧
      Mirror reader disk.val sourceDir targetDir
        ((entries.takeWhile (isIntact reader disk.val sourceDir)).reverse ++ done) tree' := by
  induction entries generalizing done tree with
  | nil => exact ⟨.ok (), tree, rfl, by simp, h⟩
  | cons entry entries ih =>
    rw [List.forall_mem_cons, Effect.Mutation.each]
    cases hEntry : isIntact reader disk.val sourceDir entry with
    | true =>
      obtain ⟨content, hContent⟩ := isIntact_iff.mp hEntry
      obtain ⟨copied, hCopy, hCopied⟩ := h.copy hSeparate hContent
      obtain ⟨r, tree', hRest, hOk, hMirror⟩ := ih hCopied
      refine ⟨r, tree', (bind_of_ok hCopy).trans hRest, by simp [hOk], ?_⟩
      rw [List.takeWhile_cons_of_pos hEntry, List.reverse_cons, List.append_assoc]
      exact hMirror
    | false =>
      obtain ⟨e, hRefused⟩ := h.refuse hSeparate hEntry
      refine ⟨.error e, tree, bind_of_error hRefused, by simp, ?_⟩
      rw [List.takeWhile_cons_of_neg (by simp [hEntry])]
      exact h

theorem Mirror.verify (h : Mirror reader disk.val sourceDir targetDir done tree) {manifest : BackupManifest}
    (hDone : ∀ entry ∈ manifest.entries, entry ∈ done) : verifyRestoredFiles reader targetDir tree manifest = .ok () := by
  refine forM_eq_ok.mpr fun entry hEntry => ?_
  obtain ⟨content, hContent⟩ := h.verified entry (hDone entry hEntry)
  have hCopy : Verifies reader tree targetDir entry content :=
    { hContent with file := (h.copied entry (hDone entry hEntry)).trans hContent.file }
  have hVerify := verifySourceEntry_eq_ok.mpr ⟨content, hCopy⟩
  rw [verifyRestoredEntry, normalizeEntryPath_val, ok_bind]
  dsimp only
  rw [assertContained_entry, ok_bind, hVerify]

theorem Mirror.mem_files (h : Mirror reader disk.val sourceDir targetDir done tree) {path : Path} :
    path ∈ tree.filesBelow targetDir ↔ ∃ entry ∈ done, path = join targetDir entry.path.val := by
  rw [FileTree.mem_filesBelow]
  constructor
  · rintro ⟨⟨below, rfl⟩, content, hFile⟩
    have hNil : below ≠ [] := by
      rintro rfl
      rw [List.append_nil, h.root] at hFile
      cases hFile
    have hAllowed := h.below below hNil
    rw [hFile] at hAllowed
    obtain ⟨⟨entry, hEntry, rfl⟩, _⟩ := hAllowed
    exact ⟨entry, hEntry, (joinPath_path targetDir entry).symm⟩
  · rintro ⟨entry, hEntry, rfl⟩
    obtain ⟨content, hContent⟩ := h.verified entry hEntry
    have hPath : join targetDir entry.path.val = targetDir ++ entry.names := joinPath_path targetDir entry
    rw [hPath]
    exact ⟨List.prefix_append _ _, content, (h.copied entry hEntry).trans hContent.file⟩

end Copies

/-! ## The whole restore -/

/-- One file for each entry of the manifest, with its size and hash, and the number of the files. -/
structure RestoredExactly (reader : Reader α) (tree : FileTree α) (targetDir : Path) (manifest : BackupManifest)
    (result : RestoreResult) : Prop where
  files : (tree.filesBelow targetDir).Perm (manifest.entries.map fun entry => join targetDir entry.path.val)
  contents : ∀ entry ∈ manifest.entries, ∃ content,
    tree.lookup (join targetDir entry.path.val) = some (.file content) ∧ describes reader entry content = true
  count : result.restoredFileCount = (tree.filesBelow targetDir).length

/-- A restore that throws leaves no file in its target, one that returns leaves what the manifest lists,
and neither touches anything else. -/
def AllOrNothing (reader : Reader α) (disk : Disk α) (sourceDir targetDir : Path) : Prop :=
  SameOutside disk.val (restoreRuntimeBackup reader sourceDir targetDir disk.val).2 targetDir ∧
    match restoreRuntimeBackup reader sourceDir targetDir disk.val with
    | (.error _, tree) => tree.filesBelow targetDir = []
    | (.ok result, tree) => ∃ manifest, readManifest reader sourceDir disk.val = .ok manifest ∧
      RestoredExactly reader tree targetDir manifest result

/-- The first entry fails its check, or all pass and lie at places of their own that the manifest counts. -/
def IsRestorable (reader : Reader α) (disk : Disk α) (sourceDir targetDir : Path) (manifest : BackupManifest) : Prop :=
  (∃ entry, manifest.entries.head? = some entry ∧ isIntact reader disk.val sourceDir entry = false) ∨
    (∀ entry ∈ manifest.entries, isIntact reader disk.val sourceDir entry = true) ∧
      (manifest.entries.map fun entry => join targetDir entry.path.val).Nodup ∧
      manifest.fileCount.val = manifest.entries.length

variable {disk : Disk α}

theorem readManifest_exists {manifest : BackupManifest} (h : readManifest reader sourceDir disk.val = .ok manifest) :
    disk.val.lookup (sourceDir ++ [MANIFEST_NAME]) ≠ none := by
  intro hNone
  obtain ⟨content, hRead, _⟩ := bind_eq_ok h
  have hPath : join sourceDir MANIFEST_NAME = sourceDir ++ [MANIFEST_NAME] := join_eq_append (by decide) sourceDir
  rw [readFile, hPath, hNone] at hRead
  cases hRead

theorem separate_of (hSource : sourceDir ≠ []) (hTarget : disk.val.IsEmptyDirectory targetDir) {manifest : BackupManifest}
    (hManifest : readManifest reader sourceDir disk.val = .ok manifest) (hInside : isInside sourceDir targetDir = false) :
    Separate disk sourceDir targetDir where
  empty := hTarget
  source := readManifest_exists hManifest
  outside := by
    intro hPrefix
    rw [← List.isPrefixOf_iff_prefix] at hPrefix
    simp [isInside, hSource, hPrefix] at hInside

theorem restore_refused (h : ∀ manifest, readManifest reader sourceDir disk.val = .ok manifest →
    manifest.verified = true → isInside sourceDir targetDir = true) :
    ∃ e, restoreRuntimeBackup reader sourceDir targetDir disk.val = (.error e, disk.val) := by
  rw [restoreRuntimeBackup, get_bind]
  rcases hManifest : readManifest reader sourceDir disk.val with e | manifest
  · exact ⟨e, rfl⟩
  · rw [lift_bind]
    by_cases hVerified : manifest.verified = false
    · exact ⟨_, bind_of_error (throwIf_of hVerified _ _)⟩
    · have hInside := h manifest hManifest (by simpa using hVerified)
      rw [bind_of_ok (throwIf_of_not hVerified _ _)]
      exact ⟨_, bind_of_error (throwIf_of hInside _ _)⟩

theorem restore_run (hTarget : disk.val.IsEmptyDirectory targetDir) {manifest : BackupManifest}
    (hManifest : readManifest reader sourceDir disk.val = .ok manifest) (hVerified : manifest.verified = true)
    (hInside : isInside sourceDir targetDir = false) (hSeparate : Separate disk sourceDir targetDir) :
    ∃ tree, Mirror reader disk.val sourceDir targetDir
        (manifest.entries.takeWhile (isIntact reader disk.val sourceDir)).reverse tree ∧
      ((∀ entry ∈ manifest.entries, isIntact reader disk.val sourceDir entry = true) →
        restoreRuntimeBackup reader sourceDir targetDir disk.val = (.ok ⟨manifest.fileCount.val, true, targetDir⟩, tree)) ∧
      ((¬∀ entry ∈ manifest.entries, isIntact reader disk.val sourceDir entry = true) →
        ∃ e, restoreRuntimeBackup reader sourceDir targetDir disk.val = (.error e, tree)) := by
  have hStart : Mirror reader disk.val sourceDir targetDir [] disk.val := hSeparate.mirror
  obtain ⟨r, tree, hEach, hOk, hMirror⟩ := hStart.each hSeparate manifest.entries
  rw [List.append_nil] at hMirror
  have hEnsure : ensurePrivateDirectory targetDir disk.val = (.ok (), disk.val) := by
    have hLink : ¬isLink disk.val targetDir = true := by simp [isLink, hTarget.directory]
    rw [ensurePrivateDirectory, get_bind, disk.property.makeDirectories_eq _ hTarget.directory, lift_bind, modify_bind,
      throwIf_of_not hLink]
  have hRun : restoreRuntimeBackup reader sourceDir targetDir disk.val =
      (do each (restoreEntry reader sourceDir targetDir) manifest.entries
          let restored ← get
          verifyRestoredFiles reader targetDir restored manifest
          return ⟨manifest.fileCount.val, true, targetDir⟩ : Mutation (FileTree α) JsError RestoreResult) disk.val := by
    rw [restoreRuntimeBackup, get_bind, hManifest, lift_bind, bind_of_ok (throwIf_of_not (by simp [hVerified]) _ _),
      bind_of_ok (throwIf_of_not (by simp [hInside]) _ _), bind_of_ok hEnsure, get_bind,
      bind_of_ok (throwIf_of_not (by simp [hTarget.children_eq]) _ _)]
  refine ⟨tree, hMirror, fun hAll => ?_, fun hNotAll => ?_⟩
  · rw [hOk.mpr hAll] at hEach
    have hDone : ∀ entry ∈ manifest.entries,
        entry ∈ (manifest.entries.takeWhile (isIntact reader disk.val sourceDir)).reverse := by
      intro entry hEntry
      rwa [List.mem_reverse, List.takeWhile_eq_self_iff.mpr hAll]
    rw [hRun, bind_of_ok hEach, get_bind, hMirror.verify hDone, lift_bind]
    rfl
  · rcases r with e | ⟨⟩
    · exact ⟨e, hRun.trans (bind_of_error hEach)⟩
    · exact absurd (hOk.mp rfl) hNotAll

theorem empty_files (hTarget : disk.val.IsEmptyDirectory targetDir) : disk.val.filesBelow targetDir = [] := by
  refine List.eq_nil_iff_forall_not_mem.mpr fun path hPath => ?_
  obtain ⟨⟨below, rfl⟩, content, hFile⟩ := FileTree.mem_filesBelow.mp hPath
  by_cases hNil : below = []
  · rw [hNil, List.append_nil, hTarget.directory] at hFile
    cases hFile
  · rw [hTarget.below disk.property hNil] at hFile
    cases hFile

theorem loop_iff (hTarget : disk.val.IsEmptyDirectory targetDir) {manifest : BackupManifest}
    (hManifest : readManifest reader sourceDir disk.val = .ok manifest) (hVerified : manifest.verified = true)
    (hInside : isInside sourceDir targetDir = false) (hSeparate : Separate disk sourceDir targetDir) :
    AllOrNothing reader disk sourceDir targetDir ↔ IsRestorable reader disk sourceDir targetDir manifest := by
  obtain ⟨tree, hMirror, hReturn, hThrow⟩ := restore_run hTarget hManifest hVerified hInside hSeparate
  have hOutside : SameOutside disk.val (restoreRuntimeBackup reader sourceDir targetDir disk.val).2 targetDir :=
    restore_outside hTarget.directory
  rw [AllOrNothing, and_iff_right hOutside]
  by_cases hAll : ∀ entry ∈ manifest.entries, isIntact reader disk.val sourceDir entry = true
  · rw [hReturn hAll]
    dsimp only
    rw [List.takeWhile_eq_self_iff.mpr hAll] at hMirror
    have hFiles : ∀ path, path ∈ tree.filesBelow targetDir ↔
        path ∈ manifest.entries.map fun entry => join targetDir entry.path.val := by
      intro path
      rw [hMirror.mem_files, List.mem_map]
      simp only [List.mem_reverse, eq_comm]
    constructor
    · rintro ⟨other, hOther, hExact⟩
      rw [hManifest] at hOther
      cases hOther
      refine .inr ⟨hAll, hExact.files.nodup_iff.mp (FileTree.filesBelow_nodup tree targetDir), ?_⟩
      have hLength := hExact.files.length_eq
      rw [List.length_map] at hLength
      exact hExact.count.trans hLength
    · rintro (⟨entry, hHead, hBad⟩ | ⟨_, hNodup, hCount⟩)
      · rw [hAll entry (List.mem_of_head? hHead)] at hBad
        cases hBad
      · have hPerm := (List.perm_ext_iff_of_nodup (FileTree.filesBelow_nodup tree targetDir) hNodup).mpr hFiles
        refine ⟨manifest, hManifest, hPerm, fun entry hEntry => ?_, ?_⟩
        · have hDone := List.mem_reverse.mpr hEntry
          have hPath : join targetDir entry.path.val = targetDir ++ entry.names := joinPath_path targetDir entry
          obtain ⟨content, hContent⟩ := hMirror.verified entry hDone
          rw [hPath]
          exact ⟨content, (hMirror.copied entry hDone).trans hContent.file, hContent.described⟩
        · have hLength := hPerm.length_eq
          rw [List.length_map] at hLength
          exact hCount.trans hLength.symm
  · obtain ⟨e, hError⟩ := hThrow hAll
    rw [hError]
    dsimp only
    constructor
    · intro hNone
      rcases hHead : manifest.entries.head? with _ | entry
      · rw [List.head?_eq_none_iff] at hHead
        exact absurd (by simp [hHead]) hAll
      · refine .inl ⟨entry, hHead, ?_⟩
        by_contra hIntact
        obtain ⟨rest, hRest⟩ := List.head?_eq_some_iff.mp hHead
        rw [hRest, List.takeWhile_cons_of_pos (by simpa using hIntact)] at hMirror
        have hFile := hMirror.mem_files.mpr ⟨entry, by simp, rfl⟩
        rw [hNone] at hFile
        exact List.not_mem_nil hFile
    · rintro (⟨entry, hHead, hBad⟩ | ⟨hIntact, _⟩)
      · obtain ⟨rest, hRest⟩ := List.head?_eq_some_iff.mp hHead
        rw [hRest, List.takeWhile_cons_of_neg (by simp [hBad])] at hMirror
        refine List.eq_nil_iff_forall_not_mem.mpr fun path hPath => ?_
        obtain ⟨other, hOther, _⟩ := hMirror.mem_files.mp hPath
        exact List.not_mem_nil hOther
      · exact absurd hIntact hAll

/-- A restore is all or nothing exactly when it is refused before its first copy, when its first entry fails the
check, or when every entry passes it, no two entries share a place and the manifest's count is the number of entries. -/
theorem restore_allOrNothing_iff (hSource : sourceDir ≠ []) (hTarget : disk.val.IsEmptyDirectory targetDir) :
    AllOrNothing reader disk sourceDir targetDir ↔ ∀ manifest, readManifest reader sourceDir disk.val = .ok manifest →
      manifest.verified = true → isInside sourceDir targetDir = false →
      IsRestorable reader disk sourceDir targetDir manifest := by
  by_cases hReached : ∃ manifest, readManifest reader sourceDir disk.val = .ok manifest ∧ manifest.verified = true ∧
      isInside sourceDir targetDir = false
  · obtain ⟨manifest, hManifest, hVerified, hInside⟩ := hReached
    rw [loop_iff hTarget hManifest hVerified hInside (separate_of hSource hTarget hManifest hInside)]
    constructor
    · intro hRestorable other hOther _ _
      rw [hManifest] at hOther
      cases hOther
      exact hRestorable
    · intro hAll
      exact hAll manifest hManifest hVerified hInside
  · have hRefused : ∀ manifest, readManifest reader sourceDir disk.val = .ok manifest →
        manifest.verified = true → isInside sourceDir targetDir = true := by
      intro manifest hManifest hVerified
      by_contra hInside
      exact hReached ⟨manifest, hManifest, hVerified, by simpa using hInside⟩
    obtain ⟨e, hError⟩ := restore_refused hRefused
    have hHolds : AllOrNothing reader disk sourceDir targetDir := by
      rw [AllOrNothing, hError]
      exact ⟨fun _ _ => rfl, empty_files hTarget⟩
    refine iff_of_true hHolds fun manifest hManifest hVerified hInside => ?_
    rw [hRefused manifest hManifest hVerified] at hInside
    cases hInside

/-! ## A backup with one file -/

mutual
/-- The value that JSON.parse reads from the text of a value. -/
def parsed : Json → JsValue
  | .null => .null
  | .bool b => .bool b
  | .number z => .number (.integer z)
  | .fraction text => .number (.fraction text)
  | .string s => .string s
  | .array items => .array (parsedItems items)
  | .object fields => .object (parsedFields fields)

def parsedItems : List Json → List JsValue
  | [] => []
  | item :: rest => parsed item :: parsedItems rest

def parsedFields : List (String × Json) → List (String × JsValue)
  | [] => []
  | (key, value) :: rest => (key, parsed value) :: parsedFields rest
end

def noteManifest (paths : List String) : Json := .object
  [("schemaVersion", .number 1), ("kind", .string MANIFEST_KIND), ("backupId", .string "backup-1"),
   ("createdAt", .string "2026-08-16T12:00:00.000Z"), ("sourceDataDir", .string "/data"),
   ("fileCount", .number paths.length), ("totalBytes", .number paths.length),
   ("entries", .array (paths.map fun path =>
     .object [("path", .string path), ("size", .number 1), ("sha256", .string (Js.sha256 "a"))])),
   ("verified", .bool true)]

def noteReader (paths : List String) : Reader String where
  byteLength := String.utf8ByteSize
  sha256 := Js.sha256
  parse := fun text => if text = Json.fileText (noteManifest paths) then some (parsed (noteManifest paths)) else none

/-- The backup directory holds its manifest and one file, whatever the manifest lists. -/
def noteTree (paths : List String) : FileTree String := List.toAList
  [⟨[], .directory⟩, ⟨["backup"], .directory⟩, ⟨["restored"], .directory⟩, ⟨["backup", "a.txt"], .file "a"⟩,
   ⟨["backup", "manifest.json"], .file (Json.fileText (noteManifest paths))⟩]

theorem noteTree_isClosed (paths : List String) : (noteTree paths).isClosed = true := rfl

def noteDisk (paths : List String) : Disk String := ⟨noteTree paths, FileTree.closed_of_isClosed (noteTree_isClosed paths)⟩

theorem noteDisk_target (paths : List String) : (noteDisk paths).val.IsEmptyDirectory ["restored"] :=
  FileTree.isEmptyDirectory_of rfl rfl

def throwsAndLeaves (reader : Reader α) (disk : Disk α) (sourceDir targetDir : Path) (files : List Path) : Bool :=
  match restoreRuntimeBackup reader sourceDir targetDir disk.val with
  | (.error _, tree) => tree.filesBelow targetDir == files
  | _ => false

theorem not_allOrNothing {reader : Reader α} {files : List Path}
    (h : throwsAndLeaves reader disk sourceDir targetDir files = true) (hFiles : files ≠ []) :
    ¬AllOrNothing reader disk sourceDir targetDir := by
  rintro ⟨_, hOutcome⟩
  rw [throwsAndLeaves] at h
  rcases hRun : restoreRuntimeBackup reader sourceDir targetDir disk.val with ⟨e | result, tree⟩
  · rw [hRun] at h hOutcome
    have hLeft : tree.filesBelow targetDir = files := beq_iff_eq.mp h
    exact hFiles (hLeft.symm.trans hOutcome)
  · rw [hRun] at h
    cases h

theorem restore_throws : throwsAndLeaves (noteReader ["a.txt", "b.txt"]) (noteDisk ["a.txt", "b.txt"]) ["backup"]
    ["restored"] [["restored", "a.txt"]] = true := by decide +kernel

/-- The second entry is missing from the backup: the restore throws and leaves the first. -/
theorem restore_leaves_file : (noteDisk ["a.txt", "b.txt"]).val.IsEmptyDirectory ["restored"] ∧
    ¬AllOrNothing (noteReader ["a.txt", "b.txt"]) (noteDisk ["a.txt", "b.txt"]) ["backup"] ["restored"] := by
  refine ⟨noteDisk_target _, not_allOrNothing restore_throws ?_⟩
  simp

/-- The second case of a restorable manifest, as a test. -/
def listsIntact (reader : Reader α) (disk : Disk α) (sourceDir targetDir : Path) (manifest : BackupManifest) : Bool :=
  manifest.entries.all (isIntact reader disk.val sourceDir) &&
    decide (manifest.entries.map fun entry => join targetDir entry.path.val).Nodup &&
    decide (manifest.fileCount.val = manifest.entries.length)

theorem isRestorable_of_listsIntact {manifest : BackupManifest}
    (h : listsIntact reader disk sourceDir targetDir manifest = true) :
    IsRestorable reader disk sourceDir targetDir manifest := by
  rw [listsIntact, Bool.and_eq_true, Bool.and_eq_true, List.all_eq_true, decide_eq_true_eq, decide_eq_true_eq] at h
  exact .inr ⟨h.1.1, h.1.2, h.2⟩

theorem note_listed : ((readManifest (noteReader ["a.txt"]) ["backup"] (noteDisk ["a.txt"]).val).toOption.any
    (listsIntact (noteReader ["a.txt"]) (noteDisk ["a.txt"]) ["backup"] ["restored"])) = true := by decide +kernel

theorem restore_copies_file :
    AllOrNothing (noteReader ["a.txt"]) (noteDisk ["a.txt"]) ["backup"] ["restored"] := by
  refine (restore_allOrNothing_iff (by simp) (noteDisk_target _)).mpr fun manifest hManifest _ _ => ?_
  have hListed := note_listed
  rw [hManifest] at hListed
  exact isRestorable_of_listsIntact hListed

end GhostApi.Reliability
