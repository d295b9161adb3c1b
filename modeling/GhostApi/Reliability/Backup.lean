import GhostApi.Lib.Files
import GhostApi.Validation

/-!
# Restoring a backup of the runtime data

A manifest lists the files of a backup with their sizes and hashes. A restore
reads it, checks every entry in the backup directory and copies it, one entry
after the other, and checks the copies at the end. Disk errors do not occur,
and the temporary file of a write is gone when the write returns.
-/

namespace GhostApi.Reliability

open Js Validation Effect Effect.Mutation Files

def RuntimeHealthError (message : String) : JsError := ⟨"RuntimeHealthError", message, none⟩

def MANIFEST_SCHEMA_VERSION : Int := 1

def MANIFEST_KIND : String := "ghostapi.runtime-backup"

def MANIFEST_NAME : String := "manifest.json"

def BACKUP_MAX_BYTES : Nat := 64 * 1024 * 1024

/-! ## Entry paths -/

def includes (s part : String) : Bool := decide (part.toList <:+: s.toList)

def beginsWith (s start : String) : Bool := start.toList.isPrefixOf s.toList

def endsWith (s ending : String) : Bool := ending.toList.isSuffixOf s.toList

/-- /^[A-Za-z]:[\\/]/ with the separators that are given. -/
def startsWithDrive (separators : List Char) (s : String) : Bool := match s.toList with
  | letter :: ':' :: separator :: _ => (isLower letter || isUpper letter) && separators.contains separator
  | _ => false

/-- value.replace(/\\/g, "/") -/
def withSlashes (s : String) : String := String.ofList (s.toList.map fun c => if c = '\\' then '/' else c)

def acceptsEntryPath (s : String) : Bool :=
  trim s != "" && decide (Js.length s ≤ 4000) && !includes s ".." && !beginsWith s "/" &&
    !startsWithDrive ['\\', '/'] s

def acceptsNormalized (s : String) : Bool :=
  !s.toList.contains '\x00' && !beginsWith s "/" && !startsWithDrive ['/'] s

def normalForm (s : String) : Option String :=
  if acceptsEntryPath s && acceptsNormalized (withSlashes s) then some (withSlashes s) else none

theorem trim_ne_empty_iff {s : String} : trim s ≠ "" ↔ ∃ c ∈ s.toList, isSpace c = false := by
  have hEmpty : trim s = "" ↔ trimList s.toList = [] := by
    rw [trim, ← String.toList_inj, String.toList_ofList]
    rfl
  rw [ne_eq, hEmpty]
  constructor
  · intro hTrim
    obtain ⟨c, hc⟩ := List.exists_mem_of_ne_nil _ hTrim
    by_contra hNone
    push Not at hNone
    have hDrop : s.toList.dropWhile isSpace = [] := by
      rw [List.dropWhile_eq_nil_iff]
      intro d hd
      simpa using hNone d hd
    rw [trimList, hDrop] at hTrim
    exact hTrim rfl
  · rintro ⟨c, hc, hSpace⟩ hTrim
    obtain ⟨before, after, hContext, hBefore, hAfter⟩ := trimList_context s.toList
    rw [hTrim, List.append_nil] at hContext
    rw [hContext, List.mem_append] at hc
    rcases hc with hc | hc
    · simp [hBefore c hc] at hSpace
    · simp [hAfter c hc] at hSpace

theorem withSlashes_toList (s : String) :
    (withSlashes s).toList = s.toList.map fun c => if c = '\\' then '/' else c := String.toList_ofList

theorem withSlashes_idempotent (s : String) : withSlashes (withSlashes s) = withSlashes s := by
  rw [← String.toList_inj, withSlashes_toList (withSlashes s), withSlashes_toList s, List.map_map]
  refine List.map_congr_left fun c _ => ?_
  by_cases hc : c = '\\'
  · simp [hc]
  · simp [hc]

theorem length_withSlashes (s : String) : Js.length (withSlashes s) = Js.length s := by
  rw [Js.length, Js.length, withSlashes_toList, lengthOf, lengthOf, List.map_map]
  congr 1
  refine List.map_congr_left fun c _ => ?_
  by_cases hc : c = '\\'
  · simp [hc, codeUnits]
  · simp [hc]

theorem infix_of_withSlashes {s : String} (h : ['.', '.'] <:+: (withSlashes s).toList) : ['.', '.'] <:+: s.toList := by
  rw [withSlashes_toList, List.infix_map_iff] at h
  obtain ⟨dots, hDots, hMap⟩ := h
  have hChar : ∀ c : Char, '.' = (if c = '\\' then '/' else c) → c = '.' := by
    intro c hc
    split at hc
    · exact absurd hc (by decide)
    · exact hc.symm
  obtain ⟨first, rest, rfl, hFirst, hRest⟩ := List.map_eq_cons_iff.mp hMap.symm
  obtain ⟨second, rest, rfl, hSecond, hRest⟩ := List.map_eq_cons_iff.mp hRest
  rw [List.map_eq_nil_iff.mp hRest, hChar first hFirst.symm, hChar second hSecond.symm] at hDots
  exact hDots

theorem no_backslash (s : String) : '\\' ∉ (withSlashes s).toList := by
  rw [withSlashes_toList, List.mem_map]
  rintro ⟨c, _, hc⟩
  split at hc
  · exact absurd hc (by decide)
  · exact absurd hc ‹_›

theorem startsWithDrive_of_no_backslash {s : String} (h : '\\' ∉ s.toList) :
    startsWithDrive ['\\', '/'] s = startsWithDrive ['/'] s := by
  rw [startsWithDrive, startsWithDrive]
  split
  · rename_i letter separator rest hChars
    rw [hChars] at h
    have hNe : separator ≠ '\\' := by
      rintro rfl
      simp at h
    simp [hNe]
  · rfl

theorem normalForm_idempotent {s t : String} (h : normalForm s = some t) : normalForm t = some t := by
  rw [normalForm] at h
  split at h
  · rename_i hAccepted
    cases h
    rw [Bool.and_eq_true] at hAccepted
    obtain ⟨hEntry, hNormal⟩ := hAccepted
    have hAgain : acceptsEntryPath (withSlashes s) = true := by
      have hParts := hNormal
      simp only [acceptsNormalized, Bool.and_eq_true] at hParts
      simp only [acceptsEntryPath, Bool.and_eq_true, bne_iff_ne, decide_eq_true_eq] at hEntry ⊢
      obtain ⟨⟨⟨⟨hTrim, hLength⟩, hDots⟩, _⟩, _⟩ := hEntry
      refine ⟨⟨⟨⟨?_, ?_⟩, ?_⟩, hParts.1.2⟩, ?_⟩
      · obtain ⟨c, hc, hSpace⟩ := trim_ne_empty_iff.mp hTrim
        refine trim_ne_empty_iff.mpr ⟨if c = '\\' then '/' else c, ?_, ?_⟩
        · rw [withSlashes_toList]
          exact List.mem_map_of_mem hc
        · split
          · decide
          · exact hSpace
      · rwa [length_withSlashes]
      · simp only [includes, Bool.not_eq_true', decide_eq_false_iff_not] at hDots ⊢
        exact fun hInfix => hDots (infix_of_withSlashes hInfix)
      · rw [startsWithDrive_of_no_backslash (no_backslash s)]
        exact hParts.2
    rw [normalForm, withSlashes_idempotent, hAgain, hNormal]
    rfl
  · cases h

abbrev EntryPath := { s : String // normalForm s = some s }

def normalizeEntryPath (value : JsValue) : Except JsError EntryPath := match value with
  | .string s => match h : normalForm s with
    | some t => .ok ⟨t, normalForm_idempotent h⟩
    | none => .error (RuntimeHealthError "Backup manifest entry path is invalid.")
  | _ => .error (RuntimeHealthError "Backup manifest entry path is invalid.")

theorem normalizeEntryPath_val (path : EntryPath) : normalizeEntryPath (.string path.val) = .ok path := by
  rw [normalizeEntryPath]
  split
  · rename_i t hForm
    rw [path.property] at hForm
    cases hForm
    rfl
  · rename_i hForm
    rw [path.property] at hForm
    cases hForm

theorem EntryPath.no_dots (path : EntryPath) : ¬['.', '.'] <:+: path.val.toList := by
  have hForm := path.property
  rw [normalForm] at hForm
  split at hForm
  · rename_i hAccepted
    simp only [acceptsEntryPath, includes, Bool.and_eq_true, Bool.not_eq_true', decide_eq_false_iff_not] at hAccepted
    exact hAccepted.1.1.1.2
  · cases hForm

/-! ## The manifest -/

structure BackupManifestEntry where
  path : EntryPath
  size : Bounded BACKUP_MAX_BYTES
  sha256 : Hash

structure BackupManifest where
  backupId : { s : String // matchesIdentifier s = true }
  createdAt : Timestamp
  sourceDataDir : String
  fileCount : Bounded 100000
  totalBytes : Bounded BACKUP_MAX_BYTES
  entries : List BackupManifestEntry
  verified : Bool

def supportedKeys (fields : Fields) (expected : List String) (label : String) : Except JsError Unit :=
  match fields.find? fun (key, _) => !expected.contains key with
  | some (key, _) => .error (RuntimeHealthError (label ++ " contains unsupported field: " ++ key))
  | none => .ok ()

def backupIdentifier (value : JsValue) (label : String) : Except JsError { s : String // matchesIdentifier s = true } :=
  match value with
  | .string s => if h : matchesIdentifier s = true then .ok ⟨s, h⟩
    else .error (RuntimeHealthError (label ++ " must be a safe identifier."))
  | _ => .error (RuntimeHealthError (label ++ " must be a safe identifier."))

/-- The text validator of this file; it looks for no secrets. -/
def plainText (value : JsValue) (label : String) (max : Nat) : Except JsError String := match value with
  | .string s => if trim s = "" ∨ max < Js.length s ∨ s.toList.any isControl = true then
      .error (RuntimeHealthError (label ++ " is invalid."))
    else .ok (trim s)
  | _ => .error (RuntimeHealthError (label ++ " is invalid."))

def validateEntry (value : JsValue) : Except JsError BackupManifestEntry := do
  let fields ← object RuntimeHealthError value "Backup manifest entry is invalid."
  supportedKeys fields ["path", "size", "sha256"] "Backup manifest entry"
  let path ← normalizeEntryPath (fields.get "path")
  let size ← nonNegative RuntimeHealthError (fields.get "size") "Backup entry size" BACKUP_MAX_BYTES
  let sha256 ← hash RuntimeHealthError (fields.get "sha256") "Backup entry hash"
  return ⟨path, size, sha256⟩

def manifestKeys : List String :=
  ["schemaVersion", "kind", "backupId", "createdAt", "sourceDataDir", "fileCount", "totalBytes", "entries", "verified"]

def hasManifestSchema (fields : Fields) : Bool := match fields.get "schemaVersion", fields.get "kind" with
  | .number (.integer version), .string kind => version == MANIFEST_SCHEMA_VERSION && kind == MANIFEST_KIND
  | _, _ => false

def manifestEntries (value : JsValue) : Except JsError (List JsValue) := match value with
  | .array items => if 100000 < items.length then .error (RuntimeHealthError "Backup manifest entries are invalid.")
    else .ok items
  | _ => .error (RuntimeHealthError "Backup manifest entries are invalid.")

def validateManifest (value : JsValue) : Except JsError BackupManifest := do
  let fields ← object RuntimeHealthError value "Backup manifest must be an object."
  supportedKeys fields manifestKeys "Backup manifest"
  failIf (hasManifestSchema fields = false) (RuntimeHealthError "Unsupported backup manifest schema.")
  let verified ← boolean RuntimeHealthError (fields.get "verified") "Backup manifest verified flag is invalid."
  let items ← manifestEntries (fields.get "entries")
  let entries ← items.mapM validateEntry
  let backupId ← backupIdentifier (fields.get "backupId") "Backup id"
  let createdAt ← timestamp RuntimeHealthError (fields.get "createdAt") "Backup time"
  let sourceDataDir ← plainText (fields.get "sourceDataDir") "Backup source data directory" 4000
  let fileCount ← nonNegative RuntimeHealthError (fields.get "fileCount") "Backup file count" 100000
  let totalBytes ← nonNegative RuntimeHealthError (fields.get "totalBytes") "Backup total bytes" BACKUP_MAX_BYTES
  return ⟨backupId, createdAt, sourceDataDir, fileCount, totalBytes, entries, verified⟩

/-! ## Files -/

/-- A path text after normalization, and whether it ends in a separator. -/
structure Location where
  path : Path
  slash : Bool

def joinPath (directory : Path) (text : String) : Location := ⟨join directory text, endsWith text "/"⟩

def pathText (path : Path) : String := "/" ++ "/".intercalate path

def systemError (code reason call : String) (path : Path) : JsError :=
  ⟨"Error", code ++ ": " ++ reason ++ ", " ++ call ++ " '" ++ pathText path ++ "'", some code⟩

/-- What a file's bytes are asked for: their number, their digest, and their text as a JSON value. -/
structure Reader (α : Type) where
  byteLength : α → Nat
  sha256 : α → String
  parse : α → Option JsValue

section Restore

variable {α : Type} (reader : Reader α)

/-- A final separator makes lstat follow a link and refuse what is no directory. -/
def lstat (tree : FileTree α) (location : Location) : Except JsError (Node α) :=
  match tree.lookup location.path, location.slash with
  | none, _ => .error (systemError "ENOENT" "no such file or directory" "lstat" location.path)
  | some node, false => .ok node
  | some .directory, true => .ok .directory
  | some (.link _), true => .ok .directory
  | some _, true => .error (systemError "ENOTDIR" "not a directory" "lstat" location.path)

def readFile (tree : FileTree α) (path : Path) : Except JsError α := match tree.lookup path with
  | some (.file content) => .ok content
  | some (.link (some content)) => .ok content
  | some .directory => .error ⟨"Error", "EISDIR: illegal operation on a directory, read", some "EISDIR"⟩
  | _ => .error (systemError "ENOENT" "no such file or directory" "open" path)

def isLink (tree : FileTree α) (path : Path) : Bool := match tree.lookup path with
  | some (.link _) => true
  | _ => false

def isDirectory (tree : FileTree α) (path : Path) : Bool := match tree.lookup path with
  | some .directory => true
  | _ => false

def ensurePrivateDirectory (path : Path) : Mutation (FileTree α) JsError Unit := do
  let before ← get
  let after ← before.makeDirectories (systemError "ENOTDIR" "not a directory" "mkdir") [] path
  modify fun _ => after
  throwIf (isLink after path = true)
    ⟨"Error", "Refusing to use symbolic-link data directory: " ++ pathText path, none⟩

/-- The file is written under another name and renamed, which no directory gives way to. -/
def atomicWriteBytes (target : Location) (content : α) : Mutation (FileTree α) JsError Unit := do
  ensurePrivateDirectory target.path.dropLast
  let tree ← get
  throwIf (target.slash = true) (systemError "ENOTDIR" "not a directory" "rename" target.path)
  throwIf (isDirectory tree target.path = true)
    (systemError "EISDIR" "illegal operation on a directory" "rename" target.path)
  modify fun tree => tree.insert target.path (.file content)

def assertContained (root candidate : Path) : Except JsError Unit :=
  failIf ((relative root candidate).head? = some "..")
    (RuntimeHealthError "Backup or restore path escapes its root directory.")

/-- The content that an entry describes, in its size and hash. -/
def describes (entry : BackupManifestEntry) (content : α) : Bool :=
  reader.byteLength content == entry.size.val && reader.sha256 content == entry.sha256.val

def verifyContent (entry : BackupManifestEntry) : Node α → Except JsError Unit
  | .file content => do
    failIf (describes reader entry content = false)
      (RuntimeHealthError "Backup source entry failed integrity verification.")
    failIf (endsWith entry.path.val ".json" = true ∧ (reader.parse content).isNone = true)
      (RuntimeHealthError "Backup source entry is not valid JSON.")
  | _ => .error (RuntimeHealthError "Backup source entry is not a regular non-symlink file.")

def verifySourceEntry (tree : FileTree α) (source : Location) (entry : BackupManifestEntry) : Except JsError Unit := do
  verifyContent reader entry (← lstat tree source)

def copyFileWithHash (source target : Location) (entry : BackupManifestEntry) : Mutation (FileTree α) JsError Unit := do
  ensurePrivateDirectory target.path.dropLast
  let tree ← get
  let content ← readFile tree source.path
  throwIf (describes reader entry content = false)
    (RuntimeHealthError "Backup file content changed during copy; backup is not consistent.")
  atomicWriteBytes target content

/-! ## The restore -/

def containedEntry (root : Path) (entry : BackupManifestEntry) : Except JsError Unit := do
  let relativePath ← normalizeEntryPath (.string entry.path.val)
  assertContained root (joinPath root relativePath.val).path

def readManifest (sourceDir : Path) (tree : FileTree α) : Except JsError BackupManifest := do
  let content ← readFile tree (join sourceDir MANIFEST_NAME)
  match reader.parse content with
  | none => .error (RuntimeHealthError "Backup manifest is not valid JSON.")
  | some value => do
    let manifest ← validateManifest value
    manifest.entries.forM (containedEntry sourceDir)
    return manifest

def restoreEntry (sourceDir targetDir : Path) (entry : BackupManifestEntry) : Mutation (FileTree α) JsError Unit := do
  let relativePath ← normalizeEntryPath (.string entry.path.val)
  let sourcePath := joinPath sourceDir relativePath.val
  let targetPath := joinPath targetDir relativePath.val
  assertContained sourceDir sourcePath.path
  assertContained targetDir targetPath.path
  let tree ← get
  verifySourceEntry reader tree sourcePath entry
  copyFileWithHash reader sourcePath targetPath entry

def verifyRestoredEntry (targetDir : Path) (tree : FileTree α) (entry : BackupManifestEntry) : Except JsError Unit := do
  let relativePath ← normalizeEntryPath (.string entry.path.val)
  let path := joinPath targetDir relativePath.val
  assertContained targetDir path.path
  verifySourceEntry reader tree path entry

def verifyRestoredFiles (targetDir : Path) (tree : FileTree α) (manifest : BackupManifest) : Except JsError Unit :=
  manifest.entries.forM (verifyRestoredEntry reader targetDir tree)

/-- targetDir === sourceDir || targetDir.startsWith(sourceDir + sep); nothing starts with the two separators of the root. -/
def isInside (sourceDir targetDir : Path) : Bool :=
  targetDir == sourceDir || sourceDir != [] && sourceDir.isPrefixOf targetDir

structure RestoreResult where
  restoredFileCount : Nat
  verified : Bool
  targetDir : Path

def restoreRuntimeBackup (sourceDir targetDir : Path) : Mutation (FileTree α) JsError RestoreResult := do
  let source ← get
  let manifest ← readManifest reader sourceDir source
  throwIf (manifest.verified = false)
    (RuntimeHealthError "Refusing to restore a backup that did not verify after creation.")
  throwIf (isInside sourceDir targetDir = true) (RuntimeHealthError "Restore target must not be inside the backup source.")
  ensurePrivateDirectory targetDir
  let tree ← get
  throwIf (tree.children targetDir ≠ []) (RuntimeHealthError "Refusing to restore into a non-empty directory.")
  each (restoreEntry reader sourceDir targetDir) manifest.entries
  let restored ← get
  verifyRestoredFiles reader targetDir restored manifest
  return ⟨manifest.fileCount.val, true, targetDir⟩

end Restore

end GhostApi.Reliability
