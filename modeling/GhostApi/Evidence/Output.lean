import GhostApi.Evidence.Text
import GhostApi.Lib.Files

/-!
# Where an evidence report is written

An output path is resolved and must not lead out of the project root and the
data directory. Without one the file is named after the run, whose id is read
from a file.
-/

namespace GhostApi.Evidence

open Files
open Policy (JsString units)

/-! ## The file of a report -/

def isInside (root target : Path) : Bool := (relative root target).head? != some ".."

structure Roots where
  projectRoot : Path
  dataDir : Path
  /-- Whether lstat finds a directory. -/
  isDirectory : Path → Bool

def Roots.reports (roots : Roots) : Path := roots.dataDir ++ ["reports"]

def hasFileName (target : Path) : Bool := match target.getLast? with
  | some name => Js.trim name != ""
  | none => false

def assertPathInsideAllowedRoots (roots : Roots) (target : Path) : Bool :=
  (isInside roots.projectRoot target || isInside roots.dataDir target) && hasFileName target

/-- resolve(outPath) when it is absolute, else resolve(projectRoot, outPath). -/
def resolveOut (roots : Roots) (outPath : String) : Path :=
  if outPath.toList.head? = some '/' then join [] outPath else join roots.projectRoot outPath

def resolveOutputPath (roots : Roots) (outPath : String) : Option Path :=
  let target := resolveOut roots outPath
  if assertPathInsideAllowedRoots roots target then some target else none

def reportRunId (runId : Option JsString) : JsString := (readString runId).getD (units "unknown")

def reportName (runId : JsString) : String :=
  (if runId = units "unknown" then "latest" else pathText runId) ++ ".json"

/-- The path that writeEvidenceReport hands to atomicWriteJson. -/
def outputTarget (roots : Roots) (outPath : Option String) (runId : Option JsString) : Option Path := match outPath with
  | none => some (join roots.reports (reportName (reportRunId runId)))
  | some outPath => resolveOutputPath roots outPath

/-- The file that generateEvidenceReport creates or replaces; a file never replaces a directory, and every other step of the
file system succeeds. -/
def generatedFile (roots : Roots) (outPath : Option String) (runId : Option JsString) : Option Path :=
  if roots.isDirectory roots.projectRoot then (outputTarget roots outPath runId).filter fun target => !roots.isDirectory target
  else none

/-! ## Paths below a directory -/

/-- The path lies below the directory and is not the directory. -/
def IsBelow (directory path : Path) : Prop := ∃ rest, rest ≠ [] ∧ path = directory ++ rest

theorem prefix_of_isInside {root target : Path} (h : isInside root target = true) : root <+: target := by
  induction root generalizing target with
  | nil => exact List.nil_prefix
  | cons name root ih =>
    cases target with
    | nil =>
      rw [isInside, relative, List.length_cons, List.replicate_succ] at h
      · cases h
      · simp
    | cons other target =>
      rw [isInside, relative] at h
      split at h
      · rename_i hSame
        rw [hSame, List.cons_prefix_cons]
        exact ⟨rfl, ih h⟩
      · rw [List.replicate_succ] at h
        cases h

theorem isInside_self (root : Path) : isInside root root = true := by
  have hRelative := relative_append root []
  rw [List.append_nil] at hRelative
  rw [isInside, hRelative]
  rfl

/-- How many directories a relative path goes up, and the names that it then goes down. -/
def climb (ups : Nat) (downs : Path) : List String → Nat × Path
  | [] => (ups, downs)
  | name :: names =>
    if name = "" ∨ name = "." then climb ups downs names
    else if name = ".." then (if downs = [] then climb (ups + 1) [] names else climb ups downs.dropLast names)
    else climb ups (downs ++ [name]) names

theorem foldl_enter_eq_climb (directory : Path) (names : List String) (ups : Nat) (downs : Path) :
    names.foldl enter (directory.take (directory.length - ups) ++ downs) =
      directory.take (directory.length - (climb ups downs names).1) ++ (climb ups downs names).2 := by
  induction names generalizing ups downs with
  | nil => rfl
  | cons name names ih =>
    rw [List.foldl_cons, climb, enter]
    split
    · exact ih ups downs
    · split
      · by_cases hTop : downs = []
        · subst hTop
          rw [if_pos rfl, ← ih (ups + 1) [], List.append_nil, List.append_nil, List.dropLast_eq_take, List.take_take]
          congr 2
          rw [List.length_take]
          omega
        · rw [if_neg hTop, List.dropLast_append_of_ne_nil hTop]
          exact ih ups downs.dropLast
      · rw [List.append_assoc]
        exact ih ups (downs ++ [name])

/-! ## The name of the file -/

theorem splitOn_append {ending : List Char} (h : ∀ c ∈ ending, (c == '/') = false) (cs : List Char) :
    ∃ before last, (cs ++ ending).splitOn '/' = before ++ [last ++ ending] := by
  rw [List.splitOn]
  induction cs with
  | nil => exact ⟨[], [], List.splitOnP_eq_singleton h⟩
  | cons c cs ih =>
    obtain ⟨before, last, hSplit⟩ := ih
    rw [List.cons_append, List.splitOnP_cons_eq_if_modifyHead, hSplit]
    split
    · exact ⟨[] :: before, last, rfl⟩
    · cases before with
      | nil => exact ⟨[], c :: last, rfl⟩
      | cons first rest => exact ⟨(c :: first) :: rest, last, rfl⟩

theorem namesOf_json (text : String) : ∃ directories name, namesOf (text ++ ".json") = directories ++ [name] ∧
    ∀ path, enter path name = path ++ [name] := by
  obtain ⟨before, last, hSplit⟩ := splitOn_append (show ∀ c ∈ ".json".toList, (c == '/') = false by simp) text.toList
  refine ⟨before.map String.ofList, String.ofList (last ++ ".json".toList), ?_, fun path => ?_⟩
  · rw [namesOf, String.toList_append, hSplit, List.map_append]
    rfl
  · have hName : ∀ short ∈ ["", ".", ".."], String.ofList (last ++ ".json".toList) ≠ short := by
      intro short hShort hSame
      have hList := congrArg (fun s : String => s.toList.length) hSame
      have hShortLength : ∀ short ∈ ["", ".", ".."], short.toList.length ≤ 2 := by decide
      have hBound := hShortLength short hShort
      rw [String.toList_ofList, List.length_append] at hList
      have hEnding : ".json".toList.length = 5 := rfl
      omega
    rw [enter, if_neg, if_neg (hName ".." (by decide))]
    rintro (hEmpty | hDot)
    · exact hName "" (by decide) hEmpty
    · exact hName "." (by decide) hDot

def namedDirectories (runId : Option JsString) : List String := (namesOf (reportName (reportRunId runId))).dropLast

/-- The names lead out of the directory and back, through the names that they left. -/
def LeadsBack (directory : Path) (names : List String) : Prop :=
  (climb 0 [] names).2 = directory.drop (directory.length - (climb 0 [] names).1)

theorem leadsBack_iff {directory : Path} {names : List String} : names.foldl enter directory = directory ↔ LeadsBack directory names := by
  have hClimb := foldl_enter_eq_climb directory names 0 []
  rw [Nat.sub_zero, List.take_length, List.append_nil] at hClimb
  rw [hClimb, LeadsBack]
  constructor
  · intro hSame
    have hSplit := hSame.trans (List.take_append_drop (directory.length - (climb 0 [] names).1) directory).symm
    exact List.append_cancel_left hSplit
  · intro hDowns
    rw [hDowns, List.take_append_drop]

theorem join_reportName (roots : Roots) (runId : Option JsString) : ∃ name,
    join roots.reports (reportName (reportRunId runId)) = (namedDirectories runId).foldl enter roots.reports ++ [name] := by
  obtain ⟨directories, name, hNames, hEnter⟩ :=
    namesOf_json (if reportRunId runId = units "unknown" then "latest" else pathText (reportRunId runId))
  refine ⟨name, ?_⟩
  rw [namedDirectories, join, reportName, hNames, List.dropLast_concat, List.foldl_append, List.foldl_cons, List.foldl_nil, hEnter]

/-! ## Containment -/

/-- The file lies below one of the roots, and directly in the reports directory when no path was given. -/
def IsContained (roots : Roots) (outPath : Option String) (runId : Option JsString) : Prop :=
  ∀ file, generatedFile roots outPath runId = some file → (IsBelow roots.projectRoot file ∨ IsBelow roots.dataDir file) ∧
    (outPath = none → ∃ name, file = roots.reports ++ [name])

/-- The run id stays in the reports directory, and the output path is not the data directory itself. -/
def StaysInside (roots : Roots) (outPath : Option String) (runId : Option JsString) : Prop := match outPath with
  | none => LeadsBack roots.reports (namedDirectories runId) ∨
      roots.isDirectory (join roots.reports (reportName (reportRunId runId))) = true
  | some outPath => resolveOut roots outPath ≠ roots.dataDir ∨ IsBelow roots.projectRoot roots.dataDir ∨
      hasFileName roots.dataDir = false ∨ roots.isDirectory roots.dataDir = true

theorem contained_reports {roots : Roots} {runId : Option JsString} (hRoot : roots.isDirectory roots.projectRoot = true) :
    IsContained roots none runId ↔ StaysInside roots none runId := by
  obtain ⟨name, hTarget⟩ := join_reportName roots runId
  obtain ⟨target, hSame⟩ : ∃ target, target = join roots.reports (reportName (reportRunId runId)) := ⟨_, rfl⟩
  have hFile : generatedFile roots none runId = if roots.isDirectory target then none else some target := by
    rw [generatedFile, if_pos hRoot, outputTarget, ← hSame, Option.filter_some]
    cases roots.isDirectory target <;> rfl
  rw [IsContained, StaysInside, hFile, ← hSame, ← leadsBack_iff]
  by_cases hDirectory : roots.isDirectory target = true
  · rw [if_pos hDirectory]
    exact iff_of_true (fun _ hFile => by cases hFile) (.inr hDirectory)
  · rw [if_neg hDirectory, or_iff_left hDirectory]
    constructor
    · intro hContained
      obtain ⟨_, hDirect⟩ := hContained target rfl
      obtain ⟨other, hOther⟩ := hDirect rfl
      exact List.append_inj_left' ((hTarget.symm.trans hSame.symm).trans hOther) rfl
    · rintro hBack file hFile
      rw [← Option.some.inj hFile, hSame, hTarget, hBack]
      refine ⟨.inr ⟨["reports", name], by simp, ?_⟩, fun _ => ⟨name, rfl⟩⟩
      rw [Roots.reports, List.append_assoc]
      rfl

theorem contained_outPath {roots : Roots} {outPath : String} {runId : Option JsString}
    (hRoot : roots.isDirectory roots.projectRoot = true) :
    IsContained roots (some outPath) runId ↔ StaysInside roots (some outPath) runId := by
  obtain ⟨target, hSame⟩ : ∃ target, target = resolveOut roots outPath := ⟨_, rfl⟩
  have hFile : ∀ file, generatedFile roots (some outPath) runId = some file ↔
      assertPathInsideAllowedRoots roots target = true ∧ roots.isDirectory target = false ∧ file = target := by
    intro file
    rw [generatedFile, if_pos hRoot, outputTarget, resolveOutputPath, ← hSame, Option.filter_eq_some_iff]
    by_cases hAllowed : assertPathInsideAllowedRoots roots target = true
    · rw [if_pos hAllowed, Option.some.injEq]
      constructor
      · rintro ⟨rfl, hPlain⟩
        exact ⟨hAllowed, by simpa using hPlain, rfl⟩
      · rintro ⟨_, hPlain, rfl⟩
        exact ⟨rfl, by simpa using hPlain⟩
    · rw [if_neg hAllowed]
      simp [hAllowed]
  simp only [IsContained, StaysInside, hFile, reduceCtorEq, false_imp_iff, and_true]
  rw [← hSame]
  constructor
  · intro hContained
    by_contra hOut
    rw [not_or, not_or, not_or, not_ne_iff] at hOut
    obtain ⟨hData, hNotBelow, hName, hPlain⟩ := hOut
    have hAllowed : assertPathInsideAllowedRoots roots target = true := by
      rw [assertPathInsideAllowedRoots, hData, isInside_self, Bool.or_true, Bool.true_and]
      simpa using hName
    cases hContained target ⟨hAllowed, by rw [hData]; simpa using hPlain, rfl⟩ with
    | inl hProject =>
      rw [hData] at hProject
      exact hNotBelow hProject
    | inr hBelow =>
      obtain ⟨rest, hRest, hPath⟩ := hBelow
      rw [hData] at hPath
      exact hRest (List.self_eq_append_right.mp hPath)
  · rintro hStays file ⟨hAllowed, hPlain, rfl⟩
    rw [assertPathInsideAllowedRoots, Bool.and_eq_true, Bool.or_eq_true] at hAllowed
    obtain ⟨hInside, hFileName⟩ := hAllowed
    have hBelow : ∀ root, root <+: file → IsBelow root file ∨ file = root := by
      rintro root ⟨rest, rfl⟩
      by_cases hRest : rest = []
      · subst hRest
        exact .inr (List.append_nil root)
      · exact .inl ⟨rest, hRest, rfl⟩
    cases hInside with
    | inl hProject =>
      cases hBelow _ (prefix_of_isInside hProject) with
      | inl hProjectBelow => exact .inl hProjectBelow
      | inr hSelf =>
        rw [hSelf, hRoot] at hPlain
        cases hPlain
    | inr hData =>
      cases hBelow _ (prefix_of_isInside hData) with
      | inl hDataBelow => exact .inr hDataBelow
      | inr hSelf =>
        rw [hSelf] at hPlain hFileName hStays ⊢
        rw [hPlain, hFileName] at hStays
        simp only [ne_eq, not_true_eq_false, Bool.true_eq_false, Bool.false_eq_true, or_false, false_or] at hStays
        exact .inl hStays

/-- The report lands inside its roots, except that the id of a run is joined unchecked and that the data directory passes
for a path inside itself. -/
theorem contained_iff (roots : Roots) (outPath : Option String) (runId : Option JsString) :
    IsContained roots outPath runId ↔
      (roots.isDirectory roots.projectRoot = true → StaysInside roots outPath runId) := by
  by_cases hRoot : roots.isDirectory roots.projectRoot = true
  · cases outPath with
    | none => exact (contained_reports hRoot).trans ⟨fun h _ => h, fun h => h hRoot⟩
    | some outPath => exact (contained_outPath hRoot).trans ⟨fun h _ => h, fun h => h hRoot⟩
  · refine iff_of_true (fun file hFile => ?_) (fun hDirectory => absurd hDirectory hRoot)
    rw [generatedFile, if_neg hRoot] at hFile
    cases hFile

def sampleRoots : Roots where
  projectRoot := ["home", "project"]
  dataDir := ["home", "project", ".ghostapi"]
  isDirectory path := path == ["home", "project"]

/-- The id of a run file leads out of both roots. -/
theorem runId_escapes : ¬IsContained sampleRoots none (some (units "../../../x")) := by
  have hFile : generatedFile sampleRoots none (some (units "../../../x")) = some ["home", "x.json"] := by decide +kernel
  intro hContained
  obtain ⟨_, hDirect⟩ := hContained _ hFile
  obtain ⟨name, hName⟩ := hDirect rfl
  have hLength : 2 = 5 := congrArg List.length hName
  cases hLength

end GhostApi.Evidence
