import Mathlib.Data.List.AList
import Mathlib.Data.List.Infix

/-!
# Trees of files

A tree lists what lies at each absolute path, links not followed: a path that
goes through a link is listed under its own spelling. Path texts are read into
names as POSIX does, and what creates directories and files is described by
what every path holds afterwards.
-/

namespace Files

abbrev Path := List String

inductive Node (α : Type)
  | file (content : α)
  | directory
  /-- A symbolic link and the content of the file that it leads to. -/
  | link (content : Option α)
  | other

abbrev FileTree (α : Type) := AList fun _ : Path => Node α

def enter (path : Path) (name : String) : Path :=
  if name = "" ∨ name = "." then path else if name = ".." then path.dropLast else path ++ [name]

def namesOf (text : String) : List String := (text.toList.splitOn '/').map String.ofList

def join (directory : Path) (text : String) : Path := (namesOf text).foldl enter directory

def relative : Path → Path → Path
  | a :: as, b :: bs => if a = b then relative as bs else List.replicate (as.length + 1) ".." ++ b :: bs
  | as, bs => List.replicate as.length ".." ++ bs

namespace Node

variable {α : Type}

def isEnterable : Option (Node α) → Bool
  | none | some .directory | some (.link _) => true
  | _ => false

end Node

namespace FileTree

variable {α ε : Type}

/-- What lies below a path lies in a directory or behind a link. -/
structure Closed (tree : FileTree α) : Prop where
  root : tree.lookup [] = some .directory
  parent : ∀ path name, tree.lookup (path ++ [name]) ≠ none →
    tree.lookup path = some .directory ∨ ∃ content, tree.lookup path = some (.link content)

structure IsEmptyDirectory (tree : FileTree α) (path : Path) : Prop where
  directory : tree.lookup path = some .directory
  empty : ∀ name, tree.lookup (path ++ [name]) = none

def children (tree : FileTree α) (path : Path) : List Path := tree.keys.filter fun p => p ≠ [] ∧ p.dropLast = path

def isFile (tree : FileTree α) (path : Path) : Bool := match tree.lookup path with
  | some (.file _) => true
  | _ => false

def filesBelow (tree : FileTree α) (path : Path) : List Path :=
  tree.keys.filter fun p => path.isPrefixOf p && isFile tree p

def isDirectoryOrLink (tree : FileTree α) (path : Path) : Bool := match tree.lookup path with
  | some .directory => true
  | some (.link _) => true
  | _ => false

def isClosed (tree : FileTree α) : Bool :=
  (match tree.lookup [] with
    | some .directory => true
    | _ => false) && tree.keys.all fun path => path.isEmpty || isDirectoryOrLink tree path.dropLast

/-- mkdir with parents: the directories that are missing on the way down the names. -/
def makeDirectories (blocked : Path → ε) (tree : FileTree α) (base : Path) : List String → Except ε (FileTree α)
  | [] => .ok tree
  | name :: names => match tree.lookup (base ++ [name]) with
    | none => makeDirectories blocked (tree.insert (base ++ [name]) .directory) (base ++ [name]) names
    | some .directory => makeDirectories blocked tree (base ++ [name]) names
    | some (.link _) => makeDirectories blocked tree (base ++ [name]) names
    | _ => .error (blocked (base ++ [name]))

end FileTree

/-! ## Paths -/

theorem isInfix_of_namesOf {text name : String} (h : name ∈ namesOf text) : name.toList <:+: text.toList := by
  obtain ⟨part, hPart, rfl⟩ := List.mem_map.mp h
  obtain ⟨i, hGet⟩ := List.mem_iff_getElem?.mp hPart
  have hMem : part ∈ (text.toList.splitOn '/').intersperse ['/'] :=
    List.mem_iff_getElem?.mpr ⟨2 * i, List.getElem?_intersperse_two_mul.trans hGet⟩
  have hJoin : ['/'].intercalate (text.toList.splitOn '/') = text.toList := List.intercalate_splitOn '/'
  rw [String.toList_ofList, ← hJoin]
  exact List.infix_of_mem_flatten hMem

theorem enter_eq_append {name : String} (h : name ≠ "..") (path : Path) : enter path name = path ++ enter [] name := by
  rw [enter, enter]
  split
  · simp
  · simp

theorem foldl_enter {names : List String} (h : ∀ name ∈ names, name ≠ "..") (path : Path) :
    names.foldl enter path = path ++ names.foldl enter [] := by
  induction names generalizing path with
  | nil => simp
  | cons name names ih =>
    rw [List.forall_mem_cons] at h
    rw [List.foldl_cons, List.foldl_cons, ih h.2, ih h.2 (enter [] name), enter_eq_append h.1, List.append_assoc]

theorem join_eq_append {text : String} (h : ¬['.', '.'] <:+: text.toList) (directory : Path) :
    join directory text = directory ++ join [] text := by
  refine foldl_enter ?_ directory
  rintro name hName rfl
  exact h (isInfix_of_namesOf hName)

theorem relative_append (root path : Path) : relative root (root ++ path) = path := by
  induction root with
  | nil =>
    cases path with
    | nil => rfl
    | cons name path => rfl
  | cons name root ih => rw [List.cons_append, relative, if_pos rfl, ih]

theorem enter_mem {path : Path} {name other : String} (h : other ∈ enter path name) : other ∈ path ∨ other = name := by
  rw [enter] at h
  split at h
  · exact .inl h
  · split at h
    · exact .inl (List.dropLast_subset path h)
    · rcases List.mem_append.mp h with h | h
      · exact .inl h
      · exact .inr (List.mem_singleton.mp h)

theorem join_mem {text name : String} (h : name ∈ join [] text) : name ∈ namesOf text := by
  have hFold : ∀ (names : List String) (path : Path), name ∈ names.foldl enter path → name ∈ path ∨ name ∈ names := by
    intro names
    induction names with
    | nil => exact fun path hMem => .inl hMem
    | cons first names ih =>
      intro path hMem
      rcases ih _ hMem with hMem | hMem
      · rcases enter_mem hMem with hMem | rfl
        · exact .inl hMem
        · exact .inr List.mem_cons_self
      · exact .inr (List.mem_cons_of_mem first hMem)
  exact (hFold _ [] h).resolve_left List.not_mem_nil

namespace FileTree

variable {α ε : Type} {tree : FileTree α}

/-! ## Directories -/

theorem Closed.above (h : tree.Closed) {path rest : Path} (hRest : rest ≠ []) (hNode : tree.lookup (path ++ rest) ≠ none) :
    tree.lookup path = some .directory ∨ ∃ content, tree.lookup path = some (.link content) := by
  induction rest using List.reverseRecOn with
  | nil => exact absurd rfl hRest
  | append_singleton rest name ih =>
    rw [← List.append_assoc] at hNode
    have hParent := h.parent (path ++ rest) name hNode
    by_cases hEmpty : rest = []
    · rwa [hEmpty, List.append_nil] at hParent
    · refine ih hEmpty fun hNone => ?_
      rcases hParent with hParent | ⟨content, hParent⟩
      · rw [hNone] at hParent
        cases hParent
      · rw [hNone] at hParent
        cases hParent

theorem Closed.file_below (h : tree.Closed) {path rest : Path} {content : α} (hFile : tree.lookup path = some (.file content))
    (hRest : rest ≠ []) : tree.lookup (path ++ rest) = none := by
  by_contra hNode
  rcases h.above hRest hNode with hAbove | ⟨linked, hAbove⟩
  · rw [hFile] at hAbove
    cases hAbove
  · rw [hFile] at hAbove
    cases hAbove

theorem IsEmptyDirectory.below {path rest : Path} (h : tree.IsEmptyDirectory path) (hClosed : tree.Closed)
    (hRest : rest ≠ []) : tree.lookup (path ++ rest) = none := by
  obtain ⟨name, rest, rfl⟩ := List.exists_cons_of_ne_nil hRest
  by_contra hNode
  rw [List.append_cons] at hNode
  by_cases hEmpty : rest = []
  · rw [hEmpty, List.append_nil] at hNode
    exact hNode (h.empty name)
  · rcases hClosed.above hEmpty hNode with hAbove | ⟨content, hAbove⟩
    · rw [h.empty name] at hAbove
      cases hAbove
    · rw [h.empty name] at hAbove
      cases hAbove

theorem mem_keys_iff {path : Path} : path ∈ tree.keys ↔ tree.lookup path ≠ none := by
  rw [← AList.mem_keys, ← AList.lookup_isSome, Option.isSome_iff_ne_none]

theorem isDirectoryOrLink_iff {path : Path} : tree.isDirectoryOrLink path = true ↔
    tree.lookup path = some .directory ∨ ∃ content, tree.lookup path = some (.link content) := by
  rw [isDirectoryOrLink]
  split <;> simp_all

theorem closed_of_isClosed (h : tree.isClosed = true) : tree.Closed := by
  rw [isClosed, Bool.and_eq_true, List.all_eq_true] at h
  obtain ⟨hRoot, hAll⟩ := h
  constructor
  · split at hRoot
    · assumption
    · cases hRoot
  · intro path name hNode
    have hParent := hAll _ (mem_keys_iff.mpr hNode)
    rw [List.dropLast_concat, List.isEmpty_eq_false_iff.mpr (by simp)] at hParent
    exact isDirectoryOrLink_iff.mp hParent

theorem mem_children {directory path : Path} :
    path ∈ tree.children directory ↔ tree.lookup path ≠ none ∧ ∃ name, path = directory ++ [name] := by
  rw [children, List.mem_filter, mem_keys_iff, decide_eq_true_eq]
  refine and_congr_right fun _ => ?_
  constructor
  · rintro ⟨hNe, rfl⟩
    exact ⟨path.getLast hNe, (List.dropLast_append_getLast hNe).symm⟩
  · rintro ⟨name, rfl⟩
    simp

theorem IsEmptyDirectory.children_eq {path : Path} (h : tree.IsEmptyDirectory path) : tree.children path = [] := by
  refine List.eq_nil_iff_forall_not_mem.mpr fun child hChild => ?_
  obtain ⟨hNode, name, rfl⟩ := mem_children.mp hChild
  exact hNode (h.empty name)

theorem isEmptyDirectory_of {path : Path} (hDirectory : tree.lookup path = some .directory)
    (hChildren : tree.children path = []) : tree.IsEmptyDirectory path where
  directory := hDirectory
  empty := by
    intro name
    by_contra hNode
    have hChild := mem_children.mpr ⟨hNode, name, rfl⟩
    rw [hChildren] at hChild
    exact List.not_mem_nil hChild

theorem isFile_iff {path : Path} : tree.isFile path = true ↔ ∃ content, tree.lookup path = some (.file content) := by
  rw [isFile]
  split
  · rename_i content hNode
    simp [hNode]
  · rename_i hNode
    simp only [Bool.false_eq_true, false_iff, not_exists]
    exact hNode

theorem mem_filesBelow {directory path : Path} :
    path ∈ tree.filesBelow directory ↔ directory <+: path ∧ ∃ content, tree.lookup path = some (.file content) := by
  rw [filesBelow, List.mem_filter, Bool.and_eq_true, List.isPrefixOf_iff_prefix, isFile_iff, mem_keys_iff]
  constructor
  · exact And.right
  · rintro ⟨hPrefix, content, hFile⟩
    exact ⟨by simp [hFile], hPrefix, content, hFile⟩

theorem filesBelow_nodup (tree : FileTree α) (directory : Path) : (tree.filesBelow directory).Nodup :=
  tree.keys_nodup.filter _

/-! ## Creating directories -/

theorem makeDirectories_kept {blocked : Path → ε} {names : List String} {tree tree' : FileTree α} {base : Path}
    (h : makeDirectories blocked tree base names = .ok tree') (path : Path) :
    tree'.lookup path = tree.lookup path ∨
      tree.lookup path = none ∧ tree'.lookup path = some .directory ∧ path <+: base ++ names := by
  induction names generalizing tree base with
  | nil =>
    cases h
    exact .inl rfl
  | cons name names ih =>
    rw [List.append_cons]
    rw [makeDirectories] at h
    split at h
    · rename_i hNone
      by_cases hPath : path = base ++ [name]
      · subst hPath
        rcases ih h with hSame | ⟨hNew, _⟩
        · rw [AList.lookup_insert] at hSame
          exact .inr ⟨hNone, hSame, List.prefix_append _ _⟩
        · rw [AList.lookup_insert] at hNew
          cases hNew
      · have hKept := ih h
        rwa [AList.lookup_insert_ne hPath] at hKept
    · exact ih h
    · exact ih h
    · cases h

theorem makeDirectories_cons (blocked : Path → ε) {names : List String} {tree : FileTree α} {base : Path} {name : String}
    (h : Node.isEnterable (tree.lookup (base ++ [name])) = true) :
    ∃ tree', makeDirectories blocked tree base (name :: names) = makeDirectories blocked tree' (base ++ [name]) names ∧
      tree'.lookup (base ++ [name]) = some ((tree.lookup (base ++ [name])).getD .directory) ∧
      ∀ path, path ≠ base ++ [name] → tree'.lookup path = tree.lookup path := by
  rw [makeDirectories]
  split
  · rename_i hNone
    refine ⟨tree.insert (base ++ [name]) .directory, rfl, ?_, fun path hPath => AList.lookup_insert_ne hPath⟩
    rw [hNone, AList.lookup_insert]
    rfl
  · rename_i hDirectory
    exact ⟨tree, rfl, by rw [hDirectory]; rfl, fun _ _ => rfl⟩
  · rename_i content hLink
    exact ⟨tree, rfl, by rw [hLink]; rfl, fun _ _ => rfl⟩
  · rename_i hNone hDirectory hLink
    rcases hNode : tree.lookup (base ++ [name]) with _ | ⟨content | _ | content | _⟩
    · exact absurd hNode hNone
    · rw [hNode] at h
      cases h
    · exact absurd hNode hDirectory
    · exact absurd hNode (hLink content)
    · rw [hNode] at h
      cases h

theorem makeDirectories_of_enterable (blocked : Path → ε) {names : List String} {tree : FileTree α} {base : Path}
    (h : ∀ q, q <+: names → q ≠ [] → Node.isEnterable (tree.lookup (base ++ q)) = true) :
    ∃ tree', makeDirectories blocked tree base names = .ok tree' ∧
      ∀ q, q <+: names → q ≠ [] → tree'.lookup (base ++ q) = some ((tree.lookup (base ++ q)).getD .directory) := by
  induction names generalizing tree base with
  | nil => exact ⟨tree, rfl, fun q hPrefix hNe => absurd (List.prefix_nil.mp hPrefix) hNe⟩
  | cons name names ih =>
    have hFirst : Node.isEnterable (tree.lookup (base ++ [name])) = true :=
      h [name] (List.prefix_append [name] names) (List.cons_ne_nil _ _)
    obtain ⟨entered, hStep, hEntered, hOthers⟩ := @makeDirectories_cons _ _ blocked names _ _ _ hFirst
    have hBelow : ∀ q, q ≠ [] → entered.lookup (base ++ [name] ++ q) = tree.lookup (base ++ name :: q) := by
      intro q hNe
      rw [← List.append_cons base name q]
      refine hOthers _ fun hEq => hNe ?_
      have hSame : name :: q = [name] := List.append_cancel_left hEq
      exact (List.cons.inj hSame).2
    obtain ⟨tree', hRest, hAll⟩ := @ih entered (base ++ [name]) fun q hPrefix hNe => by
      rw [hBelow q hNe]
      exact h (name :: q) (List.cons_prefix_cons.mpr ⟨rfl, hPrefix⟩) (List.cons_ne_nil _ _)
    refine ⟨tree', hStep.trans hRest, fun q hPrefix hNe => ?_⟩
    obtain ⟨first, q, rfl⟩ := List.exists_cons_of_ne_nil hNe
    obtain ⟨rfl, hTail⟩ := List.cons_prefix_cons.mp hPrefix
    by_cases hEmpty : q = []
    · subst hEmpty
      rcases makeDirectories_kept hRest (base ++ [first]) with hSame | ⟨hNone, _⟩
      · exact hSame.trans hEntered
      · rw [hEntered] at hNone
        cases hNone
    · have hRestAt := hAll q hTail hEmpty
      rwa [hBelow q hEmpty, ← List.append_cons] at hRestAt

theorem makeDirectories_existing (blocked : Path → ε) {names : List String} {tree : FileTree α} {base : Path}
    (h : ∀ q, q <+: names → q ≠ [] →
      tree.lookup (base ++ q) = some .directory ∨ ∃ content, tree.lookup (base ++ q) = some (.link content)) :
    makeDirectories blocked tree base names = .ok tree := by
  induction names generalizing base with
  | nil => rfl
  | cons name names ih =>
    have hRest : makeDirectories blocked tree (base ++ [name]) names = .ok tree := by
      refine ih fun q hPrefix _ => ?_
      rw [← List.append_cons]
      exact h (name :: q) (List.cons_prefix_cons.mpr ⟨rfl, hPrefix⟩) (List.cons_ne_nil _ _)
    rw [makeDirectories]
    rcases h [name] (List.prefix_append [name] names) (List.cons_ne_nil _ _) with hNode | ⟨content, hNode⟩
    · rw [hNode]
      exact hRest
    · rw [hNode]
      exact hRest

theorem Closed.makeDirectories_eq (h : tree.Closed) (blocked : Path → ε) {path : Path}
    (hPath : tree.lookup path = some .directory) : makeDirectories blocked tree [] path = .ok tree := by
  refine makeDirectories_existing blocked fun q hPrefix _ => ?_
  obtain ⟨rest, rfl⟩ := hPrefix
  by_cases hRest : rest = []
  · rw [hRest, List.append_nil] at hPath
    exact .inl hPath
  · rw [List.nil_append]
    exact h.above hRest (by simp [hPath])

end FileTree

end Files
