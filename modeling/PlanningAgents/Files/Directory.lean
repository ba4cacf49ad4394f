import PlanningAgents.Files

/-!
# PlanningAgents.Files.Directory

The files in and below one directory, found by paths that start there.  A path is followed part by
part, so every part but the last has to lead to a directory.

Main statements:

* `Directory.entry_ofTexts_nil` — with no files, a path leads nowhere or to something without text.
-/

namespace PlanningAgents

/-- Where the first parts of a path lead, seen from a directory. -/
inductive Place where
  /-- Down through these names. -/
  | inside (names : List String)
  /-- To a directory that is not below; of what it holds nothing is known. -/
  | outside

/-- Files with their texts, each by the names that lead to it.  Of two files of one name the first
counts. -/
structure Directory where
  files : List (List String × String)

namespace Directory

/-- Whether a part of a path stays where it is. -/
def stays (part : String) : Bool := part = "" || part = "."

/-- The directory that results from writing the texts, one after the other. -/
def ofTexts (texts : List (String × String)) : Directory :=
  ⟨(texts.map fun t => ((t.1.splitOn "/").filter (!stays ·), t.2)).reverse⟩

/-- Whether the names lead to a directory: to this one, or to one that a file stands below. -/
def isDirectory (d : Directory) (names : List String) : Bool :=
  names.isEmpty || d.files.any fun f => names.isPrefixOf f.1 && names.length < f.1.length

/-- Follows one part of a path. -/
def follow (d : Directory) : Place → String → Option Place
  | .inside names, part =>
    if !d.isDirectory names then none
    else if stays part then some (.inside names)
    else if part ≠ ".." then some (.inside (names ++ [part]))
    else if names.isEmpty then some .outside
    else some (.inside names.dropLast)
  | .outside, part => if stays part || part = ".." then some .outside else none

/-- What stands at a place. -/
def entryAt (d : Directory) : Place → FileEntry
  | .outside => .unreadable
  | .inside names =>
    if d.isDirectory names then .unreadable else (d.files.lookup names).elim .missing .text

/-- What stands at a path.  The empty path is the directory itself, and a path that begins with a
slash starts outside of it. -/
def entry (d : Directory) (path : String) : FileEntry :=
  let start : Place := if path.startsWith "/" then .outside else .inside []
  ((path.splitOn "/").foldlM d.follow start).elim .missing d.entryAt

/-- What stands at each path that starts from the directory. -/
def toFiles (d : Directory) : Files := ⟨d.entry⟩

/-- With no files, a path leads nowhere or to something without text. -/
theorem entry_ofTexts_nil (path content : String) : (ofTexts []).entry path ≠ .text content := by
  have h : ∀ p, (ofTexts []).entryAt p ≠ .text content := by
    intro p
    cases p with
    | outside => simp [entryAt]
    | inside names =>
      rw [entryAt]
      split <;> simp [ofTexts]
  rw [entry]
  cases (path.splitOn "/").foldlM (ofTexts []).follow
      (if path.startsWith "/" then .outside else .inside []) with
  | none => simp
  | some p => exact h p

end Directory

end PlanningAgents
