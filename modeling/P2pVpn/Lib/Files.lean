import Mathlib

set_option autoImplicit false

/-! # Paths and files

Unix paths as text, with the functions that take one apart and put two together, and a disk as a map
from files to what they hold. Which file a path leads to (its directories, `.` and `..`, links) is a
parameter, so two paths may lead to one file. What the OS makes of a request to write is an input of the
request; a write that fails may leave part of its bytes behind. -/

/-! ## Paths -/

namespace UnixPath

/-- The second path as seen from the first: an absolute one replaces it. -/
def join (dir path : String) : String :=
  if path.toList.head? = some '/' then path
  else if dir = "" ∨ dir.toList.getLast? = some '/' then dir ++ path
  else dir ++ "/" ++ path

/-- The root or the leading dot, and what comes after it. -/
def splitFront : List Char → List Char × List Char
  | '/' :: body => (['/'], body)
  | ['.'] => (['.'], [])
  | '.' :: '/' :: body => (['.'], '/' :: body)
  | body => ([], body)

/-- Doubled separators and dots behind the front are no components. -/
def isSkipped (component : List Char) : Bool := component == [] || component == ['.']

/-- The path without its last component; the root and the empty path have none. -/
def parent (path : String) : Option String :=
  let (front, body) := splitFront path.toList
  let components := (body.splitOn '/').rdropWhile isSkipped
  if components = [] then
    if front = ['.'] then some "" else none
  else
    let rest := components.dropLast.rdropWhile isSkipped
    some (String.ofList (front ++ ['/'].intercalate rest))

theorem join_empty (path : String) : join "" path = path := by
  unfold join
  split_ifs with habsolute hdir
  · rfl
  · exact String.empty_append
  · exact absurd (Or.inl rfl) hdir

end UnixPath

/-! ## Files -/

/-- What is at a path. -/
inductive DiskNode where
  | file (contents : ByteArray) (mode : Nat)
  | directory

/-- The files that the paths lead to. -/
structure Disk {File : Type} (resolve : String → File) where
  nodes : File → Option DiskNode

/-- What the OS makes of a write. -/
inductive WriteOutcome where
  /-- All bytes are written; a file that has to be created gets this mode. -/
  | written (mode : Nat)
  /-- The write fails, with what it has put into the file if it came to open it. -/
  | failed (left : Option (ByteArray × Nat))

namespace Disk

variable {File : Type} {resolve : String → File}

/-- What is at the path. -/
def node (disk : Disk resolve) (path : String) : Option DiskNode := disk.nodes (resolve path)

/-- Something is at the path. -/
def pathExists (disk : Disk resolve) (path : String) : Bool := (disk.node path).isSome

/-- The contents, if the path leads to a file. -/
def read (disk : Disk resolve) (path : String) : Option ByteArray :=
  match disk.node path with
  | some (.file contents _) => some contents
  | _ => none

/-- The contents as text, if they are UTF-8. -/
def readToString (disk : Disk resolve) (path : String) : Option String :=
  (disk.read path).bind String.fromUTF8?

theorem read_of_node {disk : Disk resolve} {path : String} {contents : ByteArray} {mode : Nat}
    (h : disk.node path = some (.file contents mode)) : disk.read path = some contents := by
  simp only [read, h]

theorem pathExists_of_read {disk : Disk resolve} {path : String} {contents : ByteArray}
    (h : disk.read path = some contents) : disk.pathExists path = true := by
  unfold read at h
  split at h
  · next hnode => simp [pathExists, hnode]
  · exact absurd h (by simp)

theorem readToString_of_node {disk : Disk resolve} {path text : String} {mode : Nat}
    (h : disk.node path = some (.file text.toUTF8 mode)) : disk.readToString path = some text := by
  have htext : String.fromUTF8? text.toUTF8 = some text := by
    simp [String.fromUTF8?, String.toUTF8, String.fromUTF8, text.isValidUTF8]
  rw [readToString, read_of_node h, Option.bind_some, htext]

/-! ### Growing disks -/

/-- Only `file` may differ. -/
def SameBut (disk disk' : Disk resolve) (file : File) : Prop :=
  ∀ f, f ≠ file → disk'.nodes f = disk.nodes f

theorem SameBut.trans {disk disk' disk'' : Disk resolve} {file : File}
    (h : disk.SameBut disk' file) (h' : disk'.SameBut disk'' file) : disk.SameBut disk'' file :=
  fun f hf => (h' f hf).trans (h f hf)

/-- Nothing that was there has changed, and what is new is in `created`. -/
def Extends (disk disk' : Disk resolve) (created : File → Prop) : Prop :=
  ∀ f, disk'.nodes f = disk.nodes f ∨ (disk.nodes f = none ∧ created f)

namespace Extends

variable {disk disk' disk'' : Disk resolve} {P Q : File → Prop}

theorem refl (disk : Disk resolve) (P : File → Prop) : disk.Extends disk P := fun _ => Or.inl rfl

theorem mono (h : disk.Extends disk' P) (himp : ∀ f, P f → Q f) : disk.Extends disk' Q :=
  fun f => (h f).imp_right fun hnew => ⟨hnew.1, himp f hnew.2⟩

theorem trans (h : disk.Extends disk' P) (h' : disk'.Extends disk'' P) :
    disk.Extends disk'' P := by
  intro f
  rcases h f with hsame | hnew
  · rw [← hsame]
    exact h' f
  · exact Or.inr hnew

/-- A change to one file is a growth if the file was not there. -/
theorem of_sameBut {path : String} (h : disk.SameBut disk' (resolve path))
    (hnew : disk.pathExists path = false) : disk.Extends disk' fun f => f = resolve path := by
  intro f
  by_cases hf : f = resolve path
  · subst hf
    exact Or.inr ⟨by simpa [pathExists, node] using hnew, rfl⟩
  · exact Or.inl (h f hf)

theorem keeps (h : disk.Extends disk' P) {f : File} {n : DiskNode} (hn : disk.nodes f = some n) :
    disk'.nodes f = some n := by
  rcases h f with hsame | ⟨hnone, -⟩
  · exact hsame.trans hn
  · exact absurd (hn.symm.trans hnone) (by simp)

theorem created (h : disk.Extends disk' P) {f : File} (hnone : disk.nodes f = none)
    (hnew : disk'.nodes f ≠ none) : P f := by
  rcases h f with hsame | ⟨-, hP⟩
  · exact absurd (hsame.trans hnone) hnew
  · exact hP

theorem read (h : disk.Extends disk' P) {path : String} {contents : ByteArray}
    (hread : disk.read path = some contents) : disk'.read path = some contents := by
  unfold Disk.read Disk.node at hread ⊢
  split at hread
  · next hnode =>
      rw [h.keeps hnode]
      exact hread
  · exact absurd hread (by simp)

theorem readToString (h : disk.Extends disk' P) {path text : String}
    (hread : disk.readToString path = some text) : disk'.readToString path = some text := by
  obtain ⟨contents, hcontents, htext⟩ := Option.bind_eq_some_iff.1 hread
  exact Option.bind_eq_some_iff.2 ⟨contents, h.read hcontents, htext⟩

end Extends

/-! ### Operations -/

variable [DecidableEq File]

/-- The disk with `node` at the path. -/
def put (disk : Disk resolve) (path : String) (node : DiskNode) : Disk resolve :=
  ⟨Function.update disk.nodes (resolve path) (some node)⟩

/-- Creates the file or replaces its contents, and says whether all went well. -/
def write (disk : Disk resolve) (outcome : WriteOutcome) (path : String) (contents : ByteArray) :
    Disk resolve × Bool :=
  match disk.node path, outcome with
  | some .directory, _ => (disk, false)
  | some (.file _ mode), .written _ => (disk.put path (.file contents mode), true)
  | none, .written mode => (disk.put path (.file contents mode), true)
  | _, .failed none => (disk, false)
  | _, .failed (some (left, mode)) => (disk.put path (.file left mode), false)

/-- Sets the mode of a file; the modes of directories are not followed. -/
def setMode (disk : Disk resolve) (ok : Bool) (path : String) (mode : Nat) : Disk resolve × Bool :=
  match disk.node path with
  | none => (disk, false)
  | some .directory => (disk, ok)
  | some (.file contents _) =>
      if ok then (disk.put path (.file contents mode), true) else (disk, false)

theorem node_put (disk : Disk resolve) (path : String) (node : DiskNode) :
    (disk.put path node).node path = some node := by simp [Disk.node, put]

theorem sameBut_put (disk : Disk resolve) (path : String) (node : DiskNode) :
    disk.SameBut (disk.put path node) (resolve path) :=
  fun f hf => by simp [put, hf]

theorem sameBut_write (disk : Disk resolve) (outcome : WriteOutcome) (path : String)
    (contents : ByteArray) : disk.SameBut (disk.write outcome path contents).1 (resolve path) := by
  unfold write
  split
  · exact fun _ _ => rfl
  · exact disk.sameBut_put path _
  · exact disk.sameBut_put path _
  · exact fun _ _ => rfl
  · exact disk.sameBut_put path _

theorem sameBut_setMode (disk : Disk resolve) (ok : Bool) (path : String) (mode : Nat) :
    disk.SameBut (disk.setMode ok path mode).1 (resolve path) := by
  unfold setMode
  split
  · exact fun _ _ => rfl
  · exact fun _ _ => rfl
  · split_ifs
    · exact disk.sameBut_put path _
    · exact fun _ _ => rfl

/-- A write that succeeds leaves exactly its bytes in the file. -/
theorem node_write {disk disk' : Disk resolve} {outcome : WriteOutcome} {path : String}
    {contents : ByteArray} (h : disk.write outcome path contents = (disk', true)) :
    ∃ mode, disk'.node path = some (.file contents mode) := by
  unfold write at h
  split at h
  · exact absurd (congrArg Prod.snd h) (by simp)
  · obtain rfl := congrArg Prod.fst h
    exact ⟨_, disk.node_put path _⟩
  · obtain rfl := congrArg Prod.fst h
    exact ⟨_, disk.node_put path _⟩
  · exact absurd (congrArg Prod.snd h) (by simp)
  · exact absurd (congrArg Prod.snd h) (by simp)

theorem node_setMode {disk disk' : Disk resolve} {ok : Bool} {path : String} {contents : ByteArray}
    {mode₀ mode : Nat} (hnode : disk.node path = some (.file contents mode₀))
    (h : disk.setMode ok path mode = (disk', true)) :
    disk'.node path = some (.file contents mode) := by
  simp only [setMode, hnode] at h
  split_ifs at h
  · obtain rfl := congrArg Prod.fst h
    exact disk.node_put path _
  · exact absurd (congrArg Prod.snd h) (by simp)

end Disk
