import AnnotatedValues.Files.Basic

/-! # Directories as values

A working directory with all that is below it, inside a directory of which nothing is known but
what paths out of the working directory put there. -/
namespace AnnotatedValues

inductive FileTree where
  /-- A file with a text, or without one if its bytes are none. -/
  | file (text? : Option String)
  | directory (members : List (String × FileTree))
  deriving Inhabited, Repr

namespace FileTree

def isDirectory : FileTree → Bool
  | .file _ => false
  | .directory _ => true

/-- `members` with `tree` under `name`: instead of the one that was there, else at the end. -/
def setMember (name : String) (tree : FileTree) :
    (members : List (String × FileTree)) → List (String × FileTree)
  | [] => [(name, tree)]
  | (n, t) :: members =>
    if n == name then (n, tree) :: members else (n, t) :: setMember name tree members

theorem lookup_setMember_self (name : String) (tree : FileTree)
    (members : List (String × FileTree)) :
    (setMember name tree members).lookup name = some tree := by
  induction members with
  | nil => simp [setMember]
  | cons head members ih =>
    obtain ⟨n, old⟩ := head
    by_cases h : n = name
    · have found : (n == name) = true := beq_iff_eq.mpr h
      have back : (name == n) = true := beq_iff_eq.mpr h.symm
      simp only [setMember, found, if_true, List.lookup_cons, back]
    · have passed : (n == name) = false := beq_eq_false_iff_ne.mpr h
      have back : (name == n) = false := beq_eq_false_iff_ne.mpr (Ne.symm h)
      simp only [setMember, passed, Bool.false_eq_true, if_false, List.lookup_cons, back]
      exact ih

/-- What the names lead to. -/
def at? : FileTree → (names : List String) → Option FileTree
  | tree, [] => some tree
  | .file _, _ :: _ => none
  | .directory members, name :: names => (members.lookup name).bind (at? · names)

/-- The tree with `inner` where the names lead to. Directories that are missing on the way are
made; below a file nothing can be put. -/
def put : FileTree → (names : List String) → (inner : FileTree) → FileTree
  | _, [], inner => inner
  | .file text?, _ :: _, _ => .file text?
  | .directory members, name :: names, inner =>
    let old := (members.lookup name).getD (.directory [])
    .directory (setMember name (put old names inner) members)

mutual

/-- The files of a tree that the names `above` lead to, the last one first. -/
def filesFrom (above : List String) : FileTree → List (List String × Option String)
  | .file text? => [(above.reverse, text?)]
  | .directory members => filesOfMembers above members

def filesOfMembers (above : List String) :
    List (String × FileTree) → List (List String × Option String)
  | [] => []
  | (name, tree) :: members => filesFrom (name :: above) tree ++ filesOfMembers above members

end

/-- The files with the names that lead to them. -/
def files (tree : FileTree) : List (List String × Option String) := filesFrom [] tree

/-- The text of the file that the names lead to. -/
def text? (tree : FileTree) (names : List String) : Option String :=
  match tree.at? names with
  | some (.file text?) => text?
  | _ => none

end FileTree

/-- A working directory, and the directory around it. -/
structure Directory where
  working : FileTree
  around : FileTree
  deriving Inhabited, Repr

/-- A place that a path leads to. -/
structure Spot where
  /-- Whether it is in the working directory. -/
  isInside : Bool
  /-- The names that lead to it, the last one first. -/
  names : List String
  /-- The directories that these names stand in. -/
  passed : List FileTree
  /-- What is there, if there is anything. -/
  tree? : Option FileTree
  deriving Inhabited, Repr

namespace Directory

def start (d : Directory) : Spot := ⟨true, [], [], some d.working⟩

def aroundIt (d : Directory) : Spot := ⟨false, [], [], some d.around⟩

/-- The place of the directory that a place is in. -/
def up (d : Directory) (s : Spot) : Spot :=
  match s.names, s.passed with
  | _ :: names, tree :: passed => { s with names, passed, tree? := some tree }
  | _, _ => d.aroundIt

/-- A name has at most so many octets. -/
def maxName : Nat := 255

/-- A path has at most so many octets. -/
def maxPath : Nat := 4095

/-- The place that pieces lead to from a place. All directories on the way must exist, the last
one need not. -/
def walk (d : Directory) (s : Spot) : List Path.Piece → Except FileFault Spot
  | [] => .ok s
  | piece :: pieces =>
    match s.tree? with
    | none => .error .missing
    | some (.file _) => .error .notDirectory
    | some (.directory members) =>
      let name := String.ofList piece
      if Path.isIdle piece then walk d s pieces
      else if name == ".." then walk d (d.up s) pieces
      else if maxName < name.utf8ByteSize then .error .nameTooLong
      else
        let inner : Spot := ⟨s.isInside, name :: s.names, .directory members :: s.passed,
          members.lookup name⟩
        walk d inner pieces

/-- The place that a path leads to. -/
def locate (d : Directory) (path : String) : Except FileFault Spot :=
  if path.toList.contains '\x00' then .error .invalidName
  else if path.isEmpty then .error .missing
  else if maxPath < path.utf8ByteSize then .error .nameTooLong
  else d.walk (if path.toList.head? == some '/' then d.aroundIt else d.start) (Path.pieces path)

/-- What a path leads to. -/
def find (d : Directory) (path : String) : Except FileFault FileTree :=
  match d.locate path with
  | .error fault => .error fault
  | .ok s =>
    match s.tree? with
    | none => .error .missing
    | some tree => .ok tree

/-- The directory with `tree` at a place. -/
def put (d : Directory) (s : Spot) (tree : FileTree) : Directory :=
  if s.isInside then { d with working := d.working.put s.names.reverse tree }
  else { d with around := d.around.put s.names.reverse tree }

def read (d : Directory) (path : String) : Except FileFault String :=
  match d.find path with
  | .error fault => .error fault
  | .ok (.directory _) => .error .isDirectory
  | .ok (.file none) => .error .notText
  | .ok (.file (some text)) => .ok text

/-- The names in a directory, each with whether it is one of a directory. -/
def list (d : Directory) (path : String) : Except FileFault (List (String × Bool)) :=
  match d.find path with
  | .error fault => .error fault
  | .ok (.file _) => .error .notDirectory
  | .ok (.directory members) => .ok (members.map fun (name, tree) => (name, tree.isDirectory))

def isPresent (d : Directory) (path : String) : Bool :=
  match d.find path with
  | .ok _ => true
  | .error _ => false

def isDirectory (d : Directory) (path : String) : Bool :=
  match d.find path with
  | .ok tree => tree.isDirectory
  | .error _ => false

/-- The place where the file of a path is or will be. A path that ends with a slash is never a
file's. -/
def fileSpot (d : Directory) (path : String) : Except FileFault Spot :=
  match path.toList.reverse.span (· == '/') with
  | ([], _) => d.locate path
  | (_ :: _, []) => .error .isDirectory
  | (_ :: _, name) =>
    if maxPath < path.utf8ByteSize then .error .nameTooLong
    else match d.locate (String.ofList name.reverse) with
      | .error fault => .error fault
      | .ok _ => .error .isDirectory

/-- The directory after a text was written. -/
def write (d : Directory) (path text : String) : Except FileFault Directory :=
  match d.fileSpot path with
  | .error fault => .error fault
  | .ok s =>
    match s.tree? with
    | some (.directory _) => .error .isDirectory
    | _ => .ok (d.put s (.file (some text)))

/-- The directory with a new directory in it. -/
def makeDirectory (d : Directory) (path : String) : Except FileFault Directory :=
  match d.locate path with
  | .error fault => .error fault
  | .ok s =>
    match s.tree? with
    | some _ => .error .exists
    | none => .ok (d.put s (.directory []))

/-- Changes the directory, if that is possible. -/
def change (f : Directory → Except FileFault Directory) :
    StateM Directory (Except FileFault Unit) := fun d =>
  match f d with
  | .ok changed => (.ok (), changed)
  | .error fault => (.error fault, d)

instance : Files (StateM Directory) where
  read path := fun d => (d.read path, d)
  write path text := change fun d => d.write path text
  makeDirectory path := change fun d => d.makeDirectory path
  isDirectory path := fun d => (d.isDirectory path, d)
  isPresent path := fun d => (d.isPresent path, d)
  list path := fun d => (d.list path, d)

/-- The working directory with files at paths of names, and directories above them. -/
def ofFiles (files : List (String × Option String)) : Directory :=
  let working := files.foldl
    (fun tree f => tree.put ((Path.pieces f.1).map String.ofList) (.file f.2)) (.directory [])
  ⟨working, .directory []⟩

/-- The files below the working directory, by path, that are not in `old` with the same text. -/
def changedFrom (d old : Directory) : List (String × String) :=
  let changed := d.working.files.filterMap fun (names, text?) =>
    text?.bind fun text =>
      if old.working.text? names == some text then none else some ("/".intercalate names, text)
  changed.mergeSort fun a b => decide (a.1 ≤ b.1)

end Directory

end AnnotatedValues
