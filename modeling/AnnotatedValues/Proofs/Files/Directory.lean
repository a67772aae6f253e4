import AnnotatedValues.Files.Directory

/-!
# What changes to a directory leave alone

Names lead through directories to one place.  A new directory stands where
nothing was, so it changes no file; a text that is written becomes the file at
one place, and all other files stay.  A directory with all those above it is
therefore made without any change to files.
-/

namespace AnnotatedValues

namespace FileTree

/-! ## Files of a tree -/

/-- The file that the names lead to, with its text if it has one. -/
def file? (tree : FileTree) (names : List String) : Option (Option String) :=
  match tree.at? names with
  | some (.file text?) => some text?
  | _ => none

theorem at?_append (tree : FileTree) (names more : List String) :
    tree.at? (names ++ more) = (tree.at? names).bind (at? · more) := by
  induction names generalizing tree with
  | nil => rfl
  | cons name names ih =>
      cases tree with
      | file text? => rfl
      | directory members =>
          rw [List.cons_append, at?, at?]
          cases members.lookup name with
          | none => rfl
          | some inner => exact ih inner

theorem lookup_setMember (name other : String) (tree : FileTree)
    (members : List (String × FileTree)) :
    (setMember name tree members).lookup other =
      if other = name then some tree else members.lookup other := by
  by_cases hother : other = name
  · rw [if_pos hother, hother, lookup_setMember_self]
  · rw [if_neg hother]
    induction members with
    | nil => rw [setMember, List.lookup_cons, beq_false_of_ne hother]
    | cons head members ih =>
        obtain ⟨n, old⟩ := head
        rw [setMember]
        split
        · rename_i hn
          rw [List.lookup_cons, List.lookup_cons, beq_iff_eq.mp hn, beq_false_of_ne hother]
        · rw [List.lookup_cons, List.lookup_cons, ih]

/-- Below a directory a tree is put under one name. -/
theorem file?_cons_put (members : List (String × FileTree)) (name : String) (names : List String)
    (inner : FileTree) (other : String) (others : List String) :
    ((directory members).put (name :: names) inner).file? (other :: others) =
      if other = name then
        (((members.lookup name).getD (.directory [])).put names inner).file? others
      else (directory members).file? (other :: others) := by
  by_cases hother : other = name
  · simp only [put, file?, at?, lookup_setMember, if_pos hother, Option.bind_some]
  · simp only [put, file?, at?, lookup_setMember, if_neg hother]

theorem file?_empty (names : List String) : (directory []).file? names = none := by
  cases names with
  | nil => rfl
  | cons name names => rfl

theorem file?_cons (members : List (String × FileTree)) (name : String) (names : List String) :
    (directory members).file? (name :: names) =
      ((members.lookup name).getD (.directory [])).file? names := by
  rw [file?, at?]
  cases members.lookup name with
  | none => exact (file?_empty names).symm
  | some inner => rfl

/-- A new directory changes no file. -/
theorem file?_put_directory (tree : FileTree) (names : List String) (h : tree.at? names = none)
    (others : List String) : (tree.put names (.directory [])).file? others = tree.file? others := by
  induction names generalizing tree others with
  | nil => cases h
  | cons name names ih =>
      cases tree with
      | file text? => rfl
      | directory members =>
          cases others with
          | nil => rfl
          | cons other others =>
              rw [file?_cons_put]
              split
              · rename_i hother
                rw [hother, file?_cons]
                cases hlookup : members.lookup name with
                | some inner =>
                    rw [at?, hlookup] at h
                    exact ih inner h others
                | none =>
                    cases names with
                    | nil => rfl
                    | cons name names => exact ih (.directory []) rfl others
              · rfl

/-- A file that is put into a directory, where none is, is the only one that changes. -/
theorem file?_put_file {tree : FileTree} {names : List String} {members : List (String × FileTree)}
    (hnames : tree.at? names = some (.directory members)) {name : String}
    (hplain : ∀ inner, members.lookup name ≠ some (.directory inner)) (text? : Option String)
    (others : List String) :
    (tree.put (names ++ [name]) (.file text?)).file? others =
      if others = names ++ [name] then some text? else tree.file? others := by
  induction names generalizing tree others with
  | nil =>
      cases hnames
      cases others with
      | nil => rfl
      | cons other others =>
          rw [List.nil_append, file?_cons_put]
          by_cases hother : other = name
          · subst hother
            rw [if_pos rfl, file?_cons, put]
            cases others with
            | nil => rw [if_pos rfl]; rfl
            | cons first others =>
                rw [if_neg (by simp)]
                cases hlookup : members.lookup other with
                | none => rfl
                | some inner =>
                    cases inner with
                    | file old? => rfl
                    | directory inner => exact absurd hlookup (hplain inner)
          · rw [if_neg hother, if_neg (by simp [hother])]
  | cons first names ih =>
      cases tree with
      | file old? => cases hnames
      | directory above =>
          cases others with
          | nil => rfl
          | cons other others =>
              rw [at?] at hnames
              obtain ⟨inner, hinner, hinside⟩ := Option.bind_eq_some_iff.mp hnames
              rw [List.cons_append, file?_cons_put]
              by_cases hother : other = first
              · subst hother
                rw [if_pos rfl, hinner, Option.getD_some, ih hinside, file?_cons, hinner,
                  Option.getD_some]
                simp only [List.cons.injEq, true_and]
              · rw [if_neg hother, if_neg (by simp [hother])]

end FileTree

/-! ## Places -/

namespace Directory

/-- The working directory, or the one around it. -/
def tree (d : Directory) (isInside : Bool) : FileTree := if isInside then d.working else d.around

/-- Names, and whether they lead from the working directory or from the one around it. -/
abbrev Place := Bool × List String

/-- The file at a place, with its text if it has one. -/
def file? (d : Directory) (place : Place) : Option (Option String) :=
  (d.tree place.1).file? place.2

/-- Both have the same files with the same texts. -/
def SameFiles (d e : Directory) : Prop := ∀ place, d.file? place = e.file? place

theorem SameFiles.refl (d : Directory) : d.SameFiles d := fun _ => rfl

theorem SameFiles.trans {d e f : Directory} (hde : d.SameFiles e) (hef : e.SameFiles f) :
    d.SameFiles f := fun place => (hde place).trans (hef place)

end Directory

namespace Spot

/-- The directories that names stand in, the last one first. -/
inductive Passes (tree : FileTree) : List String → List FileTree → Prop where
  | start : Passes tree [] []
  | step (name : String) {names : List String} {members : List (String × FileTree)}
      {passed : List FileTree} (hmembers : tree.at? names.reverse = some (.directory members))
      (hpassed : Passes tree names passed) :
      Passes tree (name :: names) (.directory members :: passed)

/-- What a place records is what a directory has there. -/
structure IsIn (s : Spot) (d : Directory) : Prop where
  passes : Passes (d.tree s.isInside) s.names s.passed
  tree?_eq : s.tree? = (d.tree s.isInside).at? s.names.reverse

end Spot

namespace Directory

variable {d : Directory} {s s' : Spot}

theorem isIn_start (d : Directory) : d.start.IsIn d := ⟨.start, rfl⟩

theorem isIn_aroundIt (d : Directory) : d.aroundIt.IsIn d := ⟨.start, rfl⟩

theorem isIn_up (hs : s.IsIn d) : (d.up s).IsIn d := by
  obtain ⟨isInside, names, passed, tree?⟩ := s
  cases hs.passes with
  | start => exact isIn_aroundIt d
  | step name hmembers hpassed => exact ⟨hpassed, hmembers.symm⟩

theorem isIn_walk {pieces : List Path.Piece} (hs : s.IsIn d) (h : d.walk s pieces = .ok s') :
    s'.IsIn d := by
  induction pieces generalizing s with
  | nil => exact Except.ok.inj h ▸ hs
  | cons piece pieces ih =>
      rw [walk] at h
      split at h
      · cases h
      · cases h
      · rename_i members htree
        dsimp only at h
        split at h
        · exact ih hs h
        · split at h
          · exact ih (isIn_up hs) h
          · split at h
            · cases h
            · have hdirectory : (d.tree s.isInside).at? s.names.reverse =
                  some (.directory members) := hs.tree?_eq.symm.trans htree
              refine ih ⟨.step _ hdirectory hs.passes, ?_⟩ h
              rw [List.reverse_cons, FileTree.at?_append, hdirectory, Option.bind_some,
                FileTree.at?]
              cases members.lookup (String.ofList piece) <;> rfl

theorem isIn_locate {path : String} (h : d.locate path = .ok s) : s.IsIn d := by
  unfold locate at h
  split at h
  · cases h
  · split at h
    · cases h
    · split at h
      · cases h
      · refine isIn_walk ?_ h
        split
        · exact isIn_aroundIt d
        · exact isIn_start d

theorem isIn_fileSpot {path : String} (h : d.fileSpot path = .ok s) : s.IsIn d := by
  unfold fileSpot at h
  split at h
  · exact isIn_locate h
  · cases h
  · split at h
    · cases h
    · split at h
      · cases h
      · cases h

/-! ## Changes -/

theorem tree_put (d : Directory) (s : Spot) (tree : FileTree) (isInside : Bool) :
    (d.put s tree).tree isInside =
      if isInside = s.isInside then (d.tree isInside).put s.names.reverse tree
      else d.tree isInside := by
  unfold put
  cases isInside <;> cases s.isInside <;> rfl

/-- A tree that a place takes instead of its own changes the places below it only. -/
theorem file?_put (d : Directory) (s : Spot) (tree : FileTree) (place : Place) :
    (d.put s tree).file? place =
      if place.1 = s.isInside then ((d.tree s.isInside).put s.names.reverse tree).file? place.2
      else d.file? place := by
  rw [file?, tree_put]
  split
  · rename_i hside
    rw [hside]
  · rfl

/-- A text becomes the file at the place where it is put. -/
theorem file?_put_text (hs : s.IsIn d) (hplain : ∀ members, s.tree? ≠ some (.directory members))
    (text : String) (place : Place) :
    (d.put s (.file (some text))).file? place =
      if place = (s.isInside, s.names.reverse) then some (some text) else d.file? place := by
  obtain ⟨isInside, others⟩ := place
  obtain ⟨side, names, passed, tree?⟩ := s
  obtain ⟨hpasses, htree⟩ := hs
  rw [file?_put]
  by_cases hside : isInside = side
  · subst hside
    rw [if_pos rfl]
    simp only [Prod.mk.injEq, true_and]
    cases hpasses with
    | start =>
        cases hroot : d.tree isInside with
        | directory members => exact absurd (htree.trans (congrArg some hroot)) (hplain members)
        | file old? =>
            rw [file?, hroot]
            cases others <;> rfl
    | step name hmembers =>
        rw [List.reverse_cons, FileTree.file?_put_file hmembers]
        · rfl
        · intro inner hinner
          refine hplain inner (htree.trans ?_)
          rw [List.reverse_cons, FileTree.at?_append, hmembers, Option.bind_some, FileTree.at?,
            hinner]
          rfl
  · rw [if_neg hside, if_neg fun h => hside (congrArg Prod.fst h)]

/-- Making a directory changes no file. -/
theorem sameFiles_of_makeDirectory {d' : Directory} {path : String}
    (h : d.makeDirectory path = .ok d') : d'.SameFiles d := by
  unfold makeDirectory at h
  split at h
  · cases h
  · rename_i s hs
    split at h
    · cases h
    · rename_i hnothing
      cases h
      rintro ⟨isInside, names⟩
      rw [file?_put]
      split
      · rename_i hside
        have hat := (isIn_locate hs).tree?_eq
        rw [hnothing] at hat
        rw [FileTree.file?_put_directory _ _ hat.symm, file?, hside]
      · rfl

/-- Writing a text changes the file at one place, and this to the text. -/
theorem exists_place_of_write {d' : Directory} {path text : String}
    (h : d.write path text = .ok d') :
    ∃ place, ∀ other,
      d'.file? other = if other = place then some (some text) else d.file? other := by
  unfold write at h
  split at h
  · cases h
  · rename_i s hs
    split at h
    · cases h
    · rename_i hplain
      cases h
      exact ⟨_, file?_put_text (isIn_fileSpot hs) hplain text⟩

/-! ## Programs that change directories -/

theorem run_bind {α β : Type} (x : StateM Directory α) (f : α → StateM Directory β)
    (d : Directory) : (x >>= f).run d = (f (x.run d).1).run (x.run d).2 := rfl

theorem run_makeDirectory (path : String) (d : Directory) :
    (Files.makeDirectory path : StateM Directory (Except FileFault Unit)).run d =
      match d.makeDirectory path with
      | Except.ok d' => (Except.ok (), d')
      | Except.error fault => (Except.error fault, d) := rfl

theorem sameFiles_ensureDirectory (path : String) (d : Directory) :
    ((Files.ensureDirectory path : StateM Directory (Except FileFault Unit)).run d).2.SameFiles
      d := by
  rw [Files.ensureDirectory, run_bind, run_makeDirectory]
  cases h : d.makeDirectory path with
  | error fault => exact .refl d
  | ok d' => exact sameFiles_of_makeDirectory h

/-- Making a directory and those above it changes no file, whether it succeeds or not. -/
theorem sameFiles_ensureDirectories (pieces : List Path.Piece) (d : Directory) :
    ((Files.ensureDirectories pieces : StateM Directory (Except FileFault Unit)).run
      d).2.SameFiles d := by
  induction pieces generalizing d with
  | nil => exact .refl d
  | cons piece rest ih =>
      rw [Files.ensureDirectories]
      split
      · exact ih d
      · dsimp only
        rw [run_bind]
        have hfirst := sameFiles_ensureDirectory (Path.text (piece :: rest)) d
        split
        · rw [run_bind]
          split
          · exact (sameFiles_ensureDirectory _ _).trans ((ih _).trans hfirst)
          · exact (ih _).trans hfirst
        · exact hfirst

end Directory

end AnnotatedValues
