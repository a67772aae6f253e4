import AnnotatedValues.CommandLine.Run
import AnnotatedValues.Proofs.Files.Directory

/-!
# What a stopped command leaves behind

Files are written one after the other.  If one cannot be written, the ones
before it stay written, and nothing else is changed: the files are those of a
run that had these outputs only.  All failures before the first write leave
every file as it was.
-/

namespace AnnotatedValues

namespace Directory

/-! ## Files after writing -/

/-- The file at a place after texts were written to places, one after the other. -/
def fileAfter (d : Directory) (writes : List (Place × String)) (place : Place) :
    Option (Option String) :=
  match writes.reverse.lookup place with
  | some text => some (some text)
  | none => d.file? place

theorem fileAfter_cons {d e : Directory} {first : Place} {text : String}
    (h : ∀ other, e.file? other = if other = first then some (some text) else d.file? other)
    (writes : List (Place × String)) (place : Place) :
    d.fileAfter ((first, text) :: writes) place = e.fileAfter writes place := by
  rw [fileAfter, fileAfter, List.reverse_cons, List.lookup_append, h place]
  cases writes.reverse.lookup place with
  | some later => rfl
  | none =>
      rw [Option.none_or, List.lookup_cons]
      by_cases hplace : place = first
      · rw [if_pos hplace, beq_iff_eq.mpr hplace]
      · rw [if_neg hplace, beq_false_of_ne hplace]
        rfl

/-- No file is changed exactly if each file that is written holds what is written to it last. -/
theorem fileAfter_eq_iff {d : Directory} {writes : List (Place × String)} :
    (∀ place, d.fileAfter writes place = d.file? place) ↔
      ∀ place text, writes.reverse.lookup place = some text →
        d.file? place = some (some text) := by
  constructor
  · intro h place text hlookup
    rw [← h place, fileAfter, hlookup]
  · intro h place
    rw [fileAfter]
    cases hlookup : writes.reverse.lookup place with
    | none => rfl
    | some text => exact (h place text hlookup).symm

end Directory

namespace CommandLine

variable {d d' e : Directory} {failure : Failure}

/-! ## Outputs -/

/-- Why an output is not written: there is no directory for it, or no file. -/
def Output.IsRefused (o : Output) (failure : Failure) : Prop :=
  ∃ fault, failure = .noDirectory (Path.text (Path.parent o.path)) fault ∨
    failure = .unwritable o.path fault

theorem run_write (text path : String) (d : Directory) :
    (Files.write path text : StateM Directory (Except FileFault Unit)).run d =
      match d.write path text with
      | Except.ok d' => (Except.ok (), d')
      | Except.error fault => (Except.error fault, d) := rfl

/-- An output is refused without a change to any file, or it is written to one place. -/
theorem Output.run_write_cases (o : Output) (d : Directory) :
    (∃ failure d', (o.write : StateM Directory _).run d = (.error failure, d') ∧
        o.IsRefused failure ∧ d'.SameFiles d) ∨
      ∃ d' place, (o.write : StateM Directory _).run d = (.ok (), d') ∧
        ∀ other, d'.file? other = if other = place then some (some o.text) else d.file? other := by
  have hdirectories := Directory.sameFiles_ensureDirectories (Path.parent o.path) d
  rw [Output.write, Directory.run_bind]
  split
  · rename_i fault _
    exact Or.inl ⟨_, _, rfl, ⟨fault, Or.inl rfl⟩, hdirectories⟩
  · rw [Directory.run_bind, run_write]
    cases hwrite : Directory.write _ o.path o.text with
    | error fault => exact Or.inl ⟨_, _, rfl, ⟨fault, Or.inr rfl⟩, hdirectories⟩
    | ok d' =>
        obtain ⟨place, hplace⟩ := Directory.exists_place_of_write hwrite
        refine Or.inr ⟨d', place, rfl, fun other => ?_⟩
        rw [hplace, hdirectories]

/-- All of the outputs are written, from the files of `d` to those of `e`. -/
def AllWritten (outputs : List Output) (d e : Directory) : Prop :=
  (writeAll outputs : StateM Directory _).run d = ((outputs.map Output.status, .passed), e)

theorem allWritten_nil (d : Directory) : AllWritten [] d d := rfl

theorem run_writeAll_cons (o : Output) (outputs : List Output) (d : Directory) :
    (writeAll (o :: outputs) : StateM Directory _).run d =
      match (o.write : StateM Directory _).run d with
      | (.error failure, d') => (([], .stopped failure), d')
      | (.ok (), d') =>
        match (writeAll outputs : StateM Directory _).run d' with
        | ((lines, result), e) => ((o.status :: lines, result), e) := by
  rw [writeAll, Directory.run_bind]
  rcases (o.write : StateM Directory _).run d with ⟨failure | _, d'⟩
  · rfl
  · rfl

/-- Each output that is written changes the file at one place. -/
theorem AllWritten.exists_writes {outputs : List Output} (h : AllWritten outputs d e) :
    ∃ writes : List (Directory.Place × String), writes.map Prod.snd = outputs.map Output.text ∧
      ∀ place, e.file? place = d.fileAfter writes place := by
  induction outputs generalizing d with
  | nil =>
      cases h
      exact ⟨[], rfl, fun _ => rfl⟩
  | cons o outputs ih =>
      rw [AllWritten, run_writeAll_cons] at h
      rcases o.run_write_cases d with ⟨failure, d', hrun, -, -⟩ | ⟨d', first, hrun, hfirst⟩
      · rw [hrun] at h
        cases h
      · rw [hrun] at h
        dsimp only at h
        cases hrest : (writeAll outputs : StateM Directory _).run d' with
        | mk printed f =>
          obtain ⟨lines, result⟩ := printed
          rw [hrest] at h
          cases h
          obtain ⟨writes, htexts, hwrites⟩ := ih hrest
          refine ⟨(first, o.text) :: writes, by rw [List.map_cons, List.map_cons, htexts], ?_⟩
          intro place
          rw [hwrites, Directory.fileAfter_cons hfirst]

/-- If outputs are not all written, those before some output are, and this one is refused. -/
theorem exists_written_of_stopped {outputs : List Output} {lines : List String}
    (h : (writeAll outputs : StateM Directory _).run d = ((lines, .stopped failure), d')) :
    ∃ written failed rest e, outputs = written ++ failed :: rest ∧ failed.IsRefused failure ∧
      AllWritten written d e ∧ d'.SameFiles e := by
  induction outputs generalizing d lines with
  | nil => cases h
  | cons o outputs ih =>
      rw [run_writeAll_cons] at h
      rcases o.run_write_cases d with ⟨failure', d'', hrun, hrefused, hsame⟩ | ⟨d'', first, hrun, -⟩
      · rw [hrun] at h
        cases h
        exact ⟨[], o, outputs, d, rfl, hrefused, allWritten_nil d, hsame⟩
      · rw [hrun] at h
        dsimp only at h
        cases hrest : (writeAll outputs : StateM Directory _).run d'' with
        | mk printed f =>
          obtain ⟨lines', result⟩ := printed
          rw [hrest] at h
          cases h
          obtain ⟨written, failed, rest, e, rfl, hrefused, hwritten, hsame⟩ := ih hrest
          refine ⟨o :: written, failed, rest, e, rfl, hrefused, ?_, hsame⟩
          rw [AllWritten, run_writeAll_cons, hrun]
          dsimp only
          rw [hwritten]
          rfl

/-! ## The command -/

/-- What the arguments ask for can be generated from the files of a directory. -/
def Generates (a : GenerateArguments) (d : Directory) (artifacts : Artifacts) : Prop :=
  ∃ f readme?, ((readValuesFile a.values : StateM Directory _).run d).1 = .ok f ∧
    ((readReadme a.readme? : StateM Directory _).run d).1 = .ok readme? ∧
      f.generate (a.request readme?) = .ok artifacts

theorem run_readValuesFile (path : String) (d : Directory) :
    ((readValuesFile path : StateM Directory _).run d).2 = d := by
  rw [readValuesFile, Directory.run_bind]
  split
  · rfl
  · rfl

theorem run_readReadme (path? : Option String) (d : Directory) :
    ((readReadme path? : StateM Directory _).run d).2 = d := by
  cases path? with
  | none => rfl
  | some path =>
      rw [readReadme, Directory.run_bind]
      split
      · rfl
      · rfl

/-- A command that stops has changed nothing, or it stops between its outputs. -/
theorem eq_or_exists_generates_of_stopped {a : GenerateArguments} {report : Report}
    (h : (generate a : StateM Directory Report).run d = (report, d'))
    (hstopped : report.result = .stopped failure) :
    d' = d ∨ ∃ artifacts lines, Generates a d artifacts ∧
      (writeAll (a.outputs artifacts) : StateM Directory _).run d =
        ((lines, .stopped failure), d') := by
  rw [generate] at h
  split at h
  · rw [Directory.run_bind, run_readValuesFile] at h
    split at h
    · cases h
      exact Or.inl rfl
    · rename_i f hfile
      rw [generateFrom, Directory.run_bind, run_readReadme] at h
      split at h
      · cases h
        exact Or.inl rfl
      · rename_i readme? hreadme
        split at h
        · cases h
          exact Or.inl rfl
        · rename_i artifacts hartifacts
          rw [Directory.run_bind] at h
          cases hwrites : (writeAll (a.outputs artifacts) : StateM Directory _).run d with
          | mk printed e =>
            obtain ⟨lines, result⟩ := printed
            rw [hwrites] at h
            cases h
            cases hstopped
            exact Or.inr ⟨artifacts, lines, ⟨f, readme?, hfile, hreadme, hartifacts⟩, hwrites⟩
  · cases h
    exact Or.inl rfl

/-- If `generate` stops, the outputs before the one that is refused have been written, and no other
file has been created or changed. So no file at all has been, exactly if each file that was written
held what was written to it last; in particular if no output was written. -/
theorem files_of_stopped {a : GenerateArguments} {report : Report}
    (h : (generate a : StateM Directory Report).run d = (report, d'))
    (hstopped : report.result = .stopped failure) :
    ∃ written e, AllWritten written d e ∧ d'.SameFiles e ∧
      (written = [] ∨ ∃ artifacts failed rest, Generates a d artifacts ∧
        a.outputs artifacts = written ++ failed :: rest ∧ failed.IsRefused failure) ∧
      ∃ writes : List (Directory.Place × String),
        writes.map Prod.snd = written.map Output.text ∧
        (∀ place, d'.file? place = d.fileAfter writes place) ∧
        (d'.SameFiles d ↔ ∀ place text, writes.reverse.lookup place = some text →
          d.file? place = some (some text)) := by
  obtain ⟨written, e, hwritten, hsame, horigin⟩ : ∃ written e, AllWritten written d e ∧
      d'.SameFiles e ∧ (written = [] ∨ ∃ artifacts failed rest, Generates a d artifacts ∧
        a.outputs artifacts = written ++ failed :: rest ∧ failed.IsRefused failure) := by
    rcases eq_or_exists_generates_of_stopped h hstopped with rfl | ⟨artifacts, lines, hgen, hrun⟩
    · exact ⟨[], d', allWritten_nil d', .refl d', Or.inl rfl⟩
    · obtain ⟨written, failed, rest, e, houtputs, hrefused, hwritten, hsame⟩ :=
        exists_written_of_stopped hrun
      exact ⟨written, e, hwritten, hsame,
        Or.inr ⟨artifacts, failed, rest, hgen, houtputs, hrefused⟩⟩
  obtain ⟨writes, htexts, hwrites⟩ := hwritten.exists_writes
  have hafter : ∀ place, d'.file? place = d.fileAfter writes place :=
    fun place => (hsame place).trans (hwrites place)
  refine ⟨written, e, hwritten, hsame, horigin, writes, htexts, hafter, ?_⟩
  rw [← Directory.fileAfter_eq_iff]
  exact forall_congr' fun place => by rw [hafter place]

/-- A values file without parameters beside a directory. -/
def besideDirectory : Directory :=
  ⟨.directory [("values.yaml", .file (some "")), ("out", .directory [])], .directory []⟩

/-- Two outputs, of which the second is to replace the directory. -/
def ontoDirectory : GenerateArguments :=
  ⟨"values.yaml", "values", some "types.go", some "out", none, none, false⟩

/-- The command with these arguments, and what it leaves. -/
def ontoDirectoryRun : Report × Directory :=
  (generate ontoDirectory : StateM Directory Report).run besideDirectory

theorem ontoDirectoryRun_stopped :
    ontoDirectoryRun.1.result = .stopped (.unwritable "out" .isDirectory) ∧
      (besideDirectory.file? (true, ["types.go"])).isSome = false ∧
        (ontoDirectoryRun.2.file? (true, ["types.go"])).isSome = true := by
  decide +kernel

theorem not_sameFiles_of_types {d : Directory}
    (h : (d.file? (true, ["types.go"])).isSome = true) : ¬ d.SameFiles besideDirectory := by
  intro hsame
  rw [hsame, ontoDirectoryRun_stopped.2.1] at h
  cases h

/-- The command stops at the second output, and the first one has been written, -/
theorem not_sameFiles_ontoDirectoryRun :
    (∃ failure, ontoDirectoryRun.1.result = .stopped failure) ∧
      ¬ ontoDirectoryRun.2.SameFiles besideDirectory :=
  ⟨⟨_, ontoDirectoryRun_stopped.1⟩, not_sameFiles_of_types ontoDirectoryRun_stopped.2.2⟩

/-- as if it had been the only one. -/
theorem allWritten_ontoDirectoryRun :
    ∃ written e, written ≠ [] ∧ AllWritten written besideDirectory e ∧
      ontoDirectoryRun.2.SameFiles e := by
  obtain ⟨hstopped, -, hwritten⟩ := ontoDirectoryRun_stopped
  have hrun : (generate ontoDirectory : StateM Directory Report).run besideDirectory =
      (ontoDirectoryRun.1, ontoDirectoryRun.2) := rfl
  obtain ⟨written, e, hall, hsame, -⟩ := files_of_stopped hrun hstopped
  refine ⟨written, e, ?_, hall, hsame⟩
  rintro rfl
  cases hall
  exact not_sameFiles_of_types hwritten hsame

end CommandLine

end AnnotatedValues
