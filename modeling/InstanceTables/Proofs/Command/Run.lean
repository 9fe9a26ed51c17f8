import InstanceTables.Command.Run
import InstanceTables.Proofs.Writer.Text

/-!
# Runs on a store

A store of files answers the steps of a run one after the other (`FileStore.run_bind_of_eq`).  So
it is known what a run leaves behind as soon as it is known whether there is a catalogue, whether
the output is opened and whether it is accepted; there is one equation for each outcome.

What all runs have in common follows from these: only a run that succeeds is reported as complete,
with the number that it returns, and `describe` changes no file.
-/

namespace InstanceTables

variable {files created : FileStore} {c : GenerateCommand} {tables : Logged Catalogue}

namespace FileStore

variable {s s' : RunState} {path : String} {handle : Handle} {bytes : ByteArray}

/-- A step of a run is followed by the next one. -/
theorem run_bind_of_eq {α β : Type} {x : StateM RunState α} {k : α → StateM RunState β} {a : α}
    (h : StateT.run x s = (a, s')) : StateT.run (x >>= k) s = StateT.run (k a) s' := by
  rw [StateT.run_bind, h]
  rfl

theorem run_create_of_error {fault : FileFault} (h : s.files.create path = .error fault) :
    StateT.run (host.create path) s = (.error fault, s) := by
  simp only [host, StateT.run, h]

theorem run_create_of_ok (h : s.files.create path = .ok (handle, created)) :
    StateT.run (host.create path) s = (.ok handle, { s with files := created }) := by
  simp only [host, StateT.run, h]

theorem run_append_of_error {fault : FileFault} (h : s.files.append bytes handle = .error fault) :
    StateT.run (host.append bytes handle) s = (.error fault, s) := by
  simp only [host, StateT.run, h]

theorem run_append_of_ok {written : FileStore} (h : s.files.append bytes handle = .ok written) :
    StateT.run (host.append bytes handle) s = (.ok (), { s with files := written }) := by
  simp only [host, StateT.run, h]

theorem run_log (s : RunState) (events : List Event) :
    StateT.run (host.log events) s = ((), { s with log := s.log ++ events }) :=
  rfl

theorem run_complete (s : RunState) (c : Completion) :
    StateT.run (host.complete c) s = ((), { s with completed := some c }) :=
  rfl

variable {configFile : String} {maxOrder : Int}

theorem run_catalogue_of_error {e : BuildError}
    (h : Catalogue.ofFile configFile (files.read configFile) maxOrder = .error e) :
    StateT.run (host.catalogue configFile maxOrder) { files } =
      (.error (.build configFile e), { files }) := by
  have hread : StateT.run (host.read configFile) { files } = (files.read configFile, { files }) :=
    rfl
  rw [Host.catalogue, run_bind_of_eq hread, h]
  rfl

theorem run_catalogue_of_ok
    (h : Catalogue.ofFile configFile (files.read configFile) maxOrder = .ok tables) :
    StateT.run (host.catalogue configFile maxOrder) { files } =
      (.ok tables.value, { files, log := tables.events }) := by
  have hread : StateT.run (host.read configFile) { files } = (files.read configFile, { files }) :=
    rfl
  rw [Host.catalogue, run_bind_of_eq hread, h]
  exact run_bind_of_eq (run_log _ _)

end FileStore

/-! ## Runs of `generate` -/

theorem GenerateCommand.selected_eq (c : GenerateCommand) :
    c.selected = if c.families = [] then Family.all else c.families := by
  simp only [selected, List.isEmpty_iff]

namespace Command

open FileStore

/-- Without a catalogue no file is touched, and nothing is logged. -/
theorem runGenerate_of_error {e : BuildError}
    (h : Catalogue.ofFile c.configFile (files.read c.configFile) c.maxOrder = .error e) :
    runGenerate files c = { files, outcome := .error (.build c.configFile e) } := by
  rw [runGenerate, FileStore.run, GenerateCommand.perform,
    run_bind_of_eq (run_catalogue_of_error h)]
  rfl

/-- With a catalogue, a run ends as writing it does. -/
theorem runGenerate_of_write
    (h : Catalogue.ofFile c.configFile (files.read c.configFile) c.maxOrder = .ok tables)
    {outcome : Except RunError Nat} {s : RunState}
    (hwrite : StateT.run (c.write host tables.value) { files, log := tables.events } =
      (outcome, s)) :
    runGenerate files c = { s with outcome } := by
  rw [runGenerate, FileStore.run, GenerateCommand.perform, run_bind_of_eq (run_catalogue_of_ok h)]
  dsimp only
  rw [hwrite]

/-- If the output file cannot be created, no file is touched. -/
theorem runGenerate_of_create_error
    (h : Catalogue.ofFile c.configFile (files.read c.configFile) c.maxOrder = .ok tables)
    {fault : FileFault} (hcreate : files.create c.outFile = .error fault) :
    runGenerate files c =
      { files, log := tables.events, outcome := .error (.create c.outFile fault) } := by
  refine runGenerate_of_write h ?_
  rw [GenerateCommand.write,
    run_bind_of_eq (run_create_of_error (s := { files, log := tables.events }) hcreate)]
  rfl

variable {handle : FileStore.Handle}

/-- What is opened is sent the output.  What is logged ends with the number of declarations. -/
theorem runGenerate_of_create
    (h : Catalogue.ofFile c.configFile (files.read c.configFile) c.maxOrder = .ok tables)
    (hcreate : files.create c.outFile = .ok (handle, created)) {written : FileStore}
    (happend : created.append
      (tables.value.generatedText c.generator c.selected).toUTF8 handle = .ok written) :
    runGenerate files c =
      { files := written
        log := tables.events ++ tables.value.familyEvents c.selected
        completed := some ⟨c.outFile, (tables.value.declarations c.selected).length⟩
        outcome := .ok (tables.value.declarations c.selected).length } := by
  refine runGenerate_of_write h ?_
  rw [← Writer.bytes_generate] at happend
  rw [GenerateCommand.write,
    run_bind_of_eq (run_create_of_ok (s := { files, log := tables.events }) hcreate)]
  dsimp only
  rw [run_bind_of_eq
    (run_append_of_ok (s := { files := created, log := tables.events }) happend)]
  dsimp only
  rw [run_bind_of_eq (run_log _ _), run_bind_of_eq (run_complete _ _), Writer.log_generate,
    Writer.declared_generate]
  rfl

/-- An output that is refused is as good as opened, but not complete. -/
theorem runGenerate_of_refused
    (h : Catalogue.ofFile c.configFile (files.read c.configFile) c.maxOrder = .ok tables)
    (hcreate : files.create c.outFile = .ok (handle, created)) {fault : FileFault}
    (happend : created.append
      (tables.value.generatedText c.generator c.selected).toUTF8 handle = .error fault) :
    runGenerate files c =
      { files := created
        log := tables.events ++ (Writer.generateTo { capacity := some outputBuffer } c.generator
          tables.value c.selected).log.toList
        outcome := .error (refusal c.outFile
          (tables.value.generatedText c.generator c.selected).toUTF8 fault) } := by
  refine runGenerate_of_write h ?_
  rw [← Writer.bytes_generate] at happend ⊢
  rw [GenerateCommand.write,
    run_bind_of_eq (run_create_of_ok (s := { files, log := tables.events }) hcreate)]
  dsimp only
  rw [run_bind_of_eq
    (run_append_of_error (s := { files := created, log := tables.events }) happend)]
  dsimp only
  rw [run_bind_of_eq (run_log _ _)]
  rfl

/-- A run is stopped, or it comes to its end with a catalogue. -/
theorem runGenerate_cases (files : FileStore) (c : GenerateCommand) :
    (∃ (left : FileStore) (log : List Event) (e : RunError),
      runGenerate files c = { files := left, log, outcome := .error e }) ∨
    ∃ (tables : Logged Catalogue) (written : FileStore),
      Catalogue.ofFile c.configFile (files.read c.configFile) c.maxOrder = .ok tables ∧
      runGenerate files c =
        { files := written
          log := tables.events ++ tables.value.familyEvents c.selected
          completed := some ⟨c.outFile, (tables.value.declarations c.selected).length⟩
          outcome := .ok (tables.value.declarations c.selected).length } := by
  cases htables : Catalogue.ofFile c.configFile (files.read c.configFile) c.maxOrder with
  | error e => exact .inl ⟨_, _, _, runGenerate_of_error htables⟩
  | ok tables =>
    cases hcreate : files.create c.outFile with
    | error fault => exact .inl ⟨_, _, _, runGenerate_of_create_error htables hcreate⟩
    | ok opened =>
      obtain ⟨handle, created⟩ := opened
      cases happend : created.append
          (tables.value.generatedText c.generator c.selected).toUTF8 handle with
      | error fault => exact .inl ⟨_, _, _, runGenerate_of_refused htables hcreate happend⟩
      | ok written => exact .inr ⟨tables, _, rfl, runGenerate_of_create htables hcreate happend⟩

/-- What is reported as complete is the output of a run that succeeds, with the number of
declarations that the run returns. -/
theorem completed_runGenerate (files : FileStore) (c : GenerateCommand) :
    (runGenerate files c).completed =
      (runGenerate files c).outcome.toOption.map (⟨c.outFile, ·⟩) := by
  obtain ⟨left, log, e, hrun⟩ | ⟨tables, written, -, hrun⟩ := runGenerate_cases files c <;>
  · rw [hrun]
    rfl

/-- A run that succeeds warns of what its catalogue warns of. -/
theorem warnings_runGenerate {declared : Nat}
    (h : (runGenerate files c).outcome = .ok declared) :
    ∃ tables, Catalogue.ofFile c.configFile (files.read c.configFile) c.maxOrder = .ok tables ∧
      (runGenerate files c).log.filter Event.isWarning = tables.warnings := by
  obtain ⟨left, log, e, hrun⟩ | ⟨tables, written, htables, hrun⟩ := runGenerate_cases files c
  · rw [hrun] at h
    nomatch h
  · refine ⟨tables, htables, ?_⟩
    rw [hrun, List.filter_append, tables.value.filter_isWarning_familyEvents, List.append_nil]
    rfl

/-- The number of declarations is not part of the outcome of a command. -/
theorem run_generate (files : FileStore) (c : GenerateCommand) :
    run files (.generate c) =
      { (runGenerate files c).toRunState with
        outcome := (runGenerate files c).outcome.map fun _ => () } :=
  rfl

/-! ## Runs of `describe` -/

variable {d : DescribeCommand}

theorem run_describe_of_error {e : BuildError}
    (h : Catalogue.ofFile d.configFile (files.read d.configFile) d.maxOrder = .error e) :
    run files (.describe d) = { files, outcome := .error (.build d.configFile e) } := by
  change FileStore.run files (d.perform host) = _
  rw [FileStore.run, DescribeCommand.perform, run_bind_of_eq (run_catalogue_of_error h)]
  rfl

/-- The report is printed. -/
theorem run_describe_of_ok
    (h : Catalogue.ofFile d.configFile (files.read d.configFile) d.maxOrder = .ok tables) :
    run files (.describe d) =
      { files := files.print tables.value.report.toUTF8
        log := tables.events
        outcome := .ok () } := by
  change FileStore.run files (d.perform host) = _
  rw [FileStore.run, DescribeCommand.perform, run_bind_of_eq (run_catalogue_of_ok h)]
  rfl

/-- No file is changed, and no output is reported as complete. -/
theorem files_run_describe (files : FileStore) (d : DescribeCommand) :
    (run files (.describe d)).files.files = files.files ∧
      (run files (.describe d)).completed = none := by
  cases h : Catalogue.ofFile d.configFile (files.read d.configFile) d.maxOrder with
  | error e =>
    rw [run_describe_of_error h]
    exact ⟨rfl, rfl⟩
  | ok tables =>
    rw [run_describe_of_ok h]
    exact ⟨rfl, rfl⟩

end Command

end InstanceTables
