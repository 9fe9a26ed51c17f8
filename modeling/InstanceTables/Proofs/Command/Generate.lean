import InstanceTables.Proofs.Catalogue.Source
import InstanceTables.Proofs.Command.Run
import InstanceTables.Proofs.FileStore
import InstanceTables.Proofs.Seed.Table
import InstanceTables.Proofs.Writer.Selection

/-!
# Runs of `generate`

A run of `generate` goes through checks in a fixed order: the maximum order, the seed file, its
lines, and the creation of the output file.  `GenerateFault` lists what each of them reports when
those before it are passed.  A run that is stopped by one leaves the files as they were; any other
run replaces the output file.
-/

namespace InstanceTables

/-- What stops a run of `generate` on the files. -/
inductive GenerateFault (files : FileStore) (c : GenerateCommand) : RunError → Prop
  /-- The order is looked at first, whatever the seed file is. -/
  | order (h : c.maxOrder < 0 ∨ 4294967295 < c.maxOrder) :
    GenerateFault files c (.build c.configFile (.invalidOrder c.maxOrder))
  | unreadable {n : MaxOrder} (hn : c.maxOrder = n.max.toNat) {fault : FileFault}
    (hread : files.read c.configFile = .error fault) :
    GenerateFault files c (.build c.configFile (.unreadable c.configFile fault))
  /-- There is a file, which holds no text. -/
  | notUtf8 {n : MaxOrder} (hn : c.maxOrder = n.max.toNat) {location : List String}
    {contents : ByteArray} (hplace : files.place c.configFile = .ok (.file location contents))
    (hcontents : String.fromUTF8? contents = none) :
    GenerateFault files c (.build c.configFile (.unreadable c.configFile .notUtf8))
  /-- The lines before the one that is reported are accepted. -/
  | seed {n : MaxOrder} (hn : c.maxOrder = n.max.toNat) {text : String}
    (hread : files.read c.configFile = .ok text) {before line after : List Char}
    (htext : text.toList = before ++ line ++ after) (hline : Text.IsLine before line after)
    (hbefore : ∃ rows, Seed.parseTable (.ofList before) = .ok rows) {e : SeedError}
    (herror : Seed.parseLine (before.count '\n' + 1) line = .error e) :
    GenerateFault files c (.build c.configFile (.seed e))
  | create {n : MaxOrder} (hn : c.maxOrder = n.max.toNat) {text : String}
    (hread : files.read c.configFile = .ok text) {rows : List Space}
    (hrows : Seed.parseTable text = .ok rows) {fault : FileFault}
    (hcreate : files.create c.outFile = .error fault) :
    GenerateFault files c (.create c.outFile fault)

variable {files : FileStore} {c : GenerateCommand}

namespace Command

/-- Whatever stops a run is reported, and the files are left as they were. -/
theorem runGenerate_of_fault {e : RunError} (h : GenerateFault files c e) :
    ∃ log, runGenerate files c = { files, log, outcome := .error e } := by
  cases h with
  | order h => exact ⟨_, runGenerate_of_error (Catalogue.ofFile_of_order h _)⟩
  | unreadable hn hread =>
    exact ⟨_, runGenerate_of_error (Catalogue.ofFile_of_unreadable hn hread)⟩
  | notUtf8 hn hplace hcontents =>
    have hread := FileStore.read_of_not_utf8 hplace hcontents
    exact ⟨_, runGenerate_of_error (Catalogue.ofFile_of_unreadable hn hread)⟩
  | seed hn hread htext hline hbefore herror =>
    have hseeds := Seed.parseTable_eq_error_iff.2 ⟨_, _, _, htext, hline, hbefore, herror⟩
    exact ⟨_, runGenerate_of_error (Catalogue.ofFile_of_error hn hread hseeds)⟩
  | create hn hread hrows hcreate =>
    exact ⟨_, runGenerate_of_create_error (Catalogue.ofFile_of_rows _ hn hread hrows) hcreate⟩

/-- A run that nothing stops gets to an output that is opened. -/
theorem exists_fault_or_create (files : FileStore) (c : GenerateCommand) :
    (∃ e, GenerateFault files c e) ∨
      ∃ (n : MaxOrder) (text : String) (rows : List Space) (handle : FileStore.Handle)
        (created : FileStore), c.maxOrder = n.max.toNat ∧ files.read c.configFile = .ok text ∧
        Seed.parseTable text = .ok rows ∧ files.create c.outFile = .ok (handle, created) := by
  cases horder : MaxOrder.ofInt? c.maxOrder with
  | none => exact .inl ⟨_, .order (MaxOrder.ofInt?_eq_none_iff.1 horder)⟩
  | some n =>
    have hn := MaxOrder.ofInt?_eq_some_iff.1 horder
    cases hread : files.read c.configFile with
    | error fault => exact .inl ⟨_, .unreadable hn hread⟩
    | ok text =>
      cases hrows : Seed.parseTable text with
      | error e =>
        obtain ⟨before, line, after, htext, hline, hbefore, herror⟩ :=
          Seed.parseTable_eq_error_iff.1 hrows
        exact .inl ⟨_, .seed hn hread htext hline hbefore herror⟩
      | ok rows =>
        cases hcreate : files.create c.outFile with
        | error fault => exact .inl ⟨_, .create hn hread hrows hcreate⟩
        | ok opened => exact .inr ⟨n, text, rows, opened.1, opened.2, hn, rfl, hrows, rfl⟩

/-- `generate` touches its output only after the catalogue is built, and then replaces it.  A run
that is stopped leaves the files as they were.  Any other run succeeds: what is written is the
header and the declarations of the selected families, which are counted, and it replaces the output
file, whatever that held before and even if it is the seed file.  No other file is changed.  An
output that is a device with room changes no file at all. -/
theorem runGenerate_spec (files : FileStore) (c : GenerateCommand) :
    (∀ e : RunError, GenerateFault files c e →
      (runGenerate files c).outcome = .error e ∧ (runGenerate files c).files = files) ∧
    ((∃ e, GenerateFault files c e) ∨
      ∃ (n : MaxOrder) (text : String) (rows : List Space) (handle : FileStore.Handle)
        (created : FileStore), c.maxOrder = n.max.toNat ∧ files.read c.configFile = .ok text ∧
        Seed.parseTable text = .ok rows ∧ files.create c.outFile = .ok (handle, created)) ∧
    ∀ (n : MaxOrder) (text : String) (rows : List Space), c.maxOrder = n.max.toNat →
      files.read c.configFile = .ok text → Seed.parseTable text = .ok rows →
      ∃ (families : List Family) (declarations : List Declaration) (output : String),
        families = (if c.families = [] then Family.all else c.families) ∧
        declarations = (Catalogue.ofSeeds rows n).declarations families ∧
        output = header c.generator ++ declarationText declarations ∧
        (Writer.generate c.generator (.ofSeeds rows n) families).sink.bytes = output.toUTF8 ∧
        (∀ location created, files.create c.outFile = .ok (.file location, created) →
          (runGenerate files c).outcome = .ok declarations.length ∧
            FileStore.Replaces files (runGenerate files c).files c.outFile location output) ∧
        ∀ device created, device ≠ .full →
          files.create c.outFile = .ok (.device device, created) →
          (runGenerate files c).outcome = .ok declarations.length ∧
            (runGenerate files c).files.files = files.files := by
  refine ⟨fun e he => ?_, exists_fault_or_create files c, ?_⟩
  · obtain ⟨log, hrun⟩ := runGenerate_of_fault he
    rw [hrun]
    exact ⟨rfl, rfl⟩
  intro n text rows hn hread hrows
  have htables := Catalogue.ofFile_of_rows c.configFile hn hread hrows
  refine ⟨c.selected, _, _, c.selected_eq, rfl, rfl, Writer.bytes_generate _ _ _, ?_, ?_⟩
  · intro location created hcreate
    rw [runGenerate_of_create htables hcreate (FileStore.append_of_create hcreate _)]
    exact ⟨rfl, FileStore.replaces_of_create hcreate _⟩
  · intro device created hdevice hcreate
    obtain rfl := FileStore.eq_of_create_device hcreate
    obtain ⟨after, happend, hafter⟩ := FileStore.exists_append_device hdevice created _
    rw [runGenerate_of_create htables hcreate happend]
    exact ⟨rfl, hafter⟩

/-- A run that replaces its own seed file, and one with a negative order, which leaves it as it
is. -/
theorem runGenerate_onto_seeds :
    ∃ files : FileStore, files.read "seeds" = .ok "1 0 1 1 h_grad\n" ∧
      (runGenerate files ⟨"seeds", 0, "seeds", [.mapping], "tables"⟩).outcome = .ok 2 ∧
      (runGenerate files ⟨"seeds", 0, "seeds", [.mapping], "tables"⟩).files.read "seeds" =
        .ok (header "tables" ++ declarationText
          ((Catalogue.ofSeeds [⟨1, 0, 1, 1, .hGrad⟩] ⟨0⟩).declarations [.mapping])) ∧
      (runGenerate files ⟨"seeds", -1, "seeds", [.mapping], "tables"⟩).outcome =
        .error (.build "seeds" (.invalidOrder (-1))) ∧
      (runGenerate files ⟨"seeds", -1, "seeds", [.mapping], "tables"⟩).files = files := by
  let files : FileStore := .ofFiles [("seeds", "1 0 1 1 h_grad\n".toUTF8)]
  have hread : files.read "seeds" = .ok "1 0 1 1 h_grad\n" := by decide +kernel
  have hrows : Seed.parseTable "1 0 1 1 h_grad\n" = .ok [⟨1, 0, 1, 1, .hGrad⟩] := by
    decide +kernel
  have hopened : (files.create "seeds").map Prod.fst = .ok (.file ["tmp", ".", "seeds"]) := by
    decide +kernel
  have hslash : ¬ "seeds".endsWith "/" := by decide +kernel
  have hlength : ((Catalogue.ofSeeds [⟨1, 0, 1, 1, .hGrad⟩] ⟨0⟩).declarations
      [.mapping]).length = 2 := by
    rw [Catalogue.declarations, distinct_of_nodup (List.nodup_singleton _),
      List.flatMap_singleton, Family.declarations, Catalogue.mappings_curve]
    rfl
  obtain ⟨families, declarations, output, rfl, rfl, rfl, -, hfile, -⟩ :=
    (runGenerate_spec files ⟨"seeds", 0, "seeds", [.mapping], "tables"⟩).2.2 ⟨0⟩ _ _ rfl hread
      hrows
  obtain ⟨houtcome, hreplaces⟩ := hfile _ _ (FileStore.create_of_handle hopened)
  refine ⟨files, hread, ?_, hreplaces.read hslash, ?_⟩
  · rw [← hlength]
    exact houtcome
  · exact (runGenerate_spec files ⟨"seeds", -1, "seeds", [.mapping], "tables"⟩).1 _
      (.order (.inl (by decide)))

end Command

end InstanceTables
