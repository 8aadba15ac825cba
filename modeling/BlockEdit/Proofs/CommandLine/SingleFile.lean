import BlockEdit.CommandLine.Run
import BlockEdit.Proofs.Batch.Editing
import BlockEdit.Proofs.Manifest.RoundTrip
import BlockEdit.Proofs.Manifest.Validity
import BlockEdit.Proofs.Path.Here

/-!
# One edit, by itself and in a batch

A command that carries out one edit on a file does what a manifest does that has this edit for the
file as its only one, and lies in the working directory. Such a manifest is valid, however its path
is seen (`Manifest.checkFrom_single`). Its directory is `.`, from where the file is the same
(`Job.target_here`), so the batch carries out the same edit (`Batch.runManifest_single`). Both
commands end alike (`runCommand_apply_single`).
-/

namespace BlockEdit

/-! ### A manifest with one edit -/

section Manifest

variable {text : String} {edit : Edit} {policy : FailurePolicy}

theorem ne_empty_of_not_blank (h : Text.isBlankText text = false) : text ≠ "" := by
  rintro rfl
  exact absurd h (by decide)

theorem Job.target_here (h : Text.isBlankText text = false) (edits : List Edit) :
    (⟨text, edits⟩ : Job).target (.ofString ".") = .ofString text :=
  Path.resolveAgainst_here (ne_empty_of_not_blank h)

theorem Manifest.checkFrom_single (h : Text.isBlankText text = false) (target : Job → Path) :
    checkFrom target 1 [] [⟨text, [edit]⟩] = .ok () := by
  rw [checkFrom_eq_ok_iff]
  simp [IsComplete, h]

/-- A batch in the working directory with one edit carries the edit out on the file. -/
theorem Batch.runManifest_single (h : Text.isBlankText text = false) {b : Batch}
    (hroot : b.root = .ofString ".") (s : Store) :
    b.runManifest s ⟨policy, [⟨text, [edit]⟩]⟩ =
      ((s.editFile b.options (.ofString text) [edit]).1,
        .ok (b.report [entry 1 (.ofString text)
          (s.editFile b.options (.ofString text) [edit]).2])) := by
  have hvalid : Manifest.validateFrom b.root ⟨policy, [⟨text, [edit]⟩]⟩ = .ok () :=
    Manifest.checkFrom_single h _
  have htarget := Job.target_here h [edit]
  rw [← hroot] at htarget
  rw [runManifest, hvalid]
  simp [run, runFrom, runJob, htarget]

end Manifest

namespace CommandLine

/-! ### Both commands -/

/-- The command asks for one edit on a file. If the text for the edit comes from another file, it
can be read there. -/
inductive Command.AsksFor (s : Store) (file : Argument) (dryRun : Bool) : Edit → Command → Prop
  | insert {selector : Selector} {placement : Placement} {content : TextSource} {text : String}
      (h : content.read s = .ok text) :
      AsksFor s file dryRun (insertEdit selector placement text)
        (.insert file selector content placement dryRun)
  | replaceBlock {selector : Selector} {tokens : TokenPair} {replacement : TextSource}
      {text : String} (h : replacement.read s = .ok text) :
      AsksFor s file dryRun (replaceEdit selector tokens text)
        (.replaceBlock file selector tokens replacement dryRun)

section Commands

variable (settings : Settings) {s : Store} {file manifest : Argument} {dryRun : Bool} {edit : Edit}
  {c : Command} {text name : String} {own : FailurePolicy}

theorem pathOf?_of_text? {a : Argument} (h : a.text? = some text) :
    pathOf? a = .ok (.ofString text) := by
  have hpath : Path.ofBytes? a.toByteArray = some (.ofString text) := by
    rw [Path.ofBytes?, ← Argument.text?, h, Option.map_some]
  rw [pathOf?, hpath]

theorem Command.AsksFor.runCommand_eq (h : c.AsksFor s file dryRun edit) :
    runCommand settings s c =
      ((runEdit settings s file edit dryRun).1,
        outputOfEdit settings dryRun (runEdit settings s file edit dryRun).2) := by
  cases h with
  | insert hsource => rw [runCommand, runSourcedEdit, hsource]
  | replaceBlock hsource => rw [runCommand, runSourcedEdit, hsource]

theorem runEdit_of_text? (s : Store) (hfile : file.text? = some text) (edit : Edit)
    (dryRun : Bool) :
    runEdit settings s file edit dryRun =
      s.editFile ⟨settings.process, dryRun⟩ (.ofString text) [edit] := by
  rw [runEdit, pathOf?_of_text? hfile]

/-- A manifest with one edit, in the working directory, carries out the edit on the file. -/
theorem runApply_single (hblank : Text.isBlankText text = false)
    (hmanifest : manifest.text? = some name) (hname : Path.IsBareName name)
    (hload : s.load Manifest.reader (.ofString name) = .ok ⟨own, [⟨text, [edit]⟩]⟩)
    (policy : Option FailurePolicy) (dryRun : Bool) :
    let run := s.editFile ⟨settings.process, dryRun⟩ (.ofString text) [edit]
    let batch := batchFor settings (.ofString name) (policy.getD own) dryRun
    runApply settings s manifest policy dryRun =
      (run.1, .ok (batch.report [Batch.entry 1 (.ofString text) run.2])) := by
  have hvalid : Manifest.validate ⟨own, [⟨text, [edit]⟩]⟩ = .ok () :=
    Manifest.checkFrom_single hblank _
  have hroot : (batchFor settings (.ofString name) (policy.getD own) dryRun).root =
      .ofString "." := by
    rw [batchFor, Path.parent?_of_isBareName hname, Option.getD_none]
  have hloaded : s.loadManifest (.ofString name) = .ok ⟨own, [⟨text, [edit]⟩]⟩ := by
    unfold Store.loadManifest
    simp only [hload, hvalid]
  rw [runApply, pathOf?_of_text? hmanifest]
  simp only [hloaded]
  exact Batch.runManifest_single hblank hroot s

/-- The exit code says whether all jobs were done, and so it is that of the only one. -/
theorem exitCode_outputOfBatch_entry (b : Batch) (n : Nat) (path : Path)
    (result : Except BatchError FileOutcome) (json dryRun : Bool) :
    (outputOfBatch settings json (.ok (b.report [Batch.entry n path result]))).exitCode =
      (outputOfEdit settings dryRun result).exitCode := by
  cases result with
  | error e => rfl
  | ok outcome =>
    have hsuccess : (b.report [Batch.entry n path (.ok outcome)]).success = true := by
      cases hchanged : outcome.changed <;> simp [Batch.entry, Batch.report, hchanged]
    rw [outputOfBatch, hsuccess]
    rfl

/-- A failed edit is one of the file at the path. -/
theorem path_of_editFile_eq_error {options : EditOptions} {path path' : Path} {edits : List Edit}
    {failure : EditFailure} (h : (s.editFile options path edits).2 = .error (.edit path' failure)) :
    path' = path := by
  have hedited := edited_editFile s options path edits
  rw [h] at hedited
  generalize (s.editFile options path edits).1 = s' at hedited
  cases hedited with
  | refused hrefuses =>
    cases hrefuses with
    | edit => rfl

/-- A command that carries out one edit on a file, and a manifest that has the edit for the file as
its only one and is named without a directory, leave the same store and end with the same exit code.
The report has one entry, which is about the path of the file as the command reads it, and about the
same result. If the edit fails, the entry has the sentence with which the command fails, and where
it is an edit that failed, it is one of the file at that path. -/
theorem runCommand_apply_single (hc : c.AsksFor s file dryRun edit) (hfile : file.text? = some text)
    (hblank : Text.isBlankText text = false) (hmanifest : manifest.text? = some name)
    (hname : Path.IsBareName name)
    (hload : s.load Manifest.reader (.ofString name) = .ok ⟨own, [⟨text, [edit]⟩]⟩)
    (policy : Option FailurePolicy) (json : Bool) :
    let single := runCommand settings s c
    let batch := runCommand settings s (.apply manifest policy dryRun json)
    let result := (runEdit settings s file edit dryRun).2
    batch.1 = single.1 ∧ batch.2.exitCode = single.2.exitCode ∧
      (∃ report, runApply settings s manifest policy dryRun = (single.1, .ok report) ∧
        report.jobs = [Batch.entry 1 (.ofString text) result]) ∧
      ∀ e, result = .error e →
        single.2.stderr = showError settings.colours e.message ∧
          (Batch.entry 1 (.ofString text) result).error = some e.message ∧
            ∀ path failure, e = .edit path failure → path = .ofString text := by
  have happly := runApply_single settings hblank hmanifest hname hload policy dryRun
  have hedit := runEdit_of_text? settings s hfile edit dryRun
  cases hrun : s.editFile ⟨settings.process, dryRun⟩ (.ofString text) [edit] with
  | mk s' result =>
    rw [hrun] at happly hedit
    have hsingle : runCommand settings s c = (s', outputOfEdit settings dryRun result) := by
      rw [hc.runCommand_eq, hedit]
    generalize batchFor settings (.ofString name) (policy.getD own) dryRun = b at happly
    have hbatch : runCommand settings s (.apply manifest policy dryRun json) =
        (s', outputOfBatch settings json
          (.ok (b.report [Batch.entry 1 (.ofString text) result]))) := by
      rw [runCommand, happly]
    simp only [hsingle, hbatch, happly, hedit]
    refine ⟨trivial, exitCode_outputOfBatch_entry settings b 1 _ result json dryRun,
      ⟨_, rfl, rfl⟩, ?_⟩
    rintro e rfl
    refine ⟨rfl, rfl, ?_⟩
    rintro path failure rfl
    exact path_of_editFile_eq_error (congrArg Prod.snd hrun)

/-- A file that is spelled in a roundabout way, with a manifest beside it. -/
theorem runCommand_apply_single_roundabout :
    let edit := insertEdit ⟨"x", 1⟩ .before "y"
    let written := "\x7b\"jobs\":[[\".\\\\a\"," ++
      "[\x7b\"kind\":\"insert\",\"marker\":\"x\",\"content\":\"y\"\x7d]]]\x7d"
    let s := ((Store.root []).put ["a"] (.file ⟨"x".toUTF8, 0o600, false⟩)).put ["m.json"]
      (.file ⟨written.toUTF8, 0o600, false⟩)
    let file := Argument.ofText ".\\a"
    let single := runCommand ⟨7, false⟩ s (.insert file ⟨"x", 1⟩ (.inline "y") .before false)
    let batch := runCommand ⟨7, false⟩ s (.apply (Argument.ofText "m.json") none false true)
    s.load Manifest.reader (.ofString "m.json") = .ok ⟨.failFast, [⟨".\\a", [edit]⟩]⟩ ∧
      single.2.exitCode = 0 ∧ single.1.readText ⟨"a"⟩ = .ok "yx" ∧
      batch.1 = single.1 ∧ batch.2.exitCode = single.2.exitCode := by
  intro edit written s file single batch
  have hfile : file.text? = some ".\\a" := by decide +kernel
  have hmanifest : (Argument.ofText "m.json").text? = some "m.json" := by decide +kernel
  have hwritten : Manifest.reader.read? .json written = some ⟨.failFast, [⟨".\\a", [edit]⟩]⟩ := by
    decide +kernel
  have hfind : s.find? "m.json" = .ok (["m.json"], .file ⟨written.toUTF8, 0o600, false⟩) := by
    decide +kernel
  have hload : s.load Manifest.reader (.ofString "m.json") = .ok ⟨.failFast, [⟨".\\a", [edit]⟩]⟩ :=
    (Config.Reader.Loads.of_read? hwritten).load (by decide)
      (Store.readText_eq_ok_iff.2 ⟨["m.json"], _, hfind, rfl⟩)
  have hc : Command.AsksFor s file false edit
      (.insert file ⟨"x", 1⟩ (.inline "y") .before false) := .insert rfl
  have hagree := runCommand_apply_single ⟨7, false⟩ hc hfile (by decide) hmanifest (by decide) hload
    none true
  exact ⟨hload, by decide +kernel, by decide +kernel, hagree.1, hagree.2.1⟩

end Commands

end CommandLine

end BlockEdit
