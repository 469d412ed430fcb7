import JavaAtlas.Project.Loading

set_option autoImplicit false

/-! # Loading without an analyzer

Where no analyzer can be run, the report of a project should be what earlier output says, and only
where there is none may it be made up: empty for a project without sources, a fault for any other
(`promisedReport`). The setting that asks for a new run of the analyzer also passes over earlier
output when there is no analyzer to run, and the promise is then kept by chance alone
(`loadReport_eq_promised_iff`). -/

namespace JavaAtlas.Project

variable {launcher : Launcher} {env : Environment} {settings : Config.Settings}
  {files : FileSystem} {project : Path}

/-! ## What is promised -/

/-- The report of a project without output: empty if there are no sources. -/
def reportWithoutOutput (settings : Config.Settings) (files : FileSystem) (project : Path) :
    Except LoadFault Report :=
  if countSources settings files project = 0 then .ok {}
  else .error (.noAnalyzer (countSources settings files project) project)

/-- The report of a project as far as it can be had without an analyzer: the output in the project,
else the one in the output directory, else none. -/
def promisedReport (env : Environment) (settings : Config.Settings) (files : FileSystem)
    (project : Path) : Except LoadFault Report :=
  let inProject := project.push outputName
  let inOutput := (settings.outputFor env project).push outputName
  if files.isFile inProject then readReport files inProject
  else if files.isFile inOutput then readReport files inOutput
  else reportWithoutOutput settings files project

theorem promisedReport_eq (env : Environment) (settings : Config.Settings) (files : FileSystem)
    (project : Path) :
    promisedReport env settings files project =
      match firstFile? files (outputPlaces project (settings.outputFor env project)) with
      | some path => readReport files path
      | none => reportWithoutOutput settings files project := by
  unfold promisedReport firstFile? outputPlaces
  by_cases hproject : files.isFile (project.push outputName) = true
  · simp [hproject]
  · by_cases houtput : files.isFile ((settings.outputFor env project).push outputName) = true
    · simp [hproject, houtput]
    · simp [hproject, houtput]

/-- Reading output never finds an analyzer missing. -/
theorem readReport_ne_noAnalyzer (files : FileSystem) (path : Path) (sources : Nat)
    (project : Path) : readReport files path ≠ .error (.noAnalyzer sources project) := by
  unfold readReport
  split
  · simp
  · split <;> simp

/-- What is made up where there is earlier output is what that output says only if both are
empty. -/
theorem reportWithoutOutput_eq_readReport_iff {path : Path} :
    reportWithoutOutput settings files project = readReport files path ↔
      countSources settings files project = 0 ∧ readReport files path = .ok {} := by
  unfold reportWithoutOutput
  by_cases hsources : countSources settings files project = 0
  · rw [if_pos hsources]
    exact eq_comm.trans (iff_and_self.2 fun _ => hsources)
  · rw [if_neg hsources]
    exact iff_of_false (readReport_ne_noAnalyzer files path _ _).symm fun h => hsources h.1

/-! ## What is loaded -/

/-- Without an analyzer, loading leaves the files alone, and looks for output unless it has to be
made anew. -/
theorem loadReport_of_noAnalyzer (hproject : files.isDirectory project = true)
    (hjson : settings.analysisJson = none) (hjar : settings.analyzerJar = none) :
    loadReport launcher env settings files project =
      (if settings.eager then reportWithoutOutput settings files project
        else promisedReport env settings files project, files) := by
  have hmade (output : Path) : makeReport launcher settings files project output =
      (reportWithoutOutput settings files project, files) := by
    unfold makeReport
    rw [hjar]
    rfl
  unfold loadReport
  rw [hproject, hjson]
  cases heager : settings.eager with
  | true => simp [hmade]
  | false =>
    rw [promisedReport_eq]
    cases hfound : firstFile? files (outputPlaces project (settings.outputFor env project)) with
    | some path => simp [hfound]
    | none => simp [hfound, hmade]

/-- **Earlier output is passed over in vain.** Let no analyzer be set and no output be named. Then
loading a project gives the report that is promised exactly if the analyzer need not be run anew, or
there is no earlier output, or that output is the very report that is made up for a project without
sources. -/
theorem loadReport_eq_promised_iff (hproject : files.isDirectory project = true)
    (hjson : settings.analysisJson = none) (hjar : settings.analyzerJar = none) :
    loadReport launcher env settings files project =
        (promisedReport env settings files project, files) ↔
      settings.eager = false ∨
        (files.isFile (project.push "analysis.json") = false ∧
          files.isFile ((settings.outputFor env project).push "analysis.json") = false) ∨
        (countSources settings files project = 0 ∧
          promisedReport env settings files project = .ok {}) := by
  rw [loadReport_of_noAnalyzer hproject hjson hjar]
  cases heager : settings.eager with
  | false => simp
  | true =>
    unfold promisedReport outputName
    by_cases hproject : files.isFile (project.push "analysis.json") = true
    · simp [hproject, reportWithoutOutput_eq_readReport_iff]
    · by_cases houtput :
          files.isFile ((settings.outputFor env project).push "analysis.json") = true
      · simp [hproject, houtput, reportWithoutOutput_eq_readReport_iff]
      · simp [hproject, houtput]

/-! ## Output that is passed over -/

/-- A project without sources, but with output that names a file. -/
def surveyedFiles : FileSystem where
  tree := .directory [(Utf8.encode "p", .directory [(Utf8.encode "analysis.json",
    .file (Utf8.encode "\x7b\"symbol_table\":\x7b\"A.java\":\x7b\x7d\x7d\x7d") false)])]

/-- The settings with an output directory and without an analyzer. -/
def unequipped (eager : Bool) : Config.Settings where
  outputDirectory := some (.ofString "/out")
  eager := eager

theorem loadReport_eq_promised_iff_surveyed :
    surveyedFiles.isDirectory (.ofString "/p") = true ∧ (unequipped false).analysisJson = none ∧
      (unequipped false).analyzerJar = none ∧
      loadReport .none default (unequipped false) surveyedFiles (.ofString "/p") =
        (readReport surveyedFiles (.ofString "/p/analysis.json"), surveyedFiles) := by
  have hproject : surveyedFiles.isDirectory (.ofString "/p") = true := by decide +kernel
  refine ⟨hproject, rfl, rfl, ((loadReport_eq_promised_iff hproject rfl rfl).2 (.inl rfl)).trans ?_⟩
  have houtput : surveyedFiles.isFile ((Path.ofString "/p").push outputName) = true := by
    decide +kernel
  have hpath : (Path.ofString "/p").push outputName = .ofString "/p/analysis.json" := by
    decide +kernel
  unfold promisedReport
  rw [if_pos houtput, hpath]

/-- Output that exists may be passed over for an empty report. -/
theorem output_passed_over :
    ¬∀ (launcher : Launcher) (env : Environment) (settings : Config.Settings) (files : FileSystem)
      (project : Path), files.isDirectory project = true → settings.analysisJson = none →
        settings.analyzerJar = none →
          loadReport launcher env settings files project =
            (promisedReport env settings files project, files) := by
  intro hpromised
  have hloaded := hpromised .none default (unequipped true) surveyedFiles (.ofString "/p")
    (by decide +kernel) rfl rfl
  have hreports := congrArg
    (fun loaded => loaded.1.toOption.map (·.symbolTable.entries.length)) hloaded
  exact absurd hreports (by decide +kernel)

end JavaAtlas.Project
