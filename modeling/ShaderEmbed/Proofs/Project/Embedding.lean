import ShaderEmbed.Config.Preset
import ShaderEmbed.Project.Build
import ShaderEmbed.Proofs.Config.Valid
import ShaderEmbed.Proofs.Run.Failure

/-!
# What an accepted configuration can embed

Checking a configuration and rendering an artifact state the same rules twice, and the stages of a
target stand between them. A target of an accepted configuration is `Embeddable`: its sections have
different identifiers for symbols, and they are refused only where a flattened text has no free
delimiter. Rendering itself is `Faithful` to any sections: it succeeds just if the mode accepts
them, needs nothing to spare, and embeds each of them with its own content, which stands in the
artifact as it is (`Shows`).
-/

namespace ShaderEmbed

/-- A run resolves all stages, and the text of one of them has no free delimiter. -/
def Pipeline.LacksDelimiter (self : Pipeline) (world : World) (target : TargetSpec)
    (fault : SectionFault) : Prop :=
  ∃ asked left shaders, self.Resolves world target.stages asked left shaders ∧
    ∃ shader ∈ shaders, ∃ text, shader.content = .text text ∧ ¬ Delimiter.HasFree text.toList ∧
      fault = .noDelimiter shader.stage

/-- What a target embeds whatever its stages come to. -/
structure TargetConfig.Embeddable (target : TargetConfig) (root : Path) : Prop where
  /-- The sections of a run are refused for want of a delimiter only. -/
  refused : ∀ (pipeline : Pipeline) (world : World) (label : String) (fault : SectionFault),
    pipeline.StagesFailApart →
    (pipeline.run (target.toSpec root) world).result = .error (.sectionMismatch label fault) →
      pipeline.LacksDelimiter world (target.toSpec root) fault
  /-- Sections that are named after the stages have different symbols. -/
  distinct : ∀ sections : List Section, sections.map Section.name =
    target.stages.map StageSpec.name →
    (sections.map target.embeddingMode.symbol).Nodup
  /-- The symbols are identifiers. -/
  identifiers : ∀ sections : List Section, sections.map Section.name =
    target.stages.map StageSpec.name →
    ∀ s ∈ sections, Text.isIdentifier (target.embeddingMode.symbol s)

/-- How some sections are rendered. -/
structure Faithful (layout : ArtifactLayout) (mode : EmbeddingMode) (sections : List Section) :
    Prop where
  /-- They are rendered just if the mode accepts them. -/
  accepted : (∃ text, render layout mode sections = .ok text) ↔ mode.Accepts sections
  /-- Nothing to spare is used. -/
  spare : ∀ spare, renderByMode layout mode spare sections = render layout mode sections
  /-- Each is embedded in a block of its own, with its own content. -/
  embedded : ∀ text, render layout mode sections = .ok text → ∃ blocks,
    text = layout.opening ++ guarded mode.guard? ("\n".intercalate blocks) ∧
      List.Forall₂ (fun s block => Embeds layout mode s block ∧ Shows mode block s) sections blocks
  /-- None of them is left out, nor its content. -/
  shown : ∀ text, render layout mode sections = .ok text → ∀ s ∈ sections, Shows mode text s

/-- What is rendered for some sections: a block for each that embeds it, and shows its content. -/
theorem exists_blocks {layout : ArtifactLayout} {mode : EmbeddingMode} {sections : List Section}
    {text : String} (h : render layout mode sections = .ok text) : ∃ blocks,
      text = layout.opening ++ guarded mode.guard? ("\n".intercalate blocks) ∧
        List.Forall₂ (fun s block => Embeds layout mode s block ∧
          Shows mode block s) sections blocks := by
  rcases render_cases layout (ArtifactLayout.exists_of_render h).1 with
    ⟨blocks, hblocks, hall, -⟩ | ⟨s, -, _, hfault, -⟩
  · rw [h] at hblocks
    exact ⟨blocks, Except.ok.inj hblocks, hall.imp fun s block hembeds => ⟨hembeds, hembeds.shows⟩⟩
  · rw [h] at hfault
    cases hfault

theorem shows_of_render {layout : ArtifactLayout} {mode : EmbeddingMode} {sections : List Section}
    {text : String} (h : render layout mode sections = .ok text) {s : Section} (hs : s ∈ sections) :
    Shows mode text s := by
  obtain ⟨blocks, rfl, hall⟩ := exists_blocks h
  obtain ⟨block, hblock, -, hshows⟩ := ArtifactLayout.exists_of_mem_forall₂ hall hs
  have hjoined : block.toList <:+: ("\n".intercalate blocks).toList :=
    Text.infix_toList_intercalate hblock
  refine hshows.within
    (hjoined.trans ⟨(layout.opening ++ ArtifactLayout.guardOpening mode.guard?).toList,
    (ArtifactLayout.guardEnding mode.guard?).toList, ?_⟩)
  simp only [ArtifactLayout.guarded_eq, String.toList_append, List.append_assoc]

theorem faithful (layout : ArtifactLayout) (mode : EmbeddingMode) (sections : List Section) :
    Faithful layout mode sections where
  accepted := exists_render_iff
  spare spare := renderByMode_eq layout mode spare sections
  embedded _ := exists_blocks
  shown _ htext _ := shows_of_render htext

/-- The sections of a valid target are refused for want of a delimiter only. -/
theorem TargetConfig.Valid.lacksDelimiter {target : TargetConfig} (h : target.Valid)
    (root : Path) {pipeline : Pipeline} (hpipeline : pipeline.StagesFailApart) {world : World}
    {label : String} {fault : SectionFault}
    (hrun : (pipeline.run (target.toSpec root) world).result =
      .error (.sectionMismatch label fault)) :
    pipeline.LacksDelimiter world (target.toSpec root) fault := by
  obtain ⟨asked, left, shaders, hall, hrender⟩ := Pipeline.render_of_mismatch hpipeline hrun
  refine ⟨asked, left, shaders, hall, ?_⟩
  have hkinds : ((shaders.map ResolvedShader.toSection).map fun s => s.content.kind) =
      target.stages.map StageSpec.kind := by
    rw [List.map_map]
    exact hall.names_kinds.2
  rcases render_cases pipeline.layout (h.check_sections hkinds) with
    ⟨blocks, hrendered, -⟩ | ⟨s, hs, text, hfault, hcontent, hfree⟩
  · cases hrender.symm.trans hrendered
  · obtain ⟨shader, hshader, rfl⟩ := List.mem_map.mp hs
    cases hrender.symm.trans hfault
    exact ⟨shader, hshader, text, hcontent, hfree, rfl⟩

theorem TargetConfig.Valid.embeddable {target : TargetConfig} (h : target.Valid) (root : Path) :
    target.Embeddable root where
  refused _ _ _ _ hpipeline hrun := h.lacksDelimiter root hpipeline hrun
  distinct _ hnames := h.nodup_symbols hnames
  identifiers _ hnames _ hs := h.isIdentifier_symbol (hnames ▸ List.mem_map_of_mem hs)

namespace Config

/-- The stages of a configured pipeline fail apart from its sections. -/
theorem stagesFailApart (config : Config) : config.pipeline.StagesFailApart :=
  Pipeline.stagesFailApart_of (fun world =>
    FragmentSource.isApart_ofDirectory world.tree world.cwd config.shaderRoot)
    fun entry => config.externalTool.compile_failsAs entry

/-- Every target of an accepted configuration is embeddable, in its own pipeline among others, and
rendering is faithful to whatever sections there are. -/
theorem embeddable_of_validate {config : Config} (h : config.validate = .ok ()) :
    (∀ target ∈ config.targets, target.Embeddable config.root) ∧ config.pipeline.StagesFailApart ∧
      ∀ layout mode sections, Faithful layout mode sections :=
  ⟨fun target htarget => ((valid_of_validate h).1 target htarget).embeddable config.root,
    config.stagesFailApart, faithful⟩

theorem embeddable_standard :
    standard.validate = .ok () ∧ (∀ target ∈ Preset.all, target.Embeddable .empty) ∧
    standard.pipeline.StagesFailApart ∧
      ∀ layout mode sections, Faithful layout mode sections :=
  have hvalid : standard.validate = .ok () := by decide +kernel
  ⟨hvalid, embeddable_of_validate hvalid⟩

end Config

end ShaderEmbed
