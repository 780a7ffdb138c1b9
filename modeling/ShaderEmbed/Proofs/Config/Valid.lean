import ShaderEmbed.Config.Validate
import ShaderEmbed.Fragment.Source
import ShaderEmbed.Proofs.Artifact.Acceptance

/-!
# What a checked configuration is like

`TargetConfig.Valid` lists what the stages of a target are like when it was checked: they have
different names that are identifiers and are of the kind that its mode embeds, there is one of them
in a single text, and a chosen symbol is an identifier. With what is asked of its symbol and guard
besides, it is all that a check of a target asks for (`TargetConfig.Acceptable`,
`TargetConfig.check_eq_ok_iff`). Targets are checked in their order, up to the first that is at
fault (`checkTargets_cases`).

The targets of a configuration that was accepted are valid and have different names
(`valid_of_validate`). The mode of a valid target gives its sections different symbols
(`Valid.nodup_symbols`) and accepts their number and their kinds (`Valid.check_sections`).
-/

namespace ShaderEmbed

/-- Two steps of a computation that succeeds succeed one after the other. -/
theorem exists_of_bind_eq_ok {ε α β : Type} {x : Except ε α} {f : α → Except ε β}
    {b : β} (h : x >>= f = .ok b) :
    ∃ a, x = .ok a ∧ f a = .ok b := by
  cases x with
  | error e => cases h
  | ok a => exact ⟨a, rfl, h⟩

theorem forall_notMem_cons_iff {α β : Type} {f : α → β} {name : β} {seen : List β} {rest : List α} :
    (∀ a ∈ rest, f a ∉ name :: seen) ↔ name ∉ rest.map f ∧ ∀ a ∈ rest, f a ∉ seen := by
  simp only [List.mem_cons, not_or, List.mem_map, not_exists, not_and]
  exact ⟨fun h => ⟨fun a ha => (h a ha).1, fun a ha => (h a ha).2⟩,
    fun h a ha => ⟨h.1 a ha, h.2 a ha⟩⟩

/-! ## Targets -/

/-- What a checked target is like. -/
structure TargetConfig.Valid (target : TargetConfig) : Prop where
  nonempty : target.stages ≠ []
  single : target.mode = .textSingle → target.stages.length = 1
  identifiers : ∀ stage ∈ target.stages, Text.isIdentifier stage.name
  distinct : (target.stages.map StageSpec.name).Nodup
  kinds : ∀ stage ∈ target.stages, stage.kind = target.mode.contentKind
  symbol : ∀ symbol, target.symbol = some symbol → Text.isIdentifier symbol

/-- What a check of a target asks for: the symbol and the guard, too, go with the mode. -/
structure TargetConfig.Acceptable (target : TargetConfig) : Prop extends target.Valid where
  symbolMode : ∀ symbol, target.symbol = some symbol → target.mode = .textSingle
  guardMode : ∀ guard, target.guard = some guard → target.mode = .binaryBlob
  guard : ∀ guard, target.guard = some guard → Text.isIdentifier guard

namespace TargetConfig

theorem checkStages_eq_ok_iff {mode : TargetMode} {seen : List String} {stages : List StageSpec} :
    checkStages mode seen stages = .ok () ↔
      (∀ stage ∈ stages, Text.isIdentifier stage.name ∧ stage.kind = mode.contentKind) ∧
        (stages.map StageSpec.name).Nodup ∧ ∀ stage ∈ stages, stage.name ∉ seen := by
  induction stages generalizing seen with
  | nil => simp [checkStages]
  | cons stage rest ih =>
    unfold checkStages
    rw [List.forall_mem_cons, List.map_cons, List.nodup_cons, List.forall_mem_cons]
    split_ifs with hname hseen hkind
    · simp_all
    · simp [hseen]
    · simp [hkind]
    · have hthis : Text.isIdentifier stage.name ∧ stage.kind = mode.contentKind :=
        ⟨by simpa using hname, by simpa using hkind⟩
      rw [ih, forall_notMem_cons_iff]
      tauto

theorem check_eq (target : TargetConfig) :
    target.check =
      if target.stages.isEmpty then .error .noStages
      else if target.mode = .textSingle && target.stages.length ≠ 1 then
        .error (.manyStages target.stages.length)
      else (do
        checkStages target.mode [] target.stages
        target.checkSymbol
        target.checkGuard) := by
  unfold check
  by_cases hne : target.stages.isEmpty
  · rw [if_pos hne, if_pos hne]
    rfl
  · rw [if_neg hne, if_neg hne]
    rfl

theorem checkSymbol_eq_ok_iff {target : TargetConfig} : target.checkSymbol = .ok () ↔
    ∀ symbol, target.symbol = some symbol → target.mode = .textSingle ∧
    Text.isIdentifier symbol := by
  unfold checkSymbol
  cases target.symbol with
  | none => simp
  | some symbol => split_ifs <;> simp_all

theorem checkGuard_eq_ok_iff {target : TargetConfig} : target.checkGuard = .ok () ↔
    ∀ guard, target.guard = some guard → target.mode = .binaryBlob ∧ Text.isIdentifier guard := by
  unfold checkGuard
  cases target.guard with
  | none => simp
  | some guard => split_ifs <;> simp_all

theorem check_eq_ok_iff {target : TargetConfig} : target.check = .ok () ↔ target.Acceptable := by
  rw [check_eq]
  constructor
  · intro h
    split at h
    · cases h
    rename_i hne
    split at h
    · cases h
    rename_i hsingle
    obtain ⟨⟨⟩, hstages, h⟩ := exists_of_bind_eq_ok h
    obtain ⟨⟨⟩, hsymbol, hguard⟩ := exists_of_bind_eq_ok h
    obtain ⟨hall, hnodup, -⟩ := checkStages_eq_ok_iff.mp hstages
    rw [checkSymbol_eq_ok_iff] at hsymbol
    rw [checkGuard_eq_ok_iff] at hguard
    exact {
      nonempty := by simpa using hne
      single := fun hmode => by simpa [hmode] using hsingle
      identifiers := fun stage hstage => (hall stage hstage).1
      distinct := hnodup
      kinds := fun stage hstage => (hall stage hstage).2
      symbol := fun symbol h => (hsymbol symbol h).2
      symbolMode := fun symbol h => (hsymbol symbol h).1
      guardMode := fun guard h => (hguard guard h).1
      guard := fun guard h => (hguard guard h).2 }
  · intro h
    have hstages : checkStages target.mode [] target.stages = .ok () := checkStages_eq_ok_iff.mpr
      ⟨fun stage hstage => ⟨h.identifiers stage hstage, h.kinds stage hstage⟩, h.distinct, by simp⟩
    have hsymbol : target.checkSymbol = .ok () :=
      checkSymbol_eq_ok_iff.mpr fun symbol hsymbol =>
        ⟨h.symbolMode symbol hsymbol, h.symbol symbol hsymbol⟩
    have hguard : target.checkGuard = .ok () :=
      checkGuard_eq_ok_iff.mpr fun guard hguard => ⟨h.guardMode guard hguard, h.guard guard hguard⟩
    rw [if_neg (by simpa using h.nonempty), if_neg (by simpa using h.single),
      hstages, hsymbol, hguard]
    rfl

namespace Valid

variable {target : TargetConfig} {sections : List Section}

theorem nodup_symbols (h : target.Valid)
    (hnames : sections.map Section.name = target.stages.map StageSpec.name) :
    (sections.map target.embeddingMode.symbol).Nodup := by
  have hdistinct := h.distinct
  rw [← hnames] at hdistinct
  have hsuffix (suffix : String) : (sections.map fun s => s.name ++ suffix).Nodup := by
    have hnodup := hdistinct.map (f := fun name => name ++ suffix) fun name other =>
      (String.append_left_inj suffix).mp
    rwa [List.map_map] at hnodup
  unfold embeddingMode
  cases hmode : target.mode with
  | textMulti => exact hsuffix "ShaderSrc"
  | textSingle =>
    have hlength : sections.length = 1 := by
      simpa [h.single hmode] using congrArg List.length hnames
    obtain ⟨s, rfl⟩ := List.length_eq_one_iff.mp hlength
    exact List.nodup_singleton _
  | binaryBlob => exact hsuffix "Bin"

theorem isIdentifier_symbol (h : target.Valid) {s : Section}
    (hname : s.name ∈ target.stages.map StageSpec.name) :
    Text.isIdentifier (target.embeddingMode.symbol s) := by
  obtain ⟨stage, hstage, hsame⟩ := List.mem_map.mp hname
  refine ArtifactLayout.isIdentifier_symbol (hsame ▸ h.identifiers stage hstage)
    fun symbol hmode => ?_
  unfold embeddingMode at hmode
  split at hmode
  · cases hmode
  · exact h.symbol symbol (EmbeddingMode.textSingle.inj hmode)
  · cases hmode

theorem contentKind_embeddingMode (target : TargetConfig) :
    target.embeddingMode.contentKind = target.mode.contentKind := by
  unfold embeddingMode
  cases target.mode <;> rfl

/-- The mode of a valid target accepts a section of the right kind for each of its stages. -/
theorem check_sections (h : target.Valid)
    (hkinds : (sections.map fun s => s.content.kind) = target.stages.map StageSpec.kind) :
    target.embeddingMode.check sections = .ok () := by
  have hlength : sections.length = target.stages.length := by
    simpa using congrArg List.length hkinds
  refine EmbeddingMode.check_eq_ok_iff.mpr ⟨?_, fun hsingle => ?_, fun s hs => ?_⟩
  · rintro rfl
    exact h.nonempty (List.length_eq_zero_iff.mp hlength.symm)
  · rw [hlength]
    refine h.single ?_
    unfold embeddingMode at hsingle
    cases hmode : target.mode with
    | textSingle => rfl
    | textMulti | binaryBlob =>
      rw [hmode] at hsingle
      cases hsingle
  · have hmem : s.content.kind ∈ target.stages.map StageSpec.kind := hkinds ▸ List.mem_map_of_mem hs
    obtain ⟨stage, hstage, hkind⟩ := List.mem_map.mp hmem
    rw [← hkind, h.kinds stage hstage, contentKind_embeddingMode]

end Valid

end TargetConfig

/-! ## Configurations -/

namespace Config

/-- Targets without a fault: they are acceptable and have different names. -/
def WithoutFault (targets : List TargetConfig) : Prop :=
  (∀ target ∈ targets, target.Acceptable) ∧ (targets.map TargetConfig.name).Nodup

theorem withoutFault_cons {target : TargetConfig} {rest : List TargetConfig} :
    WithoutFault (target :: rest) ↔ target.Acceptable ∧ target.name ∉ rest.map TargetConfig.name ∧
    WithoutFault rest := by
  rw [WithoutFault, WithoutFault, List.forall_mem_cons, List.map_cons, List.nodup_cons]
  tauto

/-- Checking targets one by one ends at the first that has a name from before or is not
acceptable. -/
theorem checkTargets_cases (seen : List String) (targets : List TargetConfig) :
    (checkTargets seen targets = .ok () ∧ WithoutFault targets ∧
      ∀ target ∈ targets, target.name ∉ seen) ∨
      ∃ before target after reason, targets = before ++ target :: after ∧
        checkTargets seen targets = .error (.invalidTarget target.name reason) ∧
        WithoutFault before ∧ (∀ earlier ∈ before, earlier.name ∉ seen) ∧
        (target.name ∈ seen ∨ target.name ∈ before.map TargetConfig.name ∨
          ¬ target.Acceptable) := by
  have hnone : WithoutFault [] := ⟨by simp, by simp⟩
  induction targets generalizing seen with
  | nil => exact Or.inl ⟨rfl, hnone, by simp⟩
  | cons target rest ih =>
    rw [checkTargets]
    by_cases hseen : target.name ∈ seen
    · rw [if_pos hseen]
      exact Or.inr ⟨[], target, rest, _, rfl, rfl, hnone, by simp, Or.inl hseen⟩
    rw [if_neg hseen, TargetConfig.validate]
    cases hcheck : target.check with
    | error fault =>
      have hfault : ¬ target.Acceptable := by
        rw [← TargetConfig.check_eq_ok_iff, hcheck]
        simp
      exact Or.inr ⟨[], target, rest, fault.message, rfl, rfl, hnone,
        by simp, Or.inr (Or.inr hfault)⟩
    | ok checked =>
      have hthis : target.Acceptable := TargetConfig.check_eq_ok_iff.mp hcheck
      have hgoes : (do
          (Except.ok checked : Except TargetFault Unit).mapError fun fault =>
            .invalidTarget target.name fault.message
          checkTargets (target.name :: seen) rest) = checkTargets (target.name :: seen) rest := rfl
      rw [hgoes]
      rcases ih (target.name :: seen) with ⟨hok, hrest, hfresh⟩ |
        ⟨before, faulty, after, reason, rfl, herror, hbefore, hfresh, hfault⟩
      · rw [forall_notMem_cons_iff] at hfresh
        exact Or.inl ⟨hok, withoutFault_cons.mpr ⟨hthis, hfresh.1, hrest⟩,
          List.forall_mem_cons.mpr ⟨hseen, hfresh.2⟩⟩
      · rw [forall_notMem_cons_iff] at hfresh
        refine Or.inr ⟨target :: before, faulty, after, reason, rfl, herror,
          withoutFault_cons.mpr ⟨hthis, hfresh.1, hbefore⟩,
            List.forall_mem_cons.mpr ⟨hseen, hfresh.2⟩, ?_⟩
        rw [List.mem_cons, or_assoc] at hfault
        rw [List.map_cons, List.mem_cons]
        tauto

/-- The targets of an accepted configuration are valid, and no two have the same name. -/
theorem valid_of_validate {config : Config} (h : config.validate = .ok ()) :
    (∀ target ∈ config.targets, target.Valid) ∧ config.targetNames.Nodup := by
  obtain ⟨⟨⟩, -, h⟩ := exists_of_bind_eq_ok h
  split at h
  · cases h
  rcases checkTargets_cases [] config.targets with
    ⟨-, ⟨hall, hnodup⟩, -⟩ | ⟨_, _, _, _, -, herror, -⟩
  · exact ⟨fun target htarget => (hall target htarget).toValid, hnodup⟩
  · cases h.symm.trans herror

end Config

end ShaderEmbed
