import ShaderEmbed.Proofs.Config.Valid
import ShaderEmbed.Proofs.Text.NamespaceName
import ShaderEmbed.Proofs.Text.Trim

/-!
# Which configurations are accepted

A configuration is accepted just if its settings and targets are acceptable (`Config.Acceptable`). A
refusal for a target names the first target at fault (`Config.FirstAtFault`): one that is not
acceptable, or has the name of an earlier one. Both are read off one list of cases
(`validate_cases`), which says how far the checks come.
-/

namespace ShaderEmbed

namespace Config

variable {config : Config} {targets : List TargetConfig} {target other : TargetConfig}

/-- What is asked of the settings that are not part of a target. -/
structure SettingsAcceptable (config : Config) : Prop where
  marker : ∃ c ∈ config.project.marker.toList, Text.isBlank c = false
  header : ∃ c ∈ config.artifact.header.toList, Text.isBlank c = false
  scope : Text.isIdentifier config.artifact.scope
  space : ∃ names : List String, names ≠ [] ∧ (∀ name ∈ names, Text.isIdentifier name) ∧
    config.artifact.space = "::".intercalate names

/-- What is asked of a configuration. -/
structure Acceptable (config : Config) : Prop extends config.SettingsAcceptable where
  nonempty : config.targets ≠ []
  targets : ∀ target ∈ config.targets, target.Acceptable
  distinct : config.targetNames.Nodup

/-- A target is the first at fault: it is not acceptable or has the name of an earlier one, and the
earlier ones are acceptable and have different names. -/
def FirstAtFault (targets : List TargetConfig) (target : TargetConfig) : Prop :=
  ∃ before after, targets = before ++ target :: after ∧ (∀ earlier ∈ before, earlier.Acceptable) ∧
    (before.map TargetConfig.name).Nodup ∧
    (target.name ∈ before.map TargetConfig.name ∨ ¬ target.Acceptable)

/-! ## Settings -/

theorem isSolid_iff {s : String} : isSolid s ↔ ∃ c ∈ s.toList, Text.isBlank c = false := by
  have hempty : Text.trimmed s = "" ↔ Text.trim s.toList = [] := by
    rw [Text.trimmed, ← String.toList_inj, String.toList_ofList]
    rfl
  rw [isSolid, decide_eq_true_iff, ne_eq, hempty, Text.trim_eq_nil_iff]
  simp

theorem checkSettings_eq (config : Config) :
    config.checkSettings =
      if !isSolid config.project.marker then
        .error (.invalidSetting "project.include_marker must not be empty")
      else if !isSolid config.artifact.header then
        .error (.invalidSetting "artifact.header must not be empty")
      else if !Text.isIdentifier config.artifact.scope then
        .error (.invalidSetting ("artifact.scope '" ++ config.artifact.scope ++
          "' is not an identifier"))
      else if !Text.isNamespaceName config.artifact.space then
        .error (.invalidSetting ("artifact.namespace '" ++ config.artifact.space ++
          "' is not a namespace name"))
      else .ok () := by
  unfold checkSettings
  split_ifs <;> simp_all <;> rfl

/-- The settings pass their check just if they are acceptable, and are refused as settings
otherwise. -/
theorem checkSettings_cases (config : Config) :
    (config.checkSettings = .ok () ∧ config.SettingsAcceptable) ∨
      (∃ reason, config.checkSettings = .error (.invalidSetting reason)) ∧
      ¬ config.SettingsAcceptable := by
  rw [checkSettings_eq]
  split_ifs with hmarker hheader hscope hspace
  · refine Or.inr ⟨⟨_, rfl⟩, fun h => ?_⟩
    simp [isSolid_iff.mpr h.marker] at hmarker
  · refine Or.inr ⟨⟨_, rfl⟩, fun h => ?_⟩
    simp [isSolid_iff.mpr h.header] at hheader
  · refine Or.inr ⟨⟨_, rfl⟩, fun h => ?_⟩
    simp [h.scope] at hscope
  · refine Or.inr ⟨⟨_, rfl⟩, fun h => ?_⟩
    simp [Text.isNamespaceName_iff.mpr h.space] at hspace
  · simp only [Bool.not_eq_true', Bool.not_eq_false] at hmarker hheader hscope hspace
    exact Or.inl ⟨rfl, isSolid_iff.mp hmarker, isSolid_iff.mp hheader, hscope,
      Text.isNamespaceName_iff.mp hspace⟩

/-! ## Targets -/

theorem FirstAtFault.not_withoutFault (h : FirstAtFault targets target) :
    ¬ WithoutFault targets := by
  rintro ⟨hall, hnodup⟩
  obtain ⟨before, after, rfl, -, -, hrepeated | hfault⟩ := h
  · rw [List.map_append, List.map_cons, List.nodup_append] at hnodup
    exact hnodup.2.2 _ hrepeated _ List.mem_cons_self rfl
  · exact hfault (hall target (by simp))

theorem FirstAtFault.unique (h : FirstAtFault targets target) (h' : FirstAtFault targets other) :
    target = other := by
  obtain ⟨before, after, rfl, hbefore, hnodup, hfault⟩ := h
  obtain ⟨before', after', hsplit, hbefore', hnodup', hfault'⟩ := h'
  rcases List.append_eq_append_iff.mp hsplit with ⟨more, rfl, hmore⟩ | ⟨more, rfl, hmore⟩
  · cases more with
    | nil => exact (List.cons.inj hmore).1
    | cons first more =>
      obtain ⟨rfl, -⟩ := List.cons.inj hmore
      have hfirst : FirstAtFault (before ++ target :: more) target :=
        ⟨before, more, rfl, hbefore, hnodup, hfault⟩
      exact absurd ⟨hbefore', hnodup'⟩ hfirst.not_withoutFault
  · cases more with
    | nil => exact (List.cons.inj hmore).1.symm
    | cons first more =>
      obtain ⟨rfl, -⟩ := List.cons.inj hmore
      have hfirst : FirstAtFault (before' ++ other :: more) other :=
        ⟨before', more, rfl, hbefore', hnodup', hfault'⟩
      exact absurd ⟨hbefore, hnodup⟩ hfirst.not_withoutFault

/-! ## Configurations -/

/-- How far the checks of a configuration come. -/
theorem validate_cases (config : Config) :
    (config.validate = .ok () ∧ config.Acceptable) ∨
      (∃ reason, config.validate = .error (.invalidSetting reason)) ∧ ¬ config.SettingsAcceptable ∨
      config.validate = .error .noTargets ∧ config.targets = [] ∨
      ∃ target reason, config.validate = .error (.invalidTarget target.name reason) ∧
        config.SettingsAcceptable ∧
        FirstAtFault config.targets target := by
  unfold validate
  rcases checkSettings_cases config with ⟨hsettings, hacceptable⟩ | ⟨⟨reason, hsettings⟩, hfault⟩
  · rw [hsettings]
    by_cases hempty : config.targets = []
    · exact Or.inr (Or.inr (Or.inl ⟨by rw [hempty]; rfl, hempty⟩))
    have hgoes : (do
        (Except.ok () : Except ConfigError Unit)
        if config.targets.isEmpty then throw .noTargets
        checkTargets [] config.targets) = checkTargets [] config.targets := by
      have hsome : config.targets.isEmpty = false := by simpa using hempty
      rw [hsome]
      rfl
    rw [hgoes]
    rcases checkTargets_cases [] config.targets with ⟨hok, ⟨hall, hnodup⟩, -⟩ |
      ⟨before, target, after, reason, hsplit, herror, ⟨hbefore, hnodup⟩, -, hfault⟩
    · exact Or.inl ⟨hok, hacceptable, hempty, hall, hnodup⟩
    · refine Or.inr (Or.inr (Or.inr ⟨target, reason, herror, hacceptable, before, after,
        hsplit, hbefore, hnodup, ?_⟩))
      simpa using hfault
  · rw [hsettings]
    exact Or.inr (Or.inl ⟨⟨reason, rfl⟩, hfault⟩)

/-- A configuration is accepted just if it is acceptable. It is refused for a target just if its
settings are acceptable and a target is at fault, and the refusal names the first such target. The
identifiers that are asked for are ASCII words. -/
theorem validate_eq_ok_iff_acceptable (config : Config) :
    (config.validate = .ok () ↔ config.Acceptable) ∧
      (∀ name, (∃ reason, config.validate = .error (.invalidTarget name reason)) ↔
        config.SettingsAcceptable ∧ ∃ target, FirstAtFault config.targets target ∧
          target.name = name) ∧
      ∀ s, Text.isIdentifier s ↔ Text.IsIdentifier s := by
  rw [← and_assoc]
  refine ⟨?_, fun s => Text.isIdentifier_iff⟩
  rcases validate_cases config with
    ⟨hok, hacceptable⟩ | ⟨⟨reason, herror⟩, hfault⟩ | ⟨herror, hempty⟩ |
    ⟨target, reason, herror, hsettings, hfirst⟩
  · refine ⟨iff_of_true hok hacceptable, fun name => iff_of_false ?_ ?_⟩
    · rintro ⟨reason, herror⟩
      cases hok.symm.trans herror
    · rintro ⟨-, target, hfirst, -⟩
      exact hfirst.not_withoutFault ⟨hacceptable.targets, hacceptable.distinct⟩
  · refine ⟨iff_of_false (by simp [herror]) fun h => hfault h.toSettingsAcceptable,
      fun name => iff_of_false ?_ ?_⟩
    · simp [herror]
    · exact fun h => hfault h.1
  · refine ⟨iff_of_false (by simp [herror]) fun h => h.nonempty hempty,
      fun name => iff_of_false ?_ ?_⟩
    · simp [herror]
    · rintro ⟨-, target, ⟨before, after, hsplit, -⟩, -⟩
      simp [hempty] at hsplit
  · refine ⟨iff_of_false (by simp [herror]) fun h =>
      hfirst.not_withoutFault ⟨h.targets, h.distinct⟩, fun name => ?_⟩
    rw [herror]
    constructor
    · rintro ⟨_, ⟨rfl, rfl⟩⟩
      exact ⟨hsettings, target, hfirst, rfl⟩
    · rintro ⟨-, other, hother, rfl⟩
      rw [hfirst.unique hother]
      exact ⟨reason, rfl⟩

end Config

end ShaderEmbed
