import ShaderEmbed.Fragment.Expansion

/-!
# How an expansion goes

The equations of `expandLines` and `FragmentSource.expand`, one for each thing that a line or a
fragment can do, and what follows for their results. `exists_of_expandLines_error` finds the line
that ended a failed expansion: every line before it passed. No later proof unfolds the two
functions.
-/

namespace ShaderEmbed

/-! ## Results -/

theorem map_eq_error_iff {ε α β : Type} {x : Except ε α} {f : α → β} {e : ε} :
    x.map f = .error e ↔ x = .error e := by
  cases x <;> simp [Except.map]

namespace Attempt

@[simp] theorem result_fail (e : ShaderError) : (fail e).result = .error e := rfl

@[simp] theorem result_afterText (line : String) (rest : Attempt) :
    (afterText line rest).result = rest.result.map fun flat => ⟨line ++ flat.text, flat.sources⟩ :=
  rfl

@[simp] theorem result_entered (path : Path) (lines : Attempt) :
    (entered path lines).result = lines.result.map fun flat => ⟨flat.text, path :: flat.sources⟩ :=
  rfl

theorem result_followedBy_of_ok {inclusion : Inclusion} {included : Attempt} {rest : Unit → Attempt}
    {flat : Flattened} (h : included.result = .ok flat) :
    (followedBy inclusion included rest).result =
      (rest ()).result.map fun more => ⟨flat.text ++ more.text, flat.sources ++ more.sources⟩ := by
  simp only [followedBy, h]

theorem result_followedBy_of_error {inclusion : Inclusion}
    {included : Attempt} {rest : Unit → Attempt} {e : ShaderError}
    (h : included.result = .error e) :
    (followedBy inclusion included rest).result = .error e := by
  simp only [followedBy, h]

end Attempt

/-! ## Lines -/

section Lines

variable {marker : String} {stack : List Active} {path : Path} {sub : Path → Attempt} {number : Nat}
  {line : String} {rest : List String} {reference : String} {e : ShaderError}

theorem expandLines_ordinary (h : Line.classify marker line = .ordinary) :
    expandLines marker stack path sub number (line :: rest) =
      .afterText line (expandLines marker stack path sub (number + 1) rest) := by
  simp only [expandLines, h]

theorem expandLines_blank (h : Line.classify marker line = .blank) :
    expandLines marker stack path sub number (line :: rest) =
      .fail (.malformedInclude path number) := by
  simp only [expandLines, h]

theorem expandLines_includes (h : Line.classify marker line = .includes reference) :
    expandLines marker stack path sub number (line :: rest) =
      .followedBy ⟨stack, included path reference⟩ (sub (included path reference))
        fun _ => expandLines marker stack path sub (number + 1) rest := by
  simp only [expandLines, h]

/-- A line that does not end the expansion of the fragment at a path: an ordinary one, or a
directive whose fragment expands. -/
def Passes (marker : String) (path : Path) (sub : Path → Attempt) (line : String) : Prop :=
  Line.classify marker line = .ordinary ∨
    ∃ reference, Line.classify marker line = .includes reference ∧
      ∃ flat, (sub (included path reference)).result = .ok flat

/-- A line that ends an expansion: a directive without a reference, or one whose fragment does not
expand. -/
inductive Stops (marker : String) (path : Path) (sub : Path → Attempt)
    (number : Nat) (line : String) :
    ShaderError → Prop
  | blank (hline : Line.classify marker line = .blank) :
      Stops marker path sub number line (.malformedInclude path number)
  | includes {reference : String} {e : ShaderError}
      (hline : Line.classify marker line = .includes reference)
      (hsub : (sub (included path reference)).result = .error e) :
      Stops marker path sub number line e

theorem Stops.or_passes (marker : String) (path : Path) (sub : Path → Attempt)
    (number : Nat) (line : String) :
    Passes marker path sub line ∨ ∃ e, Stops marker path sub number line e := by
  cases hline : Line.classify marker line with
  | ordinary => exact Or.inl (Or.inl hline)
  | blank => exact Or.inr ⟨_, .blank hline⟩
  | includes reference =>
    cases hsub : (sub (included path reference)).result with
    | error e => exact Or.inr ⟨e, .includes hline hsub⟩
    | ok flat => exact Or.inl (Or.inr ⟨reference, hline, flat, hsub⟩)

theorem result_expandLines_of_stops (h : Stops marker path sub number line e) :
    (expandLines marker stack path sub number (line :: rest)).result = .error e := by
  cases h with
  | blank hline => rw [expandLines_blank hline, Attempt.result_fail]
  | includes hline hsub => rw [expandLines_includes hline, Attempt.result_followedBy_of_error hsub]

theorem result_expandLines_of_passes (h : Passes marker path sub line)
    (herror : (expandLines marker stack path sub number (line :: rest)).result = .error e) :
    (expandLines marker stack path sub (number + 1) rest).result = .error e := by
  rcases h with hline | ⟨reference, hline, flat, hsub⟩
  · rw [expandLines_ordinary hline, Attempt.result_afterText] at herror
    exact map_eq_error_iff.mp herror
  · rw [expandLines_includes hline, Attempt.result_followedBy_of_ok hsub] at herror
    exact map_eq_error_iff.mp herror

theorem exists_of_expandLines_error {lines : List String}
    (h : (expandLines marker stack path sub number lines).result = .error e) :
    ∃ before line after, lines = before ++ line :: after ∧
      (∀ earlier ∈ before, Passes marker path sub earlier) ∧
      Stops marker path sub (number + before.length) line e := by
  induction lines generalizing number with
  | nil => cases h
  | cons line rest ih =>
    rcases Stops.or_passes marker path sub number line with hpasses | ⟨e', hstops⟩
    · obtain ⟨before, stopping, after, rfl, hbefore, hstops⟩ :=
        ih (result_expandLines_of_passes hpasses h)
      refine ⟨line :: before, stopping, after, rfl, ?_, ?_⟩
      · exact List.forall_mem_cons.mpr ⟨hpasses, hbefore⟩
      · have hnumber : number + (line :: before).length = number + 1 + before.length := by
          simp only [List.length_cons]
          omega
        rwa [hnumber]
    · rw [result_expandLines_of_stops hstops] at h
      cases h
      exact ⟨[], line, rest, rfl, by simp, hstops⟩

end Lines

/-! ## Fragments -/

namespace FragmentSource

variable {source : FragmentSource} {marker : String} {stack : List Active}
  {path : Path} {id : Identity} {text : String} {e : ShaderError}

/-- What an expansion does, without the proofs that it comes to an end. -/
theorem expand_eq (source : FragmentSource) (marker : String) (stack : List Active) (path : Path) :
    source.expand marker stack path =
      match source.identity path with
      | .error e => .fail e
      | .ok id =>
        if id ∈ stack.map Active.identity then
          .fail (.cyclicInclude path (stack.map Active.path ++ [path]))
        else
          match source.read path with
          | .error e => .fail e
          | .ok text =>
            .entered path
              (expandLines marker (stack ++ [⟨id, path⟩]) path
                (source.expand marker (stack ++ [⟨id, path⟩])) 1 (Text.terminatedLines text)) := by
  rw [expand]
  split
  · rename_i hid
    simp only [hid]
  · rename_i hid
    simp only [hid]
    split
    · rfl
    · split
      · rename_i hread
        simp only [hread]
      · rename_i hread
        simp only [hread]

theorem expand_of_identity_error (h : source.identity path = .error e) :
    source.expand marker stack path = .fail e := by
  simp only [expand_eq, h]

theorem expand_of_active (hid : source.identity path = .ok id)
    (hactive : id ∈ stack.map Active.identity) :
    source.expand marker stack path =
      .fail (.cyclicInclude path (stack.map Active.path ++ [path])) := by
  simp only [expand_eq, hid, if_pos hactive]

theorem expand_of_read_error (hid : source.identity path = .ok id)
    (hnew : id ∉ stack.map Active.identity) (hread : source.read path = .error e) :
    source.expand marker stack path = .fail e := by
  simp only [expand_eq, hid, if_neg hnew, hread]

theorem expand_of_read (hid : source.identity path = .ok id) (hnew : id ∉ stack.map Active.identity)
    (hread : source.read path = .ok text) :
    source.expand marker stack path =
      .entered path
        (expandLines marker (stack ++ [⟨id, path⟩]) path
          (source.expand marker (stack ++ [⟨id, path⟩])) 1 (Text.terminatedLines text)) := by
  simp only [expand_eq, hid, if_neg hnew, hread]

/-- Two sources that name their fragments alike and miss the same ones are expanded in a
corresponding way, if the fragments that they hold are: each in its turn, inside fragments for which
this is so. -/
theorem expand_related {source' : FragmentSource} {R : Attempt → Attempt → Prop}
    (hidentity : source'.identity = source.identity) (hfail : ∀ e, R (.fail e) (.fail e))
    (hmissing : ∀ p e, source.read p = .error e → source'.read p = .error e)
    (hheld : ∀ stack p text, source.read p = .ok text →
      (∀ next, R (source.expand marker stack next) (source'.expand marker stack next)) →
        ∃ text', source'.read p = .ok text' ∧
          R (.entered p
            (expandLines marker stack p (source.expand marker stack) 1 (Text.terminatedLines text)))
            (.entered p
              (expandLines marker stack p (source'.expand marker stack) 1
                (Text.terminatedLines text'))))
    (stack : List Active) (p : Path) :
    R (source.expand marker stack p) (source'.expand marker stack p) := by
  induction stack, p using expand.induct source with
  | case1 stack p e hid =>
    rw [expand_of_identity_error hid, expand_of_identity_error ((congrFun hidentity p).trans hid)]
    exact hfail e
  | case2 stack p id hid hactive =>
    rw [expand_of_active hid hactive, expand_of_active ((congrFun hidentity p).trans hid) hactive]
    exact hfail _
  | case3 stack p id hid hnew e hread =>
    rw [expand_of_read_error hid hnew hread,
      expand_of_read_error ((congrFun hidentity p).trans hid) hnew (hmissing p e hread)]
    exact hfail e
  | case4 stack p id hid hnew text hread ih =>
    obtain ⟨text', hread', hlines⟩ := hheld _ p text hread ih
    rw [expand_of_read hid hnew hread,
      expand_of_read ((congrFun hidentity p).trans hid) hnew hread']
    exact hlines

end FragmentSource

/-! ## Fragments in memory -/

namespace FragmentMap

variable {fragments : FragmentMap} {p : Path}

theorem get?_of_read {content : String} (h : fragments.source.read p = .ok content) :
    fragments.get? p = some content := by
  simp only [source] at h
  split at h
  · rename_i hget
    cases h
    exact hget
  · cases h

theorem get?_of_read_error {e : ShaderError} (h : fragments.source.read p = .error e) :
    fragments.get? p = none ∧ e = .notFound p := by
  simp only [source] at h
  split at h
  · cases h
  · rename_i hget
    cases h
    exact ⟨hget, rfl⟩

end FragmentMap

end ShaderEmbed
